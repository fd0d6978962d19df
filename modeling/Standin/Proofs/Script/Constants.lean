import Standin.Proofs.Script.ImportLists

namespace Standin.Script

open Reading

/-- Outside of loops and decorators. -/
structure Scope.IsOuter (sc : Scope) : Prop where
  inOperator : sc.inOperator = true
  decorating : sc.decorating = false

theorem Scope.IsOuter.unchanged {sc : Scope} (h : sc.IsOuter) :
    { sc with inOperator := true, decorating := false } = sc := by
  rw [← h.inOperator, ← h.decorating]

theorem Dialect.isOuter_scope (d : Dialect) : d.scope.IsOuter := ⟨rfl, rfl⟩

namespace Grammar

/-- Words and marks that begin a constant. -/
structure BindsConstant (n : String) (s : State) : Prop where
  const : s.token.kind = .word "const"
  plain : s.token.escaped = false
  name : s.next.token.kind = .word n
  assign : s.next.next.token.kind = .punct .assign

section Constants

variable {n : String} {s : State} (h : BindsConstant n s) (hName : isFreeName n = true)
include h

theorem bindingKind_eq : bindingKind s = .ok .constant s.next := by
  simp [bindingKind, word?, h.const, advanceKeyword, h.plain]

include hName

theorem declarator_eq (k : Nat) :
    (ofDepth (k + 5)).declarator .constant .statement s.next =
      (do
        let value ← (ofDepth (k + 5)).one
        return Declarator.mk (.name (nameAt s.next n) []) [value]) s.next.next.next := by
  have hPattern : (ofDepth (k + 5)).pattern s.next =
      .ok (.name (nameAt s.next n) []) s.next.next := by
    show (ofDepth (k + 4)).patternRule s.next = _
    simp [patternRule, h.name, variableName_of_isFreeName h.name hName, nameAt]
  simp only [declarator, bind_apply, hPattern]
  simp [h.assign, annotation, checkInitializer, typedPattern]

theorem statementRule_eq (k : Nat) (place : Place) :
    (ofDepth k).statementRule place s = (ofDepth k).variableStatement place s := by
  have hEnum : n ≠ "enum" := by
    rintro rfl
    exact absurd hName (by decide)
  simp [statementRule, h.const, wordStatement, isEnumAhead, h.name, hEnum, beginsVariables, word?]

/-- A constant ends at the semicolon behind its value. -/
theorem statementRule_constant {k : Nat} {e : Expr} {t : State}
    (hOne : (ofDepth (k + 5)).one s.next.next.next = .ok e t)
    (hEnd : t.token.kind = .punct .semicolon) :
    (ofDepth (k + 5)).statementRule .list s =
      .ok (.decl (.variable ⟨s.token.start, t.next.lastStop⟩ .constant false
        [.mk (.name (nameAt s.next n) []) [e]])) t.next := by
  have hDeclarator : (ofDepth (k + 5)).declarator .constant .statement s.next =
      .ok (.mk (.name (nameAt s.next n) []) [e]) t := by simp [declarator_eq h hName, hOne]
  have hDeclaration : (ofDepth (k + 5)).variableDeclaration s.token.start false .statement s =
      .ok (.variable ⟨s.token.start, t.lastStop⟩ .constant false
        [.mk (.name (nameAt s.next n) []) [e]]) t := by
    simp [variableDeclaration, bindingKind_eq h, declarators, loop, iterate, hDeclarator, hEnd]
  have hStop : endStatement t = .ok ⟨⟩ t.next := by simp [endStatement, hEnd]
  rw [statementRule_eq h hName]
  simp [variableStatement, hDeclaration, hStop, checkPlace]

end Constants

variable {base s t : State} {tail : List Char} {w : String}

theorem oneWithIn_of_one {g : Grammar} {e : Expr} (hIn : s.scope.inOperator = true)
    (hSame : t.scope = s.scope) (h : g.one s = .ok e t) : g.oneWithIn s = .ok e t :=
  within_of_fixed _ (by rw [← hIn]) h hSame

theorem expressionWithIn_of_one {k : Nat} {e : Expr} (hIn : s.scope.inOperator = true)
    (hSame : t.scope = s.scope) (h : (ofDepth k).one s = .ok e t)
    (hComma : t.token.kind ≠ .punct .comma) : (ofDepth (k + 1)).expressionWithIn s = .ok e t := by
  have hExpression : (ofDepth (k + 1)).expression s = .ok e t := by
    show (ofDepth k).expressionRule s = _
    simp [expressionRule, h, hComma]
  exact within_of_fixed _ (by rw [← hIn]) hExpression hSame

theorem element_of_one {g : Grammar} {e : Expr} (hKind : s.token.kind ≠ .punct .ellipsis)
    (hIn : s.scope.inOperator = true) (hSame : t.scope = s.scope) (h : g.one s = .ok e t) :
    g.element s = .ok (.one e) t := by
  simp [element, hKind, oneWithIn_of_one hIn hSame h]

section Strings

variable {value : String} {halved : Bool} (hString : s.token.kind = .string value halved)
include hString

theorem atOperand_of_string : AtOperand s where
  unaryRule g := by simp [Grammar.unaryRule, hString]
  isYield := by simp [Grammar.isYield, hString]
  asyncSimpleArrow g _ := by simp [Grammar.asyncSimpleArrow, hString]
  likelyArrow := by simp [Grammar.likelyArrow, hString]
  notPrivate := by simp [hString]

theorem primaryRule_string (g : Grammar) : g.primaryRule s =
    .ok (.string ⟨⟨s.token.start, s.token.stop⟩, value, halved⟩) s.next := by
  simp [primaryRule, hString, stringLiteral]

theorem one_string (hEnds : s.next.token.continues = false) (k : Nat) : (ofDepth (k + 5)).one s =
    .ok (.string ⟨⟨s.token.start, s.token.stop⟩, value, halved⟩) s.next := by
  have hPrimary : (ofDepth (k + 1)).primary s = _ := primaryRule_string hString (ofDepth k)
  exact (atOperand_of_string hString).one (access_of_primary hPrimary hEnds) hEnds

end Strings

theorem one_boolean {value : Bool} (hWord : s.token.kind = .word (toString value))
    (hPlain : s.token.escaped = false) (hEnds : s.next.token.continues = false) (k : Nat) :
    (ofDepth (k + 5)).one s = .ok (.boolean ⟨s.token.start, s.next.lastStop⟩ value) s.next := by
  have hOperand : AtOperand s := .of_word hWord (by cases value <;> decide)
  have hPrimary : (ofDepth (k + 1)).primary s =
      .ok (.boolean ⟨s.token.start, s.next.lastStop⟩ value) s.next := by
    show (ofDepth k).primaryRule s = _
    cases value with
    | false =>
      have hWord : s.token.kind = .word "false" := hWord
      simp [primaryRule, hWord, wordExpression, hPlain]
    | true =>
      have hWord : s.token.kind = .word "true" := hWord
      simp [primaryRule, hWord, wordExpression, hPlain]
  exact hOperand.one (access_of_primary hPrimary hEnds) hEnds

/-- A written key and its value. -/
theorem property_pair {g : Grammar} {key : String} {halved : Bool} {e : Expr}
    (hKey : s.token.kind = .string key halved) (hColon : s.next.token.kind = .punct .colon)
    (hValue : g.oneWithIn s.next.next = .ok e t) : g.property s =
      .ok (.pair (.string ⟨⟨s.token.start, s.token.stop⟩, key, halved⟩) e) t := by
  have hModifiers : modifiers s = .ok [] s := by
    simp [modifiers, loop, iterate, word?, hKey]
  simp [property, hKey, hModifiers, accessorKind, word?, isVariableName, propertyKey,
    stringLiteral, hColon, hValue]

theorem continues_of_entryEnd {tail rest : List Char} {p : Punct} (h : EntryEnd tail p rest)
    (hMark : s.token.kind = .punct p) : s.token.continues = false ∧ p ≠ .less := by
  cases h <;> simp [Token.continues, hMark, Punct.continues] <;> decide

/-- A name as the value of a written key. -/
theorem readsEntry_pair (hOuter : base.scope.IsOuter) (key : String)
    (hVariable : base.scope.isVariable w = true) (k : Nat) :
    ReadsEntryOf base (ofDepth (k + 5)).property
      ((Json.quote key).toList ++ ':' :: ' ' :: w.toList) fun p =>
        ∃ s n, p = .pair (.string s) (.ident n) ∧ s.value = key ∧ n.text = w := by
  intro s kind tail mark rest hEnd h
  simp only [List.append_assoc, List.cons_append] at h
  obtain ⟨hPlain, -⟩ := Scope.isVariable_iff.mp hVariable
  have h₁ := h.next_blank (.quote key _)
  have h₂ := h₁.next (.colon _)
  have h₃ := h₂.next_blank (.word hPlain hEnd.endsWord)
  have h₄ := hEnd.stands h₃
  obtain ⟨hEnds, hLess⟩ := continues_of_entryEnd hEnd h₄.kind
  have hValue := oneWithIn_of_one (by rw [h₃.scope, hOuter.inOperator])
    (h₄.scope.trans h₃.scope.symm)
    (one_variable h₃.kind (h₃.scope ▸ hVariable) h₄.kind hEnds hLess k)
  exact ⟨by simp [h₁.kind],
    .of_eq (property_pair h₁.kind h₂.kind hValue) ⟨⟨_, _, rfl, rfl, rfl⟩, h₄⟩⟩

variable {ε : Type} {text : ε → List Char} {told : ε → Property → Prop} {entry : ε} {more : List ε}

/-- An object is read entry by entry up to its brace. -/
theorem objectLiteral_entries {g : Grammar} (hOuter : base.scope.IsOuter)
    (hEntries : ∀ e ∈ entry :: more, ReadsEntryOf base g.property (text e) (told e))
    (hSize : more.length ≤ base.size)
    (h : State.Stands base s (.punct .braceL)
      (' ' :: (text entry ++ entriesText tail (more.map text)))) :
    Finds g.objectLiteral s fun e t => (∃ span ps, e = .object span ps ∧
      List.Forall₂ told (entry :: more) ps) ∧
      ∃ u, t = u.next ∧ State.Stands base u (.punct .braceR) tail := by
  obtain ⟨ps, u, hRead, hAll, hClose⟩ := separated_entries hEntries hSize h
  have hScope : s.next.scope.IsOuter := h.scope ▸ hOuter
  have hInside := within_of_fixed (fun sc => { sc with inOperator := true, decorating := false })
    hScope.unchanged hRead (hClose.scope.trans h.scope.symm)
  refine .of_eq (a := .object ⟨s.token.start, u.next.lastStop⟩ ps) ?_
    ⟨⟨_, ps, rfl, hAll⟩, u, rfl, hClose⟩
  simp [objectLiteral, h.kind, hInside, hClose.kind]

theorem atOperand_of_brace (h : s.token.kind = .punct .braceL) : AtOperand s where
  unaryRule g := by simp [Grammar.unaryRule, h, unaryPuncts]
  isYield := by simp [Grammar.isYield, h]
  asyncSimpleArrow g _ := by simp [Grammar.asyncSimpleArrow, h]
  likelyArrow := by simp [Grammar.likelyArrow, h]
  notPrivate := by simp [h]

/-- An object that ends is a whole expression. -/
theorem one_object {k : Nat} {e : Expr} (hKind : s.token.kind = .punct .braceL)
    (h : (ofDepth k).objectLiteral s = .ok e t) (hEnds : t.token.continues = false) :
    (ofDepth (k + 5)).one s = .ok e t := by
  have hPrimary : (ofDepth (k + 1)).primary s = .ok e t := by
    show (ofDepth k).primaryRule s = _
    simp [primaryRule, hKind, h]
  exact (atOperand_of_brace hKind).one (access_of_primary hPrimary hEnds) hEnds

theorem arguments_two {g : Grammar} {a b : Element} {u : State} (hOuter : s.scope.IsOuter)
    (hOpen : s.token.kind = .punct .parenL) (hFirst : s.next.token.kind ≠ .punct .parenR)
    (hA : g.element s.next = .ok a t) (hComma : t.token.kind = .punct .comma)
    (hSecond : t.next.token.kind ≠ .punct .parenR) (hB : g.element t.next = .ok b u)
    (hClose : u.token.kind = .punct .parenR) (hSame : u.scope = s.scope) :
    g.arguments s = .ok [a, b] u.next := by
  have hRead : separated .parenR g.element s.next = .ok [a, b] u := by
    simp [separated, loop, iterate, hFirst, hA, hComma, hSecond, hB, hClose]
  have hScope : s.next.scope.IsOuter := hOuter
  have hInside := within_of_fixed (fun sc => { sc with inOperator := true, decorating := false })
    hScope.unchanged hRead hSame
  simp [Grammar.arguments, hOpen, hInside, hClose]

theorem accesses_of_none {g : Grammar} {pos : Nat} {a : Access}
    (h : g.accessStep pos a s = .ok none s) : g.accesses pos a s = .ok a s := by
  simp [accesses, loop, iterate, h]

section Applied

variable {k : Nat} (hWord : s.token.kind = .word w) (hFree : isFreeName w = true)
  (hEnds : t.token.continues = false)
include hWord hFree hEnds

/-- A call of a function by its name. -/
theorem one_call {all : List Element} (hOpen : s.next.token.kind = .punct .parenL)
    (hRead : (ofDepth (k + 1)).arguments s.next = .ok all t) :
    (ofDepth (k + 5)).one s =
      .ok (.call ⟨s.token.start, t.lastStop⟩ (.ident (nameAt s w)) [] all) t := by
  have hPrimary : (ofDepth (k + 1)).primary s = _ := primaryRule_name (ofDepth k) hWord hFree
  have hFirst (pos : Nat) (a : Access) :
      (ofDepth (k + 1)).accesses pos a s.next = .ok a s.next :=
    accesses_of_none (by simp [accessStep, hOpen])
  have hCall (pos : Nat) : (ofDepth (k + 1)).callStep pos ⟨.ident (nameAt s w), false⟩ s.next =
      .ok (some ⟨.call ⟨pos, t.lastStop⟩ (.ident (nameAt s w)) [] all, false⟩) t := by
    simp [callStep, hOpen, hRead, callOf]
  have hLast (pos : Nat) (a : Access) : (ofDepth (k + 1)).accesses pos a t = .ok a t :=
    accesses_of_none (accessStep_of_ends _ hEnds pos a)
  have hAccess : (ofDepth (k + 2)).access s =
      .ok (.call ⟨s.token.start, t.lastStop⟩ (.ident (nameAt s w)) [] all) t := by
    show (ofDepth (k + 1)).accessRule s = _
    have hName : (⟨⟨s.token.start, s.token.stop⟩, w⟩ : Name) = nameAt s w := rfl
    simp [accessRule, hPrimary, hName, calls, loop, iterate, hFirst, hCall, hLast,
      callStep_of_ends _ hEnds, chained]
  exact (atOperand_of_name hWord hFree).one hAccess hEnds

/-- An element of an object, by its name. -/
theorem one_index {key : Expr} {u : State} (hOpen : s.next.token.kind = .punct .bracketL)
    (hScope : s.scope.decorating = false)
    (hRead : (ofDepth (k + 1)).expressionWithIn s.next.next = .ok key u)
    (hClose : u.token.kind = .punct .bracketR) (hNext : u.next = t) :
    (ofDepth (k + 5)).one s =
      .ok (.index ⟨s.token.start, t.lastStop⟩ (.ident (nameAt s w)) key) t := by
  subst hNext
  have hPrimary : (ofDepth (k + 1)).primary s = _ := primaryRule_name (ofDepth k) hWord hFree
  have hScope : s.next.scope.decorating = false := hScope
  have hStep (pos : Nat) (a : Access) : (ofDepth (k + 1)).accessStep pos a s.next =
      .ok (some { a with expr := .index ⟨pos, u.next.lastStop⟩ a.expr key }) u.next := by
    simp [accessStep, hOpen, hScope, hRead, hClose]
  have hFirst (pos : Nat) (a : Access) : (ofDepth (k + 1)).accesses pos a s.next =
      .ok { a with expr := .index ⟨pos, u.next.lastStop⟩ a.expr key } u.next := by
    simp [accesses, loop, iterate, hStep, accessStep_of_ends _ hEnds]
  have hAccess : (ofDepth (k + 2)).access s =
      .ok (.index ⟨s.token.start, u.next.lastStop⟩ (.ident (nameAt s w)) key) u.next := by
    show (ofDepth (k + 1)).accessRule s = _
    have hName : (⟨⟨s.token.start, s.token.stop⟩, w⟩ : Name) = nameAt s w := rfl
    simp [accessRule, hPrimary, hName, calls, loop, iterate, hFirst, callStep_of_ends _ hEnds,
      chained]
  exact (atOperand_of_name hWord hFree).one hAccess hEnds

end Applied

/-- `n = f({ entry, … }, flag);` -/
def objectCallText (n f : String) (flag : Bool) (entry : List Char) (more : List (List Char)) :
    List Char :=
  n.toList ++ ' ' :: '=' :: ' ' :: (f.toList ++ '(' :: '{' :: ' ' ::
    (entry ++ entriesText (',' :: ' ' :: ((toString flag).toList ++ [')', ';'])) more))

/-- `n = m["key"];` -/
def elementText (n m key : String) : List Char :=
  n.toList ++ ' ' :: '=' :: ' ' :: (m.toList ++ '[' :: ((Json.quote key).toList ++ [']', ';']))

theorem endsWord_mark {c : Char} (r : List Char) (h : c ∈ ['(', ')', '[', ']', ';', ',']) :
    endsWord (c :: r) = true := by
  have hOther : Text.isIdContinue c = false ∧ c ≠ '\\' := by
    simp only [List.mem_cons, List.not_mem_nil, or_false] at h
    rcases h with rfl | rfl | rfl | rfl | rfl | rfl <;> decide
  exact endsWord_cons r hOther.1 hOther.2

theorem continues_of_mark {p : Punct} (hKind : s.token.kind = .punct p)
    (h : p ∈ [Punct.comma, .parenR, .bracketR, .semicolon]) : s.token.continues = false := by
  have hAll : ∀ p ∈ [Punct.comma, .parenR, .bracketR, .semicolon],
      p.continues = false ∧ [Punct.bang, .increment, .decrement].contains p = false := by decide
  simp only [Token.continues, hKind, (hAll p h).1, (hAll p h).2, Bool.and_false, Bool.or_false]

theorem bindsConstant {n : String} {more : List Char} (hPlain : isPlainWord n.toList = true)
    (h : State.Stands base s (.word "const") (' ' :: (n.toList ++ ' ' :: '=' :: ' ' :: more))) :
    BindsConstant n s ∧ State.Stands base s.next.next (.punct .assign) (' ' :: more) := by
  have hName := h.next_blank (.word hPlain (endsWord_blank _))
  have hAssign := hName.next_blank (.assign more)
  exact ⟨⟨h.kind, h.plain, hName.kind, hAssign.kind⟩, hAssign⟩

section Reads

variable (hOuter : base.scope.IsOuter) {n f m : String} (hName : isSimpleName n = true)
include hOuter hName

/-- A constant bound to a call with an object is read up to its semicolon. -/
theorem reads_objectCall (hFunction : isSimpleName f = true) (k : Nat) {flag : Bool}
    (hEntries : ∀ e ∈ entry :: more,
      ReadsEntryOf base (ofDepth (k + 5)).property (text e) (told e))
    (hSize : more.length ≤ base.size) :
    ReadsBehind base ((ofDepth (k + 14)).statementRule .list) "const"
      (objectCallText n f flag (text entry) (more.map text)) fun stmt =>
        ∃ span bound callee callSpan objectSpan ps flagSpan,
          stmt = .decl (.variable span .constant false [.mk (.name bound []) [.call callSpan
            (.ident callee) [] [.one (.object objectSpan ps), .one (.boolean flagSpan flag)]]]) ∧
          bound.text = n ∧ callee.text = f ∧ List.Forall₂ told (entry :: more) ps := by
  obtain ⟨hPlain, hFree⟩ := Bool.and_eq_true_iff.mp hName
  obtain ⟨hPlain', hFree'⟩ := Bool.and_eq_true_iff.mp hFunction
  have hFlag : isPlainWord (toString flag).toList = true := by cases flag <;> decide
  intro s tail h
  simp only [objectCallText, List.append_assoc, List.cons_append, entriesText_append,
    List.nil_append] at h
  obtain ⟨hConstant, h₂⟩ := bindsConstant hPlain h
  have h₃ := h₂.next_blank (.word hPlain' (endsWord_mark _ (by decide)))
  have h₄ := h₃.next (.parenL _)
  have h₅ := h₄.next (.braceL _)
  obtain ⟨e, t, hObject, ⟨objectSpan, ps, rfl, hAll⟩, u, rfl, hU⟩ :=
    objectLiteral_entries hOuter hEntries hSize h₅
  have h₆ := hU.next (.comma _)
  have h₇ := h₆.next_blank (.word hFlag (endsWord_mark _ (by decide)))
  have h₈ := h₇.next (.parenR _)
  have h₉ := h₈.next (.semicolon tail)
  have hFirst := element_of_one (by simp [h₅.kind]) (by rw [h₅.scope, hOuter.inOperator])
    (h₆.scope.trans h₅.scope.symm)
    (one_object h₅.kind hObject (continues_of_mark h₆.kind (by decide)))
  have hSecond := element_of_one (by simp [h₇.kind]) (by rw [h₇.scope, hOuter.inOperator])
    (h₈.scope.trans h₇.scope.symm)
    (one_boolean h₇.kind h₇.plain (continues_of_mark h₈.kind (by decide)) (k + 5))
  have hArguments := arguments_two (h₄.scope ▸ hOuter) h₄.kind (by simp [h₅.kind]) hFirst h₆.kind
    (by simp [h₇.kind]) hSecond h₈.kind (h₈.scope.trans h₄.scope.symm)
  have hCall := one_call h₃.kind hFree' (continues_of_mark h₉.kind (by decide)) h₄.kind hArguments
  exact .of_eq (statementRule_constant hConstant hFree hCall h₉.kind)
    ⟨⟨_, _, _, _, _, ps, _, rfl, rfl, rfl, hAll⟩, _, _, rfl, h₉⟩

/-- A constant bound to an element is read up to its semicolon. -/
theorem reads_element (hObject : isSimpleName m = true) (key : String) (k : Nat) :
    ReadsBehind base ((ofDepth (k + 14)).statementRule .list) "const" (elementText n m key)
      fun stmt => ∃ span bound indexSpan object s,
        stmt = .decl (.variable span .constant false [.mk (.name bound [])
          [.index indexSpan (.ident object) (.string s)]]) ∧
        bound.text = n ∧ object.text = m ∧ s.value = key := by
  obtain ⟨hPlain, hFree⟩ := Bool.and_eq_true_iff.mp hName
  obtain ⟨hPlain', hFree'⟩ := Bool.and_eq_true_iff.mp hObject
  intro s tail h
  simp only [elementText, List.append_assoc, List.cons_append, List.nil_append] at h
  obtain ⟨hConstant, h₂⟩ := bindsConstant hPlain h
  have h₃ := h₂.next_blank (.word hPlain' (endsWord_mark _ (by decide)))
  have h₄ := h₃.next (.bracketL _)
  have h₅ := h₄.next (.quote key _)
  have h₆ := h₅.next (.bracketR _)
  have h₇ := h₆.next (.semicolon tail)
  have hKey := expressionWithIn_of_one (by rw [h₅.scope, hOuter.inOperator])
    (h₆.scope.trans h₅.scope.symm)
    (one_string h₅.kind (continues_of_mark h₆.kind (by decide)) (k + 4)) (by simp [h₆.kind])
  have hIndex := one_index h₃.kind hFree' (continues_of_mark h₇.kind (by decide)) h₄.kind
    (by rw [h₃.scope, hOuter.decorating]) hKey h₆.kind rfl
  exact .of_eq (statementRule_constant hConstant hFree hIndex h₇.kind)
    ⟨⟨_, _, _, _, _, rfl, rfl, rfl, rfl⟩, _, _, rfl, h₇⟩

end Reads

end Grammar

end Standin.Script
