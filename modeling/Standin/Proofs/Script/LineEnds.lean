import Standin.Proofs.Script.Constants
import Standin.Proofs.Script.Operands

namespace Standin.Script

open Reading

/-- Whether a statement that ends in an operand goes on with a token. -/
def Token.extends (t : Token) : Bool :=
  t.continues || t.kind = .punct .comma || t.kind = .punct .semicolon

theorem Token.extends_eq_false {t : Token} : t.extends = false ↔
    t.continues = false ∧ t.kind ≠ .punct .comma ∧ t.kind ≠ .punct .semicolon := by
  simp [Token.extends, and_assoc]

/-- On a new line a word extends nothing unless it is an operator. -/
theorem Token.extends_of_word {t : Token} {w : String} (hKind : t.kind = .word w)
    (hLine : t.onNewLine = true) (h : w ∉ ["in", "instanceof"]) : t.extends = false := by
  simpa [Token.extends, Token.continues, hKind, hLine] using h

/-- A statement ends behind a semicolon, or where it is. -/
theorem endStatement_yields {s : State} :
    Yields endStatement s fun _ s' => s.token.kind = .punct .semicolon ∧ s' = s.next ∨
      s.token.kind ≠ .punct .semicolon ∧ s' = s := by
  by_cases hKind : s.token.kind = .punct .semicolon
  · have hEat : eat .semicolon s = .ok true s.next := by simp [hKind]
    exact .known hEat (.pure (.inl ⟨hKind, rfl⟩))
  · have hEat : eat .semicolon s = .ok false s := by simp [hKind]
    refine .known hEat (.known (canEndHere_apply s) ?_)
    split
    · exact .pure (.inr ⟨hKind, rfl⟩)
    · exact .of_error rfl

/-- The first of many items is the one that is read first. -/
theorem many_yields {α : Type} {isEnd : Reading Bool} {item : Reading α} {s : State}
    (hMore : isEnd s = .ok false s) :
    Yields (many isEnd item) s fun items _ =>
      ∃ x s', item s = .ok x s' ∧ items.head? = some x := by
  refine .loop
    (fun back t => back = [] ∧ t = s ∨ ∃ x s', item s = .ok x s' ∧ back.getLast? = some x)
    (fun back t hKept => ?_) (.inl ⟨rfl, rfl⟩)
  rcases hKept with ⟨rfl, rfl⟩ | ⟨x, s', hRead, hLast⟩
  · refine .known hMore (.bind (fun a t' hFirst => hFirst) fun a t' hFirst => .pure ?_)
    exact .inr ⟨a, t', hFirst, rfl⟩
  · refine .behind fun atEnd _ => ?_
    split
    · exact .pure ⟨x, s', hRead, by rw [List.head?_reverse, hLast]⟩
    · refine .behind fun a _ => .pure (.inr ⟨x, s', hRead, ?_⟩)
      rw [List.getLast?_cons, hLast]
      rfl

/-- A program begins with the statement that is read first. -/
theorem programRule_yields {g : Grammar} {s : State} (hSome : s.token.kind ≠ .eof) :
    Yields (programRule g) s fun p _ =>
      ∃ first s', g.statement .list s = .ok first s' ∧ p.body.head? = some first := by
  unfold programRule
  have hMore : (do return (← kind) == .eof : Reading Bool) s = .ok false s := by simp [hSome]
  refine .bind (many_yields hMore) fun body _ hBody => ?_
  refine .behind fun _ _ => .behind fun _ _ => .behind fun _ _ => ?_
  dsimp only
  split
  · exact .pure hBody
  · exact .behind fun _ _ => .pure hBody

namespace Grammar

/-- Words and marks that bind a constant to a name. -/
structure BindsName (n v : String) (s : State) : Prop extends BindsConstant n s where
  value : s.next.next.next.token.kind = .word v

variable {n v : String} {s : State}

/-- The state behind `const n = v`. -/
abbrev behindName (s : State) : State := s.next.next.next.next

def boundName (s : State) (n v : String) : Declarator :=
  .mk (.name (nameAt s.next n) []) [.ident (nameAt s.next.next.next v)]

def boundNameStmt (s : State) (n v : String) : Stmt :=
  .decl (.variable ⟨s.token.start, s.next.next.next.token.stop⟩ .constant false [boundName s n v])

variable (h : BindsName n v s) (hName : isFreeName n = true)
include h hName

variable (hValue : isFreeName v = true) (hLine : (behindName s).token.onNewLine = true)
include hValue hLine

/-- At the end of a line the constant is a statement of its own unless the next token extends
it. -/
theorem statementRule_boundName (k : Nat) (hEnds : (behindName s).token.extends = false) :
    (ofDepth (k + 5)).statementRule .list s = .ok (boundNameStmt s n v) (behindName s) := by
  obtain ⟨hContinues, hComma, hSemicolon⟩ := Token.extends_eq_false.mp hEnds
  have hOne := one_name h.value hValue hContinues k
  have hDeclarator : (ofDepth (k + 5)).declarator .constant .statement s.next =
      .ok (boundName s n v) (behindName s) := by
    simp [declarator_eq h.toBindsConstant hName, hOne, boundName, nameAt]
  have hDeclaration : (ofDepth (k + 5)).variableDeclaration s.token.start false .statement s =
      .ok (.variable ⟨s.token.start, s.next.next.next.token.stop⟩ .constant false
        [boundName s n v]) (behindName s) := by
    simp [variableDeclaration, bindingKind_eq h.toBindsConstant, declarators, loop, iterate,
      hDeclarator, hComma]
    rfl
  have hEnd : endStatement (behindName s) = .ok ⟨⟩ (behindName s) := by
    simp [endStatement, canEndHere, hSemicolon, hLine]
  rw [statementRule_eq h.toBindsConstant hName]
  simp [variableStatement, hDeclaration, hEnd, checkPlace, boundNameStmt]
  rfl

variable (hScope : s.scope.decorating = false) (hIn : s.scope.inOperator = true)
  (hGreater : GreaterRead (behindName s))
include hScope hIn hGreater

theorem declarator_yields (k : Nat) :
    Yields ((ofDepth (k + 5)).declarator .constant .statement) s.next fun d t =>
      d = boundName s n v →
        (behindName s).Tried t ∧ (behindName s).token.continues = false := by
  refine .of_same (declarator_eq h.toBindsConstant hName k) ?_
  refine .bind (one_yields h.value hValue hScope k hIn hGreater hLine) fun value t hAlone => ?_
  refine .pure fun hSame => ?_
  cases hSame
  exact (hAlone rfl).2

theorem declarators_yields (k : Nat) :
    Yields ((ofDepth (k + 5)).declarators .constant .statement) s.next fun ds t =>
      ds = [boundName s n v] → (behindName s).Tried t ∧
        (behindName s).token.continues = false ∧ (behindName s).token.kind ≠ .punct .comma := by
  refine .loop (fun back t => back = [] → t = s.next) (fun back t hKept => ?_) fun _ => rfl
  -- more declarators are told apart by their number, so only the first is looked into
  have hFirst : Yields ((ofDepth (k + 5)).declarator .constant .statement) t fun d t' =>
      back = [] → d = boundName s n v →
        (behindName s).Tried t' ∧ (behindName s).token.continues = false := by
    intro d t' hRead hNil
    obtain rfl := hKept hNil
    exact declarator_yields h hName hValue hLine hScope hIn hGreater k d t' hRead
  refine .bind hFirst fun d t' hFound => ?_
  by_cases hComma : t'.token.kind = .punct .comma
  · have hEat : eat .comma t' = .ok true t'.next := by simp [hComma]
    exact .known hEat (.pure fun hNil => by cases hNil)
  · have hEat : eat .comma t' = .ok false t' := by simp [hComma]
    refine .known hEat (.pure fun hAll => ?_)
    obtain ⟨rfl, rfl⟩ : d = boundName s n v ∧ back = [] := by
      have hBack := congrArg List.reverse hAll
      rw [List.reverse_reverse, List.reverse_singleton] at hBack
      exact List.cons.inj hBack
    obtain ⟨hTried, hContinues⟩ := hFound rfl rfl
    exact ⟨hTried, hContinues, hTried.token ▸ hComma⟩

theorem variableDeclaration_yields (k : Nat) :
    Yields ((ofDepth (k + 5)).variableDeclaration s.token.start false .statement) s fun d t =>
      ∃ span ds, d = .variable span .constant false ds ∧ (ds = [boundName s n v] →
        (behindName s).Tried t ∧ (behindName s).token.continues = false ∧
          (behindName s).token.kind ≠ .punct .comma) := by
  refine .known (bindingKind_eq h.toBindsConstant) ?_
  refine .bind (declarators_yields h hName hValue hLine hScope hIn hGreater k) fun ds t hFound => ?_
  exact .known (spanFrom_apply t _) (.pure ⟨_, ds, rfl, hFound⟩)

/-- A constant that is a statement of its own is not extended by the next token. -/
theorem statementRule_yields (k : Nat)
    (hLong : (behindName s).token.kind = .punct .semicolon →
      s.next.next.next.token.stop < (behindName s).token.stop) :
    Yields ((ofDepth (k + 5)).statementRule .list) s fun found _ =>
      found = boundNameStmt s n v → (behindName s).token.extends = false := by
  refine .of_same (statementRule_eq h.toBindsConstant hName _ _) (.known (start_apply s) ?_)
  refine .bind (variableDeclaration_yields h hName hValue hLine hScope hIn hGreater k) ?_
  rintro d t ⟨span, ds, rfl, hFound⟩
  refine .bind endStatement_yields fun _ t' hEnd => ?_
  have hPlace : checkPlace .list s.token.start t' = .ok ⟨⟩ t' := by simp [checkPlace]
  refine .known hPlace (.known (spanFrom_apply t' _) (.pure fun hSame => ?_))
  injection hSame with hSame
  injection hSame with hSpan _ _ hAll
  injection hSpan with _ hStop
  obtain ⟨hTried, hContinues, hComma⟩ := hFound hAll
  refine Token.extends_eq_false.mpr ⟨hContinues, hComma, fun hSemicolon => ?_⟩
  obtain ⟨-, rfl⟩ | ⟨hNot, -⟩ := hEnd
  · have hLong := hLong hSemicolon
    have hLast : t.next.lastStop = (behindName s).token.stop := hTried.token ▸ rfl
    omega
  · exact hNot (hTried.token ▸ hSemicolon)

end Grammar

theorem punctAmong_greaterPuncts {text : List Char} (h : punctAt text = some .greater) :
    ∃ p, punctAmong greaterPuncts text = some p := by
  have hPrefix : Punct.greater.text.toList.isPrefixOf text = true :=
    List.isPrefixOf_iff_prefix.mpr (prefix_of_punctAt h)
  have hFound : (punctAmong greaterPuncts text).isSome = true :=
    List.find?_isSome.mpr ⟨.greater, by decide, hPrefix⟩
  exact Option.isSome_iff_exists.mp hFound

theorem next_punct {s : State} {p : Punct} (h : s.next.token.kind = .punct p) :
    punctAt s.next.here = some p ∧ s.token.stop + p.text.length ≤ s.next.token.stop := by
  cases hOpen : (gap (!s.dialect.modular) false .plain s.rest).isOpen with
  | true =>
    simp [State.next, State.scanFrom, State.place, hOpen, invalid] at h
  | false =>
    simp only [State.next, State.scanFrom, State.place, hOpen, Bool.false_eq_true, if_false] at h ⊢
    obtain ⟨hLength, hMark⟩ := scan_punct h
    exact ⟨hMark, by omega⟩

theorem greaterRead_next (s : State) : Grammar.GreaterRead s.next :=
  fun hKind => punctAmong_greaterPuncts (next_punct hKind).1

/-- The token behind the gap at the start of a text. -/
def tokenBehind (d : Dialect) (position : Nat) (text : List Char) : Token :=
  let g := gap (!d.modular) false .plain text
  let found := if g.isOpen then invalid else scan (text.drop g.length)
  { kind := found.kind, start := position + g.length, stop := position + g.length + found.length,
    onNewLine := g.hasLineEnd, escaped := found.escaped, flawed := found.flawed }

theorem next_token (s : State) : s.next.token = tokenBehind s.dialect s.token.stop s.rest := rfl

def boundNameText (n v : String) : List Char :=
  "const".toList ++ ' ' :: (n.toList ++ ' ' :: '=' :: ' ' :: v.toList)

/-- The statement that a text beginning with `const n = v` begins with. -/
def firstBound (n v : String) : Stmt :=
  let behind := 9 + n.toList.length
  .decl (.variable ⟨0, behind + v.toList.length⟩ .constant false
    [.mk (.name ⟨⟨6, 6 + n.toList.length⟩, n⟩ []) [.ident ⟨⟨behind, behind + v.toList.length⟩, v⟩]])

section Texts

variable (d : Dialect) {n v : String} {tail : List Char} (hName : isSimpleName n = true)
  (hValue : isSimpleName v = true) (hTail : endsWord tail = true)

theorem scan_assign (r : List Char) :
    scan ('=' :: ' ' :: r) = ⟨.punct .assign, 1, false, false⟩ := rfl

theorem boundNameText_append : boundNameText n v ++ tail = "const".toList ++
    (' ' :: (n.toList ++ (' ' :: '=' :: ' ' :: (v.toList ++ tail)))) := by
  delta boundNameText
  simp only [List.append_assoc, List.cons_append]

include hName hValue hTail

theorem initial_boundName {s : State} (hStart : State.initial d (boundNameText n v ++ tail) = s) :
    s.scope = d.scope ∧ Grammar.BindsName n v s ∧ Grammar.boundNameStmt s n v = firstBound n v ∧
      (Grammar.behindName s).token =
        tokenBehind d (9 + n.toList.length + v.toList.length) tail := by
  have hName := (Bool.and_eq_true_iff.mp hName).1
  have hValue := (Bool.and_eq_true_iff.mp hValue).1
  have hConst : isPlainWord "const".toList = true := by decide
  have h₀ := State.initial_of_word hConst
    (endsWord_blank (n.toList ++ (' ' :: '=' :: ' ' :: (v.toList ++ tail)))) d
  rw [← boundNameText_append, hStart] at h₀
  have h₁ := State.next_of_word s hName (endsWord_blank ('=' :: ' ' :: (v.toList ++ tail)))
    (by rw [h₀]; rfl)
  have hAssign : s.next.rest = ' ' :: '=' :: ' ' :: (v.toList ++ tail) := by rw [h₁]; rfl
  have h₂ := State.next_of_isSolid s.next hAssign (by decide)
  rw [scan_assign] at h₂
  have h₃ := State.next_of_word s.next.next hValue hTail (by rw [h₂]; rfl)
  have hToken₀ : s.token = ⟨.word "const", 0, 5, false, false, false⟩ := by rw [h₀]; rfl
  have hToken₁ : s.next.token =
      ⟨.word n, 6, 6 + n.toList.length, false, false, false⟩ := by
    rw [h₁, hToken₀]; rfl
  have hToken₂ : s.next.next.token = ⟨.punct .assign, 6 + n.toList.length + 1,
      6 + n.toList.length + 1 + 1, false, false, false⟩ := by
    rw [h₂, hToken₁]; rfl
  have hToken₃ : s.next.next.next.token = ⟨.word v, 6 + n.toList.length + 1 + 1 + 1,
      6 + n.toList.length + 1 + 1 + 1 + v.toList.length, false, false, false⟩ := by
    rw [h₃, hToken₂]; rfl
  have hNine : 6 + n.toList.length + 1 + 1 + 1 = 9 + n.toList.length := by omega
  rw [hNine] at hToken₃
  refine ⟨by rw [h₀]; rfl, ⟨⟨?_, ?_, ?_, ?_⟩, ?_⟩, ?_, ?_⟩
  · rw [hToken₀]
  · rw [hToken₀]
  · rw [hToken₁]
  · rw [hToken₂]
  · rw [hToken₃]
  · simp only [Grammar.boundNameStmt, Grammar.boundName, Grammar.nameAt, hToken₀, hToken₁, hToken₃]
    rfl
  · have hRest : s.next.next.next.rest = tail := by rw [h₃]; rfl
    have hDialect : s.next.next.next.dialect = d := by rw [h₃, h₂, h₁, h₀]; rfl
    rw [Grammar.behindName, next_token, hToken₃, hRest, hDialect]

/-- A text begins with the constant as a statement of its own exactly where the next token does not
extend it. -/
theorem parse_boundName (hLine : (tokenBehind d 0 tail).onNewLine = true) {q : Program}
    {faults : List SyntaxFault} (h : parse d (boundNameText n v ++ tail) = .ok (q, faults)) :
    q.body.head? = some (firstBound n v) ↔ (tokenBehind d 0 tail).extends = false := by
  obtain ⟨k, hDepth⟩ : ∃ k, depthFor (boundNameText n v ++ tail).length = k + 6 :=
    ⟨depthFor (boundNameText n v ++ tail).length - 6, by unfold depthFor; omega⟩
  generalize hStart : State.initial d (boundNameText n v ++ tail) = s
  obtain ⟨hScope, hBinds, hFirst, hBehind⟩ := initial_boundName d hName hValue hTail hStart
  have hName := (Bool.and_eq_true_iff.mp hName).2
  have hValue := (Bool.and_eq_true_iff.mp hValue).2
  have hLine : (Grammar.behindName s).token.onNewLine = true := by rw [hBehind]; exact hLine
  have hExtends : (Grammar.behindName s).token.extends = (tokenBehind d 0 tail).extends := by
    rw [hBehind]
    rfl
  have hSome : s.token.kind ≠ .eof := by simp [hBinds.const]
  obtain ⟨t, hRead⟩ : ∃ t, programRule (Grammar.ofDepth (k + 6)) s = .ok q t := by
    rw [parse, hDepth, hStart] at h
    split at h
    · next p t hProgram =>
      cases h
      exact ⟨t, hProgram⟩
    · cases h
  obtain ⟨first, t', hStatement, hHead⟩ := programRule_yields hSome q t hRead
  have hStatement : (Grammar.ofDepth (k + 5)).statementRule .list s = .ok first t' := hStatement
  rw [hHead, ← hFirst, ← hExtends, Option.some_inj]
  constructor
  · exact Grammar.statementRule_yields hBinds hName hValue hLine (by rw [hScope]; rfl)
      (by rw [hScope]; rfl) (greaterRead_next _) k (fun hMark => (next_punct hMark).2) first t'
      hStatement
  · intro hEnds
    have hAlone := Grammar.statementRule_boundName hBinds hName hValue hLine k hEnds
    cases hStatement.symm.trans hAlone
    rfl

omit hName hValue hTail

theorem tokenBehind_word {w : String} (h : isPlainWord w.toList = true)
    (hTail : endsWord tail = true) (position : Nat) :
    tokenBehind d position (' ' :: (w.toList ++ tail)) =
      ⟨.word w, position + 1, position + 1 + w.toList.length, false, false, false⟩ := by
  have hScan := State.scanFrom_blank (State.before d []) position false (w.toList ++ tail)
  rw [State.scanFrom_word _ _ _ h hTail] at hScan
  exact congrArg State.token hScan

/-- Behind a line end stands a token on a new line. -/
theorem onNewLine_tokenBehind (position : Nat) (text : List Char) :
    (tokenBehind d position ('\n' :: text)).onNewLine = true := by
  simp only [tokenBehind, gap_line]
  rfl

theorem kind_tokenBehind_line {w : String} (h : isPlainWord w.toList = true)
    (hTail : endsWord tail = true) (position : Nat) :
    (tokenBehind d position ('\n' :: (w.toList ++ tail))).kind = .word w := by
  have hScan := scan_word h hTail
  have hGap : gap (!d.modular) true .plain (w.toList ++ tail) = ⟨0, false, false⟩ := by
    generalize w.toList = chars at h
    cases chars with
    | nil => cases h
    | cons c more =>
      simp only [isPlainWord, Bool.and_eq_true] at h
      exact gap_of_isSolid _ _ _ (isSolid_of_isIdStart h.1)
  simp only [tokenBehind, gap_line, hGap, Gap.further, Gap.acrossLine, List.drop_succ_cons,
    List.drop_zero, Bool.false_eq_true, if_false, hScan, String.ofList_toList]

end Texts

end Standin.Script
