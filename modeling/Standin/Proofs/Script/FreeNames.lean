import Standin.Proofs.Script.Reading
import Standin.Proofs.Script.Words

namespace Standin.Script

open Reading

/-- Marks that take the operand before them further on any line. -/
def Punct.continues (p : Punct) : Bool :=
  [.parenL, .bracketL, .dot, .optionalDot, .question, .arrow].contains p ||
    (Grammar.levelOf p).isSome || Grammar.assignPuncts.contains p

def Token.continues (t : Token) : Bool :=
  match t.kind with
  | .template .. => true
  | .word w => ["in", "instanceof"].contains w || !t.onNewLine && ["as", "satisfies"].contains w
  | .punct p => p.continues || !t.onNewLine && [.bang, .increment, .decrement].contains p
  | _ => false

/-- A word that means nothing but a name. -/
def isFreeName (w : String) : Bool :=
  !isReserved w && !(["await", "yield", "async"].contains w)

theorem isFreeName_iff {w : String} : isFreeName w = true ↔
    isReserved w = false ∧ w ≠ "await" ∧ w ≠ "yield" ∧ w ≠ "async" := by
  simp [isFreeName]

/-- A word without escapes that means nothing but a name. -/
def isSimpleName (n : String) : Bool := isPlainWord n.toList && isFreeName n

/-- Whether a word without escapes names a variable where a scope holds. -/
def Scope.isVariable (sc : Scope) (w : String) : Bool :=
  isPlainWord w.toList && !isReserved w && !(w == "await" && sc.awaits) &&
    !(w == "yield" && sc.yields)

theorem Scope.isVariable_iff {sc : Scope} {w : String} : sc.isVariable w = true ↔
    isPlainWord w.toList = true ∧ isReserved w = false ∧ (w = "await" → sc.awaits = false) ∧
      (w = "yield" → sc.yields = false) := by
  simp [Scope.isVariable, and_assoc, Decidable.imp_iff_not_or]

theorem isVariable_of_isSimpleName {w : String} (h : isSimpleName w = true) (sc : Scope) :
    sc.isVariable w = true := by
  obtain ⟨hPlain, hFree⟩ := Bool.and_eq_true_iff.mp h
  obtain ⟨hReserved, hAwait, hYield, -⟩ := isFreeName_iff.mp hFree
  exact Scope.isVariable_iff.mpr
    ⟨hPlain, hReserved, fun h => absurd h hAwait, fun h => absurd h hYield⟩

namespace Grammar

def nameAt (s : State) (w : String) : Name := ⟨⟨s.token.start, s.token.stop⟩, w⟩

variable (g : Grammar) {s : State}

section Ends

variable (h : s.token.continues = false)
include h

theorem accessStep_of_ends (pos : Nat) (a : Access) : g.accessStep pos a s = .ok none s := by
  unfold Token.continues at h
  cases hKind : s.token.kind with
  | template text last => simp [hKind] at h
  | punct p =>
    simp only [hKind, Bool.or_eq_false_iff] at h
    obtain ⟨hMark, hLine⟩ := h
    cases p
    case bang => simp_all [accessStep]
    all_goals first
      | exact Bool.noConfusion hMark
      | simp [accessStep, hKind]
  | _ => simp [accessStep, hKind]

theorem callStep_of_ends (pos : Nat) (a : Access) : g.callStep pos a s = .ok none s := by
  have hParen : s.token.kind ≠ .punct .parenL := by
    intro hKind
    simp [Token.continues, hKind, Punct.continues] at h
  have hDot : s.token.kind ≠ .punct .optionalDot := by
    intro hKind
    simp [Token.continues, hKind, Punct.continues] at h
  simp [callStep, hParen, hDot]

theorem calls_of_ends (pos : Nat) (a : Access) : g.calls pos a s = .ok a s := by
  simp [calls, accesses, loop, iterate, accessStep_of_ends g h, callStep_of_ends g h]

theorem operator?_of_ends : operator? s = .ok none s := by
  have hGreater : s.token.kind ≠ .punct .greater := by
    intro hKind
    simp [Token.continues, hKind, Punct.continues, levelOf] at h
  unfold Token.continues at h
  cases hKind : s.token.kind with
  | word w =>
    simp only [hKind] at h
    by_cases hIn : w = "in"
    · simp [hIn] at h
    by_cases hInstance : w = "instanceof"
    · simp [hInstance] at h
    by_cases hTyped : w = "as" ∨ w = "satisfies"
    · simp_all [operator?, joinGreater]
    · simp [operator?, joinGreater, hKind, hTyped]
  | punct p =>
    simp only [hKind, Punct.continues, Bool.or_eq_false_iff] at h
    obtain ⟨⟨⟨-, hLevel⟩, -⟩, -⟩ := h
    simp_all [operator?, joinGreater]
  | _ => simp [operator?, joinGreater, hKind]

end Ends

/-- At a token an operand begins, and nothing that stands before one: no operator, no arrow
function. -/
structure AtOperand (s : State) : Prop where
  unaryRule : ∀ g : Grammar, g.unaryRule s = g.postfixExpression s
  isYield : isYield s = .ok false s
  asyncSimpleArrow : ∀ (g : Grammar) (returnTypes : Bool),
    g.asyncSimpleArrow returnTypes s = .ok none s
  likelyArrow : likelyArrow s = .ok .no s
  notPrivate : ∀ n, s.token.kind ≠ .privateName n

namespace AtOperand

variable {g}

/-- An operand, and what stands behind it. -/
theorem assignmentRule (h : AtOperand s) (returnTypes : Bool) :
    g.assignmentRule returnTypes s = (do
      let left ← g.binary 0
      match ← kind, left with
      | .punct .arrow, .ident name => g.simpleArrow s.token.start name false returnTypes
      | .punct p, _ =>
        if assignPuncts.contains p then g.assignmentRest s.token.start left p returnTypes
        else g.conditionalRest s.token.start left returnTypes
      | _, _ => return left) s := by
  have hParen : g.parenthesizedArrow returnTypes s = .ok none s := by
    simp [parenthesizedArrow, h.likelyArrow]
  simp only [Grammar.assignmentRule, bind_apply, Reading.ite_apply, start_apply, h.isYield,
    h.asyncSimpleArrow, hParen]
  rfl

variable {k : Nat} {e : Expr} {t : State} (h : AtOperand s)

theorem of_word {w : String} (hWord : s.token.kind = .word w)
    (hOther : w ∉ "await" :: "yield" :: "async" :: unaryWords) : AtOperand s := by
  simp only [List.mem_cons, not_or] at hOther
  obtain ⟨hAwait, hYield, hAsync, hUnary⟩ := hOther
  exact
    { unaryRule := fun g => by simp [Grammar.unaryRule, hWord, hUnary, isAwait, hAwait]
      isYield := by simp [Grammar.isYield, hWord, hYield]
      asyncSimpleArrow := fun g _ => by simp [Grammar.asyncSimpleArrow, hWord, hAsync]
      likelyArrow := by simp [Grammar.likelyArrow, hWord, hAsync]
      notPrivate := by simp [hWord] }

section Ends

variable (hAccess : (ofDepth (k + 1)).access s = .ok e t) (hEnds : t.token.continues = false)
include h hAccess hEnds

theorem unary : (ofDepth (k + 2)).unary s = .ok e t := by
  show (ofDepth (k + 1)).unaryRule s = _
  rw [h.unaryRule]
  simp only [postfixExpression, bind_apply, start_apply, hAccess, kind_apply]
  cases hKind : t.token.kind with
  | punct p =>
    by_cases hLine : t.token.onNewLine = true
    · simp [hLine]
    · have hMark : ¬(p = .increment ∨ p = .decrement) := by
        rintro (rfl | rfl) <;> simp [Token.continues, hKind, hLine] at hEnds
      simp [hMark]
  | _ => rfl

theorem binary : (ofDepth (k + 3)).binary 0 s = .ok e t := by
  have hUnary := h.unary hAccess hEnds
  show (ofDepth (k + 2)).binaryRule 0 s = _
  cases hKind : s.token.kind with
  | privateName n => exact absurd hKind (h.notPrivate n)
  | _ => simp [binaryRule, binaryStep, hKind, hUnary, loop, iterate, operator?_of_ends hEnds]

/-- An operand that ends is a whole expression. -/
theorem one : (ofDepth (k + 4)).one s = .ok e t := by
  have hBinary := h.binary hAccess hEnds
  show (ofDepth (k + 3)).assignmentRule true s = _
  rw [h.assignmentRule]
  simp only [bind_apply, hBinary, kind_apply]
  cases hKind : t.token.kind with
  | punct p =>
    simp only [Token.continues, hKind, Bool.or_eq_false_iff, Punct.continues] at hEnds
    obtain ⟨⟨⟨hMark, -⟩, hAssign⟩, -⟩ := hEnds
    have hArrow : p ≠ .arrow := by
      rintro rfl
      exact absurd hMark (by decide)
    have hQuestion : p ≠ .question := by
      rintro rfl
      exact absurd hMark (by decide)
    have hAssign : p ∉ assignPuncts := by simpa using hAssign
    simp [hArrow, hAssign, conditionalRest, hKind, hQuestion]
  | _ => rfl

end Ends

end AtOperand

/-- What no access and no call follows is a whole access. -/
theorem access_of_primary {k : Nat} {e : Expr} {t : State}
    (h : (ofDepth k).primary s = .ok e t) (hEnds : t.token.continues = false) :
    (ofDepth (k + 1)).access s = .ok e t := by
  show (ofDepth k).accessRule s = _
  simp [accessRule, h, calls_of_ends _ hEnds, chained]

section Names

variable {w : String} (hWord : s.token.kind = .word w) (hFree : isFreeName w = true)
include hWord hFree

theorem variableName_of_isFreeName :
    variableName s = .ok ⟨⟨s.token.start, s.token.stop⟩, w⟩ s.next := by
  obtain ⟨hReserved, hAwait, hYield, -⟩ := isFreeName_iff.mp hFree
  exact variableName_of_free hWord hReserved hAwait hYield

theorem wordExpression_name :
    g.wordExpression w s = .ok (.ident ⟨⟨s.token.start, s.token.stop⟩, w⟩) s.next := by
  have hName := variableName_of_isFreeName hWord hFree
  have hAsync : w ≠ "async" := by
    rintro rfl
    exact absurd hFree (by decide)
  unfold wordExpression
  simp only [bind_apply, start_apply]
  split
  case h_9 => simp [isAsyncFunction, hWord, hAsync, hName]
  all_goals exact absurd hFree (by decide)

theorem primaryRule_name :
    g.primaryRule s = .ok (.ident ⟨⟨s.token.start, s.token.stop⟩, w⟩) s.next := by
  have hNew : w ≠ "new" := by
    rintro rfl
    exact absurd hFree (by decide)
  simp [primaryRule, hWord, wordExpression_name g hWord hFree]

theorem atOperand_of_name : AtOperand s := by
  refine .of_word hWord fun hMem => ?_
  have hAll : ∀ v ∈ "await" :: "yield" :: "async" :: unaryWords, isFreeName v = false := by decide
  exact absurd (hFree.symm.trans (hAll w hMem)) (by decide)

theorem one_name (hEnds : s.next.token.continues = false) (k : Nat) :
    (ofDepth (k + 5)).one s =
      .ok (.ident ⟨⟨s.token.start, s.token.stop⟩, w⟩) s.next := by
  have hPrimary : (ofDepth (k + 1)).primary s = _ := primaryRule_name (ofDepth k) hWord hFree
  exact (atOperand_of_name hWord hFree).one (access_of_primary hPrimary hEnds) hEnds

end Names

section Variables

variable {w : String} (hWord : s.token.kind = .word w) (hVariable : s.scope.isVariable w = true)
include hWord hVariable

theorem variableName_of_isVariable : variableName s = .ok (nameAt s w) s.next := by
  obtain ⟨-, hReserved, hAwait, hYield⟩ := Scope.isVariable_iff.mp hVariable
  have hAwait : ¬(w = "await" ∧ s.scope.awaits = true) := by simpa using hAwait
  have hYield : ¬(w = "yield" ∧ s.scope.yields = true) := by simpa using hYield
  simp [variableName, hWord, checkName, hReserved, hAwait, hYield, nameAt]

variable {p : Punct} (hMark : s.next.token.kind = .punct p)
include hMark

theorem primaryRule_variable (g : Grammar) :
    g.primaryRule s = .ok (.ident (nameAt s w)) s.next := by
  obtain ⟨-, hReserved, -, -⟩ := Scope.isVariable_iff.mp hVariable
  have hName := variableName_of_isVariable hWord hVariable
  have hNew : w ≠ "new" := by
    rintro rfl
    exact absurd hReserved (by decide)
  have hAsync : isAsyncFunction s = .ok false s := by simp [isAsyncFunction, hMark]
  have hExpression : g.wordExpression w s = .ok (.ident (nameAt s w)) s.next := by
    unfold wordExpression
    simp only [bind_apply, start_apply]
    split
    case h_9 => simp [hAsync, hName]
    all_goals exact absurd hReserved (by decide)
  simp [primaryRule, hWord, hExpression]

theorem atOperand_of_variable (hParen : p ≠ .parenL) (hLess : p ≠ .less) : AtOperand s := by
  obtain ⟨-, hReserved, hAwait, hYield⟩ := Scope.isVariable_iff.mp hVariable
  have hUnary : w ∉ unaryWords := by
    intro hMem
    have hAll : ∀ v ∈ unaryWords, isReserved v = true := by decide
    simp [hAll w hMem] at hReserved
  have hNone : beginsOperand s.next.token = false := by simp [beginsOperand, hMark]
  exact
    { unaryRule := fun g => by
        have hNot : isAwait s = .ok false s := by
          simpa [isAwait, hWord, hNone] using hAwait
        simp [Grammar.unaryRule, hWord, hUnary, hNot]
      isYield := by simpa [Grammar.isYield, hWord, hNone] using hYield
      asyncSimpleArrow := fun g _ => by
        simp [Grammar.asyncSimpleArrow, hWord, lookahead, isVariableName, hMark]
      likelyArrow := by
        by_cases hAsync : w = "async"
        · simp [Grammar.likelyArrow, hWord, hAsync, lookahead, hMark, hParen, hLess]
        · simp [Grammar.likelyArrow, hWord, hAsync]
      notPrivate := by simp [hWord] }

theorem one_variable (hEnds : s.next.token.continues = false) (hLess : p ≠ .less) (k : Nat) :
    (ofDepth (k + 5)).one s = .ok (.ident (nameAt s w)) s.next := by
  have hPrimary : (ofDepth (k + 1)).primary s = _ :=
    primaryRule_variable hWord hVariable hMark (ofDepth k)
  have hParen : p ≠ .parenL := by
    rintro rfl
    simp [Token.continues, hMark, Punct.continues] at hEnds
  exact (atOperand_of_variable hWord hVariable hMark hParen hLess).one
    (access_of_primary hPrimary hEnds) hEnds

end Variables

end Grammar

end Standin.Script
