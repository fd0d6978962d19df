import Standin.Proofs.Script.FreeNames

namespace Standin.Script

open Reading

/-- Whether a token begins an access whatever stands behind it. -/
def Token.beginsAccess (t : Token) : Bool :=
  match t.kind with
  | .punct .dot | .punct .bracketL | .template .. => true
  | _ => false

def Token.opensMore (t : Token) : Bool :=
  t.beginsAccess || match t.kind with
    | .punct .parenL | .punct .optionalDot => true
    | _ => false

/-- Whether a token is an operator of two operands where `in` is one. -/
def Token.isOperator (t : Token) : Bool :=
  match t.kind with
  | .word w => ["in", "instanceof"].contains w
  | .punct p => (Grammar.levelOf p).isSome
  | _ => false

def Expr.isName : Expr → Bool
  | .ident _ => true
  | _ => false

/-- A state but for what was found to begin no arrow function. -/
def State.Tried (s s' : State) : Prop := ∃ noArrow, s' = { s with noArrow }

namespace State.Tried

variable {s s' s'' : State}

theorem refl (s : State) : s.Tried s := ⟨s.noArrow, rfl⟩

theorem trans (h : s.Tried s') (h' : s'.Tried s'') : s.Tried s'' := by
  obtain ⟨_, rfl⟩ := h
  obtain ⟨noArrow, rfl⟩ := h'
  exact ⟨noArrow, rfl⟩

theorem token (h : s.Tried s') : s'.token = s.token := by
  obtain ⟨_, rfl⟩ := h
  rfl

theorem scope (h : s.Tried s') : s'.scope = s.scope := by
  obtain ⟨_, rfl⟩ := h
  rfl

end State.Tried

namespace Grammar

variable (g : Grammar) {s : State}

theorem property?_yields (pos : Nat) (object : Expr) :
    Yields (property? pos object) s fun e _ => e.isName = false := by
  unfold property?
  refine .behind fun t _ => ?_
  split
  · exact .behind fun _ _ => .behind fun _ _ => .pure rfl
  · exact .behind fun _ _ => .behind fun _ _ => .pure rfl
  · exact .of_error rfl

theorem taggedTemplate_yields (pos : Nat) (tag : Expr) :
    Yields (g.taggedTemplate pos tag) s fun e _ => e.isName = false := by
  unfold taggedTemplate
  split
  all_goals exact .behind fun _ _ => .behind fun _ _ => .pure rfl

theorem callOf_isName (span : Span) (callee : Expr) (types : List TypeTree)
    (all : List Element) : (callOf span callee types all).isName = false := by
  unfold callOf
  split <;> rfl

theorem nextIs_yields (p : Token → Bool) : Yields (nextIs p) s fun _ s' => s' = s :=
  .of_eq (nextIs_apply s p) rfl

theorem attempt_yields {α : Type} (r : Reading α) :
    Yields (attempt r) s fun found s' => found = none → s.Tried s' := by
  intro found s' h
  rw [attempt_apply] at h
  split at h
  · cases h
    intro hNone
    cases hNone
  · cases h
    exact fun _ => ⟨_, rfl⟩

/-- An access is no name, and where there is none, none begins. -/
def AccessRead (s : State) : Option Access → State → Prop
  | some next, _ => next.expr.isName = false
  | none, s' => s.Tried s' ∧ (s.scope.decorating = false → s.token.beginsAccess = false)

theorem accessStep_yields (pos : Nat) (a : Access) :
    Yields (g.accessStep pos a) s (AccessRead s) := by
  have hNone (hKind : s.token.beginsAccess = false) :
      Yields (pure none : Reading (Option Access)) s (AccessRead s) :=
    .pure ⟨.refl s, fun _ => hKind⟩
  unfold accessStep
  refine .known (token_apply s) ?_
  cases hKind : s.token.kind with
  | template text last =>
    have hTagged {t : State} : Yields (g.taggedTemplate pos a.expr >>= fun e =>
        pure (some { a with expr := e })) t (AccessRead s) :=
      .bind (taggedTemplate_yields g pos a.expr) fun e s' h => .pure h
    dsimp only
    split
    · exact .behind fun _ _ => hTagged
    · exact hTagged
  | punct p =>
    cases p
    case dot => exact .behind fun _ _ => .bind (property?_yields pos a.expr) fun e s' h => .pure h
    case optionalDot =>
      refine .bind (nextIs_yields _) ?_
      rintro begins _ rfl
      split
      · refine .behind fun _ _ => .behind fun opens _ => ?_
        split
        · exact .behind fun _ _ => .behind fun _ _ => .behind fun _ _ => .behind fun _ _ =>
            .pure rfl
        · exact .bind (property?_yields pos a.expr) fun e s' h => .pure h
      · exact hNone (by simp [Token.beginsAccess, hKind])
    case bracketL =>
      refine .known (scope_apply s) ?_
      split
      · next hScope =>
        exact .pure ⟨.refl s, fun hNot => absurd (hScope.symm.trans hNot) (by decide)⟩
      · exact .behind fun _ _ => .behind fun _ _ => .behind fun _ _ => .behind fun _ _ => .pure rfl
    case bang =>
      refine .known (typed_apply s) ?_
      split
      · exact hNone (by simp [Token.beginsAccess, hKind])
      · exact .behind fun _ _ => .behind fun _ _ => .pure rfl
    case less | shiftLeft =>
      refine .known (typed_apply s) ?_
      split
      · refine .bind (attempt_yields _) fun found t hTried => ?_
        cases found with
        | some types =>
          refine .behind fun _ _ => .behind fun _ _ => ?_
          split
          · refine .behind fun _ _ => ?_
            split
            · exact .behind fun _ _ => .pure rfl
            · exact .behind fun _ _ => .behind fun _ _ => .pure rfl
          · exact .behind fun _ _ => .pure rfl
        | none => exact .pure ⟨hTried rfl, fun _ => by simp [Token.beginsAccess, hKind]⟩
      · exact hNone (by simp [Token.beginsAccess, hKind])
    all_goals exact hNone (by simp [Token.beginsAccess, hKind])
  | _ => exact hNone (by simp [Token.beginsAccess, hKind])

theorem accesses_yields (pos : Nat) (a : Access) :
    Yields (g.accesses pos a) s fun b s' => b.expr.isName = true →
      b = a ∧ s.Tried s' ∧ (s.scope.decorating = false → s.token.beginsAccess = false) := by
  refine .loop (fun b t => b.expr.isName = true → b = a ∧ s.Tried t) (fun b t hKept => ?_)
    fun _ => ⟨rfl, .refl s⟩
  refine .bind (accessStep_yields g pos b) fun found t' hFound => ?_
  cases found with
  | some next => exact .pure fun hName => absurd (hFound.symm.trans hName) (by decide)
  | none =>
    refine .pure fun hName => ?_
    obtain ⟨hSame, hTried⟩ := hKept hName
    obtain ⟨hStill, hToken⟩ := hFound
    rw [hTried.scope, hTried.token] at hToken
    exact ⟨hSame, hTried.trans hStill, hToken⟩

/-- A call is no name, and where there is none, none begins. -/
theorem callStep_yields (pos : Nat) (a : Access) :
    Yields (g.callStep pos a) s fun found s' => match found with
      | some next => next.expr.isName = false
      | none => s' = s ∧ s.token.kind ≠ .punct .parenL ∧ s.token.kind ≠ .punct .optionalDot := by
  unfold callStep
  refine .known (isPunct_apply s _) ?_
  split
  · exact .behind fun _ _ => .behind fun _ _ => .pure (callOf_isName ..)
  · next hParen =>
    refine .known (isPunct_apply s _) ?_
    split
    · refine .behind fun _ _ => .behind fun _ _ => .behind fun _ _ => ?_
      dsimp only
      split
      all_goals
        refine .behind fun types _ => .behind fun found _ => ?_
        split
        · exact .behind fun _ _ => .behind fun _ _ => .pure (callOf_isName ..)
        · exact .behind fun _ _ => .bind (taggedTemplate_yields g pos a.expr) fun e _ h => .pure h
        · exact .of_error rfl
    · next hDot => exact .pure ⟨rfl, by simpa using hParen, by simpa using hDot⟩

theorem calls_yields (pos : Nat) (a : Access) (hScope : s.scope.decorating = false) :
    Yields (g.calls pos a) s fun b s' =>
      b.expr.isName = true → b = a ∧ s.Tried s' ∧ s.token.beginsAccess = false ∧
        s.token.kind ≠ .punct .parenL ∧ s.token.kind ≠ .punct .optionalDot := by
  refine .loop (fun b t => b.expr.isName = true → b = a ∧ s.Tried t) (fun b t hKept => ?_)
    fun _ => ⟨rfl, .refl s⟩
  refine .bind (accesses_yields g pos b) fun c t' hAccesses => ?_
  refine .bind (callStep_yields g pos c) fun found t'' hFound => ?_
  cases found with
  | some next => exact .pure fun hName => absurd (hFound.symm.trans hName) (by decide)
  | none =>
    refine .pure fun hName => ?_
    obtain ⟨rfl, hStill, hToken⟩ := hAccesses hName
    obtain ⟨rfl, hTried⟩ := hKept hName
    obtain ⟨rfl, hParen, hDot⟩ := hFound
    rw [hStill.token, hTried.token] at hParen hDot
    rw [hTried.token, hTried.scope] at hToken
    exact ⟨rfl, hTried.trans hStill, hToken hScope, hParen, hDot⟩

theorem chained_yields (pos : Nat) (a : Access) :
    Yields (chained pos a) s fun e s' => e.isName = true → e = a.expr ∧ s' = s := by
  unfold chained
  split
  · refine .known (spanFrom_apply s pos) ?_
    split
    all_goals first
      | exact .pure fun hName => ⟨rfl, rfl⟩
      | exact .pure fun hName => Bool.noConfusion hName
  · exact .pure fun _ => ⟨rfl, rfl⟩

theorem mem_greaterPuncts {text : List Char} {p : Punct}
    (h : punctAmong greaterPuncts text = some p) :
    (levelOf p).isSome = true ∨ assignPuncts.contains p = true := by
  have hAll : ∀ q ∈ greaterPuncts, (levelOf q).isSome = true ∨ assignPuncts.contains q = true := by
    decide
  exact hAll p (List.mem_of_find?_eq_some h)

theorem levelOf_pos {p : Punct} {level : Nat} (h : levelOf p = some level) : 0 < level := by
  unfold levelOf at h
  split at h <;> cases h <;> decide

/-- What begins with `>` in a text begins with one of its punctuators. -/
def GreaterRead (s : State) : Prop :=
  s.token.kind = .punct .greater → ∃ p, punctAmong greaterPuncts s.here = some p

theorem GreaterRead.tried {s' : State} (hGreater : GreaterRead s) (h : s.Tried s') :
    GreaterRead s' := by
  obtain ⟨_, rfl⟩ := h
  exact hGreater

/-- An operator of two operands is read, or there is none, or an assignment that begins with `>`. -/
theorem operator?_yields (hGreater : GreaterRead s) (hScope : s.scope.inOperator = true) :
    Yields operator? s fun found s' => match found with
      | some (_, strength) => 0 < strength
      | none => s' = s ∧ s.token.isOperator = false ∨
          ∃ p, assignPuncts.contains p = true ∧ s'.token.kind = .punct p := by
  by_cases hJoin : s.token.kind = .punct .greater
  · obtain ⟨p, hRead⟩ := hGreater hJoin
    have hOperator : operator? s = .ok ((levelOf p).map (p.text, ·)) (s.place s.here s.token.start
        s.token.onNewLine ⟨.punct p, p.text.length, false, false⟩) := by
      simp [operator?, joinGreater, hJoin, rescan, scanGreater, hRead, State.place]
    refine .of_eq hOperator ?_
    cases hLevel : levelOf p with
    | some level => exact levelOf_pos hLevel
    | none =>
      refine .inr ⟨p, (mem_greaterPuncts hRead).resolve_left ?_, rfl⟩
      simp [hLevel]
  · have hPlain : joinGreater s = .ok ⟨⟩ s := by simp [joinGreater, hJoin]
    refine .known hPlain (.known (kind_apply s) ?_)
    split
    · next p hKind =>
      refine .pure ?_
      cases hLevel : levelOf p with
      | some level => exact levelOf_pos hLevel
      | none => exact .inl ⟨rfl, by simp [Token.isOperator, hKind, hLevel]⟩
    · exact .pure (by decide : 0 < relationLevel)
    · refine .known (scope_apply s) (.pure ?_)
      rw [hScope]
      exact (by decide : 0 < relationLevel)
    · next w hInstance hIn hKind =>
      have hNone : s.token.isOperator = false := by
        simpa [Token.isOperator, hKind] using ⟨hIn, hInstance⟩
      refine .known (typed_apply s) (.known (onNewLine_apply s) ?_)
      split
      · exact .pure (by decide : 0 < relationLevel)
      · exact .pure (.inl ⟨rfl, hNone⟩)
    · next hPunct _ _ hWord =>
      refine .pure (.inl ⟨rfl, ?_⟩)
      unfold Token.isOperator
      split
      · next w hKind => exact absurd hKind (hWord w)
      · next p hKind => exact absurd hKind (hPunct p)
      · rfl

theorem continues_eq_false {t : Token} (hLine : t.onNewLine = true) (hMore : t.opensMore = false)
    (hOperator : t.isOperator = false) (hMark : ∀ p, t.kind = .punct p →
      p ≠ .arrow ∧ p ≠ .question ∧ assignPuncts.contains p = false) : t.continues = false := by
  cases hKind : t.kind with
  | template text last => simp [Token.opensMore, Token.beginsAccess, hKind] at hMore
  | word w =>
    simp only [Token.isOperator, hKind] at hOperator
    simp only [Token.continues, hKind, hLine, hOperator, Bool.not_true, Bool.false_and,
      Bool.or_false]
  | punct p =>
    obtain ⟨hArrow, hQuestion, hAssign⟩ := hMark p hKind
    simp only [Token.isOperator, hKind] at hOperator
    have hOpens : p ≠ .parenL ∧ p ≠ .bracketL ∧ p ≠ .dot ∧ p ≠ .optionalDot := by
      refine ⟨?_, ?_, ?_, ?_⟩
      all_goals
        rintro rfl
        simp [Token.opensMore, Token.beginsAccess, hKind] at hMore
    obtain ⟨hParen, hBracket, hDot, hOptional⟩ := hOpens
    simp only [Token.continues, hKind, hLine, Punct.continues, hOperator, hAssign, Bool.or_false,
      Bool.not_true, Bool.false_and]
    simp [hParen, hBracket, hDot, hOptional, hQuestion, hArrow]
  | _ => simp [Token.continues, hKind]

/-- An outcome is no name, or it is the name given, nothing is read behind it and what is told
holds. -/
def Alone (n : Name) (s : State) (told : Prop) (e : Expr) (s' : State) : Prop :=
  e.isName = true → e = .ident n ∧ s.Tried s' ∧ told

section Whole

variable {w : String} (hWord : s.token.kind = .word w) (hFree : isFreeName w = true)
  (hScope : s.scope.decorating = false)
include hWord hFree hScope

theorem access_yields (k : Nat) :
    Yields (ofDepth (k + 2)).access s
      (Alone ⟨⟨s.token.start, s.token.stop⟩, w⟩ s.next (s.next.token.opensMore = false)) := by
  have hPrimary : (ofDepth (k + 1)).primary s = _ := primaryRule_name (ofDepth k) hWord hFree
  show Yields (ofDepth (k + 1)).accessRule s _
  refine .known (start_apply s) (.known hPrimary ?_)
  refine .bind (calls_yields _ s.token.start _ hScope) fun a t hCalls => ?_
  refine (chained_yields s.token.start a).mono fun e t' hChained hName => ?_
  obtain ⟨rfl, rfl⟩ := hChained hName
  obtain ⟨rfl, hTried, hAccess, hParen, hDot⟩ := hCalls hName
  refine ⟨rfl, hTried, ?_⟩
  unfold Token.opensMore
  rw [hAccess]
  split <;> simp_all

theorem unary_yields (k : Nat) :
    Yields (ofDepth (k + 3)).unary s
      (Alone ⟨⟨s.token.start, s.token.stop⟩, w⟩ s.next (s.next.token.opensMore = false)) := by
  show Yields (ofDepth (k + 2)).unaryRule s _
  refine .of_same ((atOperand_of_name hWord hFree).unaryRule _) ?_
  refine .known (start_apply s) (.bind (access_yields hWord hFree hScope k) fun e t hAlone => ?_)
  refine .known (kind_apply t) ?_
  split
  · refine .known (onNewLine_apply t) ?_
    split
    · refine .behind fun _ _ => .behind fun _ _ => .behind fun _ _ => .pure fun hName => ?_
      exact Bool.noConfusion hName
    · exact .pure hAlone
  · exact .pure hAlone

theorem binary_yields (k : Nat) (hIn : s.scope.inOperator = true) (hGreater : GreaterRead s.next) :
    Yields ((ofDepth (k + 4)).binary 0) s fun e s' => e.isName = true →
      e = .ident ⟨⟨s.token.start, s.token.stop⟩, w⟩ ∧ s.next.token.opensMore = false ∧
        (s.next.Tried s' ∧ s.next.token.isOperator = false ∨
          ∃ p, assignPuncts.contains p = true ∧ s'.token.kind = .punct p) := by
  show Yields ((ofDepth (k + 3)).binaryRule 0) s _
  refine .known (start_apply s) (.known (kind_apply s) ?_)
  rw [hWord]
  refine .bind (unary_yields hWord hFree hScope k) fun first t hFirst => ?_
  refine .loop (Alone ⟨⟨s.token.start, s.token.stop⟩, w⟩ s.next (s.next.token.opensMore = false))
    (fun left t hLeft => ?_) hFirst
  have hOperator : Yields operator? t fun found t' => left.isName = true → match found with
      | some (_, strength) => 0 < strength
      | none => t' = t ∧ t.token.isOperator = false ∨
          ∃ p, assignPuncts.contains p = true ∧ t'.token.kind = .punct p := by
    intro found t' hRead hName
    obtain ⟨-, hTried, -⟩ := hLeft hName
    exact operator?_yields (hGreater.tried hTried) (hTried.scope ▸ hIn) found t' hRead
  refine .bind hOperator fun found t' hFound => ?_
  cases found with
  | none =>
    refine .pure fun hName => ?_
    obtain ⟨rfl, hTried, hMore⟩ := hLeft hName
    refine ⟨rfl, hMore, ?_⟩
    obtain ⟨rfl, hNone⟩ | hAssign := hFound hName
    · exact .inl ⟨hTried, hTried.token ▸ hNone⟩
    · exact .inr hAssign
  | some found =>
    obtain ⟨op, strength⟩ := found
    dsimp only
    split
    all_goals
      split
      · next hStops =>
        refine .pure fun hName => absurd (hFound hName) ?_
        show ¬ 0 < strength
        omega
      · refine .behind fun _ _ => ?_
        split
        · exact .behind fun _ _ => .behind fun _ _ => .pure fun hName => Bool.noConfusion hName
        · exact .behind fun _ _ => .behind fun _ _ => .behind fun _ _ => .pure fun hName =>
            Bool.noConfusion hName

omit hWord hFree hScope

theorem simpleArrow_yields (pos : Nat) (name : Name) (isAsync returnTypes : Bool) :
    Yields (g.simpleArrow pos name isAsync returnTypes) s fun e _ => e.isName = false := by
  unfold simpleArrow
  refine .behind fun _ _ => ?_
  dsimp only
  split
  all_goals exact .behind fun _ _ => .behind fun _ _ => .behind fun _ _ => .pure rfl

theorem assignmentRest_yields (pos : Nat) (target : Expr) (p : Punct) (returnTypes : Bool) :
    Yields (g.assignmentRest pos target p returnTypes) s fun e _ => e.isName = false := by
  unfold assignmentRest
  dsimp only
  split
  all_goals
    exact .behind fun _ _ => .behind fun _ _ => .behind fun _ _ => .behind fun _ _ => .pure rfl

/-- A conditional is no name, and without a question mark the test is left as it is. -/
theorem conditionalRest_yields (pos : Nat) (test : Expr) (returnTypes : Bool) :
    Yields (g.conditionalRest pos test returnTypes) s fun e s' => e.isName = true →
      e = test ∧ s' = s ∧ s.token.kind ≠ .punct .question := by
  unfold conditionalRest
  by_cases hKind : s.token.kind = .punct .question
  · have hRest : eat .question s = .ok true s.next := by simp [hKind]
    exact .known hRest (.behind fun _ _ => .behind fun _ _ => .behind fun _ _ =>
      .behind fun _ _ => .pure fun hName => Bool.noConfusion hName)
  · have hRest : eat .question s = .ok false s := by simp [hKind]
    exact .known hRest (.pure fun _ => ⟨rfl, rfl, hKind⟩)

include hWord hFree hScope

/-- An expression that is a name ends where nothing takes an operand further. -/
theorem one_yields (k : Nat) (hIn : s.scope.inOperator = true) (hGreater : GreaterRead s.next)
    (hLine : s.next.token.onNewLine = true) :
    Yields (ofDepth (k + 5)).one s (Alone ⟨⟨s.token.start, s.token.stop⟩, w⟩ s.next
      (s.next.token.continues = false)) := by
  show Yields ((ofDepth (k + 4)).assignmentRule true) s _
  refine .of_same ((atOperand_of_name hWord hFree).assignmentRule true) ?_
  refine .bind (binary_yields hWord hFree hScope k hIn hGreater) fun left t hLeft => ?_
  refine .known (kind_apply t) ?_
  split
  · refine .mono (simpleArrow_yields _ _ _ _ _) fun e _ hNot hName => ?_
    exact absurd (hNot.symm.trans hName) (by decide)
  · next p e hKind hArrow =>
    split
    · refine .mono (assignmentRest_yields _ _ _ _ _) fun e _ hNot hName => ?_
      exact absurd (hNot.symm.trans hName) (by decide)
    · next hAssign =>
      refine .mono (conditionalRest_yields _ _ _ _) fun e t' hRest hName => ?_
      obtain ⟨rfl, rfl, hQuestion⟩ := hRest hName
      obtain ⟨rfl, hMore, ⟨hTried, hOperator⟩ | ⟨q, hAssign', hKind'⟩⟩ := hLeft hName
      · rw [hTried.token] at hKind hQuestion
        refine ⟨rfl, hTried, continues_eq_false hLine hMore hOperator fun q hMark => ?_⟩
        cases hKind.symm.trans hMark
        refine ⟨?_, ?_, by simpa using hAssign⟩
        · rintro rfl
          exact hArrow _ rfl rfl
        · rintro rfl
          exact hQuestion hKind
      · cases hKind.symm.trans hKind'
        exact absurd hAssign' hAssign
  · next hPunct hArrow =>
    refine .pure fun hName => ?_
    obtain ⟨rfl, hMore, ⟨hTried, hOperator⟩ | ⟨q, -, hKind⟩⟩ := hLeft hName
    · rw [hTried.token] at hPunct
      exact ⟨rfl, hTried, continues_eq_false hLine hMore hOperator fun q hMark =>
        (hPunct q hMark).elim⟩
    · exact (hPunct q hKind).elim

end Whole

end Grammar

end Standin.Script
