import Standin.Script.Reading

namespace Standin.Script.Reading

variable {α β : Type} (s : State)

@[simp]
theorem bind_apply (x : Reading α) (f : α → Reading β) :
    (x >>= f) s = match x s with
      | .ok a s' => f a s'
      | .error e s' => .error e s' := by
  rfl

@[simp]
theorem map_apply (x : Reading α) (f : α → β) :
    (f <$> x) s = match x s with
      | .ok a s' => .ok (f a) s'
      | .error e s' => .error e s' := by
  rfl

@[simp]
theorem pure_apply (a : α) : (pure a : Reading α) s = .ok a s := rfl

@[simp]
theorem ite_apply (c : Prop) [Decidable c] (x y : Reading α) :
    (if c then x else y) s = if c then x s else y s := by
  split <;> rfl

@[simp]
theorem ask_apply (f : State → α) : ask f s = .ok (f s) s := rfl

@[simp]
theorem change_apply (f : State → State) (h : ∀ s : State, s.LeadsTo (f s)) :
    change f h s = .ok ⟨⟩ (f s) := rfl

@[simp]
theorem token_apply : token s = .ok s.token s := rfl

@[simp]
theorem kind_apply : kind s = .ok s.token.kind s := rfl

@[simp]
theorem start_apply : start s = .ok s.token.start s := rfl

@[simp]
theorem scope_apply : Reading.scope s = .ok s.scope s := rfl

@[simp]
theorem dialect_apply : dialect s = .ok s.dialect s := rfl

@[simp]
theorem typed_apply : typed s = .ok s.dialect.typed s := rfl

@[simp]
theorem spanFrom_apply (start : Nat) : spanFrom start s = .ok ⟨start, s.lastStop⟩ s := rfl

@[simp]
theorem refuse_apply (reason : Reason) :
    (refuse reason : Reading α) s = .error ⟨s.token.start, reason⟩ s := rfl

@[simp]
theorem advance_apply : advance s = .ok ⟨⟩ s.next := rfl

@[simp]
theorem isPunct_apply (p : Punct) : isPunct p s = .ok (s.token.kind = .punct p) s := rfl

@[simp]
theorem isWord_apply (w : String) : isWord w s = .ok (s.token.kind = .word w) s := rfl

@[simp]
theorem onNewLine_apply : onNewLine s = .ok s.token.onNewLine s := rfl

@[simp]
theorem nextIs_apply (p : Token → Bool) : nextIs p s = .ok (p s.next.token) s := rfl

theorem attempt_apply (r : Reading α) : attempt r s = match r s with
    | .ok a t => .ok (some a) t
    | .error _ t => .ok none { s with noArrow := t.noArrow } := rfl

theorem variableName_of_free {w : String} {s : State} (h : s.token.kind = .word w)
    (hReserved : isReserved w = false) (hAwait : w ≠ "await") (hYield : w ≠ "yield") :
    variableName s = .ok ⟨⟨s.token.start, s.token.stop⟩, w⟩ s.next := by
  simp [variableName, h, checkName, hReserved, hAwait, hYield]

@[simp]
theorem eat_apply (p : Punct) :
    eat p s = if s.token.kind = .punct p then .ok true s.next else .ok false s := by
  simp [eat]

theorem canEndHere_apply :
    canEndHere s = .ok (s.token.onNewLine || s.token.kind == .eof ||
      s.token.kind == .punct .braceR || s.token.kind == .punct .semicolon) s := rfl

@[simp]
theorem advanceKeyword_apply (h : s.token.escaped = false) :
    advanceKeyword s = .ok ⟨⟩ s.next := by
  simp [advanceKeyword, h]

@[simp]
theorem expect_apply {p : Punct} (h : s.token.kind = .punct p) : expect p s = .ok ⟨⟩ s.next := by
  simp [expect, h]

@[simp]
theorem expectWord_apply {w : String} (h : s.token.kind = .word w)
    (hPlain : s.token.escaped = false) : expectWord w s = .ok ⟨⟩ s.next := by
  simp [expectWord, eatWord, h, hPlain]

theorem endStatement_of_word {w : String} {s : State} (h : s.token.kind = .word w)
    (hLine : s.token.onNewLine = false) :
    endStatement s = .error ⟨s.token.start, .expectedSemicolon⟩ s := by
  simp [endStatement, canEndHere, h, hLine]

/-- A reading that goes back to its scope is not changed by a change that leaves the scope. -/
theorem within_of_fixed {s t : State} (change : Scope → Scope) {r : Reading α} {a : α}
    (hChange : change s.scope = s.scope) (h : r s = .ok a t) (hSame : t.scope = s.scope) :
    within change r s = .ok a t := by
  have hEnd : { t with scope := s.scope } = t := by rw [← hSame]
  simp [within, hChange, h, hEnd]

/-- Whenever a reading succeeds at a state, its outcome and the state behind it are as told. -/
def Yields (r : Reading α) (s : State) (told : α → State → Prop) : Prop :=
  ∀ a s', r s = .ok a s' → told a s'

namespace Yields

variable {s : State} {r : Reading α} {told : α → State → Prop}

theorem mono {weaker : α → State → Prop} (h : Yields r s told)
    (hWeaker : ∀ a s', told a s' → weaker a s') : Yields r s weaker :=
  fun a s' hRead => hWeaker a s' (h a s' hRead)

theorem of_eq {a : α} {s' : State} (h : r s = .ok a s') (hTold : told a s') : Yields r s told := by
  intro b t hRead
  cases h.symm.trans hRead
  exact hTold

theorem of_error {e : SyntaxFault} {s' : State} (h : r s = .error e s') : Yields r s told := by
  intro a t hRead
  cases h.symm.trans hRead

theorem of_same {other : Reading α} {t : State} (h : r s = other t)
    (hOther : Yields other t told) : Yields r s told :=
  fun a s' hRead => hOther a s' (h ▸ hRead)

theorem pure {a : α} (h : told a s) : Yields (pure a : Reading α) s told := of_eq rfl h

theorem bind {f : α → Reading β} {later : β → State → Prop} (h : Yields r s told)
    (hLater : ∀ a s', told a s' → Yields (f a) s' later) : Yields (r >>= f) s later := by
  intro b t hRead
  rw [bind_apply] at hRead
  cases hFirst : r s with
  | ok a s' =>
    rw [hFirst] at hRead
    exact hLater a s' (h a s' hFirst) b t hRead
  | error e s' =>
    rw [hFirst] at hRead
    cases hRead

/-- What is known to be read first is left behind. -/
theorem known {a : α} {s' : State} {f : α → Reading β} {later : β → State → Prop}
    (h : r s = .ok a s') (hLater : Yields (f a) s' later) : Yields (r >>= f) s later := by
  intro b t hRead
  rw [bind_apply, h] at hRead
  exact hLater b t hRead

/-- Whatever is read first, what is read behind it counts. -/
theorem behind {f : α → Reading β} {later : β → State → Prop}
    (hLater : ∀ a s', Yields (f a) s' later) : Yields (r >>= f) s later :=
  bind (fun _ _ _ => trivial) fun a s' (_ : True) => hLater a s'

/-- What every step keeps holds where a repeated reading is done. -/
theorem iterate {step : α → Reading (α ⊕ β)} (kept : α → State → Prop) {done : β → State → Prop}
    (hStep : ∀ a s, kept a s → Yields (step a) s fun found s' =>
      match found with
      | .inl a' => kept a' s'
      | .inr b => done b s')
    (fuel : Nat) {a : α} (h : kept a s) : Yields (Reading.iterate step fuel a) s done := by
  induction fuel generalizing a s with
  | zero => exact of_error rfl
  | succ fuel ih =>
    refine bind (hStep a s h) fun found s' hFound => ?_
    cases found with
    | inl a' => exact ih hFound
    | inr b => exact pure hFound

theorem loop {step : α → Reading (α ⊕ β)} (kept : α → State → Prop) {done : β → State → Prop}
    (hStep : ∀ a s, kept a s → Yields (step a) s fun found s' =>
      match found with
      | .inl a' => kept a' s'
      | .inr b => done b s')
    {a : α} (h : kept a s) : Yields (Reading.loop a step) s done :=
  iterate kept hStep (s.size + 2) h

end Yields

/-- A reading succeeds at a state, and its outcome and the state behind it are as told. -/
def Finds (r : Reading α) (s : State) (told : α → State → Prop) : Prop :=
  ∃ a s', r s = .ok a s' ∧ told a s'

namespace Finds

variable {s : State} {r : Reading α} {told : α → State → Prop}

theorem of_eq {a : α} {s' : State} (h : r s = .ok a s') (hTold : told a s') : Finds r s told :=
  ⟨a, s', h, hTold⟩

theorem of_same {other : Reading α} {t : State} (h : r s = other t)
    (hOther : Finds other t told) : Finds r s told := by
  obtain ⟨a, s', hRead, hTold⟩ := hOther
  exact ⟨a, s', h.trans hRead, hTold⟩

theorem mono {weaker : α → State → Prop} (h : Finds r s told)
    (hWeaker : ∀ a s', told a s' → weaker a s') : Finds r s weaker := by
  obtain ⟨a, s', hRead, hTold⟩ := h
  exact ⟨a, s', hRead, hWeaker a s' hTold⟩

end Finds

end Standin.Script.Reading
