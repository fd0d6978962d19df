import Standin.Proofs.Script.ObjectLiterals
import Standin.Registration.Basic

namespace Standin.Registration

open Script

/-- Properties that are passed over: all but spreads and those plainly named `spy`. -/
def isPassedOver : Property → Bool
  | .pair key _ | .method key _ _ => !keyIs "spy" key
  | .shorthand name _ => name.text ≠ "spy"
  | .spread .. => false

/-- The first property that is not passed over says the flag; what stands behind it is not read. -/
def TakesFlag (ps : List Property) (flag : Bool) (unread : List Property) : Prop :=
  ∃ before key span, ps = before ++ .pair key (.boolean span flag) :: unread ∧
    (∀ p ∈ before, isPassedOver p = true) ∧ keyIs "spy" key = true

variable {p : Property} {ps unread : List Property} {flag : Bool} {key : Key}

theorem spyOf_of_isPassedOver (h : isPassedOver p = true) : spyOf (p :: ps) = spyOf ps := by
  cases p <;> simp_all [isPassedOver, spyOf]

/-- A property that is not passed over settles the outcome. -/
theorem spyOf_of_not_isPassedOver (h : isPassedOver p = false) : spyOf (p :: ps) = .ok flag ↔
    ∃ key span, p = .pair key (.boolean span flag) ∧ keyIs "spy" key = true := by
  cases p with
  | pair key value =>
    have hKey : keyIs "spy" key = true := by simpa [isPassedOver] using h
    cases value with
    | boolean span found =>
      simp only [spyOf, hKey, if_true, Except.ok.injEq]
      constructor
      · rintro rfl
        exact ⟨key, span, rfl, hKey⟩
      · rintro ⟨_, _, hSame, -⟩
        cases hSame
        rfl
    | _ => simp [spyOf, hKey]
  | method key => simp_all [isPassedOver, spyOf]
  | shorthand name => simp_all [isPassedOver, spyOf]
  | spread => simp [spyOf]

theorem takesFlag_of_isPassedOver (h : isPassedOver p = true) :
    TakesFlag (p :: ps) flag unread ↔ TakesFlag ps flag unread := by
  constructor
  · rintro ⟨before, key, span, hSplit, hBefore, hKey⟩
    cases before with
    | nil =>
      cases hSplit
      simp [isPassedOver, hKey] at h
    | cons first before =>
      cases hSplit
      exact ⟨before, key, span, rfl, (List.forall_mem_cons.mp hBefore).2, hKey⟩
  · rintro ⟨before, key, span, rfl, hBefore, hKey⟩
    exact ⟨p :: before, key, span, rfl, List.forall_mem_cons.mpr ⟨h, hBefore⟩, hKey⟩

theorem takesFlag_of_not_isPassedOver (h : isPassedOver p = false) :
    TakesFlag (p :: ps) flag unread ↔
      unread = ps ∧ ∃ key span, p = .pair key (.boolean span flag) ∧ keyIs "spy" key = true := by
  constructor
  · rintro ⟨before, key, span, hSplit, hBefore, hKey⟩
    cases before with
    | nil =>
      cases hSplit
      exact ⟨rfl, key, span, rfl, hKey⟩
    | cons first before =>
      cases hSplit
      simp [(List.forall_mem_cons.mp hBefore).1] at h
  · rintro ⟨rfl, key, span, rfl, hKey⟩
    exact ⟨[], key, span, rfl, nofun, hKey⟩

theorem spyOf_eq_ok_iff : spyOf ps = .ok flag ↔ (∃ unread, TakesFlag ps flag unread) ∨
    flag = false ∧ ∀ p ∈ ps, isPassedOver p = true := by
  induction ps with
  | nil =>
    have hNone : ¬∃ unread, TakesFlag [] flag unread := by
      rintro ⟨_, before, _, _, hSplit, -⟩
      simp at hSplit
    rw [or_iff_right hNone, spyOf, Except.ok.injEq, and_iff_left nofun]
    exact eq_comm
  | cons p ps ih =>
    cases hSilent : isPassedOver p with
    | true =>
      simp only [spyOf_of_isPassedOver hSilent, ih, takesFlag_of_isPassedOver hSilent,
        List.forall_mem_cons, hSilent, true_and]
    | false =>
      simp [spyOf_of_not_isPassedOver hSilent, takesFlag_of_not_isPassedOver hSilent, hSilent]

/-- A key plainly named `spy` defines the name, and is no request for a prototype. -/
theorem mustDefine_of_keyIs {value : Expr} (h : keyIs "spy" key = true) :
    (Property.pair key value).mustDefine "spy" = true := by
  cases key with
  | word n =>
    have hName : n.text = "spy" := by simpa [keyIs] using h
    simp [Property.mustDefine, Property.prototype?, Key.known?, Value.mustName, hName]
  | string s =>
    have hName : s.value = "spy" := by simpa [keyIs] using h
    simp [Property.mustDefine, Property.prototype?, Key.known?, Value.mustName, hName]
  | _ => cases h

/-- A flag that is said is settled by what stands behind it. -/
theorem settled_iff_of_takesFlag (h : TakesFlag ps flag unread) : Settled "spy" ps flag ↔
    Fixed "spy" flag unread ∨ ∀ p ∈ unread, p.Keeps "spy" flag := by
  obtain ⟨before, key, span, rfl, hBefore, hKey⟩ := h
  constructor
  · rintro (hFixed | ⟨rfl, hAll⟩)
    · rcases fixed_append hFixed with hFixed | hKeeps
      · exact (fixed_cons.mp hFixed).imp_right fun hSets => hSets.2.2
      · exact .inr (List.forall_mem_cons.mp hKeeps).2
    · refine .inr fun q hMem => (hAll q ?_).1
      exact List.mem_append_right before (List.mem_cons_of_mem _ hMem)
  · intro h
    refine .inl (Fixed.behind (fixed_cons.mpr ?_) before)
    exact h.imp_right fun hKeeps => ⟨mustDefine_of_keyIs hKey, rfl, hKeeps⟩

/-- Flags that are taken are those read from the object, whatever its expressions give, exactly
where nothing behind a flag that is said may say another, and where none is said none may be
there. -/
theorem spyOf_sees_iff (ps : List Property) :
    (∀ flag, spyOf ps = .ok flag → Sees "spy" ps flag) ↔
      (∀ flag unread, TakesFlag ps flag unread →
        Fixed "spy" flag unread ∨ ∀ p ∈ unread, p.Keeps "spy" flag) ∧
      ((∀ p ∈ ps, isPassedOver p = true) →
        Fixed "spy" false ps ∨ ∀ p ∈ ps, p.Keeps "spy" false ∧ p.inherits = false) := by
  simp only [spyOf_eq_ok_iff, sees_iff]
  constructor
  · intro h
    refine ⟨fun flag unread hTakes => (settled_iff_of_takesFlag hTakes).mp ?_, fun hSilent => ?_⟩
    · exact h flag (.inl ⟨unread, hTakes⟩)
    · exact (h false (.inr ⟨rfl, hSilent⟩)).imp_right And.right
  · rintro ⟨hSaid, hNone⟩ flag (⟨unread, hTakes⟩ | ⟨rfl, hSilent⟩)
    · exact (settled_iff_of_takesFlag hTakes).mpr (hSaid flag unread hTakes)
    · exact (hNone hSilent).imp_right fun hAll => ⟨rfl, hAll⟩

/-- `spy: true, spy: false`: the flag that is said first is taken, and the other one is read. -/
def twiceSaid : List Property :=
  [.pair (.word ⟨⟨0, 3⟩, "spy"⟩) (.boolean ⟨5, 9⟩ true),
    .pair (.word ⟨⟨11, 14⟩, "spy"⟩) (.boolean ⟨16, 21⟩ false)]

theorem twiceSaid_not_seen : spyOf twiceSaid = .ok true ∧ ¬Sees "spy" twiceSaid true ∧
    Sees "spy" twiceSaid false := by
  have hLast : Fixed "spy" false twiceSaid.tail := fixed_cons.mpr (.inr ⟨rfl, rfl, nofun⟩)
  refine ⟨rfl, fun hSees => ?_, sees_iff.mpr (.inl (hLast.behind [_]))⟩
  have hTaken (flag : Bool) (h : spyOf twiceSaid = .ok flag) : Sees "spy" twiceSaid flag := by
    cases h
    exact hSees
  have hTakes : TakesFlag twiceSaid true twiceSaid.tail := ⟨[], _, _, rfl, nofun, rfl⟩
  rcases ((spyOf_sees_iff twiceSaid).mp hTaken).1 true _ hTakes with hFixed | hKeeps
  · rcases fixed_cons.mp hFixed with hFixed | ⟨-, hFlag, -⟩
    · exact not_fixed_nil hFixed
    · cases hFlag
  · cases hKeeps _ (.head _) rfl

end Standin.Registration
