import Mathlib.Data.List.Induction
import Mathlib.Data.List.Pairwise
import Standin.Mock.Manifest

namespace Standin.Mock.Manifest

variable {m : Manifest} {c d : Call} {path : String}

theorem eq_of_same_path (hc : c ∈ m.calls) (hd : d ∈ m.calls) (h : Path.Same c.path d.path) :
    c = d := by
  have hSymm : Std.Symm fun a b : Call => ¬Path.Same a.path b.path :=
    ⟨fun _ _ hab hba => hab hba.symm⟩
  by_contra hne
  exact m.distinct.forall hc hd hne h

theorem atPath?_eq_some_iff : m.atPath? path = some c ↔ c ∈ m.calls ∧ Path.Same c.path path := by
  unfold atPath?
  constructor
  · intro h
    exact ⟨List.mem_of_find?_eq_some h, by simpa using List.find?_some h⟩
  · rintro ⟨hc, hSame⟩
    cases hFind : m.calls.find? fun c => Path.Same c.path path with
    | none =>
      have hNone := List.find?_eq_none.mp hFind c hc
      exact absurd hSame (by simpa using hNone)
    | some d =>
      have hd : Path.Same d.path path := by simpa using List.find?_some hFind
      rw [eq_of_same_path hc (List.mem_of_find?_eq_some hFind) (hSame.trans hd.symm)]

end Standin.Mock.Manifest

namespace Standin.Mock

/-- A call of the same path stands in the list before the position. -/
def RepeatedAt (calls : List Call) (c : Call) (position : Nat) : Prop :=
  ∃ d ∈ calls.take position, Path.Same d.path c.path

instance (calls : List Call) (c : Call) (position : Nat) : Decidable (RepeatedAt calls c position) :=
  inferInstanceAs (Decidable (∃ d ∈ calls.take position, Path.Same d.path c.path))

def firsts (calls : List Call) : List Call :=
  (calls.zipIdx.filter fun (c, position) => ¬RepeatedAt calls c position).map Prod.fst

def repeats (calls : List Call) : List Call :=
  (calls.zipIdx.filter fun (c, position) => RepeatedAt calls c position).map Prod.fst

variable {calls : List Call} {c : Call} {path cleanId : String}

theorem repeatedAt_concat {d : Call} {position : Nat} (h : (d, position) ∈ calls.zipIdx) :
    RepeatedAt (calls ++ [c]) d position ↔ RepeatedAt calls d position := by
  have hInside : position ≤ calls.length := by
    obtain ⟨-, hLess, -⟩ := List.mem_zipIdx h
    omega
  rw [RepeatedAt, RepeatedAt, List.take_append_of_le_length hInside]

theorem repeatedAt_last :
    RepeatedAt (calls ++ [c]) c calls.length ↔ ∃ d ∈ calls, Path.Same d.path c.path := by
  rw [RepeatedAt, List.take_left]

/-- A test that looks at nothing behind a call goes on with a call at the end. -/
theorem map_filter_concat (test : List Call → Call → Nat → Bool) (calls : List Call) (c : Call)
    (h : ∀ d position, (d, position) ∈ calls.zipIdx →
      test (calls ++ [c]) d position = test calls d position) :
    ((calls ++ [c]).zipIdx.filter fun e => test (calls ++ [c]) e.1 e.2).map Prod.fst =
      (calls.zipIdx.filter fun e => test calls e.1 e.2).map Prod.fst ++
        if test (calls ++ [c]) c calls.length then [c] else [] := by
  have hBefore : (calls.zipIdx.filter fun e => test (calls ++ [c]) e.1 e.2) =
      calls.zipIdx.filter fun e => test calls e.1 e.2 :=
    List.filter_congr fun e hMem => h e.1 e.2 hMem
  rw [List.zipIdx_append, List.filter_append, List.map_append, hBefore]
  congr 1
  rw [Nat.zero_add, List.zipIdx_singleton, List.filter_cons, List.filter_nil]
  split <;> rfl

theorem firsts_concat (calls : List Call) (c : Call) : firsts (calls ++ [c]) =
    firsts calls ++ if ∃ d ∈ calls, Path.Same d.path c.path then [] else [c] := by
  have hConcat := map_filter_concat (fun calls d position => ¬RepeatedAt calls d position) calls c
    fun d position h => decide_eq_decide.mpr (not_congr (repeatedAt_concat h))
  simp only [decide_eq_true_eq, repeatedAt_last, ite_not] at hConcat
  exact hConcat

theorem repeats_concat (calls : List Call) (c : Call) : repeats (calls ++ [c]) =
    repeats calls ++ if ∃ d ∈ calls, Path.Same d.path c.path then [c] else [] := by
  have hConcat := map_filter_concat (fun calls d position => RepeatedAt calls d position) calls c
    fun d position h => decide_eq_decide.mpr (repeatedAt_concat h)
  simp only [decide_eq_true_eq, repeatedAt_last] at hConcat
  exact hConcat

namespace Indexed

theorem addAll_append (x : Indexed) (front more : List Call) : x.addAll (front ++ more) =
    (((x.addAll front).1.addAll more).1,
      (x.addAll front).2 ++ ((x.addAll front).1.addAll more).2) := by
  induction front generalizing x with
  | nil => rfl
  | cons c front ih =>
    rw [List.cons_append, addAll, addAll]
    split
    · simp only [ih, List.cons_append]
    · rw [ih]

/-- A call at the end is dropped when its path is taken, and kept otherwise. -/
theorem ofCalls_concat (calls : List Call) (c : Call) : ofCalls (calls ++ [c]) =
    if h : (ofCalls calls).1.hasPath c.path = true then
      ((ofCalls calls).1, (ofCalls calls).2 ++ [c])
    else ((ofCalls calls).1.push c h, (ofCalls calls).2) := by
  unfold ofCalls
  rw [addAll_append, addAll]
  by_cases h : (empty.addAll calls).1.hasPath c.path = true
  · rw [dif_pos h, dif_pos h]
    rfl
  · rw [dif_neg h, dif_neg h, addAll, List.append_nil]

/-- What holds of the manifest without calls and is kept by each call holds of every manifest. -/
theorem ofCalls_induction {P : Indexed → Prop} (hEmpty : P empty)
    (hPush : ∀ x c h, P x → P (x.push c h)) (calls : List Call) : P (ofCalls calls).1 := by
  induction calls using List.reverseRecOn with
  | nil => exact hEmpty
  | append_singleton calls c ih =>
    rw [ofCalls_concat]
    split
    · exact ih
    · next h => exact hPush _ c h ih

theorem hasPath_iff (m : Manifest) (path : String) :
    m.hasPath path = true ↔ ∃ d ∈ m.calls, Path.Same d.path path := by
  simp [Manifest.hasPath]

theorem hasPath_ofCalls (calls : List Call) (path : String) :
    (ofCalls calls).1.hasPath path = true ↔ ∃ d ∈ calls, Path.Same d.path path := by
  induction calls using List.reverseRecOn with
  | nil => simp [ofCalls, addAll, empty, Manifest.empty, Manifest.hasPath]
  | append_singleton calls c ih =>
    rw [ofCalls_concat]
    simp only [List.mem_append, List.mem_singleton, or_and_right, exists_or, exists_eq_left, ← ih]
    split
    · next hTaken =>
      -- the path of the call is there, so it makes no difference
      refine ⟨Or.inl, ?_⟩
      rintro (h | hSame)
      · exact h
      · obtain ⟨d, hMem, hd⟩ := (hasPath_iff _ _).mp hTaken
        exact (hasPath_iff _ _).mpr ⟨d, hMem, hd.trans hSame⟩
    · simp [push, Manifest.push, Manifest.hasPath]

theorem ofCalls_eq_firsts (calls : List Call) :
    (ofCalls calls).1.calls = firsts calls ∧ (ofCalls calls).2 = repeats calls := by
  induction calls using List.reverseRecOn with
  | nil => exact ⟨rfl, rfl⟩
  | append_singleton calls c ih =>
    obtain ⟨hCalls, hDropped⟩ := ih
    rw [ofCalls_concat, firsts_concat, repeats_concat, ← hCalls, ← hDropped]
    by_cases h : (ofCalls calls).1.hasPath c.path = true
    · have hTaken := (hasPath_ofCalls calls c.path).mp h
      simp [h, hTaken]
    · have hNew := mt (hasPath_ofCalls calls c.path).mpr h
      simp [h, hNew, push, Manifest.push]

/-- The positions play no part in what is kept. -/
theorem toManifest_addAll (x : Indexed) (calls : List Call) :
    ((x.addAll calls).1.toManifest, (x.addAll calls).2) = x.toManifest.addAll calls := by
  induction calls generalizing x with
  | nil => rfl
  | cons c more ih =>
    rw [addAll, Manifest.addAll]
    split
    · rw [← ih]
    · exact ih _

theorem atPath?_ofCalls (calls : List Call) (path : String) :
    (ofCalls calls).1.atPath? path = calls.find? fun c => Path.Same c.path path := by
  induction calls using List.reverseRecOn with
  | nil => rfl
  | append_singleton calls c ih =>
    rw [ofCalls_concat, List.find?_append, ← ih]
    split
    · next hTaken =>
      by_cases hSame : Path.Same c.path path
      · -- an earlier call of the same path answers before this one
        obtain ⟨d, hMem, hd⟩ := (hasPath_iff _ _).mp hTaken
        have hFound : ((ofCalls calls).1.atPath? path).isSome = true :=
          List.find?_isSome.mpr ⟨d, hMem, by simpa using hd.trans hSame⟩
        rw [Option.or_of_isSome hFound]
      · simp [hSame]
    · simp [push, Manifest.push, Manifest.atPath?, List.find?_append]

/-- The positions are those of the first calls of the clean ids. -/
def Placed (x : Indexed) : Prop :=
  ∀ cleanId, x.positions.lookup cleanId = x.calls.findIdx? fun c => c.cleanId = cleanId

theorem lookup_enter (positions : List (String × Nat)) (cleanId other : String) (position : Nat) :
    (enter positions cleanId position).lookup other =
      (positions.lookup other).or (if other = cleanId then some position else none) := by
  unfold enter
  split
  · next found hFound =>
    by_cases h : other = cleanId
    · rw [h, hFound]
      rfl
    · simp [h]
  · rw [List.lookup_append]
    by_cases h : other = cleanId
    · simp [h]
    · have hBeq : (other == cleanId) = false := by simpa using h
      simp [h, List.lookup_cons, hBeq]

theorem placed_push (x : Indexed) (c : Call) (h : ¬x.hasPath c.path = true) (hPlaced : x.Placed) :
    (x.push c h).Placed := by
  intro cleanId
  have hPositions : (x.push c h).positions = enter x.positions c.cleanId x.calls.length := rfl
  have hCalls : (x.push c h).calls = x.calls ++ [c] := rfl
  rw [hPositions, hCalls, lookup_enter, hPlaced cleanId, List.findIdx?_append]
  by_cases hId : cleanId = c.cleanId
  · simp [hId]
  · have hOther : ¬c.cleanId = cleanId := fun hEq => hId hEq.symm
    simp [hId, hOther]

theorem placed_ofCalls (calls : List Call) : (ofCalls calls).1.Placed :=
  ofCalls_induction (fun _ => rfl) placed_push calls

theorem Placed.withCleanId?_eq {x : Indexed} (h : x.Placed) (cleanId : String) :
    x.withCleanId? cleanId = x.toManifest.withCleanId? cleanId := by
  rw [withCleanId?, h cleanId, Manifest.withCleanId?, List.find?_eq_bind_findIdx?_getElem?]

theorem ofCalls_firsts (calls : List Call) : ofCalls (firsts calls) = ((ofCalls calls).1, []) := by
  induction calls using List.reverseRecOn with
  | nil => rfl
  | append_singleton calls c ih =>
    rw [firsts_concat, ofCalls_concat]
    by_cases h : (ofCalls calls).1.hasPath c.path = true
    · rw [if_pos ((hasPath_ofCalls calls c.path).mp h), List.append_nil, ih, dif_pos h]
    · rw [if_neg (mt (hasPath_ofCalls calls c.path).mpr h), ofCalls_concat, dif_neg h]
      simp [ih, h]

/-- A manifest keeps the first call of each path in the order of the list and drops the others; a
path finds the first call of it in the list, and a clean id leads to the first call of it that was
kept. Built again from its own calls it is the same, and nothing is dropped. -/
theorem ofCalls_exact (calls : List Call) :
    let x := (ofCalls calls).1
    (x.toManifest, (ofCalls calls).2) = Manifest.ofCalls calls ∧
    x.calls = firsts calls ∧ (ofCalls calls).2 = repeats calls ∧
    (∀ path, x.atPath? path = calls.find? fun c => Path.Same c.path path) ∧
    (∀ cleanId, x.positions.lookup cleanId = x.calls.findIdx? fun c => c.cleanId = cleanId) ∧
    (∀ cleanId, x.withCleanId? cleanId = (firsts calls).find? fun c => c.cleanId = cleanId) ∧
    (∀ cleanId, x.withCleanId? cleanId = x.toManifest.withCleanId? cleanId) ∧
    (firsts calls).Pairwise (fun a b => ¬Path.Same a.path b.path) ∧
    ofCalls x.calls = (x, []) := by
  intro x
  obtain ⟨hCalls, hDropped⟩ := ofCalls_eq_firsts calls
  have hPlaced : x.Placed := placed_ofCalls calls
  refine ⟨toManifest_addAll empty calls, hCalls, hDropped, atPath?_ofCalls calls, hPlaced, ?_,
    hPlaced.withCleanId?_eq, hCalls ▸ x.distinct, ?_⟩
  · intro cleanId
    rw [hPlaced.withCleanId?_eq, Manifest.withCleanId?, hCalls]
  · rw [hCalls]
    exact ofCalls_firsts calls

end Indexed

end Standin.Mock
