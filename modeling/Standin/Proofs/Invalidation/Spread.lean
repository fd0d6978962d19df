import Mathlib.Logic.Relation
import Standin.Graph.Basic
import Standin.Graph.Invalidation

namespace Standin.Graph

theorem lookup_raise_self (id : String) (counts : List (String × Nat)) :
    (raise id counts).lookup id = some ((counts.lookup id).getD 0 + 1) := by
  induction counts with
  | nil => simp [raise]
  | cons head more ih =>
    obtain ⟨key, count⟩ := head
    by_cases h : key = id
    · simp [raise, h]
    · have hb : (id == key) = false := by simpa using Ne.symm h
      simp [raise, h, List.lookup_cons, hb, ih]

theorem lookup_raise_of_ne {id other : String} (hne : other ≠ id)
    (counts : List (String × Nat)) : (raise id counts).lookup other = counts.lookup other := by
  induction counts with
  | nil =>
    have hb : (other == id) = false := by simpa using hne
    simp [raise, List.lookup_cons, hb]
  | cons head more ih =>
    obtain ⟨key, count⟩ := head
    by_cases h : key = id
    · have hb : (other == key) = false := by simpa [h] using hne
      simp [raise, h, List.lookup_cons, h ▸ hb]
    · simp [raise, h, List.lookup_cons, ih]

theorem invalidationCount_invalidate {g : Graph} {id : String} (hid : id ∈ g.ids)
    (other : String) : (g.invalidate id).invalidationCount other =
      g.invalidationCount other + if other = id then 1 else 0 := by
  unfold invalidationCount invalidate
  rw [if_pos hid]
  by_cases h : other = id
  · subst h
    simp [lookup_raise_self]
  · simp [lookup_raise_of_ne h, h]

@[simp] theorem ids_invalidate (g : Graph) (id : String) : (g.invalidate id).ids = g.ids := by
  simp [ids]

theorem nodes_foldl_invalidate (ids : List String) (g : Graph) :
    (ids.foldl invalidate g).nodes = g.nodes := by
  induction ids generalizing g with
  | nil => rfl
  | cons id more ih => rw [List.foldl_cons, ih, nodes_invalidate]

theorem invalidationCount_foldl_invalidate {ids : List String} (hnd : ids.Nodup) {g : Graph}
    (hids : ∀ id ∈ ids, id ∈ g.ids) (other : String) :
    (ids.foldl invalidate g).invalidationCount other =
      g.invalidationCount other + if other ∈ ids then 1 else 0 := by
  induction ids generalizing g with
  | nil => simp
  | cons id more ih =>
    obtain ⟨hfresh, hmore⟩ := List.nodup_cons.mp hnd
    have hrest : ∀ m ∈ more, m ∈ (g.invalidate id).ids := by
      intro m hm
      simpa using hids m (List.mem_cons_of_mem _ hm)
    rw [List.foldl_cons, ih hmore hrest,
      invalidationCount_invalidate (hids id List.mem_cons_self)]
    by_cases h : other = id
    · subst h
      simp [hfresh]
    · simp [h]

def Imports (g : Graph) (a b : String) : Prop := a ∈ g.importersOf b

def Reaches (g : Graph) : String → String → Prop := Relation.ReflTransGen g.Imports

/-- The importers of every visited id are visited or still to come. -/
def Covered (g : Graph) (visited stack : List String) : Prop :=
  ∀ b ∈ visited, ∀ a, g.Imports a b → a ∈ visited ∨ a ∈ stack

variable {g : Graph} {visited stack : List String}

theorem covered_nil (g : Graph) (stack : List String) : g.Covered [] stack := by
  intro b hb
  simp at hb

theorem Covered.of_visited {id : String} (hc : g.Covered visited (id :: stack))
    (hid : id ∈ visited) : g.Covered visited stack := by
  intro b hb a hab
  rcases hc b hb a hab with ha | ha
  · exact Or.inl ha
  · rcases List.mem_cons.mp ha with rfl | ha
    · exact Or.inl hid
    · exact Or.inr ha

/-- What is pushed for a new id: its importers that are not visited, the last on top. -/
def pushed (g : Graph) (visited : List String) (id : String) : List String :=
  ((g.importersOf id).filter (· ∉ id :: visited)).reverse

theorem mem_pushed {id a : String} :
    a ∈ g.pushed visited id ↔ g.Imports a id ∧ a ∉ id :: visited := by
  simp [pushed, Imports]

theorem Covered.push {id : String} (hc : g.Covered visited (id :: stack)) :
    g.Covered (id :: visited) (g.pushed visited id ++ stack) := by
  intro b hb a hab
  by_cases ha : a ∈ id :: visited
  · exact Or.inl ha
  refine Or.inr (List.mem_append.mpr ?_)
  rcases List.mem_cons.mp hb with rfl | hb
  · exact Or.inl (mem_pushed.mpr ⟨hab, ha⟩)
  · rcases hc b hb a hab with hv | hs
    · exact absurd (List.mem_cons_of_mem _ hv) ha
    · rcases List.mem_cons.mp hs with rfl | hs
      · exact absurd List.mem_cons_self ha
      · exact Or.inr hs

/-- A way into the visited ids from outside passes through the stack. -/
theorem Covered.crossing (hc : g.Covered visited stack) {a b : String} (hab : g.Reaches a b)
    (ha : a ∉ visited) (hb : b ∈ visited) : ∃ s ∈ stack, g.Reaches a s := by
  induction hab with
  | refl => exact absurd hb ha
  | @tail m b ham hmb ih =>
    by_cases hm : m ∈ visited
    · exact ih hm
    · rcases hc b hb m hmb with hv | hs
      · exact absurd hv hm
      · exact ⟨m, hs, ham⟩

theorem not_mem_visited_of_mem_spread {x : String} (hx : x ∈ spread g visited stack) :
    x ∉ visited := by
  fun_induction spread g visited stack with
  | case1 => simp at hx
  | case2 visited id stack hid ih => exact ih hx
  | case3 visited id stack hid reached hknown ih =>
    rcases List.mem_cons.mp hx with rfl | hx
    · exact hid
    · exact fun hv => ih hx (List.mem_cons_of_mem _ hv)
  | case4 visited id stack hid reached hknown ih =>
    exact fun hv => ih hx (List.mem_cons_of_mem _ hv)

theorem spread_nodup (g : Graph) (visited stack : List String) :
    (spread g visited stack).Nodup := by
  fun_induction spread g visited stack with
  | case1 => exact List.nodup_nil
  | case2 visited id stack hid ih => exact ih
  | case3 visited id stack hid reached hknown ih =>
    refine List.nodup_cons.mpr ⟨fun hm => ?_, ih⟩
    exact not_mem_visited_of_mem_spread hm List.mem_cons_self
  | case4 visited id stack hid reached hknown ih => exact ih

/-- The stack of the next step serves the ids that were not visited: those that reach the new id
reach one of its importers, the id itself apart. -/
theorem reaches_pushed_iff {id x : String} (hc : g.Covered visited (id :: stack))
    (hx : x ∉ id :: visited) :
    (∃ s ∈ g.pushed visited id ++ stack, g.Reaches x s) ↔
      ∃ s ∈ id :: stack, g.Reaches x s := by
  constructor
  · rintro ⟨s, hs, hxs⟩
    rcases List.mem_append.mp hs with hs | hs
    · exact ⟨id, List.mem_cons_self, hxs.tail (mem_pushed.mp hs).1⟩
    · exact ⟨s, List.mem_cons_of_mem _ hs, hxs⟩
  · rintro ⟨s, hs, hxs⟩
    rcases List.mem_cons.mp hs with rfl | hs
    · exact hc.push.crossing hxs hx List.mem_cons_self
    · exact ⟨s, List.mem_append_right _ hs, hxs⟩

theorem mem_spread {x : String} (hc : g.Covered visited stack) :
    x ∈ spread g visited stack ↔
      x ∈ g.ids ∧ x ∉ visited ∧ ∃ s ∈ stack, g.Reaches x s := by
  fun_induction spread g visited stack with
  | case1 => simp
  | case2 visited id stack hid ih =>
    rw [ih (hc.of_visited hid)]
    refine and_congr_right fun _ => and_congr_right fun hx => ?_
    constructor
    · rintro ⟨s, hs, hxs⟩
      exact ⟨s, List.mem_cons_of_mem _ hs, hxs⟩
    · rintro ⟨s, hs, hxs⟩
      rcases List.mem_cons.mp hs with rfl | hs
      · exact (hc.of_visited hid).crossing hxs hx hid
      · exact ⟨s, hs, hxs⟩
  | case3 visited id stack hid reached hknown ih =>
    by_cases hx : x = id
    · subst hx
      have hself : ∃ s ∈ x :: stack, g.Reaches x s := ⟨x, List.mem_cons_self, .refl⟩
      exact ⟨fun _ => ⟨hknown, hid, hself⟩, fun _ => List.mem_cons_self⟩
    · have hv : x ∉ id :: visited ↔ x ∉ visited := by simp [hx]
      rw [List.mem_cons, or_iff_right hx, ih hc.push, hv]
      refine and_congr_right fun _ => and_congr_right fun hxv => ?_
      exact reaches_pushed_iff hc (hv.mpr hxv)
  | case4 visited id stack hid reached hknown ih =>
    rw [ih hc.push]
    refine and_congr_right fun hids => ?_
    have hx : x ≠ id := fun h => hknown (h ▸ hids)
    have hv : x ∉ id :: visited ↔ x ∉ visited := by simp [hx]
    rw [hv]
    exact and_congr_right fun hxv => reaches_pushed_iff hc (hv.mpr hxv)

/-- From nothing visited, a traversal lists the modules that reach its stack. -/
theorem mem_spread_nil {x : String} :
    x ∈ spread g [] stack ↔ x ∈ g.ids ∧ ∃ s ∈ stack, g.Reaches x s := by
  rw [mem_spread (covered_nil g stack)]
  simp

end Standin.Graph
