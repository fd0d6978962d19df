import Standin.Path.Basic

namespace Standin.Path

open Standin.Text

/-- No piece behind a slash is empty or `.`; so no slash is repeated and none stands at the end. -/
def Plain (path : String) : Prop :=
  ∀ piece ∈ (split '/' path.toList).tail, piece ≠ [] ∧ piece ≠ ['.']

instance (path : String) : Decidable (Plain path) :=
  inferInstanceAs (Decidable (∀ piece ∈ _, _))

def Component.piece : Component → List Char
  | .root => []
  | .here => ['.']
  | .up => ['.', '.']
  | .name text => text.toList

theorem step?_piece {piece : List Char} (h : piece ≠ [] ∧ piece ≠ ['.']) :
    ∃ k, step? piece = some k ∧ k.piece = piece := by
  unfold step?
  rw [if_neg (by simpa using h)]
  split
  · next hup => exact ⟨.up, rfl, hup.symm⟩
  · exact ⟨.name (String.ofList piece), rfl, by simp [Component.piece]⟩

theorem filterMap_step?_pieces {pieces : List (List Char)}
    (h : ∀ piece ∈ pieces, piece ≠ [] ∧ piece ≠ ['.']) :
    (pieces.filterMap step?).map Component.piece = pieces := by
  induction pieces with
  | nil => rfl
  | cons piece more ih =>
    obtain ⟨k, hstep, hk⟩ := step?_piece (h piece List.mem_cons_self)
    have hmore := ih fun q hq => h q (List.mem_cons_of_mem _ hq)
    rw [List.filterMap_cons, hstep, List.map_cons, hk, hmore]

/-- Only a leading slash leaves the first piece of a path empty. -/
theorem split_slash_nil_cons {path : List Char} {more : List (List Char)}
    (h : split '/' path = [] :: more) : path = [] ∨ path.head? = some '/' := by
  cases path with
  | nil => exact Or.inl rfl
  | cons c rest =>
    refine Or.inr ?_
    by_cases hc : c = '/'
    · simp [hc]
    · rw [split, if_neg hc] at h
      split at h <;> simp at h

/-- The pieces of a plain path are those of its components; the empty path has no component. -/
theorem join_pieces {path : String} (h : Plain path) :
    join '/' ((components path).map Component.piece) = path.toList := by
  have hjoin := join_split '/' path.toList
  unfold Plain at h
  unfold components componentsOf
  cases hs : split '/' path.toList with
  | nil => exact absurd hs (split_ne_nil _ _)
  | cons first more =>
    rw [hs] at h hjoin
    have hmore : (more.filterMap step?).map Component.piece = more :=
      filterMap_step?_pieces (by simpa using h)
    have hfirst : ∀ k : Component, k.piece = first →
        join '/' (([k] ++ more.filterMap step?).map Component.piece) = path.toList := by
      intro k hk
      rw [← hjoin, List.map_append, List.map_singleton, hk, hmore]
      rfl
    simp only
    by_cases habs : path.toList.head? = some '/'
    · rw [if_pos habs]
      refine hfirst .root ?_
      cases hp : path.toList with
      | nil => simp [hp] at habs
      | cons c rest =>
        have hc : c = '/' := by simpa [hp] using habs
        rw [hp, split, if_pos hc] at hs
        exact (List.cons.inj hs).1
    · rw [if_neg habs]
      by_cases hdot : first = ['.']
      · rw [if_pos hdot]
        exact hfirst .here hdot.symm
      · rw [if_neg hdot]
        by_cases hnil : first = []
        · have hempty : path.toList = [] :=
            (split_slash_nil_cons (hnil ▸ hs)).resolve_right habs
          have hnone : more = [] := by
            rw [hempty] at hs
            exact (List.cons.inj hs).2.symm
          rw [hempty, hnil, hnone]
          rfl
        · obtain ⟨k, hstep, hk⟩ := step?_piece ⟨hnil, hdot⟩
          rw [hstep]
          exact hfirst k hk

theorem Plain.eq_of_same {p q : String} (hp : Plain p) (hq : Plain q) (h : Same p q) : p = q := by
  have hchars : p.toList = q.toList := by rw [← join_pieces hp, ← join_pieces hq, h]
  exact String.toList_inj.mp hchars

end Standin.Path
