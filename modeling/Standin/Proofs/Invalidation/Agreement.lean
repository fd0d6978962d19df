import Standin.Proofs.Invalidation.Seeds
import Standin.Proofs.Mock.FirstCalls

namespace Standin.Graph

open Standin.Module Standin.Mock

/-- The id is queued for a call of the manifest. -/
def Queued (g : Graph) (naming : Naming) (tree : FileTree) (m : Manifest) (id : String) : Prop :=
  ∃ c ∈ m.calls, id ∈ ((Pass.start naming tree g).mockedModule c).pending

/-- A call belongs to the normal form of an id by another spelling of its path, and none belongs to
it by its clean id. -/
structure OnlyRespelled (m : Manifest) (normal : String) : Prop where
  respelled : ∃ c ∈ m.calls, Path.Same c.path normal ∧ c.path ≠ normal
  noCleanId : ∀ c ∈ m.calls, c.cleanId ≠ clean normal

variable {g : Graph} {naming : Naming} {tree : FileTree} {m : Manifest} {id : String}

/-- An id is queued by the text of its normal form, or by its clean id. -/
theorem queued_iff (hm : ∀ c ∈ m.calls, normalize naming tree c.path = c.path) (hid : id ∈ g.ids) :
    Queued g naming tree m id ↔ ∃ c ∈ m.calls,
      c.path = normalize naming tree id ∨ c.cleanId = clean (normalize naming tree id) := by
  have hIndexes := Pass.start_indexes naming tree g
  have hNone : (Pass.start naming tree g).pending = [] := rfl
  unfold Queued
  refine exists_congr fun c => and_congr_right fun hc => ?_
  rw [hIndexes.mem_mockedModule, hNone, IsMockOf, IsAt, hm c hc]
  simp only [List.not_mem_nil, false_or, hid, true_and, eq_comm]

/-- A server finds an id by the components of its normal form, or by its clean id. -/
theorem found_iff (naming : Naming) (tree : FileTree) (m : Manifest) (id : String) :
    (MatchRule.cleanIdentity.find? naming tree m id).isSome ↔ ∃ c ∈ m.calls,
      Path.Same c.path (normalize naming tree id) ∨
        c.cleanId = clean (normalize naming tree id) := by
  have hFind : MatchRule.cleanIdentity.find? naming tree m id =
      (m.atPath? (normalize naming tree id)).or
        (m.withCleanId? (clean (normalize naming tree id))) := rfl
  rw [hFind, Option.isSome_or, Bool.or_eq_true, Manifest.atPath?, Manifest.withCleanId?,
    List.find?_isSome, List.find?_isSome]
  simp only [decide_eq_true_eq, and_or_left, exists_or]

/-- Every queued module is found. A module that is found is not queued exactly if it belongs to its
call by another spelling of the path alone: with a repeated slash, an inner `.` or a slash behind. -/
theorem found_unqueued_iff_onlyRespelled (g : Graph) (naming : Naming) (tree : FileTree)
    (m : Manifest) (hm : ∀ c ∈ m.calls, normalize naming tree c.path = c.path) (id : String)
    (hid : id ∈ g.ids) :
    (Queued g naming tree m id → (MatchRule.cleanIdentity.find? naming tree m id).isSome) ∧
    ((MatchRule.cleanIdentity.find? naming tree m id).isSome ∧ ¬Queued g naming tree m id ↔
      OnlyRespelled m (normalize naming tree id)) := by
  rw [queued_iff hm hid, found_iff]
  refine ⟨?_, ?_, ?_⟩
  · rintro ⟨c, hc, hPath | hClean⟩
    · exact ⟨c, hc, Or.inl (hPath ▸ Path.Same.refl _)⟩
    · exact ⟨c, hc, Or.inr hClean⟩
  · rintro ⟨⟨c, hc, hSame | hClean⟩, hUnqueued⟩
    · have hSpelled : c.path ≠ normalize naming tree id := by
        intro hPath
        exact hUnqueued ⟨c, hc, Or.inl hPath⟩
      have hUnclean : ∀ d ∈ m.calls, d.cleanId ≠ clean (normalize naming tree id) := by
        intro d hd hClean
        exact hUnqueued ⟨d, hd, Or.inr hClean⟩
      exact ⟨⟨c, hc, hSame, hSpelled⟩, hUnclean⟩
    · exact absurd ⟨c, hc, Or.inr hClean⟩ hUnqueued
  · rintro ⟨⟨c, hc, hSame, hSpelled⟩, hUnclean⟩
    refine ⟨⟨c, hc, Or.inl hSame⟩, ?_⟩
    rintro ⟨d, hd, hPath | hClean⟩
    · -- no two calls have one path, so the call of this spelling is the one of the other
      have hEq : c = d := Manifest.eq_of_same_path hc hd (hPath ▸ hSame)
      exact hSpelled (hEq ▸ hPath)
    · exact hUnclean d hd hClean

/-- A module registered by its file. -/
def apiOnly : Manifest := (Manifest.ofCalls [{ specifier := "./api", path := "/p/src/api.ts" }]).1

/-- The module under an id with a doubled slash gets its stand-ins and is not queued. -/
theorem doubled_slash_unqueued :
    (MatchRule.cleanIdentity.find? .asWritten .empty apiOnly "/p//src/api.ts").isSome ∧
      ¬Queued (empty.addModule "/p//src/api.ts") .asWritten .empty apiOnly "/p//src/api.ts" := by
  have hNormal : ∀ c ∈ apiOnly.calls, normalize .asWritten .empty c.path = c.path := by
    decide +kernel
  have hKnown : "/p//src/api.ts" ∈ (empty.addModule "/p//src/api.ts").ids := by decide +kernel
  have hSpelled : ∃ c ∈ apiOnly.calls,
      Path.Same c.path (normalize .asWritten .empty "/p//src/api.ts") ∧
        c.path ≠ normalize .asWritten .empty "/p//src/api.ts" := by decide +kernel
  have hUnclean : ∀ c ∈ apiOnly.calls,
      c.cleanId ≠ clean (normalize .asWritten .empty "/p//src/api.ts") := by decide +kernel
  exact (found_unqueued_iff_onlyRespelled (empty.addModule "/p//src/api.ts") .asWritten .empty
    apiOnly hNormal "/p//src/api.ts" hKnown).2.mpr ⟨hSpelled, hUnclean⟩

end Standin.Graph
