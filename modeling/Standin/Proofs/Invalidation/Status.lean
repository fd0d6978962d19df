import Standin.Proofs.Invalidation.Seeds
import Standin.Proofs.Invalidation.Spread
import Standin.Proofs.PlainPaths

namespace Standin.Graph

open Standin.Module Standin.Mock

variable (g : Graph) (naming : Naming) (tree : FileTree) (config : String) (old new : Manifest)

def changeReport : Report := (g.invalidateChanges naming tree config old new).1

def afterChange : Graph := (g.invalidateChanges naming tree config old new).2

/-- Imports lead from the id to a module that the change concerns itself. -/
def LeadsToSeed (id : String) : Prop :=
  ∃ s, IsSeed g naming tree config old new s ∧ g.Reaches id s

theorem changeReport_invalidated : (changeReport g naming tree config old new).invalidated =
    (changePass g naming tree config old new).affected g := rfl

theorem changeReport_removed : (changeReport g naming tree config old new).removed =
    (old.removedIn new).map (·.path) := rfl

theorem afterChange_eq : afterChange g naming tree config old new =
    (changeReport g naming tree config old new).invalidated.foldl invalidate g := rfl

theorem mem_invalidated (id : String) :
    id ∈ (changeReport g naming tree config old new).invalidated ↔
      id ∈ g.ids ∧ LeadsToSeed g naming tree config old new id := by
  rw [changeReport_invalidated, Pass.affected, mem_spread_nil, LeadsToSeed]
  refine and_congr_right fun _ => exists_congr fun s => and_congr_left fun _ => ?_
  rw [List.mem_reverse, mem_changePass_pending]

theorem invalidated_nodup : (changeReport g naming tree config old new).invalidated.Nodup := by
  rw [changeReport_invalidated]
  exact spread_nodup g [] _

/-- A manifest change invalidates exactly the modules that it concerns and their importers, direct
and indirect, each once; it reports the paths registered no longer in their old order. -/
theorem changeReport_exact (g : Graph) (naming : Naming) (tree : FileTree) (config : String)
    (old new : Manifest) :
    (changeReport g naming tree config old new).invalidated.Nodup ∧
    (∀ id, id ∈ (changeReport g naming tree config old new).invalidated ↔
      id ∈ g.ids ∧ ∃ s, IsSeed g naming tree config old new s ∧ g.Reaches id s) ∧
    (∀ id, (afterChange g naming tree config old new).invalidationCount id =
      g.invalidationCount id +
        if id ∈ (changeReport g naming tree config old new).invalidated then 1 else 0) ∧
    (afterChange g naming tree config old new).nodes = g.nodes ∧
    (changeReport g naming tree config old new).removed =
      (old.calls.filter fun c => ∀ d ∈ new.calls, ¬Path.Same d.path c.path).map (·.path) := by
  have hnd := invalidated_nodup g naming tree config old new
  have hmem := mem_invalidated g naming tree config old new
  refine ⟨hnd, hmem, ?_, ?_, ?_⟩
  · intro id
    rw [afterChange_eq]
    exact invalidationCount_foldl_invalidate hnd (fun m hm => ((hmem m).mp hm).1) id
  · rw [afterChange_eq]
    exact nodes_foldl_invalidate _ g
  · rw [changeReport_removed, removedIn_eq]

open Standin.Module Standin.Mock

/-- A path as registrations hold it: nothing to strip, no redundant pieces. -/
def IsNormalPath (path : String) : Prop := strip path = path ∧ Path.Plain path

/-- The registration that a server finds for an id, by the text of the id alone. -/
def registration? (tree : FileTree) (m : Manifest) (id : String) : Option Call :=
  MatchRule.cleanIdentity.find? .asWritten tree m id

/-- The old and the new manifest give different answers for an id. -/
def StatusChanges (tree : FileTree) (old new : Manifest) (id : String) : Prop :=
  (registration? tree old id).map Call.key ≠ (registration? tree new id).map Call.key

/-- The old manifest has calls of a clean id, and the new one has their paths under other clean
ids. -/
def CleanIdDropped (old new : Manifest) (cleanId : String) : Prop :=
  (∃ c ∈ old.calls, c.cleanId = cleanId) ∧
    ∀ c ∈ old.calls, c.cleanId = cleanId →
      ∃ d ∈ new.calls, Path.Same d.path c.path ∧ d.cleanId ≠ cleanId

theorem registration?_eq (tree : FileTree) (m : Manifest) (id : String) :
    registration? tree m id = (m.atPath? (strip id)).or (m.withCleanId? (clean (strip id))) := rfl

theorem isMockOf_iff (tree : FileTree) {c : Call} (hc : strip c.path = c.path) (id : String) :
    IsMockOf .asWritten tree c id ↔ strip id = c.path ∨ clean (strip id) = c.cleanId := by
  rw [IsMockOf, IsAt, normalize_asWritten, normalize_asWritten, hc]

theorem atPath?_eq_none {m : Manifest} {path : String}
    (h : ∀ c ∈ m.calls, ¬Path.Same c.path path) : m.atPath? path = none := by
  unfold Manifest.atPath?
  rw [List.find?_eq_none]
  simpa using h

theorem withCleanId?_eq_none_iff (m : Manifest) (cleanId : String) :
    m.withCleanId? cleanId = none ↔ ∀ c ∈ m.calls, c.cleanId ≠ cleanId := by
  unfold Manifest.withCleanId?
  rw [List.find?_eq_none]
  simp

section Missed

variable {g : Graph} {tree : FileTree} {config : String} {old new : Manifest} {id : String}

/-- A module that is no seed belongs to no call that the change concerns. -/
theorem not_isMockOf_of_not_isSeed (hid : id ∈ g.ids)
    (hs : ¬IsSeed g .asWritten tree config old new id) {c : Call} (hc : IsConcerned old new c) :
    ¬IsMockOf .asWritten tree c id :=
  fun hm => hs ⟨hid, Or.inr ⟨c, hc, hm⟩⟩

variable (hold : ∀ c ∈ old.calls, IsNormalPath c.path)
  (hnew : ∀ c ∈ new.calls, IsNormalPath c.path)
  (hid : id ∈ g.ids) (hplain : Path.Plain (strip id))
  (hs : ¬IsSeed g .asWritten tree config old new id)

include hnew hid hplain hs in
theorem atPath?_new_eq_none : new.atPath? (strip id) = none := by
  refine atPath?_eq_none fun c hc hsame => ?_
  have hpath : c.path = strip id := (hnew c hc).2.eq_of_same hplain hsame
  refine not_isMockOf_of_not_isSeed hid hs (Or.inl hc) ?_
  exact (isMockOf_iff tree (hnew c hc).1 id).mpr (Or.inl hpath.symm)

include hnew hid hs in
theorem cleanId_ne_of_mem_new {c : Call} (hc : c ∈ new.calls) : c.cleanId ≠ clean (strip id) := by
  intro hclean
  refine not_isMockOf_of_not_isSeed hid hs (Or.inl hc) ?_
  exact (isMockOf_iff tree (hnew c hc).1 id).mpr (Or.inr hclean.symm)

include hold hid hs in
/-- A call that belongs to the module keeps its path. -/
theorem path_kept {c : Call} (hc : c ∈ old.calls)
    (hm : strip id = c.path ∨ clean (strip id) = c.cleanId) :
    ∃ d ∈ new.calls, Path.Same d.path c.path := by
  refine Classical.byContradiction fun hgone => ?_
  have hgone' : ∀ d ∈ new.calls, ¬Path.Same d.path c.path := by simpa using hgone
  refine not_isMockOf_of_not_isSeed hid hs (Or.inr ⟨hc, hgone'⟩) ?_
  exact (isMockOf_iff tree (hold c hc).1 id).mpr hm

include hold hnew hid hplain hs in
theorem atPath?_old_eq_none : old.atPath? (strip id) = none := by
  refine atPath?_eq_none fun c hc hsame => ?_
  have hpath : c.path = strip id := (hold c hc).2.eq_of_same hplain hsame
  obtain ⟨d, hd, hdc⟩ := path_kept hold hid hs hc (Or.inl hpath.symm)
  have hnone := atPath?_new_eq_none hnew hid hplain hs
  unfold Manifest.atPath? at hnone
  rw [List.find?_eq_none] at hnone
  have hdid : Path.Same d.path (strip id) := hdc.trans hsame
  simpa [hdid] using hnone d hd

include hold hnew hid hplain hs in
/-- Of a module that is no seed only the old manifest may know, and by its clean id. -/
theorem statusChanges_iff :
    StatusChanges tree old new id ↔ ∃ c ∈ old.calls, c.cleanId = clean (strip id) := by
  have hnone : new.withCleanId? (clean (strip id)) = none :=
    (withCleanId?_eq_none_iff _ _).mpr fun c hc => cleanId_ne_of_mem_new hnew hid hs hc
  have hnewAnswer : registration? tree new id = none := by
    rw [registration?_eq, atPath?_new_eq_none hnew hid hplain hs, hnone]
    rfl
  have holdAnswer : registration? tree old id = old.withCleanId? (clean (strip id)) := by
    rw [registration?_eq, atPath?_old_eq_none hold hnew hid hplain hs]
    rfl
  rw [StatusChanges, hnewAnswer, holdAnswer, Option.map_none, Ne, Option.map_eq_none_iff,
    withCleanId?_eq_none_iff]
  simp

end Missed

/-- A manifest change misses a module whose registration it changes exactly if each call of the
module's clean id stays at its path under another clean id, while nothing else that the change
concerns can be reached from the module by imports. -/
theorem missed_iff_cleanIdDropped (g : Graph) (tree : FileTree) (config : String)
    (old new : Manifest) (hold : ∀ c ∈ old.calls, IsNormalPath c.path)
    (hnew : ∀ c ∈ new.calls, IsNormalPath c.path) (id : String) (hid : id ∈ g.ids)
    (hplain : Path.Plain (strip id)) :
    (StatusChanges tree old new id ∧
        id ∉ (changeReport g .asWritten tree config old new).invalidated) ↔
      CleanIdDropped old new (clean (strip id)) ∧
        ¬LeadsToSeed g .asWritten tree config old new id := by
  have hseed : ¬LeadsToSeed g .asWritten tree config old new id →
      ¬IsSeed g .asWritten tree config old new id := fun hn hs => hn ⟨id, hs, .refl⟩
  rw [mem_invalidated]
  constructor
  · rintro ⟨hchange, hmissed⟩
    have hlead : ¬LeadsToSeed g .asWritten tree config old new id :=
      fun h => hmissed ⟨hid, h⟩
    have hs := hseed hlead
    refine ⟨⟨(statusChanges_iff hold hnew hid hplain hs).mp hchange, ?_⟩, hlead⟩
    intro c hc hclean
    obtain ⟨d, hd, hsame⟩ := path_kept hold hid hs hc (Or.inr hclean.symm)
    exact ⟨d, hd, hsame, cleanId_ne_of_mem_new hnew hid hs hd⟩
  · rintro ⟨⟨hcall, _⟩, hlead⟩
    have hs := hseed hlead
    exact ⟨(statusChanges_iff hold hnew hid hplain hs).mpr hcall, fun h => hlead h.2⟩

/-- A package registered by its name. -/
def byName : Manifest := (Manifest.ofCalls [{ specifier := "lodash", path := "/p/lodash.js" }]).1

def byFile : Manifest := (Manifest.ofCalls [{ specifier := "./lodash", path := "/p/lodash.js" }]).1

/-- The pre-bundled copy of the package. -/
def bundledId : String := "/p/deps/lodash.js?v=1"

def bundledOnly : Graph := empty.addModule bundledId

theorem cleanIdDropped_lodash : CleanIdDropped byName byFile (clean (strip bundledId)) := by
  have hclean : clean (strip bundledId) = "lodash" := by decide +kernel
  rw [hclean, CleanIdDropped]
  decide +kernel

theorem bundledOnly_not_leadsToSeed :
    ¬LeadsToSeed bundledOnly .asWritten .empty "/p/preview.ts" byName byFile bundledId := by
  rintro ⟨s, ⟨hknown, hconcerned⟩, _⟩
  have hs : s = bundledId := by simpa [bundledOnly, addModule, ids, empty] using hknown
  have hnew : ∀ c, IsConcerned byName byFile c →
      c.path = "/p/lodash.js" ∧ c.cleanId = "./lodash" := by
    rintro c (hc | ⟨hc, hgone⟩)
    · have hfile : ∀ c ∈ byFile.calls, c.path = "/p/lodash.js" ∧ c.cleanId = "./lodash" := by
        decide +kernel
      exact hfile c hc
    · have hkept : ∀ c ∈ byName.calls, ∃ d ∈ byFile.calls, Path.Same d.path c.path := by
        decide +kernel
      obtain ⟨d, hd, hsame⟩ := hkept c hc
      exact absurd hsame (hgone d hd)
  have hstrip : strip bundledId = "/p/deps/lodash.js" := by decide +kernel
  have hclean : clean "/p/deps/lodash.js" = "lodash" := by decide +kernel
  have hconfig : strip "/p/preview.ts" = "/p/preview.ts" := by decide +kernel
  rcases hconcerned with hat | ⟨c, hc, hm⟩
  · rw [hs, IsAt, normalize_asWritten, normalize_asWritten, hstrip, hconfig] at hat
    exact absurd hat (by decide)
  · obtain ⟨hpath, hcleanId⟩ := hnew c hc
    have hfix : strip c.path = c.path := by
      rw [hpath]
      decide +kernel
    rw [hs, isMockOf_iff _ hfix, hstrip, hclean, hpath, hcleanId] at hm
    exact absurd hm (by decide)

/-- Registering the file instead of the package leaves the pre-bundled copy as it was: its stand-in
is no longer due, and it is not invalidated. -/
theorem bundled_copy_missed :
    StatusChanges .empty byName byFile bundledId ∧ bundledId ∉
      (changeReport bundledOnly .asWritten .empty "/p/preview.ts" byName byFile).invalidated := by
  have hnormal : IsNormalPath "/p/lodash.js" := by
    unfold IsNormalPath
    decide +kernel
  have hold : ∀ c ∈ byName.calls, c.path = "/p/lodash.js" := by decide +kernel
  have hnew : ∀ c ∈ byFile.calls, c.path = "/p/lodash.js" := by decide +kernel
  have hid : bundledId ∈ bundledOnly.ids := by decide +kernel
  have hplain : Path.Plain (strip bundledId) := by decide +kernel
  exact (missed_iff_cleanIdDropped bundledOnly .empty "/p/preview.ts" byName byFile
    (fun c hc => hold c hc ▸ hnormal) (fun c hc => hnew c hc ▸ hnormal) bundledId hid hplain).mpr
    ⟨cleanIdDropped_lodash, bundledOnly_not_leadsToSeed⟩

end Standin.Graph
