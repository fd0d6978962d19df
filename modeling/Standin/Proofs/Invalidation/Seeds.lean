import Standin.Graph.Invalidation

namespace Standin.Module

variable (naming : Naming) (tree : FileTree)

/-- Every entry holds the normal form of its stripped id. -/
def NormalCache.Sound (cache : NormalCache) : Prop :=
  ∀ stripped normal, cache.lookup stripped = some normal → normal = resolved naming tree stripped

theorem NormalCache.sound_nil : NormalCache.Sound naming tree [] := by
  intro stripped normal h
  simp at h

variable {naming tree}

theorem normalize_asWritten (tree : FileTree) (id : String) :
    normalize .asWritten tree id = strip id := rfl

theorem normalizeCached_normal {cache : NormalCache} (hc : cache.Sound naming tree) (id : String) :
    (normalizeCached naming tree cache id).1 = normalize naming tree id := by
  unfold normalizeCached normalize
  split
  · next normal h => exact hc _ _ h
  · rfl

theorem normalizeCached_sound {cache : NormalCache} (hc : cache.Sound naming tree) (id : String) :
    (normalizeCached naming tree cache id).2.Sound naming tree := by
  unfold normalizeCached
  split
  · exact hc
  · intro stripped normal h
    by_cases hs : stripped = strip id
    · subst hs
      simpa using h.symm
    · have hl : List.lookup stripped cache = some normal := by
        have hb : (stripped == strip id) = false := by simpa using hs
        simpa [List.lookup_cons, hb] using h
      exact hc _ _ hl

end Standin.Module

namespace Standin.Graph

open Standin.Module

def entryOf (naming : Naming) (tree : FileTree) (id : String) : IndexEntry :=
  ⟨id, normalize naming tree id, clean (normalize naming tree id)⟩

variable {naming : Naming} {tree : FileTree}

theorem indexIds_entries (ids : List String) {cache : NormalCache}
    (hc : cache.Sound naming tree) :
    (indexIds naming tree ids cache).1 = ids.map (entryOf naming tree) ∧
      (indexIds naming tree ids cache).2.Sound naming tree := by
  induction ids generalizing cache with
  | nil => exact ⟨rfl, hc⟩
  | cons id more ih =>
    obtain ⟨hindex, hsound⟩ := ih (normalizeCached_sound hc id)
    refine ⟨?_, hsound⟩
    simp only [indexIds, List.map_cons, hindex]
    rw [normalizeCached_normal hc id, entryOf]

open Standin.Module Standin.Mock

/-- The id is a variant of the file at a path. -/
def IsAt (naming : Naming) (tree : FileTree) (path id : String) : Prop :=
  normalize naming tree id = normalize naming tree path

/-- The id belongs to a registered module: by its file, or by its clean id. -/
def IsMockOf (naming : Naming) (tree : FileTree) (c : Call) (id : String) : Prop :=
  IsAt naming tree c.path id ∨ clean (normalize naming tree id) = c.cleanId

/-- The calls of the new manifest, and those of the old one whose path the new one lacks. -/
def IsConcerned (old new : Manifest) (c : Call) : Prop :=
  c ∈ new.calls ∨ c ∈ old.calls ∧ ∀ d ∈ new.calls, ¬Path.Same d.path c.path

/-- A module that a manifest change concerns itself, not only through what it imports. -/
structure IsSeed (g : Graph) (naming : Naming) (tree : FileTree) (config : String)
    (old new : Manifest) (id : String) : Prop where
  known : id ∈ g.ids
  concerned : IsAt naming tree config id ∨
    ∃ c, IsConcerned old new c ∧ IsMockOf naming tree c id

namespace Pass

theorem mem_enqueue (pending found : List String) (x : String) :
    x ∈ enqueue pending found ↔ x ∈ pending ∨ x ∈ found := by
  induction found generalizing pending with
  | nil => simp [enqueue]
  | cons id more ih =>
    rw [enqueue, ih]
    by_cases h : id ∈ pending
    · rw [if_pos h, List.mem_cons]
      constructor
      · rintro (hx | hx)
        · exact Or.inl hx
        · exact Or.inr (Or.inr hx)
      · rintro (hx | rfl | hx)
        · exact Or.inl hx
        · exact Or.inl h
        · exact Or.inr hx
    · simp [h, or_assoc]

variable {naming : Naming} {tree : FileTree} {g : Graph}

/-- The index lists the ids of the graph, and the cache is sound. -/
structure Indexes (naming : Naming) (tree : FileTree) (g : Graph) (p : Pass) : Prop where
  naming_eq : p.naming = naming
  tree_eq : p.tree = tree
  index_eq : p.index = g.ids.map (entryOf naming tree)
  cache_sound : p.cache.Sound naming tree

theorem start_indexes (naming : Naming) (tree : FileTree) (g : Graph) :
    (start naming tree g).Indexes naming tree g := by
  obtain ⟨hindex, hsound⟩ := indexIds_entries g.ids (NormalCache.sound_nil naming tree)
  exact ⟨rfl, rfl, hindex, hsound⟩

theorem Indexes.seed {p : Pass} (hp : p.Indexes naming tree g) (path : String)
    (accepts : String → IndexEntry → Bool) : (p.seed path accepts).Indexes naming tree g := by
  obtain ⟨rfl, rfl, hindex, hsound⟩ := hp
  exact ⟨rfl, rfl, hindex, normalizeCached_sound hsound path⟩

theorem Indexes.mem_seed {p : Pass} (hp : p.Indexes naming tree g) (path : String)
    (accepts : String → IndexEntry → Bool) (x : String) :
    x ∈ (p.seed path accepts).pending ↔ x ∈ p.pending ∨
      x ∈ g.ids ∧ accepts (normalize naming tree path) (entryOf naming tree x) = true := by
  obtain ⟨rfl, rfl, hindex, hsound⟩ := hp
  have hpending : (p.seed path accepts).pending = enqueue p.pending
      ((p.index.filter (accepts (normalizeCached p.naming p.tree p.cache path).1)).map (·.id)) :=
    rfl
  rw [hpending, mem_enqueue, normalizeCached_normal hsound, hindex]
  refine or_congr_right ?_
  simp only [List.mem_map, List.mem_filter]
  constructor
  · rintro ⟨e, ⟨⟨id, hid, rfl⟩, ha⟩, rfl⟩
    exact ⟨hid, ha⟩
  · rintro ⟨hid, ha⟩
    exact ⟨_, ⟨⟨x, hid, rfl⟩, ha⟩, rfl⟩

theorem Indexes.moduleAt {p : Pass} (hp : p.Indexes naming tree g) (path : String) :
    (p.moduleAt path).Indexes naming tree g := hp.seed path _

theorem Indexes.mockedModule {p : Pass} (hp : p.Indexes naming tree g) (c : Call) :
    (p.mockedModule c).Indexes naming tree g := hp.seed c.path _

theorem Indexes.mem_moduleAt {p : Pass} (hp : p.Indexes naming tree g) (path x : String) :
    x ∈ (p.moduleAt path).pending ↔ x ∈ p.pending ∨ x ∈ g.ids ∧ IsAt naming tree path x := by
  rw [Pass.moduleAt, hp.mem_seed, IsAt, entryOf, decide_eq_true_iff]

theorem Indexes.mem_mockedModule {p : Pass} (hp : p.Indexes naming tree g) (c : Call)
    (x : String) : x ∈ (p.mockedModule c).pending ↔
      x ∈ p.pending ∨ x ∈ g.ids ∧ IsMockOf naming tree c x := by
  rw [Pass.mockedModule, hp.mem_seed, IsMockOf, IsAt, entryOf, Bool.or_eq_true, decide_eq_true_iff,
    decide_eq_true_iff]

theorem Indexes.mem_foldl_mockedModule {p : Pass} (hp : p.Indexes naming tree g)
    (calls : List Call) (x : String) : x ∈ (calls.foldl Pass.mockedModule p).pending ↔
      x ∈ p.pending ∨ x ∈ g.ids ∧ ∃ c ∈ calls, IsMockOf naming tree c x := by
  induction calls generalizing p with
  | nil => simp
  | cons c more ih =>
    rw [List.foldl_cons, ih (hp.mockedModule c), hp.mem_mockedModule]
    simp only [List.mem_cons, exists_eq_or_imp, and_or_left, or_assoc]

end Pass

theorem removedIn_eq (old new : Manifest) : old.removedIn new =
    old.calls.filter fun c => ∀ d ∈ new.calls, ¬Path.Same d.path c.path := by
  refine List.filter_congr fun c _ => ?_
  rw [Bool.eq_iff_iff]
  simp [Manifest.hasPath]

theorem mem_removedIn (old new : Manifest) (c : Call) :
    c ∈ old.removedIn new ↔ c ∈ old.calls ∧ ∀ d ∈ new.calls, ¬Path.Same d.path c.path := by
  simp [removedIn_eq]

/-- The pass of a manifest change with everything queued. -/
def changePass (g : Graph) (naming : Naming) (tree : FileTree) (config : String)
    (old new : Manifest) : Pass :=
  (new.calls ++ old.removedIn new).foldl Pass.mockedModule
    ((Pass.start naming tree g).moduleAt config)

theorem mem_changePass_pending (g : Graph) (naming : Naming) (tree : FileTree) (config : String)
    (old new : Manifest) (x : String) :
    x ∈ (changePass g naming tree config old new).pending ↔
      IsSeed g naming tree config old new x := by
  have hstart := Pass.start_indexes naming tree g
  have hnone : (Pass.start naming tree g).pending = [] := rfl
  have hconcerned (c : Call) : c ∈ new.calls ++ old.removedIn new ↔ IsConcerned old new c := by
    rw [List.mem_append, mem_removedIn, IsConcerned]
  rw [changePass, (hstart.moduleAt config).mem_foldl_mockedModule, hstart.mem_moduleAt, hnone]
  simp only [List.not_mem_nil, false_or, hconcerned]
  constructor
  · rintro (⟨hid, hat⟩ | ⟨hid, hc⟩)
    · exact ⟨hid, Or.inl hat⟩
    · exact ⟨hid, Or.inr hc⟩
  · rintro ⟨hid, hat | hc⟩
    · exact Or.inl ⟨hid, hat⟩
    · exact Or.inr ⟨hid, hc⟩

end Standin.Graph
