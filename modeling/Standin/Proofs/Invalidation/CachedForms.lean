import Mathlib.Data.List.Basic
import Mathlib.Data.List.Induction
import Standin.Proofs.Interception.Decorations

namespace Standin.Module

variable (naming : Naming) (tree : FileTree)

/-- The normal forms of ids asked for one after the other. -/
def normalizeEach (cache : NormalCache) : List String → List String
  | [] => []
  | id :: more =>
    let (normal, cache) := normalizeCached naming tree cache id
    normal :: normalizeEach cache more

/-- The cache holds what was asked for: the normal form of each stripped text, and each text once. -/
structure NormalCache.Holds (asked : List String) (cache : NormalCache) : Prop where
  entries : ∀ e ∈ cache, e.2 = resolved naming tree e.1
  keys : ∀ stripped, stripped ∈ cache.map Prod.fst ↔ stripped ∈ asked.map strip
  nodup : (cache.map Prod.fst).Nodup

variable {naming tree} {asked : List String} {cache : NormalCache}

theorem normalizeCached_snd (cache : NormalCache) (id : String) :
    (normalizeCached naming tree cache id).2 =
      if strip id ∈ cache.map Prod.fst then cache
      else (strip id, resolved naming tree (strip id)) :: cache := by
  have hFound : cache.lookup (strip id) = none ↔ strip id ∉ cache.map Prod.fst := by
    rw [List.lookup_eq_none_iff]
    constructor
    · intro hNone hMem
      obtain ⟨e, he, hKey⟩ := List.mem_map.mp hMem
      simpa [hKey] using hNone e he
    · intro hNew e he
      simpa using fun hKey => hNew (List.mem_map.mpr ⟨e, he, Eq.symm hKey⟩)
  unfold normalizeCached
  cases hLookup : cache.lookup (strip id) with
  | none => rw [if_neg (hFound.mp hLookup)]
  | some normal =>
    have hMem : strip id ∈ cache.map Prod.fst := by
      by_contra hNone
      rw [hFound.mpr hNone] at hLookup
      cases hLookup
    rw [if_pos hMem]

theorem NormalCache.holds_nil : NormalCache.Holds naming tree [] [] where
  entries e he := by simp at he
  keys stripped := by simp
  nodup := List.nodup_nil

theorem NormalCache.Holds.ask (h : cache.Holds naming tree asked) (id : String) :
    (normalizeCached naming tree cache id).2.Holds naming tree (asked ++ [id]) := by
  rw [normalizeCached_snd]
  by_cases hAsked : strip id ∈ cache.map Prod.fst
  · rw [if_pos hAsked]
    refine ⟨h.entries, ?_, h.nodup⟩
    intro stripped
    rw [h.keys, List.map_append, List.mem_append, List.map_singleton, List.mem_singleton]
    refine ⟨Or.inl, ?_⟩
    intro hMem
    rcases hMem with hMem | hLast
    · exact hMem
    · rw [hLast]
      exact (h.keys _).mp hAsked
  · rw [if_neg hAsked]
    refine ⟨?_, ?_, List.nodup_cons.mpr ⟨hAsked, h.nodup⟩⟩
    · intro e he
      rcases List.mem_cons.mp he with rfl | he
      · rfl
      · exact h.entries e he
    · intro stripped
      rw [List.map_cons, List.mem_cons, h.keys, List.map_append, List.mem_append,
        List.map_singleton, List.mem_singleton, or_comm]

theorem NormalCache.Holds.sound (h : cache.Holds naming tree asked) : cache.Sound naming tree := by
  intro stripped normal hLookup
  obtain ⟨front, back, hCache, -⟩ := List.lookup_eq_some_iff.mp hLookup
  exact h.entries (stripped, normal) (by simp [hCache])

theorem normalizeEach_eq (h : cache.Sound naming tree) (ids : List String) :
    normalizeEach naming tree cache ids = ids.map (normalize naming tree) := by
  induction ids generalizing cache with
  | nil => rfl
  | cons id more ih =>
    rw [normalizeEach, List.map_cons, ← normalizeCached_normal h id,
      ← ih (normalizeCached_sound h id)]

end Standin.Module

namespace Standin.Graph

open Standin.Module Standin.Mock

variable {naming : Naming} {tree : FileTree} {g : Graph} {asked : List String}

theorem holds_indexIds {cache : NormalCache} (h : cache.Holds naming tree asked)
    (ids : List String) :
    (indexIds naming tree ids cache).2.Holds naming tree (asked ++ ids) := by
  induction ids generalizing asked cache with
  | nil =>
    rw [List.append_nil]
    exact h
  | cons id more ih =>
    have hMore := ih (h.ask id)
    rw [List.append_assoc, List.singleton_append] at hMore
    exact hMore

def Seeding.path : Seeding → String
  | .file path => path
  | .registered c => c.path

/-- The modules that a seeding queues, told from their normal forms without a cache. -/
def Seeding.modules (naming : Naming) (tree : FileTree) (g : Graph) (s : Seeding) : List String :=
  g.ids.filter fun id => match s with
    | .file path => normalize naming tree id = normalize naming tree path
    | .registered c => normalize naming tree id = normalize naming tree c.path ||
        clean (normalize naming tree id) = c.cleanId

namespace Pass

theorem cache_take (p : Pass) (s : Seeding) :
    (p.take s).cache = (normalizeCached p.naming p.tree p.cache s.path).2 := by
  cases s <;> rfl

theorem Indexes.take {p : Pass} (h : p.Indexes naming tree g) (s : Seeding) :
    (p.take s).Indexes naming tree g := by
  cases s with
  | file path => exact h.moduleAt path
  | registered c => exact h.mockedModule c

theorem Indexes.pending_seed {p : Pass} (h : p.Indexes naming tree g) (path : String)
    (accepts : String → IndexEntry → Bool) : (p.seed path accepts).pending =
      enqueue p.pending (g.ids.filter fun id =>
        accepts (normalize naming tree path) (entryOf naming tree id)) := by
  obtain ⟨rfl, rfl, hIndex, hSound⟩ := h
  have hFound : (p.index.filter (accepts (normalize p.naming p.tree path))).map (·.id) =
      g.ids.filter fun id =>
        accepts (normalize p.naming p.tree path) (entryOf p.naming p.tree id) := by
    rw [hIndex, List.filter_map, List.map_map]
    exact List.map_id _
  rw [← hFound, ← normalizeCached_normal hSound]
  rfl

theorem Indexes.pending_take {p : Pass} (h : p.Indexes naming tree g) (s : Seeding) :
    (p.take s).pending = enqueue p.pending (s.modules naming tree g) := by
  cases s with
  | file path => exact h.pending_seed path fun target e => e.normal = target
  | registered c =>
    exact h.pending_seed c.path fun target e => e.normal = target || e.clean = c.cleanId

/-- A pass behind some seedings: its index and its cache are those of the normal forms themselves,
and it has queued what a pass without a cache would. -/
structure Plain (naming : Naming) (tree : FileTree) (g : Graph) (seeds : List Seeding)
    (p : Pass) : Prop where
  indexes : p.Indexes naming tree g
  cache : p.cache.Holds naming tree (g.ids ++ seeds.map Seeding.path)
  pending : p.pending =
    seeds.foldl (fun pending s => enqueue pending (s.modules naming tree g)) []

theorem plain_start (naming : Naming) (tree : FileTree) (g : Graph) :
    (start naming tree g).Plain naming tree g [] where
  indexes := start_indexes naming tree g
  cache := by
    rw [List.map_nil, List.append_nil]
    exact holds_indexIds NormalCache.holds_nil g.ids
  pending := rfl

theorem Plain.take {p : Pass} {seeds : List Seeding} (h : p.Plain naming tree g seeds)
    (s : Seeding) : (p.take s).Plain naming tree g (seeds ++ [s]) where
  indexes := h.indexes.take s
  cache := by
    rw [cache_take, h.indexes.naming_eq, h.indexes.tree_eq, List.map_append, ← List.append_assoc]
    exact h.cache.ask s.path
  pending := by
    rw [h.indexes.pending_take, h.pending, List.foldl_concat]

theorem plain_run (naming : Naming) (tree : FileTree) (g : Graph) (seeds : List Seeding) :
    (seeds.foldl Pass.take (start naming tree g)).Plain naming tree g seeds := by
  induction seeds using List.reverseRecOn with
  | nil => exact plain_start naming tree g
  | append_singleton seeds s ih =>
    rw [List.foldl_concat]
    exact ih.take s

end Pass

/-- Whatever a pass is told to queue, its cache has one entry for each text that an id or a path
asked for strips to, and the entry is the resolved form of that text; every normal form asked of it,
in any order, is the one without a cache; its index lists the ids of the graph with their normal
forms and clean ids; and it queues what the normal forms without a cache say. -/
theorem cached_forms_plain (naming : Naming) (tree : FileTree) (g : Graph) (seeds : List Seeding) :
    let p := seeds.foldl Pass.take (Pass.start naming tree g)
    (∀ e ∈ p.cache, (∃ id, strip id = e.1) ∧ e.2 = resolved naming tree e.1) ∧
    (∀ stripped, stripped ∈ p.cache.map Prod.fst ↔
      stripped ∈ (g.ids ++ seeds.map Seeding.path).map strip) ∧
    (p.cache.map Prod.fst).Nodup ∧
    (∀ ids, normalizeEach naming tree p.cache ids = ids.map (normalize naming tree)) ∧
    p.index = g.ids.map (fun id =>
      ⟨id, normalize naming tree id, clean (normalize naming tree id)⟩) ∧
    p.pending = seeds.foldl (fun pending s =>
      Pass.enqueue pending (s.modules naming tree g)) [] := by
  intro p
  have hPlain : p.Plain naming tree g seeds := Pass.plain_run naming tree g seeds
  refine ⟨?_, hPlain.cache.keys, hPlain.cache.nodup, normalizeEach_eq hPlain.cache.sound,
    hPlain.indexes.index_eq, hPlain.pending⟩
  intro e he
  obtain ⟨id, -, hId⟩ := List.mem_map.mp
    ((hPlain.cache.keys e.1).mp (List.mem_map_of_mem he))
  exact ⟨⟨id, hId⟩, hPlain.cache.entries e he⟩

end Standin.Graph
