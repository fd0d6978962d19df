import Standin.Graph.Basic
import Standin.Mock.Match

namespace Standin.Graph

open Standin.Module Standin.Mock

/-- A graph id with its normal form and its clean id. -/
structure IndexEntry where
  id : String
  normal : String
  clean : String
deriving DecidableEq, Repr

/-- A pass over one graph that collects the ids to invalidate. -/
structure Pass where
  naming : Naming
  tree : FileTree
  index : List IndexEntry
  cache : NormalCache
  pending : List String := []

def indexIds (naming : Naming) (tree : FileTree) :
    List String → NormalCache → List IndexEntry × NormalCache
  | [], cache => ([], cache)
  | id :: more, cache =>
    let (normal, cache) := normalizeCached naming tree cache id
    let (entries, cache) := indexIds naming tree more cache
    (⟨id, normal, clean normal⟩ :: entries, cache)

namespace Pass

def start (naming : Naming) (tree : FileTree) (g : Graph) : Pass :=
  let (index, cache) := indexIds naming tree g.ids []
  { naming, tree, index, cache }

def enqueue (pending : List String) : List String → List String
  | [] => pending
  | id :: more => enqueue (if id ∈ pending then pending else pending ++ [id]) more

/-- Queues the ids of the entries a test accepts, given the normal form of a path. -/
def seed (p : Pass) (path : String) (accepts : String → IndexEntry → Bool) : Pass :=
  let (target, cache) := normalizeCached p.naming p.tree p.cache path
  let found := (p.index.filter (accepts target)).map (·.id)
  { p with cache, pending := enqueue p.pending found }

def moduleAt (p : Pass) (path : String) : Pass :=
  p.seed path fun target e => e.normal = target

/-- Queues every id of a registered module, pre-bundled copies included. -/
def mockedModule (p : Pass) (c : Call) : Pass :=
  p.seed c.path fun target e => e.normal = target || e.clean = c.cleanId

end Pass

theorem length_filter_lt {α : Type} {p q : α → Bool} {l : List α} (imp : ∀ a, q a → p a)
    {a : α} (mem : a ∈ l) (hp : p a) (hq : ¬q a) :
    (l.filter q).length < (l.filter p).length := by
  have nested : l.filter q = (l.filter p).filter q := by
    rw [List.filter_filter]
    refine List.filter_congr fun b _ => ?_
    cases hb : q b
    · rfl
    · simp [imp b hb]
  rw [nested]
  exact List.length_filter_lt_length_iff_exists.2 ⟨a, List.mem_filter.2 ⟨mem, hp⟩, hq⟩

def unvisited (g : Graph) (visited : List String) : List String :=
  g.ids.filter fun id => id ∉ visited

theorem node?_eq_none {g : Graph} {id : String} (h : id ∉ g.ids) : g.node? id = none := by
  unfold node?
  rw [List.find?_eq_none]
  intro n hn
  simpa using fun e => h (List.mem_map.2 ⟨n, hn, e⟩)

theorem importersOf_eq_nil {g : Graph} {id : String} (h : id ∉ g.ids) : g.importersOf id = [] := by
  simp [importersOf, node?_eq_none h]

/-- Works off a stack of ids, its top first. A new id is listed when the graph knows it, and its
unvisited importers go on the stack, the last of them on top. -/
def spread (g : Graph) (visited : List String) : List String → List String
  | [] => []
  | id :: stack =>
    if id ∈ visited then spread g visited stack
    else
      let reached := spread g (id :: visited)
        (((g.importersOf id).filter (· ∉ id :: visited)).reverse ++ stack)
      if id ∈ g.ids then id :: reached else reached
termination_by stack => ((unvisited g visited).length, stack.length)
decreasing_by
  · exact Prod.Lex.right _ (by simp)
  · by_cases known : id ∈ g.ids
    · refine Prod.Lex.left _ _ (length_filter_lt ?_ known ?_ ?_)
      · intro a; simp
      · simpa
      · simp
    · rw [importersOf_eq_nil known]
      have : unvisited g (id :: visited) = unvisited g visited := by
        refine List.filter_congr fun a ha => ?_
        have : a ≠ id := fun e => known (e ▸ ha)
        simp [this]
      rw [this]
      exact Prod.Lex.right _ (by simp)

/-- The ids a pass invalidates, in order. -/
def Pass.affected (p : Pass) (g : Graph) : List String := spread g [] p.pending.reverse

def Pass.apply (p : Pass) (g : Graph) : List String × Graph :=
  let affected := p.affected g
  (affected, affected.foldl invalidate g)

structure Report where
  invalidated : List String
  removed : List String
deriving DecidableEq, Repr

/-- Invalidates all that replacing `old` by `new` concerns: the configuration, every registered
module, and every module registered no longer. -/
def invalidateChanges (g : Graph) (naming : Naming) (tree : FileTree) (config : String)
    (old new : Manifest) : Report × Graph :=
  let removed := old.removedIn new
  let pass := (new.calls ++ removed).foldl Pass.mockedModule
    ((Pass.start naming tree g).moduleAt config)
  let (invalidated, g) := pass.apply g
  (⟨invalidated, removed.map (·.path)⟩, g)

end Standin.Graph
