import Mathlib.Data.List.Induction
import Mathlib.Data.List.Nodup
import Standin.Graph.Basic
import Standin.Graph.Invalidation
import Standin.Proofs.Invalidation.Spread

namespace Standin.Graph

def Operation.added : Operation → List String
  | .addModule id => [id]
  | .addImport importer imported => [importer, imported]
  | _ => []

/-- The importer that an operation records for a module. -/
def Operation.importerOf? (id : String) : Operation → Option String
  | .addImport importer imported => if imported = id then some importer else none
  | _ => none

/-- The operation at a position invalidates a module that was added before, and no clearing follows. -/
structure CountsAt (ops : List Operation) (id : String) (position : Nat) : Prop where
  invalidates : ops[position]? = some (.invalidate id)
  known : id ∈ (ops.take position).flatMap Operation.added
  kept : .clearInvalidations ∉ ops.drop position

instance (ops : List Operation) (id : String) (position : Nat) :
    Decidable (CountsAt ops id position) :=
  decidable_of_iff (ops[position]? = some (.invalidate id) ∧
      id ∈ (ops.take position).flatMap Operation.added ∧ .clearInvalidations ∉ ops.drop position)
    ⟨fun ⟨hInvalidates, hKnown, hKept⟩ => ⟨hInvalidates, hKnown, hKept⟩,
      fun ⟨hInvalidates, hKnown, hKept⟩ => ⟨hInvalidates, hKnown, hKept⟩⟩

/-- How many invalidations of a module count at the end of a history. -/
def counted (ops : List Operation) (id : String) : Nat :=
  (List.range ops.length).countP fun position => CountsAt ops id position

/-- A list with an item at its end, unless the item is in it. -/
def withLast (xs : List String) (x : String) : List String := if x ∈ xs then xs else xs ++ [x]

theorem prefix_withLast (xs : List String) (x : String) : xs <+: withLast xs x := by
  unfold withLast
  split
  · exact List.prefix_rfl
  · exact List.prefix_append xs [x]

theorem prefix_foldl_withLast (xs ys : List String) : xs <+: ys.foldl withLast xs := by
  induction ys generalizing xs with
  | nil => exact List.prefix_rfl
  | cons y more ih => exact (prefix_withLast xs y).trans (ih (withLast xs y))

theorem nodup_withLast {xs : List String} (h : xs.Nodup) (x : String) : (withLast xs x).Nodup := by
  unfold withLast
  split
  · exact h
  · next hNew => exact List.nodup_append_comm.mp (List.nodup_cons.mpr ⟨hNew, h⟩)

theorem eraseDups_concat (xs : List String) (x : String) :
    (xs ++ [x]).eraseDups = withLast xs.eraseDups x := by
  rw [List.eraseDups_append, withLast]
  by_cases hMem : x ∈ xs
  · simp [List.removeAll, hMem]
  · simp [List.removeAll, hMem, List.eraseDups_cons]

/-- Items put at the end one after the other stand in the order of their first occurrences. -/
theorem foldl_withLast (xs : List String) : xs.foldl withLast [] = xs.eraseDups := by
  induction xs using List.reverseRecOn with
  | nil => rfl
  | append_singleton xs x ih => rw [List.foldl_concat, ih, eraseDups_concat]

theorem nodup_eraseDups (xs : List String) : xs.eraseDups.Nodup := by
  induction xs using List.reverseRecOn with
  | nil => simp
  | append_singleton xs x ih =>
    rw [eraseDups_concat]
    exact nodup_withLast ih x

theorem countsAt_concat {ops : List Operation} {id : String} {position : Nat}
    (hPosition : position < ops.length) (op : Operation) :
    CountsAt (ops ++ [op]) id position ↔
      CountsAt ops id position ∧ op ≠ .clearInvalidations := by
  have hTake : (ops ++ [op]).take position = ops.take position :=
    List.take_append_of_le_length (Nat.le_of_lt hPosition)
  have hDrop : (ops ++ [op]).drop position = ops.drop position ++ [op] :=
    List.drop_append_of_le_length (Nat.le_of_lt hPosition)
  have hKept : Operation.clearInvalidations ∉ ops.drop position ++ [op] ↔
      Operation.clearInvalidations ∉ ops.drop position ∧ op ≠ .clearInvalidations := by
    simp [eq_comm]
  constructor
  · intro h
    have hBoth := hKept.mp (hDrop ▸ h.kept)
    refine ⟨⟨?_, hTake ▸ h.known, hBoth.1⟩, hBoth.2⟩
    rw [← h.invalidates, List.getElem?_append_left hPosition]
  · intro h
    refine ⟨?_, hTake.symm ▸ h.1.known, hDrop.symm ▸ hKept.mpr ⟨h.1.kept, h.2⟩⟩
    rw [List.getElem?_append_left hPosition, h.1.invalidates]

theorem countsAt_last (ops : List Operation) (id : String) (op : Operation) :
    CountsAt (ops ++ [op]) id ops.length ↔
      op = .invalidate id ∧ id ∈ ops.flatMap Operation.added := by
  have hTake : (ops ++ [op]).take ops.length = ops := List.take_left
  have hDrop : (ops ++ [op]).drop ops.length = [op] := List.drop_left
  have hAt : (ops ++ [op])[ops.length]? = some op := List.getElem?_concat_length
  constructor
  · intro h
    exact ⟨Option.some.inj (hAt.symm.trans h.invalidates), hTake ▸ h.known⟩
  · intro h
    refine ⟨by rw [hAt, h.1], hTake.symm ▸ h.2, ?_⟩
    rw [hDrop, h.1]
    simp

/-- A clearing ends every count; an invalidation of a known module adds one to its own. -/
theorem counted_concat (ops : List Operation) (id : String) (op : Operation) :
    counted (ops ++ [op]) id =
      (if op = .clearInvalidations then 0 else counted ops id) +
        if op = .invalidate id ∧ id ∈ ops.flatMap Operation.added then 1 else 0 := by
  have hLast : ([ops.length].countP fun position => CountsAt (ops ++ [op]) id position) =
      if op = .invalidate id ∧ id ∈ ops.flatMap Operation.added then 1 else 0 := by
    simp [List.countP_cons, countsAt_last]
  have hBefore : ((List.range ops.length).countP fun position =>
      CountsAt (ops ++ [op]) id position) =
        if op = .clearInvalidations then 0 else counted ops id := by
    by_cases hClear : op = .clearInvalidations
    · rw [if_pos hClear, List.countP_eq_zero]
      intro position hPosition
      rw [decide_eq_true_iff, countsAt_concat (List.mem_range.mp hPosition)]
      exact fun h => h.2 hClear
    · rw [if_neg hClear, counted]
      refine List.countP_congr fun position hPosition => ?_
      rw [decide_eq_true_iff, decide_eq_true_iff, countsAt_concat (List.mem_range.mp hPosition)]
      exact and_iff_left hClear
  rw [counted, List.length_append, List.length_singleton, List.range_succ, List.countP_append,
    hBefore, hLast]

theorem ids_addModule (g : Graph) (id : String) : (g.addModule id).ids = withLast g.ids id := by
  unfold addModule withLast
  split
  · rfl
  · simp [ids]

theorem mem_ids_addModule (g : Graph) (id : String) : id ∈ (g.addModule id).ids := by
  rw [ids_addModule, withLast]
  split
  · assumption
  · simp

theorem importersOf_addModule (g : Graph) (id other : String) :
    (g.addModule id).importersOf other = g.importersOf other := by
  unfold addModule
  split
  · rfl
  · next hNew =>
    by_cases hOther : other = id
    · have hNone : g.nodes.find? (·.id = id) = none := node?_eq_none hNew
      rw [hOther, importersOf_eq_nil hNew]
      simp [importersOf, node?, List.find?_append, hNone]
    · have hLast : [({ id } : Node)].find? (·.id = other) = none := by
        simpa using Ne.symm hOther
      simp only [importersOf, node?, List.find?_append, hLast, Option.or_none]

theorem id_addImporter (n : Node) (importer : String) : (n.addImporter importer).id = n.id := by
  unfold Node.addImporter
  split <;> rfl

theorem importers_addImporter (n : Node) (importer : String) :
    (n.addImporter importer).importers = withLast n.importers importer := by
  unfold Node.addImporter withLast
  split <;> rfl

theorem ids_addImport (g : Graph) (importer imported : String) :
    (g.addImport importer imported).ids = withLast (withLast g.ids importer) imported := by
  rw [← ids_addModule, ← ids_addModule, addImport, ids, ids, List.map_map]
  refine List.map_congr_left fun n _ => ?_
  rw [Function.comp_apply]
  split
  · exact id_addImporter n importer
  · rfl

theorem node?_addImport (g : Graph) (importer imported id : String) :
    (g.addImport importer imported).node? id =
      (((g.addModule importer).addModule imported).node? id).map fun n =>
        if n.id = imported then n.addImporter importer else n := by
  rw [node?, addImport, List.find?_map]
  congr 2
  funext n
  rw [Function.comp_apply]
  split
  · rw [id_addImporter]
  · rfl

/-- Only the module that is imported gets an importer. -/
theorem importersOf_addImport (g : Graph) (importer imported id : String) :
    (g.addImport importer imported).importersOf id =
      if id = imported then withLast (g.importersOf id) importer else g.importersOf id := by
  have hAdded : ((g.addModule importer).addModule imported).importersOf id =
      g.importersOf id := by
    rw [importersOf_addModule, importersOf_addModule]
  rw [← hAdded]
  unfold importersOf
  rw [node?_addImport]
  cases hFound : ((g.addModule importer).addModule imported).node? id with
  | none =>
    have hOther : id ≠ imported := by
      intro hSame
      have hThere := mem_ids_addModule (g.addModule importer) imported
      obtain ⟨n, hn, hId⟩ := List.mem_map.mp hThere
      have hNone := List.find?_eq_none.mp hFound n hn
      simp [hId, hSame] at hNone
    rw [if_neg hOther]
    rfl
  | some n =>
    have hId : n.id = id := by simpa using List.find?_some hFound
    simp only [Option.map_some, hId]
    split
    · exact importers_addImporter n importer
    · rfl

theorem ids_perform (g : Graph) (op : Operation) :
    (g.perform op).ids = op.added.foldl withLast g.ids := by
  cases op with
  | addModule id => exact ids_addModule g id
  | addImport importer imported => exact ids_addImport g importer imported
  | invalidate id => exact ids_invalidate g id
  | clearInvalidations => rfl

theorem importersOf_perform (g : Graph) (op : Operation) (id : String) :
    (g.perform op).importersOf id =
      (op.importerOf? id).toList.foldl withLast (g.importersOf id) := by
  cases op with
  | addModule other => exact importersOf_addModule g other id
  | addImport importer imported =>
    rw [perform, importersOf_addImport, Operation.importerOf?]
    by_cases hSame : id = imported
    · simp [hSame]
    · simp [hSame, Ne.symm hSame]
  | invalidate other => exact importersOf_invalidate g other id
  | clearInvalidations => rfl

theorem invalidations_addModule (g : Graph) (id : String) :
    (g.addModule id).invalidations = g.invalidations := by
  unfold addModule
  split <;> rfl

theorem invalidations_addImport (g : Graph) (importer imported : String) :
    (g.addImport importer imported).invalidations = g.invalidations := by
  rw [addImport, invalidations_addModule, invalidations_addModule]

theorem invalidationCount_perform (g : Graph) (op : Operation) (id : String) :
    (g.perform op).invalidationCount id =
      (if op = .clearInvalidations then 0 else g.invalidationCount id) +
        if op = .invalidate id ∧ id ∈ g.ids then 1 else 0 := by
  cases op with
  | addModule other => simp [perform, invalidationCount, invalidations_addModule]
  | addImport importer imported => simp [perform, invalidationCount, invalidations_addImport]
  | clearInvalidations => rfl
  | invalidate other =>
    rw [perform]
    by_cases hKnown : other ∈ g.ids
    · rw [invalidationCount_invalidate hKnown]
      by_cases hSame : id = other
      · simp [hSame, hKnown]
      · simp [hSame, Ne.symm hSame]
    · have hUnchanged : g.invalidate other = g := if_neg hKnown
      rw [hUnchanged]
      by_cases hSame : id = other
      · simp [hSame, hKnown]
      · simp [Ne.symm hSame]

/-- Every count is positive: a module has one only when it was invalidated. -/
def Counting (g : Graph) : Prop :=
  ∀ id, g.isInvalidated id = true ↔ 0 < g.invalidationCount id

theorem Counting.perform {g : Graph} (h : g.Counting) (op : Operation) :
    (g.perform op).Counting := by
  intro id
  cases op with
  | addModule other =>
    simpa [Graph.perform, isInvalidated, invalidationCount, invalidations_addModule] using h id
  | addImport importer imported =>
    simpa [Graph.perform, isInvalidated, invalidationCount, invalidations_addImport] using h id
  | clearInvalidations => simp [Graph.perform, clearInvalidations, isInvalidated, invalidationCount]
  | invalidate other =>
    rw [Graph.perform, invalidate]
    split
    · by_cases hSame : id = other
      · simp [isInvalidated, invalidationCount, hSame, lookup_raise_self]
      · simpa [isInvalidated, invalidationCount, lookup_raise_of_ne hSame] using h id
    · exact h id

theorem run_append (g : Graph) (ops more : List Operation) :
    g.run (ops ++ more) = (g.run ops).run more := List.foldl_append

theorem run_concat (g : Graph) (ops : List Operation) (op : Operation) :
    g.run (ops ++ [op]) = (g.run ops).perform op := List.foldl_concat _ _ _ _

theorem ids_run (g : Graph) (ops : List Operation) :
    (g.run ops).ids = (ops.flatMap Operation.added).foldl withLast g.ids := by
  induction ops using List.reverseRecOn with
  | nil => rfl
  | append_singleton ops op ih =>
    rw [run_concat, ids_perform, ih, List.flatMap_append, List.flatMap_singleton,
      List.foldl_append]

theorem importersOf_run (g : Graph) (ops : List Operation) (id : String) :
    (g.run ops).importersOf id =
      (ops.filterMap (Operation.importerOf? id)).foldl withLast (g.importersOf id) := by
  induction ops using List.reverseRecOn with
  | nil => rfl
  | append_singleton ops op ih =>
    have hLast : [op].filterMap (Operation.importerOf? id) = (op.importerOf? id).toList := by
      cases hOp : op.importerOf? id <;> simp [hOp]
    rw [run_concat, importersOf_perform, ih, List.filterMap_append, List.foldl_append, hLast]

theorem ids_run_empty (ops : List Operation) :
    (empty.run ops).ids = (ops.flatMap Operation.added).eraseDups := by
  rw [ids_run, ← foldl_withLast]
  rfl

theorem importersOf_run_empty (ops : List Operation) (id : String) :
    (empty.run ops).importersOf id =
      (ops.filterMap (Operation.importerOf? id)).eraseDups := by
  rw [importersOf_run, ← foldl_withLast]
  rfl

theorem invalidationCount_run_empty (ops : List Operation) (id : String) :
    (empty.run ops).invalidationCount id = counted ops id := by
  induction ops using List.reverseRecOn with
  | nil => rfl
  | append_singleton ops op ih =>
    rw [run_concat, invalidationCount_perform, counted_concat, ih, ids_run_empty]
    simp only [List.mem_eraseDups]

theorem counting_run_empty (ops : List Operation) : (empty.run ops).Counting := by
  induction ops using List.reverseRecOn with
  | nil =>
    intro id
    simp [run, empty, isInvalidated, invalidationCount]
  | append_singleton ops op ih =>
    rw [run_concat]
    exact ih.perform op

/-- Modules and importers of a graph stand in a later one where they stood. -/
structure Grows (g later : Graph) : Prop where
  ids : g.ids <+: later.ids
  importers : ∀ id, g.importersOf id <+: later.importersOf id

theorem grows_run (g : Graph) (ops : List Operation) : Grows g (g.run ops) where
  ids := by
    rw [ids_run]
    exact prefix_foldl_withLast _ _
  importers id := by
    rw [importersOf_run]
    exact prefix_foldl_withLast _ _

theorem mem_importersOf_run_iff (ops : List Operation) (id importer : String) :
    importer ∈ (empty.run ops).importersOf id ↔ .addImport importer id ∈ ops := by
  rw [importersOf_run_empty, List.mem_eraseDups, List.mem_filterMap]
  constructor
  · intro h
    obtain ⟨op, hOp, hSome⟩ := h
    unfold Operation.importerOf? at hSome
    split at hSome
    · split at hSome
      · next hSame =>
        rw [← Option.some.inj hSome, ← hSame]
        exact hOp
      · cases hSome
    · cases hSome
  · intro h
    exact ⟨_, h, if_pos rfl⟩

theorem known_of_counted {ops : List Operation} {id : String} (h : 0 < counted ops id) :
    id ∈ ops.flatMap Operation.added := by
  obtain ⟨position, -, hCounts⟩ := List.countP_pos_iff.mp h
  obtain ⟨op, hOp, hAdded⟩ := List.mem_flatMap.mp (of_decide_eq_true hCounts).known
  exact List.mem_flatMap.mpr ⟨op, List.mem_of_mem_take hOp, hAdded⟩

/-- A graph is told by its operations: it has the modules they added and the importers they
recorded, each once and in the order of the first time, never loses one of them, and knows every
importer; it counts for each module the invalidations since the last clearing that came when the
module was there, and a module is invalidated exactly if one counts. -/
theorem run_tells_history (ops : List Operation) :
    (∀ id, ∀ importer ∈ (empty.run ops).importersOf id, importer ∈ (empty.run ops).ids) ∧
    (empty.run ops).ids.Nodup ∧ (∀ id, ((empty.run ops).importersOf id).Nodup) ∧
    (empty.run ops).ids = (ops.flatMap Operation.added).eraseDups ∧
    (∀ id, (empty.run ops).importersOf id =
      (ops.filterMap (Operation.importerOf? id)).eraseDups) ∧
    (∀ more, Grows (empty.run ops) (empty.run (ops ++ more))) ∧
    (∀ a b, b ∈ (empty.run ops).importersOf a ↔ .addImport b a ∈ ops) ∧
    (∀ id, (empty.run ops).isInvalidated id = true → id ∈ (empty.run ops).ids) ∧
    ∀ id, (empty.run ops).invalidationCount id = counted ops id ∧
      ((empty.run ops).isInvalidated id = true ↔ 0 < (empty.run ops).invalidationCount id) := by
  have hIds := ids_run_empty ops
  have hImporters := importersOf_run_empty ops
  have hCounting := counting_run_empty ops
  refine ⟨?_, ?_, ?_, hIds, hImporters, ?_, ?_, ?_, ?_⟩
  · intro id importer hMem
    have hMade := (mem_importersOf_run_iff ops id importer).mp hMem
    rw [hIds, List.mem_eraseDups, List.mem_flatMap]
    exact ⟨_, hMade, by simp [Operation.added]⟩
  · rw [hIds]
    exact nodup_eraseDups _
  · intro id
    rw [hImporters]
    exact nodup_eraseDups _
  · intro more
    rw [run_append]
    exact grows_run _ more
  · intro a b
    exact mem_importersOf_run_iff ops a b
  · intro id hInvalidated
    have hCounted := (hCounting id).mp hInvalidated
    rw [invalidationCount_run_empty] at hCounted
    rw [hIds, List.mem_eraseDups]
    exact known_of_counted hCounted
  · intro id
    exact ⟨invalidationCount_run_empty ops id, hCounting id⟩

end Standin.Graph
