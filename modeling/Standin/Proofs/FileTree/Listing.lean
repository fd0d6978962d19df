import Standin.Proofs.FileTree.Walks

namespace Standin.FileTree

/-- The same tree, where the directories list their entries in another order. -/
inductive Relisted : FileTree → FileTree → Prop
  | file (content : List UInt8) : Relisted (.file content) (.file content)
  | link (target : String) : Relisted (.link target) (.link target)
  | dir (entries listed : List (String × FileTree))
      (names : (entries.map Prod.fst).Perm (listed.map Prod.fst))
      (nodes : ∀ name node other, entryOf name entries = some node →
        entryOf name listed = some other → Relisted node other) :
      Relisted (.dir entries) (.dir listed)

theorem isSome_entryOf {name : String} {entries : List (String × FileTree)} :
    (entryOf name entries).isSome = true ↔ name ∈ entries.map Prod.fst := by
  induction entries with
  | nil => simp [entryOf]
  | cons entry more ih =>
    obtain ⟨first, node⟩ := entry
    by_cases hName : first = name
    · simp [entryOf, hName]
    · have hOther : name ≠ first := Ne.symm hName
      rw [entryOf, if_neg hName, ih]
      simp [hOther]

theorem entryOf_of_mem {name : String} {node : FileTree} {entries : List (String × FileTree)}
    (hDistinct : (entries.map Prod.fst).Nodup) (h : (name, node) ∈ entries) :
    entryOf name entries = some node := by
  induction entries with
  | nil => cases h
  | cons entry more ih =>
    obtain ⟨first, tree⟩ := entry
    obtain ⟨hFirst, hMore⟩ := List.nodup_cons.mp hDistinct
    rcases List.mem_cons.mp h with hHead | hTail
    · cases hHead
      exact if_pos rfl
    · have hOther : first ≠ name := by
        rintro rfl
        exact hFirst (List.mem_map.mpr ⟨_, hTail, rfl⟩)
      rw [entryOf, if_neg hOther]
      exact ih hMore hTail

mutual

theorem Relisted.refl : (tree : FileTree) → Relisted tree tree
  | .file content => .file content
  | .link target => .link target
  | .dir entries => .dir entries entries (.refl _) fun name node other hNode hOther => by
      rw [hNode] at hOther
      exact Option.some.inj hOther ▸ reflEntries entries name node hNode

theorem Relisted.reflEntries : (entries : List (String × FileTree)) → ∀ name node,
    entryOf name entries = some node → Relisted node node
  | [], _, _, h => nomatch h
  | (first, tree) :: more, name, node, h => by
    by_cases hName : first = name
    · rw [entryOf, if_pos hName] at h
      exact Option.some.inj h ▸ Relisted.refl tree
    · rw [entryOf, if_neg hName] at h
      exact reflEntries more name node h

end

/-- A directory whose entries are put in another order. -/
theorem Relisted.of_perm {entries listed : List (String × FileTree)}
    (hDistinct : (entries.map Prod.fst).Nodup) (h : entries.Perm listed) :
    Relisted (.dir entries) (.dir listed) := by
  have hListed : (listed.map Prod.fst).Nodup := (h.map Prod.fst).nodup_iff.mp hDistinct
  refine .dir entries listed (h.map Prod.fst) fun name node other hNode hOther => ?_
  have hSame := entryOf_of_mem hListed (h.subset (mem_of_entryOf hNode))
  rw [hOther] at hSame
  exact Option.some.inj hSame ▸ .refl other

/-- An entry under a name is found in both directories or in neither. -/
theorem Relisted.entryOf {entries listed : List (String × FileTree)}
    (h : Relisted (.dir entries) (.dir listed)) (name : String) :
    Option.Rel Relisted (FileTree.entryOf name entries) (FileTree.entryOf name listed) := by
  cases h with
  | dir entries listed names nodes =>
    have hBoth : (FileTree.entryOf name entries).isSome = true ↔
        (FileTree.entryOf name listed).isSome = true := by
      rw [isSome_entryOf, isSome_entryOf, names.mem_iff]
    cases hNode : FileTree.entryOf name entries with
    | none =>
      have hNone : FileTree.entryOf name listed = none := by simpa [hNode] using hBoth
      rw [hNone]
      exact .none
    | some node =>
      obtain ⟨other, hOther⟩ := Option.isSome_iff_exists.mp (hBoth.mp (by rw [hNode]; rfl))
      rw [hOther]
      exact .some (nodes name node other hNode hOther)

theorem Relisted.at? {tree listed : FileTree} (h : Relisted tree listed) (names : List String) :
    Option.Rel Relisted (tree.at? names) (listed.at? names) := by
  induction names generalizing tree listed with
  | nil => exact .some h
  | cons name more ih =>
    cases h with
    | file content => exact .none
    | link target => exact .none
    | dir entries others hNames hNodes =>
      have hEntry := (Relisted.dir entries others hNames hNodes).entryOf name
      rw [FileTree.at?, FileTree.at?]
      generalize FileTree.entryOf name entries = found, FileTree.entryOf name others = other
        at hEntry
      cases hEntry with
      | none => exact .none
      | some hNode => exact ih hNode

inductive StepsAlike : Step → Step → Prop
  | fails (failure : Failure) : StepsAlike (.fails failure) (.fails failure)
  | arrives (names : List String) {node other : FileTree} (h : Relisted node other) :
    StepsAlike (.arrives ⟨names, node⟩) (.arrives ⟨names, other⟩)
  | follows (names : List String) (target : String) {node other : FileTree}
    (h : Relisted node other) :
    StepsAlike (.follows ⟨names, node⟩ target) (.follows ⟨names, other⟩ target)

inductive LeadsAlike : Except Failure Place → Except Failure Place → Prop
  | fails (failure : Failure) : LeadsAlike (.error failure) (.error failure)
  | arrives (names : List String) {node other : FileTree} (h : Relisted node other) :
    LeadsAlike (.ok ⟨names, node⟩) (.ok ⟨names, other⟩)

section Walk

variable {root listed : FileTree} (hRoot : Relisted root listed)
include hRoot

theorem stepsAlike_of_relisted (names : List String) {node other : FileTree}
    (h : Relisted node other) (piece : String) :
    StepsAlike (step root ⟨names, node⟩ piece) (step listed ⟨names, other⟩ piece) := by
  unfold step
  cases h with
  | file content => exact .fails _
  | link target => exact .fails _
  | dir entries others hNames hNodes =>
    have hDir := Relisted.dir entries others hNames hNodes
    dsimp only
    by_cases hStay : piece = "" ∨ piece = "."
    · rw [if_pos hStay, if_pos hStay]
      exact .arrives names hDir
    rw [if_neg hStay, if_neg hStay]
    by_cases hUp : piece = ".."
    · rw [if_pos hUp, if_pos hUp]
      have hAbove := hRoot.at? names.dropLast
      generalize root.at? names.dropLast = above, listed.at? names.dropLast = below at hAbove
      cases hAbove with
      | none => exact .fails _
      | some h => exact .arrives _ h
    rw [if_neg hUp, if_neg hUp]
    have hEntry := hDir.entryOf piece
    generalize entryOf piece entries = found, entryOf piece others = other at hEntry
    cases hEntry with
    | none => exact .fails _
    | some h =>
      cases h with
      | file content => exact .arrives _ (.file content)
      | dir inner listed hNames hNodes => exact .arrives _ (.dir inner listed hNames hNodes)
      | link target =>
        dsimp only
        by_cases hEmpty : target = ""
        · rw [if_pos hEmpty, if_pos hEmpty]
          exact .fails _
        rw [if_neg hEmpty, if_neg hEmpty]
        by_cases hAbsolute : Path.isAbsolute target = true
        · rw [if_pos hAbsolute, if_pos hAbsolute]
          exact .follows [] target hRoot
        · rw [if_neg hAbsolute, if_neg hAbsolute]
          exact .follows names target hDir

theorem leadsAlike_walk (links : Nat) (pieces names : List String) {node other : FileTree}
    (h : Relisted node other) :
    LeadsAlike (walk root links ⟨names, node⟩ pieces)
      (walk listed links ⟨names, other⟩ pieces) := by
  -- a link restarts the walk over other pieces, with one link less to follow
  induction links using Nat.strongRecOn generalizing names node other pieces with
  | ind links ihLinks =>
    induction pieces generalizing names node other with
    | nil =>
      rw [walk_nil, walk_nil]
      exact .arrives names h
    | cons piece more ih =>
      have hStep := stepsAlike_of_relisted hRoot names h piece
      rw [walk_cons, walk_cons]
      generalize step root ⟨names, node⟩ piece = first, step listed ⟨names, other⟩ piece = second
        at hStep
      cases hStep with
      | fails failure => exact .fails failure
      | arrives names hThere => exact ih names hThere
      | follows names target hStart =>
        cases links with
        | zero => exact .fails _
        | succ left => exact ihLinks left (Nat.lt_succ_self left) _ names hStart

theorem leadsAlike_locate (path : String) :
    LeadsAlike (root.locate path) (listed.locate path) := by
  unfold locate
  split
  · exact leadsAlike_walk hRoot linkLimit (pieces path) [] hRoot
  · exact .fails _

theorem isFile_of_relisted (path : String) : listed.isFile path = root.isFile path := by
  have hLead := leadsAlike_locate hRoot path
  unfold isFile
  generalize root.locate path = first, listed.locate path = second at hLead
  cases hLead with
  | fails failure => rfl
  | arrives names h => cases h <;> rfl

theorem isDirectory_of_relisted (path : String) :
    listed.isDirectory path = root.isDirectory path := by
  have hLead := leadsAlike_locate hRoot path
  unfold isDirectory
  generalize root.locate path = first, listed.locate path = second at hLead
  cases hLead with
  | fails failure => rfl
  | arrives names h => cases h <;> rfl

/-- A directory holds the same names in both trees. -/
theorem namesIn_of_relisted (path : String) : (root.namesIn path).Perm (listed.namesIn path) := by
  have hLead := leadsAlike_locate hRoot path
  unfold namesIn
  generalize root.locate path = first, listed.locate path = second at hLead
  cases hLead with
  | fails failure => exact .refl _
  | arrives names h =>
    cases h with
    | file content => exact .refl _
    | link target => exact .refl _
    | dir entries others hNames _ => exact hNames

end Walk

end Standin.FileTree
