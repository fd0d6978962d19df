import Standin.Proofs.Path.Components

namespace Standin.FileTree

open Standin.Path

def Separate (pieces : List String) : Prop := ∀ piece ∈ pieces, '/' ∉ piece.toList

theorem separate_pieces (path : String) : Separate (pieces path) := by
  intro piece hPiece
  obtain ⟨chars, hChars, rfl⟩ := List.mem_map.mp hPiece
  rw [String.toList_ofList]
  exact Text.notMem_of_mem_split hChars

theorem Separate.append {pieces more : List String} (h : Separate pieces) (k : Separate more) :
    Separate (pieces ++ more) := by
  intro piece hPiece
  rcases List.mem_append.mp hPiece with hPiece | hPiece
  · exact h piece hPiece
  · exact k piece hPiece

/-- What one piece of a path leads to. -/
inductive Step
  | fails (failure : Failure)
  | arrives (there : Place)
  | follows (start : Place) (target : String)

def step (root : FileTree) (here : Place) (piece : String) : Step :=
  match here.node with
  | .dir entries =>
    if piece = "" ∨ piece = "." then .arrives here
    else if piece = ".." then
      match root.at? here.names.dropLast with
      | some node => .arrives ⟨here.names.dropLast, node⟩
      | none => .fails .notFound
    else match entryOf piece entries with
      | none => .fails .notFound
      | some (.link target) =>
        if target = "" then .fails .notFound
        else .follows (if isAbsolute target then ⟨[], root⟩ else here) target
      | some node => .arrives ⟨here.names ++ [piece], node⟩
  | _ => .fails .notDirectory

/-- A walk takes one step after the other. -/
theorem walkWith_cons (root : FileTree) (follow : Place → List String → Except Failure Place)
    (here : Place) (piece : String) (more : List String) :
    walkWith root follow here (piece :: more) = match step root here piece with
      | .fails failure => .error failure
      | .arrives there => walkWith root follow there more
      | .follows start target => follow start (pieces target ++ more) := by
  rw [walkWith, step]
  cases here.node with
  | file content => rfl
  | link target => rfl
  | dir entries =>
    dsimp only
    by_cases hStay : piece = "" ∨ piece = "."
    · rw [if_pos hStay, if_pos hStay]
    rw [if_neg hStay, if_neg hStay]
    by_cases hUp : piece = ".."
    · rw [if_pos hUp, if_pos hUp]
      cases root.at? here.names.dropLast <;> rfl
    rw [if_neg hUp, if_neg hUp]
    rcases entryOf piece entries with _ | _ | target | _
    · rfl
    · rfl
    · dsimp only
      split
      · rfl
      · dsimp only
        split <;> rfl
    · rfl

theorem walk_nil (root : FileTree) (links : Nat) (here : Place) :
    walk root links here [] = .ok here := by
  cases links <;> rfl

theorem walk_cons (root : FileTree) (links : Nat) (here : Place) (piece : String)
    (more : List String) :
    walk root links here (piece :: more) = match step root here piece with
      | .fails failure => .error failure
      | .arrives there => walk root links there more
      | .follows start target => match links with
        | 0 => .error .tooManyLinks
        | left + 1 => walk root left start (pieces target ++ more) := by
  cases links with
  | zero => exact walkWith_cons root _ here piece more
  | succ left => exact walkWith_cons root _ here piece more

theorem step_stay {root : FileTree} {here : Place} {entries : List (String × FileTree)}
    (hDir : here.node = .dir entries) {piece : String} (h : piece = "" ∨ piece = ".") :
    step root here piece = .arrives here := by
  rw [step, hDir]
  exact if_pos h

theorem step_entry {root node : FileTree} {here : Place} {entries : List (String × FileTree)}
    (hDir : here.node = .dir entries) {piece : String} (hStay : ¬(piece = "" ∨ piece = "."))
    (hUp : piece ≠ "..") (hEntry : entryOf piece entries = some node)
    (hLink : ∀ target, node ≠ .link target) :
    step root here piece = .arrives ⟨here.names ++ [piece], node⟩ := by
  rw [step, hDir]
  dsimp only
  rw [if_neg hStay, if_neg hUp, hEntry]
  cases node with
  | link target => exact absurd rfl (hLink target)
  | file content => rfl
  | dir listed => rfl

theorem isDir_of_step {root : FileTree} {here : Place} {piece : String}
    (h : ∀ failure, step root here piece ≠ .fails failure) :
    ∃ entries, here.node = .dir entries := by
  cases hNode : here.node with
  | dir entries => exact ⟨entries, rfl⟩
  | file content => exact absurd (by rw [step, hNode]) (h .notDirectory)
  | link target => exact absurd (by rw [step, hNode]) (h .notDirectory)

/-- Only from a directory does a walk go on. -/
theorem isDir_of_walk_cons {root : FileTree} {links : Nat} {here place : Place} {piece : String}
    {more : List String} (h : walk root links here (piece :: more) = .ok place) :
    ∃ entries, here.node = .dir entries := by
  have hStep : ∀ failure, step root here piece ≠ .fails failure := by
    intro failure hFails
    rw [walk_cons, hFails] at h
    cases h
  exact isDir_of_step hStep

/-- A property of the root that the steps of a walk keep: to the directory above, and to an entry
that is no link. -/
structure Kept (root : FileTree) (P : Place → Prop) : Prop where
  atRoot : P ⟨[], root⟩
  above : ∀ here node, P here → root.at? here.names.dropLast = some node →
    P ⟨here.names.dropLast, node⟩
  below : ∀ here entries name node, P here → here.node = .dir entries → IsName name →
    entryOf name entries = some node → (∀ target, node ≠ .link target) →
    P ⟨here.names ++ [name], node⟩

section Kept

variable {root : FileTree} {P : Place → Prop}

theorem Kept.step (h : Kept root P) {here there : Place} {piece : String} (hHere : P here)
    (hSlash : '/' ∉ piece.toList) (hStep : step root here piece = .arrives there) : P there := by
  unfold FileTree.step at hStep
  split at hStep
  · next entries hDir =>
    by_cases hStay : piece = "" ∨ piece = "."
    · rw [if_pos hStay] at hStep
      exact Step.arrives.inj hStep ▸ hHere
    rw [if_neg hStay] at hStep
    obtain ⟨hEmpty, hDot⟩ := not_or.mp hStay
    by_cases hUp : piece = ".."
    · rw [if_pos hUp] at hStep
      split at hStep
      · next node hAbove => exact Step.arrives.inj hStep ▸ h.above here node hHere hAbove
      · cases hStep
    rw [if_neg hUp] at hStep
    split at hStep
    · cases hStep
    · split at hStep <;> cases hStep
    · next node hLink hEntry =>
      have hName : IsName piece := ⟨hEmpty, hDot, hUp, hSlash⟩
      exact Step.arrives.inj hStep ▸ h.below here entries piece node hHere hDir hName hEntry hLink
  · cases hStep

/-- A link is followed from the root or from where it stands. -/
theorem Kept.follows (h : Kept root P) {here start : Place} {piece target : String} (hHere : P here)
    (hStep : FileTree.step root here piece = .follows start target) : P start := by
  have hStart : start = ⟨[], root⟩ ∨ start = here := by
    unfold FileTree.step at hStep
    split at hStep
    · split_ifs at hStep
      · split at hStep <;> cases hStep
      · split at hStep
        · cases hStep
        · next written _ =>
          split_ifs at hStep
          · exact Or.inl (Step.follows.inj hStep).1.symm
          · exact Or.inr (Step.follows.inj hStep).1.symm
        · cases hStep
    · cases hStep
  rcases hStart with rfl | rfl
  · exact h.atRoot
  · exact hHere

theorem Kept.walk (h : Kept root P) (links : Nat) {pieces : List String} (hPieces : Separate pieces)
    {here place : Place} (hHere : P here) (hWalk : walk root links here pieces = .ok place) :
    P place := by
  -- a link restarts the walk over other pieces, with one link less to follow
  induction links using Nat.strongRecOn generalizing here pieces with
  | ind links ihLinks =>
    induction pieces generalizing here with
    | nil =>
      rw [walk_nil] at hWalk
      exact Except.ok.inj hWalk ▸ hHere
    | cons piece more ih =>
      have hMore : Separate more := fun other h => hPieces other (List.mem_cons_of_mem _ h)
      rw [walk_cons] at hWalk
      split at hWalk
      · cases hWalk
      · next there hStep =>
        exact ih hMore (h.step hHere (hPieces piece List.mem_cons_self) hStep) hWalk
      · next start target hStep =>
        cases links with
        | zero => cases hWalk
        | succ left =>
          exact ihLinks left (Nat.lt_succ_self left) ((separate_pieces target).append hMore)
            (h.follows hHere hStep) hWalk

theorem Kept.locate (h : Kept root P) {path : String} {place : Place}
    (hPath : root.locate path = .ok place) : P place := by
  unfold FileTree.locate at hPath
  split at hPath
  · exact h.walk linkLimit (separate_pieces path) h.atRoot hPath
  · cases hPath

end Kept

theorem isAbsolute_of_locate {tree : FileTree} {path : String} {place : Place}
    (h : tree.locate path = .ok place) : isAbsolute path = true := by
  unfold locate at h
  by_cases hAbsolute : isAbsolute path = true
  · exact hAbsolute
  · rw [if_neg hAbsolute] at h
    cases h

theorem realPath?_eq_some_iff {tree : FileTree} {path real : String} :
    tree.realPath? path = some real ↔
      ∃ place, tree.locate path = .ok place ∧ pathOf place.names = real := by
  unfold realPath?
  cases tree.locate path with
  | error failure => simp
  | ok place => simp

/-- Only absolute paths lead anywhere, and so are real paths. -/
theorem isAbsolute_of_realPath? {tree : FileTree} {path real : String}
    (h : tree.realPath? path = some real) :
    isAbsolute path = true ∧ isAbsolute real = true := by
  obtain ⟨place, hPlace, hReal⟩ := realPath?_eq_some_iff.mp h
  rw [← hReal]
  exact ⟨isAbsolute_of_locate hPlace, isAbsolute_pathOf place.names⟩

theorem exists_place_of_isFile {tree : FileTree} {path : String} (h : tree.isFile path = true) :
    ∃ place, tree.locate path = .ok place := by
  unfold isFile at h
  split at h
  · next place content hPlace => exact ⟨_, hPlace⟩
  · cases h

/-- The names that lead to a place are names of entries. -/
theorem isName_of_locate {tree : FileTree} {path : String} {place : Place}
    (h : tree.locate path = .ok place) : ∀ name ∈ place.names, IsName name := by
  have hKept : Kept tree fun place => ∀ name ∈ place.names, IsName name := by
    refine ⟨by simp, ?_, ?_⟩
    · intro here node hHere _ name hName
      exact hHere name ((List.dropLast_sublist _).subset hName)
    · intro here entries name node hHere _ hIsName _ _ other hOther
      rcases List.mem_append.mp hOther with hOther | hOther
      · exact hHere other hOther
      · exact List.mem_singleton.mp hOther ▸ hIsName
  exact hKept.locate h

theorem at?_append (tree : FileTree) (names more : List String) :
    tree.at? (names ++ more) = (tree.at? names).bind fun node => node.at? more := by
  induction names generalizing tree with
  | nil => simp [at?]
  | cons name rest ih =>
    cases tree with
    | dir entries =>
      rw [List.cons_append, at?, at?]
      cases entryOf name entries with
      | none => rfl
      | some node => exact ih node
    | file content => simp [at?]
    | link target => simp [at?]

/-- Names lead on from a directory only. -/
theorem isDir_of_at?_cons {tree node : FileTree} {name : String} {more : List String}
    (h : tree.at? (name :: more) = some node) :
    ∃ entries next, tree = .dir entries ∧ entryOf name entries = some next ∧
      next.at? more = some node := by
  cases tree with
  | dir entries =>
    rw [at?] at h
    obtain ⟨next, hNext, hMore⟩ := Option.bind_eq_some_iff.mp h
    exact ⟨entries, next, rfl, hNext, hMore⟩
  | file content => simp [at?] at h
  | link target => simp [at?] at h

/-- The node of a place is what its names lead to; only the root itself could be a link. -/
theorem kept_at? (tree : FileTree) : Kept tree fun place =>
    tree.at? place.names = some place.node ∧
      (place.names ≠ [] → ∀ target, place.node ≠ .link target) := by
  refine ⟨⟨by simp [at?], fun hNil => absurd rfl hNil⟩, ?_, ?_⟩
  · intro here node hHere hAbove
    refine ⟨hAbove, fun hSome target hLink => ?_⟩
    have hNames : here.names ≠ [] := fun hNil => hSome (by simp [hNil])
    have hSplit := List.dropLast_concat_getLast hNames
    rw [← hSplit, at?_append, hAbove] at hHere
    obtain ⟨entries, -, hDir, -⟩ := isDir_of_at?_cons hHere.1
    rw [hDir] at hLink
    cases hLink
  · intro here entries name node hHere hDir _ hEntry hLink
    refine ⟨?_, fun _ => hLink⟩
    rw [at?_append, hHere.1, Option.bind_some, hDir]
    simp [at?, hEntry]

theorem at?_of_locate {tree : FileTree} {path : String} {place : Place}
    (h : tree.locate path = .ok place) : tree.at? place.names = some place.node ∧
      (place.names ≠ [] → ∀ target, place.node ≠ .link target) :=
  (kept_at? tree).locate h

/-- The components that a walk over pieces stands for. -/
def stepsAlong (pieces : List String) : List Component :=
  pieces.filterMap fun piece => step? piece.toList

theorem stepsAlong_map (s : List Char) :
    stepsAlong ((Text.split '/' s).map String.ofList) = stepsOf s := by
  rw [stepsAlong, List.filterMap_map]
  simp only [Function.comp_def, String.toList_ofList]
  rfl

/-- A walk along the names of a directory arrives there without following a link. -/
theorem walk_names (root : FileTree) (links : Nat) {pieces names : List String} {here : Place}
    {entries : List (String × FileTree)} (hSteps : stepsAlong pieces = names.map .name)
    (hNode : here.node.at? names = some (.dir entries)) :
    walk root links here pieces = .ok ⟨here.names ++ names, .dir entries⟩ := by
  induction pieces generalizing here names with
  | nil =>
    have hNames : names = [] := List.map_eq_nil_iff.mp hSteps.symm
    subst hNames
    rw [at?, Option.some.injEq] at hNode
    rw [walk_nil, List.append_nil, ← hNode]
  | cons piece more ih =>
    rw [stepsAlong, List.filterMap_cons] at hSteps
    have hDir : ∃ listed, here.node = .dir listed := by
      cases names with
      | nil =>
        rw [at?, Option.some.injEq] at hNode
        exact ⟨entries, hNode⟩
      | cons name rest =>
        obtain ⟨listed, -, hDir, -⟩ := isDir_of_at?_cons hNode
        exact ⟨listed, hDir⟩
    obtain ⟨listed, hDir⟩ := hDir
    by_cases hStay : piece = "" ∨ piece = "."
    · have hNone : step? piece.toList = none := by
        rcases hStay with rfl | rfl <;> rfl
      rw [hNone] at hSteps
      rw [walk_cons, step_stay hDir hStay]
      exact ih hSteps hNode
    by_cases hUp : piece = ".."
    · have hSome : step? piece.toList = some .up := by
        rw [hUp]
        rfl
      rw [hSome] at hSteps
      cases names <;> simp at hSteps
    obtain ⟨hEmpty, hDot⟩ := not_or.mp hStay
    rw [step?_of_ne hEmpty hDot hUp] at hSteps
    cases names with
    | nil => cases hSteps
    | cons name rest =>
      obtain ⟨hName, hRest⟩ := List.cons.inj hSteps
      cases Component.name.inj hName
      obtain ⟨listed', next, hDir', hEntry, hNext⟩ := isDir_of_at?_cons hNode
      cases hDir.symm.trans hDir'
      have hLink : ∀ target, next ≠ .link target := by
        rintro target rfl
        cases rest <;> simp [at?] at hNext
      have hOn : walk root links ⟨here.names ++ [piece], next⟩ more =
          .ok ⟨here.names ++ [piece] ++ rest, .dir entries⟩ := ih hRest hNext
      rw [walk_cons, step_entry hDir hStay hUp hEntry hLink]
      simpa using hOn

/-- A walk along the names of a node that is no link arrives there. -/
theorem walk_to_node (root : FileTree) (links : Nat) {here : Place} {names : List String}
    {node : FileTree} (hNames : ∀ name ∈ names, IsName name)
    (hNode : here.node.at? names = some node)
    (hLink : names ≠ [] → ∀ target, node ≠ .link target) :
    walk root links here names = .ok ⟨here.names ++ names, node⟩ := by
  induction names generalizing here with
  | nil =>
    rw [at?, Option.some.injEq] at hNode
    rw [walk_nil, List.append_nil, ← hNode]
  | cons name more ih =>
    obtain ⟨hName, hMore⟩ := List.forall_mem_cons.mp hNames
    obtain ⟨entries, next, hDir, hEntry, hNext⟩ := isDir_of_at?_cons hNode
    have hStay : ¬(name = "" ∨ name = ".") := not_or.mpr ⟨hName.ne_empty, hName.ne_here⟩
    have hOwn : ∀ target, next ≠ .link target := by
      intro target hTarget
      cases more with
      | nil =>
        rw [at?, Option.some.injEq] at hNext
        exact hLink (by simp) target (hNext ▸ hTarget)
      | cons other rest =>
        rw [hTarget] at hNext
        simp [at?] at hNext
    have hOn : walk root links ⟨here.names ++ [name], next⟩ more =
        .ok ⟨here.names ++ [name] ++ more, node⟩ := ih hMore hNext fun _ => hLink (by simp)
    rw [walk_cons, step_entry hDir hStay hName.ne_up hEntry hOwn]
    simpa using hOn

/-- Over the first pieces a walk fails, or arrives at a place, whatever pieces follow. -/
theorem walk_arrives (root : FileTree) (links : Nat) (here : Place) (pieces : List String) :
    (∃ failure, ∀ more, walk root links here (pieces ++ more) = .error failure) ∨
      ∃ left there, ∀ more, walk root links here (pieces ++ more) = walk root left there more := by
  induction links using Nat.strongRecOn generalizing here pieces with
  | ind links ihLinks =>
    induction pieces generalizing here with
    | nil => exact Or.inr ⟨links, here, fun more => rfl⟩
    | cons piece rest ih =>
      cases hStep : step root here piece with
      | fails failure =>
        refine Or.inl ⟨failure, fun more => ?_⟩
        rw [List.cons_append, walk_cons, hStep]
      | arrives there =>
        have hOn (more : List String) : walk root links here (piece :: rest ++ more) =
            walk root links there (rest ++ more) := by
          rw [List.cons_append, walk_cons, hStep]
        simp only [hOn]
        exact ih there
      | follows start target =>
        cases links with
        | zero =>
          refine Or.inl ⟨.tooManyLinks, fun more => ?_⟩
          rw [List.cons_append, walk_cons, hStep]
        | succ left =>
          have hOn (more : List String) : walk root (left + 1) here (piece :: rest ++ more) =
              walk root left start (FileTree.pieces target ++ rest ++ more) := by
            rw [List.cons_append, walk_cons, hStep, List.append_assoc]
          simp only [hOn]
          exact ihLinks left (Nat.lt_succ_self left) start _

/-- A walk that goes through arrives somewhere over its first pieces. -/
theorem arrives_of_walk_append {root : FileTree} {links : Nat} {here place : Place}
    {front more : List String} (h : walk root links here (front ++ more) = .ok place) :
    ∃ left there, ∀ rest, walk root links here (front ++ rest) = walk root left there rest := by
  rcases walk_arrives root links here front with ⟨failure, hFails⟩ | hArrives
  · rw [hFails] at h
    cases h
  · exact hArrives

theorem isAbsolute_ofList_append (s t : List Char) :
    isAbsolute (String.ofList (s ++ '/' :: t)) = isAbsolute (String.ofList (s ++ ['/'])) := by
  cases s <;> simp [isAbsolute]

theorem locate_ofList_append (tree : FileTree) {s : List Char}
    (h : isAbsolute (String.ofList (s ++ ['/'])) = true) (t : List Char) :
    tree.locate (String.ofList (s ++ '/' :: t)) = walk tree linkLimit ⟨[], tree⟩
      ((Text.split '/' s).map String.ofList ++ (Text.split '/' t).map String.ofList) := by
  rw [locate, isAbsolute_ofList_append, if_pos h, pieces, String.toList_ofList, Text.split_append,
    List.map_append]

/-- A path that goes on behind a slash arrives at a directory there. -/
theorem exists_dir_of_locate {tree : FileTree} {dir rest : List Char} {place : Place}
    (hAbsolute : isAbsolute (String.ofList (dir ++ ['/'])) = true)
    (h : tree.locate (String.ofList (dir ++ '/' :: rest)) = .ok place) :
    ∃ left there entries, there.node = .dir entries ∧ ∀ more,
      walk tree linkLimit ⟨[], tree⟩ ((Text.split '/' dir).map String.ofList ++ more) =
        walk tree left there more := by
  obtain ⟨first, more, hPieces⟩ : ∃ first more,
      (Text.split '/' rest).map String.ofList = first :: more := by
    cases hSplit : Text.split '/' rest with
    | nil => exact absurd hSplit (Text.split_ne_nil _ _)
    | cons first more => exact ⟨_, _, rfl⟩
  rw [locate_ofList_append tree hAbsolute, hPieces] at h
  obtain ⟨left, there, hOn⟩ := arrives_of_walk_append h
  rw [hOn] at h
  obtain ⟨entries, hDir⟩ := isDir_of_walk_cons h
  exact ⟨left, there, entries, hDir, hOn⟩

theorem stepsOf_of_noSlash {name : List Char} (h : '/' ∉ name) :
    stepsOf name = (step? name).toList := by
  rw [stepsOf, Text.split_of_notMem h]
  cases hStep : step? name <;> simp [hStep]

/-- A text that spells the names of a place leads there if a path goes on behind its last slash: what
is there under the last name can only be the place itself. -/
theorem located_of_longer {tree node : FileTree} {dir name rest : List Char} {place : Place}
    {names : List String} (hName : '/' ∉ name)
    (hAbsolute : isAbsolute (String.ofList (dir ++ ['/'])) = true)
    (hLonger : tree.locate (String.ofList (dir ++ '/' :: rest)) = .ok place)
    (hSteps : stepsOf (dir ++ '/' :: name) = names.map .name)
    (hNode : tree.at? names = some node) (hLink : names ≠ [] → ∀ target, node ≠ .link target) :
    ∃ there, tree.locate (String.ofList (dir ++ '/' :: name)) = .ok there := by
  obtain ⟨left, there, entries, hDir, hOn⟩ := exists_dir_of_locate hAbsolute hLonger
  rw [locate_ofList_append tree hAbsolute, Text.split_of_notMem hName, List.map_singleton, hOn,
    walk_cons]
  rw [stepsOf_append, stepsOf_of_noSlash hName] at hSteps
  by_cases hStay : String.ofList name = "" ∨ String.ofList name = "."
  · rw [step_stay hDir hStay]
    exact ⟨there, walk_nil _ _ _⟩
  obtain ⟨hEmpty, hDot⟩ := not_or.mp hStay
  by_cases hUp : String.ofList name = ".."
  · have hStep : step? name = some .up := by
      rw [← String.toList_ofList (l := name), hUp]
      rfl
    have hMem : Component.up ∈ names.map Component.name := by
      rw [← hSteps, hStep]
      simp
    simp at hMem
  have hStep : step? name = some (.name (String.ofList name)) := by
    have hSome := step?_of_ne hEmpty hDot hUp
    rwa [String.toList_ofList] at hSome
  rw [hStep] at hSteps
  obtain ⟨front, back, rfl, hFront, hBack⟩ := List.map_eq_append_iff.mp hSteps.symm
  obtain ⟨last, rfl, hLast⟩ := List.map_eq_singleton_iff.mp hBack
  cases Component.name.inj hLast
  rw [at?_append] at hNode
  obtain ⟨inner, hInner, hNode⟩ := Option.bind_eq_some_iff.mp hNode
  obtain ⟨listed, next, rfl, hEntry, hNext⟩ := isDir_of_at?_cons hNode
  cases Option.some.inj hNext
  have hWalk : walk tree linkLimit ⟨[], tree⟩ ((Text.split '/' dir).map String.ofList) =
      .ok ⟨front, .dir listed⟩ :=
    walk_names tree linkLimit (by rw [stepsAlong_map, hFront]) hInner
  have hThere : there = ⟨front, .dir listed⟩ := by
    have hArrived := hOn []
    rw [List.append_nil, hWalk, walk_nil] at hArrived
    exact (Except.ok.inj hArrived).symm
  subst hThere
  rw [step_entry rfl hStay hUp hEntry (hLink (by simp))]
  exact ⟨_, walk_nil _ _ _⟩

/-- Every entry, at every depth, has a name that a file can have. -/
inductive Legal : FileTree → Prop
  | file (content : List UInt8) : Legal (.file content)
  | link (target : String) : Legal (.link target)
  | dir (entries : List (String × FileTree)) (names : ∀ entry ∈ entries, IsName entry.1)
      (nodes : ∀ entry ∈ entries, Legal entry.2) : Legal (.dir entries)

theorem mem_of_entryOf {name : String} {entries : List (String × FileTree)} {node : FileTree}
    (h : entryOf name entries = some node) : (name, node) ∈ entries := by
  induction entries with
  | nil => cases h
  | cons entry more ih =>
    obtain ⟨first, tree⟩ := entry
    rw [entryOf] at h
    by_cases hName : first = name
    · rw [if_pos hName, Option.some.injEq] at h
      rw [hName, h]
      exact List.mem_cons_self
    · rw [if_neg hName] at h
      exact List.mem_cons_of_mem _ (ih h)

theorem Legal.entryOf {name : String} {entries : List (String × FileTree)} {node : FileTree}
    (h : Legal (.dir entries)) (hEntry : FileTree.entryOf name entries = some node) :
    node.Legal := by
  cases h with
  | dir entries names nodes => exact nodes _ (mem_of_entryOf hEntry)

theorem Legal.at? {tree node : FileTree} {names : List String} (h : tree.Legal)
    (hNode : tree.at? names = some node) : node.Legal := by
  induction names generalizing tree with
  | nil =>
    rw [FileTree.at?, Option.some.injEq] at hNode
    exact hNode ▸ h
  | cons name more ih =>
    obtain ⟨entries, next, rfl, hEntry, hNext⟩ := isDir_of_at?_cons hNode
    exact ih (h.entryOf hEntry) hNext

theorem Legal.locate {tree : FileTree} {path : String} {place : Place} (h : tree.Legal)
    (hPlace : tree.locate path = .ok place) : place.node.Legal :=
  h.at? (at?_of_locate hPlace).1

/-- What a directory lists are names of entries, and only an absolute path leads to one. -/
theorem Legal.isName_of_mem_namesIn {tree : FileTree} {path name : String} (h : tree.Legal)
    (hName : name ∈ tree.namesIn path) : isAbsolute path = true ∧ IsName name := by
  unfold namesIn at hName
  split at hName
  · next names entries hPlace =>
    have hNames : ∀ entry ∈ entries, IsName entry.1 := by
      cases h.locate hPlace with
      | dir entries names nodes => exact names
    obtain ⟨entry, hEntry, rfl⟩ := List.mem_map.mp hName
    exact ⟨isAbsolute_of_locate hPlace, hNames entry hEntry⟩
  · cases hName

end Standin.FileTree
