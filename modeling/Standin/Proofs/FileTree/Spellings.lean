import Standin.Proofs.FileTree.Walks
import Standin.Proofs.PlainPaths

namespace Standin.FileTree

open Standin.Path

/-- A piece of a path that stands for a component. -/
def IsStep (piece : String) : Prop := piece ≠ "" ∧ piece ≠ "."

instance (piece : String) : Decidable (IsStep piece) := inferInstanceAs (Decidable (_ ∧ _))

theorem not_isStep {piece : String} (h : ¬IsStep piece) : piece = "" ∨ piece = "." := by
  unfold IsStep at h
  grind

def textOf (k : Component) : String := String.ofList k.piece

/-- The pieces that stand for components are told by the components. -/
theorem filter_isStep (pieces : List String) :
    pieces.filter (fun piece => IsStep piece) = (stepsAlong pieces).map textOf := by
  induction pieces with
  | nil => rfl
  | cons piece more ih =>
    rw [stepsAlong, List.filterMap_cons]
    by_cases hStep : IsStep piece
    · have hChars : piece.toList ≠ [] ∧ piece.toList ≠ ['.'] :=
        ⟨fun hEq => hStep.1 (String.toList_inj.mp hEq), fun hEq => hStep.2 (String.toList_inj.mp hEq)⟩
      obtain ⟨k, hSome, hPiece⟩ := step?_piece hChars
      rw [List.filter_cons_of_pos (by simpa using hStep), hSome]
      dsimp only
      rw [List.map_cons, textOf, hPiece, String.ofList_toList, ih]
      rfl
    · have hNone : step? piece.toList = none := by
        rcases not_isStep hStep with rfl | rfl <;> rfl
      rw [List.filter_cons_of_neg (by simpa using hStep), hNone, ih]
      rfl

section Walks

variable {root : FileTree} {links : Nat} {here place : Place}

theorem walk_stay {entries : List (String × FileTree)} (hDir : here.node = .dir entries)
    {piece : String} (hStay : ¬IsStep piece) (more : List String) :
    walk root links here (piece :: more) = walk root links here more := by
  rw [walk_cons, step_stay hDir (not_isStep hStay)]

/-- A walk that arrives does so without the pieces that are no components. -/
theorem walk_filter {pieces : List String} (h : walk root links here pieces = .ok place) :
    walk root links here (pieces.filter fun piece => IsStep piece) = .ok place := by
  induction pieces generalizing links here with
  | nil => exact h
  | cons piece more ih =>
    by_cases hStep : IsStep piece
    · rw [List.filter_cons_of_pos (by simpa using hStep)]
      rw [← List.singleton_append] at h ⊢
      obtain ⟨left, there, hOn⟩ := arrives_of_walk_append h
      rw [hOn] at h ⊢
      exact ih h
    · obtain ⟨entries, hDir⟩ := isDir_of_walk_cons h
      rw [walk_stay hDir hStep] at h
      rw [List.filter_cons_of_neg (by simpa using hStep)]
      exact ih h

/-- Pieces that are no components do not matter before one that is. -/
theorem walk_of_filter {pieces : List String} (hEnd : ∀ last ∈ pieces.getLast?, IsStep last)
    (h : walk root links here (pieces.filter fun piece => IsStep piece) = .ok place) :
    walk root links here pieces = .ok place := by
  induction pieces generalizing links here with
  | nil => exact h
  | cons piece more ih =>
    have hMore : ∀ last ∈ more.getLast?, IsStep last := by
      intro last hLast
      cases more with
      | nil => simp at hLast
      | cons next rest => exact hEnd last (by rwa [List.getLast?_cons_cons])
    by_cases hStep : IsStep piece
    · rw [List.filter_cons_of_pos (by simpa using hStep)] at h
      rw [← List.singleton_append] at h ⊢
      obtain ⟨left, there, hOn⟩ := arrives_of_walk_append h
      rw [hOn] at h ⊢
      exact ih hMore h
    · rw [List.filter_cons_of_neg (by simpa using hStep)] at h
      -- a component follows, so the walk stands in a directory here
      obtain ⟨last, hLast⟩ : ∃ last, more.getLast? = some last := by
        cases more with
        | nil => exact absurd (hEnd piece (by simp)) hStep
        | cons next rest => exact ⟨_, List.getLast?_eq_some_getLast (by simp)⟩
      have hKept : last ∈ more.filter fun piece => IsStep piece :=
        List.mem_filter.mpr ⟨List.mem_of_getLast? hLast, by simpa using hMore last hLast⟩
      cases hFilter : more.filter fun piece => IsStep piece with
      | nil => simp [hFilter] at hKept
      | cons first rest =>
        have hFirst := h
        rw [hFilter] at hFirst
        obtain ⟨entries, hDir⟩ := isDir_of_walk_cons hFirst
        rw [walk_stay hDir hStep]
        exact ih hMore h

end Walks

section Locate

variable {tree : FileTree} {place : Place}

def EndsInStep (path : String) : Prop := ∀ last ∈ (pieces path).getLast?, IsStep last

theorem stepsAlong_pieces (path : String) : stepsAlong (pieces path) = stepsOf path.toList :=
  stepsAlong_map path.toList

/-- A path leads where the walk over its components does. -/
theorem walk_of_locate {path : String} (h : tree.locate path = .ok place) :
    walk tree linkLimit ⟨[], tree⟩ ((stepsOf path.toList).map textOf) = .ok place := by
  rw [← stepsAlong_pieces, ← filter_isStep]
  rw [locate, if_pos (isAbsolute_of_locate h)] at h
  exact walk_filter h

/-- A path that ends with a component leads where the walk over its components does. -/
theorem locate_of_walk {path : String} (hAbsolute : isAbsolute path = true)
    (hEnd : EndsInStep path)
    (h : walk tree linkLimit ⟨[], tree⟩ ((stepsOf path.toList).map textOf) = .ok place) :
    tree.locate path = .ok place := by
  rw [← stepsAlong_pieces, ← filter_isStep] at h
  rw [locate, if_pos hAbsolute]
  exact walk_of_filter hEnd h

/-- A path that ends with a component leads where any path of the same components leads. -/
theorem locate_of_same {p q : String} (hq : isAbsolute q = true) (hEnd : EndsInStep q)
    (hSame : Same p q) (h : tree.locate p = .ok place) : tree.locate q = .ok place := by
  have hSteps : stepsOf p.toList = stepsOf q.toList := by
    rw [Same, components_of_isAbsolute (isAbsolute_of_locate h), components_of_isAbsolute hq]
      at hSame
    exact (List.cons.inj hSame).2
  exact locate_of_walk hq hEnd (hSteps ▸ walk_of_locate h)

theorem separate_textOf (path : String) : Separate ((stepsOf path.toList).map textOf) := by
  rw [← stepsAlong_pieces, ← filter_isStep]
  intro piece hPiece
  exact separate_pieces path piece (List.mem_of_mem_filter hPiece)

/-- A walk that arrives stands at a place of the tree behind its first pieces. -/
theorem exists_place_between {front more : List String} (hFront : Separate front)
    (h : walk tree linkLimit ⟨[], tree⟩ (front ++ more) = .ok place) :
    ∃ left there, tree.at? there.names = some there.node ∧
      walk tree linkLimit ⟨[], tree⟩ front = .ok there ∧
      ∀ rest, walk tree linkLimit ⟨[], tree⟩ (front ++ rest) = walk tree left there rest := by
  obtain ⟨left, there, hOn⟩ := arrives_of_walk_append h
  have hThere : walk tree linkLimit ⟨[], tree⟩ front = .ok there := by
    have hArrived := hOn []
    rwa [List.append_nil, walk_nil] at hArrived
  have hKept := (kept_at? tree).walk linkLimit hFront (kept_at? tree).atRoot hThere
  exact ⟨left, there, hKept.1, hThere, hOn⟩

end Locate

/-- What is read from an absolute path stands behind a slash. -/
theorem toList_append_name {base name : String} (hBase : isAbsolute base = true)
    (hName : IsName name) : ∃ front, (append base name).toList = front ++ '/' :: name.toList := by
  obtain ⟨rest, hRest⟩ := exists_rest_of_isAbsolute hBase
  unfold append
  rw [if_neg hName.not_isAbsolute]
  by_cases hEnd : base.toList.getLast? = none ∨ base.toList.getLast? = some '/'
  · have hSlash : base.toList.getLast? = some '/' :=
      hEnd.resolve_left (by simp [hRest])
    refine ⟨base.toList.dropLast, ?_⟩
    rw [if_pos hEnd, String.toList_append]
    conv_lhs => rw [← List.dropLast_append_getLast? '/' hSlash]
    simp
  · refine ⟨base.toList, ?_⟩
    rw [if_neg hEnd]
    simp [String.toList_append]

/-- A path ends in a name that stands behind its last slash. -/
theorem endsInStep_of_name {path name : String} {front : List Char} (hName : IsName name)
    (hText : path.toList = front ++ '/' :: name.toList) : EndsInStep path := by
  intro last hLast
  rw [pieces, hText, Text.split_append, Text.split_of_notMem hName.noSlash, List.map_append] at hLast
  have hSame : last = name := by simpa using Eq.symm hLast
  rw [hSame]
  exact ⟨hName.ne_empty, hName.ne_here⟩

theorem endsInStep_append {base name : String} (hBase : isAbsolute base = true)
    (hName : IsName name) : EndsInStep (append base name) := by
  obtain ⟨front, hText⟩ := toList_append_name hBase hName
  exact endsInStep_of_name hName hText

/-- Only in a directory does a path lead anywhere. -/
theorem isDir_of_locate {tree : FileTree} {path : String} {place : Place}
    (h : tree.locate path = .ok place) : ∃ entries, tree = .dir entries := by
  have hAbsolute := isAbsolute_of_locate h
  obtain ⟨rest, hRest⟩ := exists_rest_of_isAbsolute hAbsolute
  have hPieces : pieces path = "" :: (Text.split '/' rest).map String.ofList := by
    rw [pieces, hRest, Text.split, if_pos rfl]
    rfl
  rw [locate, if_pos hAbsolute, hPieces] at h
  exact isDir_of_walk_cons h

theorem steps_pathOf {names : List String} (h : ∀ name ∈ names, IsName name) :
    (stepsOf (pathOf names).toList).map textOf = names := by
  have hText : ∀ name : String, textOf (.name name) = name := fun name => String.ofList_toList
  have hComponents := components_pathOf h
  rw [components_of_isAbsolute (isAbsolute_pathOf names)] at hComponents
  rw [(List.cons.inj hComponents).2, List.map_map]
  simp [Function.comp_def, hText]

/-- The path of the names of a place leads to that place. -/
theorem locate_pathOf {tree : FileTree} {path : String} {place : Place}
    (h : tree.locate path = .ok place) : tree.locate (pathOf place.names) = .ok place := by
  obtain ⟨hNode, hLink⟩ := at?_of_locate h
  have hNames := isName_of_locate h
  have hWalk : walk tree linkLimit ⟨[], tree⟩ place.names = .ok place :=
    walk_to_node tree linkLimit hNames hNode hLink
  rcases List.eq_nil_or_concat place.names with hNil | ⟨front, last, hConcat⟩
  · obtain ⟨entries, hDir⟩ := isDir_of_locate h
    have hPieces : pieces "/" = ["", ""] := rfl
    rw [hNil, walk_nil] at hWalk
    rw [hNil, locate, if_pos (isAbsolute_pathOf []), pathOf, if_pos (by simp), hPieces, walk_cons,
      step_stay hDir (Or.inl rfl)]
    dsimp only
    rw [walk_cons, step_stay hDir (Or.inl rfl)]
    dsimp only
    rw [walk_nil, hWalk]
  · have hLast : IsName last := hNames last (by simp [hConcat])
    have hText : (pathOf place.names).toList =
        (front.flatMap fun name => '/' :: name.toList) ++ '/' :: last.toList := by
      rw [toList_pathOf (by simp [hConcat]), hConcat]
      simp
    exact locate_of_walk (isAbsolute_pathOf _) (endsInStep_of_name hLast hText)
      (by rwa [steps_pathOf hNames])

theorem step?_cases {piece : List Char} {k : Component} (h : step? piece = some k) :
    k = .up ∨ ∃ text, k = .name text := by
  unfold step? at h
  split_ifs at h
  · exact Or.inl (Option.some.inj h).symm
  · exact Or.inr ⟨_, (Option.some.inj h).symm⟩

/-- What is above a directory is a directory. -/
theorem isDir_above {tree above : FileTree} {names : List String}
    {entries : List (String × FileTree)} (h : tree.at? names = some (.dir entries))
    (hAbove : tree.at? names.dropLast = some above) : ∃ listed, above = .dir listed := by
  by_cases hNames : names = []
  · subst hNames
    exact ⟨entries, Option.some.inj (hAbove.symm.trans h)⟩
  · rw [← List.dropLast_concat_getLast hNames, at?_append, hAbove] at h
    obtain ⟨listed, -, hDir, -⟩ := isDir_of_at?_cons h
    exact ⟨listed, hDir⟩

/-- A step up leads to a directory. -/
theorem isDir_of_walk_up {tree : FileTree} {links : Nat} {here place : Place}
    (hHere : tree.at? here.names = some here.node)
    (h : walk tree links here [".."] = .ok place) : ∃ entries, place.node = .dir entries := by
  obtain ⟨entries, hDir⟩ := isDir_of_walk_cons h
  rw [hDir] at hHere
  rw [walk_cons, step, hDir] at h
  dsimp only at h
  rw [if_neg (by simp), if_pos rfl] at h
  cases hAbove : tree.at? here.names.dropLast with
  | none => simp [hAbove] at h
  | some above =>
    rw [hAbove] at h
    dsimp only at h
    rw [walk_nil] at h
    rw [← Except.ok.inj h]
    exact isDir_above hHere hAbove

theorem not_isDir_of_isFile {tree : FileTree} {path : String} {place : Place}
    (h : tree.isFile path = true) (hPlace : tree.locate path = .ok place)
    (entries : List (String × FileTree)) : place.node ≠ .dir entries := by
  intro hDir
  rw [isFile, hPlace] at h
  split at h
  · next hEq =>
    rw [Except.ok.inj hEq] at hDir
    cases hDir
  · cases h

/-- The path of a file ends with a name. -/
theorem exists_fileName?_of_isFile {tree : FileTree} {path : String}
    (h : tree.isFile path = true) : ∃ name, fileName? path = some name := by
  obtain ⟨place, hPlace⟩ := exists_place_of_isFile h
  have hAbsolute := isAbsolute_of_locate hPlace
  have hFile := not_isDir_of_isFile h hPlace
  have hWalk := walk_of_locate hPlace
  rcases List.eq_nil_or_concat (stepsOf path.toList) with hNil | ⟨front, k, hSteps⟩
  · -- without components a path leads to the root, which is a directory
    rw [hNil, List.map_nil, walk_nil] at hWalk
    obtain ⟨entries, hDir⟩ := isDir_of_locate hPlace
    rw [← Except.ok.inj hWalk] at hFile
    exact absurd hDir (hFile entries)
  · rw [List.concat_eq_append] at hSteps
    have hMem : k ∈ stepsOf path.toList := by simp [hSteps]
    obtain ⟨piece, -, hStep⟩ := List.mem_filterMap.mp hMem
    rcases step?_cases hStep with rfl | ⟨name, rfl⟩
    · have hSeparate := separate_textOf path
      rw [hSteps, List.map_append] at hWalk hSeparate
      obtain ⟨left, there, hThere, -, hOn⟩ := exists_place_between
        (fun piece hPiece => hSeparate piece (List.mem_append_left _ hPiece)) hWalk
      rw [hOn] at hWalk
      obtain ⟨entries, hDir⟩ := isDir_of_walk_up hThere hWalk
      exact absurd hDir (hFile entries)
    · refine ⟨name, ?_⟩
      rw [fileName?, components_of_isAbsolute hAbsolute, hSteps, ← List.cons_append,
        List.getLast?_concat]

/-- No link stands in the tree, at any depth. -/
inductive Linkless : FileTree → Prop
  | file (content : List UInt8) : Linkless (.file content)
  | dir (entries : List (String × FileTree)) (nodes : ∀ entry ∈ entries, Linkless entry.2) :
    Linkless (.dir entries)

theorem Linkless.entryOf {name : String} {entries : List (String × FileTree)} {node : FileTree}
    (h : Linkless (.dir entries)) (hEntry : FileTree.entryOf name entries = some node) :
    node.Linkless := by
  cases h with
  | dir entries nodes => exact nodes _ (mem_of_entryOf hEntry)

theorem Linkless.at? {tree node : FileTree} {names : List String} (h : tree.Linkless)
    (hNode : tree.at? names = some node) : node.Linkless := by
  induction names generalizing tree with
  | nil =>
    rw [FileTree.at?, Option.some.injEq] at hNode
    exact hNode ▸ h
  | cons name more ih =>
    obtain ⟨entries, next, rfl, hEntry, hNext⟩ := isDir_of_at?_cons hNode
    exact ih (h.entryOf hEntry) hNext

/-- The names that components lead to from a place, when no link stands in the way. -/
def settle (names : List String) : List Component → List String
  | [] => names
  | .name text :: more => settle (names ++ [text]) more
  | .up :: more => settle names.dropLast more
  | _ :: more => settle names more

theorem settle_append (names : List String) (front more : List Component) :
    settle names (front ++ more) = settle (settle names front) more := by
  induction front generalizing names with
  | nil => rfl
  | cons k rest ih => cases k <;> exact ih _

/-- No name is settled that neither was there nor is among the components. -/
theorem mem_settle {names : List String} {steps : List Component} {name : String}
    (h : name ∈ settle names steps) : name ∈ names ∨ .name name ∈ steps := by
  induction steps generalizing names with
  | nil => exact Or.inl h
  | cons k more ih =>
    cases k with
    | root => exact (ih h).imp_right (List.mem_cons_of_mem _)
    | here => exact (ih h).imp_right (List.mem_cons_of_mem _)
    | up =>
      refine (ih h).imp ?_ (List.mem_cons_of_mem _)
      exact fun hKept => (List.dropLast_sublist _).subset hKept
    | name text =>
      rcases ih h with hKept | hMore
      · rcases List.mem_append.mp hKept with hOwn | hText
        · exact Or.inl hOwn
        · exact Or.inr (by simp [List.mem_singleton.mp hText])
      · exact Or.inr (List.mem_cons_of_mem _ hMore)

/-- A step is not led on by a link. -/
theorem not_follows {root : FileTree} {here start : Place} {piece target : String}
    (hHere : here.node.Linkless) :
    step root here piece ≠ .follows start target := by
  intro hStep
  unfold step at hStep
  split at hStep
  · next entries hDir =>
    split_ifs at hStep
    · split at hStep <;> cases hStep
    · split at hStep
      · cases hStep
      · next hEntry =>
        rw [hDir] at hHere
        cases hHere.entryOf hEntry
      · cases hStep
  · cases hStep

section Linkless

variable {root : FileTree} (hRoot : root.Linkless)
include hRoot

/-- Where one piece leads. -/
theorem settle_step {here there : Place} {piece : String} (hHere : here.node.Linkless)
    (hStep : step root here piece = .arrives there) : there.node.Linkless ∧
      there.names = settle here.names (step? piece.toList).toList := by
  unfold step at hStep
  split at hStep
  · next entries hDir =>
    by_cases hStay : piece = "" ∨ piece = "."
    · rw [if_pos hStay] at hStep
      have hNone : step? piece.toList = none := by
        rcases hStay with rfl | rfl <;> rfl
      rw [hNone, ← Step.arrives.inj hStep]
      exact ⟨hHere, rfl⟩
    rw [if_neg hStay] at hStep
    obtain ⟨hEmpty, hDot⟩ := not_or.mp hStay
    by_cases hUp : piece = ".."
    · rw [if_pos hUp] at hStep
      have hSome : step? piece.toList = some .up := by
        rw [hUp]
        rfl
      split at hStep
      · next node hAbove =>
        rw [hSome, ← Step.arrives.inj hStep]
        exact ⟨hRoot.at? hAbove, rfl⟩
      · cases hStep
    rw [if_neg hUp] at hStep
    split at hStep
    · cases hStep
    · split at hStep <;> cases hStep
    · next node hLink hEntry =>
      rw [step?_of_ne hEmpty hDot hUp, ← Step.arrives.inj hStep]
      rw [hDir] at hHere
      exact ⟨hHere.entryOf hEntry, rfl⟩
  · cases hStep

theorem settle_walk {links : Nat} {pieces : List String} {here place : Place}
    (hHere : here.node.Linkless) (hWalk : walk root links here pieces = .ok place) :
    place.names = settle here.names (stepsAlong pieces) := by
  induction pieces generalizing here with
  | nil =>
    rw [walk_nil] at hWalk
    rw [← Except.ok.inj hWalk]
    rfl
  | cons piece more ih =>
    rw [walk_cons] at hWalk
    split at hWalk
    · cases hWalk
    · next there hStep =>
      obtain ⟨hThere, hNames⟩ := settle_step hRoot hHere hStep
      have hSplit : stepsAlong (piece :: more) =
          (step? piece.toList).toList ++ stepsAlong more := by
        rw [stepsAlong, List.filterMap_cons]
        cases step? piece.toList <;> rfl
      rw [ih hThere hWalk, hNames, hSplit, settle_append]
    · next start target hStep => exact absurd hStep (not_follows hHere)

/-- In a tree without links, the components of a path alone say where it leads. -/
theorem names_of_locate {path : String} {place : Place} (h : root.locate path = .ok place) :
    place.names = settle [] (components path) := by
  have hAbsolute := isAbsolute_of_locate h
  rw [locate, if_pos hAbsolute] at h
  rw [components_of_isAbsolute hAbsolute, ← stepsAlong_pieces]
  exact settle_walk hRoot hRoot h

end Linkless

end Standin.FileTree
