import Mathlib.Data.List.Basic
import Standin.FileTree.Basic

namespace Standin.Text

theorem split_append (sep : Char) (s t : List Char) :
    split sep (s ++ sep :: t) = split sep s ++ split sep t := by
  induction s with
  | nil => simp [split]
  | cons c rest ih =>
    rw [List.cons_append, split, split, ih]
    by_cases hc : c = sep
    · simp [hc]
    · rw [if_neg hc, if_neg hc]
      cases hs : split sep rest with
      | nil => exact absurd hs (split_ne_nil sep rest)
      | cons piece more => rfl

theorem split_of_notMem {sep : Char} {s : List Char} (h : sep ∉ s) : split sep s = [s] := by
  induction s with
  | nil => rfl
  | cons c rest ih =>
    have hc : c ≠ sep := fun hEq => h (hEq ▸ List.mem_cons_self)
    have hRest : sep ∉ rest := fun hMem => h (List.mem_cons_of_mem _ hMem)
    rw [split, if_neg hc, ih hRest]

theorem notMem_of_mem_split {sep : Char} {s piece : List Char} (h : piece ∈ split sep s) :
    sep ∉ piece := by
  induction s generalizing piece with
  | nil =>
    rw [split, List.mem_singleton] at h
    simp [h]
  | cons c rest ih =>
    rw [split] at h
    by_cases hc : c = sep
    · rw [if_pos hc, List.mem_cons] at h
      rcases h with rfl | h
      · simp
      · exact ih h
    · rw [if_neg hc] at h
      cases hs : split sep rest with
      | nil => exact absurd hs (split_ne_nil sep rest)
      | cons first more =>
        rw [hs] at h ih
        rcases List.mem_cons.mp h with rfl | h
        · intro hMem
          rcases List.mem_cons.mp hMem with hEq | hMem
          · exact hc hEq.symm
          · exact ih List.mem_cons_self hMem
        · exact ih (List.mem_cons_of_mem _ h)

theorem sublist_join {sep : Char} {pieces : List (List Char)} {piece : List Char}
    (h : piece ∈ pieces) : piece.Sublist (join sep pieces) := by
  induction pieces with
  | nil => cases h
  | cons first more ih =>
    cases more with
    | nil =>
      rw [List.mem_singleton] at h
      rw [h]
      exact List.Sublist.refl _
    | cons next rest =>
      have hJoin : join sep (first :: next :: rest) = first ++ sep :: join sep (next :: rest) := rfl
      rw [hJoin]
      rcases List.mem_cons.mp h with hFirst | hMore
      · rw [hFirst]
        exact List.sublist_append_left _ _
      · exact ((ih hMore).cons sep).trans (List.sublist_append_right _ _)

/-- A separated text holds the characters of its pieces. -/
theorem mem_of_mem_split {sep c : Char} {s piece : List Char} (hPiece : piece ∈ split sep s)
    (hc : c ∈ piece) : c ∈ s := by
  have hSublist : piece.Sublist (join sep (split sep s)) := sublist_join hPiece
  rw [join_split] at hSublist
  exact hSublist.subset hc

end Standin.Text

namespace Standin.Path

open Standin.Text

def stepsOf (s : List Char) : List Component := (split '/' s).filterMap step?

theorem stepsOf_append (s t : List Char) : stepsOf (s ++ '/' :: t) = stepsOf s ++ stepsOf t := by
  rw [stepsOf, split_append, List.filterMap_append]
  rfl

theorem stepsOf_slash (s : List Char) : stepsOf ('/' :: s) = stepsOf s :=
  stepsOf_append [] s

theorem step?_of_ne {piece : String} (hEmpty : piece ≠ "") (hHere : piece ≠ ".")
    (hUp : piece ≠ "..") : step? piece.toList = some (.name piece) := by
  have hEmpty' : piece.toList ≠ [] := fun hEq => hEmpty (String.toList_inj.mp hEq)
  have hHere' : piece.toList ≠ ['.'] := fun hEq => hHere (String.toList_inj.mp hEq)
  have hUp' : piece.toList ≠ ['.', '.'] := fun hEq => hUp (String.toList_inj.mp hEq)
  rw [step?, if_neg (by simp [hEmpty', hHere']), if_neg hUp', String.ofList_toList]

/-- What an entry of a directory can be called. -/
structure IsName (name : String) : Prop where
  ne_empty : name ≠ ""
  ne_here : name ≠ "."
  ne_up : name ≠ ".."
  noSlash : '/' ∉ name.toList

instance (name : String) : Decidable (IsName name) :=
  decidable_of_iff (name ≠ "" ∧ name ≠ "." ∧ name ≠ ".." ∧ '/' ∉ name.toList)
    ⟨fun ⟨hEmpty, hHere, hUp, hSlash⟩ => ⟨hEmpty, hHere, hUp, hSlash⟩,
      fun ⟨hEmpty, hHere, hUp, hSlash⟩ => ⟨hEmpty, hHere, hUp, hSlash⟩⟩

theorem stepsOf_of_isName {name : String} (h : IsName name) :
    stepsOf name.toList = [.name name] := by
  rw [stepsOf, split_of_notMem h.noSlash, List.filterMap_cons,
    step?_of_ne h.ne_empty h.ne_here h.ne_up]
  rfl

/-- An absolute path begins with a slash. -/
theorem exists_rest_of_isAbsolute {path : String} (h : isAbsolute path = true) :
    ∃ rest, path.toList = '/' :: rest := by
  have hHead : path.toList.head? = some '/' := by simpa [isAbsolute] using h
  cases hText : path.toList with
  | nil => simp [hText] at hHead
  | cons c rest => exact ⟨rest, by simpa [hText] using hHead⟩

theorem components_of_isAbsolute {path : String} (h : isAbsolute path) :
    components path = .root :: stepsOf path.toList := by
  obtain ⟨rest, hRest⟩ := exists_rest_of_isAbsolute h
  have hFirst : step? [] = none := rfl
  rw [components, componentsOf, stepsOf, hRest, split, if_pos rfl]
  dsimp only
  rw [List.head?_cons, if_pos rfl, List.filterMap_cons, hFirst]
  rfl

theorem isAbsolute_append {base : String} (h : isAbsolute base) (path : String) :
    isAbsolute (append base path) := by
  obtain ⟨rest, hRest⟩ := exists_rest_of_isAbsolute h
  unfold append
  split
  · assumption
  · split <;> simp [isAbsolute, String.toList_append, hRest]

/-- The characters of a name are those of the text it stands in. -/
theorem mem_of_mem_stepsOf {s : List Char} {text : String} {c : Char}
    (hText : .name text ∈ stepsOf s) (hc : c ∈ text.toList) : c ∈ s := by
  obtain ⟨piece, hPiece, hStep⟩ := List.mem_filterMap.mp hText
  unfold step? at hStep
  split_ifs at hStep
  · cases hStep
  rw [← Component.name.inj (Option.some.inj hStep), String.toList_ofList] at hc
  exact mem_of_mem_split hPiece hc

/-- A relative path read from an absolute one adds its components. -/
theorem components_append {base path : String} (hBase : isAbsolute base)
    (hPath : ¬isAbsolute path = true) :
    components (append base path) = components base ++ stepsOf path.toList := by
  have hSome : base.toList ≠ [] := by
    obtain ⟨rest, hRest⟩ := exists_rest_of_isAbsolute hBase
    simp [hRest]
  rw [components_of_isAbsolute (isAbsolute_append hBase path), components_of_isAbsolute hBase]
  unfold append
  rw [if_neg hPath]
  by_cases hEnd : base.toList.getLast? = none ∨ base.toList.getLast? = some '/'
  · -- the slash at the end of the base is the one that separates
    have hSlash : base.toList = base.toList.dropLast ++ ['/'] := by
      rcases hEnd with hEnd | hEnd
      · exact absurd (List.getLast?_eq_none_iff.mp hEnd) hSome
      · exact (List.dropLast_append_getLast? '/' hEnd).symm
    rw [if_pos hEnd, String.toList_append, hSlash, List.append_assoc, List.singleton_append,
      stepsOf_append, stepsOf_append]
    simp [stepsOf, split, step?]
  · have hText : (base ++ "/" ++ path).toList = base.toList ++ '/' :: path.toList := by
      simp [String.toList_append]
    rw [if_neg hEnd, hText, stepsOf_append]
    rfl

theorem not_isAbsolute_of_noSlash {path : String} (h : '/' ∉ path.toList) :
    ¬isAbsolute path = true := by
  intro hAbsolute
  obtain ⟨rest, hRest⟩ := exists_rest_of_isAbsolute hAbsolute
  exact h (hRest ▸ List.mem_cons_self)

theorem IsName.not_isAbsolute {name : String} (h : IsName name) : ¬isAbsolute name = true :=
  not_isAbsolute_of_noSlash h.noSlash

theorem components_append_name {base name : String} (hBase : isAbsolute base) (h : IsName name) :
    components (append base name) = components base ++ [.name name] := by
  rw [components_append hBase h.not_isAbsolute, stepsOf_of_isName h]

/-- A relative path is absolute only when it is read from an absolute one. -/
theorem isAbsolute_of_append {base path : String} (hPath : ¬isAbsolute path = true)
    (h : isAbsolute (append base path) = true) : isAbsolute base = true := by
  unfold append at h
  rw [if_neg hPath] at h
  cases hBase : base.toList with
  | nil =>
    rw [if_pos (by simp [hBase]), isAbsolute, String.toList_append, hBase, List.nil_append] at h
    exact absurd h hPath
  | cons c rest =>
    have hc : c = '/' := by
      split_ifs at h <;> simpa [isAbsolute, String.toList_append, hBase] using h
    simp [isAbsolute, hBase, hc]

end Standin.Path

namespace Standin.FileTree

open Standin.Path

theorem stepsOf_names {names : List String} (h : ∀ name ∈ names, IsName name) :
    stepsOf (names.flatMap fun name => '/' :: name.toList) = names.map .name := by
  induction names with
  | nil => rfl
  | cons name more ih =>
    have hName := stepsOf_of_isName (h name List.mem_cons_self)
    have hMore := ih fun other hOther => h other (List.mem_cons_of_mem _ hOther)
    rw [List.flatMap_cons, List.cons_append, stepsOf_slash, List.map_cons, ← hMore]
    cases more with
    | nil => rw [List.flatMap_nil, List.append_nil, hName]; rfl
    | cons next rest =>
      rw [List.flatMap_cons, List.cons_append, stepsOf_append, hName, stepsOf_slash]
      rfl

theorem toList_pathOf {names : List String} (h : names ≠ []) :
    (pathOf names).toList = names.flatMap fun name => '/' :: name.toList := by
  have hSome : ¬names.isEmpty = true := by simpa using h
  have hSlash (name : String) : ("/" ++ name).toList = '/' :: name.toList := by
    rw [String.toList_append]
    rfl
  rw [pathOf, if_neg hSome, String.toList_join, List.flatMap_map]
  simp only [hSlash]

theorem isAbsolute_pathOf (names : List String) : isAbsolute (pathOf names) := by
  cases names with
  | nil => rfl
  | cons name more => simp [isAbsolute, toList_pathOf]

/-- The path of a place is read back as the names that lead to it. -/
theorem components_pathOf {names : List String} (h : ∀ name ∈ names, IsName name) :
    components (pathOf names) = .root :: names.map .name := by
  rw [components_of_isAbsolute (isAbsolute_pathOf names)]
  cases names with
  | nil => rfl
  | cons name more => rw [toList_pathOf (by simp), stepsOf_names h]

theorem same_pathOf_iff {names others : List String} (h : ∀ name ∈ names, IsName name)
    (k : ∀ name ∈ others, IsName name) : Same (pathOf names) (pathOf others) ↔ names = others := by
  have hInjective : Function.Injective Component.name := fun _ _ hEq => Component.name.inj hEq
  rw [Same, components_pathOf h, components_pathOf k, List.cons_inj_right,
    (List.map_injective_iff.mpr hInjective).eq_iff]

end Standin.FileTree
