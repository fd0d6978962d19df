import Mathlib.Data.List.Infix
import Standin.Proofs.Path.Components
import Standin.Proofs.PlainPaths

namespace Standin.Text

theorem split_join {sep : Char} {pieces : List (List Char)} (hSome : pieces ≠ [])
    (h : ∀ piece ∈ pieces, sep ∉ piece) : split sep (join sep pieces) = pieces := by
  induction pieces with
  | nil => exact absurd rfl hSome
  | cons piece more ih =>
    have hPiece := split_of_notMem (h piece List.mem_cons_self)
    cases more with
    | nil => exact hPiece
    | cons next rest =>
      have hMore := ih (by simp) fun other hOther => h other (List.mem_cons_of_mem _ hOther)
      rw [join, split_append, hPiece, hMore]
      · rfl
      · simp

end Standin.Text

namespace Standin.Path

open Standin.Text

theorem stepsOf_join {pieces : List (List Char)} (h : ∀ piece ∈ pieces, '/' ∉ piece) :
    stepsOf (join '/' pieces) = pieces.filterMap step? := by
  by_cases hSome : pieces = []
  · subst hSome
    rfl
  · rw [stepsOf, split_join hSome h]

theorem trimEnd_isPrefix (isFirst : Bool) (pieces : List (List Char)) :
    trimEnd isFirst pieces <+: pieces := by
  induction pieces generalizing isFirst with
  | nil => exact List.prefix_rfl
  | cons piece more ih =>
    have hMore := ih false
    unfold trimEnd
    split
    · split
      · exact List.nil_prefix
      · exact List.cons_prefix_cons.mpr ⟨rfl, List.nil_prefix⟩
    · exact List.cons_prefix_cons.mpr ⟨rfl, hMore⟩

/-- Only what is no component is removed at the end. -/
theorem steps_trimEnd (pieces : List (List Char)) :
    (trimEnd false pieces).filterMap step? = pieces.filterMap step? := by
  induction pieces with
  | nil => rfl
  | cons piece more ih =>
    unfold trimEnd
    split
    · next hMore =>
      rw [hMore] at ih
      rw [List.filterMap_cons, ← ih]
      split_ifs with hNone
      · have hStep : step? piece = none := if_pos (by simpa using hNone)
        rw [hStep]
      · rw [List.filterMap_cons]
    · rw [List.filterMap_cons, List.filterMap_cons, ih]

/-- What is kept ends with a component. -/
theorem exists_last_of_trimEnd {pieces : List (List Char)} (h : trimEnd false pieces ≠ []) :
    ∃ front piece k, trimEnd false pieces = front ++ [piece] ∧ step? piece = some k := by
  induction pieces with
  | nil => exact absurd rfl h
  | cons piece more ih =>
    cases hMore : trimEnd false more with
    | nil =>
      rw [trimEnd, hMore] at h ⊢
      dsimp only at h ⊢
      split_ifs at h ⊢ with hNone
      · exact absurd rfl h
      · have hSome : piece ≠ [] ∧ piece ≠ ['.'] := by simpa using hNone
        obtain ⟨k, hStep, -⟩ := step?_piece hSome
        exact ⟨[], piece, k, rfl, hStep⟩
    | cons next rest =>
      obtain ⟨front, last, k, hLast, hStep⟩ := ih (by rw [hMore]; simp)
      rw [hMore] at hLast
      refine ⟨piece :: front, last, k, ?_, hStep⟩
      rw [trimEnd, hMore, hLast]
      cases front <;> rfl

theorem split_of_isAbsolute {path : String} (h : isAbsolute path = true) :
    split '/' path.toList = [] :: (split '/' path.toList).tail := by
  obtain ⟨rest, hRest⟩ := exists_rest_of_isAbsolute h
  rw [hRest, split, if_pos rfl, List.tail_cons]

theorem components_tail {path : String} (h : isAbsolute path = true) :
    components path = .root :: (split '/' path.toList).tail.filterMap step? := by
  have hFirst : step? [] = none := rfl
  rw [components_of_isAbsolute h, stepsOf, split_of_isAbsolute h, List.filterMap_cons, hFirst,
    List.tail_cons]

/-- A path that ends with a name has a parent. -/
theorem exists_parent? {path name : String} (hAbsolute : isAbsolute path = true)
    (h : fileName? path = some name) : ∃ dir, parent? path = some dir := by
  rw [parent?, if_pos hAbsolute]
  split
  · next hNone =>
    have hSteps := steps_trimEnd (split '/' path.toList).tail
    rw [hNone, List.filterMap_nil] at hSteps
    rw [fileName?, components_tail hAbsolute, ← hSteps] at h
    cases h
  · exact ⟨_, rfl⟩

/-- The parent of an absolute path lacks its last component. -/
theorem components_parent? {path dir : String} (hAbsolute : isAbsolute path = true)
    (h : parent? path = some dir) :
    isAbsolute dir = true ∧ components dir = (components path).dropLast := by
  have hPieces : ∀ piece ∈ (split '/' path.toList).tail, '/' ∉ piece := fun piece hPiece =>
    notMem_of_mem_split (List.mem_of_mem_tail hPiece)
  have hPath := components_tail hAbsolute
  rw [parent?, if_pos hAbsolute] at h
  split at h
  · cases h
  · next hSome =>
    obtain ⟨front, last, k, hKept, hStep⟩ := exists_last_of_trimEnd hSome
    have hSteps := steps_trimEnd (split '/' path.toList).tail
    have hFront : ∀ piece ∈ trimEnd false front, '/' ∉ piece := by
      intro piece hPiece
      refine hPieces piece ((trimEnd_isPrefix false _).subset ?_)
      rw [hKept]
      exact List.mem_append_left _ ((trimEnd_isPrefix false front).subset hPiece)
    have hDir : dir = String.ofList ('/' :: join '/' (trimEnd false front)) := by
      rw [hKept, List.dropLast_concat] at h
      exact (Option.some.inj h).symm
    have hDirAbsolute : isAbsolute dir = true := by simp [hDir, isAbsolute]
    refine ⟨hDirAbsolute, ?_⟩
    rw [components_of_isAbsolute hDirAbsolute, hDir, String.toList_ofList, stepsOf_slash,
      stepsOf_join hFront, steps_trimEnd, hPath, ← hSteps, hKept, List.filterMap_append,
      List.filterMap_cons, hStep, List.filterMap_nil, ← List.cons_append, List.dropLast_concat]

/-- The parent of a relative path is relative. -/
theorem not_isAbsolute_parent? {path dir : String} (hRelative : ¬isAbsolute path = true)
    (h : parent? path = some dir) : ¬isAbsolute dir = true := by
  rw [parent?, if_neg hRelative] at h
  split at h
  · cases h
  · next hSome =>
    have hHead : path.toList.head? ≠ some '/' := by simpa [isAbsolute] using hRelative
    have hPrefix := (trimEnd_isPrefix true (trimEnd true (split '/' path.toList)).dropLast).trans
      ((List.dropLast_prefix _).trans (trimEnd_isPrefix true _))
    intro hAbsolute
    rw [← Option.some.inj h, isAbsolute, String.toList_ofList] at hAbsolute
    cases hKept : trimEnd true (trimEnd true (split '/' path.toList)).dropLast with
    | nil => simp [hKept, join] at hAbsolute
    | cons first more =>
      rw [hKept] at hAbsolute hPrefix
      obtain ⟨back, hSplit⟩ := hPrefix
      have hFirst : '/' ∉ first :=
        notMem_of_mem_split (s := path.toList) (hSplit ▸ List.mem_cons_self)
      cases first with
      | nil =>
        -- a relative path whose first piece is empty is empty, and has no parent
        have hEmpty := (split_slash_nil_cons hSplit.symm).resolve_right hHead
        exact hSome (by rw [hEmpty]; rfl)
      | cons c rest =>
        have hc : c = '/' := by cases more <;> simpa [join] using hAbsolute
        exact hFirst (hc ▸ List.mem_cons_self)

theorem isName_of_step? {piece : List Char} {text : String} (hSlash : '/' ∉ piece)
    (h : step? piece = some (.name text)) : IsName text := by
  unfold step? at h
  split_ifs at h with hNone hUp
  · simp at h
  obtain ⟨hEmpty, hHere⟩ := not_or.mp hNone
  have hText : text.toList = piece := by
    rw [← Component.name.inj (Option.some.inj h), String.toList_ofList]
  refine ⟨?_, ?_, ?_, hText ▸ hSlash⟩
  · rintro rfl
    exact hEmpty hText.symm
  · rintro rfl
    exact hHere hText.symm
  · rintro rfl
    exact hUp hText.symm

theorem isName_of_mem_components {path text : String} (h : .name text ∈ components path) :
    IsName text := by
  have hSteps {pieces : List (List Char)} (hPieces : ∀ piece ∈ pieces, '/' ∉ piece)
      (hMem : .name text ∈ pieces.filterMap step?) : IsName text := by
    obtain ⟨piece, hPiece, hStep⟩ := List.mem_filterMap.mp hMem
    exact isName_of_step? (hPieces piece hPiece) hStep
  have hPieces : ∀ piece ∈ split '/' path.toList, '/' ∉ piece := fun piece hPiece =>
    notMem_of_mem_split hPiece
  unfold components componentsOf at h
  split at h
  · cases h
  · next first more hSplit =>
    rw [hSplit] at hPieces
    rcases List.mem_append.mp h with hFirst | hMore
    · split_ifs at hFirst
      · simp at hFirst
      · simp at hFirst
      · exact isName_of_step? (hPieces first List.mem_cons_self) (by simpa using hFirst)
    · exact hSteps (fun piece hPiece => hPieces piece (List.mem_cons_of_mem _ hPiece)) hMore

theorem getLast?_of_fileName? {path name : String} (h : fileName? path = some name) :
    (components path).getLast? = some (.name name) := by
  unfold fileName? at h
  split at h
  · next text hLast => rw [hLast, Option.some.inj h]
  · cases h

theorem isName_of_fileName? {path name : String} (h : fileName? path = some name) :
    IsName name :=
  isName_of_mem_components (List.mem_of_getLast? (getLast?_of_fileName? h))

theorem components_of_fileName? {path name : String} (h : fileName? path = some name) :
    components path = (components path).dropLast ++ [.name name] :=
  (List.dropLast_append_getLast? _ (getLast?_of_fileName? h)).symm

theorem startsWith_iff {path base : String} :
    startsWith path base = true ↔ components base <+: components path := by
  rw [startsWith, List.isPrefixOf_iff_prefix]

/-- What a path stands below, without being it, all but its last component stand below too. -/
theorem prefix_dropLast_of_startsWith {path dir : String} (h : startsWith path dir = true)
    (hOther : ¬Same path dir) : components dir <+: (components path).dropLast := by
  have hPrefix := startsWith_iff.mp h
  have hWhole : components path ≠ [] := by
    intro hNil
    rw [hNil, List.prefix_nil] at hPrefix
    exact hOther (hNil.trans hPrefix.symm)
  rw [← List.dropLast_concat_getLast hWhole, List.prefix_concat_iff,
    List.dropLast_concat_getLast hWhole] at hPrefix
  exact hPrefix.resolve_left fun hEq => hOther hEq.symm

end Standin.Path
