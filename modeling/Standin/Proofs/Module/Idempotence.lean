import Standin.Proofs.FileTree.Spellings
import Standin.Proofs.Module.FileIdentity

namespace Standin.FileTree

open Standin.Path

variable {tree : FileTree} {path real : String}

/-- A real path is its own real path. -/
theorem realPath?_of_realPath? (h : tree.realPath? path = some real) :
    tree.realPath? real = some real := by
  obtain ⟨place, hPlace, hReal⟩ := realPath?_eq_some_iff.mp h
  rw [← hReal]
  exact realPath?_eq_some_iff.mpr ⟨place, locate_pathOf hPlace, rfl⟩

theorem mem_pathOf {names : List String} {c : Char} (h : c ∈ (pathOf names).toList) :
    c = '/' ∨ ∃ name ∈ names, c ∈ name.toList := by
  by_cases hNil : names = []
  · subst hNil
    exact Or.inl (List.mem_singleton.mp h)
  · rw [toList_pathOf hNil] at h
    obtain ⟨name, hName, hc⟩ := List.mem_flatMap.mp h
    rcases List.mem_cons.mp hc with hSlash | hc
    · exact Or.inl hSlash
    · exact Or.inr ⟨name, hName, hc⟩

/-- In a tree without links a real path is written with the characters of the path that led there. -/
theorem Linkless.mem_of_realPath? (hTree : tree.Linkless) {c : Char}
    (h : tree.realPath? path = some real) (hc : c ∈ real.toList) : c ∈ path.toList := by
  obtain ⟨place, hPlace, hReal⟩ := realPath?_eq_some_iff.mp h
  have hAbsolute := isAbsolute_of_locate hPlace
  rw [← hReal] at hc
  rcases mem_pathOf hc with hSlash | ⟨name, hName, hc⟩
  · obtain ⟨rest, hRest⟩ := exists_rest_of_isAbsolute hAbsolute
    simp [hSlash, hRest]
  · rw [names_of_locate hTree hPlace, components_of_isAbsolute hAbsolute] at hName
    have hStep : .name name ∈ stepsOf path.toList := by
      rcases mem_settle hName with hNone | hMem
      · cases hNone
      · simpa using hMem
    exact mem_of_mem_stepsOf hStep hc

end Standin.FileTree

namespace Standin.Module

open Standin.Text Standin.Path Standin.FileTree

/-- Two NULs lead the id. -/
def TwiceMarked (id : String) : Prop := ['\x00', '\x00'] <+: id.toList

instance (id : String) : Decidable (TwiceMarked id) := inferInstanceAs (Decidable (_ <+: _))

theorem withoutMarker_eq_self_iff {s : List Char} :
    withoutMarker s = s ↔ s.head? ≠ some '\x00' := by
  cases s with
  | nil => simp [withoutMarker]
  | cons c rest =>
    by_cases hc : c = '\x00'
    · subst hc
      simp [withoutMarker]
    · simp [withoutMarker_cons hc, hc]

/-- Only a marker is taken from what was stripped. -/
theorem strip_strip (id : String) :
    strip (strip id) = String.ofList (withoutMarker (strip id).toList) := by
  have hMarks : Unmarked (withoutMarker (strip id).toList) :=
    fun c hc => unmarked_strip id c (mem_of_mem_withoutMarker hc)
  have hSlashes : '\\' ∉ withoutMarker (strip id).toList :=
    fun hMem => notMem_strip id (mem_of_mem_withoutMarker hMem)
  rw [strip, stripChars_eq, before_isMark_iff.mpr hMarks, replaceChar_of_notMem hSlashes]

/-- A NUL leads a stripped id exactly if two led the id. -/
theorem head?_strip_iff {id : String} :
    (strip id).toList.head? = some '\x00' ↔ TwiceMarked id := by
  have hRead (c : Char) (s : List Char) :
      (replaceChar '\\' '/' (before isMark (c :: s))).head? = some '\x00' ↔ c = '\x00' := by
    rw [before, List.takeWhile_cons]
    by_cases hMark : isMark c = true
    · have hc : c ≠ '\x00' := by
        intro hEq
        simp [hEq, isMark] at hMark
      simp [hMark, hc, replaceChar]
    · by_cases hSlash : c = '\\'
      · simp [hSlash, replaceChar, isMark]
      · simp [hMark, hSlash, replaceChar]
  rw [strip, String.toList_ofList, stripChars_eq, TwiceMarked]
  cases hText : id.toList with
  | nil => simp [withoutMarker, before, replaceChar]
  | cons c rest =>
    by_cases hc : c = '\x00'
    · subst hc
      cases rest with
      | nil => simp [withoutMarker, before, replaceChar]
      | cons d more => simp [withoutMarker, hRead, eq_comm]
    · simp [withoutMarker_cons hc, hRead, hc, eq_comm]

theorem strip_idempotent_iff {id : String} : strip (strip id) = strip id ↔ ¬TwiceMarked id := by
  rw [strip_strip, ← head?_strip_iff, ← ne_eq, ← withoutMarker_eq_self_iff]
  rw [← String.toList_inj, String.toList_ofList]

/-- What is read of a real path leads to a place of the same normal form, or nowhere and is all of
it. -/
def ReadsBack (tree : FileTree) (real : String) : Prop :=
  (∃ other, tree.realPath? (strip real) = some other ∧ slashed other = slashed real) ∨
    (tree.realPath? (strip real) = none ∧ Unmarked real.toList)

theorem isAbsolute_slashed {real : String} (h : isAbsolute real = true) :
    isAbsolute (slashed real) = true := by
  obtain ⟨rest, hRest⟩ := exists_rest_of_isAbsolute h
  simp [isAbsolute, slashed, hRest, replaceChar]

/-- Backslashes are read as slashes. -/
theorem strip_slashed {real : String} (h : isAbsolute real = true) :
    strip (slashed real) = strip real := by
  have hMarks : isMark '\\' = isMark '/' := rfl
  have hOnce : '\\' ∉ replaceChar '\\' '/' (before isMark real.toList) :=
    notMem_replaceChar (by decide) _
  rw [strip_of_isAbsolute (isAbsolute_slashed h), strip_of_isAbsolute h, slashed,
    String.toList_ofList, before_replaceChar hMarks, replaceChar_of_notMem hOnce]

/-- A real path without marks is read to its end. -/
theorem strip_eq_slashed_iff {real : String} (h : isAbsolute real = true) :
    strip real = slashed real ↔ Unmarked real.toList := by
  rw [strip_of_isAbsolute h, slashed, ← before_isMark_iff]
  constructor
  · intro hEq
    have hLength := congrArg (·.toList.length) hEq
    simp only [String.toList_ofList, replaceChar, List.length_map] at hLength
    exact List.IsPrefix.eq_of_length (List.takeWhile_prefix _) hLength
  · intro hWhole
    rw [hWhole]

section Normalize

variable {tree : FileTree} {id real : String}

theorem not_twiceMarked_of_real (h : tree.realPath? (strip id) = some real) : ¬TwiceMarked id := by
  intro hTwice
  obtain ⟨rest, hRest⟩ := exists_rest_of_isAbsolute (isAbsolute_of_realPath? h).1
  have hHead := head?_strip_iff.mpr hTwice
  simp [hRest] at hHead

/-- The normal form of a file is read again through its real path. -/
theorem normalize_again_of_real (h : tree.realPath? (strip id) = some real) :
    normalize .followingLinks tree (normalize .followingLinks tree id) =
      normalize .followingLinks tree id ↔ ReadsBack tree real := by
  have hAbsolute := (isAbsolute_of_realPath? h).2
  have hRead := strip_slashed hAbsolute
  rw [normalize_of_real h, ReadsBack]
  cases hAgain : tree.realPath? (strip real) with
  | none =>
    have hNowhere : tree.realPath? (strip (slashed real)) = none := by rw [hRead, hAgain]
    rw [normalize_of_nowhere hNowhere, hRead, strip_eq_slashed_iff hAbsolute]
    simp
  | some other =>
    have hThere : tree.realPath? (strip (slashed real)) = some other := by rw [hRead, hAgain]
    rw [normalize_of_real hThere]
    simp

/-- An id that leads nowhere is read again as it was stripped. -/
theorem normalize_again_of_nowhere (h : tree.realPath? (strip id) = none) :
    normalize .followingLinks tree (normalize .followingLinks tree id) =
      normalize .followingLinks tree id ↔ ¬TwiceMarked id := by
  rw [normalize_of_nowhere h]
  constructor
  · intro hAgain hTwice
    cases hReal : tree.realPath? (strip (strip id)) with
    | none =>
      rw [normalize_of_nowhere hReal] at hAgain
      exact strip_idempotent_iff.mp hAgain hTwice
    | some real =>
      -- a real path begins with a slash, and no marker is one
      rw [normalize_of_real hReal] at hAgain
      obtain ⟨rest, hRest⟩ :=
        exists_rest_of_isAbsolute (isAbsolute_slashed (isAbsolute_of_realPath? hReal).2)
      have hHead := head?_strip_iff.mpr hTwice
      rw [← hAgain, hRest] at hHead
      simp at hHead
  · intro hOnce
    have hStrip := strip_idempotent_iff.mpr hOnce
    have hNowhere : tree.realPath? (strip (strip id)) = none := by rw [hStrip, h]
    rw [normalize_of_nowhere hNowhere, hStrip]

theorem readsBack_of_plain (h : tree.realPath? (strip id) = some real)
    (hMarks : Unmarked real.toList) (hSlashes : '\\' ∉ real.toList) : ReadsBack tree real := by
  refine Or.inl ⟨real, ?_, rfl⟩
  rw [strip_of_unmarked (isAbsolute_of_realPath? h).2 hSlashes hMarks]
  exact realPath?_of_realPath? h

theorem readsBack_of_linkless (hTree : tree.Linkless) (h : tree.realPath? (strip id) = some real) :
    ReadsBack tree real := by
  refine readsBack_of_plain h ?_ ?_
  · intro c hc
    exact unmarked_strip id c (hTree.mem_of_realPath? h hc)
  · intro hMem
    exact notMem_strip id (hTree.mem_of_realPath? h hMem)

end Normalize

/-- Stripping a stripped id changes nothing exactly if at most one NUL led the id. Normalizing a
normal form changes nothing exactly if, besides, the real path of an id that leads somewhere is read
back, when links are followed. A real path without marks and backslashes is read back, and so is any
in a tree without links. -/
theorem normalize_idempotent_iff (naming : Naming) (tree : FileTree) (id : String) :
    (strip (strip id) = strip id ↔ ¬TwiceMarked id) ∧
    (normalize naming tree (normalize naming tree id) = normalize naming tree id ↔
      ¬TwiceMarked id ∧ (naming = .followingLinks →
        ∀ real ∈ tree.realPath? (strip id), ReadsBack tree real)) ∧
    (∀ real ∈ tree.realPath? (strip id), Unmarked real.toList → '\\' ∉ real.toList →
      ReadsBack tree real) ∧
    (tree.Linkless → ∀ real ∈ tree.realPath? (strip id), ReadsBack tree real) := by
  refine ⟨strip_idempotent_iff, ?_, fun real hReal => readsBack_of_plain hReal,
    fun hTree real hReal => readsBack_of_linkless hTree hReal⟩
  cases naming with
  | asWritten =>
    have hStrip (s : String) : normalize .asWritten tree s = strip s := rfl
    rw [hStrip, hStrip, strip_idempotent_iff]
    simp
  | followingLinks =>
    cases hReal : tree.realPath? (strip id) with
    | none =>
      rw [normalize_again_of_nowhere hReal]
      simp
    | some real =>
      rw [normalize_again_of_real hReal]
      simp [not_twiceMarked_of_real hReal]

/-- A link to a file with a mark in its name, and one to a file without. -/
def linkedFiles : FileTree := .dir [
  ("api.ts", .link "a#1.ts"), ("a#1.ts", .file []), ("b.ts", .link "c.ts"), ("c.ts", .file [])]

/-- A second NUL is taken by a second strip, and a mark in the name of a link's target cuts its normal
form; other links lead where they led. -/
theorem renormalized_differs : strip (strip "\x00\x00/a") ≠ strip "\x00\x00/a" ∧
    (normalize .followingLinks linkedFiles "/api.ts" = "/a#1.ts" ∧
      normalize .followingLinks linkedFiles "/a#1.ts" ≠ "/a#1.ts") ∧
    normalize .followingLinks linkedFiles "/b.ts?v=1" = "/c.ts" ∧
      normalize .followingLinks linkedFiles "/c.ts" = "/c.ts" := by
  obtain ⟨hStrip, -⟩ := normalize_idempotent_iff .asWritten linkedFiles "\x00\x00/a"
  obtain ⟨-, hMarked, -⟩ := normalize_idempotent_iff .followingLinks linkedFiles "/api.ts"
  obtain ⟨-, hPlain, hReads, -⟩ :=
    normalize_idempotent_iff .followingLinks linkedFiles "/b.ts?v=1"
  have hTarget : normalize .followingLinks linkedFiles "/api.ts" = "/a#1.ts" := by decide +kernel
  have hOther : normalize .followingLinks linkedFiles "/b.ts?v=1" = "/c.ts" := by decide +kernel
  have hReal : linkedFiles.realPath? (strip "/b.ts?v=1") = some "/c.ts" := by decide +kernel
  refine ⟨?_, ⟨hTarget, ?_⟩, hOther, ?_⟩
  · intro hSame
    exact hStrip.mp hSame (by decide)
  · intro hSame
    have hNowhere : linkedFiles.realPath? (strip "/a#1.ts") = none := by decide +kernel
    have hAgain := (congrArg (normalize .followingLinks linkedFiles) hTarget).trans hSame
    obtain ⟨-, hBack⟩ := hMarked.mp (hAgain.trans hTarget.symm)
    rcases hBack rfl "/a#1.ts" (by decide +kernel) with ⟨other, hThere, -⟩ | ⟨-, hMarks⟩
    · rw [hNowhere] at hThere
      cases hThere
    · exact absurd hMarks (by decide)
  · have hBack : ∀ real ∈ linkedFiles.realPath? (strip "/b.ts?v=1"),
        ReadsBack linkedFiles real := by
      rw [hReal]
      simpa using hReads "/c.ts" hReal (by decide) (by decide)
    have hAgain := hPlain.mpr ⟨by decide, fun _ => hBack⟩
    have hNormal := congrArg (normalize .followingLinks linkedFiles) hOther
    exact hNormal.symm.trans (hAgain.trans hOther)

end Standin.Module
