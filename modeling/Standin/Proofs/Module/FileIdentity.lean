import Standin.Mock.Match
import Standin.Proofs.FileTree.Walks
import Standin.Proofs.Mock.FirstCalls
import Standin.Proofs.Module.Stripping

namespace Standin.FileTree

/-- Real paths are compared by their text. -/
theorem same_real_iff {tree : FileTree} {p q real other : String}
    (hp : tree.realPath? p = some real) (hq : tree.realPath? q = some other) :
    Path.Same real other ↔ real = other := by
  obtain ⟨place, hPlace, rfl⟩ := realPath?_eq_some_iff.mp hp
  obtain ⟨there, hThere, rfl⟩ := realPath?_eq_some_iff.mp hq
  constructor
  · intro hSame
    rw [(same_pathOf_iff (isName_of_locate hPlace) (isName_of_locate hThere)).mp hSame]
  · rintro hEq
    rw [hEq]
    exact Path.Same.refl _

end Standin.FileTree

namespace Standin.Text

theorem exists_last_of_mem {c : Char} {s : List Char} (h : c ∈ s) :
    ∃ front back, s = front ++ c :: back ∧ c ∉ back := by
  obtain ⟨back, front, hText, hBack⟩ := List.eq_append_cons_of_mem (List.mem_reverse.mpr h)
  refine ⟨front.reverse, back.reverse, ?_, by simpa using hBack⟩
  rw [← List.reverse_reverse s, hText]
  simp

end Standin.Text

namespace Standin.Module

open Standin.Text Standin.Path Standin.FileTree

/-- Neither a path nor the real path of what is read of it has a backslash. -/
structure NoBackslash (tree : FileTree) (path : String) : Prop where
  text : '\\' ∉ path.toList
  real : ∀ real ∈ tree.realPath? (strip path), '\\' ∉ real.toList

/-- Two paths lead to one place, or to none and are one path. -/
def LeadAlike (tree : FileTree) (p q : String) : Prop :=
  (∃ real, tree.realPath? p = some real ∧ tree.realPath? q = some real) ∨
    (tree.realPath? p = none ∧ tree.realPath? q = none ∧ Same p q)

def slashed (real : String) : String := String.ofList (replaceChar '\\' '/' real.toList)

variable {tree : FileTree} {p q : String}

/-- No marker leads an absolute path. -/
theorem strip_of_isAbsolute (hAbsolute : isAbsolute p = true) :
    strip p = String.ofList (replaceChar '\\' '/' (before isMark p.toList)) := by
  obtain ⟨rest, hRest⟩ := exists_rest_of_isAbsolute hAbsolute
  have hMarker : withoutMarker p.toList = p.toList := by
    rw [hRest, withoutMarker_cons (by decide)]
  rw [strip, stripChars_eq, hMarker]

theorem strip_of_noBackslash (hAbsolute : isAbsolute p = true) (hText : '\\' ∉ p.toList) :
    strip p = String.ofList (before isMark p.toList) := by
  have hBefore : '\\' ∉ before isMark p.toList := fun hMem =>
    hText ((List.takeWhile_sublist _).subset hMem)
  rw [strip_of_isAbsolute hAbsolute, replaceChar_of_notMem hBefore]

theorem strip_of_unmarked (hAbsolute : isAbsolute p = true) (hText : '\\' ∉ p.toList)
    (hMarks : Unmarked p.toList) : strip p = p := by
  rw [strip_of_noBackslash hAbsolute hText, before_isMark_iff.mpr hMarks, String.ofList_toList]

theorem slashed_of_notMem {real : String} (h : '\\' ∉ real.toList) : slashed real = real := by
  rw [slashed, replaceChar_of_notMem h, String.ofList_toList]

theorem normalize_of_real {real : String} (h : tree.realPath? (strip p) = some real) :
    normalize .followingLinks tree p = slashed real := by
  rw [normalize, resolved, h]
  rfl

theorem normalize_of_nowhere (h : tree.realPath? (strip p) = none) :
    normalize .followingLinks tree p = strip p := by
  rw [normalize, resolved, h]

theorem normalize_of_noBackslash (h : NoBackslash tree p) :
    normalize .followingLinks tree p = (tree.realPath? (strip p)).getD (strip p) := by
  cases hReal : tree.realPath? (strip p) with
  | none => exact normalize_of_nowhere hReal
  | some real =>
    rw [normalize_of_real hReal, slashed_of_notMem (h.real real hReal), Option.getD_some]

/-- What is read of a path ends behind its last slash or later: the whole path goes on from there. -/
theorem exists_last_name (hAbsolute : isAbsolute p = true) (hText : '\\' ∉ p.toList) :
    ∃ dir name rest, p = String.ofList (dir ++ '/' :: (name ++ rest)) ∧
      strip p = String.ofList (dir ++ '/' :: name) ∧ '/' ∉ name := by
  obtain ⟨more, hMore⟩ := exists_rest_of_isAbsolute hAbsolute
  have hSlash : '/' ∈ before isMark p.toList := by
    rw [hMore, before, List.takeWhile_cons]
    simp [isMark]
  obtain ⟨dir, name, hRead, hName⟩ := exists_last_of_mem hSlash
  have hWhole : before isMark p.toList ++ p.toList.dropWhile (fun c => !isMark c) = p.toList :=
    List.takeWhile_append_dropWhile
  refine ⟨dir, name, p.toList.dropWhile fun c => !isMark c, ?_, ?_, hName⟩
  · rw [← String.toList_inj, String.toList_ofList, ← List.cons_append, ← List.append_assoc, ← hRead,
      hWhole]
  · rw [strip_of_noBackslash hAbsolute hText, hRead]

/-- What is read of the path of a file leads somewhere if it is the path of some place. -/
theorem exists_place_of_same {real : String} (hFile : tree.isFile p = true)
    (hText : '\\' ∉ p.toList) (hReal : tree.realPath? q = some real) (hSame : Same (strip p) real) :
    ∃ there, tree.locate (strip p) = .ok there := by
  obtain ⟨place, hPlace⟩ := exists_place_of_isFile hFile
  have hAbsolute := isAbsolute_of_locate hPlace
  obtain ⟨there, hThere, rfl⟩ := realPath?_eq_some_iff.mp hReal
  obtain ⟨hNode, hLink⟩ := at?_of_locate hThere
  obtain ⟨dir, name, rest, hPath, hStrip, hName⟩ := exists_last_name hAbsolute hText
  rw [hPath] at hPlace
  have hDir : isAbsolute (String.ofList (dir ++ ['/'])) = true := by
    rw [hPath, isAbsolute_ofList_append] at hAbsolute
    exact hAbsolute
  have hSteps : stepsOf (dir ++ '/' :: name) = there.names.map .name := by
    have hStripped : isAbsolute (String.ofList (dir ++ '/' :: name)) = true := by
      rw [isAbsolute_ofList_append, hDir]
    rw [Same, components_pathOf (isName_of_locate hThere), hStrip,
      components_of_isAbsolute hStripped, String.toList_ofList] at hSame
    exact (List.cons.inj hSame).2
  rw [hStrip]
  exact located_of_longer hName hDir hPlace hSteps hNode hLink

theorem sameNormal_iff (hp : tree.isFile p = true) (hq : tree.isFile q = true)
    (hpPlain : NoBackslash tree p) (hqPlain : NoBackslash tree q) :
    Same (normalize .followingLinks tree p) (normalize .followingLinks tree q) ↔
      LeadAlike tree (strip p) (strip q) := by
  have hNowhere {a b real : String} (ha : tree.isFile a = true) (hText : '\\' ∉ a.toList)
      (hNone : tree.realPath? (strip a) = none) (hReal : tree.realPath? b = some real) :
      ¬Same (strip a) real := by
    intro hSame
    obtain ⟨there, hThere⟩ := exists_place_of_same ha hText hReal hSame
    rw [realPath?, hThere] at hNone
    cases hNone
  rw [normalize_of_noBackslash hpPlain, normalize_of_noBackslash hqPlain, LeadAlike]
  cases hpReal : tree.realPath? (strip p) with
  | none =>
    cases hqReal : tree.realPath? (strip q) with
    | none => simp
    | some real => simpa using hNowhere hp hpPlain.text hpReal hqReal
  | some real =>
    cases hqReal : tree.realPath? (strip q) with
    | none =>
      have hApart : ¬Same real (strip q) := fun hSame =>
        hNowhere hq hqPlain.text hqReal hpReal hSame.symm
      simpa using hApart
    | some other => simpa [eq_comm] using same_real_iff hpReal hqReal

end Standin.Module

namespace Standin.Mock

open Standin.Path Standin.FileTree Standin.Module

/-- Of two files' paths without backslashes, the normal forms are one path exactly if what stands
before the first `?` or `#` leads to one place, or to none and is one path. If neither sign stands in
them, this is so for the paths of one file only; and a path finds a call of the other's normal form
if and only if the normal forms are one path. -/
theorem sameNormal_iff_leadAlike (tree : FileTree) (p q : String) (hp : tree.isFile p = true)
    (hq : tree.isFile q = true) (hpPlain : NoBackslash tree p) (hqPlain : NoBackslash tree q) :
    (Same (normalize .followingLinks tree p) (normalize .followingLinks tree q) ↔
      LeadAlike tree (strip p) (strip q)) ∧
    (Unmarked p.toList → Unmarked q.toList →
      (Same (normalize .followingLinks tree p) (normalize .followingLinks tree q) ↔
        tree.realPath? p = tree.realPath? q)) ∧
    ∀ (m : Manifest) (c : Call), c ∈ m.calls → c.path = normalize .followingLinks tree p →
      (MatchRule.exactPath.find? .followingLinks tree m q = some c ↔
        LeadAlike tree (strip p) (strip q)) := by
  have hIff := sameNormal_iff hp hq hpPlain hqPlain
  refine ⟨hIff, fun hpMarks hqMarks => ?_, fun m c hc hPath => ?_⟩
  · obtain ⟨place, hPlace⟩ := exists_place_of_isFile hp
    obtain ⟨there, hThere⟩ := exists_place_of_isFile hq
    have hpReal : tree.realPath? p = some (pathOf place.names) := by rw [realPath?, hPlace]
    have hqReal : tree.realPath? q = some (pathOf there.names) := by rw [realPath?, hThere]
    rw [hIff, LeadAlike, strip_of_unmarked (isAbsolute_of_locate hPlace) hpPlain.text hpMarks,
      strip_of_unmarked (isAbsolute_of_locate hThere) hqPlain.text hqMarks, hpReal, hqReal]
    simp [eq_comm]
  · have hFind : MatchRule.exactPath.find? .followingLinks tree m q =
        m.atPath? (normalize .followingLinks tree q) := rfl
    rw [hFind, Manifest.atPath?_eq_some_iff, hPath, hIff]
    exact and_iff_right hc

def hashed : FileTree := .dir [
  ("a#1.ts", .file []), ("a#2.ts", .file []), ("b.ts", .file []), ("c.ts", .link "/b.ts")]

/-- A link and its target are one module, and so are two files whose names differ behind a `#`. -/
theorem hashed_files_merged :
    (Same (normalize .followingLinks hashed "/b.ts") (normalize .followingLinks hashed "/c.ts") ∧
      hashed.realPath? "/b.ts" = hashed.realPath? "/c.ts") ∧
    Same (normalize .followingLinks hashed "/a#1.ts") (normalize .followingLinks hashed "/a#2.ts") ∧
      hashed.realPath? "/a#1.ts" ≠ hashed.realPath? "/a#2.ts" ∧
      ∀ (m : Manifest) (c : Call), c ∈ m.calls →
        c.path = normalize .followingLinks hashed "/a#1.ts" →
        MatchRule.exactPath.find? .followingLinks hashed m "/a#2.ts" = some c := by
  have hTarget : NoBackslash hashed "/b.ts" := ⟨by decide, by decide +kernel⟩
  have hLink : NoBackslash hashed "/c.ts" := ⟨by decide, by decide +kernel⟩
  have hFirst : NoBackslash hashed "/a#1.ts" := ⟨by decide, by decide +kernel⟩
  have hSecond : NoBackslash hashed "/a#2.ts" := ⟨by decide, by decide +kernel⟩
  obtain ⟨-, hLinked, -⟩ := sameNormal_iff_leadAlike hashed "/b.ts" "/c.ts" (by decide +kernel)
    (by decide +kernel) hTarget hLink
  obtain ⟨hMerged, -, hFound⟩ := sameNormal_iff_leadAlike hashed "/a#1.ts" "/a#2.ts"
    (by decide +kernel) (by decide +kernel) hFirst hSecond
  have hReal : hashed.realPath? "/b.ts" = hashed.realPath? "/c.ts" := by decide +kernel
  have hAlike : LeadAlike hashed (strip "/a#1.ts") (strip "/a#2.ts") :=
    Or.inr ⟨by decide +kernel, by decide +kernel, by decide +kernel⟩
  refine ⟨⟨(hLinked (by decide) (by decide)).mpr hReal, hReal⟩, hMerged.mpr hAlike,
    by decide +kernel, ?_⟩
  intro m c hc hPath
  exact (hFound m c hc hPath).mpr hAlike

end Standin.Mock
