import Mathlib.Data.List.Infix
import Standin.Mock.Match
import Standin.Proofs.Module.Stripping

namespace Standin.Text

theorem contains_iff_isInfix (needle s : List Char) : contains needle s = true ↔ needle <:+: s := by
  induction s with
  | nil => simp [contains]
  | cons c rest ih =>
    rw [contains, Bool.or_eq_true, List.isPrefixOf_iff_prefix, ih, List.infix_cons_iff]

theorem replaceChar_undo {old new : Char} {s : List Char} (h : new ∉ s) :
    replaceChar new old (replaceChar old new s) = s := by
  rw [replaceChar, replaceChar, List.map_map]
  refine (List.map_congr_left fun c hc => ?_).trans (List.map_id s)
  have hne : c ≠ new := fun hEq => h (hEq ▸ hc)
  by_cases hOld : c = old
  · simp [hOld]
  · simp [hOld, hne]

/-- A text without the two characters of a replacement stands where it stood before. -/
theorem infix_replaceChar_iff {old new : Char} {needle : List Char} (hOld : old ∉ needle)
    (hNew : new ∉ needle) (s : List Char) :
    needle <:+: replaceChar old new s ↔ needle <:+: s := by
  constructor
  · rintro ⟨front, back, hText⟩
    obtain ⟨s₁, s₂, rfl, hFront, -⟩ := List.map_eq_append_iff.mp hText.symm
    obtain ⟨t₁, t₂, rfl, -, hNeedle⟩ := List.map_eq_append_iff.mp hFront
    have hUntouched : old ∉ t₂ := by
      intro hMem
      refine hNew (hNeedle ▸ List.mem_map.mpr ⟨old, hMem, ?_⟩)
      rw [if_pos rfl]
    have hSame : t₂ = needle := (replaceChar_of_notMem hUntouched).symm.trans hNeedle
    exact ⟨t₁, s₂, by rw [hSame]⟩
  · rintro ⟨front, back, rfl⟩
    refine ⟨replaceChar old new front, replaceChar old new back, ?_⟩
    rw [replaceChar_append, replaceChar_append, replaceChar_of_notMem hOld]

end Standin.Text

namespace Standin.Module

open Standin.Text

def flatName (specifier : List Char) : List Char := replaceChar '/' '_' specifier

/-- The id of the copy of a specifier, below a directory and with a query behind it. -/
def copyId (dir specifier query : String) : String :=
  dir ++ String.ofList ("/deps/".toList ++ flatName specifier.toList ++ ".js".toList) ++ query

/-- No character of the text means anything but itself in the name of a copy; letters, digits and
the signs `-`, `_`, `.`, `@` and `/` never do. -/
def IsPackageText (s : List Char) : Prop :=
  ∀ c ∈ s, isMark c = false ∧ c ≠ '\\' ∧ c ≠ '\n'

instance (s : List Char) : Decidable (IsPackageText s) := List.decidableBAll _ s

theorem afterDeps?_cons {c : Char} {rest : List Char} (hRest : afterDeps? rest = none)
    (hLead : ¬"/deps/".toList <+: c :: rest) : afterDeps? (c :: rest) = none := by
  have hPrefix : "/deps/".toList.isPrefixOf (c :: rest) = false :=
    Bool.eq_false_iff.mpr fun hPrefix => hLead (List.isPrefixOf_iff_prefix.mp hPrefix)
  rw [afterDeps?, hRest, hPrefix]
  simp

theorem not_deps_isPrefix {c : Char} (h : c ≠ '/') (rest : List Char) :
    ¬"/deps/".toList <+: c :: rest := by
  rintro ⟨back, hText⟩
  exact h (List.cons.inj hText).1.symm

theorem afterDeps?_of_noSlash {name : List Char} (h : '/' ∉ name) : afterDeps? name = none := by
  induction name with
  | nil => rfl
  | cons c rest ih =>
    have hc : c ≠ '/' := fun hEq => h (hEq ▸ List.mem_cons_self)
    exact afterDeps?_cons (ih fun hMem => h (List.mem_cons_of_mem _ hMem)) (not_deps_isPrefix hc rest)

/-- The name of a copy follows the last `/deps/`, since it has no slash itself. -/
theorem afterDeps?_append {dir name : List Char} (hDir : '\n' ∉ dir) (hName : '/' ∉ name) :
    afterDeps? (dir ++ ("/deps/".toList ++ name)) = some name := by
  induction dir with
  | nil =>
    have hSlash : afterDeps? ('/' :: name) = none := by
      refine afterDeps?_cons (afterDeps?_of_noSlash hName) ?_
      rintro ⟨back, hText⟩
      have hInside : name = "deps/".toList ++ back := (List.cons.inj hText).2.symm
      exact hName (hInside ▸ List.mem_append_left _ (by decide))
    have hLetters : afterDeps? ("deps".toList ++ '/' :: name) = none :=
      afterDeps?_cons (afterDeps?_cons (afterDeps?_cons (afterDeps?_cons hSlash
        (not_deps_isPrefix (by decide) _)) (not_deps_isPrefix (by decide) _))
        (not_deps_isPrefix (by decide) _)) (not_deps_isPrefix (by decide) _)
    have hText : [] ++ ("/deps/".toList ++ name) = '/' :: ("deps".toList ++ '/' :: name) := rfl
    have hPrefix : "/deps/".toList.isPrefixOf ('/' :: ("deps".toList ++ '/' :: name)) = true :=
      List.isPrefixOf_iff_prefix.mpr ⟨name, rfl⟩
    rw [hText, afterDeps?, hLetters, if_neg (by decide)]
    dsimp only
    rw [if_pos hPrefix]
    rfl
  | cons c rest ih =>
    have hc : c ≠ '\n' := fun hEq => hDir (hEq ▸ List.mem_cons_self)
    rw [List.cons_append, afterDeps?, if_neg hc, ih fun hMem => hDir (List.mem_cons_of_mem _ hMem)]

theorem beforeScriptSuffix_append {name : List Char} (h : ¬".js".toList <:+: name) :
    beforeScriptSuffix (name ++ ".js".toList) = name := by
  induction name with
  | nil => rfl
  | cons c rest ih =>
    rw [List.infix_cons_iff, not_or] at h
    have hLead : ¬".js".toList <+: c :: (rest ++ ".js".toList) := by
      rintro ⟨back, hText⟩
      obtain ⟨hDot, hMore⟩ := List.cons.inj hText
      -- the text found cannot begin in the name and end in the suffix: no two dots are so near
      rcases rest with _ | ⟨d, _ | ⟨e, more⟩⟩
      · exact absurd (List.cons.inj hMore).1 (by decide)
      · exact absurd (List.cons.inj (List.cons.inj hMore).2).1 (by decide)
      · obtain ⟨hJ, hMore⟩ := List.cons.inj hMore
        obtain ⟨hS, -⟩ := List.cons.inj hMore
        exact h.1 ⟨more, by rw [← hDot, ← hJ, ← hS]; rfl⟩
    have hTest : ".js".toList.isPrefixOf (c :: (rest ++ ".js".toList)) = false :=
      Bool.eq_false_iff.mpr fun hPrefix => hLead (List.isPrefixOf_iff_prefix.mp hPrefix)
    rw [List.cons_append, beforeScriptSuffix, hTest, if_neg (by simp), ih h.2]

theorem length_beforeScriptSuffix_lt {name : List Char} (h : ".js".toList <:+: name)
    {more : List Char} (hLine : '\n' ∉ name ++ more) :
    (beforeScriptSuffix (name ++ more)).length < name.length := by
  induction name with
  | nil => simp at h
  | cons c rest ih =>
    have hRest : '\n' ∉ rest ++ more := fun hMem => hLine (List.mem_cons_of_mem _ hMem)
    rw [List.cons_append, beforeScriptSuffix]
    by_cases hTest : ".js".toList.isPrefixOf (c :: (rest ++ more)) ∧ '\n' ∉ (rest ++ more).drop 2
    · rw [if_pos hTest]
      simp
    · have hLead : ¬".js".toList <+: c :: rest := by
        intro hPrefix
        have hWhole : ".js".toList <+: c :: (rest ++ more) :=
          hPrefix.trans (List.prefix_append (c :: rest) more)
        exact hTest ⟨List.isPrefixOf_iff_prefix.mpr hWhole, fun hMem =>
          hRest (List.mem_of_mem_drop hMem)⟩
      have hShorter := ih ((List.infix_cons_iff.mp h).resolve_left hLead) hRest
      rw [if_neg hTest]
      simpa using hShorter

/-- The specifier can be told from its flat name. -/
structure Recoverable (s : List Char) : Prop where
  noUnderscore : '_' ∉ s
  noSuffix : ¬".js".toList <:+: s

theorem noSlash_flatName (s : List Char) : '/' ∉ flatName s ++ ".js".toList := by
  have hSuffix : '/' ∉ ".js".toList := by decide
  intro hMem
  rcases List.mem_append.mp hMem with hMem | hMem
  · exact notMem_replaceChar (by decide) s hMem
  · exact hSuffix hMem

theorem IsPackageText.append {s t : List Char} (hs : IsPackageText s) (ht : IsPackageText t) :
    IsPackageText (s ++ t) := by
  intro c hc
  rcases List.mem_append.mp hc with hc | hc
  · exact hs c hc
  · exact ht c hc

/-- A flat name is as free of special characters as the specifier. -/
theorem IsPackageText.flatName {s : List Char} (h : IsPackageText s) :
    IsPackageText (flatName s ++ ".js".toList) := by
  have hName : IsPackageText (Module.flatName s) := by
    intro c hc
    by_cases hNew : c = '_'
    · subst hNew
      decide
    · exact h c (mem_of_mem_replaceChar hc hNew).1
  exact hName.append (by decide)

theorem stripChars_copyId {dir specifier query : String} (hDir : Unmarked dir.toList)
    (hText : IsPackageText specifier.toList)
    (hQuery : query = "" ∨ query.toList.head? = some '?') :
    stripChars (copyId dir specifier query).toList =
      replaceChar '\\' '/' (withoutMarker dir.toList) ++
        ("/deps/".toList ++ (flatName specifier.toList ++ ".js".toList)) := by
  have hDeps : IsPackageText "/deps/".toList := by decide
  have hName := hDeps.append hText.flatName
  have hBackslash : '\\' ∉ "/deps/".toList ++ (flatName specifier.toList ++ ".js".toList) :=
    fun hMem => (hName _ hMem).2.1 rfl
  have hMark : ∀ c ∈ query.toList.head?, isMark c = true := by
    intro c hc
    rcases hQuery with rfl | hQuery
    · cases hc
    · rw [hQuery] at hc
      cases hc
      rfl
  have hUnmarked : Unmarked (dir.toList ++
      ("/deps/".toList ++ (flatName specifier.toList ++ ".js".toList))) := by
    intro c hc
    rcases List.mem_append.mp hc with hc | hc
    · exact hDir c hc
    · exact (hName c hc).1
  have hParts : (copyId dir specifier query).toList = dir.toList ++
      ("/deps/".toList ++ (flatName specifier.toList ++ ".js".toList)) ++ query.toList := by
    simp [copyId]
  rw [hParts, stripChars_append_query hUnmarked (by simp) hMark,
    withoutMarker_append (by simp), replaceChar_append, replaceChar_of_notMem hBackslash]

theorem cleanChars_of_stripChars {id dir name : List Char}
    (hStrip : stripChars id = dir ++ ("/deps/".toList ++ name)) (hLine : '\n' ∉ dir)
    (hName : '/' ∉ name) : cleanChars id = replaceChar '_' '/' (beforeScriptSuffix name) := by
  have hInside : contains "/deps/".toList (dir ++ ("/deps/".toList ++ name)) = true :=
    (contains_iff_isInfix _ _).mpr ⟨dir, name, by rw [List.append_assoc]⟩
  unfold cleanChars
  rw [hStrip]
  dsimp only
  rw [if_pos hInside, afterDeps?_append hLine hName, Option.getD_some]

/-- Cutting the suffix and putting slashes back gives the specifier if no underscore was its own and
the suffix found is the one that was added. -/
theorem decoded_eq_iff {s : List Char} (hLine : '\n' ∉ s) :
    replaceChar '_' '/' (beforeScriptSuffix (flatName s ++ ".js".toList)) = s ↔
      Recoverable s := by
  have hSuffix : ".js".toList <:+: flatName s ↔ ".js".toList <:+: s :=
    infix_replaceChar_iff (by decide) (by decide) s
  constructor
  · intro hEq
    refine ⟨hEq ▸ notMem_replaceChar (by decide) _, fun hInfix => ?_⟩
    have hLine' : '\n' ∉ flatName s ++ ".js".toList := by
      have hEnd : '\n' ∉ ".js".toList := by decide
      intro hMem
      rcases List.mem_append.mp hMem with hMem | hMem
      · exact hLine (mem_of_mem_replaceChar hMem (by decide)).1
      · exact hEnd hMem
    have hShorter := length_beforeScriptSuffix_lt (hSuffix.mpr hInfix) hLine'
    have hLength := congrArg List.length hEq
    simp only [replaceChar, flatName, List.length_map] at hLength hShorter
    omega
  · rintro ⟨hUnderscore, hInfix⟩
    rw [beforeScriptSuffix_append (mt hSuffix.mp hInfix)]
    exact replaceChar_undo hUnderscore

theorem clean_eq_iff (id s : String) : clean id = s ↔ cleanChars id.toList = s.toList := by
  rw [clean, ← String.toList_inj, String.toList_ofList]

/-- The place of a copy's id, once it is stripped. -/
theorem strip_copyId {dir specifier query : String} (hDir : Unmarked dir.toList)
    (hLine : '\n' ∉ dir.toList) (hText : IsPackageText specifier.toList)
    (hQuery : query = "" ∨ query.toList.head? = some '?') :
    ∃ place : String, Unmarked place.toList ∧ '\n' ∉ place.toList ∧
      strip (copyId dir specifier query) = copyId place specifier "" := by
  refine ⟨String.ofList (replaceChar '\\' '/' (withoutMarker dir.toList)), ?_, ?_, ?_⟩
  · intro c hc
    rw [String.toList_ofList] at hc
    by_cases hSlash : c = '/'
    · subst hSlash
      rfl
    · exact hDir c (mem_of_mem_withoutMarker (mem_of_mem_replaceChar hc hSlash).1)
  · rw [String.toList_ofList]
    intro hMem
    exact hLine (mem_of_mem_withoutMarker (mem_of_mem_replaceChar hMem (by decide)).1)
  · rw [strip, stripChars_copyId hDir hText hQuery, ← String.toList_inj]
    simp [copyId]

theorem clean_copyId_unmarked {dir specifier query : String} (hDir : Unmarked dir.toList)
    (hLine : '\n' ∉ dir.toList) (hText : IsPackageText specifier.toList)
    (hQuery : query = "" ∨ query.toList.head? = some '?') :
    clean (copyId dir specifier query) = specifier ↔ Recoverable specifier.toList := by
  have hPlace : '\n' ∉ replaceChar '\\' '/' (withoutMarker dir.toList) := fun hMem =>
    hLine (mem_of_mem_withoutMarker (mem_of_mem_replaceChar hMem (by decide)).1)
  have hName : '\n' ∉ specifier.toList := fun hMem => (hText _ hMem).2.2 rfl
  rw [clean_eq_iff, cleanChars_of_stripChars (stripChars_copyId hDir hText hQuery) hPlace
    (noSlash_flatName _), decoded_eq_iff hName]

/-- Only the directory is read of an id whose directory has a mark. -/
theorem clean_copyId_marked {dir : String} (hDir : ¬Unmarked dir.toList) (specifier query : String) :
    clean (copyId dir specifier query) = clean dir := by
  have hStrip : stripChars (copyId dir specifier query).toList = stripChars dir.toList := by
    rw [copyId, String.toList_append, String.toList_append, List.append_assoc,
      stripChars_append_of_mark hDir]
  rw [clean, clean, cleanChars, cleanChars, hStrip]

end Standin.Module

namespace Standin.Mock

open Standin.Module

/-- The id of a pre-bundled copy reduces to the specifier it was built from exactly if the specifier
has no underscore and no `.js` in it and the directory has no mark; and so a server finds the call of
that specifier under the id unless another call is registered at the id's own path. -/
theorem copy_found_iff_recoverable (dir specifier query : String) (hLine : '\n' ∉ dir.toList)
    (hText : IsPackageText specifier.toList)
    (hQuery : query = "" ∨ query.toList.head? = some '?') :
    (clean (copyId dir specifier query) = specifier ↔
      Unmarked dir.toList ∧ Recoverable specifier.toList ∨
        ¬Unmarked dir.toList ∧ clean dir = specifier) ∧
    ∀ (naming : Naming) (tree : FileTree) (m : Manifest),
      -- the id keeps its form: it names no file, or the file stays a copy when links are followed
      (naming = .asWritten ∧ Unmarked dir.toList ∨ ∃ place : String, Unmarked place.toList ∧
        '\n' ∉ place.toList ∧
        normalize naming tree (copyId dir specifier query) = copyId place specifier "") →
      m.atPath? (normalize naming tree (copyId dir specifier query)) = none → ∀ c,
      (MatchRule.cleanIdentity.find? naming tree m (copyId dir specifier query) = some c ∧
          c.cleanId = specifier ↔
        m.withCleanId? specifier = some c ∧ Recoverable specifier.toList) := by
  constructor
  · by_cases hDir : Unmarked dir.toList
    · rw [clean_copyId_unmarked hDir hLine hText hQuery]
      simp [hDir]
    · rw [clean_copyId_marked hDir]
      simp [hDir]
  · intro naming tree m hNormal hPath c
    have hPlace : ∃ place : String, Unmarked place.toList ∧ '\n' ∉ place.toList ∧
        normalize naming tree (copyId dir specifier query) = copyId place specifier "" := by
      rcases hNormal with ⟨rfl, hDir⟩ | hNormal
      · exact strip_copyId hDir hLine hText hQuery
      · exact hNormal
    obtain ⟨place, hPlain, hPlaceLine, hEq⟩ := hPlace
    have hClean : clean (normalize naming tree (copyId dir specifier query)) = specifier ↔
        Recoverable specifier.toList := by
      rw [hEq]
      exact clean_copyId_unmarked hPlain hPlaceLine hText (Or.inl rfl)
    have hFind : MatchRule.cleanIdentity.find? naming tree m (copyId dir specifier query) =
        m.withCleanId? (clean (normalize naming tree (copyId dir specifier query))) := by
      have hBoth : MatchRule.cleanIdentity.find? naming tree m (copyId dir specifier query) =
          (m.atPath? (normalize naming tree (copyId dir specifier query))).or
            (m.withCleanId? (clean (normalize naming tree (copyId dir specifier query)))) := rfl
      rw [hBoth, hPath, Option.none_or]
    rw [hFind]
    constructor
    · rintro ⟨hFound, hCleanId⟩
      have hOwn : c.cleanId = clean (normalize naming tree (copyId dir specifier query)) := by
        simpa [Manifest.withCleanId?] using List.find?_some hFound
      have hBack := hOwn.symm.trans hCleanId
      exact ⟨hBack ▸ hFound, hClean.mp hBack⟩
    · rintro ⟨hFound, hRecoverable⟩
      rw [hClean.mpr hRecoverable]
      exact ⟨hFound, by simpa [Manifest.withCleanId?] using List.find?_some hFound⟩

def packages : Manifest := (Manifest.ofCalls [
  { specifier := "chart.js", path := "/p/chart.js" },
  { specifier := "my_pkg", path := "/p/my_pkg.js" },
  { specifier := "@scope/pkg", path := "/p/pkg.js" }]).1

/-- The copy of a scoped package is recognized; the copy of a package is not if its name holds `.js`
or an underscore. -/
theorem chart_copy_not_recognized :
    (∃ c, MatchRule.cleanIdentity.find? .asWritten .empty packages
        (copyId "/p/.vite" "@scope/pkg" "?v=1") = some c ∧ c.cleanId = "@scope/pkg") ∧
      clean (copyId "/p/.vite" "chart.js" "?v=1") ≠ "chart.js" ∧
      (∀ c, MatchRule.cleanIdentity.find? .asWritten .empty packages
        (copyId "/p/.vite" "chart.js" "?v=1") = some c → c.cleanId ≠ "chart.js") ∧
      clean (copyId "/p/.vite" "my_pkg" "") ≠ "my_pkg" := by
  have hDir : Unmarked "/p/.vite".toList := by decide
  have hLine : '\n' ∉ "/p/.vite".toList := by decide
  have hChart : ¬Recoverable "chart.js".toList := fun h => h.noSuffix (by decide)
  have hUnderscore : ¬Recoverable "my_pkg".toList := fun h => h.noUnderscore (by decide)
  obtain ⟨hChartClean, hChartFound⟩ := copy_found_iff_recoverable "/p/.vite" "chart.js" "?v=1" hLine
    (by decide) (by decide)
  obtain ⟨hPkgClean, -⟩ := copy_found_iff_recoverable "/p/.vite" "my_pkg" "" hLine
    (by decide) (by decide)
  obtain ⟨-, hScopedFound⟩ := copy_found_iff_recoverable "/p/.vite" "@scope/pkg" "?v=1" hLine
    (by decide) (by decide)
  refine ⟨?_, ?_, ?_, ?_⟩
  · have hCall : ∃ c, packages.withCleanId? "@scope/pkg" = some c :=
      Option.isSome_iff_exists.mp (by decide +kernel)
    obtain ⟨c, hc⟩ := hCall
    exact ⟨c, (hScopedFound .asWritten .empty packages (Or.inl ⟨rfl, hDir⟩) (by decide +kernel) c).mpr
      ⟨hc, by decide, by decide⟩⟩
  · intro hEq
    rcases hChartClean.mp hEq with ⟨-, h⟩ | ⟨h, -⟩
    · exact hChart h
    · exact h hDir
  · intro c hFound hCleanId
    exact hChart ((hChartFound .asWritten .empty packages (Or.inl ⟨rfl, hDir⟩) (by decide +kernel)
      c).mp ⟨hFound, hCleanId⟩).2
  · intro hEq
    rcases hPkgClean.mp hEq with ⟨-, h⟩ | ⟨h, -⟩
    · exact hUnderscore h
    · exact h hDir

end Standin.Mock
