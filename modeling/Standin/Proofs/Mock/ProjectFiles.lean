import Standin.Proofs.Mock.ManualPlaces
import Standin.Proofs.Module.BundledIds
import Standin.Proofs.Path.Components

namespace Standin.Module

open Standin.Text

/-- The text is cut at the last `/deps/` on its first line. -/
structure CutAtDeps (text dir name : List Char) : Prop where
  parts : text = dir ++ ("/deps/".toList ++ name)
  firstLine : '\n' ∉ dir
  last : ∀ before behind, text = before ++ ("/deps/".toList ++ behind) → '\n' ∉ before →
    before.length ≤ dir.length

/-- `.js` and what follows it on the last line. -/
def IsScriptSuffix (s : List Char) : Prop := ∃ tail, s = ".js".toList ++ tail ∧ '\n' ∉ tail

/-- The name is cut at its first script suffix; without one it is whole. -/
structure CutAtSuffix (name stem : List Char) : Prop where
  parts : stem = name ∨ ∃ suffix, name = stem ++ suffix ∧ IsScriptSuffix suffix
  first : ∀ before suffix, name = before ++ suffix → IsScriptSuffix suffix →
    stem.length ≤ before.length

/-- The path stands below a directory `deps`, under the flat name of a specifier. -/
def TakenForCopy (path specifier : List Char) : Prop :=
  ∃ dir name stem, CutAtDeps path dir name ∧ CutAtSuffix name stem ∧
    specifier = replaceChar '_' '/' stem

variable {text dir name stem other specifier : List Char}

theorem CutAtDeps.unique {place rest : List Char} (h : CutAtDeps text dir name)
    (k : CutAtDeps text place rest) : name = rest := by
  have hLength : dir.length = place.length :=
    Nat.le_antisymm (k.last _ _ h.parts h.firstLine) (h.last _ _ k.parts k.firstLine)
  have hParts := h.parts.symm.trans k.parts
  obtain ⟨-, hRest⟩ := List.append_inj hParts hLength
  exact List.append_cancel_left hRest

/-- A `/deps/` on the first line is not missed. -/
theorem afterDeps?_ne_none (hLine : '\n' ∉ dir) :
    afterDeps? (dir ++ ("/deps/".toList ++ name)) ≠ none := by
  induction dir with
  | nil =>
    have hPrefix : "/deps/".toList.isPrefixOf ("/deps/".toList ++ name) = true :=
      List.isPrefixOf_iff_prefix.mpr (List.prefix_append _ _)
    have hText : "/deps/".toList ++ name = '/' :: ("deps/".toList ++ name) := rfl
    rw [hText] at hPrefix
    rw [List.nil_append, hText, afterDeps?, if_neg (by decide)]
    split
    · simp
    · rw [if_pos hPrefix]
      simp
  | cons c rest ih =>
    have hc : c ≠ '\n' := fun hEq => hLine (hEq ▸ List.mem_cons_self)
    have hRest := ih fun hMem => hLine (List.mem_cons_of_mem _ hMem)
    obtain ⟨found, hFound⟩ := Option.ne_none_iff_exists'.mp hRest
    rw [List.cons_append, afterDeps?, if_neg hc, hFound]
    simp

theorem cutAtDeps_of_afterDeps? (h : afterDeps? text = some name) :
    ∃ dir, CutAtDeps text dir name := by
  induction text with
  | nil => cases h
  | cons c rest ih =>
    rw [afterDeps?] at h
    by_cases hc : c = '\n'
    · rw [if_pos hc] at h
      cases h
    rw [if_neg hc] at h
    cases hRest : afterDeps? rest with
    | some found =>
      -- the last one of the rest is the last one of all
      rw [hRest] at h
      obtain rfl : found = name := by simpa using h
      obtain ⟨dir, hCut⟩ := ih hRest
      refine ⟨c :: dir, by rw [List.cons_append, ← hCut.parts], ?_, ?_⟩
      · intro hMem
        rcases List.mem_cons.mp hMem with hEq | hMem
        · exact hc hEq.symm
        · exact hCut.firstLine hMem
      · intro before behind hParts hLine
        cases before with
        | nil => simp
        | cons d before =>
          have hInside := (List.cons.inj hParts).2
          have hShorter := hCut.last before behind hInside fun hMem =>
            hLine (List.mem_cons_of_mem _ hMem)
          simpa using hShorter
    | none =>
      rw [hRest] at h
      by_cases hLead : "/deps/".toList.isPrefixOf (c :: rest) = true
      · obtain ⟨behind, hText⟩ := List.isPrefixOf_iff_prefix.mp hLead
        have hName : behind = name := by
          rw [← hText] at h
          simpa using h
        refine ⟨[], by rw [← hName, List.nil_append, hText], by simp, ?_⟩
        intro before after hParts hLine
        cases before with
        | nil => simp
        | cons d before =>
          have hInside : rest = before ++ ("/deps/".toList ++ after) := (List.cons.inj hParts).2
          rw [hInside] at hRest
          exact absurd hRest (afterDeps?_ne_none fun hMem => hLine (List.mem_cons_of_mem d hMem))
      · dsimp only at h
        rw [if_neg hLead] at h
        cases h

theorem afterDeps?_eq_some_iff : afterDeps? text = some name ↔ ∃ dir, CutAtDeps text dir name := by
  refine ⟨cutAtDeps_of_afterDeps?, ?_⟩
  rintro ⟨dir, hCut⟩
  have hSome : afterDeps? text ≠ none := hCut.parts ▸ afterDeps?_ne_none hCut.firstLine
  obtain ⟨found, hFound⟩ := Option.ne_none_iff_exists'.mp hSome
  obtain ⟨place, hPlace⟩ := cutAtDeps_of_afterDeps? hFound
  rw [hFound, hPlace.unique hCut]

theorem CutAtSuffix.unique (h : CutAtSuffix name stem) (k : CutAtSuffix name other) :
    stem = other := by
  have hWhole {stem other : List Char} (h : CutAtSuffix name stem) (hName : stem = name)
      (k : CutAtSuffix name other) : stem = other := by
    rcases k.parts with hOther | ⟨suffix, hParts, hSuffix⟩
    · rw [hName, hOther]
    · have hShort := h.first other suffix hParts hSuffix
      obtain ⟨tail, rfl, -⟩ := hSuffix
      rw [hName, hParts] at hShort
      simp only [List.length_append] at hShort
      have hSome : ".js".toList.length = 3 := rfl
      omega
  rcases h.parts with hName | ⟨suffix, hParts, hSuffix⟩
  · exact hWhole h hName k
  · rcases k.parts with hName | ⟨more, hMore, hMoreSuffix⟩
    · exact (hWhole k hName h).symm
    · have hLength : stem.length = other.length :=
        Nat.le_antisymm (h.first _ _ hMore hMoreSuffix) (k.first _ _ hParts hSuffix)
      exact (List.append_inj (hParts.symm.trans hMore) hLength).1

theorem isScriptSuffix_cons (c : Char) (rest : List Char) : IsScriptSuffix (c :: rest) ↔
    ".js".toList.isPrefixOf (c :: rest) = true ∧ '\n' ∉ rest.drop 2 := by
  rw [List.isPrefixOf_iff_prefix]
  constructor
  · rintro ⟨tail, hText, hLine⟩
    have hRest : rest = 'j' :: 's' :: tail := (List.cons.inj hText).2
    exact ⟨⟨tail, hText.symm⟩, by rw [hRest]; exact hLine⟩
  · rintro ⟨⟨tail, hText⟩, hLine⟩
    have hRest : rest = 'j' :: 's' :: tail := (List.cons.inj hText).2.symm
    rw [hRest] at hLine
    exact ⟨tail, hText.symm, hLine⟩

theorem cutAtSuffix_beforeScriptSuffix (name : List Char) :
    CutAtSuffix name (beforeScriptSuffix name) := by
  induction name with
  | nil => exact ⟨Or.inl rfl, fun _ _ _ _ => Nat.zero_le _⟩
  | cons c rest ih =>
    rw [beforeScriptSuffix]
    by_cases hHere : IsScriptSuffix (c :: rest)
    · rw [if_pos ((isScriptSuffix_cons c rest).mp hHere)]
      exact ⟨Or.inr ⟨_, rfl, hHere⟩, fun _ _ _ _ => Nat.zero_le _⟩
    · rw [if_neg (mt (isScriptSuffix_cons c rest).mpr hHere)]
      refine ⟨?_, ?_⟩
      · rcases ih.parts with hWhole | ⟨suffix, hParts, hSuffix⟩
        · exact Or.inl (by rw [hWhole])
        · exact Or.inr ⟨suffix, by rw [List.cons_append, ← hParts], hSuffix⟩
      · intro before suffix hParts hSuffix
        cases before with
        | nil =>
          rw [List.nil_append] at hParts
          exact absurd (hParts ▸ hSuffix) hHere
        | cons d before =>
          have hShorter := ih.first before suffix (List.cons.inj hParts).2 hSuffix
          simpa using hShorter

/-- The specifier read from a path that is taken for a copy. -/
def readSpecifier? (path : List Char) : Option (List Char) :=
  (afterDeps? path).map fun name => replaceChar '_' '/' (beforeScriptSuffix name)

theorem takenForCopy_iff {path : List Char} :
    TakenForCopy path specifier ↔ readSpecifier? path = some specifier := by
  rw [readSpecifier?, Option.map_eq_some_iff]
  constructor
  · rintro ⟨dir, name, stem, hDeps, hSuffix, rfl⟩
    rw [hSuffix.unique (cutAtSuffix_beforeScriptSuffix name)]
    exact ⟨name, afterDeps?_eq_some_iff.mpr ⟨dir, hDeps⟩, rfl⟩
  · rintro ⟨name, hName, rfl⟩
    obtain ⟨dir, hDeps⟩ := afterDeps?_eq_some_iff.mp hName
    exact ⟨dir, name, _, hDeps, cutAtSuffix_beforeScriptSuffix name, rfl⟩

instance (path specifier : List Char) : Decidable (TakenForCopy path specifier) :=
  decidable_of_iff _ takenForCopy_iff.symm

/-- A path is reduced to the specifier read from it, if there is one; otherwise it stays absolute. -/
theorem cleanChars_cases {id rest : List Char} (hText : stripChars id = '/' :: rest) :
    readSpecifier? (stripChars id) = some (cleanChars id) ∨
      readSpecifier? (stripChars id) = none ∧ (cleanChars id).head? = some '/' := by
  unfold readSpecifier? cleanChars
  dsimp only
  cases hName : afterDeps? (stripChars id) with
  | some name =>
    left
    obtain ⟨dir, hCut⟩ := cutAtDeps_of_afterDeps? hName
    have hInside : contains "/deps/".toList (stripChars id) = true :=
      (contains_iff_isInfix _ _).mpr ⟨dir, name, by rw [List.append_assoc, ← hCut.parts]⟩
    rw [if_pos hInside, Option.getD_some, Option.map_some]
  | none =>
    right
    refine ⟨rfl, ?_⟩
    split
    · -- a `/deps/` behind the first line is passed over, and the slash in front stays
      have hSlash : ".js".toList.isPrefixOf ('/' :: rest) = false := rfl
      rw [Option.getD_none, hText, beforeScriptSuffix, hSlash, if_neg (by simp)]
      rfl
    · rw [hText, List.head?_cons]

variable {naming : Naming} {tree : FileTree} {id : String}

theorem stripChars_slash (s : List Char) : ∃ rest, stripChars ('/' :: s) = '/' :: rest := by
  rw [stripChars_eq, withoutMarker_cons (by decide)]
  exact ⟨replaceChar '\\' '/' (before isMark s), rfl⟩

theorem isAbsolute_normalize (h : Path.isAbsolute id = true) :
    Path.isAbsolute (normalize naming tree id) = true := by
  obtain ⟨s, hText⟩ := Path.exists_rest_of_isAbsolute h
  have hStrip : Path.isAbsolute (strip id) = true := by
    obtain ⟨rest, hRest⟩ := stripChars_slash s
    simp [strip, Path.isAbsolute, hText, hRest]
  unfold normalize resolved
  cases naming with
  | asWritten => exact hStrip
  | followingLinks =>
    dsimp only
    split
    · next real hReal =>
      obtain ⟨rest, hRest⟩ :=
        Path.exists_rest_of_isAbsolute (FileTree.isAbsolute_of_realPath? hReal).2
      simp [Path.isAbsolute, hRest, replaceChar]
    · exact hStrip

theorem noBackslash_normalize (naming : Naming) (tree : FileTree) (id : String) :
    '\\' ∉ (normalize naming tree id).toList := by
  unfold normalize resolved
  cases naming with
  | asWritten => exact notMem_strip id
  | followingLinks =>
    dsimp only
    split
    · rw [String.toList_ofList]
      exact notMem_replaceChar (by decide) _
    · exact notMem_strip id

/-- A path that is taken for a copy goes through a directory `deps`. -/
theorem TakenForCopy.mem_components {path : String} {specifier : List Char}
    (hAbsolute : Path.isAbsolute path = true) (hText : '\\' ∉ path.toList)
    (h : TakenForCopy (strip path).toList specifier) :
    .name "deps" ∈ Path.components path := by
  obtain ⟨dir, name, -, hCut, -⟩ := h
  obtain ⟨rest, hRest⟩ := Path.exists_rest_of_isAbsolute hAbsolute
  have hUnmarked : withoutMarker path.toList = path.toList := by
    rw [hRest, withoutMarker_cons (by decide)]
  have hBefore : before isMark path.toList <+: path.toList := List.takeWhile_prefix _
  have hParts : before isMark path.toList = dir ++ ("/deps/".toList ++ name) := by
    have hPlain : '\\' ∉ before isMark path.toList := fun hMem => hText (hBefore.subset hMem)
    rw [← hCut.parts, strip, String.toList_ofList, stripChars_eq, hUnmarked,
      replaceChar_of_notMem hPlain]
  obtain ⟨behind, hWhole⟩ := hBefore
  have hSlashes : path.toList = dir ++ '/' :: ("deps".toList ++ '/' :: (name ++ behind)) := by
    rw [← hWhole, hParts]
    simp
  have hName : Path.IsName "deps" := by decide
  rw [Path.components_of_isAbsolute hAbsolute, hSlashes, Path.stepsOf_append, Path.stepsOf_append,
    Path.stepsOf_of_isName hName]
  simp

/-- A path is taken for a copy of the package that its clean id names. -/
theorem takenForCopy_iff_eq_clean {path specifier : String}
    (hAbsolute : Path.isAbsolute path = true) (hBare : isBare specifier = true) :
    TakenForCopy (strip path).toList specifier.toList ↔ specifier = clean path := by
  have hClean : (clean path).toList = cleanChars path.toList := String.toList_ofList
  have hStrip : (strip path).toList = stripChars path.toList := String.toList_ofList
  obtain ⟨s, hText⟩ := Path.exists_rest_of_isAbsolute hAbsolute
  obtain ⟨rest, hRest⟩ := stripChars_slash s
  rw [← hText] at hRest
  rw [hStrip, takenForCopy_iff, ← String.toList_inj, hClean]
  rcases cleanChars_cases hRest with hCopy | ⟨hNone, hHead⟩
  · rw [hCopy, Option.some.injEq, eq_comm]
  · -- the clean id is an absolute path, and no specifier of a package is one
    refine ⟨fun h => absurd (hNone.symm.trans h) (by simp), fun hEq => ?_⟩
    have hSlash : Path.isAbsolute specifier = true := by simp [Path.isAbsolute, hEq, hHead]
    exact absurd hSlash (Mock.not_isAbsolute_of_isBare hBare)

end Standin.Module

namespace Standin.Mock

open Standin.Module

/-- A server and a build find the same call of a file exactly if one is registered at its path, or
its path is not taken for a copy of a package registered. A call that only the server finds is the
first one of the specifier read from the path; there is none if no directory is called `deps`. -/
theorem served_as_built_iff {m : Manifest} (hBare : ∀ c ∈ m.calls, isBare c.cleanId = true)
    (naming : Naming) (tree : FileTree) (id : String) (hAbsolute : Path.isAbsolute id = true) :
    let normal := normalize naming tree id
    let built := MatchRule.exactPath.find? naming tree m id
    let served := MatchRule.cleanIdentity.find? naming tree m id
    (served = built ↔ (∃ c ∈ m.calls, Path.Same c.path normal) ∨
      ∀ c ∈ m.calls, ¬TakenForCopy (strip normal).toList c.cleanId.toList) ∧
    (∀ c, served = some c → built ≠ some c →
      built = none ∧ TakenForCopy (strip normal).toList c.cleanId.toList ∧
        m.withCleanId? c.cleanId = some c) ∧
    (.name "deps" ∉ Path.components normal → served = built) := by
  intro normal built served
  have hNormal : Path.isAbsolute normal = true := isAbsolute_normalize hAbsolute
  have hServed : served = built.or (m.withCleanId? (clean normal)) := rfl
  have hTaken {c : Call} (hc : c ∈ m.calls) :
      TakenForCopy (strip normal).toList c.cleanId.toList ↔ c.cleanId = clean normal :=
    takenForCopy_iff_eq_clean hNormal (hBare c hc)
  have hIff : served = built ↔ (∃ c ∈ m.calls, Path.Same c.path normal) ∨
      ∀ c ∈ m.calls, ¬TakenForCopy (strip normal).toList c.cleanId.toList := by
    have hBuilt : built.isSome = true ↔ ∃ c ∈ m.calls, Path.Same c.path normal := by
      simp [built, MatchRule.find?, Manifest.atPath?, normal]
    have hUnfound : m.withCleanId? (clean normal) = none ↔
        ∀ c ∈ m.calls, ¬TakenForCopy (strip normal).toList c.cleanId.toList := by
      simp only [Manifest.withCleanId?, List.find?_eq_none, decide_eq_true_eq]
      exact forall₂_congr fun c hc => not_congr (hTaken hc).symm
    rw [← hBuilt, ← hUnfound, hServed]
    cases built with
    | some c => simp
    | none => simp
  refine ⟨hIff, fun c hFound hOther => ?_, fun hDeps => hIff.mpr (Or.inr fun c _ hCopy => hDeps ?_)⟩
  · have hNone : built = none := by
      cases hBuilt : built with
      | none => rfl
      | some d =>
        rw [hServed, hBuilt, Option.some_or] at hFound
        exact absurd (hBuilt.trans hFound) hOther
    rw [hServed, hNone, Option.none_or] at hFound
    have hId : c.cleanId = clean normal := by simpa using List.find?_some hFound
    exact ⟨hNone, (hTaken (List.mem_of_find?_eq_some hFound)).mpr hId, hId ▸ hFound⟩
  · exact hCopy.mem_components hNormal (noBackslash_normalize naming tree id)

/-- A package registered by its name. -/
def lodashOnly : Manifest :=
  (Manifest.ofCalls [{ specifier := "lodash", path := "/app/node_modules/lodash/lodash.js" }]).1

/-- A file of the project in a directory `deps` is served the stand-ins of a package. -/
theorem deps_directory_served :
    .name "node_modules" ∉ Path.components "/app/src/deps/lodash.js" ∧
      MatchRule.exactPath.find? .asWritten .empty lodashOnly "/app/src/deps/lodash.js" = none ∧
      MatchRule.cleanIdentity.find? .asWritten .empty lodashOnly "/app/src/deps/lodash.js" ≠
        none := by
  have hBare : ∀ c ∈ lodashOnly.calls, isBare c.cleanId = true := by decide +kernel
  have hUnbuilt : MatchRule.exactPath.find? .asWritten .empty lodashOnly
      "/app/src/deps/lodash.js" = none := by decide +kernel
  have hApart : ∀ c ∈ lodashOnly.calls,
      ¬Path.Same c.path (normalize .asWritten .empty "/app/src/deps/lodash.js") := by
    decide +kernel
  have hTaken : ∃ c ∈ lodashOnly.calls,
      TakenForCopy (strip (normalize .asWritten .empty "/app/src/deps/lodash.js")).toList
        c.cleanId.toList := by decide +kernel
  obtain ⟨hIff, -⟩ := served_as_built_iff hBare .asWritten .empty "/app/src/deps/lodash.js"
    (by decide)
  refine ⟨by decide +kernel, hUnbuilt, fun hUnserved => ?_⟩
  obtain ⟨c, hc, hCopy⟩ := hTaken
  rcases hIff.mp (hUnserved.trans hUnbuilt.symm) with ⟨d, hd, hSame⟩ | hUntaken
  · exact hApart d hd hSame
  · exact hUntaken c hc hCopy

end Standin.Mock
