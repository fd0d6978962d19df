import Standin.Proofs.FileTree.Listing
import Standin.Proofs.Mock.ManualPlaces

namespace Standin.Mock

open Standin.Path Standin.FileTree

/-- The least of the names with a property. -/
def Least (names : List String) (p : String → Prop) (name : String) : Prop :=
  name ∈ names ∧ p name ∧ ∀ other ∈ names, p other → name ≤ other

theorem Least.congr {names : List String} {p q : String → Prop} {name : String}
    (hSame : ∀ other ∈ names, p other ↔ q other) : Least names p name ↔ Least names q name := by
  unfold Least
  grind

section Sorted

theorem pairwise_sorted (names : List String) :
    (names.mergeSort fun a b => a ≤ b).Pairwise fun a b => a ≤ b := by
  have hSorted : (names.mergeSort fun a b => a ≤ b).Pairwise fun a b => decide (a ≤ b) = true := by
    refine List.pairwise_mergeSort (fun a b c hab hbc => ?_) (fun a b => ?_) names
    · simp only [decide_eq_true_eq] at hab hbc ⊢
      exact String.le_trans hab hbc
    · simpa using String.le_total a b
  exact hSorted.imp fun h => of_decide_eq_true h

/-- Lists of the same names are sorted alike. -/
theorem sorted_eq_of_perm {names others : List String} (h : names.Perm others) :
    (names.mergeSort fun a b => a ≤ b) = others.mergeSort fun a b => a ≤ b :=
  List.Perm.eq_of_pairwise (fun _ _ _ _ hab hba => String.le_antisymm hab hba)
    (pairwise_sorted names) (pairwise_sorted others)
    ((List.mergeSort_perm _ _).trans (h.trans (List.mergeSort_perm _ _).symm))

variable {β : Type} {f : String → Option β}

/-- What a sorted list gives first comes from the least of its names that gives anything. -/
theorem findSome?_of_pairwise {names : List String} (hSorted : names.Pairwise fun a b => a ≤ b)
    {b : β} : names.findSome? f = some b ↔
      ∃ name, f name = some b ∧ Least names (fun other => (f other).isSome) name := by
  induction names with
  | nil => simp [Least]
  | cons first more ih =>
    obtain ⟨hFirst, hMore⟩ := List.pairwise_cons.mp hSorted
    rw [List.findSome?_cons]
    cases hFound : f first with
    | some found =>
      constructor
      · intro h
        refine ⟨first, hFound.trans h, List.mem_cons_self, by simp [hFound], ?_⟩
        intro other hOther _
        rcases List.mem_cons.mp hOther with rfl | hOther
        · exact String.le_refl _
        · exact hFirst other hOther
      · rintro ⟨name, hName, hMem, -, hLeast⟩
        have hLe := hLeast first List.mem_cons_self (by simp [hFound])
        have hSame : name = first := by
          rcases List.mem_cons.mp hMem with rfl | hMem
          · rfl
          · exact String.le_antisymm hLe (hFirst name hMem)
        rw [← hName, hSame, hFound]
    | none =>
      dsimp only
      rw [ih hMore]
      refine exists_congr fun name => and_congr_right fun hName => ?_
      have hOther : name ≠ first := by
        rintro rfl
        simp [hFound] at hName
      simp [Least, hOther, hFound]

theorem findSome?_sorted {names : List String} {b : β} :
    (names.mergeSort fun a b => a ≤ b).findSome? f = some b ↔
      ∃ name, f name = some b ∧ Least names (fun other => (f other).isSome) name := by
  rw [findSome?_of_pairwise (pairwise_sorted names)]
  simp only [Least, List.mem_mergeSort]

end Sorted

/-- A file of a stem in a directory. -/
def FileOfStem (tree : FileTree) (dir stem name : String) : Prop :=
  Path.stem name = stem ∧ tree.isFile (append dir name) = true

/-- What an entry of a directory of mocks gives for a name: itself, or, where it is a directory, the
least index in it. -/
inductive Gives (tree : FileTree) (dir last entry : String) : String → Prop
  | file (hNamed : Path.stem entry = last ∨ entry = last)
    (hFile : tree.isFile (append dir entry) = true) : Gives tree dir last entry (append dir entry)
  | index {index : String} (hNamed : Path.stem entry = last ∨ entry = last)
    (hDir : tree.isDirectory (append dir entry) = true)
    (hLeast : Least (tree.namesIn (append dir entry))
      (FileOfStem tree (append dir entry) "index") index) :
    Gives tree dir last entry (append (append dir entry) index)

/-- The least entry of a directory that gives a mock for a name. -/
def GivesFirst (tree : FileTree) (dir last mock : String) : Prop :=
  ∃ entry, Gives tree dir last entry mock ∧
    Least (tree.namesIn dir) (fun other => ∃ m, Gives tree dir last other m) entry

/-- The directory below the mocks of a root where those of a package stand. -/
def packageDir (mocks specifier : String) : String :=
  match parent? specifier with
  | some parent => append mocks parent
  | none => mocks

/-- The manual mock of a module: that of a package or of a module that does not exist stands below
the root, that of any other module beside it. -/
inductive IsManualMock (tree : FileTree) (root mocksDir specifier path : String) : String → Prop
  | package {last mock : String} (hBare : Module.isBare specifier = true)
    (hLast : fileName? specifier = some last)
    (h : GivesFirst tree (packageDir (append root mocksDir) specifier) last mock) :
    IsManualMock tree root mocksDir specifier path mock
  | missing {last mock : String} (hLocal : Module.isBare specifier = false)
    (hMissing : tree.isFile path = false) (hLast : fileName? path = some last)
    (h : GivesFirst tree (append root mocksDir) last mock) :
    IsManualMock tree root mocksDir specifier path mock
  | sameName {dir name : String} (hLocal : Module.isBare specifier = false)
    (hFile : tree.isFile path = true) (hDir : parent? path = some dir)
    (hName : fileName? path = some name)
    (hSame : tree.isFile (append (append dir mocksDir) name) = true) :
    IsManualMock tree root mocksDir specifier path (append (append dir mocksDir) name)
  | sameStem {dir name other : String} (hLocal : Module.isBare specifier = false)
    (hFile : tree.isFile path = true) (hDir : parent? path = some dir)
    (hName : fileName? path = some name)
    (hOther : tree.isFile (append (append dir mocksDir) name) = false)
    (hLeast : Least (tree.namesIn (append dir mocksDir))
      (FileOfStem tree (append dir mocksDir) (Path.stem name)) other) :
    IsManualMock tree root mocksDir specifier path (append (append dir mocksDir) other)

/-- What could serve as the manual mock of a module if nothing came before it. -/
inductive MayServe (tree : FileTree) (root mocksDir specifier path : String) : String → Prop
  | package {last entry mock : String} (hBare : Module.isBare specifier = true)
    (hLast : fileName? specifier = some last)
    (hEntry : entry ∈ tree.namesIn (packageDir (append root mocksDir) specifier))
    (h : Gives tree (packageDir (append root mocksDir) specifier) last entry mock) :
    MayServe tree root mocksDir specifier path mock
  | missing {last entry mock : String} (hLocal : Module.isBare specifier = false)
    (hMissing : tree.isFile path = false) (hLast : fileName? path = some last)
    (hEntry : entry ∈ tree.namesIn (append root mocksDir))
    (h : Gives tree (append root mocksDir) last entry mock) :
    MayServe tree root mocksDir specifier path mock
  | beside {dir name other : String} (hLocal : Module.isBare specifier = false)
    (hFile : tree.isFile path = true) (hDir : parent? path = some dir)
    (hName : fileName? path = some name) (hThere : other = name ∨
      other ∈ tree.namesIn (append dir mocksDir) ∧ Path.stem other = Path.stem name)
    (hOther : tree.isFile (append (append dir mocksDir) other) = true) :
    MayServe tree root mocksDir specifier path (append (append dir mocksDir) other)

theorem not_isDirectory_of_isFile {tree : FileTree} {path : String} (h : tree.isFile path = true) :
    ¬tree.isDirectory path = true := by
  revert h
  unfold isFile isDirectory
  rcases tree.locate path with _ | ⟨_, _ | _ | _⟩ <;> simp

section Search

variable {tree : FileTree} (hTree : tree.Legal) {dir : String}
include hTree

theorem fileName?_entry {name : String} (h : name ∈ tree.namesIn dir) :
    fileName? (append dir name) = some name := by
  obtain ⟨hAbsolute, hName⟩ := hTree.isName_of_mem_namesIn h
  simp [fileName?, components_append_name hAbsolute hName]

theorem fileStem?_entry {name : String} (h : name ∈ tree.namesIn dir) :
    fileStem? (append dir name) = some (Path.stem name) := by
  rw [fileStem?, fileName?_entry hTree h, Option.map_some]

theorem isFileOfStem_entry {stem name : String} (h : name ∈ tree.namesIn dir) :
    isFileOfStem tree stem (append dir name) = true ↔ FileOfStem tree dir stem name := by
  simp [isFileOfStem, FileOfStem, fileStem?_entry hTree h]

theorem fileOfStem?_eq_some_iff {stem path : String} : fileOfStem? tree dir stem = some path ↔
    ∃ name, Least (tree.namesIn dir) (FileOfStem tree dir stem) name ∧ path = append dir name := by
  have hGuard (name : String) (hName : name ∈ tree.namesIn dir) :
      (Option.guard (isFileOfStem tree stem) (append dir name)).isSome = true ↔
        FileOfStem tree dir stem name := by
    rw [Option.isSome_guard, isFileOfStem_entry hTree hName]
  rw [fileOfStem?, entriesOf, List.find?_eq_findSome?_guard, List.findSome?_map, findSome?_sorted]
  refine exists_congr fun name => ?_
  simp only [Function.comp_apply, Option.guard_eq_some_iff]
  rw [Least.congr hGuard]
  constructor
  · rintro ⟨⟨rfl, -⟩, hLeast⟩
    exact ⟨hLeast, rfl⟩
  · rintro ⟨hLeast, rfl⟩
    exact ⟨⟨rfl, (isFileOfStem_entry hTree hLeast.1).mpr hLeast.2.1⟩, hLeast⟩

theorem mockAt?_eq_some_iff {last entry mock : String} (h : entry ∈ tree.namesIn dir) :
    mockAt? tree last (append dir entry) = some mock ↔ Gives tree dir last entry mock := by
  unfold mockAt?
  rw [fileStem?_entry hTree h, fileName?_entry hTree h]
  simp only [ne_eq, Option.some.injEq]
  by_cases hNamed : Path.stem entry = last ∨ entry = last
  · rw [if_neg (by tauto)]
    by_cases hFile : tree.isFile (append dir entry) = true
    · rw [if_pos hFile, Option.some.injEq]
      constructor
      · rintro rfl
        exact .file hNamed hFile
      · intro hGives
        cases hGives with
        | file => rfl
        | index _ hDir => exact absurd hDir (not_isDirectory_of_isFile hFile)
    rw [if_neg hFile]
    by_cases hDir : tree.isDirectory (append dir entry) = true
    · rw [if_pos hDir, fileOfStem?_eq_some_iff hTree]
      constructor
      · rintro ⟨index, hLeast, rfl⟩
        exact .index hNamed hDir hLeast
      · intro hGives
        cases hGives with
        | file _ h => exact absurd h hFile
        | index _ _ hLeast => exact ⟨_, hLeast, rfl⟩
    · rw [if_neg hDir]
      refine iff_of_false (by simp) fun hGives => ?_
      cases hGives with
      | file _ h => exact hFile h
      | index _ h _ => exact hDir h
  · rw [if_pos (by tauto)]
    refine iff_of_false (by simp) fun hGives => ?_
    cases hGives <;> exact hNamed ‹_›

theorem isSome_mockAt? {last entry : String} (h : entry ∈ tree.namesIn dir) :
    (mockAt? tree last (append dir entry)).isSome = true ↔
      ∃ mock, Gives tree dir last entry mock := by
  simp only [Option.isSome_iff_exists, mockAt?_eq_some_iff hTree h]

theorem mockIn?_eq_some_iff {last mock : String} :
    mockIn? tree dir last = some mock ↔ GivesFirst tree dir last mock := by
  rw [mockIn?, entriesOf, List.findSome?_map, findSome?_sorted]
  refine exists_congr fun entry => ?_
  simp only [Function.comp_apply]
  rw [Least.congr fun other => isSome_mockAt? hTree]
  exact and_congr_left fun hLeast => mockAt?_eq_some_iff hTree hLeast.1

theorem mockIn?_eq_none_iff {last : String} :
    mockIn? tree dir last = none ↔
      ∀ entry ∈ tree.namesIn dir, ∀ mock, ¬Gives tree dir last entry mock := by
  rw [mockIn?, entriesOf, List.findSome?_map, List.findSome?_eq_none_iff]
  simp only [List.mem_mergeSort, Function.comp_apply]
  refine forall₂_congr fun entry hEntry => ?_
  rw [← Option.not_isSome_iff_eq_none, isSome_mockAt? hTree hEntry, not_exists]

theorem fileOfStem?_eq_none_iff {stem : String} : fileOfStem? tree dir stem = none ↔
    ∀ name ∈ tree.namesIn dir, ¬FileOfStem tree dir stem name := by
  rw [fileOfStem?, entriesOf, List.find?_eq_none]
  simp only [List.mem_map, List.mem_mergeSort, forall_exists_index, and_imp,
    forall_apply_eq_imp_iff₂]
  exact forall₂_congr fun name hName => not_congr (isFileOfStem_entry hTree hName)

theorem mockBeside?_eq_some_iff {mocksDir path mock : String} :
    mockBeside? tree mocksDir path = some mock ↔ ∃ dir name, parent? path = some dir ∧
      fileName? path = some name ∧
      ((tree.isFile (append (append dir mocksDir) name) = true ∧
          mock = append (append dir mocksDir) name) ∨
        (tree.isFile (append (append dir mocksDir) name) = false ∧
          ∃ other, Least (tree.namesIn (append dir mocksDir))
            (FileOfStem tree (append dir mocksDir) (Path.stem name)) other ∧
            mock = append (append dir mocksDir) other)) := by
  unfold mockBeside? fileStem?
  cases parent? path with
  | none => simp
  | some dir =>
    cases fileName? path with
    | none => simp
    | some name =>
      cases hSame : tree.isFile (append (append dir mocksDir) name) with
      | true =>
        simp [hSame]
        exact eq_comm
      | false => simp [hSame, fileOfStem?_eq_some_iff hTree]

theorem mockBeside?_eq_none_iff {mocksDir path : String} :
    mockBeside? tree mocksDir path = none ↔ ∀ dir name, parent? path = some dir →
      fileName? path = some name → tree.isFile (append (append dir mocksDir) name) = false ∧
        ∀ other ∈ tree.namesIn (append dir mocksDir),
          ¬FileOfStem tree (append dir mocksDir) (Path.stem name) other := by
  unfold mockBeside? fileStem?
  cases parent? path with
  | none => simp
  | some dir =>
    cases fileName? path with
    | none => simp
    | some name =>
      cases hSame : tree.isFile (append (append dir mocksDir) name) with
      | true => simp [hSame]
      | false => simp [hSame, fileOfStem?_eq_none_iff hTree]

variable {root mocksDir specifier path : String}

theorem manualMock?_eq_some_iff {mock : String} :
    manualMock? tree root mocksDir specifier path = some mock ↔
      IsManualMock tree root mocksDir specifier path mock := by
  unfold manualMock?
  by_cases hBare : Module.isBare specifier = true
  · rw [if_pos hBare, Option.bind_eq_some_iff]
    constructor
    · rintro ⟨last, hLast, hMock⟩
      exact .package hBare hLast ((mockIn?_eq_some_iff hTree).mp hMock)
    · intro h
      cases h with
      | package _ hLast h => exact ⟨_, hLast, (mockIn?_eq_some_iff hTree).mpr h⟩
      | _ hLocal => simp [hBare] at hLocal
  rw [if_neg hBare]
  have hLocal : Module.isBare specifier = false := by simpa using hBare
  cases hFile : tree.isFile path with
  | false =>
    rw [if_pos (by simp), Option.bind_eq_some_iff]
    constructor
    · rintro ⟨last, hLast, hMock⟩
      exact .missing hLocal hFile hLast ((mockIn?_eq_some_iff hTree).mp hMock)
    · intro h
      cases h with
      | package hBare => simp [hLocal] at hBare
      | missing _ _ hLast h => exact ⟨_, hLast, (mockIn?_eq_some_iff hTree).mpr h⟩
      | _ _ hThere => simp [hFile] at hThere
  | true =>
    rw [if_neg (by simp), mockBeside?_eq_some_iff hTree]
    constructor
    · rintro ⟨dir, name, hDir, hName, ⟨hSame, rfl⟩ | ⟨hOther, other, hLeast, rfl⟩⟩
      · exact .sameName hLocal hFile hDir hName hSame
      · exact .sameStem hLocal hFile hDir hName hOther hLeast
    · intro h
      cases h with
      | package hBare => simp [hLocal] at hBare
      | missing _ hMissing => simp [hFile] at hMissing
      | sameName _ _ hDir hName hSame => exact ⟨_, _, hDir, hName, .inl ⟨hSame, rfl⟩⟩
      | sameStem _ _ hDir hName hOther hLeast =>
        exact ⟨_, _, hDir, hName, .inr ⟨hOther, _, hLeast, rfl⟩⟩

theorem manualMock?_eq_none_iff : manualMock? tree root mocksDir specifier path = none ↔
    ∀ mock, ¬MayServe tree root mocksDir specifier path mock := by
  unfold manualMock?
  by_cases hBare : Module.isBare specifier = true
  · rw [if_pos hBare, Option.bind_eq_none_iff]
    constructor
    · intro hNone mock h
      cases h with
      | package _ hLast hEntry h =>
        exact (mockIn?_eq_none_iff hTree).mp (hNone _ hLast) _ hEntry mock h
      | _ hLocal => simp [hBare] at hLocal
    · exact fun hNone last hLast => (mockIn?_eq_none_iff hTree).mpr fun entry hEntry mock h =>
        hNone mock (.package hBare hLast hEntry h)
  rw [if_neg hBare]
  have hLocal : Module.isBare specifier = false := by simpa using hBare
  cases hFile : tree.isFile path with
  | false =>
    rw [if_pos (by simp), Option.bind_eq_none_iff]
    constructor
    · intro hNone mock h
      cases h with
      | package hBare => simp [hLocal] at hBare
      | missing _ _ hLast hEntry h =>
        exact (mockIn?_eq_none_iff hTree).mp (hNone _ hLast) _ hEntry mock h
      | beside _ hThere => simp [hFile] at hThere
    · exact fun hNone last hLast => (mockIn?_eq_none_iff hTree).mpr fun entry hEntry mock h =>
        hNone mock (.missing hLocal hFile hLast hEntry h)
  | true =>
    rw [if_neg (by simp), mockBeside?_eq_none_iff hTree]
    constructor
    · intro hNone mock h
      cases h with
      | package hBare => simp [hLocal] at hBare
      | missing _ hMissing => simp [hFile] at hMissing
      | beside _ _ hDir hName hThere hOther =>
        obtain ⟨hSame, hStem⟩ := hNone _ _ hDir hName
        rcases hThere with rfl | ⟨hThere, hStemmed⟩
        · simp [hSame] at hOther
        · exact hStem _ hThere ⟨hStemmed, hOther⟩
    · intro hNone dir name hDir hName
      refine ⟨?_, fun other hThere h => hNone _ (.beside hLocal hFile hDir hName
        (.inr ⟨hThere, h.1⟩) h.2)⟩
      rw [Bool.eq_false_iff]
      exact fun hSame => hNone _ (.beside hLocal hFile hDir hName (.inl rfl) hSame)

end Search

theorem Gives.isFile {tree : FileTree} {dir last entry mock : String}
    (h : Gives tree dir last entry mock) : tree.isFile mock = true := by
  cases h with
  | file _ hFile => exact hFile
  | index _ _ hLeast => exact hLeast.2.1.2

theorem IsManualMock.isFile {tree : FileTree} {root mocksDir specifier path mock : String}
    (h : IsManualMock tree root mocksDir specifier path mock) : tree.isFile mock = true := by
  cases h with
  | package _ _ h => exact h.choose_spec.1.isFile
  | missing _ _ _ h => exact h.choose_spec.1.isFile
  | sameName _ _ _ _ hSame => exact hSame
  | sameStem _ _ _ _ _ hLeast => exact hLeast.2.1.2

theorem entriesOf_of_relisted {tree listed : FileTree} (h : Relisted tree listed) :
    entriesOf listed = entriesOf tree := by
  funext dir
  rw [entriesOf, entriesOf, sorted_eq_of_perm (namesIn_of_relisted h dir)]

theorem fileOfStem?_of_relisted {tree listed : FileTree} (h : Relisted tree listed) :
    fileOfStem? listed = fileOfStem? tree := by
  funext dir stem
  have hSame : isFileOfStem listed stem = isFileOfStem tree stem := by
    funext path
    rw [isFileOfStem, isFileOfStem, isFile_of_relisted h]
  rw [fileOfStem?, fileOfStem?, entriesOf_of_relisted h, hSame]

theorem manualMock?_of_relisted {tree listed : FileTree} (h : Relisted tree listed)
    (root mocksDir specifier path : String) :
    manualMock? listed root mocksDir specifier path =
      manualMock? tree root mocksDir specifier path := by
  have hAt (name : String) : mockAt? listed name = mockAt? tree name := by
    funext path
    simp only [mockAt?, isFile_of_relisted h, isDirectory_of_relisted h, fileOfStem?_of_relisted h]
  have hIn : mockIn? listed = mockIn? tree := by
    funext dir name
    rw [mockIn?, mockIn?, entriesOf_of_relisted h, hAt]
  simp only [manualMock?, mockBeside?, hIn, isFile_of_relisted h, fileOfStem?_of_relisted h]

/-- The manual mock of a module is the first that can serve as one, and a file that is there. There
is none only where nothing can serve, and the order in which directories are listed does not
matter. -/
theorem manualMock?_search {tree : FileTree} (hTree : tree.Legal)
    (root mocksDir specifier path : String) :
    (∀ mock, manualMock? tree root mocksDir specifier path = some mock ↔
        IsManualMock tree root mocksDir specifier path mock) ∧
      (manualMock? tree root mocksDir specifier path = none ↔
        ∀ mock, ¬MayServe tree root mocksDir specifier path mock) ∧
      (∀ mock, manualMock? tree root mocksDir specifier path = some mock →
        tree.isFile mock = true) ∧
      ∀ listed, Relisted tree listed → manualMock? listed root mocksDir specifier path =
        manualMock? tree root mocksDir specifier path :=
  ⟨fun _ => manualMock?_eq_some_iff hTree, manualMock?_eq_none_iff hTree,
    fun _ hMock => ((manualMock?_eq_some_iff hTree).mp hMock).isFile,
    fun _ hListed => manualMock?_of_relisted hListed root mocksDir specifier path⟩

/-- Mocks of a package, where the directory of its name has no index. -/
def packageMocks : FileTree :=
  .dir [("__mocks__", .dir [("lodash", .dir [("readme.md", .file [])]), ("lodash.js", .file [])])]

def packageMocksListed : FileTree :=
  .dir [("__mocks__", .dir [("lodash.js", .file []), ("lodash", .dir [("readme.md", .file [])])])]

theorem legal_packageMocks : packageMocks.Legal :=
  .dir _ (by decide) (List.forall_mem_singleton.mpr
    (.dir _ (by decide) (List.forall_mem_cons.mpr ⟨.dir _ (by decide)
      (List.forall_mem_singleton.mpr (.file [])), List.forall_mem_singleton.mpr (.file [])⟩)))

theorem relisted_packageMocks : Relisted packageMocks packageMocksListed := by
  refine .dir _ _ (.refl _) fun name node other hNode hOther => ?_
  by_cases hName : "__mocks__" = name
  · simp only [entryOf, if_pos hName, Option.some.injEq] at hNode hOther
    rw [← hNode, ← hOther]
    exact .of_perm (by decide) (.swap _ _ _)
  · simp [entryOf, hName] at hNode

theorem gives_packageMocks (mock : String) :
    Gives packageMocks "/__mocks__/" "lodash" "lodash.js" mock ↔ mock = "/__mocks__/lodash.js" := by
  constructor
  · intro h
    cases h with
    | file => decide
    | index _ hDir => exact absurd hDir (by decide)
  · rintro rfl
    exact .file (.inl (by decide)) (by decide)

theorem not_gives_packageMocks (mock : String) :
    ¬Gives packageMocks "/__mocks__/" "lodash" "lodash" mock := by
  intro h
  cases h with
  | file _ hFile => exact absurd hFile (by decide)
  | index _ _ hLeast =>
    have hIndex : ∀ name ∈ packageMocks.namesIn (append "/__mocks__/" "lodash"),
        Path.stem name ≠ "index" := by decide
    exact hIndex _ hLeast.1 hLeast.2.1.1

theorem manualMock?_search_lodash :
    packageMocks.Legal ∧ Relisted packageMocks packageMocksListed ∧
      manualMock? packageMocks "/" "__mocks__" "lodash" "/node_modules/lodash/index.js" =
        some "/__mocks__/lodash.js" ∧
      packageMocks.isFile "/__mocks__/lodash.js" = true ∧
      manualMock? packageMocksListed "/" "__mocks__" "lodash" "/node_modules/lodash/index.js" =
        manualMock? packageMocks "/" "__mocks__" "lodash" "/node_modules/lodash/index.js" := by
  obtain ⟨hFound, -, hFile, hOrder⟩ := manualMock?_search legal_packageMocks "/" "__mocks__"
    "lodash" "/node_modules/lodash/index.js"
  have hGives := (gives_packageMocks _).mpr rfl
  have hLeast : Least (packageMocks.namesIn "/__mocks__/")
      (fun other => ∃ m, Gives packageMocks "/__mocks__/" "lodash" other m) "lodash.js" := by
    refine ⟨by decide, ⟨_, hGives⟩, fun other hOther hOthers => ?_⟩
    obtain rfl | rfl : other = "lodash" ∨ other = "lodash.js" := by
      simpa using (show other ∈ ["lodash", "lodash.js"] from hOther)
    · exact absurd hOthers (by simp [not_gives_packageMocks])
    · exact String.le_refl _
  have hMock := (hFound "/__mocks__/lodash.js").mpr
    (.package (by decide) (by decide) ⟨"lodash.js", hGives, hLeast⟩)
  exact ⟨legal_packageMocks, relisted_packageMocks, hMock, hFile _ hMock,
    hOrder _ relisted_packageMocks⟩

end Standin.Mock
