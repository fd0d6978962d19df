import Standin.Mock.Match
import Standin.Proofs.FileTree.Walks
import Standin.Proofs.Path.Parents

namespace Standin.Mock

open Standin.Path Standin.FileTree

variable {tree : FileTree} {dir path : String}

theorem components_of_mem_entriesOf (hTree : tree.Legal) (h : path ∈ entriesOf tree dir) :
    isAbsolute dir = true ∧ ∃ name, components path = components dir ++ [.name name] := by
  obtain ⟨name, hName, rfl⟩ := List.mem_map.mp h
  rw [List.mem_mergeSort] at hName
  obtain ⟨hAbsolute, hIsName⟩ := hTree.isName_of_mem_namesIn hName
  exact ⟨hAbsolute, name, components_append_name hAbsolute hIsName⟩

theorem components_of_fileOfStem? {stem : String} (hTree : tree.Legal)
    (h : fileOfStem? tree dir stem = some path) :
    isAbsolute dir = true ∧ ∃ name, components path = components dir ++ [.name name] :=
  components_of_mem_entriesOf hTree (List.mem_of_find?_eq_some h)

/-- An entry gives itself, or a file in it. -/
theorem components_of_mockAt? {name entry : String} (hTree : tree.Legal)
    (h : mockAt? tree name entry = some path) : components entry <+: components path := by
  unfold mockAt? at h
  split_ifs at h
  · rw [Option.some.inj h]
  · obtain ⟨-, index, hPath⟩ := components_of_fileOfStem? hTree h
    rw [hPath]
    exact List.prefix_append _ _

theorem components_of_mockIn? {name : String} (hTree : tree.Legal)
    (h : mockIn? tree dir name = some path) :
    isAbsolute dir = true ∧ components dir <+: components path := by
  obtain ⟨entry, hEntry, hMock⟩ := List.exists_of_findSome?_eq_some h
  obtain ⟨hAbsolute, last, hLast⟩ := components_of_mem_entriesOf hTree hEntry
  have hBelow : components dir <+: components entry := hLast ▸ List.prefix_append _ _
  exact ⟨hAbsolute, hBelow.trans (components_of_mockAt? hTree hMock)⟩

/-- A mock beside a module stands in what the directory of mocks is, read from the module's. -/
theorem steps_of_mockBeside? {mocksDir mock : String} (hTree : tree.Legal)
    (hRelative : ¬isAbsolute mocksDir = true) (hAbsolute : isAbsolute path = true)
    (h : mockBeside? tree mocksDir path = some mock) :
    ∃ name, components mock =
      (components path).dropLast ++ stepsOf mocksDir.toList ++ [.name name] := by
  unfold mockBeside? at h
  obtain ⟨parent, hParent, h⟩ := Option.bind_eq_some_iff.mp h
  obtain ⟨file, hFile, h⟩ := Option.bind_eq_some_iff.mp h
  obtain ⟨hParentAbsolute, hComponents⟩ := components_parent? hAbsolute hParent
  have hMocks := components_append hParentAbsolute hRelative
  have hMocksAbsolute := isAbsolute_append hParentAbsolute mocksDir
  rw [← hComponents, ← hMocks]
  dsimp only at h
  split_ifs at h
  · cases h
    exact ⟨file, components_append_name hMocksAbsolute (isName_of_fileName? hFile)⟩
  · obtain ⟨stem, -, hMock⟩ := Option.bind_eq_some_iff.mp h
    exact (components_of_fileOfStem? hTree hMock).2

theorem components_of_mockBeside? {mocksDir mock : String} (hTree : tree.Legal)
    (hName : IsName mocksDir) (hAbsolute : isAbsolute path = true)
    (h : mockBeside? tree mocksDir path = some mock) :
    ∃ name, components mock = (components path).dropLast ++ [.name mocksDir, .name name] := by
  obtain ⟨name, hMock⟩ := steps_of_mockBeside? hTree hName.not_isAbsolute hAbsolute h
  refine ⟨name, ?_⟩
  rw [hMock, stepsOf_of_isName hName, List.append_assoc]
  rfl

/-- A mock looked for below the directory of mocks of the root is found below an absolute root. -/
theorem components_of_mockIn?_root {root mocksDir name : String} (hTree : tree.Legal)
    (hName : IsName mocksDir) (hDir : dir = append root mocksDir ∨
      ∃ below, ¬isAbsolute below = true ∧ dir = append (append root mocksDir) below)
    (h : mockIn? tree dir name = some path) :
    components root ++ [.name mocksDir] <+: components path := by
  obtain ⟨hAbsolute, hBelow⟩ := components_of_mockIn? hTree h
  rcases hDir with rfl | ⟨below, hRelative, rfl⟩
  · rwa [components_append_name (isAbsolute_of_append hName.not_isAbsolute hAbsolute) hName]
      at hBelow
  · have hMocks := isAbsolute_of_append hRelative hAbsolute
    have hRoot := isAbsolute_of_append hName.not_isAbsolute hMocks
    rw [components_append hMocks hRelative, components_append_name hRoot hName] at hBelow
    exact (List.prefix_append _ _).trans hBelow

theorem not_isAbsolute_of_isBare {specifier : String} (h : Module.isBare specifier = true) :
    ¬isAbsolute specifier = true := by
  intro hAbsolute
  obtain ⟨rest, hRest⟩ := exists_rest_of_isAbsolute hAbsolute
  rw [Module.isBare, hRest] at h
  cases h

/-- The mock of a package, or of a module that does not exist, stands below the directory of mocks of
the root; the mock of any other module stands in the directory of mocks beside it. -/
theorem manualMock?_place {root mocksDir specifier mock : String} (hTree : tree.Legal)
    (hName : IsName mocksDir) (h : manualMock? tree root mocksDir specifier path = some mock) :
    ((Module.isBare specifier = true ∨ tree.isFile path = false) ∧
        components root ++ [.name mocksDir] <+: components mock) ∨
      (Module.isBare specifier = false ∧ tree.isFile path = true ∧
        ∃ name, components mock = (components path).dropLast ++ [.name mocksDir, .name name]) := by
  unfold manualMock? at h
  dsimp only at h
  by_cases hBare : Module.isBare specifier = true
  · rw [if_pos hBare] at h
    obtain ⟨name, -, hMock⟩ := Option.bind_eq_some_iff.mp h
    refine Or.inl ⟨Or.inl hBare, components_of_mockIn?_root hTree hName ?_ hMock⟩
    cases hParent : parent? specifier with
    | none => exact Or.inl rfl
    | some below =>
      have hRelative := not_isAbsolute_parent? (not_isAbsolute_of_isBare hBare) hParent
      exact Or.inr ⟨below, hRelative, rfl⟩
  rw [if_neg hBare] at h
  by_cases hFile : tree.isFile path = true
  · rw [if_neg (by simp [hFile])] at h
    obtain ⟨place, hPlace⟩ := exists_place_of_isFile hFile
    exact Or.inr ⟨by simpa using hBare, hFile,
      components_of_mockBeside? hTree hName (isAbsolute_of_locate hPlace) h⟩
  · rw [if_pos (by simpa using hFile)] at h
    obtain ⟨name, -, hMock⟩ := Option.bind_eq_some_iff.mp h
    exact Or.inl ⟨Or.inr (by simpa using hFile),
      components_of_mockIn?_root hTree hName (Or.inl rfl) hMock⟩

end Standin.Mock
