import Standin.Options.Basic
import Standin.Proofs.FileTree.Spellings
import Standin.Proofs.Mock.ManualSearch

namespace Standin.FileTree

open Standin.Path

/-- A path leads to an entry of a directory of a name. -/
def InDirNamed (tree : FileTree) (dirName path : String) : Prop :=
  ∃ place front last, tree.locate path = .ok place ∧ place.names = front ++ [dirName, last]

def AtTop (tree : FileTree) (path : String) : Prop :=
  ∃ place last, tree.locate path = .ok place ∧ place.names = [last]

theorem isFile_of_locate {tree : FileTree} {p q : String} {place : Place}
    (hp : tree.locate p = .ok place) (hq : tree.locate q = .ok place)
    (h : tree.isFile p = true) : tree.isFile q = true := by
  rw [isFile, hp] at h
  rw [isFile, hq]
  exact h

theorem realPath?_of_locate {tree : FileTree} {p q : String} (h : tree.locate p = tree.locate q) :
    tree.realPath? p = tree.realPath? q := by
  rw [realPath?, realPath?, h]

theorem realPath?_eq_iff {tree : FileTree} {p q : String} {place there : Place}
    (hp : tree.locate p = .ok place) (hq : tree.locate q = .ok there) :
    tree.realPath? p = tree.realPath? q ↔ place.names = there.names := by
  rw [realPath?, realPath?, hp, hq]
  constructor
  · intro h
    rw [← same_pathOf_iff (isName_of_locate hp) (isName_of_locate hq), Option.some.inj h]
    exact Same.refl _
  · intro h
    simp only [h]

theorem InDirNamed.isName {tree : FileTree} {dirName path : String}
    (h : tree.InDirNamed dirName path) : IsName dirName := by
  obtain ⟨place, front, last, hPlace, hNames⟩ := h
  exact isName_of_locate hPlace dirName (by simp [hNames])

end Standin.FileTree

namespace Standin.Mock

open Standin.Path Standin.FileTree

variable {tree : FileTree} {root mocksDir specifier path mock : String}

theorem isFile_of_mockBeside? (hTree : tree.Legal) (h : mockBeside? tree mocksDir path = some mock) :
    tree.isFile mock = true := by
  obtain ⟨dir, name, -, -, hMock⟩ := (mockBeside?_eq_some_iff hTree).mp h
  rcases hMock with ⟨hSame, hEq⟩ | ⟨-, other, hLeast, hEq⟩
  · rw [hEq]
    exact hSame
  · rw [hEq]
    exact hLeast.2.1.2

theorem manualMock?_of_isFile (hLocal : Module.isBare specifier = false)
    (hFile : tree.isFile path = true) :
    manualMock? tree root mocksDir specifier path = mockBeside? tree mocksDir path := by
  simp [manualMock?, hLocal, hFile]

/-- Where a module and the mock found beside it stand in a tree without links. -/
theorem names_of_mockBeside? (hTree : tree.Legal) (hLinks : tree.Linkless)
    (hSlash : '/' ∉ mocksDir.toList) (hFile : tree.isFile path = true)
    (h : mockBeside? tree mocksDir path = some mock) :
    ∃ dir file other place there, tree.locate path = .ok place ∧ place.names = dir ++ [file] ∧
      tree.locate mock = .ok there ∧
      there.names = settle dir (stepsOf mocksDir.toList) ++ [other] := by
  obtain ⟨place, hPlace⟩ := exists_place_of_isFile hFile
  have hAbsolute := isAbsolute_of_locate hPlace
  obtain ⟨file, hName⟩ := exists_fileName?_of_isFile hFile
  obtain ⟨other, hMock⟩ :=
    steps_of_mockBeside? hTree (not_isAbsolute_of_noSlash hSlash) hAbsolute h
  obtain ⟨there, hThere⟩ := exists_place_of_isFile (isFile_of_mockBeside? hTree h)
  refine ⟨settle [] (components path).dropLast, file, other, place, there, hPlace, ?_, hThere, ?_⟩
  · rw [names_of_locate hLinks hPlace]
    conv_lhs => rw [components_of_fileName? hName, settle_append]
    rfl
  · rw [names_of_locate hLinks hThere, hMock, settle_append, settle_append]
    rfl

/-- A directory name that the options take is `.`, `..` or the name of an entry. -/
theorem stepsOf_of_isDirName (h : Options.IsDirName mocksDir) :
    (mocksDir = "." ∧ stepsOf mocksDir.toList = []) ∨
      (mocksDir = ".." ∧ stepsOf mocksDir.toList = [.up]) ∨
      (IsName mocksDir ∧ stepsOf mocksDir.toList = [.name mocksDir]) := by
  by_cases hHere : mocksDir = "."
  · subst hHere
    exact Or.inl ⟨rfl, rfl⟩
  by_cases hUp : mocksDir = ".."
  · subst hUp
    exact Or.inr (Or.inl ⟨rfl, rfl⟩)
  have hName : IsName mocksDir := ⟨h.1, hHere, hUp, h.2.1⟩
  exact Or.inr (Or.inr ⟨hName, stepsOf_of_isName hName⟩)

/-- The path that is tried first for the mock of a module: the module's own name, read from the
directory of mocks beside it. -/
theorem exists_first (hTree : tree.Legal) (hMocks : ¬isAbsolute mocksDir = true)
    (hFile : tree.isFile path = true) :
    ∃ mock front name, isAbsolute mock = true ∧ EndsInStep mock ∧ IsName name ∧
      stepsOf path.toList = front ++ [.name name] ∧
      stepsOf mock.toList = front ++ (stepsOf mocksDir.toList ++ [.name name]) ∧
      (tree.isFile mock = true → mockBeside? tree mocksDir path = some mock) := by
  obtain ⟨place, hPlace⟩ := exists_place_of_isFile hFile
  have hAbsolute := isAbsolute_of_locate hPlace
  obtain ⟨name, hName⟩ := exists_fileName?_of_isFile hFile
  obtain ⟨dir, hDir⟩ := exists_parent? hAbsolute hName
  obtain ⟨hDirAbsolute, hComponents⟩ := components_parent? hAbsolute hDir
  have hIsName := isName_of_fileName? hName
  have hBase := isAbsolute_append hDirAbsolute mocksDir
  have hMock := isAbsolute_append hBase name
  have hPathSteps := components_of_fileName? hName
  rw [← hComponents, components_of_isAbsolute hAbsolute, components_of_isAbsolute hDirAbsolute]
    at hPathSteps
  have hMockSteps := components_append_name hBase hIsName
  rw [components_append hDirAbsolute hMocks, components_of_isAbsolute hMock,
    components_of_isAbsolute hDirAbsolute, List.append_assoc] at hMockSteps
  refine ⟨_, _, name, hMock, endsInStep_append hBase hIsName, hIsName,
    (List.cons.inj hPathSteps).2, (List.cons.inj hMockSteps).2, ?_⟩
  intro hFound
  exact (mockBeside?_eq_some_iff hTree).mpr ⟨dir, name, hDir, hName, Or.inl ⟨hFound, rfl⟩⟩

/-- Under `.` every module is its own mock. -/
theorem mockBeside?_here (hTree : tree.Legal) (hFile : tree.isFile path = true) :
    ∃ mock, mockBeside? tree "." path = some mock ∧ tree.locate mock = tree.locate path := by
  obtain ⟨place, hPlace⟩ := exists_place_of_isFile hFile
  have hRelative : ¬isAbsolute "." = true := by decide
  obtain ⟨mock, front, name, hMock, hEnd, -, hPathSteps, hMockSteps, hFound⟩ :=
    exists_first hTree hRelative hFile
  have hHere : stepsOf ".".toList = [] := rfl
  have hSame : Same path mock := by
    rw [Same, components_of_isAbsolute (isAbsolute_of_locate hPlace),
      components_of_isAbsolute hMock, hPathSteps, hMockSteps, hHere, List.nil_append]
  have hLocate := locate_of_same hMock hEnd hSame hPlace
  exact ⟨mock, hFound (isFile_of_locate hPlace hLocate hFile), hLocate.trans hPlace.symm⟩

/-- From the topmost directory a step up leads nowhere else. -/
theorem walk_up_at_top {links : Nat} {place : Place} {pieces : List String}
    (h : walk tree links ⟨[], tree⟩ pieces = .ok place) (hSome : pieces ≠ []) :
    walk tree links ⟨[], tree⟩ (".." :: pieces) = .ok place := by
  obtain ⟨first, more, rfl⟩ := List.exists_cons_of_ne_nil hSome
  obtain ⟨entries, hDir⟩ := isDir_of_walk_cons h
  have hStep : step tree ⟨[], tree⟩ ".." = .arrives ⟨[], tree⟩ := by
    rw [step, hDir]
    rfl
  rw [walk_cons, hStep]
  exact h

/-- Without links, only from the topmost directory does a name lead to an entry of it. -/
theorem eq_top_of_walk_name {links : Nat} {here place : Place} {name last : String}
    (hLinks : tree.Linkless) (hHere : tree.at? here.names = some here.node) (hName : IsName name)
    (h : walk tree links here [name] = .ok place) (hTop : place.names = [last]) :
    here = ⟨[], tree⟩ := by
  have hStep : stepsAlong [name] = [.name name] := by
    rw [stepsAlong, List.filterMap_cons, step?_of_ne hName.ne_empty hName.ne_here hName.ne_up]
    rfl
  have hSettled := settle_walk hLinks (hLinks.at? hHere) h
  rw [hTop, hStep] at hSettled
  obtain ⟨names, node⟩ := here
  have hNil : names = [] := by simpa [settle] using congrArg List.length hSettled
  subst hNil
  rw [Option.some.inj hHere]

/-- Under `..` a module of the topmost directory is its own mock. -/
theorem mockBeside?_above (hTree : tree.Legal) (hLinks : tree.Linkless)
    (hFile : tree.isFile path = true) (hTop : tree.AtTop path) :
    ∃ mock, mockBeside? tree ".." path = some mock ∧ tree.locate mock = tree.locate path := by
  obtain ⟨place, last, hPlace, hNames⟩ := hTop
  have hRelative : ¬isAbsolute ".." = true := by decide
  obtain ⟨mock, front, name, hMock, hEnd, hName, hPathSteps, hMockSteps, hFound⟩ :=
    exists_first hTree hRelative hFile
  have hText : textOf (.name name) = name := String.ofList_toList
  have hSeparate := separate_textOf path
  have hWalk := walk_of_locate hPlace
  rw [hPathSteps, List.map_append, List.map_singleton, hText] at hWalk hSeparate
  obtain ⟨left, there, hThere, -, hOn⟩ := exists_place_between
    (fun piece hPiece => hSeparate piece (List.mem_append_left _ hPiece)) hWalk
  rw [hOn] at hWalk
  have hAbove := eq_top_of_walk_name hLinks hThere hName hWalk hNames
  rw [hAbove] at hWalk
  have hUp : (stepsOf "..".toList ++ [Component.name name]).map textOf = [".."] ++ [name] := by
    rw [List.map_append, List.map_singleton, hText]
    rfl
  have hLocate : tree.locate mock = .ok place := by
    refine locate_of_walk hMock hEnd ?_
    rw [hMockSteps, List.map_append, hOn, hAbove, hUp]
    exact walk_up_at_top hWalk (by simp)
  exact ⟨mock, hFound (isFile_of_locate hPlace hLocate hFile), hLocate.trans hPlace.symm⟩

/-- A file is no mock beside itself, unless a step to `.` or `..` leads back to its directory. -/
theorem own_iff (hTree : tree.Legal) (hLinks : tree.Linkless) (hDirName : Options.IsDirName mocksDir)
    (hFile : tree.isFile path = true) :
    (∃ mock, mockBeside? tree mocksDir path = some mock ∧
      tree.realPath? mock = tree.realPath? path) ↔
      mocksDir = "." ∨ mocksDir = ".." ∧ tree.AtTop path := by
  constructor
  · intro h
    obtain ⟨mock, hMock, hSame⟩ := h
    obtain ⟨dir, file, other, place, there, hPlace, hNames, hThere, hOther⟩ :=
      names_of_mockBeside? hTree hLinks hDirName.2.1 hFile hMock
    have hEq := (realPath?_eq_iff hThere hPlace).mp hSame
    rw [hNames, hOther] at hEq
    rcases stepsOf_of_isDirName hDirName with ⟨hHere, -⟩ | ⟨hUp, hSteps⟩ | ⟨-, hSteps⟩
    · exact Or.inl hHere
    · have hLength : dir.length - 1 = dir.length := by
        simpa [hSteps, settle] using congrArg List.length hEq
      have hNil : dir = [] := List.length_eq_zero_iff.mp (by omega)
      exact Or.inr ⟨hUp, place, file, hPlace, by simp [hNames, hNil]⟩
    · have hLength := congrArg List.length hEq
      simp [hSteps, settle] at hLength
  · intro h
    rcases h with rfl | ⟨rfl, hTop⟩
    · obtain ⟨mock, hMock, hLocate⟩ := mockBeside?_here hTree hFile
      exact ⟨mock, hMock, realPath?_of_locate hLocate⟩
    · obtain ⟨mock, hMock, hLocate⟩ := mockBeside?_above hTree hLinks hFile hTop
      exact ⟨mock, hMock, realPath?_of_locate hLocate⟩

/-- The mock found for a module of the project is a file. It is another file than the module, in a
directory of the name that the options give, unless that name is `.` or `..`, which the options let
through; and a module is its own mock exactly if the name is `.`, or is `..` and the module stands in
the topmost directory. -/
theorem mock_apart_iff (o : Options) (tree : FileTree) (root specifier path : String)
    (hOptions : o.validate = .ok ()) (hTree : tree.Legal) (hLinks : tree.Linkless)
    (hLocal : Module.isBare specifier = false) (hFile : tree.isFile path = true) :
    (∀ mock, manualMock? tree root o.mocksDir specifier path = some mock →
      tree.isFile mock = true ∧
      (tree.realPath? mock ≠ tree.realPath? path ∧ tree.InDirNamed o.mocksDir mock ↔
        o.mocksDir ≠ "." ∧ o.mocksDir ≠ "..")) ∧
    ((∃ mock, manualMock? tree root o.mocksDir specifier path = some mock ∧
        tree.realPath? mock = tree.realPath? path) ↔
      o.mocksDir = "." ∨ o.mocksDir = ".." ∧ tree.AtTop path) := by
  have hDirName := Options.isDirName_of_validate hOptions
  have hOwn := own_iff hTree hLinks hDirName hFile
  rw [manualMock?_of_isFile hLocal hFile]
  refine ⟨?_, hOwn⟩
  intro mock hMock
  refine ⟨isFile_of_mockBeside? hTree hMock, ?_, ?_⟩
  · intro h
    have hName := h.2.isName
    exact ⟨hName.ne_here, hName.ne_up⟩
  · intro h
    constructor
    · intro hSame
      rcases hOwn.mp ⟨mock, hMock, hSame⟩ with hHere | ⟨hUp, -⟩
      · exact h.1 hHere
      · exact h.2 hUp
    · obtain ⟨dir, file, other, place, there, -, -, hThere, hOther⟩ :=
        names_of_mockBeside? hTree hLinks hDirName.2.1 hFile hMock
      rcases stepsOf_of_isDirName hDirName with ⟨hHere, -⟩ | ⟨hUp, -⟩ | ⟨-, hSteps⟩
      · exact absurd hHere h.1
      · exact absurd hUp h.2
      · refine ⟨there, dir, other, hThere, ?_⟩
        rw [hOther, hSteps]
        simp [settle]

/-- A module with a mock beside it. -/
def mockedModule : FileTree := .dir [
  ("src", .dir [("api.ts", .file []), ("__mocks__", .dir [("api.ts", .file [])])])]

theorem legal_mockedModule : mockedModule.Legal := by
  have hMocks : FileTree.Legal (.dir [("api.ts", .file [])]) :=
    .dir _ (by decide) (List.forall_mem_singleton.mpr (.file []))
  have hSource : FileTree.Legal
      (.dir [("api.ts", .file []), ("__mocks__", .dir [("api.ts", .file [])])]) :=
    .dir _ (by decide)
      (List.forall_mem_cons.mpr ⟨.file [], List.forall_mem_singleton.mpr hMocks⟩)
  exact .dir _ (by decide) (List.forall_mem_singleton.mpr hSource)

theorem linkless_mockedModule : mockedModule.Linkless := by
  have hMocks : FileTree.Linkless (.dir [("api.ts", .file [])]) :=
    .dir _ (List.forall_mem_singleton.mpr (.file []))
  have hSource : FileTree.Linkless
      (.dir [("api.ts", .file []), ("__mocks__", .dir [("api.ts", .file [])])]) :=
    .dir _ (List.forall_mem_cons.mpr ⟨.file [], List.forall_mem_singleton.mpr hMocks⟩)
  exact .dir _ (List.forall_mem_singleton.mpr hSource)

/-- By default the mock of the module is found; under `.` the module itself is. -/
theorem module_found_here :
    (∃ mock, manualMock? mockedModule "/" "__mocks__" "./api" "/src/api.ts" = some mock ∧
      mockedModule.realPath? mock ≠ mockedModule.realPath? "/src/api.ts" ∧
      mockedModule.InDirNamed "__mocks__" mock) ∧
    ({ entryPath := "/p.ts", mocksDir := "." } : Options).validate = .ok () ∧
    ∃ mock, manualMock? mockedModule "/" "." "./api" "/src/api.ts" = some mock ∧
      mockedModule.realPath? mock = mockedModule.realPath? "/src/api.ts" := by
  have hFile : mockedModule.isFile "/src/api.ts" = true := by decide +kernel
  obtain ⟨hDefault, -⟩ := mock_apart_iff { entryPath := "/p.ts" } mockedModule "/" "./api"
    "/src/api.ts" (by decide +kernel) legal_mockedModule linkless_mockedModule (by decide) hFile
  have hFound : manualMock? mockedModule "/" "__mocks__" "./api" "/src/api.ts" =
      some "/src/__mocks__/api.ts" := by decide +kernel
  obtain ⟨-, hApart⟩ := hDefault _ hFound
  have hHere : ({ entryPath := "/p.ts", mocksDir := "." } : Options).validate = .ok () := by
    decide +kernel
  obtain ⟨-, hOwn⟩ := mock_apart_iff { entryPath := "/p.ts", mocksDir := "." } mockedModule "/"
    "./api" "/src/api.ts" hHere legal_mockedModule linkless_mockedModule (by decide) hFile
  exact ⟨⟨_, hFound, hApart.mpr (by decide)⟩, hHere, hOwn.mpr (Or.inl rfl)⟩

end Standin.Mock
