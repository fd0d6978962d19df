import Standin.Proofs.Extraction.Accounting
import Standin.Proofs.Mock.ManualPlaces
import Standin.Proofs.Session.Runs

namespace Standin.Extraction

theorem mem_of_mem_distinct {taken ps : List Placed} {p : Placed} (h : p ∈ (distinct taken ps).1) :
    p ∈ ps := by
  induction ps generalizing taken with
  | nil => exact h
  | cons first more ih =>
    rw [distinct] at h
    split at h
    · exact List.mem_cons_of_mem _ (ih h)
    · rcases List.mem_cons.mp h with rfl | h
      · exact List.mem_cons_self
      · exact List.mem_cons_of_mem _ (ih h)

/-- The entries of a text's manifest are the calls of its registrations, without the duplicates. -/
theorem calls_ofText (s : Setting) (text : List Char) : ∃ rs : List Registration,
    (ofText s text).manifest.calls =
      (distinct [] (rs.filterMap (s.placed? text))).1.map (·.call) := by
  rw [ofText]
  dsimp only
  rw [resolveAll_eq, Mock.Manifest.ofCalls_of_apart (distinct_apart _ _).1]
  exact ⟨_, rfl⟩

/-- Every entry of an extracted manifest is the call of a registration. -/
theorem exists_registration {s : Setting} {e : Extraction} {c : Mock.Call}
    (hExtract : extract s = .ok e) (hc : c ∈ e.manifest.calls) : ∃ r, s.callOf r = .ok c := by
  unfold extract at hExtract
  split at hExtract
  · next text hRead =>
    obtain ⟨rs, hCalls⟩ := calls_ofText s text.toList
    rw [← Except.ok.inj hExtract, hCalls] at hc
    obtain ⟨p, hKept, hOwn⟩ := List.mem_map.mp hc
    obtain ⟨r, -, hPlaced⟩ := List.mem_filterMap.mp (mem_of_mem_distinct hKept)
    refine ⟨r, ?_⟩
    unfold Setting.placed? at hPlaced
    split at hPlaced
    · next call hCall => rw [hCall, ← hOwn, ← Option.some.inj hPlaced]
    · cases hPlaced
  · cases hExtract

/-- An entry's redirect is the manual mock found for its specifier and its path. -/
theorem redirect_of_mem {s : Setting} {e : Extraction} {c : Mock.Call}
    (hExtract : extract s = .ok e) (hc : c ∈ e.manifest.calls) :
    c.redirect = Mock.manualMock? s.tree s.root s.options.mocksDir c.specifier c.path := by
  obtain ⟨r, hCall⟩ := exists_registration hExtract hc
  unfold Setting.callOf at hCall
  split at hCall
  · cases hCall
  · cases hCall
    rfl

end Standin.Extraction

namespace Standin.Session

open Standin.Path Standin.Mock

theorem root_mem_dirs (s : Session) : s.root ∈ s.watchTargets.dirs := by
  unfold watchTargets Options.watchTargets
  dsimp only
  split <;> simp

/-- A file in a directory of mocks is watched unless it is part of an installed package. -/
theorem isRelevant_iff {s : Session} {path : String}
    (h : .name s.options.mocksDir ∈ components path) :
    s.watchTargets.isRelevant path = true ↔
      Same path s.options.entryPath ∨ .name "node_modules" ∉ components path := by
  have hConfig : s.watchTargets.configFile = s.options.entryPath := rfl
  have hMocks : s.watchTargets.mocksDir = s.options.mocksDir := rfl
  unfold WatchTargets.isRelevant
  rw [hConfig, hMocks]
  by_cases hSame : Same path s.options.entryPath
  · simp [hSame]
  · by_cases hPackage : .name "node_modules" ∈ components path
    · simp [hSame, hPackage]
    · simp [hSame, hPackage, h]

theorem fileChanged_eq_none_iff (s : Session) (tree : FileTree) (server : DevServer)
    (path : String) : s.fileChanged tree server path = .ok none ↔
      s.watchTargets.isRelevant path = false := by
  constructor
  · intro h
    by_contra hRelevant
    rw [fileChanged_of_relevant s tree server (by simpa using hRelevant)] at h
    split at h <;> simp at h
  · exact fileChanged_of_not_relevant s tree server

/-- The manual mock of an entry has the directory of mocks among its components, so a session takes
notice of it exactly if it is the configuration file or no component of it is `node_modules`. The
mock of a package, or of a module that does not exist, stands below the root, which is watched; any
other mock stands beside its module, below each watched directory that the module stands below. -/
theorem redirect_watched (s : Session) (tree : FileTree) (e : Extraction) (c : Call) (mock : String)
    (hOptions : s.options.validate = .ok ()) (hHere : s.options.mocksDir ≠ ".")
    (hUp : s.options.mocksDir ≠ "..") (hTree : tree.Legal)
    (hExtract : extract (s.setting tree) = .ok e) (hc : c ∈ e.manifest.calls)
    (hRedirect : c.redirect = some mock) :
    .name s.options.mocksDir ∈ components mock ∧
    (s.watchTargets.isRelevant mock = true ↔
      Same mock s.options.entryPath ∨ .name "node_modules" ∉ components mock) ∧
    (∀ (now : FileTree) (server : DevServer), s.fileChanged now server mock = .ok none ↔
      ¬(Same mock s.options.entryPath ∨ .name "node_modules" ∉ components mock)) ∧
    (Module.isBare c.specifier = true ∨ tree.isFile c.path = false →
      s.root ∈ s.watchTargets.dirs ∧ startsWith mock s.root = true) ∧
    (Module.isBare c.specifier = false → tree.isFile c.path = true →
      (∃ name, components mock =
        (components c.path).dropLast ++ [.name s.options.mocksDir, .name name]) ∧
      ∀ dir ∈ s.watchTargets.dirs, startsWith c.path dir = true → ¬Same c.path dir →
        startsWith mock dir = true) := by
  obtain ⟨hSome, hSlash, -⟩ := Options.isDirName_of_validate hOptions
  have hName : IsName s.options.mocksDir := ⟨hSome, hHere, hUp, hSlash⟩
  have hMock : manualMock? tree s.root s.options.mocksDir c.specifier c.path = some mock :=
    (Extraction.redirect_of_mem hExtract hc).symm.trans hRedirect
  have hPlace := manualMock?_place hTree hName hMock
  have hMem : .name s.options.mocksDir ∈ components mock := by
    rcases hPlace with ⟨-, hBelow⟩ | ⟨-, -, name, hBeside⟩
    · exact hBelow.subset (by simp)
    · simp [hBeside]
  have hRelevant := isRelevant_iff hMem
  refine ⟨hMem, hRelevant, ?_, ?_, ?_⟩
  · intro now server
    rw [fileChanged_eq_none_iff, ← hRelevant, Bool.not_eq_true]
  · intro hOutside
    rcases hPlace with ⟨-, hBelow⟩ | ⟨hPath, hFile, -⟩
    · exact ⟨root_mem_dirs s, startsWith_iff.mpr ((List.prefix_append _ _).trans hBelow)⟩
    · simp [hPath, hFile] at hOutside
  · intro hPath hFile
    rcases hPlace with ⟨hOutside, -⟩ | ⟨-, -, name, hBeside⟩
    · simp [hPath, hFile] at hOutside
    · refine ⟨⟨name, hBeside⟩, ?_⟩
      intro dir _ hStarts hOther
      rw [startsWith_iff, hBeside]
      exact (prefix_dropLast_of_startsWith hStarts hOther).trans (List.prefix_append _ _)

def pathsText : String := "f('/r/a');f('/r/node_modules/b');f('/m/c')"

/-- A directory with a file, the mock of that file and other entries. -/
def withMock (name : String) (others : List (String × FileTree)) : FileTree :=
  .dir ((name, .file []) :: ("__mocks__", .dir [(name, .file [])]) :: others)

/-- A module of a project, one of a package installed in it, and one of another project, each with a
mock beside it. -/
def projects : FileTree := .dir [
  ("r", withMock "a"
    [("p.js", .file pathsText.toUTF8.toList), ("node_modules", withMock "b" [])]),
  ("m", withMock "c" [])]

theorem legal_withMock {name : String} {others : List (String × FileTree)} (hName : IsName name)
    (hNames : ∀ entry ∈ others, IsName entry.1) (hNodes : ∀ entry ∈ others, entry.2.Legal) :
    (withMock name others).Legal := by
  have hMocks : IsName "__mocks__" := by decide
  have hMock : FileTree.Legal (.dir [(name, .file [])]) :=
    .dir _ (List.forall_mem_singleton.mpr hName) (List.forall_mem_singleton.mpr (.file []))
  refine .dir _ (List.forall_mem_cons.mpr ⟨hName, ?_⟩) (List.forall_mem_cons.mpr ⟨.file [], ?_⟩)
  · exact List.forall_mem_cons.mpr ⟨hMocks, hNames⟩
  · exact List.forall_mem_cons.mpr ⟨hMock, hNodes⟩

theorem legal_projects : projects.Legal := by
  have hPackage : (withMock "b" []).Legal := legal_withMock (by decide) (by simp) (by simp)
  have hOther : (withMock "c" []).Legal := legal_withMock (by decide) (by simp) (by simp)
  have hProject : (withMock "a"
      [("p.js", .file pathsText.toUTF8.toList), ("node_modules", withMock "b" [])]).Legal :=
    legal_withMock (by decide) (by decide)
      (List.forall_mem_cons.mpr ⟨.file _, List.forall_mem_singleton.mpr hPackage⟩)
  exact .dir _ (by decide)
    (List.forall_mem_cons.mpr ⟨hProject, List.forall_mem_singleton.mpr hOther⟩)

def projectSession : Session where
  options := { entryPath := "/r/p.js", callees := ["f"], preserveLinks := true }
  root := "/r"
  mode := .serve

def mockedBy (file mock : String) : Call :=
  { specifier := file, path := file, redirect := some mock }

theorem extract_projects : ∃ e, extract (projectSession.setting projects) = .ok e ∧
    e.manifest.calls = [mockedBy "/r/a" "/r/__mocks__/a",
      mockedBy "/r/node_modules/b" "/r/node_modules/__mocks__/b",
      mockedBy "/m/c" "/m/__mocks__/c"] := by
  have hCalls : (extract (projectSession.setting projects)).toOption.map (·.manifest.calls) =
      some [mockedBy "/r/a" "/r/__mocks__/a",
        mockedBy "/r/node_modules/b" "/r/node_modules/__mocks__/b",
        mockedBy "/m/c" "/m/__mocks__/c"] := by decide +kernel
  cases hExtract : extract (projectSession.setting projects) with
  | error fault =>
    rw [hExtract] at hCalls
    cases hCalls
  | ok e =>
    rw [hExtract] at hCalls
    exact ⟨e, rfl, Option.some.inj hCalls⟩

/-- The mock of a module of the project is watched. -/
theorem project_mock_watched : ∃ e c, extract (projectSession.setting projects) = .ok e ∧
    c ∈ e.manifest.calls ∧ c.redirect = some "/r/__mocks__/a" ∧
    projectSession.watchTargets.isRelevant "/r/__mocks__/a" = true ∧
    (∀ (now : FileTree) (server : DevServer),
      projectSession.fileChanged now server "/r/__mocks__/a" ≠ .ok none) ∧
    startsWith "/r/__mocks__/a" "/r" = true := by
  obtain ⟨e, hExtract, hCalls⟩ := extract_projects
  have hMem : mockedBy "/r/a" "/r/__mocks__/a" ∈ e.manifest.calls := by simp [hCalls]
  obtain ⟨-, hRelevant, hChanged, -, hBeside⟩ := redirect_watched projectSession projects e
    (mockedBy "/r/a" "/r/__mocks__/a") "/r/__mocks__/a" (by decide +kernel) (by decide) (by decide)
    legal_projects hExtract hMem rfl
  have hOwn : .name "node_modules" ∉ components "/r/__mocks__/a" := by decide +kernel
  obtain ⟨-, hDirs⟩ := hBeside (by decide +kernel) (by decide +kernel)
  refine ⟨e, _, hExtract, hMem, rfl, hRelevant.mpr (Or.inr hOwn), ?_, ?_⟩
  · intro now server hNone
    exact (hChanged now server).mp hNone (Or.inr hOwn)
  · exact hDirs "/r" (by decide +kernel) (by decide +kernel) (by decide +kernel)

/-- The mock of a package's file is in use and its changes are not noticed, and the mock of a module
of another project stands below no watched directory. -/
theorem package_mock_not_watched : projectSession.options.validate = .ok () ∧
    ∃ e, extract (projectSession.setting projects) = .ok e ∧
      (∃ c ∈ e.manifest.calls, c.redirect = some "/r/node_modules/__mocks__/b" ∧
        projectSession.watchTargets.isRelevant "/r/node_modules/__mocks__/b" = false) ∧
      ∃ c ∈ e.manifest.calls, c.redirect = some "/m/__mocks__/c" ∧
        ∀ dir ∈ projectSession.watchTargets.dirs, startsWith "/m/__mocks__/c" dir = false := by
  obtain ⟨e, hExtract, hCalls⟩ := extract_projects
  refine ⟨by decide +kernel, e, hExtract, ?_, ?_⟩
  · exact ⟨_, by rw [hCalls]; exact List.mem_cons_of_mem _ List.mem_cons_self, rfl,
      by decide +kernel⟩
  · refine ⟨mockedBy "/m/c" "/m/__mocks__/c", by simp [hCalls], rfl, ?_⟩
    decide +kernel

end Standin.Session
