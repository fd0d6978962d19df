import Standin.FileTree.Basic
import Standin.Mock.Manifest
import Standin.Module

namespace Standin.Mock

/-- How the host runs: one build, or a server that also hands out pre-bundled dependencies. -/
inductive HostMode
  | build
  | serve
deriving DecidableEq, Repr

inductive MatchRule
  | exactPath
  | cleanIdentity
deriving DecidableEq, Repr

def MatchRule.ofMode : HostMode → MatchRule
  | .build => .exactPath
  | .serve => .cleanIdentity

open Standin.Module in
/-- The registration of an id: by its normal form, then, under clean identity, by its clean id. -/
def MatchRule.find? (rule : MatchRule) (naming : Naming) (tree : FileTree) (m : Manifest)
    (id : String) : Option Call :=
  let normal := normalize naming tree id
  match rule with
  | .exactPath => m.atPath? normal
  | .cleanIdentity => (m.atPath? normal).or (m.withCleanId? (clean normal))

def entriesOf (tree : FileTree) (dir : String) : List String :=
  ((tree.namesIn dir).mergeSort fun a b => a ≤ b).map (Path.append dir)

def isFileOfStem (tree : FileTree) (stem path : String) : Bool :=
  Path.fileStem? path == some stem && tree.isFile path

def fileOfStem? (tree : FileTree) (dir stem : String) : Option String :=
  (entriesOf tree dir).find? (isFileOfStem tree stem)

/-- What an entry of a directory of mocks gives for a name: itself, or the index in it. -/
def mockAt? (tree : FileTree) (name path : String) : Option String :=
  if Path.fileStem? path ≠ some name ∧ Path.fileName? path ≠ some name then none
  else if tree.isFile path then some path
  else if tree.isDirectory path then fileOfStem? tree path "index"
  else none

/-- The mock of a name in a directory of mocks: the first entry that gives one. -/
def mockIn? (tree : FileTree) (dir name : String) : Option String :=
  (entriesOf tree dir).findSome? (mockAt? tree name)

/-- The mock beside a module: the file of the same name, else the first of the same stem. -/
def mockBeside? (tree : FileTree) (mocksDir path : String) : Option String := do
  let dir := Path.append (← Path.parent? path) mocksDir
  let same := Path.append dir (← Path.fileName? path)
  if tree.isFile same then return same
  fileOfStem? tree dir (← Path.fileStem? path)

/-- The manual mock of a module that a specifier resolved to. -/
def manualMock? (tree : FileTree) (root mocksDir specifier path : String) : Option String :=
  let mocks := Path.append root mocksDir
  if Module.isBare specifier then
    let dir := match Path.parent? specifier with
      | some parent => Path.append mocks parent
      | none => mocks
    (Path.fileName? specifier).bind (mockIn? tree dir)
  else if !tree.isFile path then (Path.fileName? path).bind (mockIn? tree mocks)
  else mockBeside? tree mocksDir path

end Standin.Mock
