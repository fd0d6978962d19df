import Standin.FileTree.Basic
import Standin.Resolve.Exports

namespace Standin

structure Resolver where
  tree : FileTree
  extensions : List String
  conditions : List String
  /-- Whether directories and files are known by their real paths. -/
  followLinks : Bool

namespace Resolver

open Resolve

variable (r : Resolver)

abbrev Outcome := Except Failure (Option String)

/-- A path, or the path with the first extension that makes it a file. -/
def asFile (path : String) : Option String :=
  (path :: r.extensions.map (path ++ ·)).find? r.tree.isFile

def index (dir : String) : Option String := r.asFile (Path.append dir "index")

/-- A package manifest: where it stands and what it says. -/
structure Manifest where
  dir : String
  content : Json

namespace Manifest

def path (m : Manifest) : String := Path.append m.dir manifestName

def text? (m : Manifest) (key : String) : Option String :=
  match m.content.member? key with
  | some (.string text) => some text
  | _ => none

end Manifest

def isBlankByte (b : UInt8) : Bool := b == 32 || b == 9 || b == 10 || b == 12 || b == 13

def manifest? (dir : String) : Except Failure (Option Manifest) := do
  let path := Path.append dir manifestName
  match r.tree.readBytes path with
  | .error _ => return none
  | .ok bytes =>
    let bytes := if [0xEF, 0xBB, 0xBF].isPrefixOf bytes then bytes.drop 3 else bytes
    if bytes.all isBlankByte then throw (.badManifest path "File is empty" 0 0)
    match FileTree.decodeUtf8 bytes with
    | .error _ => throw (.badManifest path "invalid unicode code point" 1 0)
    | .ok text =>
      match Json.readChars text.toList with
      | .ok content => return some ⟨dir, content⟩
      | .error refusal =>
        let (line, column) := refusal.place text.toList
        throw (.badManifest path s!"{refusal.fault.message} at line {line} column {column}" line
          column)

/-- The main file of a package reads as a path from its directory. -/
def mainPath (main : String) : String :=
  if main.startsWith "./" || main.startsWith "../" then main else "./" ++ main

/-- A directory stands for its main file, else for its index. -/
def asDirectory (dir : String) : Outcome := do
  let main ← match ← r.manifest? dir with
    | some m => pure ((m.text? "main").map fun main => joined dir (mainPath main))
    | none => pure none
  let found := main.bind fun path => (r.asFile path).or (r.index path)
  return found.or (r.index dir)

/-- A path that ends in a slash is only a directory. -/
def asFileOrDirectory (path : String) (onlyDirectory : Bool) : Outcome := do
  if !onlyDirectory then
    if let some file := r.asFile path then return some file
  if r.tree.isDirectory path then r.asDirectory path else return none

/-- A path and the directories above it, the nearest first. -/
def ancestors : Nat → String → List String
  | 0, _ => []
  | n + 1, path =>
    path :: match Path.parent? path with
      | some parent => ancestors n parent
      | none => []

def above (path : String) : List String := ancestors (path.length + 1) path

/-- The directories of installed packages that can be seen from a directory. -/
def packageDirs (dir : String) : List String :=
  ((above dir).map (Path.append · "node_modules")).filter r.tree.isDirectory

/-- The nearest manifest of a list of directories. -/
def nearestManifest : List String → Except Failure (Option Manifest)
  | [] => .ok none
  | dir :: more => do
    match ← r.manifest? dir with
    | some m => return some m
    | none => nearestManifest more

def scope? (dir : String) : Except Failure (Option Manifest) :=
  r.nearestManifest ((above dir).dropWhile (!r.tree.isDirectory ·))

/-- The file behind a path that a table gave. -/
def behindTable (specifier path : String) : Except Failure String := do
  match ← r.asFileOrDirectory path false with
  | some file => return file
  | none => throw (.notFound specifier)

/-- What a package exports for a path in it, if it says what it exports. -/
def exportOf (m : Manifest) (specifier : String) (subpath suffix : List Char) : Outcome := do
  match m.content.member? "exports" with
  | none => return none
  | some exports =>
    let path ← exported r.conditions m.dir exports ('.' :: subpath) suffix
    return some (← r.behindTable specifier path)

/-- A package names itself by its own name. -/
def ownExport (dir specifier : String) (suffix : List Char) : Outcome := do
  match ← r.scope? dir with
  | none => return none
  | some m =>
    match (m.text? "name").bind fun name => behindName? name.toList specifier.toList with
    | some subpath => r.exportOf m specifier subpath suffix
    | none => return none

def inPackages (dir specifier : String) (suffix : List Char) : Outcome := do
  let (name, subpath) := packageParts specifier.toList
  let package := joined dir (String.ofList name)
  if r.tree.isDirectory package then
    if let some m ← r.manifest? package then
      if let some file ← r.exportOf m specifier subpath suffix then return some file
  else
    if subpath ≠ [] then return none
    let hasScope := (Path.parent? package).any r.tree.isDirectory
    if name.head? = some '@' ∧ !hasScope then return none
  let path := joined dir specifier
  if r.tree.isDirectory path then
    if let some file ← r.asDirectory path then return some file
  return r.asFile path

def amongPackages (specifier : String) (suffix : List Char) : List String → Outcome
  | [] => .ok none
  | dir :: more => do
    match ← r.inPackages dir specifier suffix with
    | some file => return some file
    | none => amongPackages specifier suffix more

/-- The package itself, then the packages installed above. -/
def package (dir specifier : String) (suffix : List Char) : Except Failure String := do
  if let some file ← r.ownExport dir specifier suffix then return file
  match ← r.amongPackages specifier suffix (r.packageDirs dir) with
  | some file => return file
  | none => throw (.notFound specifier)

/-- The package that the target of a `#` name leads to, in one of some directories of packages. -/
def importedPackage (specifier : String) (suffix : List Char) :
    List String → Except Failure String
  | [] => .error (.notFound specifier)
  | dir :: more => do
    let (name, subpath) := packageParts specifier.toList
    let package := joined dir (String.ofList name)
    if !r.tree.isDirectory package then importedPackage specifier suffix more
    else
      if let some m ← r.manifest? package then
        if let some exports := m.content.member? "exports" then
          return ← exported r.conditions m.dir exports ('.' :: subpath) suffix
      let path := "." ++ String.ofList subpath
      match ← r.asFileOrDirectory (joined package path) (subpath = [] || path.endsWith "/") with
      | some file => return file
      | none => throw (.notFound path)

/-- A `#` name stands for a file of the package, or for another package. -/
def importTarget (m : Manifest) (e : Entry) (suffix : List Char) : Leaf := fun target => do
  let s ← targetPath target
  if isLocal s.path then localTarget m.dir m.path e s.path
  else if ['.', '.', '/'].isPrefixOf s.path ∨ ['/'].isPrefixOf s.path then
    throw (.invalidTarget (String.ofList s.path) (String.ofList e.key) m.path)
  else
    let name := String.ofList (← filled m.path e s.path)
    let suffix := if s.suffix = [] then suffix else s.suffix
    return some (← r.importedPackage name suffix (r.packageDirs m.dir))

def hashName (dir specifier : String) (suffix : List Char) : Except Failure String := do
  match ← r.scope? dir with
  | none => throw (.notFound specifier)
  | some m =>
    match m.content.member? "imports" with
    | some (.object table) =>
      if specifier = "#" ∨ specifier.startsWith "#/" then throw (.invalidName specifier m.path)
      match entry? table specifier.toList with
      | none => throw (.notDefined specifier m.path)
      | some e =>
        let nothing := Failure.notExported (String.ofList (e.star.getD ['.'])) m.dir r.conditions
        match ← pick r.conditions nothing (r.importTarget m e suffix) e.target with
        | some path => r.behindTable specifier path
        | none => throw (.notDefined specifier m.path)
    | _ => throw (.notFound specifier)

/-- A path that has been cut off its query and fragment. -/
def path (dir path : String) (suffix : List Char) : Except Failure String := do
  match (Path.components path).head? with
  | some .root => file path (path.endsWith "/")
  | some .here => file (joined dir path) (path = "." || path.endsWith "/")
  | some .up => file (joined dir path) (path.endsWith "/")
  | _ =>
    if path.startsWith "#" then r.hashName dir path suffix else r.package dir path suffix
where
  file (target : String) (onlyDirectory : Bool) : Except Failure String := do
    match ← r.asFileOrDirectory target onlyDirectory with
    | some file => return file
    | none => throw (.notFound path)

/-- A fragment without a query may also be part of the file's name, which is tried first. -/
def withFragment (dir : String) (s : Specifier) : Except Failure String :=
  let plain := r.path dir (String.ofList s.path) s.suffix
  if s.fragment ≠ [] ∧ s.query = [] then
    match r.path dir (String.ofList (s.path ++ s.fragment)) [] with
    | .ok file => .ok file
    | .error _ => plain
  else plain

def realPath (path : String) : Except Failure String :=
  if r.followLinks then
    match r.tree.locate path with
    | .ok place => .ok (FileTree.pathOf place.names)
    | .error failure => .error (.unreadable failure.message)
  else .ok path

/-- The file that a specifier names for a script in a directory. -/
def resolve (dir specifier : String) : Except Failure String := do
  let dir ← r.realPath dir
  match Specifier.ofText? specifier.toList with
  | none => throw (.noPath specifier)
  | some s => r.realPath (← r.withFragment dir s)

end Resolver

end Standin
