import Standin.Basic
import Standin.Json.Reader
import Standin.Path.Basic

namespace Standin.Resolve

/-- Query and fragment keep the marks they begin with. -/
structure Specifier where
  path : List Char
  query : List Char := []
  fragment : List Char := []
deriving DecidableEq, Repr

namespace Specifier

/-- Cuts at the first `?` and at the first `#`, whichever comes; a `#` behind a NUL belongs to the
path. The text before a position is given with its end first. -/
def cut (back : List Char) (query? : Bool) : List Char → List Char × List Char × List Char
  | [] => ([], [], [])
  | c :: rest =>
    if c = '#' ∧ back.head? ≠ some '\x00' then ([], [], c :: rest)
    else if query? ∨ c = '?' then
      let (path, query, fragment) := cut (c :: back) true rest
      (path, c :: query, fragment)
    else
      let (path, query, fragment) := cut (c :: back) false rest
      if c = '\x00' ∧ rest.head? = some '#' then (path, query, fragment)
      else (c :: path, query, fragment)

/-- A first character that tells the kind of a specifier begins neither query nor fragment. None
when no path is left. -/
def ofText? (s : List Char) : Option Specifier :=
  let skipped := match s with
    | c :: _ => if c = '/' ∨ c = '.' ∨ c = '#' then [c] else []
    | [] => []
  let (path, query, fragment) := cut skipped.reverse false (s.drop skipped.length)
  let path := skipped ++ path
  if path = [] then none else some ⟨path, query, fragment⟩

def suffix (s : Specifier) : List Char := s.query ++ s.fragment

end Specifier

/-- A bare specifier as the name of a package and what follows it, with its slash. The name of a
scoped package has two parts. -/
def packageParts (s : List Char) : List Char × List Char :=
  let first := s.takeWhile (· ≠ '/')
  let rest := s.dropWhile (· ≠ '/')
  match s.head?, rest with
  | some '@', slash :: more =>
    (first ++ slash :: more.takeWhile (· ≠ '/'), more.dropWhile (· ≠ '/'))
  | _, _ => (first, rest)

/-- What follows a package's name in a specifier that names it. -/
def behindName? (name s : List Char) : Option (List Char) :=
  if name.isPrefixOf s then
    match s.drop name.length with
    | [] => some []
    | '/' :: more => some ('/' :: more)
    | _ => none
  else none

end Standin.Resolve

namespace Standin

namespace Json.Refusal

/-- The line and the column, both from one, of the character that a reading stopped at. -/
def place (r : Refusal) (text : List Char) : Nat × Nat :=
  let read := text.take (text.length - r.rest.length)
  let line := read.count '\n' + 1
  let behind := (read.reverse.takeWhile (· ≠ '\n')).reverse
  let width := (String.ofList behind).utf8ByteSize
  (line, if r.rest.isEmpty then width else width + 1)

end Json.Refusal

namespace Resolve

inductive Failure
  | noPath (specifier : String)
  | notFound (specifier : String)
  | notExported (subpath package : String) (conditions : List String)
  /-- A name beginning with `#` that a package does not define. -/
  | notDefined (specifier manifest : String)
  /-- A name beginning with `#` that no package can define. -/
  | invalidName (specifier manifest : String)
  | invalidTarget (target key manifest : String)
  /-- Exports whose keys are partly paths and partly conditions, or a directory. -/
  | invalidExports (manifest : String)
  | badManifest (manifest reason : String) (line column : Nat)
  | unreadable (reason : String)
deriving DecidableEq, Repr

def manifestName : String := "package.json"

def Failure.message : Failure → String
  | noPath specifier =>
    s!"The specifiers must be a non-empty string. Received \"{specifier}\""
  | notFound specifier => s!"Cannot find module '{specifier}'"
  | notExported subpath package conditions =>
    s!"\"{subpath}\" is not exported under the conditions {Text.shownList conditions} " ++
      s!"from package {package} (see exports field in {package}/{manifestName})"
  | notDefined specifier manifest =>
    s!"Package import specifier \"{specifier}\" is not defined in package {manifest}"
  | invalidName specifier manifest =>
    s!"Invalid module \"{specifier}\" specifier is not a valid subpath for the " ++
      s!"\"exports\" resolution of {manifest}"
  | invalidTarget target key manifest =>
    s!"Invalid \"exports\" target \"{target}\" defined for '{key}' in the package config {manifest}"
  | invalidExports manifest =>
    s!"Invalid package config \"{manifest}\", \"exports\" cannot contain some keys starting " ++
      "with '.' and some not. The exports object must either be an object of package subpath " ++
      "keys or an object of main entry condition name keys only."
  | badManifest manifest reason line column =>
    s!"JSONError \x7b path: {Text.shown manifest}, message: {Text.shown reason}, " ++
      s!"line: {line}, column: {column} \x7d"
  | unreadable reason => reason

end Resolve

end Standin

namespace Standin.Resolve

/-- `path` read from `base`; the parts that go up are applied to the text. -/
def joined (base path : String) : String :=
  if Path.isAbsolute path then path
  else (Path.components path).foldl step base
where
  step (base : String) : Path.Component → String
    | .up => (Path.parent? base).getD base
    | .name text => Path.append base text
    | _ => base

/-- What a table gives for a target that is a text. -/
abbrev Leaf := String → Except Failure (Option String)

mutual

/-- The file of a target: a text stands for itself, an object for the first member whose condition
holds and that gives a file, an array for the first item that gives one. -/
def pick (conditions : List String) (nothing : Failure) (leaf : Leaf) :
    Json → Except Failure (Option String)
  | .string text => leaf text
  | .object members => pickMember conditions nothing leaf members
  | .array items =>
    if items.isEmpty then .error nothing else .ok (pickItem conditions nothing leaf items)
  | _ => .ok none

def pickMember (conditions : List String) (nothing : Failure) (leaf : Leaf) :
    List (String × Json) → Except Failure (Option String)
  | [] => .ok none
  | (key, target) :: more =>
    if key = "default" ∨ key ∈ conditions then
      match pick conditions nothing leaf target with
      | .ok none => pickMember conditions nothing leaf more
      | found => found
    else pickMember conditions nothing leaf more

def pickItem (conditions : List String) (nothing : Failure) (leaf : Leaf) :
    List Json → Option String
  | [] => none
  | target :: more =>
    match pick conditions nothing leaf target with
    | .ok (some path) => some path
    | _ => pickItem conditions nothing leaf more

end

/-- A key with a star: the text before the star and behind it. -/
def starParts? (key : List Char) : Option (List Char × List Char) :=
  if '*' ∈ key then some (key.takeWhile (· ≠ '*'), (key.dropWhile (· ≠ '*')).drop 1) else none

/-- The part of a name that stands for a key's star, or for what follows a key that ends in a
slash. -/
def matched? (key name : List Char) : Option (List Char) :=
  if ¬(['.', '/'].isPrefixOf key ∨ ['#'].isPrefixOf key) then none
  else match starParts? key with
    | some (before, behind) =>
      let fits := before.isPrefixOf name && !behind.contains '*' &&
        (behind.isEmpty || (key.length ≤ name.length && behind.isSuffixOf name))
      let star := (name.drop before.length).take (name.length - before.length - behind.length)
      if fits then some star else none
    | none =>
      if key.getLast? = some '/' ∧ key.isPrefixOf name then some (name.drop key.length) else none

/-- The length of a key up to its star; without a star, its whole length. -/
def baseLength (key : List Char) : Nat :=
  if '*' ∈ key then (key.takeWhile (· ≠ '*')).length + 1 else key.length

/-- Whether a key is chosen instead of another: the longer base wins, then a star, then length. -/
def isMoreSpecific (key than : List Char) : Bool :=
  if than.isEmpty then true
  else if baseLength key ≠ baseLength than then baseLength than < baseLength key
  else if '*' ∉ than then true
  else if '*' ∉ key then false
  else than.length < key.length

structure Entry where
  key : List Char
  /-- What the star stands for; none for an exact key. -/
  star : Option (List Char)
  target : Json

/-- The best key with a star. -/
def bestEntry (name : List Char) : List (String × Json) → Option Entry → Option Entry
  | [], best => best
  | (key, target) :: more, best =>
    let better : Option Entry := match matched? key.toList name with
      | some star =>
        if isMoreSpecific key.toList ((best.map (·.key)).getD []) then
          some ⟨key.toList, some star, target⟩
        else best
      | none => best
    bestEntry name more better

/-- The entry for a name: its exact key, else the most specific key with a star. A name that ends in
a slash has none. -/
def entry? (table : List (String × Json)) (name : List Char) : Option Entry :=
  if name.getLast? = some '/' then none
  else
    let exact := if '*' ∈ name then none else table.lookup (String.ofList name)
    match exact with
    | some target => some ⟨name, none, target⟩
    | none => bestEntry name table none

/-- A target with the star filled in. -/
def filled (manifest : String) (e : Entry) (target : List Char) : Except Failure (List Char) :=
  match e.star with
  | none => .ok target
  | some star =>
    if '*' ∈ e.key ∨ '*' ∈ target then
      .ok (target.flatMap fun c => if c = '*' then star else [c])
    else if e.key.getLast? = some '/' ∧ target.getLast? = some '/' then .ok (target ++ star)
    else .error (.invalidExports manifest)

/-- Whether a target leaves its package or enters another. -/
def leavesPackage (target : String) : Bool :=
  (Path.components target).zipIdx.any fun (c, i) => match c with
    | .up => true
    | .here => 0 < i
    | .name text => text.toLower == "node_modules"
    | .root => false

def isLocal (target : List Char) : Bool := ['.', '/'].isPrefixOf target

/-- The file a local target names in a package directory. -/
def localTarget (dir manifest : String) (e : Entry) (target : List Char) :
    Except Failure (Option String) := do
  let path := String.ofList (← filled manifest e target)
  if leavesPackage path then throw (.invalidTarget path (String.ofList e.key) manifest)
  return some (joined dir path)

def targetPath (target : String) : Except Failure Specifier :=
  match Specifier.ofText? target.toList with
  | some s => .ok s
  | none => .error (.noPath target)

/-- What a package exports a target as: only files of its own. -/
def exportedTarget (dir manifest : String) (e : Entry) : Leaf := fun target => do
  let s ← targetPath target
  if isLocal s.path then localTarget dir manifest e s.path
  else throw (.invalidTarget (String.ofList s.path) (String.ofList e.key) manifest)

/-- A table's keys are all paths, or all conditions. -/
def hasMixedKeys (table : List (String × Json)) : Bool :=
  let isPath (m : String × Json) : Bool :=
    m.1.toList.head? == some '.' || m.1.toList.head? == some '#'
  table.any isPath && table.any (!isPath ·)

/-- What the table gives for the package itself, under the name `.`. -/
def mainTarget? (exports : Json) : Option Json :=
  match exports with
  | .string _ | .array _ => some exports
  | .object table =>
    match table.lookup "." with
    | some target => some target
    | none =>
      let namesPaths := table.any fun m =>
        ['.', '/'].isPrefixOf m.1.toList || ['#'].isPrefixOf m.1.toList
      if namesPaths then none else some exports
  | _ => none

/-- The file that a package exports for a path in it. `subpath` begins with a point, and `suffix` is
the query and fragment of the request, which the package itself cannot have. -/
def exported (conditions : List String) (dir : String) (exports : Json)
    (subpath suffix : List Char) : Except Failure String := do
  let manifest := Path.append dir manifestName
  let refusal (path : List Char) := Failure.notExported (String.ofList path) dir conditions
  let table := match exports with
    | .object table => table
    | _ => []
  if hasMixedKeys table then throw (.invalidExports manifest)
  if subpath = ['.'] then
    if suffix ≠ [] then throw (refusal (['.', '/'] ++ suffix))
    if let some target := mainTarget? exports then
      let e : Entry := ⟨['.'], none, target⟩
      if let some path ← pick conditions (refusal ['.']) (exportedTarget dir manifest e) target then
        return path
  match entry? table subpath with
  | none => throw (refusal subpath)
  | some e =>
    let nothing := refusal (e.star.getD ['.'])
    match ← pick conditions nothing (exportedTarget dir manifest e) e.target with
    | some path => return path
    | none => throw (refusal subpath)

end Standin.Resolve
