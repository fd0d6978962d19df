import Standin.FileTree.Basic

namespace Standin.FileTree

def setEntry (name : String) (node : FileTree) :
    List (String × FileTree) → List (String × FileTree)
  | [] => [(name, node)]
  | (n, t) :: more => if n = name then (n, node) :: more else (n, t) :: setEntry name node more

/-- Puts a node under a list of names; directories missing on the way are made. -/
def put? (node : FileTree) (tree : FileTree) : List String → Option FileTree
  | [] => some node
  | name :: more =>
    match tree with
    | .dir entries =>
      (put? node ((entryOf name entries).getD empty) more).map fun t =>
        .dir (setEntry name t entries)
    | _ => none

def erase (tree : FileTree) : List String → FileTree
  | [] => tree
  | name :: more =>
    match tree with
    | .dir entries =>
      if more.isEmpty then .dir (entries.filter (·.1 ≠ name))
      else match entryOf name entries with
        | some t => .dir (setEntry name (t.erase more) entries)
        | none => tree
    | _ => tree

/-- The names of a path whose directory exists; its last name is not followed. -/
def namesOf? (tree : FileTree) (path : String) : Option (List String) :=
  match Path.parent? path, Path.fileName? path with
  | some parent, some name =>
    match tree.locate parent with
    | .ok ⟨names, .dir _⟩ => some (names ++ [name])
    | _ => none
  | _, _ => none

def putAt (tree : FileTree) (path : String) (node : FileTree) : FileTree :=
  ((tree.namesOf? path).bind (put? node tree)).getD tree

def makeDir (tree : FileTree) (path : String) : FileTree :=
  match tree.locate path with
  | .ok _ => tree
  | .error _ => tree.putAt path empty

/-- The paths that lead to an absolute path, the shortest first. -/
def pathsTo (path : String) : List String :=
  let names := (pieces path).filter (· ≠ "")
  (List.range names.length).map fun n => pathOf (names.take (n + 1))

def makeDirs (tree : FileTree) (path : String) : FileTree := (pathsTo path).foldl makeDir tree

def linkTarget? (tree : FileTree) (path : String) : Option String :=
  match (tree.namesOf? path).bind tree.at? with
  | some (.link target) => (Path.parent? path).map (Path.append · target)
  | _ => none

/-- The path behind at most the given number of links. -/
def behindLinks (tree : FileTree) : Nat → String → String
  | 0, path => path
  | n + 1, path =>
    match tree.linkTarget? path with
    | some target => behindLinks tree n target
    | none => path

/-- Writes a file, through links, and makes the directories above it. -/
def writeFile (tree : FileTree) (path : String) (content : List UInt8) : FileTree :=
  let tree := ((Path.parent? path).map tree.makeDirs).getD tree
  let target := tree.behindLinks linkLimit path
  if tree.isDirectory target then tree else tree.putAt target (.file content)

/-- Makes a link, and the directories above it. -/
def makeLink (tree : FileTree) (path target : String) : FileTree :=
  let tree := ((Path.parent? path).map tree.makeDirs).getD tree
  if ((tree.namesOf? path).bind tree.at?).isSome then tree else tree.putAt path (.link target)

def remove (tree : FileTree) (path : String) : FileTree :=
  match tree.namesOf? path with
  | some names => tree.erase names
  | none => tree

end Standin.FileTree
