import Standin.Path.Basic

namespace Standin

inductive FileTree
  | file (content : List UInt8)
  | link (target : String)
  | dir (entries : List (String × FileTree))

namespace FileTree

inductive Failure
  | notFound
  | notDirectory
  | isDirectory
  | tooManyLinks
  | notUtf8
deriving DecidableEq, Repr

def Failure.message : Failure → String
  | .notFound => "No such file or directory (os error 2)"
  | .notDirectory => "Not a directory (os error 20)"
  | .isDirectory => "Is a directory (os error 21)"
  | .tooManyLinks => "Too many levels of symbolic links (os error 40)"
  | .notUtf8 => "stream did not contain valid UTF-8"

def empty : FileTree := .dir []

instance : Inhabited FileTree := ⟨empty⟩

def entryOf (name : String) : List (String × FileTree) → Option FileTree
  | [] => none
  | (n, t) :: more => if n = name then some t else entryOf name more

/-- The node under a list of names, links not followed. -/
def at? (tree : FileTree) : List String → Option FileTree
  | [] => some tree
  | name :: more =>
    match tree with
    | .dir entries => (entryOf name entries).bind fun t => t.at? more
    | _ => none

/-- A place in the tree: the names that lead to it and what stands there, never a link. -/
structure Place where
  names : List String
  node : FileTree

/-- The pieces of a path that a walk takes one by one. -/
def pieces (path : String) : List String :=
  (Text.split '/' path.toList).map String.ofList

/-- One walk from a place over the pieces of a path; `follow` goes on behind a link. -/
def walkWith (root : FileTree) (follow : Place → List String → Except Failure Place)
    (here : Place) : List String → Except Failure Place
  | [] => .ok here
  | piece :: more =>
    match here.node with
    | .dir entries =>
      if piece = "" ∨ piece = "." then walkWith root follow here more
      else if piece = ".." then
        let above := here.names.dropLast
        match root.at? above with
        | some node => walkWith root follow ⟨above, node⟩ more
        | none => .error .notFound
      else match entryOf piece entries with
        | none => .error .notFound
        | some (.link target) =>
          if target = "" then .error .notFound
          else if Path.isAbsolute target then follow ⟨[], root⟩ (pieces target ++ more)
          else follow here (pieces target ++ more)
        | some node => walkWith root follow ⟨here.names ++ [piece], node⟩ more
    | _ => .error .notDirectory

def walk (root : FileTree) : Nat → Place → List String → Except Failure Place
  | 0 => walkWith root fun _ _ => .error .tooManyLinks
  | links + 1 => walkWith root (walk root links)

def linkLimit : Nat := 40

/-- The place an absolute path leads to, every link followed. -/
def locate (tree : FileTree) (path : String) : Except Failure Place :=
  if Path.isAbsolute path then walk tree linkLimit ⟨[], tree⟩ (pieces path)
  else .error .notFound

def pathOf (names : List String) : String :=
  if names.isEmpty then "/" else String.join (names.map ("/" ++ ·))

def realPath? (tree : FileTree) (path : String) : Option String :=
  match tree.locate path with
  | .ok place => some (pathOf place.names)
  | .error _ => none

def isFile (tree : FileTree) (path : String) : Bool :=
  match tree.locate path with
  | .ok ⟨_, .file _⟩ => true
  | _ => false

def isDirectory (tree : FileTree) (path : String) : Bool :=
  match tree.locate path with
  | .ok ⟨_, .dir _⟩ => true
  | _ => false

/-- The names in a directory, in the order the tree holds them. -/
def namesIn (tree : FileTree) (path : String) : List String :=
  match tree.locate path with
  | .ok ⟨_, .dir entries⟩ => entries.map (·.1)
  | _ => []

def readBytes (tree : FileTree) (path : String) : Except Failure (List UInt8) :=
  match tree.locate path with
  | .ok ⟨_, .file content⟩ => .ok content
  | .ok _ => .error .isDirectory
  | .error failure => .error failure

def decodeUtf8 (bytes : List UInt8) : Except Failure String :=
  match String.fromUTF8? (ByteArray.mk bytes.toArray) with
  | some text => .ok text
  | none => .error .notUtf8

def readText (tree : FileTree) (path : String) : Except Failure String :=
  (tree.readBytes path).bind decodeUtf8

end FileTree

end Standin
