import Standin.Basic
import Standin.FileTree.Basic

namespace Standin.Module

open Standin.Text

def stripChars (id : List Char) : List Char :=
  let unmarked := match id with
    | '\x00' :: rest => rest
    | _ => id
  replaceChar '\\' '/' (before (fun c => c == '?' || c == '#') unmarked)

/-- The id without marker, query and hash, with forward slashes only. -/
def strip (id : String) : String := String.ofList (stripChars id.toList)

/-- What follows the last `/deps/` on the first line. -/
def afterDeps? : List Char → Option (List Char)
  | [] => none
  | c :: rest =>
    if c = '\n' then none
    else match afterDeps? rest with
      | some name => some name
      | none =>
        if "/deps/".toList.isPrefixOf (c :: rest) then some ((c :: rest).drop 6) else none

/-- The text up to the first `.js` that nothing but the rest of the last line follows. -/
def beforeScriptSuffix : List Char → List Char
  | [] => []
  | c :: rest =>
    if ".js".toList.isPrefixOf (c :: rest) ∧ '\n' ∉ rest.drop 2 then []
    else c :: beforeScriptSuffix rest

def cleanChars (id : List Char) : List Char :=
  let stripped := stripChars id
  if contains "/deps/".toList stripped then
    let name := (afterDeps? stripped).getD stripped
    replaceChar '_' '/' (beforeScriptSuffix name)
  else stripped

/-- The bare specifier a pre-bundled dependency was built from; any other id is only stripped. -/
def clean (id : String) : String := String.ofList (cleanChars id.toList)

/-- Whether a specifier names a package rather than a file. -/
def isBare (specifier : String) : Bool :=
  match specifier.toList with
  | '.' :: _ | '/' :: _ | '\x00' :: _ => false
  | _ => true

/-- How ids are compared: by their text alone, or through the links of a file tree. -/
inductive Naming
  | asWritten
  | followingLinks
deriving DecidableEq, Repr

/-- The normal form of a stripped id: the real path of an existing file, else the id itself. -/
def resolved (naming : Naming) (tree : FileTree) (stripped : String) : String :=
  match naming with
  | .asWritten => stripped
  | .followingLinks =>
    match tree.realPath? stripped with
    | some path => String.ofList (Text.replaceChar '\\' '/' path.toList)
    | none => stripped

def normalize (naming : Naming) (tree : FileTree) (id : String) : String :=
  resolved naming tree (strip id)

abbrev NormalCache := List (String × String)

/-- The normal form of an id, looked up once for all ids that strip to the same text. -/
def normalizeCached (naming : Naming) (tree : FileTree) (cache : NormalCache) (id : String) :
    String × NormalCache :=
  match cache.lookup (strip id) with
  | some normal => (normal, cache)
  | none =>
    let normal := resolved naming tree (strip id)
    (normal, (strip id, normal) :: cache)

end Standin.Module
