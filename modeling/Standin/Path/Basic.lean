import Standin.Basic

namespace Standin.Path

open Standin.Text

inductive Component
  | root
  | here
  | up
  | name (text : String)
deriving DecidableEq, Repr

def isAbsolute (path : String) : Bool := path.toList.head? == some '/'

/-- What a slash-separated piece stands for after the first one. -/
def step? (piece : List Char) : Option Component :=
  if piece = [] ∨ piece = ['.'] then none
  else if piece = ['.', '.'] then some .up
  else some (.name (String.ofList piece))

def componentsOf (path : List Char) : List Component :=
  match split '/' path with
  | [] => []
  | first :: more =>
    (if path.head? = some '/' then [.root]
      else if first = ['.'] then [.here]
      else (step? first).toList) ++ more.filterMap step?

def components (path : String) : List Component := componentsOf path.toList

/-- Repeated slashes, inner `.` steps and a trailing slash do not count; a leading `.` and every `..`
do. -/
def Same (p q : String) : Prop := components p = components q

instance (p q : String) : Decidable (Same p q) :=
  inferInstanceAs (Decidable (components p = components q))

theorem Same.refl (p : String) : Same p p := rfl

theorem Same.symm {p q : String} (h : Same p q) : Same q p := Eq.symm h

theorem Same.trans {p q r : String} (h : Same p q) (k : Same q r) : Same p r := Eq.trans h k

/-- Whether the components of `base` begin those of `path`. -/
def startsWith (path base : String) : Bool := (components base).isPrefixOf (components path)

def fileName? (path : String) : Option String :=
  match (components path).getLast? with
  | some (.name text) => some text
  | _ => none

/-- Removes the pieces at the end that are no component. -/
def trimEnd (isFirst : Bool) : List (List Char) → List (List Char)
  | [] => []
  | piece :: more =>
    match trimEnd false more with
    | [] => if piece = [] ∨ (piece = ['.'] ∧ !isFirst) then [] else [piece]
    | kept => piece :: kept

/-- The path without its last component; none when there is no component to remove. -/
def parent? (path : String) : Option String :=
  let pieces := split '/' path.toList
  if isAbsolute path then
    match trimEnd false pieces.tail with
    | [] => none
    | kept => some (String.ofList ('/' :: join '/' (trimEnd false kept.dropLast)))
  else
    match trimEnd true pieces with
    | [] => none
    | kept => some (String.ofList (join '/' (trimEnd true kept.dropLast)))

/-- `path` read from `base`: an absolute path replaces it. -/
def append (base path : String) : String :=
  if isAbsolute path then path
  else if base.toList.getLast? = none ∨ base.toList.getLast? = some '/' then base ++ path
  else base ++ "/" ++ path

/-- A file name cut at its last dot. A name whose only dot leads it has no extension. -/
def cutExtension (name : List Char) : List Char × Option (List Char) :=
  let ext := (name.reverse.takeWhile (· ≠ '.')).reverse
  let stem := (name.reverse.dropWhile (· ≠ '.')).reverse.dropLast
  if name = ['.', '.'] ∨ stem = [] then (name, none) else (stem, some ext)

def stem (name : String) : String := String.ofList (cutExtension name.toList).1

def extension? (name : String) : Option String :=
  (cutExtension name.toList).2.map String.ofList

def fileStem? (path : String) : Option String := (fileName? path).map stem

end Standin.Path
