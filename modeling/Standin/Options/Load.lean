import Standin.FileTree.Basic
import Standin.Json.Basic
import Standin.Options.Basic
import Standin.Toml.Reader

namespace Standin.Options.Environment

def isBlank (c : Char) : Bool :=
  c == ' ' || c == '\t' || c == '\n' || c == '\r' || c == '\x0c'

def skipBlank (s : List Char) : List Char := s.dropWhile isBlank

def trimmed (s : List Char) : List Char := (skipBlank (skipBlank s).reverse).reverse

def isMark (c : Char) : Bool :=
  c == ',' || c == '\x7b' || c == '\x7d' || c == '[' || c == ']'

abbrev Read (α : Type) := Option (α × List Char)

def digits? (s : List Char) : Option Nat :=
  if s ≠ [] ∧ s.all Char.isDigit then Toml.digits? 10 s else none

/-- An integer of 64 bits, or one with a sign. -/
def integer? (s : List Char) : Option Json :=
  let (negative, more) := Toml.signed s
  match digits? more with
  | some n =>
    if negative then
      if n ≤ Json.Number.signedLimit then some (.number (.integer (-(n : Int)))) else none
    else if n < Json.Number.unsignedLimit then some (.number (.integer n)) else none
  | none => none

/-- A number with a point, at least one digit and maybe an exponent. One that is too large for a
floating-point number counts as no value. -/
def decimal? (s : List Char) : Option Json := do
  guard ('.' ∈ s)
  let (negative, body) := Toml.signed s
  let isE (c : Char) : Bool := c == 'e' || c == 'E'
  let mantissa := body.takeWhile (!isE ·)
  let exponent ← match body.drop mantissa.length with
    | [] => pure 0
    | _ :: more => do
      let (negative, more) := Toml.signed more
      let n ← digits? more
      pure (if negative then -(n : Int) else n)
  let whole := mantissa.takeWhile (· ≠ '.')
  let fraction := (mantissa.drop whole.length).drop 1
  let digits ← digits? (whole ++ fraction)
  let number := Json.Number.decimal negative digits (exponent - fraction.length)
  return if number.isFinite then .number number else .null

/-- A bare value: a number where it reads as one, else its text. -/
def bare (s : List Char) : Json :=
  let text := trimmed s
  ((decimal? text).or (integer? text)).getD (.string (String.ofList text))

def quoted (s : List Char) : Read String := Toml.lineText '"' true s 0 []

def isKeyChar (c : Char) : Bool := c.isAlphanum || c == '_' || c == '-'

def key (s : List Char) : Read String :=
  match s with
  | '"' :: more => quoted more
  | _ =>
    match s.takeWhile isKeyChar with
    | [] => none
    | name => some (String.ofList name, s.drop name.length)

def setMember (key : String) (v : Json) : List (String × Json) → List (String × Json)
  | [] => [(key, v)]
  | (k, old) :: more => if k = key then (k, v) :: more else (k, old) :: setMember key v more

mutual

/-- The value at the start of a text, blanks on both sides included. The fuel is the length of the
text. -/
def value : Nat → List Char → Read Json
  | 0, _ => none
  | n + 1, s =>
    let s := skipBlank s
    let found : Read Json :=
      if "true".toList.isPrefixOf s then some (.bool true, s.drop 4)
      else if "false".toList.isPrefixOf s then some (.bool false, s.drop 5)
      else match s with
        | '\x7b' :: more => members n [] more
        | '[' :: more => items n [] more
        | '"' :: more => (quoted more).map fun (text, rest) => (.string text, rest)
        | ['\'', c, '\''] => some (.string (String.ofList [c]), [])
        | '\'' :: c :: '\'' :: more => some (.string (String.ofList [c]), more)
        | '\'' :: _ => none
        | _ =>
          let run := s.takeWhile (!isMark ·)
          some (bare run, s.drop run.length)
    found.map fun (v, rest) => (v, skipBlank rest)

def items : Nat → List Json → List Char → Read Json
  | 0, _, _ => none
  | n + 1, back, s =>
    match s with
    | ']' :: more => some (.array back.reverse, more)
    | _ =>
      match value n s with
      | none => none
      | some (item, rest) =>
        match rest with
        | ']' :: more => some (.array (item :: back).reverse, more)
        | ',' :: more => items n (item :: back) more
        | _ => none

def members : Nat → List (String × Json) → List Char → Read Json
  | 0, _, _ => none
  | n + 1, sofar, s =>
    match s with
    | '\x7d' :: more => some (.object sofar, more)
    | _ =>
      match key (skipBlank s) with
      | none => none
      | some (name, rest) =>
        match skipBlank rest with
        | '=' :: rest =>
          match value n rest with
          | none => none
          | some (v, rest) =>
            match rest with
            | '\x7d' :: more => some (.object (setMember name v sofar), more)
            | ',' :: more => members n (setMember name v sofar) more
            | _ => none
        | _ => none

end

/-- The value of a variable. A text that does not read as a value stands for itself. -/
def valueOf (text : String) : Json :=
  let s := text.toList
  if trimmed s = [] then .string text
  else match value (2 * s.length + 2) s with
    | some (v, []) => v
    | _ => .string text

def variableMark : String := "modmock_"

/-- The path of the field that a variable sets. Upper and lower case count alike, and points part a
path. -/
def fieldOf? (name : String) : Option (List String) :=
  let lower := (trimmed name.toList).map Char.toLower
  if variableMark.toList.isPrefixOf lower then
    let field := trimmed (lower.drop variableMark.length)
    let parts := Text.split '.' field
    if parts.contains [] then none else some (parts.map String.ofList)
  else none

/-- A value under a path of names. -/
def nest : List String → Json → Json
  | [], v => v
  | name :: more, v => .object [(name, nest more v)]

end Standin.Options.Environment

namespace Standin

namespace Json

mutual

/-- The value of two layers that both have one: `v` stands over `old`. -/
def merge (old : Json) : Json → Json
  | .object members =>
    match old with
    | .object olds => .object (mergeMembers olds members)
    | _ => .object members
  | v => v

/-- Sets members one after the other. -/
def mergeMembers (olds : List (String × Json)) : List (String × Json) → List (String × Json)
  | [] => olds
  | (key, v) :: more =>
    let merged := match olds.lookup key with
      | some old => merge old v
      | none => v
    mergeMembers (Options.Environment.setMember key merged olds) more

end

end Json

namespace Options

def fileName : String := "modmock.toml"

/-- The options of a file; a missing file has none, and a malformed one is refused. -/
def fileLayer (tree : FileTree) (dir : String) : Except Fault Json :=
  let path := Path.append dir fileName
  if !tree.isFile path then .ok (.object [])
  else match tree.readText path with
    | .error failure => .error (.options failure.message)
    | .ok text =>
      match Toml.read? text with
      | some members => .ok (.object members)
      | none => .error (.options s!"{path} is malformed")

def environmentLayer (settings : List (String × String)) : Json :=
  settings.foldl (fun layer (name, text) =>
    match Environment.fieldOf? name with
    | some path => layer.merge (Environment.nest path (Environment.valueOf text))
    | none => layer) (.object [])

/-- Reads the options of a directory. -/
def load (tree : FileTree) (dir : String) (settings : List (String × String)) :
    Except Fault Options := do
  let file ← fileLayer tree dir
  let all := ((toJson {}).merge file).merge (environmentLayer settings)
  match ofJson? all with
  | some options => return options
  | none => throw (.options "a field has a value of the wrong kind")

end Options

end Standin
