import Standin.Toml.Scalar
import Standin.Toml.Table

namespace Standin.Toml

abbrev Read (α : Type) := Option (α × List Char)

def isBlank (c : Char) : Bool := c == ' ' || c == '\t'

def skipBlank (s : List Char) : List Char := s.dropWhile isBlank

/-- Characters that may stand in a comment or in a text without escapes. -/
def isPrintable (c : Char) : Bool := c == '\t' || (32 ≤ c.toNat && c.toNat ≠ 127)

/-- What follows a line end. -/
def lineEnd? : List Char → Option (List Char)
  | '\n' :: more => some more
  | '\r' :: '\n' :: more => some more
  | _ => none

/-- What follows a comment, if one begins here. -/
def skipComment : List Char → List Char
  | '#' :: more => more.dropWhile isPrintable
  | s => s

/-- What follows blanks and a comment up to the end of the line or of the text. -/
def endLine? (s : List Char) : Option (List Char) :=
  match skipComment (skipBlank s) with
  | [] => some []
  | rest => lineEnd? rest

/-- Skips blanks, comments and line ends. The fuel is the length of the text. -/
def skipLines : Nat → List Char → List Char
  | 0, s => s
  | n + 1, s =>
    let rest := skipComment (skipBlank s)
    match lineEnd? rest with
    | some more => skipLines n more
    | none => rest

def codePoint? (digits : List Char) : Option Char := do
  let n ← if digits.contains '_' then none else digits? 16 digits
  if n.isValidChar then return Char.ofNat n else none

/-- An escape behind its backslash: the character and how many characters it takes. -/
def escape? : List Char → Option (Char × Nat)
  | 'b' :: _ => some ('\x08', 1)
  | 't' :: _ => some ('\t', 1)
  | 'n' :: _ => some ('\n', 1)
  | 'f' :: _ => some ('\x0c', 1)
  | 'r' :: _ => some ('\r', 1)
  | '"' :: _ => some ('"', 1)
  | '\\' :: _ => some ('\\', 1)
  | 'u' :: more => if more.length < 4 then none else (codePoint? (more.take 4)).map (·, 5)
  | 'U' :: more => if more.length < 8 then none else (codePoint? (more.take 8)).map (·, 9)
  | _ => none

/-- A text on one line behind its opening quote. `skip` characters belong to an escape already read.
-/
def lineText (quote : Char) (escapes : Bool) : List Char → Nat → List Char → Read String
  | [], _, _ => none
  | _ :: r, skip + 1, back => lineText quote escapes r skip back
  | c :: r, 0, back =>
    if c = quote then some (String.ofList back.reverse, r)
    else if escapes ∧ c = '\\' then
      match escape? r with
      | some (e, used) => lineText quote escapes r used (e :: back)
      | none => none
    else if isPrintable c then lineText quote escapes r 0 (c :: back)
    else none

/-- How many characters follow a backslash that ends a line: the rest of the line and all blanks and
line ends behind it. -/
def continued? (s : List Char) : Option Nat :=
  let rest := skipBlank s
  match lineEnd? rest with
  | none => none
  | some _ => some (s.takeWhile fun c => isBlank c || c == '\n' || c == '\r').length

/-- How many quotes a text begins with. -/
def quotes (quote : Char) (s : List Char) : Nat := (s.takeWhile (· = quote)).length

/-- A text of several lines behind its opening quotes. Three quotes end it; up to two more before
them belong to it. -/
def longText (quote : Char) (escapes : Bool) : List Char → Nat → List Char → Read String
  | [], _, _ => none
  | _ :: r, skip + 1, back => longText quote escapes r skip back
  | c :: r, 0, back =>
    if c = quote ∧ 3 ≤ quotes quote (c :: r) then
      let extra := min 2 (quotes quote (c :: r) - 3)
      some (String.ofList (back.reverse ++ List.replicate extra quote), r.drop (2 + extra))
    else if escapes ∧ c = '\\' then
      match continued? r with
      | some used => longText quote escapes r used back
      | none =>
        match escape? r with
        | some (e, used) => longText quote escapes r used (e :: back)
        | none => none
    else if c = '\n' ∨ isPrintable c then longText quote escapes r 0 (c :: back)
    else match lineEnd? (c :: r) with
      | some _ => longText quote escapes r 1 ('\n' :: back)
      | none => none

/-- A line end right behind the opening quotes does not count. -/
def dropLineEnd (s : List Char) : List Char := (lineEnd? s).getD s

def quoted (s : List Char) : Read String :=
  match s with
  | '"' :: '"' :: '"' :: more => longText '"' true (dropLineEnd more) 0 []
  | '\'' :: '\'' :: '\'' :: more => longText '\'' false (dropLineEnd more) 0 []
  | '"' :: more => lineText '"' true more 0 []
  | '\'' :: more => lineText '\'' false more 0 []
  | _ => none

def isKeyChar (c : Char) : Bool := c.isAlphanum || c == '_' || c == '-'

/-- One part of a key: a bare word, or a text on one line. -/
def keyPart (s : List Char) : Read String :=
  match s with
  | '"' :: more => lineText '"' true more 0 []
  | '\'' :: more => lineText '\'' false more 0 []
  | _ =>
    match s.takeWhile isKeyChar with
    | [] => none
    | name => some (String.ofList name, s.drop name.length)

/-- A key of parts with points between them, and the text behind it without blanks. -/
def keyParts : Nat → List Char → Option (List String × List Char)
  | 0, _ => none
  | n + 1, s => do
    let (part, rest) ← keyPart (skipBlank s)
    match skipBlank rest with
    | '.' :: more =>
      let (parts, rest) ← keyParts n more
      return (part :: parts, rest)
    | rest => return ([part], rest)

/-- The path of a dotted key and its last part. -/
def splitLast? : List String → Option (List String × String)
  | [] => none
  | parts => parts.getLast?.map (parts.dropLast, ·)

mutual

/-- The value at the start of a text. The fuel is the length of the text. -/
def value : Nat → List Char → Read Json
  | 0, _ => none
  | n + 1, s =>
    match s with
    | '[' :: more => items n [] (skipLines more.length more)
    | '\x7b' :: more =>
      match skipBlank more with
      | '\x7d' :: rest => some (.object [], rest)
      | rest => (inlineMembers n [] rest).map fun (members, rest) =>
          (.object (membersJson members), rest)
    | '"' :: _ | '\'' :: _ => (quoted s).map fun (text, rest) => (.string text, rest)
    | _ =>
      let (run, rest) := takeScalar s
      (scalar? run).map (·, rest)

/-- The items of an array, between which lines may end. -/
def items : Nat → List Json → List Char → Read Json
  | 0, _, _ => none
  | n + 1, back, s =>
    match s with
    | ']' :: rest => some (.array back.reverse, rest)
    | _ =>
      match value n s with
      | none => none
      | some (item, rest) =>
        match skipLines rest.length rest with
        | ',' :: more => items n (item :: back) (skipLines more.length more)
        | ']' :: more => some (.array (item :: back).reverse, more)
        | _ => none

/-- The members of a table written in place, on one line. -/
def inlineMembers : Nat → Members → List Char → Read Members
  | 0, _, _ => none
  | n + 1, sofar, s =>
    match keyParts s.length s with
    | some (parts, '=' :: more) =>
      match value n (skipBlank more), splitLast? parts with
      | some (v, rest), some (path, key) =>
        match defineDotted path key v sofar with
        | none => none
        | some sofar =>
          match skipBlank rest with
          | ',' :: more => inlineMembers n sofar more
          | '\x7d' :: more => some (sofar, more)
          | _ => none
      | _, _ => none
    | _ => none

end

/-- What is read so far, and the header that keys now belong to. -/
structure Document where
  members : Members := []
  header : List String := []

/-- A header behind its first bracket: `[a.b]` opens a table, `[[a.b]]` one more table. -/
def header? (d : Document) (s : List Char) : Option (Document × List Char) := do
  let (isNext, s) := match s with
    | '[' :: more => (true, more)
    | _ => (false, s)
  let (parts, rest) ← keyParts (s.length + 1) s
  let rest ← mark? ']' rest
  let rest ← if isNext then mark? ']' rest else some rest
  let (path, key) ← splitLast? parts
  let members ← atHeader (if isNext then openNext key else openTable key) path d.members
  return (⟨members, parts⟩, rest)

def keyValue? (d : Document) (s : List Char) : Option (Document × List Char) := do
  let (parts, rest) ← keyParts (s.length + 1) s
  let rest ← mark? '=' rest
  let (v, rest) ← value (rest.length + 1) (skipBlank rest)
  let (path, key) ← splitLast? parts
  let members ← atHeader (defineDotted path key v) d.header d.members
  return ({ d with members }, rest)

/-- Lines up to the end of the text. The fuel is the length of the text. -/
def document? (d : Document) : Nat → List Char → Option Document
  | 0, s => if s.isEmpty then some d else none
  | n + 1, s =>
    match skipLines s.length s with
    | [] => some d
    | '[' :: more => do
      let (d, rest) ← header? d more
      document? d n (← endLine? rest)
    | rest => do
      let (d, rest) ← keyValue? d rest
      document? d n (← endLine? rest)

def read? (s : String) : Option (List (String × Json)) :=
  let text := match s.toList with
    | c :: more => if c.toNat = 0xFEFF then more else c :: more
    | [] => []
  (document? {} (text.length + 1) text).map fun d => membersJson d.members

end Standin.Toml
