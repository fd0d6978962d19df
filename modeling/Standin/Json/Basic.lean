namespace Standin

/-- A number keeps what was written: an integer, or decimal digits with a power of ten. -/
inductive Json.Number
  | integer (value : Int)
  | decimal (negative : Bool) (digits : Nat) (exponent : Int)
deriving DecidableEq, Repr

/-- The first number beyond the signed integers of 64 bits; its negative is still one of them. -/
def Json.Number.signedLimit : Nat := Nat.pow 2 63

/-- The first number that an unsigned integer of 64 bits cannot hold. -/
def Json.Number.unsignedLimit : Nat := Nat.pow 2 64

/-- The first number that rounds to none of the finite floating-point numbers of 64 bits. -/
def Json.Number.floatLimit : Nat := Nat.pow 2 1024 - Nat.pow 2 970

/-- Whether the nearest floating-point number is finite. Powers of ten that settle the question by
themselves are not computed. -/
def Json.Number.isFinite : Json.Number → Bool
  | .integer value => value.natAbs < floatLimit
  | .decimal _ digits exponent =>
    let power := exponent.natAbs
    if digits = 0 then true
    else if 0 ≤ exponent then power ≤ 308 && digits * Nat.pow 10 power < floatLimit
    else digits.log2 < power || digits < floatLimit * Nat.pow 10 power

/-- Members of an object stand in the order of the text. -/
inductive Json
  | null
  | bool (value : Bool)
  | number (value : Json.Number)
  | string (value : String)
  | array (items : List Json)
  | object (members : List (String × Json))
deriving Inhabited, Repr

namespace Json

def ofNat (n : Nat) : Json := .number (.integer n)

def ofStrings (texts : List String) : Json := .array (texts.map .string)

def member? (key : String) : Json → Option Json
  | .object members => members.lookup key
  | _ => none

def Number.render : Number → String
  | .integer value => toString value
  | .decimal negative digits exponent =>
    (if negative then "-" else "") ++ toString digits ++ "e" ++ toString exponent

def hexDigit (n : Nat) : Char := (Nat.digitChar n)

/-- How a character is written inside quotes: quotes, backslashes and control characters escaped. -/
def quoteChar (c : Char) : List Char :=
  if c = '"' then ['\\', '"']
  else if c = '\\' then ['\\', '\\']
  else if c = '\n' then ['\\', 'n']
  else if c = '\r' then ['\\', 'r']
  else if c = '\t' then ['\\', 't']
  else if c = '\x08' then ['\\', 'b']
  else if c = '\x0c' then ['\\', 'f']
  else if c.toNat < 32 then
    ['\\', 'u', '0', '0', hexDigit (c.toNat / 16), hexDigit (c.toNat % 16)]
  else [c]

def quoteChars (s : List Char) : List Char := '"' :: s.flatMap quoteChar ++ ['"']

def quote (s : String) : String := String.ofList (quoteChars s.toList)

mutual

def render : Json → String
  | .null => "null"
  | .bool value => if value then "true" else "false"
  | .number value => value.render
  | .string value => quote value
  | .array items => "[" ++ renderItems items ++ "]"
  | .object members => "\x7b" ++ renderMembers members ++ "\x7d"

def renderItems : List Json → String
  | [] => ""
  | [item] => render item
  | item :: more => render item ++ "," ++ renderItems more

def renderMembers : List (String × Json) → String
  | [] => ""
  | [(key, value)] => quote key ++ ":" ++ render value
  | (key, value) :: more => quote key ++ ":" ++ render value ++ "," ++ renderMembers more

end

end Json

end Standin
