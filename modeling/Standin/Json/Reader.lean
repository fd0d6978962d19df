import Standin.Json.Basic

namespace Standin.Json

inductive Fault
  | expectedValue
  | endInList
  | endInObject
  | endInString
  | endInValue
  | expectedListComma
  | expectedObjectComma
  | expectedColon
  | expectedKey
  | expectedWord
  | controlCharacter
  | badEscape
  | loneSurrogate
  | badNumber
  | trailingComma
  | trailingText
  | tooDeep
deriving DecidableEq, Repr

def Fault.message : Fault → String
  | .expectedValue => "expected value"
  | .endInList => "EOF while parsing a list"
  | .endInObject => "EOF while parsing an object"
  | .endInString => "EOF while parsing a string"
  | .endInValue => "EOF while parsing a value"
  | .expectedListComma => "expected `,` or `]`"
  | .expectedObjectComma => "expected `,` or `\x7d`"
  | .expectedColon => "expected `:`"
  | .expectedKey => "key must be a string"
  | .expectedWord => "expected ident"
  | .controlCharacter => "control character (\\u0000-\\u001F) found while parsing a string"
  | .badEscape => "invalid escape"
  | .loneSurrogate => "lone leading surrogate in hex escape"
  | .badNumber => "invalid number"
  | .trailingComma => "trailing comma"
  | .trailingText => "trailing characters"
  | .tooDeep => "recursion limit exceeded"

structure Refusal where
  fault : Fault
  rest : List Char

abbrev Read (α : Type) := Except Refusal (α × List Char)

def fail {α : Type} (fault : Fault) (rest : List Char) : Read α := .error ⟨fault, rest⟩

def isBlank (c : Char) : Bool := c == ' ' || c == '\n' || c == '\r' || c == '\t'

def skipBlank (s : List Char) : List Char := s.dropWhile isBlank

def hexValue? (c : Char) : Option Nat :=
  if c.isDigit then some (c.toNat - '0'.toNat)
  else if 'a' ≤ c ∧ c ≤ 'f' then some (c.toNat - 'a'.toNat + 10)
  else if 'A' ≤ c ∧ c ≤ 'F' then some (c.toNat - 'A'.toNat + 10)
  else none

/-- The UTF-16 unit that four hexadecimal digits at the start of the text give. -/
def unit? : List Char → Option Nat
  | a :: b :: c :: d :: _ => do
    return (((← hexValue? a) * 16 + (← hexValue? b)) * 16 + (← hexValue? c)) * 16 + (← hexValue? d)
  | _ => none

/-- The character an escape stands for and how many characters follow the backslash in it. -/
def escape? (s : List Char) : Except Fault (Char × Nat) :=
  match s with
  | [] => .error .endInString
  | '"' :: _ => .ok ('"', 1)
  | '\\' :: _ => .ok ('\\', 1)
  | '/' :: _ => .ok ('/', 1)
  | 'b' :: _ => .ok ('\x08', 1)
  | 'f' :: _ => .ok ('\x0c', 1)
  | 'n' :: _ => .ok ('\n', 1)
  | 'r' :: _ => .ok ('\r', 1)
  | 't' :: _ => .ok ('\t', 1)
  | 'u' :: more =>
    match unit? more with
    | none => .error .badEscape
    | some high =>
      if 0xDC00 ≤ high ∧ high < 0xE000 then .error .loneSurrogate
      else if 0xD800 ≤ high ∧ high < 0xDC00 then
        match more.drop 4 with
        | '\\' :: 'u' :: low =>
          match unit? low with
          | some low =>
            if 0xDC00 ≤ low ∧ low < 0xE000 then
              .ok (Char.ofNat (0x10000 + (high - 0xD800) * 0x400 + (low - 0xDC00)), 11)
            else .error .loneSurrogate
          | none => .error .badEscape
        | _ => .error .loneSurrogate
      else .ok (Char.ofNat high, 5)
  | _ => .error .badEscape

/-- The rest of a string after its opening quote. `skip` characters belong to an escape already
read; `back` holds what the string has so far, its end first. -/
def stringTail : List Char → Nat → List Char → Read String
  | [], _, _ => fail .endInString []
  | _ :: r, skip + 1, back => stringTail r skip back
  | c :: r, 0, back =>
    if c = '"' then .ok (String.ofList back.reverse, r)
    else if c = '\\' then
      match escape? r with
      | .ok (e, used) => stringTail r used (e :: back)
      | .error fault => fail fault r
    else if c.toNat < 32 then fail .controlCharacter (c :: r)
    else stringTail r 0 (c :: back)

def digitsValue (digits : List Char) : Nat :=
  digits.foldl (fun n c => n * 10 + (c.toNat - '0'.toNat)) 0

def takeDigits (s : List Char) : List Char × List Char :=
  (s.takeWhile Char.isDigit, s.dropWhile Char.isDigit)

/-- The exponent at the start of a text, when one is written there. -/
def exponent? (s : List Char) : Read (Option Int) :=
  match s with
  | e :: r =>
    if e = 'e' ∨ e = 'E' then
      let (negative, r) := match r with
        | '-' :: r => (true, r)
        | '+' :: r => (false, r)
        | _ => (false, r)
      match takeDigits r with
      | ([], rest) => fail .badNumber rest
      | (digits, rest) =>
        let value : Int := digitsValue digits
        .ok (some (if negative then -value else value), rest)
    else .ok (none, s)
  | [] => .ok (none, s)

/-- The digits after a decimal point at the start of a text, when one is written there. -/
def fraction? (s : List Char) : Read (Option (List Char)) :=
  match s with
  | '.' :: r =>
    match takeDigits r with
    | ([], rest) => fail .badNumber rest
    | (digits, rest) => .ok (some digits, rest)
  | _ => .ok (none, s)

/-- Integers outside 64 bits count as decimals. -/
def Number.ofInteger (negative : Bool) (value : Nat) : Number :=
  if negative then
    if value = 0 then .decimal true 0 0
    else if value ≤ signedLimit then .integer (-value) else .decimal true value 0
  else if value < unsignedLimit then .integer value else .decimal false value 0

def readNumber (s : List Char) : Except Refusal (Json × List Char) := do
  let (negative, r) := match s with
    | '-' :: r => (true, r)
    | _ => (false, s)
  let (whole, r) := takeDigits r
  if whole = [] then throw ⟨.badNumber, r⟩
  else if whole.length > 1 ∧ whole.head? = some '0' then throw ⟨.badNumber, r⟩
  else
    let (fraction, r) ← fraction? r
    let (exponent, r) ← exponent? r
    match fraction, exponent with
    | none, none => return (.number (Number.ofInteger negative (digitsValue whole)), r)
    | fraction, exponent =>
      let fraction := fraction.getD []
      return (.number (.decimal negative (digitsValue (whole ++ fraction))
        (exponent.getD 0 - fraction.length)), r)

/-- Sets a member; a key written twice keeps its place and its last value. -/
def setMember (key : String) (value : Json) : List (String × Json) → List (String × Json)
  | [] => [(key, value)]
  | (k, v) :: more => if k = key then (k, value) :: more else (k, v) :: setMember key value more

def word (text : String) (value : Json) (s : List Char) : Read Json :=
  if text.toList.isPrefixOf s then .ok (value, s.drop text.length) else fail .expectedWord s

mutual

def value : Nat → List Char → Read Json
  | 0, s => fail .tooDeep s
  | depth + 1, s =>
    match s with
    | [] => fail .endInValue []
    | '"' :: r => (stringTail r 0 []).map fun (text, rest) => (.string text, rest)
    | '[' :: r =>
      match skipBlank r with
      | ']' :: rest => .ok (.array [], rest)
      | rest => items depth [] rest
    | '\x7b' :: r =>
      match skipBlank r with
      | '\x7d' :: rest => .ok (.object [], rest)
      | rest => members depth [] rest
    | 't' :: _ => word "true" (.bool true) s
    | 'f' :: _ => word "false" (.bool false) s
    | 'n' :: _ => word "null" .null s
    | c :: _ => if c.isDigit ∨ c = '-' then readNumber s else fail .expectedValue s

def items : Nat → List Json → List Char → Read Json
  | 0, _, s => fail .tooDeep s
  | depth + 1, back, s =>
    match s with
    | [] => fail .endInList []
    | ']' :: _ => fail .trailingComma s
    | _ =>
      match value depth s with
      | .error refusal => .error refusal
      | .ok (item, rest) =>
        match skipBlank rest with
        | ',' :: more => items depth (item :: back) (skipBlank more)
        | ']' :: more => .ok (.array (item :: back).reverse, more)
        | [] => fail .endInList []
        | more => fail .expectedListComma more

def members : Nat → List (String × Json) → List Char → Read Json
  | 0, _, s => fail .tooDeep s
  | depth + 1, sofar, s =>
    match s with
    | [] => fail .endInObject []
    | '\x7d' :: _ => fail .trailingComma s
    | '"' :: r =>
      match stringTail r 0 [] with
      | .error refusal => .error refusal
      | .ok (key, rest) =>
        match skipBlank rest with
        | ':' :: more =>
          match value depth (skipBlank more) with
          | .error refusal => .error refusal
          | .ok (v, rest) =>
            match skipBlank rest with
            | ',' :: more => members depth (setMember key v sofar) (skipBlank more)
            | '\x7d' :: more => .ok (.object (setMember key v sofar), more)
            | [] => fail .endInObject []
            | more => fail .expectedObjectComma more
        | [] => fail .endInObject []
        | more => fail .expectedColon more
    | _ => fail .expectedKey s

end

def readChars (s : List Char) : Except Refusal Json :=
  match value (2 * s.length + 2) (skipBlank s) with
  | .error refusal => .error refusal
  | .ok (v, rest) =>
    match skipBlank rest with
    | [] => .ok v
    | more => .error ⟨.trailingText, more⟩

def read? (s : String) : Option Json :=
  match readChars s.toList with
  | .ok v => some v
  | .error _ => none

end Standin.Json
