import Standin.Basic
import Standin.Json.Basic

namespace Standin.Toml

def digitValue? (c : Char) : Option Nat :=
  if c.isDigit then some (c.toNat - '0'.toNat)
  else if 'a' ≤ c ∧ c ≤ 'f' then some (c.toNat - 'a'.toNat + 10)
  else if 'A' ≤ c ∧ c ≤ 'F' then some (c.toNat - 'A'.toNat + 10)
  else none

/-- Digits of a base with low lines between them, as one number. -/
def digits? (base : Nat) : List Char → Option Nat :=
  go none
where
  /-- `sofar` is the number before; a low line needs a digit on both sides. -/
  go (sofar : Option Nat) : List Char → Option Nat
    | [] => sofar
    | '_' :: c :: more =>
      match sofar, digitValue? c with
      | some n, some d => if d < base then go (some (n * base + d)) more else none
      | _, _ => none
    | c :: more =>
      match digitValue? c with
      | some d => if d < base then go (some (sofar.getD 0 * base + d)) more else none
      | none => none

def count (digits : List Char) : Nat := digits.countP (· ≠ '_')

/-- A decimal number without a sign and without leading zeros. -/
def plain? (s : List Char) : Option Nat :=
  if 1 < s.length ∧ s.head? = some '0' then none else digits? 10 s

def signed (s : List Char) : Bool × List Char :=
  match s with
  | '-' :: more => (true, more)
  | '+' :: more => (false, more)
  | _ => (false, s)

def integerOf (negative : Bool) (n : Nat) : Option Json :=
  if negative then
    if n ≤ Json.Number.signedLimit then some (.number (.integer (-(n : Int)))) else none
  else if n < Json.Number.signedLimit then some (.number (.integer n)) else none

def integer? (s : List Char) : Option Json :=
  match s with
  | '0' :: 'x' :: more => (digits? 16 more).bind (integerOf false)
  | '0' :: 'o' :: more => (digits? 8 more).bind (integerOf false)
  | '0' :: 'b' :: more => (digits? 2 more).bind (integerOf false)
  | _ =>
    let (negative, more) := signed s
    (plain? more).bind (integerOf negative)

/-- The exponent behind its letter. -/
def exponent? (s : List Char) : Option Int :=
  let (negative, more) := signed s
  (digits? 10 more).map fun n => if negative then -(n : Int) else n

/-- A number with a fraction, an exponent, or both. One that is too large for a floating-point
number is refused, and one that is too small counts as no value, like the infinities. -/
def float? (s : List Char) : Option Json := do
  let (negative, body) := signed s
  if body = "inf".toList ∨ body = "nan".toList then return .null
  let isE (c : Char) : Bool := c == 'e' || c == 'E'
  let mantissa := body.takeWhile (!isE ·)
  let exponent ← match body.drop mantissa.length with
    | [] => pure none
    | _ :: more => (exponent? more).map some
  let whole := mantissa.takeWhile (· ≠ '.')
  let _ ← plain? whole
  let fraction ← match mantissa.drop whole.length with
    | [] => pure none
    | _ :: more => (digits? 10 more).map fun _ => some more
  guard (fraction.isSome || exponent.isSome)
  let digits ← digits? 10 (whole ++ fraction.getD [])
  let number := Json.Number.decimal negative digits (exponent.getD 0 - count (fraction.getD []))
  guard (negative || number.isFinite)
  return if number.isFinite then .number number else .null

/-- A number of so many digits within limits. -/
def field? (width low high : Nat) (s : List Char) : Option (List Char) := do
  let n ← if (s.take width).all Char.isDigit ∧ width ≤ s.length then digits? 10 (s.take width)
    else none
  guard (low ≤ n && n ≤ high)
  return s.drop width

def mark? (c : Char) : List Char → Option (List Char)
  | d :: more => if c = d then some more else none
  | [] => none

def isLeap (year : Nat) : Bool := year % 4 == 0 && (year % 100 != 0 || year % 400 == 0)

def daysIn (year month : Nat) : Nat :=
  if month = 2 then (if isLeap year then 29 else 28)
  else if month = 4 ∨ month = 6 ∨ month = 9 ∨ month = 11 then 30 else 31

def date? (s : List Char) : Option (List Char) := do
  let year ← digits? 10 (s.take 4)
  let month ← digits? 10 ((s.drop 5).take 2)
  let s ← mark? '-' (← field? 4 0 9999 s)
  let s ← mark? '-' (← field? 2 1 12 s)
  field? 2 1 (daysIn year month) s

def time? (s : List Char) : Option (List Char) := do
  let s ← mark? ':' (← field? 2 0 23 s)
  let s ← mark? ':' (← field? 2 0 59 s)
  let s ← field? 2 0 60 s
  match s with
  | '.' :: more =>
    guard (more.head?.any Char.isDigit)
    return more.dropWhile Char.isDigit
  | _ => return s

/-- Whether a text is an offset from universal time. -/
def isOffset (s : List Char) : Bool :=
  match s with
  | ['Z'] | ['z'] => true
  | c :: more =>
    (c == '+' || c == '-') &&
      (do field? 2 0 59 (← mark? ':' (← field? 2 0 23 more)) : Option (List Char)) == some []
  | [] => false

def isTimeMark (c : Char) : Bool := c == 'T' || c == 't' || c == ' '

/-- Whether a text is a date, a time, or both. -/
def isMoment (s : List Char) : Bool :=
  if time? s = some [] then true
  else match date? s with
    | some [] => true
    | some (c :: more) =>
      isTimeMark c && match time? more with
        | some [] => true
        | some offset => isOffset offset
        | none => false
    | none => false

/-- A moment is kept as its text. -/
def momentJson (s : List Char) : Json :=
  let text := s.map fun c => if c = ' ' then 'T' else c.toUpper
  .object [("$__toml_private_datetime", .string (String.ofList text))]

def scalar? (s : List Char) : Option Json :=
  if s = "true".toList then some (.bool true)
  else if s = "false".toList then some (.bool false)
  else if isMoment s then some (momentJson s)
  else (integer? s).or (float? s)

def isScalarChar (c : Char) : Bool :=
  c.isAlphanum || c == '_' || c == '+' || c == '-' || c == '.' || c == ':'

/-- The run at the start of a text; a blank may part a date from a time. -/
def takeScalar (s : List Char) : List Char × List Char :=
  let run := s.takeWhile isScalarChar
  match s.drop run.length with
  | ' ' :: c :: more =>
    if date? run = some [] ∧ c.isDigit then
      let time := (c :: more).takeWhile isScalarChar
      (run ++ ' ' :: time, (c :: more).drop time.length)
    else (run, ' ' :: c :: more)
  | rest => (run, rest)

end Standin.Toml
