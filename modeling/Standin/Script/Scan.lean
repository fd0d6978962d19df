import Standin.Script.Token
import Standin.Text.CharClasses

namespace Standin.Script

open Standin.Text

def isLineEnd (c : Char) : Bool :=
  c == '\n' || c == '\r' || c.toNat == 0x2028 || c.toNat == 0x2029

/-- Blank characters other than line ends. -/
def isBlank (c : Char) : Bool :=
  let n := c.toNat
  c == ' ' || c == '\t' || n == 0x0B || n == 0x0C || n == 0xA0 || n == 0x85 || n == 0xFEFF ||
    n == 0x1680 || n == 0x180E || (0x2000 ≤ n && n ≤ 0x200B) || n == 0x202F || n == 0x205F ||
    n == 0x3000

/-- Where the text between two tokens stands: between comments, or inside one. -/
inductive GapMode
  | plain
  | line
  | block

structure Gap where
  length : Nat
  hasLineEnd : Bool
  /-- Whether a comment is left open. -/
  isOpen : Bool := false

def Gap.further (n : Nat) (g : Gap) : Gap := { g with length := g.length + n }

def Gap.acrossLine (g : Gap) : Gap := { g with hasLineEnd := true }

/-- `html` tells whether the comment marks of markup count, `lineStart` whether the line has held
nothing but blanks and comments so far. -/
def gap (html lineStart : Bool) : GapMode → List Char → Gap
  | .plain, '/' :: '/' :: r => (gap html lineStart .line r).further 2
  | .plain, '/' :: '*' :: r => (gap html lineStart .block r).further 2
  | .plain, '<' :: '!' :: '-' :: '-' :: r =>
    if html then (gap html lineStart .line r).further 4 else ⟨0, false, false⟩
  | .plain, '-' :: '-' :: '>' :: r =>
    if html && lineStart then (gap html lineStart .line r).further 3 else ⟨0, false, false⟩
  | .plain, c :: r =>
    if isLineEnd c then ((gap html true .plain r).further 1).acrossLine
    else if isBlank c then (gap html lineStart .plain r).further 1
    else ⟨0, false, false⟩
  | .line, c :: r =>
    if isLineEnd c then ((gap html true .plain r).further 1).acrossLine
    else (gap html lineStart .line r).further 1
  | .block, '*' :: '/' :: r => (gap html lineStart .plain r).further 2
  | .block, c :: r =>
    if isLineEnd c then ((gap html true .block r).further 1).acrossLine
    else (gap html lineStart .block r).further 1
  | .block, [] => ⟨0, false, true⟩
  | _, [] => ⟨0, false, false⟩

def hexValue? (c : Char) : Option Nat :=
  if c.isDigit then some (c.toNat - '0'.toNat)
  else if 'a' ≤ c ∧ c ≤ 'f' then some (c.toNat - 'a'.toNat + 10)
  else if 'A' ≤ c ∧ c ≤ 'F' then some (c.toNat - 'A'.toNat + 10)
  else none

def hexNumber? (digits : List Char) : Option Nat :=
  if digits = [] then none
  else digits.foldl (fun n c => n.bind fun n => (hexValue? c).map (n * 16 + ·)) (some 0)

/-- The code point after `\u`, as four digits or in braces, and the characters it takes. -/
def codePoint? (s : List Char) : Option (Nat × Nat) :=
  match s with
  | '\x7b' :: r =>
    let digits := r.takeWhile (· ≠ '\x7d')
    if r.length = digits.length then none
    else match hexNumber? digits with
      | some n => if n < 0x110000 then some (n, digits.length + 2) else none
      | none => none
  | a :: b :: c :: d :: _ => (hexNumber? [a, b, c, d]).map (·, 4)
  | _ => none

/-- A decoded piece of a word, string or template. -/
inductive Piece
  | char (c : Char)
  /-- Half of a surrogate pair. -/
  | half (unit : Nat)
  /-- Nothing: a line continued. -/
  | none
  /-- An escape without meaning. -/
  | bad

def pieceOf (n : Nat) : Piece :=
  if 0xD800 ≤ n ∧ n < 0xE000 then .half n else .char (Char.ofNat n)

/-- The surrogate half that follows a first half, when the text goes on with one. -/
def secondHalf? : List Char → Option Nat
  | '\\' :: 'u' :: r =>
    match codePoint? r with
    | some (low, 4) => if 0xDC00 ≤ low ∧ low < 0xE000 then some low else none
    | _ => none
  | _ => none

def isOctal (c : Char) : Bool := '0' ≤ c && c ≤ '7'

def octalValue (digits : List Char) : Nat :=
  digits.foldl (fun n c => n * 8 + (c.toNat - '0'.toNat)) 0

/-- The octal digits of an old escape: at most three, at most 377. -/
def octalDigits (s : List Char) : List Char :=
  let limit := match s with
    | c :: _ => if '0' ≤ c ∧ c ≤ '3' then 3 else 2
    | [] => 0
  (s.take limit).takeWhile isOctal

/-- The escape behind a backslash: what it stands for and the characters it takes. In a template
the old octal escapes have no meaning. -/
def escape (inTemplate : Bool) (s : List Char) : Piece × Nat :=
  match s with
  | [] => (.bad, 0)
  | '\r' :: '\n' :: _ => (.none, 2)
  | 'n' :: _ => (.char '\n', 1)
  | 'r' :: _ => (.char '\r', 1)
  | 't' :: _ => (.char '\t', 1)
  | 'b' :: _ => (.char '\x08', 1)
  | 'v' :: _ => (.char '\x0b', 1)
  | 'f' :: _ => (.char '\x0c', 1)
  | 'x' :: a :: b :: _ =>
    match hexNumber? [a, b] with
    | some n => (.char (Char.ofNat n), 3)
    | none => (.bad, 1)
  | 'x' :: _ => (.bad, 1)
  | 'u' :: r =>
    match codePoint? r with
    | none => (.bad, 1)
    | some (n, used) =>
      if 0xD800 ≤ n ∧ n < 0xDC00 ∧ used = 4 then
        match secondHalf? (r.drop 4) with
        | some low =>
          (.char (Char.ofNat (0x10000 + (n - 0xD800) * 0x400 + (low - 0xDC00))), 11)
        | none => (.half n, 5)
      else (pieceOf n, used + 1)
  | c :: r =>
    if isLineEnd c then (.none, 1)
    else if c = '0' ∧ !(r.head?.any Char.isDigit) then (.char '\x00', 1)
    else if c.isDigit then
      if inTemplate then (.bad, 1)
      else if isOctal c then
        let digits := octalDigits s
        (.char (Char.ofNat (octalValue digits)), digits.length)
      else (.char c, 1)
    else (.char c, 1)

def hexText (n : Nat) : List Char :=
  [n / 4096, n / 256 % 16, n / 16 % 16, n % 16].map Nat.digitChar

/-- The text of decoded pieces; a lone half is written as a replacement character and its digits. -/
def piecesText (pieces : List Piece) : String :=
  String.ofList (pieces.flatMap fun
    | .char c => [c]
    | .half n => Char.ofNat 0xFFFD :: hexText n
    | .none | .bad => [])

def Piece.isBad : Piece → Bool
  | .bad => true
  | _ => false

def Piece.isHalf : Piece → Bool
  | .half _ => true
  | _ => false

/-- The inside of a string up to its closing quote: its pieces and its length with the quote.
`skip` characters belong to an escape already read. -/
def stringInside (quote : Char) : List Char → Nat → Option (List Piece × Nat)
  | [], _ => none
  | _ :: r, skip + 1 => (stringInside quote r skip).map fun (ps, n) => (ps, n + 1)
  | c :: r, 0 =>
    if c = quote then some ([], 1)
    else if c = '\\' then
      let (piece, used) := escape false r
      (stringInside quote r used).map fun (ps, n) => (piece :: ps, n + 1)
    else if c = '\n' ∨ c = '\r' then none
    else (stringInside quote r 0).map fun (ps, n) => (.char c :: ps, n + 1)

/-- The inside of a template up to a backquote or a substitution: its pieces, its length with the
mark that ends it, and whether that is the backquote. A carriage return counts as a line feed. -/
def templateInside : List Char → Nat → Option (List Piece × Nat × Bool)
  | [], _ => none
  | _ :: r, skip + 1 => (templateInside r skip).map fun (ps, n, last) => (ps, n + 1, last)
  | '$' :: '\x7b' :: _, 0 => some ([], 2, false)
  | '\r' :: '\n' :: r, 0 =>
    (templateInside r 0).map fun (ps, n, last) => (.char '\n' :: ps, n + 2, last)
  | c :: r, 0 =>
    if c = '\x60' then some ([], 1, true)
    else if c = '\\' then
      let (piece, used) := escape true r
      (templateInside r used).map fun (ps, n, last) => (piece :: ps, n + 1, last)
    else
      let c' := if c = '\r' then '\n' else c
      (templateInside r 0).map fun (ps, n, last) => (.char c' :: ps, n + 1, last)

def templateText (pieces : List Piece) : Option String :=
  if pieces.any Piece.isBad then none else some (piecesText pieces)

/-- The characters of a name and its length in the text; none when an escape in it is no part of a
name. -/
def wordInside : List Char → Nat → Bool → Option (List Char × Nat)
  | [], _, _ => some ([], 0)
  | _ :: r, skip + 1, first => (wordInside r skip first).map fun (cs, n) => (cs, n + 1)
  | '\\' :: 'u' :: r, 0, first =>
    match codePoint? r with
    | none => none
    | some (n, used) =>
      let c := Char.ofNat n
      if (if first then isIdStart c else isIdContinue c) then
        (wordInside r used false).map fun (cs, k) => (c :: cs, k + 2)
      else none
  | c :: r, 0, first =>
    if (if first then isIdStart c else isIdContinue c) then
      (wordInside r 0 false).map fun (cs, n) => (c :: cs, n + 1)
    else if c = '\\' then none
    else some ([], 0)

/-- The length of a regular expression's pattern with its closing slash. -/
def patternLength : List Char → Bool → Option Nat
  | [], _ => none
  | '\\' :: c :: r, inClass =>
    if isLineEnd c then none else (patternLength r inClass).map (· + 2)
  | c :: r, inClass =>
    if isLineEnd c then none
    else if c = '/' ∧ !inClass then some 1
    else (patternLength r (c = '[' || (inClass && c ≠ ']'))).map (· + 1)

def regexFlags : List Char := ['d', 'g', 'i', 'm', 's', 'u', 'v', 'y']

def flagsOk (flags : List Char) : Bool :=
  flags.all regexFlags.contains && decide flags.Nodup && !(flags.contains 'u' && flags.contains 'v')

def isFlagChar (c : Char) : Bool := c == '$' || c == '_' || c.isAlphanum

/-- The length of a run of digits that single low lines may part. -/
def digitRun (isDigit : Char → Bool) : List Char → Nat
  | [] => 0
  | c :: r =>
    if isDigit c then digitRun isDigit r + 1
    else if c = '_' ∧ r.head?.any isDigit then digitRun isDigit r + 1
    else 0

def isBinary (c : Char) : Bool := c == '0' || c == '1'

def isHex (c : Char) : Bool := (hexValue? c).isSome

/-- The length of an exponent at the start of a text: zero when there is none, none when it lacks
digits. -/
def exponentLength (s : List Char) : Option Nat :=
  match s with
  | c :: r =>
    if c = 'e' ∨ c = 'E' then
      let sign := match r with
        | '+' :: _ | '-' :: _ => 1
        | _ => 0
      match digitRun Char.isDigit (r.drop sign) with
      | 0 => none
      | n => some (n + sign + 1)
    else some 0
  | [] => some 0

/-- The length of a fraction, its point included, and the exponent behind it. -/
def fractionLength (s : List Char) : Option Nat :=
  match s with
  | '.' :: r =>
    match r with
    | '_' :: _ => none
    | _ =>
      let n := digitRun Char.isDigit r
      (exponentLength (r.drop n)).map (· + n + 1)
  | _ => exponentLength s

/-- A low line that belongs to no digit run makes the number meaningless. -/
def endsCleanly (s : List Char) (length : Nat) : Option Nat :=
  match s.drop length with
  | c :: _ => if c = '_' ∨ c = '\\' ∨ isIdStart c ∨ c.isDigit then none else some length
  | [] => some length

def radixLength (isDigit : Char → Bool) (s : List Char) : Option Nat :=
  match digitRun isDigit s with
  | 0 => none
  | n => some (match s.drop n with
    | 'n' :: _ => n + 3
    | _ => n + 2)

def decimalLength (s : List Char) : Option Nat :=
  let n := digitRun Char.isDigit s
  match s.drop n with
  | 'n' :: _ => some (n + 1)
  | rest => (fractionLength rest).map (· + n)

/-- A number with a leading zero and more digits: octal, or decimal when a digit is 8 or 9. -/
def oldNumberLength (s : List Char) : Option Nat :=
  let digits := s.takeWhile Char.isDigit
  if digits.all isOctal then some digits.length
  else (fractionLength (s.drop digits.length)).map (· + digits.length)

/-- The length of the number at the start of a text; none when it is malformed. -/
def numberLength (s : List Char) : Option Nat :=
  let length := match s with
    | '0' :: c :: r =>
      if c = 'x' ∨ c = 'X' then radixLength isHex r
      else if c = 'o' ∨ c = 'O' then radixLength isOctal r
      else if c = 'b' ∨ c = 'B' then radixLength isBinary r
      else if c.isDigit then oldNumberLength s
      else if c = '_' then none
      else decimalLength s
    | '.' :: _ => fractionLength s
    | _ => decimalLength s
  length.bind (endsCleanly s)

/-- Punctuators by length, so that the first that fits is the longest. Those that go on after `>`
are left to the places where no list of types can end. -/
def puncts : List Punct :=
  [.shiftLeftAssign, .strictEqual, .strictNotEqual, .powerAssign, .andAssign, .orAssign,
   .nullishAssign, .ellipsis,
   .optionalDot, .arrow, .equal, .notEqual, .lessEqual, .shiftLeft, .increment, .plusAssign,
   .decrement, .minusAssign, .power, .starAssign, .percentAssign, .slashAssign, .andAnd,
   .ampAssign, .orOr, .barAssign, .caretAssign, .nullish,
   .braceL, .braceR, .parenL, .parenR, .bracketL, .bracketR, .semicolon, .comma, .colon, .question,
   .dot, .at, .tilde, .bang, .assign, .less, .greater, .plus, .minus, .star, .percent, .slash,
   .amp, .bar, .caret]

/-- Punctuators that begin with `>`, longest first. -/
def greaterPuncts : List Punct :=
  [.shiftZeroAssign, .shiftRightAssign, .shiftZero, .greaterEqual, .shiftRight, .greater]

def punctAmong (choices : List Punct) (s : List Char) : Option Punct :=
  choices.find? fun p => p.text.toList.isPrefixOf s

/-- `?.` before a digit is a question mark. -/
def punctAt (s : List Char) : Option Punct :=
  match s with
  | '?' :: '.' :: c :: _ => if c.isDigit then some .question else some .optionalDot
  | _ => punctAmong puncts s

/-- A token without its place in the text. -/
structure Scanned where
  kind : TokenKind
  length : Nat
  escaped : Bool := false
  flawed : Bool := false

def invalid : Scanned := ⟨.invalid, 1, false, false⟩

def scanWord (s : List Char) : Scanned :=
  match wordInside s 0 true with
  | some (chars, length) => ⟨.word (String.ofList chars), length, chars.length != length, false⟩
  | none => invalid

def scanString (quote : Char) (inside : List Char) : Scanned :=
  match stringInside quote inside 0 with
  | some (pieces, length) =>
    ⟨.string (piecesText pieces) (pieces.any Piece.isHalf), length + 1, false,
      pieces.any Piece.isBad⟩
  | none => invalid

/-- The template text that begins behind a backquote or behind the brace of a substitution. -/
def scanTemplate (inside : List Char) : Scanned :=
  match templateInside inside 0 with
  | some (pieces, length, last) => ⟨.template (templateText pieces) last, length + 1, false, false⟩
  | none => invalid

def scanRegex (inside : List Char) : Scanned :=
  match patternLength inside false with
  | some length =>
    let flags := (inside.drop length).takeWhile isFlagChar
    ⟨.regex, length + flags.length + 1, false, !flagsOk flags⟩
  | none => invalid

def scanPrivate (inside : List Char) : Scanned :=
  match wordInside inside 0 true with
  | some (chars, length) =>
    if length = 0 then invalid
    else ⟨.privateName (String.ofList chars), length + 1, chars.length != length, false⟩
  | none => invalid

/-- The token at the start of a text that begins with none of the characters of a gap. -/
def scan (s : List Char) : Scanned :=
  match s with
  | [] => ⟨.eof, 0, false, false⟩
  | c :: r =>
    if isIdStart c ∨ c = '\\' then scanWord s
    else if c.isDigit ∨ (c = '.' ∧ r.head?.any Char.isDigit) then
      match numberLength s with
      | some length => ⟨.number, length, false, false⟩
      | none => invalid
    else if c = '"' ∨ c = '\'' then scanString c r
    else if c = '\x60' then scanTemplate r
    else if c = '#' then scanPrivate r
    else match punctAt s with
      | some p => ⟨.punct p, p.text.length, false, false⟩
      | none => invalid

/-- What stands where a token is scanned: the start of a word, its mark, or the quote that opens
it. -/
def Scanned.Begins (found : Scanned) (text : List Char) : Prop :=
  match found.kind with
  | .word _ => 0 < found.length ∧ ∃ c r, text = c :: r ∧ (isIdStart c = true ∨ c = '\\')
  | .punct p => found.length = p.text.length ∧ punctAt text = some p
  | .string .. => ∃ c r, text = c :: r ∧ (c = '"' ∨ c = '\'')
  | _ => True

theorem begins_scanWord {c : Char} {r : List Char} (h : isIdStart c = true ∨ c = '\\') :
    (scanWord (c :: r)).Begins (c :: r) := by
  unfold scanWord
  split
  · next hInside =>
    refine ⟨?_, c, r, rfl, h⟩
    unfold wordInside at hInside
    grind [Option.map_eq_some_iff]
  · trivial

theorem begins_scan (text : List Char) : (scan text).Begins text := by
  fun_cases scan text
  case case1 => trivial
  case case2 hBegins => exact begins_scanWord hBegins
  case case5 c r _ _ hQuote =>
    unfold scanString
    split
    · exact ⟨c, r, rfl, hQuote⟩
    · trivial
  case case6 =>
    unfold scanTemplate
    split <;> trivial
  case case7 =>
    unfold scanPrivate
    split
    · split <;> trivial
    · trivial
  case case3 hLength | case4 hLength =>
    rw [hLength]
    trivial
  case case8 hMark =>
    rw [hMark]
    exact ⟨rfl, hMark⟩
  case case9 hMark =>
    rw [hMark]
    trivial

/-- A word with characters takes up some of the text. -/
def Scanned.Spelled (found : Scanned) : Prop :=
  ∀ w, found.kind = .word w → w ≠ "" → 0 < found.length

theorem spelled_of_ne {found : Scanned} (h : ∀ w, found.kind ≠ .word w) : found.Spelled :=
  fun w hKind => absurd hKind (h w)

theorem spelled_scan (text : List Char) : (scan text).Spelled := by
  intro w hKind _
  have hBegins := begins_scan text
  simp only [Scanned.Begins, hKind] at hBegins
  exact hBegins.1

end Standin.Script
