namespace Standin.Text

/-- The maximal pieces between separators, in order; a text without separators is one piece. -/
def split (sep : Char) : List Char → List (List Char)
  | [] => [[]]
  | c :: r =>
    if c = sep then [] :: split sep r
    else match split sep r with
      | [] => [[c]]
      | piece :: more => (c :: piece) :: more

def join (sep : Char) : List (List Char) → List Char
  | [] => []
  | [piece] => piece
  | piece :: more => piece ++ sep :: join sep more

theorem split_ne_nil (sep : Char) (s : List Char) : split sep s ≠ [] := by
  cases s with
  | nil => simp [split]
  | cons c r =>
    unfold split
    split
    · simp
    · split <;> simp

theorem join_split (sep : Char) (s : List Char) : join sep (split sep s) = s := by
  induction s with
  | nil => rfl
  | cons c r ih =>
    unfold split
    split
    · next h =>
      cases hs : split sep r with
      | nil => exact absurd hs (split_ne_nil sep r)
      | cons piece more => simp [join, ← hs, ih, h]
    · cases hs : split sep r with
      | nil => exact absurd hs (split_ne_nil sep r)
      | cons piece more =>
        rw [hs] at ih
        cases more with
        | nil => simpa [join] using ih
        | cons next rest => simpa [join] using ih

def before (p : Char → Bool) (s : List Char) : List Char := s.takeWhile (fun c => !p c)

def startsWith (s lead : List Char) : Bool := lead.isPrefixOf s

def contains (needle : List Char) : List Char → Bool
  | [] => needle.isEmpty
  | c :: r => needle.isPrefixOf (c :: r) || contains needle r

/-- Writes `new` wherever the character `old` stands. -/
def replaceChar (old new : Char) (s : List Char) : List Char :=
  s.map fun c => if c = old then new else c

def hexDigits (n : Nat) : List Char := Nat.toDigits 16 n

/-- How a character is shown inside quotes. -/
def shownChar (c : Char) : List Char :=
  if c = '"' then ['\\', '"']
  else if c = '\\' then ['\\', '\\']
  else if c = '\n' then ['\\', 'n']
  else if c = '\r' then ['\\', 'r']
  else if c = '\t' then ['\\', 't']
  else if c = '\x00' then ['\\', '0']
  else if c.toNat < 32 ∨ (127 ≤ c.toNat ∧ c.toNat < 160) then
    ['\\', 'u', '\x7b'] ++ hexDigits c.toNat ++ ['\x7d']
  else [c]

def shown (s : String) : String :=
  "\"" ++ String.ofList (s.toList.flatMap shownChar) ++ "\""

def shownList (texts : List String) : String :=
  "[" ++ ", ".intercalate (texts.map shown) ++ "]"

end Standin.Text

namespace Standin

inductive Fault
  | configRead (path reason : String)
  | extraction (reason : String)
  | resolution (specifier fromDir reason : String)
  | transform (id reason : String)
  | watchCallback (path reason : String)
  | options (reason : String)
  | io (reason : String)
deriving DecidableEq, Repr

namespace Fault

def message : Fault → String
  | configRead path reason => s!"Failed to read mock configuration {path}: {reason}"
  | extraction reason => s!"Invalid mock registration: {reason}"
  | resolution specifier fromDir reason =>
    s!"Failed to resolve mocked module '{specifier}' from {fromDir}: {reason}"
  | transform id reason => s!"Failed to automock {id}: {reason}"
  | watchCallback path reason => s!"Failed to process change of {path}: {reason}"
  | options reason => s!"Invalid mock options: {reason}"
  | io reason => s!"I/O error: {reason}"

def code : Fault → String
  | configRead .. => "modmock::config_read"
  | extraction .. => "modmock::extract"
  | resolution .. => "modmock::resolve"
  | transform .. => "modmock::transform"
  | watchCallback .. => "modmock::watch_callback"
  | options .. => "modmock::options"
  | io .. => "modmock::io"

def help? : Fault → Option String
  | configRead .. => some
      "Check that `config_entry_path` points at the file containing the mock registrations"
  | resolution .. => some
      "The specifier is resolved exactly like an import written in the configuration file"
  | _ => none

end Fault

end Standin
