import Standin.Json.Basic

namespace Standin

/-- Replaces the characters from `start` up to `stop` by a text; an insertion has an empty
stretch. -/
structure Edit where
  start : Nat
  stop : Nat
  text : List Char
deriving DecidableEq, Repr

namespace Edit

/-- Edits are applied from the start of the text on; at one start an insertion comes first. -/
def le (a b : Edit) : Bool := a.start < b.start || (a.start == b.start && a.stop ≤ b.stop)

/-- Edits in the order they are applied; equal places keep the order given. -/
def inOrder (edits : List Edit) : List Edit := edits.mergeSort le

inductive Piece
  /-- Text that no edit touched. -/
  | kept (text : List Char)
  /-- Text that an edit removed, and what stands there now. -/
  | replaced (old new : List Char)
deriving DecidableEq, Repr

/-- What a piece stands for before the edits. -/
def Piece.before : Piece → List Char
  | kept text => text
  | replaced old _ => old

/-- What a piece stands for after the edits. -/
def Piece.after : Piece → List Char
  | kept text => text
  | replaced _ new => new

/-- The pieces of the text behind a position, for edits in order. -/
def piecesFrom (position : Nat) (text : List Char) : List Edit → List Piece
  | [] => [.kept text]
  | e :: more =>
    let low := max position e.start
    let high := max low e.stop
    let rest := text.drop (low - position)
    .kept (text.take (low - position)) :: .replaced (rest.take (high - low)) e.text ::
      piecesFrom high (rest.drop (high - low)) more

def pieces (text : List Char) (edits : List Edit) : List Piece := piecesFrom 0 text (inOrder edits)

/-- The text with all edits applied. -/
def apply (text : List Char) (edits : List Edit) : List Char :=
  (pieces text edits).flatMap Piece.after

theorem before_piecesFrom (position : Nat) (text : List Char) (edits : List Edit) :
    (piecesFrom position text edits).flatMap Piece.before = text := by
  induction edits generalizing position text with
  | nil => simp [piecesFrom, Piece.before]
  | cons e more ih =>
    simp only [piecesFrom, List.flatMap_cons, Piece.before, ih]
    rw [List.take_append_drop, List.take_append_drop]

/-- The pieces cover the text. -/
theorem before_pieces (text : List Char) (edits : List Edit) :
    (pieces text edits).flatMap Piece.before = text := before_piecesFrom 0 text _

end Edit

end Standin

namespace Standin.SourceMap

def digits64 : List Char :=
  "ABCDEFGHIJKLMNOPQRSTUVWXYZabcdefghijklmnopqrstuvwxyz0123456789+/".toList

def digit64 (n : Nat) : Char := digits64.getD n 'A'

/-- The digits of a number; every digit but the last has 32 added. -/
def vlqNat (n : Nat) : List Char :=
  if n < 32 then [digit64 n] else digit64 (n % 32 + 32) :: vlqNat (n / 32)
termination_by n

def signed (z : Int) : Nat := if z < 0 then 2 * z.natAbs + 1 else 2 * z.natAbs

def vlq (z : Int) : List Char := vlqNat (signed z)

end Standin.SourceMap

namespace Standin

namespace SourceMap

/-- A place in a text: both counted from zero, columns in UTF-16 units. -/
structure Place where
  line : Nat := 0
  column : Nat := 0
deriving DecidableEq, Repr

def units16 (c : Char) : Nat := if c.toNat < 0x10000 then 1 else 2

/-- The place behind a character. Only a line feed ends a line. -/
def Place.after (p : Place) (c : Char) : Place :=
  if c = '\n' then ⟨p.line + 1, 0⟩ else ⟨p.line, p.column + units16 c⟩

def Place.afterText (p : Place) (text : List Char) : Place := text.foldl Place.after p

structure Mark where
  generated : Place
  source : Place
deriving DecidableEq, Repr

/-- The marks of a kept text: one at its start where one is due, and one behind each line end. -/
def keptMarks (generated source : Place) (due : Bool) : List Char → List Mark
  | [] => []
  | c :: more =>
    let later := keptMarks (generated.after c) (source.after c) (c == '\n') more
    if due then ⟨generated, source⟩ :: later else later

def marksFrom (generated source : Place) : List Edit.Piece → List Mark
  | [] => []
  | .kept text :: more =>
    keptMarks generated source true text ++
      marksFrom (generated.afterText text) (source.afterText text) more
  | .replaced old new :: more =>
    marksFrom (generated.afterText new) (source.afterText old) more

def marksOf (pieces : List Edit.Piece) : List Mark := marksFrom {} {} pieces

/-- A mark as differences from the marks before it; columns of the edited text start anew on each
line. -/
def Mark.text (m : Mark) (column : Nat) (source : Place) : List Char :=
  vlq (m.generated.column - column) ++ vlq 0 ++ vlq (m.source.line - source.line) ++
    vlq (m.source.column - source.column)

/-- Marks in order, given the mark before them. -/
def mappingsFrom (last : Mark) : List Mark → List Char
  | [] => []
  | m :: more =>
    let lines := m.generated.line - last.generated.line
    let text :=
      if lines = 0 then ',' :: m.text last.generated.column last.source
      else List.replicate lines ';' ++ m.text 0 last.source
    text ++ mappingsFrom m more

/-- All marks: a semicolon ends a line, and a comma parts the marks of one line. -/
def mappings : List Mark → List Char
  | [] => []
  | m :: more =>
    List.replicate m.generated.line ';' ++ m.text 0 {} ++ mappingsFrom m more

end SourceMap

structure SourceMap where
  source : String
  content : String
  marks : List SourceMap.Mark
deriving DecidableEq, Repr

namespace SourceMap

def toJson (m : SourceMap) : Json :=
  .object
    [("version", .ofNat 3), ("names", .array []), ("sources", .ofStrings [m.source]),
     ("sourcesContent", .ofStrings [m.content]),
     ("mappings", .string (String.ofList (mappings m.marks)))]

end SourceMap

structure SourceEditor where
  source : String
  /-- In the order they were registered. -/
  edits : List Edit := []
  /-- What stands behind the edited source. -/
  appended : String := ""

namespace SourceEditor

def overwrite (editor : SourceEditor) (start stop : Nat) (text : String) : SourceEditor :=
  { editor with edits := editor.edits ++ [⟨start, stop, text.toList⟩] }

def remove (editor : SourceEditor) (start stop : Nat) : SourceEditor :=
  editor.overwrite start stop ""

def insert (editor : SourceEditor) (position : Nat) (text : String) : SourceEditor :=
  editor.overwrite position position text

def append (editor : SourceEditor) (text : String) : SourceEditor :=
  { editor with appended := editor.appended ++ text }

/-- Makes all edits. Only what is kept of the source is mapped. -/
def finish (editor : SourceEditor) (name : String) : String × SourceMap :=
  let pieces := Edit.pieces editor.source.toList editor.edits
  (String.ofList (pieces.flatMap Edit.Piece.after) ++ editor.appended,
    ⟨name, editor.source, SourceMap.marksOf pieces⟩)

theorem finish_code (editor : SourceEditor) (name : String) : (editor.finish name).1.toList =
    Edit.apply editor.source.toList editor.edits ++ editor.appended.toList := by
  simp [finish, Edit.apply]

end SourceEditor

end Standin
