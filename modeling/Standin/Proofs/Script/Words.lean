import Standin.Script.Parse

namespace Standin.Script

open Standin.Text

def isPlainWord : List Char → Bool
  | [] => false
  | c :: more => isIdStart c && more.all isIdContinue

/-- Whether a word ends where this text begins. -/
def endsWord : List Char → Bool
  | [] => true
  | c :: _ => !isIdContinue c && c != '\\'

theorem endsWord_cons {c : Char} (r : List Char) (h : isIdContinue c = false) (hPlain : c ≠ '\\') :
    endsWord (c :: r) = true := by
  simp [endsWord, h, hPlain]

theorem endsWord_blank (r : List Char) : endsWord (' ' :: r) = true :=
  endsWord_cons r (by decide) (by decide)

theorem wordInside_of_endsWord {tail : List Char} (h : endsWord tail = true) :
    wordInside tail 0 false = some ([], 0) := by
  cases tail with
  | nil => rfl
  | cons c r =>
    obtain ⟨hEnds, hPlain⟩ : isIdContinue c = false ∧ c ≠ '\\' := by simpa [endsWord] using h
    simp [wordInside, hEnds, hPlain]

theorem ne_backslash_of_isIdContinue {c : Char} (h : isIdContinue c = true) : c ≠ '\\' := by
  rintro rfl
  exact absurd h (by decide)

theorem ne_backslash_of_isIdStart {c : Char} (h : isIdStart c = true) : c ≠ '\\' := by
  rintro rfl
  exact absurd h (by decide)

theorem wordInside_append {more tail : List Char} (hMore : more.all isIdContinue = true)
    (hTail : endsWord tail = true) :
    wordInside (more ++ tail) 0 false = some (more, more.length) := by
  induction more with
  | nil => exact wordInside_of_endsWord hTail
  | cons c more ih =>
    obtain ⟨hFirst, hRest⟩ : isIdContinue c = true ∧ more.all isIdContinue = true := by
      simpa using hMore
    simp [wordInside, hFirst, ne_backslash_of_isIdContinue hFirst, ih hRest]

theorem scan_word {w tail : List Char} (h : isPlainWord w = true) (hTail : endsWord tail = true) :
    scan (w ++ tail) = ⟨.word (String.ofList w), w.length, false, false⟩ := by
  cases w with
  | nil => cases h
  | cons c more =>
    obtain ⟨hFirst, hMore⟩ : isIdStart c = true ∧ more.all isIdContinue = true := by
      simpa [isPlainWord] using h
    have hInside : wordInside (c :: (more ++ tail)) 0 true = some (c :: more, more.length + 1) := by
      simp [wordInside, hFirst, ne_backslash_of_isIdStart hFirst, wordInside_append hMore hTail]
    simp [scan, hFirst, scanWord, hInside]

theorem scan_punct {text : List Char} {p : Punct} (h : (scan text).kind = .punct p) :
    (scan text).length = p.text.length ∧ punctAt text = some p := by
  have hBegins := begins_scan text
  simpa only [Scanned.Begins, h] using hBegins

theorem prefix_of_punctAt {text : List Char} {p : Punct} (h : punctAt text = some p) :
    p.text.toList <+: text := by
  unfold punctAt at h
  split at h
  · next c r =>
    split at h
    · cases h
      exact ⟨'.' :: c :: r, rfl⟩
    · cases h
      exact ⟨c :: r, rfl⟩
  · exact List.isPrefixOf_iff_prefix.mp (List.find?_eq_some_iff_append.mp h).1

theorem scan_string {text : List Char} {value : String} {halved : Bool}
    (h : (scan text).kind = .string value halved) :
    ∃ c r, text = c :: r ∧ (c = '"' ∨ c = '\'') := by
  have hBegins := begins_scan text
  simpa only [Scanned.Begins, h] using hBegins

/-- Characters that neither are nor begin what may stand between two tokens. -/
def isSolid (c : Char) : Bool :=
  !isLineEnd c && !isBlank c && c != '/' && c != '<' && c != '-'

theorem gap_of_isSolid (html lineStart : Bool) {c : Char} (r : List Char) (h : isSolid c = true) :
    gap html lineStart .plain (c :: r) = ⟨0, false, false⟩ := by
  simp only [isSolid, Bool.and_eq_true, Bool.not_eq_true', bne_iff_ne, ne_eq] at h
  obtain ⟨⟨⟨⟨hLine, hBlank⟩, hSlash⟩, hLess⟩, hMinus⟩ := h
  simp [gap, *]

theorem gap_line (html lineStart : Bool) (text : List Char) :
    gap html lineStart .plain ('\n' :: text) =
      ((gap html true .plain text).further 1).acrossLine := by
  simp [gap, isLineEnd]

/-- Blanks and line ends beyond ASCII. -/
def wideBlanks : List Nat :=
  [0x85, 0xA0, 0x1680, 0x180E, 0x2000, 0x2001, 0x2002, 0x2003, 0x2004, 0x2005, 0x2006, 0x2007,
   0x2008, 0x2009, 0x200A, 0x200B, 0x2028, 0x2029, 0x202F, 0x205F, 0x3000, 0xFEFF]

theorem mem_wideBlanks {c : Char} (hWide : ¬c.toNat < 128) (h : isSolid c = false) :
    c.toNat ∈ wideBlanks := by
  have hNot {a : Char} (hNarrow : a.toNat < 128) : c ≠ a := fun hSame => hWide (hSame ▸ hNarrow)
  simp only [isSolid, isLineEnd, isBlank, bne, Bool.and_eq_false_iff, Bool.not_eq_false',
    Bool.or_eq_true, Bool.and_eq_true, decide_eq_true_eq, beq_iff_eq,
    hNot (a := '/') (by decide), hNot (a := '<') (by decide), hNot (a := '-') (by decide),
    hNot (a := ' ') (by decide), hNot (a := '\t') (by decide), hNot (a := '\n') (by decide),
    hNot (a := '\r') (by decide), false_or, or_false] at h
  simp only [wideBlanks, List.mem_cons, List.not_mem_nil, or_false]
  omega

/-- Whether the characters of a class are solid is decided on ASCII and on the blanks beyond it. -/
theorem isSolid_of_class {p : Char → Bool}
    (hAscii : ∀ n < 128, p (Char.ofNat n) = true → isSolid (Char.ofNat n) = true)
    (hBlanks : ∀ n ∈ wideBlanks, p (Char.ofNat n) = false) {c : Char} (h : p c = true) :
    isSolid c = true := by
  by_cases hNarrow : c.toNat < 128
  · have hSolid := hAscii c.toNat hNarrow
    rw [Char.ofNat_toNat] at hSolid
    exact hSolid h
  · refine Bool.of_not_eq_false fun hOpen => ?_
    have hNone := hBlanks _ (mem_wideBlanks hNarrow hOpen)
    rw [Char.ofNat_toNat, h] at hNone
    cases hNone

theorem isSolid_of_isIdStart {c : Char} (h : isIdStart c = true) : isSolid c = true :=
  isSolid_of_class (by decide +kernel) (by decide +kernel) h

theorem head_of_word {w : List Char} (h : isPlainWord w = true) (tail : List Char) :
    ∀ c ∈ (w ++ tail).head?, isSolid c = true ∧ c ≠ '#' := by
  intro c hHead
  cases w with
  | nil => cases h
  | cons a more =>
    cases hHead
    simp only [isPlainWord, Bool.and_eq_true] at h
    refine ⟨isSolid_of_isIdStart h.1, ?_⟩
    rintro rfl
    exact absurd h.1 (by decide)

namespace State

variable (s : State) (position : Nat) (lineStart : Bool)

theorem scanFrom_blank (text : List Char) :
    s.scanFrom (' ' :: text) position lineStart = s.scanFrom text (position + 1) lineStart := by
  have hGap : gap (!s.dialect.modular) lineStart .plain (' ' :: text) =
      (gap (!s.dialect.modular) lineStart .plain text).further 1 := by
    simp [gap, isLineEnd, isBlank]
  have hStart : position + ((gap (!s.dialect.modular) lineStart .plain text).length + 1) =
      position + 1 + (gap (!s.dialect.modular) lineStart .plain text).length := by omega
  simp only [scanFrom, hGap, Gap.further, List.drop_succ_cons, hStart]

theorem scanFrom_of_isSolid {c : Char} (r : List Char) (h : isSolid c = true) :
    s.scanFrom (c :: r) position lineStart = s.place (c :: r) position false (scan (c :: r)) := by
  unfold scanFrom
  rw [gap_of_isSolid _ _ r h]
  rfl

theorem scanFrom_line {c : Char} (r : List Char) (h : isSolid c = true) :
    s.scanFrom ('\n' :: c :: r) position lineStart =
      s.place (c :: r) (position + 1) true (scan (c :: r)) := by
  have hGap : gap (!s.dialect.modular) lineStart .plain ('\n' :: c :: r) = ⟨1, true, false⟩ := by
    rw [gap_line, gap_of_isSolid _ _ r h]
    rfl
  simp only [scanFrom, hGap, List.drop_succ_cons, List.drop_zero, Bool.false_eq_true, if_false]

theorem next_of_isSolid {c : Char} {r : List Char} (hRest : s.rest = ' ' :: c :: r)
    (h : isSolid c = true) :
    s.next = { s with lastStop := s.token.stop }.place (c :: r) (s.token.stop + 1) false
      (scan (c :: r)) := by
  rw [next, hRest, scanFrom_blank, scanFrom_of_isSolid _ _ _ _ h]

def before (d : Dialect) (text : List Char) : State :=
  { dialect := d, scope := d.scope, token := ⟨.eof, 0, 0, false, false, false⟩, here := text,
    rest := text, lastStop := 0, size := text.length }

/-- Without a line for an interpreter the first token is the next one. -/
theorem initial_eq_next (d : Dialect) {text : List Char}
    (h : ∀ c ∈ text.head?, isSolid c = true ∧ c ≠ '#') : initial d text = (before d text).next := by
  cases text with
  | nil => rfl
  | cons c r =>
    obtain ⟨hSolid, hMark⟩ := h c rfl
    have hNoLine : interpreterLine (c :: r) = 0 := by simp [interpreterLine, hMark]
    simp only [initial, next, before, hNoLine, List.drop_zero]
    rw [scanFrom_of_isSolid _ _ _ _ hSolid, scanFrom_of_isSolid _ _ _ _ hSolid]

/-- A word with no escapes at a place. -/
def atWord (w : String) (tail : List Char) : State :=
  { s with
    token := ⟨.word w, position, position + w.toList.length, false, false, false⟩
    here := w.toList ++ tail
    rest := tail }

variable {w : String} {tail : List Char} (h : isPlainWord w.toList = true)
  (hTail : endsWord tail = true)
include h hTail

theorem scanFrom_word :
    s.scanFrom (w.toList ++ tail) position lineStart = s.atWord position w tail := by
  have hScan := scan_word h hTail
  unfold atWord
  generalize hChars : w.toList = chars at h hScan
  cases chars with
  | nil => cases h
  | cons c more =>
    have hFirst : isIdStart c = true := by
      simp only [isPlainWord, Bool.and_eq_true] at h
      exact h.1
    have hWord : String.ofList (c :: more) = w := by rw [← hChars, String.ofList_toList]
    rw [List.cons_append, scanFrom_of_isSolid _ _ _ _ (isSolid_of_isIdStart hFirst),
      ← List.cons_append, hScan, hWord]
    simp [place]

theorem initial_of_word (d : Dialect) :
    initial d (w.toList ++ tail) = (before d (w.toList ++ tail)).atWord 0 w tail := by
  rw [initial_eq_next d (head_of_word h tail)]
  exact scanFrom_word (before d (w.toList ++ tail)) 0 false h hTail

theorem next_of_word (hRest : s.rest = ' ' :: (w.toList ++ tail)) :
    s.next = { s with lastStop := s.token.stop }.atWord (s.token.stop + 1) w tail := by
  rw [next, hRest, scanFrom_blank, scanFrom_word _ _ _ h hTail]

end State

end Standin.Script
