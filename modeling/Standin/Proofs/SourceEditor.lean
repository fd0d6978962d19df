import Mathlib.Data.List.Permutation
import Standin.Proofs.Edit.Kept
import Standin.Proofs.Edit.Simultaneous
import Standin.SourceEditor

namespace Standin

namespace SourceMap

def Place.Before (p q : Place) : Prop := p.line < q.line ∨ p.line = q.line ∧ p.column < q.column

instance (p q : Place) : Decidable (p.Before q) :=
  inferInstanceAs (Decidable (p.line < q.line ∨ p.line = q.line ∧ p.column < q.column))

def placeAt (text : List Char) (index : Nat) : Place := Place.afterText {} (text.take index)

def lastMark? (marks : List Mark) (p : Place) : Option Mark :=
  (marks.filter fun m => ¬ p.Before m.generated).getLast?

/-- A mark on the line of a place, as far to the left of it as its source is of another place. -/
structure Mark.LeadsTo (m : Mark) (generated source : Place) : Prop where
  line : m.generated.line = generated.line
  column : m.generated.column ≤ generated.column
  sourceLine : m.source.line = source.line
  sourceColumn : m.source.column + (generated.column - m.generated.column) = source.column

variable {p q r g s : Place} {c : Char}

theorem Place.Before.trans (h : p.Before q) (h' : q.Before r) : p.Before r := by
  simp only [Place.Before] at *
  omega

theorem Place.Before.of_not (h : p.Before q) (h' : ¬ r.Before q) : p.Before r := by
  simp only [Place.Before] at *
  omega

theorem units16_pos (c : Char) : 0 < units16 c := by
  unfold units16
  split <;> omega

theorem Place.before_after (p : Place) (c : Char) : p.Before (p.after c) := by
  unfold Place.after
  split
  · exact .inl (Nat.lt_succ_self _)
  · exact .inr ⟨rfl, Nat.lt_add_of_pos_right (units16_pos c)⟩

theorem Place.afterText_cons (p : Place) (c : Char) (text : List Char) :
    p.afterText (c :: text) = (p.after c).afterText text := rfl

theorem Place.afterText_append (p : Place) (front behind : List Char) :
    p.afterText (front ++ behind) = (p.afterText front).afterText behind := List.foldl_append

theorem Place.not_afterText_before (p : Place) (text : List Char) :
    ¬ (p.afterText text).Before p := by
  induction text generalizing p with
  | nil => simp [Place.afterText, Place.Before]
  | cons c more ih =>
    intro h
    exact ih (p.after c) (h.trans (p.before_after c))

theorem Place.not_before_of_afterText {text : List Char} (h : ¬ q.Before (p.afterText text)) :
    ¬ q.Before p := by
  have := p.not_afterText_before text
  simp only [Place.Before] at *
  omega

theorem placeAt_of_append {text front behind : List Char} (h : text = front ++ behind) :
    placeAt text front.length = Place.afterText {} front := by
  rw [placeAt, h, List.take_left]

theorem Mark.leadsTo_self (g s : Place) : (Mark.mk g s).LeadsTo g s where
  line := rfl
  column := Nat.le_refl _
  sourceLine := rfl
  sourceColumn := by simp

/-- Along a line, both places move alike. -/
theorem Mark.LeadsTo.after {m : Mark} (h : m.LeadsTo g s) (hLine : c ≠ '\n') :
    m.LeadsTo (g.after c) (s.after c) := by
  obtain ⟨line, column, sourceLine, sourceColumn⟩ := h
  simp only [Place.after, if_neg hLine]
  constructor <;> simp only <;> omega

theorem Mark.LeadsTo.not_before {m : Mark} (h : m.LeadsTo g s) : ¬ g.Before m.generated := by
  have := h.line
  have := h.column
  simp only [Place.Before]
  omega

theorem keptMarks_due {text : List Char} (g s : Place) (h : text ≠ []) :
    keptMarks g s true text = ⟨g, s⟩ :: keptMarks g s false text := by
  cases text with
  | nil => exact absurd rfl h
  | cons c more => rfl

/-- Every mark stands at a character of the text. -/
theorem mem_keptMarks {due : Bool} {text : List Char} {m : Mark}
    (h : m ∈ keptMarks g s due text) :
    ∃ front c behind, text = front ++ c :: behind ∧ m = ⟨g.afterText front, s.afterText front⟩ := by
  induction text generalizing g s due with
  | nil => cases h
  | cons c more ih =>
    have hLater (h : m ∈ keptMarks (g.after c) (s.after c) (c == '\n') more) :
        ∃ front d behind, c :: more = front ++ d :: behind ∧
          m = ⟨g.afterText front, s.afterText front⟩ := by
      obtain ⟨front, d, behind, hText, hMark⟩ := ih h
      exact ⟨c :: front, d, behind, by rw [hText]; rfl, hMark⟩
    cases due with
    | false => exact hLater h
    | true =>
      cases h with
      | head => exact ⟨[], c, more, rfl, rfl⟩
      | tail _ h => exact hLater h

theorem not_before_of_mem_keptMarks {due : Bool} {text : List Char} {m : Mark}
    (h : m ∈ keptMarks g s due text) : ¬ m.generated.Before g := by
  obtain ⟨front, c, behind, -, rfl⟩ := mem_keptMarks h
  exact g.not_afterText_before front

/-- Without a mark at its start, the marks of a text stand behind its first character. -/
theorem before_of_mem_keptMarks {text : List Char} {m : Mark}
    (h : m ∈ keptMarks g s false text) : g.Before m.generated := by
  cases text with
  | nil => cases h
  | cons c more => exact (g.before_after c).of_not (not_before_of_mem_keptMarks h)

theorem keptMarks_before_end {due : Bool} {text : List Char} {m : Mark}
    (h : m ∈ keptMarks g s due text) : m.generated.Before (g.afterText text) := by
  obtain ⟨front, c, behind, rfl, rfl⟩ := mem_keptMarks h
  rw [Place.afterText_append, Place.afterText_cons]
  exact ((g.afterText front).before_after c).of_not (Place.not_afterText_before _ behind)

theorem keptMarks_pairwise (g s : Place) (due : Bool) (text : List Char) :
    (keptMarks g s due text).Pairwise fun a b => a.generated.Before b.generated := by
  induction text generalizing g s due with
  | nil => exact List.Pairwise.nil
  | cons c more ih =>
    cases due with
    | false => exact ih ..
    | true =>
      exact List.pairwise_cons.mpr ⟨fun m hMem =>
        (g.before_after c).of_not (not_before_of_mem_keptMarks hMem), ih ..⟩

/-- The mark that leads to a character of a kept text, when one led to its start. -/
theorem keptMarks_leads {m : Mark} (h : m.LeadsTo g s) (front : List Char) (c : Char)
    (behind : List Char) :
    ∃ earlier last later, m :: keptMarks g s false (front ++ c :: behind) =
        earlier ++ last :: later ∧ last.LeadsTo (g.afterText front) (s.afterText front) ∧
      ∀ m' ∈ later, (g.afterText front).Before m'.generated := by
  induction front generalizing g s m with
  | nil => exact ⟨[], m, _, rfl, h, fun m' hMem => before_of_mem_keptMarks hMem⟩
  | cons d more ih =>
    simp only [List.cons_append, keptMarks, Place.afterText_cons]
    by_cases hLine : d = '\n'
    · -- a mark of its own stands at the start of the next line
      subst hLine
      obtain ⟨earlier, last, later, hMarks, hRest⟩ :=
        ih (Mark.leadsTo_self (g.after '\n') (s.after '\n'))
      refine ⟨m :: earlier, last, later, ?_, hRest⟩
      rw [List.cons_append, ← hMarks, ← keptMarks_due _ _ (by simp)]
      rfl
    · obtain ⟨earlier, last, later, hMarks, hRest⟩ := ih (h.after hLine)
      refine ⟨earlier, last, later, ?_, hRest⟩
      rw [← hMarks, beq_eq_false_iff_ne.mpr hLine]
      rfl

variable {pieces : List Edit.Piece} {before after : List Char} {m : Mark}

theorem not_before_of_mem_marksFrom (h : m ∈ marksFrom g s pieces) : ¬ m.generated.Before g := by
  induction pieces generalizing g s with
  | nil => cases h
  | cons piece more ih =>
    cases piece with
    | kept text =>
      rcases List.mem_append.mp h with h | h
      · exact not_before_of_mem_keptMarks h
      · exact Place.not_before_of_afterText (ih h)
    | replaced old new => exact Place.not_before_of_afterText (ih h)

theorem marksFrom_pairwise (g s : Place) (pieces : List Edit.Piece) :
    (marksFrom g s pieces).Pairwise fun a b => a.generated.Before b.generated := by
  induction pieces generalizing g s with
  | nil => exact List.Pairwise.nil
  | cons piece more ih =>
    cases piece with
    | kept text =>
      refine List.pairwise_append.mpr ⟨keptMarks_pairwise .., ih .., fun a ha b hb => ?_⟩
      exact (keptMarks_before_end ha).of_not (not_before_of_mem_marksFrom hb)
    | replaced old new => exact ih ..

/-- Every mark stands at a kept character. -/
theorem mem_marksFrom (h : m ∈ marksFrom g s pieces) :
    ∃ before after c, Edit.KeptAt pieces before after c ∧
      m = ⟨g.afterText after, s.afterText before⟩ := by
  induction pieces generalizing g s with
  | nil => cases h
  | cons piece more ih =>
    cases piece with
    | kept text =>
      rcases List.mem_append.mp h with h | h
      · obtain ⟨front, c, behind, rfl, hMark⟩ := mem_keptMarks h
        exact ⟨front, front, c, .here .., hMark⟩
      · obtain ⟨before, after, c, hKept, hMark⟩ := ih h
        exact ⟨_, _, c, hKept.kept text, by rw [hMark, ← Place.afterText_append,
          ← Place.afterText_append]⟩
    | replaced old new =>
      obtain ⟨before, after, c, hKept, hMark⟩ := ih h
      exact ⟨_, _, c, hKept.replaced old new, by rw [hMark, ← Place.afterText_append,
        ← Place.afterText_append]⟩

/-- The mark that leads to a kept character; all later ones stand behind it. -/
theorem marksFrom_leads (h : Edit.KeptAt pieces before after c) (g s : Place) :
    ∃ earlier last later, marksFrom g s pieces = earlier ++ last :: later ∧
      last.LeadsTo (g.afterText after) (s.afterText before) ∧
      ∀ m ∈ later, (g.afterText after).Before m.generated := by
  induction h generalizing g s with
  | here front c behind more =>
    obtain ⟨earlier, last, later, hMarks, hLeads, hLater⟩ :=
      keptMarks_leads (Mark.leadsTo_self g s) front c behind
    refine ⟨earlier, last, later ++ marksFrom (g.afterText (front ++ c :: behind))
      (s.afterText (front ++ c :: behind)) more, ?_, hLeads, fun m hMem => ?_⟩
    · rw [marksFrom, keptMarks_due g s (by simp), hMarks]
      simp
    · rcases List.mem_append.mp hMem with h | h
      · exact hLater m h
      · have hEnd : (g.afterText front).Before (g.afterText (front ++ c :: behind)) := by
          rw [Place.afterText_append, Place.afterText_cons]
          exact (Place.before_after _ c).of_not (Place.not_afterText_before _ behind)
        exact hEnd.of_not (not_before_of_mem_marksFrom h)
  | kept text _ ih =>
    obtain ⟨earlier, last, later, hMarks, hRest⟩ := ih (g.afterText text) (s.afterText text)
    refine ⟨keptMarks g s true text ++ earlier, last, later, ?_, ?_⟩
    · rw [marksFrom, hMarks, List.append_assoc]
    · rwa [Place.afterText_append, Place.afterText_append]
  | replaced old new _ ih =>
    obtain ⟨earlier, last, later, hMarks, hRest⟩ := ih (g.afterText new) (s.afterText old)
    refine ⟨earlier, last, later, ?_, ?_⟩
    · rw [marksFrom, hMarks]
    · rwa [Place.afterText_append, Place.afterText_append]

theorem lastMark?_of_leads {earlier later : List Mark} (h : m.LeadsTo g s)
    (hLater : ∀ m' ∈ later, g.Before m'.generated) :
    lastMark? (earlier ++ m :: later) g = some m := by
  have hNone : later.filter (fun m => ¬ g.Before m.generated) = [] :=
    List.filter_eq_nil_iff.mpr fun m' hMem => by simpa using hLater m' hMem
  rw [lastMark?, List.filter_append, List.filter_cons_of_pos (by simpa using h.not_before), hNone,
    List.getLast?_concat]

/-- A kept character with what stands before it gives both of its places. -/
theorem places_of_keptAt {text appended before after : List Char} {edits : List Edit} {c : Char}
    (h : Edit.KeptAt (Edit.pieces text edits) before after c) :
    let out := Edit.apply text edits ++ appended
    before.length < text.length ∧ Edit.Keeps edits before.length ∧
      out[Edit.image edits before.length]? = text[before.length]? ∧
      placeAt out (Edit.image edits before.length) = Place.afterText {} after ∧
      placeAt text before.length = Place.afterText {} before := by
  intro out
  obtain ⟨hKeeps, hImage⟩ := h.image_of_pieces
  obtain ⟨rest, hText⟩ := h.before_eq
  obtain ⟨rest', hOut⟩ := h.after_eq
  rw [Edit.before_pieces] at hText
  have hOut : out = after ++ (c :: rest' ++ appended) := by
    rw [← List.append_assoc, ← hOut]
    rfl
  refine ⟨by simp [hText], hKeeps, ?_, ?_, placeAt_of_append hText⟩
  · rw [← hImage, hOut, hText]
    simp
  · rw [← hImage, placeAt_of_append hOut]

end SourceMap

namespace SourceEditor

open SourceMap

/-- The map of what an editor makes is exact on all characters that no edit covers: the last mark
before such a character leads back to where it stood, the marks come in order, and each stands at a
character that was kept. -/
theorem finish_exact (editor : SourceEditor) (name : String) :
    let text := editor.source.toList
    let out := (editor.finish name).1.toList
    let marks := (editor.finish name).2.marks
    (∀ i < text.length, Edit.Keeps editor.edits i →
      out[Edit.image editor.edits i]? = text[i]? ∧
      ∃ m, lastMark? marks (placeAt out (Edit.image editor.edits i)) = some m ∧
        m.LeadsTo (placeAt out (Edit.image editor.edits i)) (placeAt text i)) ∧
    marks.Pairwise (fun a b => a.generated.Before b.generated) ∧
    ∀ m ∈ marks, ∃ i < text.length, Edit.Keeps editor.edits i ∧
      m.source = placeAt text i ∧ m.generated = placeAt out (Edit.image editor.edits i) ∧
      out[Edit.image editor.edits i]? = text[i]? := by
  intro text out marks
  have hMarks : marks = marksFrom {} {} (Edit.pieces text editor.edits) := rfl
  have hOut : out = Edit.apply text editor.edits ++ editor.appended.toList :=
    editor.finish_code name
  rw [hMarks, hOut]
  refine ⟨fun i hLow hKeeps => ?_, marksFrom_pairwise .., fun m hMem => ?_⟩
  · obtain ⟨before, after, c, hKept, rfl⟩ := Edit.exists_keptAt_pieces hLow hKeeps
    obtain ⟨-, -, hSame, hPlace, hSource⟩ := places_of_keptAt hKept
    obtain ⟨earlier, last, later, hSplit, hLeads, hLater⟩ := marksFrom_leads hKept {} {}
    rw [hPlace, hSource, hSplit]
    exact ⟨hSame, last, lastMark?_of_leads hLeads hLater, hLeads⟩
  · obtain ⟨before, after, c, hKept, rfl⟩ := mem_marksFrom hMem
    obtain ⟨hLow, hKeeps, hSame, hPlace, hSource⟩ := places_of_keptAt hKept
    exact ⟨before.length, hLow, hKeeps, hSource.symm, hPlace.symm, hSame⟩

/-- Two lines with a character of two units. A word is removed, and before that, though registered
later, another is replaced by a line of its own. -/
def twoLines : SourceEditor :=
  let editor : SourceEditor := { source := "export let a = '😀', b = 1\nexport let c" }
  ((editor.remove 26 33).overwrite 0 7 "'use strict'\n").append "\n"

/-- The name `b` stands on another line behind the edits, and its mark at the start of that line. -/
theorem twoLines_exact :
    20 < twoLines.source.toList.length ∧ Edit.Keeps twoLines.edits 20 ∧
      (twoLines.finish "/p/a.js").1 = "'use strict'\nlet a = '😀', b = 1\nlet c\n" ∧
      ∃ m, lastMark? (twoLines.finish "/p/a.js").2.marks ⟨1, 14⟩ = some m ∧
        m.LeadsTo ⟨1, 14⟩ ⟨0, 21⟩ := by
  have hLow : 20 < twoLines.source.toList.length := by decide +kernel
  have hKeeps : Edit.Keeps twoLines.edits 20 := by decide +kernel
  have hExact := ((finish_exact twoLines "/p/a.js").1 20 hLow hKeeps).2
  have hCode : (twoLines.finish "/p/a.js").1 =
      "'use strict'\nlet a = '😀', b = 1\nlet c\n" :=
    String.toList_injective ((twoLines.finish_code _).trans (by cbv))
  have hImage : Edit.image twoLines.edits 20 = 26 := by decide +kernel
  have hOut : placeAt (twoLines.finish "/p/a.js").1.toList 26 = ⟨1, 14⟩ := by
    rw [hCode]
    decide +kernel
  have hSource : placeAt twoLines.source.toList 20 = ⟨0, 21⟩ := by decide +kernel
  rw [hImage, hSource, hOut] at hExact
  exact ⟨hLow, hKeeps, hCode, hExact⟩

end SourceEditor

namespace SourceEditor

/-- Edits that do not reach into each other are made at once. Of the order in which they were
registered only that of insertions at one position counts. -/
theorem finish_simultaneous (editor : SourceEditor) (name : String)
    (h : Edit.Valid editor.source.toList editor.edits) :
    (editor.finish name).1.toList =
        Edit.substituted editor.source.toList editor.edits ++ editor.appended.toList ∧
      (∀ others : List Edit, others.Perm editor.edits →
        (∀ position, Edit.insertsAt others position = Edit.insertsAt editor.edits position) →
        { editor with edits := others }.finish name = editor.finish name) ∧
      ((SourceEditor.mk editor.source [] "").finish name).1 = editor.source := by
  refine ⟨?_, fun others hPerm hInserts => ?_, ?_⟩
  · rw [← Edit.apply_eq_substituted h]
    simp [finish, Edit.apply]
  · simp only [finish, Edit.pieces_of_perm h hPerm hInserts]
  · simp [finish, Edit.pieces, Edit.inOrder, Edit.piecesFrom, Edit.Piece.after]

/-- Two replacements that touch, two insertions between them, one at each end of the source, and a
text behind it. -/
def touching : SourceEditor :=
  let editor : SourceEditor := { source := "abcdef" }
  ((((((editor.overwrite 3 5 "Y").insert 3 "1").insert 6 "!").remove 1 3).insert 3 "2").insert 0
    "^").append "\n"

/-- The edits of `touching` from the end of the source on, insertions between the replacements as
they were. -/
def backward : List Edit :=
  [⟨6, 6, ['!']⟩, ⟨3, 3, ['1']⟩, ⟨3, 3, ['2']⟩, ⟨3, 5, ['Y']⟩, ⟨1, 3, []⟩, ⟨0, 0, ['^']⟩]

theorem touching_simultaneous :
    touching.finish "/p/a.js" = { touching with edits := backward }.finish "/p/a.js" ∧
      (touching.finish "/p/a.js").1 = "^a12Yf!\n" := by
  have hValid : Edit.Valid touching.source.toList touching.edits :=
    ⟨by decide +kernel, by decide +kernel⟩
  obtain ⟨hText, hOrder, -⟩ := finish_simultaneous touching "/p/a.js" hValid
  refine ⟨(hOrder backward (by decide +kernel) fun position => ?_).symm, ?_⟩
  · match position with
    | 0 | 1 | 2 | 3 | 4 | 5 | 6 => rfl
    | n + 7 => simp [Edit.insertsAt, touching, backward, overwrite, insert, remove, append]
  · refine String.toList_injective (hText.trans ?_)
    decide +kernel

end SourceEditor

end Standin
