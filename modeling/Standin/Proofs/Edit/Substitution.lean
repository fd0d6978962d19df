import Standin.SourceEditor

namespace Standin.Edit

theorem le_trans (a b c : Edit) (hFirst : le a b) (hSecond : le b c) : le a c := by
  simp only [le, Bool.or_eq_true, Bool.and_eq_true, decide_eq_true_eq, beq_iff_eq] at *
  omega

theorem le_total (a b : Edit) : le a b || le b a := by
  simp only [le, Bool.or_eq_true, Bool.and_eq_true, decide_eq_true_eq, beq_iff_eq]
  omega

theorem mem_inOrder {e : Edit} {edits : List Edit} : e ∈ inOrder edits ↔ e ∈ edits :=
  List.mem_mergeSort

theorem replaced_mem_piecesFrom {e : Edit} {edits : List Edit} (h : e ∈ edits) (position : Nat)
    (text : List Char) : ∃ old, Piece.replaced old e.text ∈ piecesFrom position text edits := by
  induction edits generalizing position text with
  | nil => cases h
  | cons first more ih =>
    rw [piecesFrom]
    cases h with
    | head => exact ⟨_, List.mem_cons_of_mem _ List.mem_cons_self⟩
    | tail _ hMore =>
      obtain ⟨old, hOld⟩ := ih hMore _ _
      exact ⟨old, List.mem_cons_of_mem _ (List.mem_cons_of_mem _ hOld)⟩

/-- What an edit writes stands in the edited text. -/
theorem infix_after {e : Edit} {edits : List Edit} (h : e ∈ edits) (text : List Char) :
    e.text <:+: (pieces text edits).flatMap Piece.after := by
  have hOrder : e ∈ inOrder edits := mem_inOrder.mpr h
  obtain ⟨old, hOld⟩ := replaced_mem_piecesFrom hOrder 0 text
  rw [List.flatMap_def]
  exact List.infix_of_mem_flatten (List.mem_map.mpr ⟨_, hOld, rfl⟩)

def between (source : List Char) (start stop : Nat) : List Char :=
  (source.drop start).take (stop - start)

/-- The text behind a position with edits in order applied to it. -/
def appliedFrom (source : List Char) (position : Nat) : List Edit → List Char
  | [] => source.drop position
  | e :: more =>
    let low := max position e.start
    between source position low ++ e.text ++ appliedFrom source (max low e.stop) more

variable {source : List Char} {a b c : Nat}

theorem between_self (source : List Char) (a : Nat) : between source a a = [] := by
  simp [between]

theorem between_append (source : List Char) (hFirst : a ≤ b) (hSecond : b ≤ c) :
    between source a b ++ between source b c = between source a c := by
  have hLength : c - a = b - a + (c - b) := by omega
  have hBehind : source.drop b = (source.drop a).drop (b - a) := by
    rw [List.drop_drop, Nat.add_sub_of_le hFirst]
  rw [between, between, between, hLength, List.take_add, hBehind]

theorem between_append_drop (source : List Char) (h : a ≤ b) :
    between source a b ++ source.drop b = source.drop a := by
  have hBehind : source.drop b = (source.drop a).drop (b - a) := by
    rw [List.drop_drop, Nat.add_sub_of_le h]
  rw [between, hBehind, List.take_append_drop]

theorem after_piecesFrom (source : List Char) (position : Nat) (edits : List Edit) :
    (piecesFrom position (source.drop position) edits).flatMap Piece.after =
      appliedFrom source position edits := by
  induction edits generalizing position with
  | nil => simp [piecesFrom, appliedFrom, Piece.after]
  | cons e more ih =>
    have hLow : position + (max position e.start - position) = max position e.start := by omega
    have hHigh : max position e.start + (max (max position e.start) e.stop - max position e.start) =
        max (max position e.start) e.stop := by omega
    simp only [piecesFrom, appliedFrom, List.flatMap_cons, Piece.after, List.drop_drop, hLow, hHigh,
      ih, between, List.append_assoc]

/-- Edits that come in order are applied as they come. -/
theorem apply_of_pairwise {edits : List Edit} (h : edits.Pairwise fun a b => le a b) :
    apply source edits = appliedFrom source 0 edits := by
  have hOrder : inOrder edits = edits := List.mergeSort_of_pairwise h
  rw [apply, pieces, hOrder]
  exact after_piecesFrom source 0 edits

/-- Up to the first edit the text is kept. -/
theorem appliedFrom_skip {edits : List Edit} (hFirst : a ≤ b) (h : ∀ e ∈ edits, b ≤ e.start) :
    appliedFrom source a edits = between source a b ++ appliedFrom source b edits := by
  cases edits with
  | nil => exact (between_append_drop source hFirst).symm
  | cons e more =>
    have hStart := h e List.mem_cons_self
    have hLow : max a e.start = e.start := by omega
    have hLow' : max b e.start = e.start := by omega
    simp only [appliedFrom, hLow, hLow', ← List.append_assoc,
      between_append source hFirst hStart]

theorem appliedFrom_cons {e : Edit} (more : List Edit) (hStart : a ≤ e.start)
    (hStop : e.start ≤ e.stop) :
    appliedFrom source a (e :: more) =
      between source a e.start ++ e.text ++ appliedFrom source e.stop more := by
  rw [appliedFrom, Nat.max_eq_right hStart, Nat.max_eq_right hStop]

end Standin.Edit
