import Mathlib.Algebra.Ring.Nat
import Standin.Proofs.Edit.Substitution

namespace Standin.Edit

/-- No edit replaces the character at a position. -/
def Keeps (edits : List Edit) (i : Nat) : Prop := ∀ e ∈ edits, ¬ (e.start ≤ i ∧ i < e.stop)

instance (edits : List Edit) : DecidablePred (Keeps edits) :=
  fun i => inferInstanceAs (Decidable (∀ e ∈ edits, ¬ (e.start ≤ i ∧ i < e.stop)))

def written (edits : List Edit) (i : Nat) : Nat :=
  ((edits.filter (·.start ≤ i)).map (·.text.length)).sum

/-- Where a kept character stands in the edited text: behind all that is written up to its position
and behind the characters kept before it. -/
def image (edits : List Edit) (i : Nat) : Nat :=
  written edits i + (List.range i).countP (Keeps edits ·)

/-- A character of a kept piece, with all that stands before it in the text and in the edited
text. -/
inductive KeptAt : List Piece → List Char → List Char → Char → Prop
  | here (front : List Char) (c : Char) (behind : List Char) (more : List Piece) :
    KeptAt (.kept (front ++ c :: behind) :: more) front front c
  | kept {more before after c} (text : List Char) (h : KeptAt more before after c) :
    KeptAt (.kept text :: more) (text ++ before) (text ++ after) c
  | replaced {more before after c} (old new : List Char) (h : KeptAt more before after c) :
    KeptAt (.replaced old new :: more) (old ++ before) (new ++ after) c

variable {pieces : List Piece} {before after : List Char} {c : Char}

theorem KeptAt.before_eq (h : KeptAt pieces before after c) :
    ∃ rest, pieces.flatMap Piece.before = before ++ c :: rest := by
  induction h with
  | here front c behind more => exact ⟨behind ++ more.flatMap Piece.before, by simp [Piece.before]⟩
  | kept text _ ih | replaced old new _ ih =>
    obtain ⟨rest, hRest⟩ := ih
    exact ⟨rest, by simp [Piece.before, hRest]⟩

theorem KeptAt.after_eq (h : KeptAt pieces before after c) :
    ∃ rest, pieces.flatMap Piece.after = after ++ c :: rest := by
  induction h with
  | here front c behind more => exact ⟨behind ++ more.flatMap Piece.after, by simp [Piece.after]⟩
  | kept text _ ih | replaced old new _ ih =>
    obtain ⟨rest, hRest⟩ := ih
    exact ⟨rest, by simp [Piece.after, hRest]⟩

theorem KeptAt.length_lt {position : Nat} {text : List Char} {edits : List Edit}
    (h : KeptAt (piecesFrom position text edits) before after c) :
    before.length < text.length := by
  obtain ⟨rest, hRest⟩ := h.before_eq
  rw [before_piecesFrom] at hRest
  simp [hRest]

theorem perm_inOrder (edits : List Edit) : (inOrder edits).Perm edits := List.mergeSort_perm ..

theorem pairwise_inOrder (edits : List Edit) :
    (inOrder edits).Pairwise fun a b => a.start ≤ b.start := by
  have hSorted := List.pairwise_mergeSort le_trans le_total edits
  refine hSorted.imp fun {a b} h => ?_
  simp only [le, Bool.or_eq_true, Bool.and_eq_true, decide_eq_true_eq, beq_iff_eq] at h
  omega

theorem keeps_inOrder {edits : List Edit} {i : Nat} : Keeps (inOrder edits) i ↔ Keeps edits i := by
  simp only [Keeps, mem_inOrder]

theorem image_inOrder (edits : List Edit) (i : Nat) : image (inOrder edits) i = image edits i := by
  have hWritten : written (inOrder edits) i = written edits i :=
    (((perm_inOrder edits).filter _).map _).sum_nat
  simp only [image, hWritten, keeps_inOrder]

/-- `image` for edits in order, counted from a position that no edit before reaches over. -/
def imageFrom (position : Nat) (edits : List Edit) (i : Nat) : Nat :=
  written edits i + (List.range' position (i - position)).countP (Keeps edits ·)

variable {position i : Nat} {e : Edit} {more : List Edit}

theorem keeps_of_lt {edits : List Edit} (h : ∀ e ∈ edits, i < e.start) : Keeps edits i := by
  rintro e hMem ⟨hStart, -⟩
  exact absurd (h e hMem) (Nat.not_lt.mpr hStart)

theorem keeps_cons_of_le (h : e.stop ≤ i) : Keeps (e :: more) i ↔ Keeps more i := by
  simp only [Keeps, List.forall_mem_cons, and_iff_right_iff_imp]
  omega

theorem imageFrom_of_lt {edits : List Edit} (h : ∀ e ∈ edits, i < e.start) :
    imageFrom position edits i = i - position := by
  have hWritten : written edits i = 0 := by
    rw [written, List.filter_eq_nil_iff.mpr (fun e hMem => by simpa using h e hMem)]
    rfl
  have hKept : (List.range' position (i - position)).countP (Keeps edits ·) = i - position := by
    rw [List.countP_eq_length.mpr, List.length_range']
    intro j hj
    have hRange := List.mem_range'_1.mp hj
    exact decide_eq_true (keeps_of_lt fun e hMem => by
      have := h e hMem
      omega)
  rw [imageFrom, hWritten, hKept, Nat.zero_add]

theorem range'_split {low middle high : Nat} (hLow : low ≤ middle) (hHigh : middle ≤ high) :
    List.range' low (high - low) =
      List.range' low (middle - low) ++ List.range' middle (high - middle) := by
  have hJoin := List.range'_append_1 (s := low) (m := middle - low) (n := high - middle)
  rw [Nat.add_sub_of_le hLow] at hJoin
  rw [hJoin]
  congr 1
  omega

/-- Behind an edit that is first in order: the characters before it are kept, and those that it
covers are not. -/
theorem imageFrom_cons (hFirst : ∀ f ∈ more, e.start ≤ f.start)
    (hBehind : max (max position e.start) e.stop ≤ i) :
    imageFrom position (e :: more) i =
      (max position e.start - position) + e.text.length +
        imageFrom (max (max position e.start) e.stop) more i := by
  generalize hLow : max position e.start = low at *
  generalize hHigh : max low e.stop = high at *
  have hWritten : written (e :: more) i = e.text.length + written more i := by
    have hStart : e.start ≤ i := by omega
    simp [written, hStart]
  have hSplit : List.range' position (i - position) =
      List.range' position (low - position) ++
        (List.range' low (high - low) ++ List.range' high (i - high)) := by
    rw [← range'_split (by omega) hBehind, ← range'_split (by omega) (by omega)]
  have hKept : (List.range' position (low - position)).countP (Keeps (e :: more) ·) =
      low - position := by
    rw [List.countP_eq_length.mpr, List.length_range']
    intro j hj
    have hRange := List.mem_range'_1.mp hj
    refine decide_eq_true (keeps_of_lt (List.forall_mem_cons.mpr ⟨by omega, fun f hMem => ?_⟩))
    have := hFirst f hMem
    omega
  have hCovered : (List.range' low (high - low)).countP (Keeps (e :: more) ·) = 0 := by
    refine List.countP_eq_zero.mpr fun j hj => ?_
    have hRange := List.mem_range'_1.mp hj
    simp only [decide_eq_true_eq]
    exact fun h => h e List.mem_cons_self (by omega)
  have hRest : (List.range' high (i - high)).countP (Keeps (e :: more) ·) =
      (List.range' high (i - high)).countP (Keeps more ·) := by
    refine List.countP_congr fun j hj => ?_
    have hRange := List.mem_range'_1.mp hj
    simp only [decide_eq_true_eq]
    exact keeps_cons_of_le (by omega)
  simp only [imageFrom, hWritten, hSplit, List.countP_append, hKept, hCovered, hRest]
  omega

/-- A kept character is one that no edit covers, and it stands at its image. -/
theorem KeptAt.image_eq {text : List Char} {edits : List Edit}
    (hSorted : edits.Pairwise fun a b => a.start ≤ b.start)
    (h : KeptAt (piecesFrom position text edits) before after c) :
    Keeps edits (position + before.length) ∧
      after.length = imageFrom position edits (position + before.length) := by
  induction edits generalizing position text before after with
  | nil =>
    have hSame : after = before := by
      cases h with
      | here => rfl
      | kept _ h => cases h
    rw [imageFrom_of_lt (by simp), hSame]
    exact ⟨keeps_of_lt (by simp), by omega⟩
  | cons e more ih =>
    obtain ⟨hFirst, hMore⟩ := List.pairwise_cons.mp hSorted
    have hLength := h.length_lt
    rw [piecesFrom] at h
    generalize hPart : text.take (max position e.start - position) = part at h
    cases h with
    | here front c behind =>
      have hShort : before.length < max position e.start - position := by
        have := congrArg List.length hPart
        simp only [List.length_take, List.length_append, List.length_cons] at this
        omega
      have hLt : ∀ f ∈ e :: more, position + before.length < f.start :=
        List.forall_mem_cons.mpr ⟨by omega, fun f hMem => by
          have := hFirst f hMem
          omega⟩
      rw [imageFrom_of_lt hLt]
      exact ⟨keeps_of_lt hLt, by omega⟩
    | kept _ h =>
      cases h with
      | replaced _ _ h =>
        rename_i before after
        have hRest := h.length_lt
        obtain ⟨hKeeps, hImage⟩ := ih hMore h
        simp only [List.length_append, List.length_drop, List.length_take, ← hPart] at *
        have hPlace : position + (min (max position e.start - position) text.length +
            (min (max (max position e.start) e.stop - max position e.start)
              (text.length - (max position e.start - position)) + before.length)) =
            max (max position e.start) e.stop + before.length := by omega
        rw [hPlace, imageFrom_cons hFirst (by omega), ← hImage, keeps_cons_of_le (by omega)]
        exact ⟨hKeeps, by omega⟩

/-- Every character that no edit covers is kept. -/
theorem exists_keptAt {text : List Char} {edits : List Edit}
    (hSorted : edits.Pairwise fun a b => a.start ≤ b.start) (hLow : position ≤ i)
    (hHigh : i < position + text.length) (hKeeps : Keeps edits i) :
    ∃ before after c, KeptAt (piecesFrom position text edits) before after c ∧
      position + before.length = i := by
  have hSplit (text : List Char) {n : Nat} (h : n < text.length) :
      ∃ c behind, text = text.take n ++ c :: behind :=
    ⟨text[n], text.drop (n + 1), by rw [← List.drop_eq_getElem_cons h, List.take_append_drop]⟩
  induction edits generalizing position text with
  | nil =>
    obtain ⟨c, behind, hText⟩ := hSplit text (n := i - position) (by omega)
    have hKept := KeptAt.here (text.take (i - position)) c behind []
    rw [← hText] at hKept
    exact ⟨_, _, c, hKept, by
      rw [List.length_take]
      omega⟩
  | cons e more ih =>
    obtain ⟨hFirst, hMore⟩ := List.pairwise_cons.mp hSorted
    rw [piecesFrom]
    by_cases hBefore : i < max position e.start
    · generalize hPart : text.take (max position e.start - position) = part
      have hLength : part.length = min (max position e.start - position) text.length := by
        rw [← hPart, List.length_take]
      obtain ⟨c, behind, hText⟩ := hSplit part (n := i - position) (by omega)
      have hKept := KeptAt.here (part.take (i - position)) c behind
      rw [← hText] at hKept
      exact ⟨_, _, c, hKept _, by
        rw [List.length_take]
        omega⟩
    · have hStop : e.stop ≤ i := by
        have := hKeeps e List.mem_cons_self
        omega
      generalize hRest : (text.drop (max position e.start - position)).drop
        (max (max position e.start) e.stop - max position e.start) = rest
      have hLength : i < max (max position e.start) e.stop + rest.length := by
        simp only [← hRest, List.length_drop]
        omega
      obtain ⟨before, after, c, hKept, hPlace⟩ :=
        ih hMore (by omega) hLength ((keeps_cons_of_le hStop).mp hKeeps)
      refine ⟨_, _, c, .kept _ (.replaced _ _ hKept), ?_⟩
      simp only [List.length_append, List.length_drop, List.length_take]
      omega

variable {text : List Char} {edits : List Edit}

theorem KeptAt.image_of_pieces (h : KeptAt (Edit.pieces text edits) before after c) :
    Keeps edits before.length ∧ after.length = image edits before.length := by
  obtain ⟨hKeeps, hImage⟩ := KeptAt.image_eq (pairwise_inOrder edits) h
  rw [Nat.zero_add, keeps_inOrder] at hKeeps
  rw [Nat.zero_add, imageFrom, Nat.sub_zero, ← List.range_eq_range'] at hImage
  exact ⟨hKeeps, hImage.trans (image_inOrder edits _)⟩

theorem exists_keptAt_pieces (h : i < text.length) (hKeeps : Keeps edits i) :
    ∃ before after c, KeptAt (Edit.pieces text edits) before after c ∧ before.length = i := by
  obtain ⟨before, after, c, hKept, hPlace⟩ := exists_keptAt (pairwise_inOrder edits)
    (Nat.zero_le i) (by rwa [Nat.zero_add]) (keeps_inOrder.mpr hKeeps)
  exact ⟨before, after, c, hKept, by omega⟩

end Standin.Edit
