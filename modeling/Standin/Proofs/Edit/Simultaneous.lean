import Mathlib.Data.List.Basic
import Mathlib.Data.List.Pairwise
import Standin.Proofs.Edit.Kept
import Standin.Proofs.Edit.Substitution

namespace Standin.Edit

/-- One edit ends where the other starts, or before. -/
def Apart (a b : Edit) : Prop := a.stop ≤ b.start ∨ b.stop ≤ a.start

instance (a b : Edit) : Decidable (Apart a b) :=
  inferInstanceAs (Decidable (a.stop ≤ b.start ∨ b.stop ≤ a.start))

/-- Edits of stretches of a text, none of which reaches into another. -/
structure Valid (text : List Char) (edits : List Edit) : Prop where
  fits : ∀ e ∈ edits, e.start ≤ e.stop ∧ e.stop ≤ text.length
  apart : edits.Pairwise Apart

def insertsAt (edits : List Edit) (i : Nat) : List Edit :=
  edits.filter fun e => e.start = i ∧ e.stop = i

def replacesAt (edits : List Edit) (i : Nat) : List Edit :=
  edits.filter fun e => e.start = i ∧ i < e.stop

/-- What stands at a position when all edits are made at once: the insertions, then what replaces
the stretch that starts there, then the character if it is kept. -/
def standsAt (text : List Char) (edits : List Edit) (i : Nat) : List Char :=
  (insertsAt edits i).flatMap (·.text) ++ (replacesAt edits i).flatMap (·.text) ++
    if Keeps edits i then text[i]?.toList else []

def slice? (text : List Char) (start stop : Nat) : Option (List Char) :=
  if start ≤ stop ∧ stop ≤ text.length then some (between text start stop) else none

/-- The text behind a position with edits in order applied to it. Nothing comes out where an edit
starts before that position or a stretch is not one of the text. -/
def checkedFrom? (text : List Char) (position : Nat) : List Edit → Option (List Char)
  | [] => slice? text position text.length
  | e :: more =>
    if position ≤ e.start then do
      let low := max position e.start
      let high := max low e.stop
      let kept ← slice? text position low
      let _ ← slice? text low high
      let rest ← checkedFrom? text high more
      return kept ++ e.text ++ rest
    else none

/-- The text with all edits applied, each checked when it is registered and when its turn comes. -/
def checked? (text : List Char) (edits : List Edit) : Option (List Char) :=
  if ∀ e ∈ edits, e.start ≤ e.stop ∧ e.stop ≤ text.length then checkedFrom? text 0 (inOrder edits)
  else none

/-- The text with all edits made at once. -/
def substituted (text : List Char) (edits : List Edit) : List Char :=
  (List.range (text.length + 1)).flatMap (standsAt text edits)

variable {text : List Char} {edits others more : List Edit} {e : Edit} {i position : Nat}

theorem Apart.symm {a b : Edit} (h : Apart a b) : Apart b a := Or.symm h

theorem Valid.of_perm (h : Valid text edits) (hPerm : others.Perm edits) : Valid text others where
  fits e he := h.fits e (hPerm.mem_iff.mp he)
  apart := (hPerm.pairwise_iff Apart.symm).mpr h.apart

/-- Edits that are in order among themselves keep the order given. -/
theorem filter_inOrder {p : Edit → Bool} (h : (edits.filter p).Pairwise fun a b => le a b) :
    (inOrder edits).filter p = edits.filter p := by
  have hPart : (edits.filter p).Sublist (inOrder edits) :=
    List.sublist_mergeSort le_trans le_total h List.filter_sublist
  have hPart := hPart.filter p
  rw [List.filter_filter] at hPart
  simp only [Bool.and_self] at hPart
  exact (hPart.eq_of_length ((perm_inOrder edits).filter p).length_eq.symm).symm

/-- The edits of one stretch keep the order given. -/
theorem filter_place_inOrder (edits : List Edit) (start stop : Nat) :
    (inOrder edits).filter (fun e => e.start = start ∧ e.stop = stop) =
      edits.filter fun e => e.start = start ∧ e.stop = stop := by
  refine filter_inOrder (List.pairwise_of_forall_mem_list fun a ha b hb => ?_)
  simp only [List.mem_filter, decide_eq_true_eq] at ha hb
  simp only [le, Bool.or_eq_true, Bool.and_eq_true, decide_eq_true_eq, beq_iff_eq]
  omega

/-- Two stretches that start at one position would reach into each other. -/
theorem Valid.length_filter {p : Edit → Bool} (h : Valid text edits)
    (hPlace : ∀ e, p e → e.start = i ∧ e.stop ≠ i) : (edits.filter p).length ≤ 1 := by
  have hApart : (edits.filter p).Pairwise Apart := h.apart.filter p
  match hList : edits.filter p with
  | [] | [_] => simp
  | a :: b :: more =>
    rw [hList] at hApart
    have hTwo : Apart a b := (List.pairwise_cons.mp hApart).1 b List.mem_cons_self
    have hAt : ∀ e ∈ [a, b], (e.start = i ∧ e.stop ≠ i) ∧ e.start ≤ e.stop := fun e he => by
      have hMem : e ∈ edits.filter p := hList ▸ List.mem_append_left more he
      obtain ⟨hMem, hHolds⟩ := List.mem_filter.mp hMem
      exact ⟨hPlace e hHolds, (h.fits e hMem).1⟩
    have ha := hAt a (by simp)
    have hb := hAt b (by simp)
    unfold Apart at hTwo
    omega

theorem Valid.length_replacesAt (h : Valid text edits) (i : Nat) :
    (replacesAt edits i).length ≤ 1 :=
  h.length_filter (i := i) fun e he => by
    simp only [decide_eq_true_eq] at he
    omega

theorem pairwise_of_length_le_one {α : Type} {R : α → α → Prop} {l : List α} (h : l.length ≤ 1) :
    l.Pairwise R := by
  match l with
  | [] => exact .nil
  | [a] => exact List.pairwise_singleton R a
  | _ :: _ :: _ => simp at h

theorem standsAt_inOrder (h : Valid text edits) (i : Nat) :
    standsAt text (inOrder edits) i = standsAt text edits i := by
  have hInserts : insertsAt (inOrder edits) i = insertsAt edits i :=
    filter_place_inOrder edits i i
  have hReplaces : replacesAt (inOrder edits) i = replacesAt edits i :=
    filter_inOrder (pairwise_of_length_le_one (h.length_replacesAt i))
  simp only [standsAt, hInserts, hReplaces, keeps_inOrder]

/-- In order, each edit starts where the one before it ends, or behind. -/
theorem Valid.ordered (h : Valid text edits) :
    (inOrder edits).Pairwise fun a b => a.stop ≤ b.start := by
  have hValid := h.of_perm (perm_inOrder edits)
  have hSorted := List.pairwise_mergeSort le_trans le_total edits
  refine (hSorted.and hValid.apart).imp_of_mem fun {a b} ha hb hBoth => ?_
  have hFirst := (hValid.fits a ha).1
  have hSecond := (hValid.fits b hb).1
  simp only [le, Apart, Bool.or_eq_true, Bool.and_eq_true, decide_eq_true_eq, beq_iff_eq] at hBoth
  omega

theorem flatMap_getElem? (text : List Char) (start n : Nat) :
    (List.range' start n).flatMap (fun i => text[i]?.toList) = (text.drop start).take n := by
  induction n generalizing start with
  | zero => simp
  | succ n ih =>
    rw [List.range'_succ, List.flatMap_cons, ih]
    by_cases hLength : start < text.length
    · rw [List.drop_eq_getElem_cons hLength, List.take_succ_cons, List.getElem?_eq_getElem hLength]
      rfl
    · rw [List.getElem?_eq_none (by omega), List.drop_of_length_le (by omega),
        List.drop_of_length_le (by omega)]
      simp

theorem insertsAt_eq_nil (h : ∀ e ∈ edits, i < e.start ∨ i < e.stop) : insertsAt edits i = [] :=
  List.filter_eq_nil_iff.mpr fun e he => by
    have := h e he
    simp only [decide_eq_true_eq]
    omega

theorem replacesAt_eq_nil (h : ∀ e ∈ edits, i < e.start) : replacesAt edits i = [] :=
  List.filter_eq_nil_iff.mpr fun e he => by
    have := h e he
    simp only [decide_eq_true_eq]
    omega

theorem standsAt_of_lt (h : ∀ e ∈ edits, i < e.start) :
    standsAt text edits i = text[i]?.toList := by
  rw [standsAt, insertsAt_eq_nil fun e he => .inl (h e he), replacesAt_eq_nil h,
    if_pos (keeps_of_lt h)]
  rfl

/-- Behind an edit it no longer counts. -/
theorem standsAt_cons_of_lt (hStart : e.start < i) (hStop : e.stop ≤ i) :
    standsAt text (e :: more) i = standsAt text more i := by
  have hInserts : insertsAt (e :: more) i = insertsAt more i :=
    List.filter_cons_of_neg (by simp only [decide_eq_true_eq]; omega)
  have hReplaces : replacesAt (e :: more) i = replacesAt more i :=
    List.filter_cons_of_neg (by simp only [decide_eq_true_eq]; omega)
  simp only [standsAt, hInserts, hReplaces, keeps_cons_of_le hStop]

/-- The first of the insertions at a position stands before all else there. -/
theorem standsAt_cons_insert (hStart : e.start = i) (hStop : e.stop = i) :
    standsAt text (e :: more) i = e.text ++ standsAt text more i := by
  have hInserts : insertsAt (e :: more) i = e :: insertsAt more i :=
    List.filter_cons_of_pos (by simp [hStart, hStop])
  have hReplaces : replacesAt (e :: more) i = replacesAt more i :=
    List.filter_cons_of_neg (by simp [hStop])
  simp only [standsAt, hInserts, hReplaces, keeps_cons_of_le (Nat.le_of_eq hStop),
    List.flatMap_cons, List.append_assoc]

/-- In a stretch that an edit replaces stands its text and nothing else. -/
theorem standsAt_cons_replace (hStart : e.start ≤ i) (hStop : i < e.stop)
    (hMore : ∀ f ∈ more, e.stop ≤ f.start) :
    standsAt text (e :: more) i = if i = e.start then e.text else [] := by
  have hBehind : ∀ f ∈ more, i < f.start := fun f hf => Nat.lt_of_lt_of_le hStop (hMore f hf)
  have hInserts : insertsAt (e :: more) i = [] :=
    insertsAt_eq_nil (List.forall_mem_cons.mpr ⟨.inr hStop, fun f hf => .inl (hBehind f hf)⟩)
  have hLater : replacesAt more i = [] := replacesAt_eq_nil hBehind
  have hCovered : ¬Keeps (e :: more) i := fun h => h e List.mem_cons_self ⟨hStart, hStop⟩
  rw [standsAt, hInserts, if_neg hCovered, List.append_nil]
  split
  · next hSame =>
    have hReplaces : replacesAt (e :: more) i = e :: replacesAt more i :=
      List.filter_cons_of_pos (by simp [hSame, hSame ▸ hStop])
    rw [hReplaces, hLater]
    simp
  · next hOther =>
    have hReplaces : replacesAt (e :: more) i = replacesAt more i :=
      List.filter_cons_of_neg (by simp only [decide_eq_true_eq]; omega)
    rw [hReplaces, hLater]
    rfl

/-- From the start of its stretch on, an edit's text stands before what the later edits leave. -/
theorem flatMap_standsAt_cons {size : Nat} (hForward : e.start ≤ e.stop) (hSize : e.stop < size)
    (hMore : ∀ f ∈ more, e.stop ≤ f.start) :
    (List.range' e.start (size - e.start)).flatMap (standsAt text (e :: more)) =
      e.text ++ (List.range' e.stop (size - e.stop)).flatMap (standsAt text more) := by
  have hBehind {low n : Nat} (hLow : e.stop ≤ low) (hStart : e.start < low) :
      (List.range' low n).flatMap (standsAt text (e :: more)) =
        (List.range' low n).flatMap (standsAt text more) :=
    List.flatMap_congr fun i hi => by
      have := List.mem_range'_1.mp hi
      exact standsAt_cons_of_lt (by omega) (by omega)
  obtain hSame | hLess := Nat.eq_or_lt_of_le hForward
  · -- an insertion leaves the characters behind it to the later edits
    obtain ⟨n, hn⟩ : ∃ n, size - e.stop = n + 1 := ⟨size - e.stop - 1, by omega⟩
    rw [hSame, hn, List.range'_succ, List.flatMap_cons, List.flatMap_cons,
      standsAt_cons_insert hSame rfl, hBehind (by omega) (by omega), List.append_assoc]
  · obtain ⟨n, hn⟩ : ∃ n, e.stop - e.start = n + 1 := ⟨e.stop - e.start - 1, by omega⟩
    have hCovered : (List.range' (e.start + 1) n).flatMap (standsAt text (e :: more)) = [] :=
      List.flatMap_eq_nil_iff.mpr fun i hi => by
        have := List.mem_range'_1.mp hi
        rw [standsAt_cons_replace (by omega) (by omega) hMore, if_neg (by omega)]
    rw [range'_split hForward (Nat.le_of_lt hSize), List.flatMap_append,
      hBehind (Nat.le_refl _) hLess, hn, List.range'_succ, List.flatMap_cons, hCovered,
      standsAt_cons_replace (Nat.le_refl _) hLess hMore, if_pos rfl, List.append_nil]

theorem appliedFrom_eq (hFits : ∀ e ∈ edits, e.start ≤ e.stop ∧ e.stop ≤ text.length)
    (hOrdered : edits.Pairwise fun a b => a.stop ≤ b.start)
    (hLow : ∀ e ∈ edits, position ≤ e.start) (hPosition : position ≤ text.length) :
    appliedFrom text position edits =
      (List.range' position (text.length + 1 - position)).flatMap (standsAt text edits) := by
  induction edits generalizing position with
  | nil =>
    have hPlain : standsAt text [] = fun i => text[i]?.toList := by
      funext i
      exact standsAt_of_lt (by simp)
    rw [appliedFrom, hPlain, flatMap_getElem?, List.take_of_length_le (by
      rw [List.length_drop]
      omega)]
  | cons e more ih =>
    obtain ⟨hForward, hStop⟩ := hFits e List.mem_cons_self
    obtain ⟨hMore, hOrdered⟩ := List.pairwise_cons.mp hOrdered
    have hStart := hLow e List.mem_cons_self
    have hBefore : (List.range' position (e.start - position)).flatMap (standsAt text (e :: more)) =
        between text position e.start := by
      rw [between, ← flatMap_getElem?]
      refine List.flatMap_congr fun i hi => standsAt_of_lt ?_
      have := List.mem_range'_1.mp hi
      refine List.forall_mem_cons.mpr ⟨by omega, fun f hf => ?_⟩
      have := hMore f hf
      omega
    rw [appliedFrom_cons more hStart hForward,
      ih (fun f hf => hFits f (List.mem_cons_of_mem _ hf)) hOrdered hMore hStop,
      range'_split hStart (Nat.le_succ_of_le (Nat.le_trans hForward hStop)), List.flatMap_append,
      hBefore, flatMap_standsAt_cons hForward (Nat.lt_succ_of_le hStop) hMore, List.append_assoc]

/-- Edits that do not reach into each other are made as if all at once. -/
theorem apply_eq_substituted (h : Valid text edits) :
    apply text edits = substituted text edits := by
  have hApplied : apply text edits = appliedFrom text 0 (inOrder edits) :=
    after_piecesFrom text 0 (inOrder edits)
  have hStands : standsAt text (inOrder edits) = standsAt text edits :=
    funext (standsAt_inOrder h)
  rw [hApplied, appliedFrom_eq (h.of_perm (perm_inOrder edits)).fits h.ordered
    (fun e _ => Nat.zero_le _) (Nat.zero_le _), hStands, Nat.sub_zero, ← List.range_eq_range']
  rfl

theorem slice?_of_le {start stop : Nat} (hOrder : start ≤ stop) (hStop : stop ≤ text.length) :
    slice? text start stop = some (between text start stop) := if_pos ⟨hOrder, hStop⟩

theorem checkedFrom?_cons (more : List Edit) (hStart : position ≤ e.start)
    (hForward : e.start ≤ e.stop) (hStop : e.stop ≤ text.length) :
    checkedFrom? text position (e :: more) =
      (checkedFrom? text e.stop more).map (between text position e.start ++ e.text ++ ·) := by
  simp only [checkedFrom?, if_pos hStart, Nat.max_eq_right hStart, Nat.max_eq_right hForward,
    slice?_of_le hStart (Nat.le_trans hForward hStop), slice?_of_le hForward hStop,
    Option.map_eq_bind]
  rfl

/-- The walk over the text passes exactly where each edit starts behind the one before it. -/
theorem checkedFrom?_eq_some_iff (hFits : ∀ e ∈ edits, e.start ≤ e.stop ∧ e.stop ≤ text.length)
    (hPosition : position ≤ text.length) {out : List Char} :
    checkedFrom? text position edits = some out ↔
      (∀ e ∈ edits, position ≤ e.start) ∧ (edits.Pairwise fun a b => a.stop ≤ b.start) ∧
        appliedFrom text position edits = out := by
  induction edits generalizing position out with
  | nil =>
    rw [checkedFrom?, slice?_of_le hPosition (Nat.le_refl _), between, appliedFrom,
      List.take_of_length_le (by simp)]
    simp
  | cons e more ih =>
    obtain ⟨hForward, hStop⟩ := hFits e List.mem_cons_self
    have hRest : ∀ f ∈ more, f.start ≤ f.stop ∧ f.stop ≤ text.length := fun f hf =>
      hFits f (List.mem_cons_of_mem _ hf)
    by_cases hStart : position ≤ e.start
    · rw [checkedFrom?_cons more hStart hForward hStop, Option.map_eq_some_iff,
        appliedFrom_cons more hStart hForward, List.pairwise_cons, List.forall_mem_cons]
      constructor
      · rintro ⟨rest, hWalk, rfl⟩
        obtain ⟨hBehind, hOrdered, rfl⟩ := (ih hRest hStop).mp hWalk
        refine ⟨⟨hStart, fun f hf => ?_⟩, ⟨hBehind, hOrdered⟩, rfl⟩
        exact Nat.le_trans (Nat.le_trans hStart hForward) (hBehind f hf)
      · rintro ⟨-, ⟨hBehind, hOrdered⟩, rfl⟩
        exact ⟨_, (ih hRest hStop).mpr ⟨hBehind, hOrdered, rfl⟩, rfl⟩
    · have hNone : checkedFrom? text position (e :: more) = none := if_neg hStart
      simp [hNone, hStart]

/-- The checks pass exactly for edits that fit and do not reach into each other. -/
theorem checked?_eq_some_iff {out : List Char} :
    checked? text edits = some out ↔ Valid text edits ∧ apply text edits = out := by
  have hApplied : appliedFrom text 0 (inOrder edits) = apply text edits :=
    (after_piecesFrom text 0 (inOrder edits)).symm
  by_cases hFits : ∀ e ∈ edits, e.start ≤ e.stop ∧ e.stop ≤ text.length
  · have hWalk : checked? text edits = checkedFrom? text 0 (inOrder edits) := if_pos hFits
    have hFits' : ∀ e ∈ inOrder edits, e.start ≤ e.stop ∧ e.stop ≤ text.length := fun e he =>
      hFits e (mem_inOrder.mp he)
    rw [hWalk, checkedFrom?_eq_some_iff hFits' (Nat.zero_le _), hApplied]
    constructor
    · rintro ⟨-, hOrdered, hOut⟩
      have hApart : (inOrder edits).Pairwise Apart := hOrdered.imp Or.inl
      exact ⟨⟨hFits, ((perm_inOrder edits).pairwise_iff Apart.symm).mp hApart⟩, hOut⟩
    · rintro ⟨hValid, hOut⟩
      exact ⟨fun e _ => Nat.zero_le _, hValid.ordered, hOut⟩
  · have hNone : checked? text edits = none := if_neg hFits
    rw [hNone]
    exact ⟨nofun, fun h => absurd h.1.fits hFits⟩

/-- Lists that agree on the edits of each stretch have the same edits. -/
theorem mem_of_filter_place (h : ∀ start stop, edits.filter (fun e => e.start = start ∧
      e.stop = stop) = others.filter fun e => e.start = start ∧ e.stop = stop) (hMem : e ∈ edits) :
    e ∈ others := by
  have hOwn : e ∈ edits.filter fun f => f.start = e.start ∧ f.stop = e.stop := by simpa using hMem
  rw [h] at hOwn
  exact List.mem_of_mem_filter hOwn

/-- Lists in order that agree on the edits of each stretch are one. -/
theorem eq_of_filter_place (hEdits : edits.Pairwise fun a b => le a b)
    (hOthers : others.Pairwise fun a b => le a b)
    (h : ∀ start stop, edits.filter (fun e => e.start = start ∧ e.stop = stop) =
      others.filter fun e => e.start = start ∧ e.stop = stop) : edits = others := by
  induction edits generalizing others with
  | nil =>
    refine (List.eq_nil_iff_forall_not_mem.mpr fun e he => ?_).symm
    cases mem_of_filter_place (fun start stop => (h start stop).symm) he
  | cons e more ih =>
    have hMem := mem_of_filter_place h List.mem_cons_self
    cases others with
    | nil => cases hMem
    | cons f rest =>
      have hMem' := mem_of_filter_place (fun start stop => (h start stop).symm) List.mem_cons_self
      obtain ⟨hFirst, hMore⟩ := List.pairwise_cons.mp hEdits
      obtain ⟨hFirst', hRest⟩ := List.pairwise_cons.mp hOthers
      have hHead : e = f := by
        rcases List.mem_cons.mp hMem with hSame | hLater
        · exact hSame
        rcases List.mem_cons.mp hMem' with hSame | hLater'
        · exact hSame.symm
        -- neither is behind the other, so both are the first of one stretch
        have hForth := hFirst f hLater'
        have hBack := hFirst' e hLater
        simp only [le, Bool.or_eq_true, Bool.and_eq_true, decide_eq_true_eq, beq_iff_eq]
          at hForth hBack
        have hPlace : f.start = e.start ∧ f.stop = e.stop := by omega
        have hOwn := h e.start e.stop
        rw [List.filter_cons_of_pos (by simp), List.filter_cons_of_pos (by simp [hPlace])] at hOwn
        exact (List.cons.inj hOwn).1
      subst hHead
      refine congrArg (e :: ·) (ih hMore hRest fun start stop => ?_)
      have hBoth := h start stop
      simp only [List.filter_cons] at hBoth
      split at hBoth
      · exact (List.cons.inj hBoth).2
      · exact hBoth

/-- The edits are made in one order, whatever order they were given in, if that leaves the
insertions at each position in their order. -/
theorem inOrder_of_perm (h : Valid text edits) (hPerm : others.Perm edits)
    (hInserts : ∀ i, insertsAt others i = insertsAt edits i) : inOrder others = inOrder edits := by
  refine eq_of_filter_place (List.pairwise_mergeSort le_trans le_total others)
    (List.pairwise_mergeSort le_trans le_total edits) fun start stop => ?_
  rw [filter_place_inOrder, filter_place_inOrder]
  by_cases hSame : start = stop
  · subst hSame
    exact hInserts start
  · -- at most one edit replaces a stretch, so there is no order to it
    have hOne {l : List Edit} (hValid : Valid text l) :
        (l.filter fun e => e.start = start ∧ e.stop = stop).Pairwise fun _ _ => False :=
      pairwise_of_length_le_one (hValid.length_filter fun e he => by
        simp only [decide_eq_true_eq] at he
        exact ⟨he.1, fun h => hSame (h.symm.trans he.2)⟩)
    exact (hPerm.filter _).eq_of_pairwise (fun _ _ _ _ h => h.elim) (hOne (h.of_perm hPerm))
      (hOne h)

theorem pieces_of_perm (h : Valid text edits) (hPerm : others.Perm edits)
    (hInserts : ∀ i, insertsAt others i = insertsAt edits i) :
    pieces text others = pieces text edits := by
  rw [pieces, pieces, inOrder_of_perm h hPerm hInserts]

end Standin.Edit
