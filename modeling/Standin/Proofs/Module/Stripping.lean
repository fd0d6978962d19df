import Mathlib.Data.List.TakeWhile
import Standin.Module

namespace Standin.Text

theorem mem_of_mem_replaceChar {old new c : Char} {s : List Char} (h : c ∈ replaceChar old new s)
    (hNew : c ≠ new) : c ∈ s ∧ c ≠ old := by
  obtain ⟨d, hMem, hd⟩ := List.mem_map.mp h
  by_cases hOld : d = old
  · rw [if_pos hOld] at hd
    exact absurd hd.symm hNew
  · rw [if_neg hOld] at hd
    exact ⟨hd ▸ hMem, hd ▸ hOld⟩

theorem notMem_replaceChar {old new : Char} (h : old ≠ new) (s : List Char) :
    old ∉ replaceChar old new s := fun hOld => (mem_of_mem_replaceChar hOld h).2 rfl

theorem replaceChar_of_notMem {old new : Char} {s : List Char} (h : old ∉ s) :
    replaceChar old new s = s := by
  refine (List.map_congr_left fun c hc => ?_).trans (List.map_id s)
  have hne : c ≠ old := fun hEq => h (hEq ▸ hc)
  rw [if_neg hne, id]

theorem replaceChar_append (old new : Char) (s t : List Char) :
    replaceChar old new (s ++ t) = replaceChar old new s ++ replaceChar old new t :=
  List.map_append

/-- A character is written over before or after a text is cut, if it does not end it. -/
theorem before_replaceChar {p : Char → Bool} {old new : Char} (h : p old = p new) (s : List Char) :
    before p (replaceChar old new s) = replaceChar old new (before p s) := by
  have hAlike : ((fun c => !p c) ∘ fun c => if c = old then new else c) = fun c => !p c := by
    funext c
    by_cases hc : c = old <;> simp [hc, h]
  rw [before, before, replaceChar, List.takeWhile_map, hAlike]
  rfl

theorem before_append {p : Char → Bool} {s t : List Char} (hs : ∀ c ∈ s, p c = false)
    (ht : ∀ c ∈ t.head?, p c = true) : before p (s ++ t) = s := by
  have hStop : t.takeWhile (fun c => !p c) = [] := by
    cases t with
    | nil => rfl
    | cons c rest => simp [ht c rfl]
  rw [before, List.takeWhile_append_of_pos (by simpa using hs), hStop, List.append_nil]

theorem before_append_of_mem {p : Char → Bool} {s : List Char} {c : Char} (hc : c ∈ s)
    (hp : p c = true) (t : List Char) : before p (s ++ t) = before p s := by
  have hShort : (s.takeWhile fun c => !p c).length ≠ s.length := by
    intro hLength
    have hWhole := List.IsPrefix.eq_of_length (List.takeWhile_prefix _) hLength
    have hPlain := List.mem_takeWhile_imp (hWhole.symm ▸ hc)
    simp [hp] at hPlain
  rw [before, before, List.takeWhile_append, if_neg hShort]

end Standin.Text

namespace Standin.Module

open Standin.Text

def isMark (c : Char) : Bool := c == '?' || c == '#'

def Unmarked (s : List Char) : Prop := ∀ c ∈ s, isMark c = false

instance (s : List Char) : Decidable (Unmarked s) := List.decidableBAll _ s

theorem before_isMark_iff {s : List Char} : before isMark s = s ↔ Unmarked s := by
  rw [before, List.takeWhile_eq_self_iff]
  simp [Unmarked]

/-- The id without the NUL that may lead it. -/
def withoutMarker : List Char → List Char
  | '\x00' :: rest => rest
  | s => s

theorem withoutMarker_cons {c : Char} (h : c ≠ '\x00') (s : List Char) :
    withoutMarker (c :: s) = c :: s := by
  unfold withoutMarker
  split
  · simp_all
  · rfl

theorem withoutMarker_append {s t : List Char} (h : s = [] → t.head? ≠ some '\x00') :
    withoutMarker (s ++ t) = withoutMarker s ++ t := by
  cases s with
  | nil =>
    cases t with
    | nil => rfl
    | cons c rest => exact withoutMarker_cons (by simpa using h rfl) rest
  | cons d rest =>
    by_cases hd : d = '\x00'
    · subst hd
      rfl
    · rw [List.cons_append, withoutMarker_cons hd, withoutMarker_cons hd, List.cons_append]

theorem mem_of_mem_withoutMarker {c : Char} {s : List Char} (h : c ∈ withoutMarker s) : c ∈ s := by
  unfold withoutMarker at h
  split at h
  · exact List.mem_cons_of_mem _ h
  · exact h

theorem mem_withoutMarker_of_isMark {c : Char} {s : List Char} (h : c ∈ s) (hMark : isMark c) :
    c ∈ withoutMarker s := by
  unfold withoutMarker
  split
  · rcases List.mem_cons.mp h with rfl | h
    · exact absurd hMark (by decide)
    · exact h
  · exact h

theorem stripChars_eq (id : List Char) :
    stripChars id = replaceChar '\\' '/' (before isMark (withoutMarker id)) := by
  unfold stripChars
  split
  · rfl
  · next hMarker =>
    cases id with
    | nil => rfl
    | cons c rest =>
      rw [withoutMarker_cons fun hc => hMarker rest (by rw [hc])]
      rfl

theorem unmarked_strip (id : String) : Unmarked (strip id).toList := by
  intro c hc
  rw [strip, String.toList_ofList, stripChars_eq] at hc
  by_cases hSlash : c = '/'
  · rw [hSlash]
    rfl
  · have hRead := (mem_of_mem_replaceChar hc hSlash).1
    simpa using List.mem_takeWhile_imp hRead

theorem notMem_strip (id : String) : '\\' ∉ (strip id).toList := by
  rw [strip, String.toList_ofList, stripChars_eq]
  exact notMem_replaceChar (by decide) _

/-- Nothing behind a mark is read. -/
theorem stripChars_append_of_mark {s : List Char} (h : ¬Unmarked s) (t : List Char) :
    stripChars (s ++ t) = stripChars s := by
  obtain ⟨c, hc, hMark⟩ : ∃ c ∈ s, isMark c = true := by simpa [Unmarked] using h
  have hSome : s ≠ [] := List.ne_nil_of_mem hc
  rw [stripChars_eq, stripChars_eq, withoutMarker_append fun hNil => absurd hNil hSome,
    before_append_of_mem (mem_withoutMarker_of_isMark hc hMark) hMark]

theorem stripChars_append_query {s query : List Char} (h : Unmarked s) (hSome : s ≠ [])
    (hQuery : ∀ c ∈ query.head?, isMark c = true) :
    stripChars (s ++ query) = replaceChar '\\' '/' (withoutMarker s) := by
  have hInside : ∀ c ∈ withoutMarker s, isMark c = false :=
    fun c hc => h c (mem_of_mem_withoutMarker hc)
  rw [stripChars_eq, withoutMarker_append fun hNil => absurd hNil hSome,
    before_append hInside hQuery]

end Standin.Module
