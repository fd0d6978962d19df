import Standin.Json.Basic
import Standin.Proofs.Script.Words

namespace Standin.Script

open Standin.Text

theorem hexNumber?_control :
    ∀ n < 32, hexNumber? ['0', '0', Json.hexDigit (n / 16), Json.hexDigit (n % 16)] = some n := by
  decide

/-- A control character is written as four digits. -/
theorem escape_control {c : Char} (h : c.toNat < 32) (rest : List Char) :
    escape false ('u' :: '0' :: '0' :: Json.hexDigit (c.toNat / 16) ::
      Json.hexDigit (c.toNat % 16) :: rest) = (.char c, 5) := by
  have hPoint : codePoint? ('0' :: '0' :: Json.hexDigit (c.toNat / 16) ::
      Json.hexDigit (c.toNat % 16) :: rest) = some (c.toNat, 4) := by
    simp [codePoint?, hexNumber?_control c.toNat h]
  have hLow : ¬0xD800 ≤ c.toNat := by omega
  simp [escape, hPoint, hLow, pieceOf, Char.ofNat_toNat]

theorem stringInside_quoteChar (c : Char) (rest : List Char) :
    stringInside '"' (Json.quoteChar c ++ rest) 0 = (stringInside '"' rest 0).map fun (ps, n) =>
      (.char c :: ps, n + (Json.quoteChar c).length) := by
  unfold Json.quoteChar
  split
  · next h => subst h; simp [stringInside, escape, isLineEnd, Function.comp_def]
  split
  · next h => subst h; simp [stringInside, escape, isLineEnd, Function.comp_def]
  split
  · next h => subst h; simp [stringInside, escape, Function.comp_def]
  split
  · next h => subst h; simp [stringInside, escape, Function.comp_def]
  split
  · next h => subst h; simp [stringInside, escape, Function.comp_def]
  split
  · next h => subst h; simp [stringInside, escape, Function.comp_def]
  split
  · next h => subst h; simp [stringInside, escape, Function.comp_def]
  split
  · next h => simp [stringInside, escape_control h, Function.comp_def]
  · simp_all [stringInside]

theorem stringInside_quoted (cs rest : List Char) :
    stringInside '"' (cs.flatMap Json.quoteChar ++ '"' :: rest) 0 =
      some (cs.map .char, (cs.flatMap Json.quoteChar).length + 1) := by
  induction cs with
  | nil => rfl
  | cons c cs ih =>
    rw [List.flatMap_cons, List.append_assoc, stringInside_quoteChar, ih]
    simp only [Option.map_some, List.map_cons, List.length_append]
    congr 2
    omega

theorem scan_quoted {c : Char} (r : List Char) (h : c = '"' ∨ c = '\'') :
    scan (c :: r) = scanString c r := by
  rcases h with rfl | rfl
  · simp [scan, show isIdStart '"' = false by decide]
  · simp [scan, show isIdStart '\'' = false by decide]

theorem piecesText_map_char (cs : List Char) : piecesText (cs.map .char) = String.ofList cs := by
  simp [piecesText, List.flatMap_map]

/-- Quotes around a text are read as the text. -/
theorem scan_quote (text : String) (rest : List Char) :
    scan ((Json.quote text).toList ++ rest) =
      ⟨.string text false, (Json.quote text).toList.length, false, false⟩ := by
  have hQuote : (Json.quote text).toList ++ rest =
      '"' :: (text.toList.flatMap Json.quoteChar ++ '"' :: rest) := by
    simp [Json.quote, Json.quoteChars]
  have hLength : (Json.quote text).toList.length =
      (text.toList.flatMap Json.quoteChar).length + 1 + 1 := by
    simp [Json.quote, Json.quoteChars]
  have hWhole : (text.toList.map Piece.char).any Piece.isHalf = false := by simp [Piece.isHalf]
  have hGood : (text.toList.map Piece.char).any Piece.isBad = false := by simp [Piece.isBad]
  rw [hQuote, hLength, scan_quoted _ (.inl rfl)]
  simp only [scanString, stringInside_quoted, piecesText_map_char, hWhole, hGood,
    String.ofList_toList]

theorem takeWhile_take_append {p : Char → Bool} {k : Nat} {s tail : List Char}
    (h : ((s.take k).takeWhile p).length < s.length) :
    ((s ++ tail).take k).takeWhile p = (s.take k).takeWhile p := by
  rw [List.take_append, List.takeWhile_append]
  split
  · next hAll =>
    have hShort : k - s.length = 0 := by
      rw [hAll, List.length_take] at h
      omega
    rw [hShort, List.take_zero, List.takeWhile_nil, List.append_nil]
    exact ((List.takeWhile_prefix p).eq_of_length hAll).symm
  · rfl

theorem codePoint?_append {s : List Char} {found : Nat × Nat} (tail : List Char)
    (h : codePoint? s = some found) : codePoint? (s ++ tail) = some found := by
  unfold codePoint? at h
  split at h
  · next r =>
    by_cases hClosed : r.length = (r.takeWhile fun c => decide (c ≠ '\x7d')).length
    · simp only [if_pos hClosed] at h
      cases h
    · have hShort : (r.takeWhile fun c => decide (c ≠ '\x7d')).length ≤ r.length :=
        (List.takeWhile_prefix _).length_le
      have hDigits : ((r ++ tail).takeWhile fun c => decide (c ≠ '\x7d')) =
          r.takeWhile fun c => decide (c ≠ '\x7d') := by
        rw [List.takeWhile_append, if_neg (Ne.symm hClosed)]
      have hOpen : (r ++ tail).length ≠ (r.takeWhile fun c => decide (c ≠ '\x7d')).length := by
        rw [List.length_append]
        omega
      simp only [codePoint?, List.cons_append, hDigits, if_neg hOpen]
      simpa only [if_neg hClosed] using h
  · next a b c d r hBrace => simpa [codePoint?, hBrace] using h
  · cases h

theorem secondHalf?_append {s : List Char} {low : Nat} (tail : List Char)
    (h : secondHalf? s = some low) : secondHalf? (s ++ tail) = some low := by
  unfold secondHalf? at h
  split at h
  · next r =>
    split at h
    · next hPoint => simpa [secondHalf?, codePoint?_append tail hPoint] using h
    · cases h
  · cases h

theorem length_of_stringInside {quote : Char} {s : List Char} {skip : Nat}
    {found : List Piece × Nat} (h : stringInside quote s skip = some found) : skip < s.length := by
  induction skip generalizing s found with
  | zero => cases s with
    | nil => cases h
    | cons => simp
  | succ skip ih => cases s with
    | nil => cases h
    | cons c s =>
      obtain ⟨inner, hInner, -⟩ := Option.map_eq_some_iff.mp h
      exact Nat.succ_lt_succ (ih hInner)

theorem stringInside_drop {quote : Char} {s : List Char} {skip : Nat} {ps : List Piece} {n : Nat}
    (h : stringInside quote s skip = some (ps, n)) :
    ∃ m, stringInside quote (s.drop skip) 0 = some (ps, m) := by
  induction skip generalizing s n with
  | zero => exact ⟨n, h⟩
  | succ skip ih => cases s with
    | nil => cases h
    | cons c s =>
      obtain ⟨inner, hInner, hSame⟩ := Option.map_eq_some_iff.mp h
      cases hSame
      exact ih hInner

section Behind

variable {quote : Char} {ps : List Piece} {n : Nat} (tail : List Char) (hQuote : quote ≠ '\\')
include hQuote

/-- The escape behind a backslash and the pieces behind it. -/
theorem stringInside_backslash {r : List Char}
    (h : stringInside quote ('\\' :: r) 0 = some (ps, n)) :
    ∃ more m, stringInside quote r (escape false r).2 = some (more, m) ∧
      ps = (escape false r).1 :: more ∧ n = m + 1 := by
  have hNot : ¬ '\\' = quote := Ne.symm hQuote
  simp only [stringInside, if_neg hNot] at h
  obtain ⟨⟨more, m⟩, hMore, hSame⟩ := Option.map_eq_some_iff.mp h
  cases hSame
  exact ⟨more, m, hMore, rfl, rfl⟩

/-- A second half of a pair that is missing is missing whatever stands behind the literal. -/
theorem secondHalf?_eq_none_append {s : List Char} (hRest : stringInside quote s 0 = some (ps, n))
    (hGood : ps.any Piece.isBad = false) (h : secondHalf? s = none) :
    secondHalf? (s ++ tail) = none := by
  cases s with
  | nil => cases hRest
  | cons c r =>
    by_cases hEscape : c = '\\'
    · subst hEscape
      obtain ⟨more, m, -, rfl, -⟩ := stringInside_backslash hQuote hRest
      cases r with
      | nil => simp [escape, Piece.isBad] at hGood
      | cons d z =>
        by_cases hUnit : d = 'u'
        · subst hUnit
          cases hPoint : codePoint? z with
          | none => simp [escape, hPoint, Piece.isBad] at hGood
          | some found =>
            simpa [secondHalf?, hPoint, codePoint?_append tail hPoint] using h
        · simp [secondHalf?, hUnit]
    · simp [secondHalf?, hEscape]

/-- An escape with a meaning has it whatever stands behind the literal. -/
theorem escape_append {s : List Char}
    (hRest : stringInside quote s (escape false s).2 = some (ps, n))
    (hPiece : (escape false s).1.isBad = false) (hGood : ps.any Piece.isBad = false) :
    escape false (s ++ tail) = escape false s := by
  have hLength := length_of_stringInside hRest
  obtain ⟨m, hBehind⟩ := stringInside_drop hRest
  clear hRest
  revert hPiece hLength hBehind
  fun_cases escape false s <;> intro hPiece hLength hBehind
  case case13 r high used hPoint hHigh low hLow =>
    have hDrop : (r ++ tail).drop 4 = r.drop 4 ++ tail :=
      List.drop_append_of_le_length (by simp at hLength; omega)
    simp [escape, codePoint?_append tail hPoint, if_pos hHigh, hDrop, secondHalf?_append tail hLow]
  case case14 r high used hPoint hHigh hLow =>
    have hDrop : (r ++ tail).drop 4 = r.drop 4 ++ tail :=
      List.drop_append_of_le_length (by simp at hLength; omega)
    have hNone : secondHalf? (r.drop 4 ++ tail) = none :=
      secondHalf?_eq_none_append tail hQuote hBehind hGood hLow
    simp [escape, codePoint?_append tail hPoint, if_pos hHigh, hDrop, hNone]
  case case15 r point used hPoint hHigh =>
    simp [escape, codePoint?_append tail hPoint, if_neg hHigh]
  case case9 hNumber => simp [escape, hNumber]
  case case19 c r _ _ _ _ _ _ _ _ _ _ _ _ _ _ hOctal =>
    have hDigits : octalDigits (c :: (r ++ tail)) = octalDigits (c :: r) :=
      takeWhile_take_append hLength
    cases r with
    | nil =>
      have hOne : octalDigits [c] = [c] := by
        simp only [octalDigits]
        split <;> simp [hOctal]
      have hShort : (octalDigits [c]).length < 1 := hLength
      rw [hOne] at hShort
      exact absurd hShort (Nat.lt_irrefl 1)
    | cons d more => simp_all [escape]
  case case18 h => cases h
  case case16 c r _ _ _ _ _ _ _ _ _ _ _ | case17 c r _ _ _ _ _ _ _ _ _ _ _ _ |
      case20 c r _ _ _ _ _ _ _ _ _ _ _ _ _ _ _ | case21 c r _ _ _ _ _ _ _ _ _ _ _ _ _ =>
    cases r with
    | nil => exact absurd hLength (Nat.lt_irrefl 1)
    | cons d more => simp_all [escape]
  all_goals first | exact Bool.noConfusion hPiece | rfl

theorem stringInside_append {s : List Char} {skip : Nat}
    (h : stringInside quote s skip = some (ps, n)) (hGood : ps.any Piece.isBad = false) :
    stringInside quote (s ++ tail) skip = some (ps, n) := by
  induction s, skip using stringInside.induct quote generalizing ps n
  case case1 => cases h
  case case2 c r skip ih =>
    obtain ⟨⟨more, m⟩, hMore, hSame⟩ := Option.map_eq_some_iff.mp h
    cases hSame
    simp [stringInside, ih hMore hGood]
  case case3 r =>
    simp only [stringInside, if_true] at h
    simp [stringInside, h]
  case case4 r piece used hEscape hNot ih =>
    obtain ⟨more, m, hMore, rfl, rfl⟩ := stringInside_backslash hQuote h
    obtain ⟨hPiece, hGood⟩ : (escape false r).1.isBad = false ∧ more.any Piece.isBad = false := by
      simpa [-List.any_eq_false] using hGood
    have hSame := escape_append tail hQuote hMore hPiece hGood
    rw [hEscape] at hMore hSame ⊢
    simp [stringInside, hNot, hSame, ih hMore hGood]
  case case5 c r hClose hEscape hLine => simp [stringInside, hClose, hEscape, hLine] at h
  case case6 c r hClose hEscape hLine ih =>
    simp only [stringInside, if_neg hClose, if_neg hEscape, if_neg hLine] at h
    obtain ⟨⟨more, m⟩, hMore, hSame⟩ := Option.map_eq_some_iff.mp h
    cases hSame
    simp [stringInside, hClose, hEscape, hLine, ih hMore hGood]

end Behind

/-- A literal without meaningless escapes is read alike whatever stands behind it. -/
theorem scan_literal {text : List Char} {value : String} {halved : Bool} (tail : List Char)
    (h : scan text = ⟨.string value halved, text.length, false, false⟩) :
    scan (text ++ tail) = ⟨.string value halved, text.length, false, false⟩ := by
  obtain ⟨c, r, rfl, hMark⟩ := scan_string (congrArg Scanned.kind h)
  have hQuote : c ≠ '\\' := by rcases hMark with rfl | rfl <;> decide
  rw [scan_quoted r hMark] at h
  rw [List.cons_append, scan_quoted _ hMark]
  unfold scanString at h ⊢
  split at h
  · next ps n hInside =>
    have hGood : ps.any Piece.isBad = false := (Scanned.mk.inj h).2.2.2
    rw [stringInside_append tail hQuote hInside hGood]
    exact h
  · cases h

end Standin.Script
