import Standin.Proofs.Automock.Requests

namespace Standin.Script

open Standin.Text

/-- A word begins with a character of words, or with an escape. -/
theorem scan_word_begins {text : List Char} {w : String} (h : (scan text).kind = .word w) :
    ∃ c r, text = c :: r ∧ (isIdStart c = true ∨ c = '\\') := by
  have hBegins := begins_scan text
  simp only [Scanned.Begins, h] at hBegins
  exact hBegins.2

/-- What stands first behind the leading characters of a word is no such character. -/
theorem head_of_dropWhile {more rest : List Char} {d : Char}
    (h : more.dropWhile isIdContinue = d :: rest) : isIdContinue d = false ∧ d ∈ more := by
  have hOther := List.head?_dropWhile_not isIdContinue more
  exact ⟨by simpa [h] using hOther, (List.dropWhile_suffix isIdContinue).subset (by simp [h])⟩

/-- Text that is made of the characters of words is a word up to the first other character. -/
theorem lexes_leading {c : Char} {more tail : List Char} (hFirst : isIdStart c = true)
    (hPlain : '\\' ∉ more) (hTail : endsWord tail = true) :
    Lexes (c :: more.takeWhile isIdContinue)
      (.word (String.ofList (c :: more.takeWhile isIdContinue)))
      (more.dropWhile isIdContinue ++ tail) := by
  have hWord : isPlainWord (String.ofList (c :: more.takeWhile isIdContinue)).toList = true := by
    rw [String.toList_ofList]
    simp [isPlainWord, hFirst]
  have hEnds : endsWord (more.dropWhile isIdContinue ++ tail) = true := by
    cases hRest : more.dropWhile isIdContinue with
    | nil => exact hTail
    | cons d rest =>
      obtain ⟨hOther, hMem⟩ := head_of_dropWhile hRest
      exact endsWord_cons _ hOther fun hSlash => hPlain (hSlash ▸ hMem)
  have hLexes := Lexes.word hWord hEnds
  rwa [String.toList_ofList] at hLexes

theorem isIdContinue_of_isIdStart {c : Char} (h : isIdStart c = true) : isIdContinue c = true := by
  by_cases hNarrow : c.toNat < 128
  · simp only [isIdStart, hNarrow, if_true, Bool.or_eq_true] at h
    simp only [isIdContinue, hNarrow, if_true, Bool.or_eq_true, Char.isAlphanum]
    tauto
  · simp only [isIdStart, hNarrow, if_false] at h
    simp [isIdContinue, hNarrow, h]

/-- Letters and digits beyond the words' are no blanks. -/
theorem isSolid_of_isAlphanumeric {c : Char} (h : isAlphanumeric c = true) : isSolid c = true :=
  isSolid_of_class (by decide +kernel) (by decide +kernel) h

theorem isAlphanumeric_of_isAlphabetic {c : Char} (h : isAlphabetic c = true) :
    isAlphanumeric c = true := by
  by_cases hNarrow : c.toNat < 128
  · simp only [isAlphabetic, hNarrow, if_true] at h
    simp [isAlphanumeric, hNarrow, Char.isAlphanum, h]
  · simp only [isAlphabetic, hNarrow, if_false] at h
    simp [isAlphanumeric, hNarrow, h]

namespace Grammar

open Reading

variable {s t : State} {n : ExportName}

def ReadsName (s : State) (text : String) (tail : List Char) : Prop :=
  ∃ n, listedName s = .ok n s.next ∧ n.text = text ∧ s.rest = tail

theorem listedName_of_word {w : String} (h : s.token.kind = .word w) :
    listedName s = .ok (.word ⟨⟨s.token.start, s.token.stop⟩, w⟩) s.next := by
  simp [listedName, anyName, h]

theorem kind_of_listedName (h : listedName s = .ok n t) :
    s.token.kind = .word n.text ∨ ∃ halved, s.token.kind = .string n.text halved := by
  cases hKind : s.token.kind with
  | word w =>
    simp only [listedName, bind_apply, kind_apply, hKind, anyName, token_apply, advance_apply,
      pure_apply, EStateM.Result.ok.injEq] at h
    obtain ⟨rfl, -⟩ := h
    exact .inl rfl
  | string value halved =>
    right
    cases halved <;> simp [listedName, stringLiteral, note, hKind] at h <;> obtain ⟨rfl, -⟩ := h <;>
      exact ⟨_, rfl⟩
  | _ => simp [listedName, anyName, unexpected, hKind] at h

end Grammar

end Standin.Script

namespace Standin.Automock

open Standin.Script Standin.Script.Grammar Standin.Text

variable {base s : State} {kind : TokenKind} {tail : List Char}

theorem exportName_of_isBareName {name : String} (h : isBareName name.toList = true) :
    exportName name = name := if_pos h

theorem quote_ne (name : String) : Json.quote name ≠ name := by
  have hSome : ∀ c ∈ name.toList, Json.quoteChar c ≠ [] := by
    intro c _
    unfold Json.quoteChar
    split_ifs <;> exact nofun
  have hLength := length_le_flatMap hSome
  intro hSame
  have hChars : (Json.quote name).toList.length = name.toList.length := by rw [hSame]
  simp [Json.quote, Json.quoteChars] at hChars hLength
  omega

/-- A name is written without quotes exactly where it passes for a bare one. -/
theorem exportName_eq_self_iff {name : String} :
    exportName name = name ↔ isBareName name.toList = true := by
  unfold exportName
  split
  · next hBare => exact iff_of_true rfl hBare
  · next hBare => exact iff_of_false (quote_ne name) hBare

theorem readsName_of_writes {chunk : List Char} {text : String} (h : WritesName chunk kind text)
    (hTail : endsWord tail = true) {before : TokenKind}
    (hStands : State.Stands base s before (' ' :: (chunk ++ tail))) :
    ReadsName s.next text tail := by
  have hNext := hStands.next_blank (h.lexes hTail)
  obtain ⟨n, hName, hText⟩ := listedName_finds (h.names hNext.kind)
  exact ⟨n, hName, hText, hNext.rest⟩

/-- At a letter or a digit that no word begins with, nothing begins that a list can name, and no
list ends. -/
theorem token_of_isAlphanumeric {c : Char} {rest : List Char}
    (hText : s.rest = c :: rest ∨ s.rest = ' ' :: c :: rest) (hStart : isIdStart c = false)
    (hLetter : isAlphanumeric c = true) :
    isListedName s.next = .ok false s.next ∧ s.next.token.kind ≠ .punct .braceR := by
  have hSolid := isSolid_of_isAlphanumeric hLetter
  have hKind : s.next.token.kind = (scan (c :: rest)).kind := by
    rcases hText with hText | hText
    · rw [State.next, hText, State.scanFrom_of_isSolid _ _ _ _ hSolid]
      rfl
    · rw [State.next_of_isSolid s hText hSolid]
      rfl
  constructor
  · cases hScanned : (scan (c :: rest)).kind with
    | word w =>
      obtain ⟨_, _, hSame, hBegins⟩ := scan_word_begins hScanned
      cases hSame
      rcases hBegins with hBegins | rfl
      · simp [hStart] at hBegins
      · exact absurd hLetter (by decide)
    | string value halved =>
      obtain ⟨_, _, hSame, hQuote⟩ := scan_string hScanned
      cases hSame
      rcases hQuote with rfl | rfl <;> exact absurd hLetter (by decide)
    | _ => simp [isListedName, hKind, hScanned]
  · intro hBrace
    obtain ⟨_, hSame⟩ := prefix_of_punctAt (scan_punct (hKind ▸ hBrace)).2
    obtain rfl : '\x7d' = c := (List.cons.inj hSame).1
    exact absurd hLetter (by decide)

/-- A name that a word begins and that is no word is read as that shorter word, with no name behind
it. -/
theorem token_of_leading {c : Char} {more : List Char} (hStart : isIdStart c = true)
    (hMore : ∀ d ∈ more, d = '$' ∨ d = '_' ∨ isAlphanumeric d = true)
    (hWord : isPlainWord (c :: more) = false) (hTail : endsWord tail = true)
    (hStands : State.Stands base s kind (' ' :: (c :: more ++ tail))) :
    ∃ w, s.next.token.kind = .word w ∧ w.toList ≠ c :: more ∧
      isListedName s.next.next = .ok false s.next.next := by
  have hPlain : '\\' ∉ more := fun hMem => absurd (hMore _ hMem) (by decide)
  have hSplit : c :: more ++ tail = c :: more.takeWhile isIdContinue ++
      (more.dropWhile isIdContinue ++ tail) := by
    rw [List.cons_append, List.cons_append, ← List.append_assoc, List.takeWhile_append_dropWhile]
  rw [hSplit] at hStands
  have hNext := hStands.next_blank (lexes_leading hStart hPlain hTail)
  have hParts := List.takeWhile_append_dropWhile (p := isIdContinue) (l := more)
  cases hRest : more.dropWhile isIdContinue with
  | nil =>
    have hSame : more.takeWhile isIdContinue = more := by simpa [hRest] using hParts
    have hAll : more.all isIdContinue = true := hSame ▸ List.all_takeWhile
    simp [isPlainWord, hStart, hAll] at hWord
  | cons d rest =>
    obtain ⟨hOther, hMem⟩ := head_of_dropWhile hRest
    have hLetter : isAlphanumeric d = true := by
      rcases hMore d hMem with rfl | rfl | hLetter
      · exact absurd hOther (by decide)
      · exact absurd hOther (by decide)
      · exact hLetter
    have hNot : isIdStart d = false :=
      Bool.eq_false_iff.mpr fun h => by simp [isIdContinue_of_isIdStart h] at hOther
    refine ⟨_, hNext.kind, fun hText => ?_, (token_of_isAlphanumeric
      (.inl (by rw [hNext.rest, hRest, List.cons_append])) hNot hLetter).1⟩
    have hLength := congrArg List.length hText
    have hBoth := congrArg List.length hParts
    simp at hLength
    simp [hRest] at hBoth
    omega

/-- Where a bare name that is no word is written, another word stands with no name behind it, or
nothing that a list can name. -/
theorem token_of_bare {name : String} (hBare : isBareName name.toList = true)
    (hWord : isPlainWord name.toList = false) (hTail : endsWord tail = true)
    (hStands : State.Stands base s kind (' ' :: (name.toList ++ tail))) :
    (∃ w, s.next.token.kind = .word w ∧ w ≠ name ∧
      isListedName s.next.next = .ok false s.next.next) ∨
    isListedName s.next = .ok false s.next ∧ s.next.token.kind ≠ .punct .braceR := by
  obtain ⟨c, more, hChars⟩ : ∃ c more, name.toList = c :: more := by
    cases hChars : name.toList with
    | nil => simp [hChars, isBareName] at hBare
    | cons c more => exact ⟨c, more, rfl⟩
  rw [hChars] at hBare hWord hStands
  obtain ⟨hFirst, hMore⟩ : (c = '$' ∨ c = '_' ∨ isAlphabetic c = true) ∧
      ∀ d ∈ more, d = '$' ∨ d = '_' ∨ isAlphanumeric d = true := by
    simpa [isBareName, or_assoc] using hBare
  cases hStart : isIdStart c with
  | true =>
    -- the word ends where a character of the name cannot go on with it
    obtain ⟨w, hKind, hOther, hBehind⟩ := token_of_leading hStart hMore hWord hTail hStands
    exact .inl ⟨w, hKind, fun hSame => hOther (hSame ▸ hChars), hBehind⟩
  | false =>
    have hLetter : isAlphabetic c = true := by
      rcases hFirst with rfl | rfl | hLetter
      · exact absurd hStart (by decide)
      · exact absurd hStart (by decide)
      · exact hLetter
    exact .inr (token_of_isAlphanumeric (.inr hStands.rest) hStart
      (isAlphanumeric_of_isAlphabetic hLetter))

section Bare

variable {name : String} (hBare : isBareName name.toList = true)
  (hWord : isPlainWord name.toList = false) (hTail : endsWord tail = true)
  (hStands : State.Stands base s kind (' ' :: (name.toList ++ tail)))
include hBare hWord hTail hStands

/-- Where a bare name that is no word is written, a list names something else, and what stands
behind it is no name. -/
theorem misread_of_bare {n : ExportName} {t : State} (hName : listedName s.next = .ok n t) :
    n.text ≠ name ∧ t = s.next.next ∧ isListedName t = .ok false t := by
  rcases token_of_bare hBare hWord hTail hStands with ⟨w, hKind, hOther, hBehind⟩ | ⟨hNone, -⟩
  · cases (listedName_of_word hKind).symm.trans hName
    exact ⟨hOther, rfl, hBehind⟩
  · rcases kind_of_listedName hName with hKind | ⟨halved, hKind⟩ <;>
      simp [isListedName, hKind] at hNone

theorem not_closed_of_bare : s.next.token.kind ≠ .punct .braceR := by
  rcases token_of_bare hBare hWord hTail hStands with ⟨w, hKind, -, -⟩ | ⟨-, hOpen⟩
  · simp [hKind]
  · exact hOpen

/-- A bare name that is no word is not read as one name with its text. -/
theorem not_readsName_of_bare : ¬ReadsName s.next name tail := by
  rintro ⟨n, hName, hText, -⟩
  exact (misread_of_bare hBare hWord hTail hStands hName).1 hText

/-- Nothing is imported by a bare name that is no word. -/
theorem import_of_bare : Reading.Yields (importSpecifier false) s.next fun spec _ =>
    ∃ imported n, spec = .named imported n false ∧ imported.text ≠ name := by
  have hListed : Reading.Yields listed s.next fun l _ =>
      l.inner.text ≠ name ∧ l.typeOnly = false := by
    intro l t hRead
    cases hName : listedName s.next with
    | error e u => simp [listed, hName] at hRead
    | ok n u =>
      obtain ⟨hOther, rfl, hNone⟩ := misread_of_bare hBare hWord hTail hStands hName
      cases (listed_alone hName hNone).symm.trans hRead
      exact ⟨hOther, rfl⟩
  refine .known (Reading.start_apply _) (.bind hListed fun l _ hTold => ?_)
  exact .behind fun n _ => .pure ⟨l.inner, n, by rw [hTold.2], hTold.1⟩

end Bare

/-- Nothing is exported under a bare name that is no word. -/
theorem export_of_bare {inner name : String} (hInner : isPlainWord inner.toList = true)
    (hType : inner ≠ "type") (hBare : isBareName name.toList = true)
    (hWord : isPlainWord name.toList = false) (hTail : endsWord tail = true)
    (hStands : State.Stands base s kind
      (' ' :: (inner.toList ++ ' ' :: ("as".toList ++ ' ' :: (name.toList ++ tail))))) :
    Reading.Yields (exportSpecifier false) s.next fun x _ => x.outer.text ≠ name := by
  have hAs : isPlainWord "as".toList = true := by decide
  have h₁ := hStands.next_blank (.word hInner (endsWord_blank _))
  have h₂ := h₁.next_blank (.word hAs (endsWord_blank _))
  have hListed : Reading.Yields listed s.next fun l _ => l.outer.text ≠ name := by
    intro l t hRead
    rw [listed_eq (listedName_of_word h₁.kind)] at hRead
    cases hName : listedName s.next.next.next with
    | error e u =>
      simp [isText, hType, listedRest, Reading.eatWord, h₂.kind, h₂.plain, hName] at hRead
    | ok n u =>
      obtain ⟨hOther, -⟩ := misread_of_bare hBare hWord hTail h₂ hName
      simp [isText, hType, listedRest, Reading.eatWord, h₂.kind, h₂.plain, hName] at hRead
      obtain ⟨rfl, -⟩ := hRead
      exact hOther
  exact .known (Reading.start_apply _) (.bind hListed fun l _ hOther => .pure hOther)

/-- What is written for a name is read back as one name with its text, exactly where a name that is
written without quotes is a word. With quotes it is a literal of that text. -/
theorem exportName_reads_iff (name : String) (hTail : endsWord tail = true)
    (hStands : State.Stands base s kind (' ' :: ((exportName name).toList ++ tail))) :
    (ReadsName s.next name tail ↔
        (exportName name = name → isPlainWord name.toList = true)) ∧
      (exportName name ≠ name → exportName name = Json.quote name ∧
        s.next.token.kind = .string name false) := by
  simp only [ne_eq, exportName_eq_self_iff]
  cases hBare : isBareName name.toList with
  | true =>
    rw [exportName_of_isBareName hBare] at hStands
    cases hWord : isPlainWord name.toList with
    | true => simpa using readsName_of_writes (.word hWord) hTail hStands
    | false => simpa using not_readsName_of_bare hBare hWord hTail hStands
  | false =>
    have hQuoted : exportName name = Json.quote name := if_neg (by simp [hBare])
    rw [hQuoted] at hStands ⊢
    have hKind := (hStands.next_blank (.quote name tail)).kind
    simpa [hKind] using readsName_of_writes (.quoted name) hTail hStands

/-- A superscript digit passes for a part of a bare name, and ends a word. -/
theorem exportName_reads_superscript :
    let s := State.before ⟨false, true, false, true⟩ " a² \x7d".toList
    endsWord " \x7d".toList = true ∧
      State.Stands s s .eof (' ' :: ((exportName "a²").toList ++ " \x7d".toList)) ∧
      exportName "a²" = "a²" ∧ ¬ReadsName s.next "a²" " \x7d".toList := by
  intro s
  have hTail : endsWord " \x7d".toList = true := by decide
  have hBare : exportName "a²" = "a²" := by decide +kernel
  have hStands : State.Stands s s .eof (' ' :: ((exportName "a²").toList ++ " \x7d".toList)) :=
    ⟨rfl, rfl, rfl, rfl, rfl, rfl, rfl, by rw [hBare]; rfl⟩
  have hReads := (exportName_reads_iff "a²" hTail hStands).1
  exact ⟨hTail, hStands, hBare, fun h => absurd (hReads.mp h hBare) (by decide +kernel)⟩

end Standin.Automock
