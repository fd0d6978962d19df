import Mathlib.Data.List.Forall2
import Standin.Proofs.Script.FreeNames
import Standin.Proofs.Script.Standing

namespace Standin.Script

open Reading

/-- Whether a token is a name in a list: a word, or a string. -/
def Token.NamesListed (t : Token) (text : String) : Prop :=
  t.kind = .word text ∨ t.kind = .string text false

/-- The ways to write a name in a list, and the token each of them is. -/
inductive WritesName : List Char → TokenKind → String → Prop
  | word {w : String} (h : isPlainWord w.toList = true) : WritesName w.toList (.word w) w
  | quoted (text : String) : WritesName (Json.quote text).toList (.string text false) text

variable {base s : State} {kind : TokenKind} {chunk tail rest : List Char}

namespace WritesName

variable {text : String} (h : WritesName chunk kind text)
include h

theorem lexes (hTail : endsWord tail = true) : Lexes chunk kind tail := by
  cases h with
  | word h => exact .word h hTail
  | quoted => exact .quote text tail

theorem names {t : Token} (hKind : t.kind = kind) : t.NamesListed text := by
  cases h with
  | word => exact .inl hKind
  | quoted => exact .inr hKind

omit h in
/-- A way to write a name writes one name. -/
theorem unique {kind' : TokenKind} {text' : String} (h : WritesName chunk kind text)
    (h' : WritesName chunk kind' text') : text = text' := by
  have hEnds : endsWord [] = true := rfl
  have hScanned := (h.lexes hEnds).scanned.symm.trans (h'.lexes hEnds).scanned
  obtain rfl : kind = kind' := (Scanned.mk.inj hScanned).1
  rcases h.names (t := ⟨kind, 0, 0, false, false, false⟩) rfl with hKind | hKind <;>
    rcases h'.names (t := ⟨kind, 0, 0, false, false, false⟩) rfl with hKind' | hKind' <;>
      simp_all

end WritesName

theorem Token.NamesListed.ne_punct {t : Token} {text : String} (h : t.NamesListed text)
    (p : Punct) : t.kind ≠ .punct p := by
  rcases h with h | h <;> simp [h]

namespace Grammar

variable {inner outer : String} {p : Punct} {n m : ExportName}

theorem listedName_finds (h : s.token.NamesListed inner) :
    ∃ n, listedName s = .ok n s.next ∧ n.text = inner := by
  rcases h with h | h
  · exact ⟨.word ⟨⟨s.token.start, s.token.stop⟩, inner⟩, by simp [listedName, anyName, h], rfl⟩
  · exact ⟨.literal ⟨⟨s.token.start, s.token.stop⟩, inner, false⟩,
      by simp [listedName, stringLiteral, h], rfl⟩

theorem isListedName_of_names (h : s.token.NamesListed inner) :
    isListedName s = .ok true s := by
  rcases h with h | h <;> simp [isListedName, h]

theorem isListedName_of_punct (h : s.token.kind = .punct p) : isListedName s = .ok false s := by
  simp [isListedName, h]

theorem ne_word_of_isListedName (h : isListedName s = .ok false s) (w : String) :
    s.token.kind ≠ .word w := by
  intro hKind
  simp [isListedName, hKind] at h

/-- Behind a name that is not `type`, nothing but `as` matters. -/
theorem listed_eq (hName : listedName s = .ok n s.next) :
    listed s = if s.next.dialect.typed = true ∧ isText "type" n = true then (do
        if ← isWord "as" then
          let firstAs := ExportName.word (← anyName)
          return ← listedBehindAs n firstAs
        if ← isListedName then return ← listedRest (← listedName) true
        return ⟨n, n, false⟩ : Reading Listed) s.next
      else listedRest n false s.next := by
  cases hTyped : s.next.dialect.typed <;> cases hText : isText "type" n <;>
    simp [listed, hName, hTyped, hText]

/-- A name that no other follows stands for itself. -/
theorem listed_alone (hName : listedName s = .ok n s.next)
    (hNone : isListedName s.next = .ok false s.next) : listed s = .ok ⟨n, n, false⟩ s.next := by
  have hAs := ne_word_of_isListedName hNone "as"
  rw [listed_eq hName]
  split
  · simp [hNone, hAs]
  · simp [listedRest, eatWord, hAs]

/-- Behind `type as` a single name ends the entry, also where that name is `as`. -/
theorem listedBehindAs_eq (word firstAs : ExportName) (hNames : s.token.NamesListed outer)
    (hName : listedName s = .ok m s.next) (hMark : s.next.token.kind = .punct p) :
    listedBehindAs word firstAs s = .ok ⟨word, m, false⟩ s.next := by
  by_cases hAs : s.token.kind = .word "as"
  · have hAny : anyName s = .ok ⟨⟨s.token.start, s.token.stop⟩, "as"⟩ s.next := by
      simp [anyName, hAs]
    have hWord : listedName s = .ok (.word ⟨⟨s.token.start, s.token.stop⟩, "as"⟩) s.next := by
      simp [listedName, hAs, hAny]
    obtain ⟨rfl, -⟩ := EStateM.Result.ok.inj (hName.symm.trans hWord)
    simp [listedBehindAs, hAs, hAny, isListedName_of_punct hMark]
  · simp [listedBehindAs, hAs, hName, isListedName_of_names hNames]

/-- Two names around `as`. -/
theorem listed_as (hInner : listedName s = .ok n s.next)
    (hAs : s.next.token.kind = .word "as") (hPlain : s.next.token.escaped = false)
    (hNames : s.next.next.token.NamesListed outer)
    (hOuter : listedName s.next.next = .ok m s.next.next.next)
    (hMark : s.next.next.next.token.kind = .punct p) :
    listed s = .ok ⟨n, m, false⟩ s.next.next.next := by
  rw [listed_eq hInner]
  split
  · have hFirst : anyName s.next =
        .ok ⟨⟨s.next.token.start, s.next.token.stop⟩, "as"⟩ s.next.next := by simp [anyName, hAs]
    simp [hAs, hFirst, listedBehindAs_eq _ _ hNames hOuter hMark]
  · simp [listedRest, eatWord, hAs, hPlain, hOuter]

end Grammar

/-- What stands behind an entry up to a mark, and behind that. -/
inductive EntryEnd : List Char → Punct → List Char → Prop
  | comma (rest : List Char) : EntryEnd (',' :: rest) .comma rest
  | close (rest : List Char) : EntryEnd (' ' :: '\x7d' :: rest) .braceR rest

variable {α ε : Type} {mark : Punct}

theorem EntryEnd.endsWord (h : EntryEnd tail mark rest) : endsWord tail = true := by
  cases h <;> exact endsWord_cons _ (by decide) (by decide)

theorem EntryEnd.stands (h : EntryEnd tail mark rest) (hStands : State.Stands base s kind tail) :
    State.Stands base s.next (.punct mark) rest := by
  cases h with
  | comma => exact hStands.next (.comma rest)
  | close => exact hStands.next_blank (.braceR rest)

/-- Behind a blank an entry of a text is read up to its end. -/
def ReadsEntryOf (base : State) (item : Reading α) (entry : List Char) (told : α → Prop) : Prop :=
  ∀ ⦃s kind tail mark rest⦄, EntryEnd tail mark rest →
    State.Stands base s kind (' ' :: (entry ++ tail)) →
    s.next.token.kind ≠ .punct .braceR ∧
      Finds item s.next fun a t => told a ∧ State.Stands base t (.punct mark) rest

def ReadsEntry (item : Reading α) (entry : List Char) (told : α → Prop) : Prop :=
  ∀ base, ReadsEntryOf base item entry told

/-- What stands behind the first entry of a list. -/
def entriesText (tail : List Char) : List (List Char) → List Char
  | [] => ' ' :: '\x7d' :: tail
  | entry :: more => ',' :: ' ' :: (entry ++ entriesText tail more)

theorem entriesText_append (tail rest : List Char) (entries : List (List Char)) :
    entriesText tail entries ++ rest = entriesText (tail ++ rest) entries := by
  induction entries with
  | nil => rfl
  | cons entry more ih => simp only [entriesText, List.cons_append, List.append_assoc, ih]

theorem length_le_entriesText (tail : List Char) (entries : List (List Char)) :
    entries.length ≤ (entriesText tail entries).length := by
  induction entries with
  | nil => exact Nat.zero_le _
  | cons entry more ih =>
    simp only [entriesText, List.length_cons, List.length_append]
    omega

def separatedStep (close : Punct) (item : Reading α) (back : List α) :
    Reading (List α ⊕ List α) := do
  if ← isPunct close then return .inr back.reverse
  let a ← item
  if ← isPunct close then return .inr (a :: back).reverse
  expect .comma
  return .inl (a :: back)

theorem separated_eq (close : Punct) (item : Reading α) :
    separated close item = loop [] (separatedStep close item) := rfl

section Entries

variable {item : Reading α} {text : ε → List Char} {told : ε → α → Prop}

/-- Entries are read one by one as long as a comma follows, whatever stands behind it. -/
theorem iterate_before {before : List ε}
    (hEntries : ∀ e ∈ before, ReadsEntryOf base item (text e) (told e)) (back : List α)
    (h : State.Stands base s kind
      (' ' :: (before.flatMap (fun e => text e ++ [',', ' ']) ++ tail))) :
    ∃ items u mark, List.Forall₂ told before items ∧
      State.Stands base u mark (' ' :: tail) ∧
      ∀ fuel, iterate (separatedStep .braceR item) (fuel + before.length) back s.next =
        iterate (separatedStep .braceR item) fuel (items.reverse ++ back) u.next := by
  let ahead (t : State) (es : List ε) : Prop := ∃ u mark, t = u.next ∧
    State.Stands base u mark (' ' :: (es.flatMap (fun e => text e ++ [',', ' ']) ++ tail))
  have hRound : ∀ e ∈ before, ∀ more t back, ahead t (e :: more) →
      ∃ a u, separatedStep .braceR item back t = .ok (.inl (a :: back)) u ∧ told e a ∧
        ahead u more := by
    rintro e hMem more _ back ⟨s, kind, rfl, hStands⟩
    simp only [List.flatMap_cons, List.append_assoc, List.cons_append, List.nil_append] at hStands
    obtain ⟨hOpen, a, t, hRead, hTold, hMore⟩ := hEntries e hMem (.comma _) hStands
    refine ⟨a, t.next, ?_, hTold, t, _, rfl, hMore⟩
    simp [separatedStep, hOpen, hRead, hMore.kind, expect_apply]
  obtain ⟨items, _, hItems, ⟨u, mark, rfl, hEnd⟩, hRest⟩ :=
    iterate_each hRound back ⟨s, kind, rfl, h⟩
  exact ⟨items, u, mark, hItems, hEnd, hRest⟩

variable (text) in
/-- The text of a list, cut before one of its entries. -/
theorem entriesText_split {before after more : List ε} {entry e : ε}
    (h : entry :: more = before ++ e :: after) :
    text entry ++ entriesText tail (more.map text) =
      before.flatMap (fun e => text e ++ [',', ' ']) ++
        (text e ++ entriesText tail (after.map text)) := by
  induction before generalizing entry more with
  | nil =>
    cases h
    rfl
  | cons first before ih =>
    cases h
    cases before with
    | nil => simp [entriesText]
    | cons second before =>
      rw [List.flatMap_cons, List.append_assoc, ← ih rfl]
      simp [entriesText]

/-- A list is read entry by entry. -/
theorem separated_entries {entry : ε} {more : List ε}
    (hEntries : ∀ e ∈ entry :: more, ReadsEntryOf base item (text e) (told e))
    (hSize : more.length ≤ base.size)
    (h : State.Stands base s kind (' ' :: (text entry ++ entriesText tail (more.map text)))) :
    Finds (separated .braceR item) s.next fun found t =>
      List.Forall₂ told (entry :: more) found ∧ State.Stands base t (.punct .braceR) tail := by
  obtain ⟨before, last, hSplit⟩ : ∃ before last, entry :: more = before ++ [last] :=
    ⟨_, _, (List.dropLast_append_getLast (List.cons_ne_nil entry more)).symm⟩
  have hLength : before.length = more.length := by
    simpa using (congrArg List.length hSplit).symm
  rw [hSplit, List.forall_mem_append] at hEntries
  rw [entriesText_split text hSplit] at h
  obtain ⟨items, u, mark, hItems, hStands, hRest⟩ := iterate_before hEntries.1 [] h
  obtain ⟨hOpen, a, t, hRead, hTold, hClose⟩ := hEntries.2 last (List.mem_singleton_self _)
    (.close tail) hStands
  have hSame : s.next.size = base.size := h.size
  have hFuel : s.next.size + 2 = (base.size + 1 - more.length) + 1 + before.length := by omega
  refine .of_eq (a := items ++ [a]) ?_ ⟨?_, hClose⟩
  · rw [separated_eq, loop, bind_apply, ask_apply]
    show iterate _ (s.next.size + 2) [] s.next = _
    rw [hFuel, hRest]
    simp [iterate, separatedStep, hOpen, hRead, hClose.kind]
  · rw [hSplit]
    exact List.rel_append hItems (.cons hTold .nil)

/-- What one round of reading makes of the entries before it. -/
def Rounded (kept : List α → Prop) : List α ⊕ List α → Prop
  | .inl back => kept back
  | .inr found => kept found.reverse

theorem separatedStep_yields {close : Punct} {back : List α} {gives : α → Prop}
    (hOpen : s.token.kind ≠ .punct close) (hGives : Yields item s fun a _ => gives a) :
    Yields (separatedStep close item back) s fun found _ =>
      Rounded (fun back' => ∃ a, back' = a :: back ∧ gives a) found := by
  have hOn : isPunct close s = .ok false s := by simp [hOpen]
  refine .known hOn (.bind hGives fun a t hGiven => .behind fun closed _ => ?_)
  split
  · exact .pure ⟨a, List.reverse_reverse _, hGiven⟩
  · exact .behind fun _ _ => .pure ⟨a, rfl, hGiven⟩

/-- What was read stays in the list. -/
theorem separatedStep_keeps {close : Punct} {back first : List α} (h : first <:+ back) :
    Yields (separatedStep close item back) s fun found _ => Rounded (first <:+ ·) found := by
  refine .behind fun closed _ => ?_
  split
  · exact .pure (by simpa [Rounded] using h)
  · refine .behind fun a _ => .behind fun closed _ => ?_
    have hMore : first <:+ a :: back := h.trans (List.suffix_cons a back)
    split
    · exact .pure (by simpa [Rounded] using hMore)
    · exact .behind fun _ _ => .pure hMore

/-- Whatever stands behind entries that are read one by one is read next, and stays in the list. -/
theorem separated_yields {before : List ε} {gives : α → Prop}
    (hEntries : ∀ e ∈ before, ReadsEntryOf base item (text e) (told e))
    (hSize : before.length ≤ base.size)
    (h : State.Stands base s kind
      (' ' :: (before.flatMap (fun e => text e ++ [',', ' ']) ++ tail)))
    (hNext : ∀ u mark, State.Stands base u mark (' ' :: tail) →
      u.next.token.kind ≠ .punct .braceR ∧ Yields item u.next fun a _ => gives a) :
    Yields (separated .braceR item) s.next fun found _ =>
      ∃ items a more, found = items ++ a :: more ∧ List.Forall₂ told before items ∧ gives a := by
  obtain ⟨items, u, mark, hItems, hStands, hRest⟩ := iterate_before hEntries [] h
  obtain ⟨hOpen, hGives⟩ := hNext u mark hStands
  have hSame : s.next.size = base.size := h.size
  have hFuel : s.next.size + 2 = (base.size + 1 - before.length) + 1 + before.length := by omega
  have hLoop : separated .braceR item s.next = iterate (separatedStep .braceR item)
      (base.size + 1 - before.length + 1) items.reverse u.next := by
    rw [separated_eq, loop, bind_apply, ask_apply]
    show iterate _ (s.next.size + 2) [] s.next = _
    rw [hFuel, hRest, List.append_nil]
  refine .of_same hLoop (.bind (separatedStep_yields hOpen hGives) fun found t hFound => ?_)
  have hList {list : List α} {a : α} (hGiven : gives a) (hKept : a :: items.reverse <:+ list) :
      ∃ items a more, list.reverse = items ++ a :: more ∧ List.Forall₂ told before items ∧
        gives a := by
    obtain ⟨more, rfl⟩ := hKept
    exact ⟨items, a, more.reverse, by simp, hItems, hGiven⟩
  cases found with
  | inr list =>
    obtain ⟨a, hBack, hGiven⟩ := hFound
    have hKept : a :: items.reverse <:+ list.reverse := by simp [hBack]
    exact .pure (by simpa using hList hGiven hKept)
  | inl back =>
    obtain ⟨a, rfl, hGiven⟩ := hFound
    refine .iterate (fun back _ => a :: items.reverse <:+ back) (fun back t hKept => ?_) _
      (List.suffix_refl _)
    refine (separatedStep_keeps hKept).mono fun found t' hFound => ?_
    cases found with
    | inl back => exact hFound
    | inr list => simpa using hList hGiven hFound

end Entries

variable {behind : List Char} {first last : TokenKind} {inner outer : String}

/-- Both names around `as`, and the mark behind them. -/
theorem stands_as (hInner : WritesName chunk first inner) (hOuter : WritesName behind last outer)
    (hEnd : EntryEnd tail mark rest) (h : State.Stands base s kind
      (' ' :: ((chunk ++ ' ' :: ("as".toList ++ ' ' :: behind)) ++ tail))) :
    s.next.token.NamesListed inner ∧
      (s.next.next.token.kind = .word "as" ∧ s.next.next.token.escaped = false) ∧
      s.next.next.next.token.kind = last ∧
      State.Stands base s.next.next.next.next (.punct mark) rest := by
  simp only [List.append_assoc, List.cons_append] at h
  have hAs : isPlainWord "as".toList = true := by decide
  have h₁ := h.next_blank (hInner.lexes (endsWord_blank _))
  have h₂ := h₁.next_blank (.word hAs (endsWord_blank _))
  have h₃ := h₂.next_blank (hOuter.lexes hEnd.endsWord)
  exact ⟨hInner.names h₁.kind, ⟨h₂.kind, h₂.plain⟩, h₃.kind, hEnd.stands h₃⟩

namespace Grammar

/-- A name in a list that is imported under a private one. -/
theorem readsEntry_import (hInner : WritesName chunk first inner)
    (hPlain : isPlainWord outer.toList = true) (hFree : isFreeName outer = true) :
    ReadsEntry (importSpecifier false) (chunk ++ ' ' :: ("as".toList ++ ' ' :: outer.toList))
      fun spec => ∃ imported n, spec = .named imported n false ∧ imported.text = inner ∧
        n.text = outer := by
  intro base s kind tail mark rest hEnd h
  obtain ⟨hFirst, ⟨hAs, hWord⟩, hLast, hMark⟩ := stands_as hInner (.word hPlain) hEnd h
  obtain ⟨n, hName, rfl⟩ := listedName_finds hFirst
  obtain ⟨hReserved, hAwait, hYield, -⟩ := isFreeName_iff.mp hFree
  let m : Name := ⟨⟨s.next.next.next.token.start, s.next.next.next.token.stop⟩, outer⟩
  have hName' : listedName s.next.next.next = .ok (.word m) s.next.next.next.next := by
    simp [listedName, anyName, hLast, m]
  refine ⟨hFirst.ne_punct _, .of_eq (a := .named n m false) ?_ ⟨⟨n, m, rfl, rfl, rfl⟩, hMark⟩⟩
  simp [importSpecifier, listed_as hName hAs hWord (.inl hLast) hName' hMark.kind, localName,
    checkName, hReserved, hAwait, hYield, m]

/-- A name in a list that is exported as itself. -/
theorem readsEntry_export (typeOnly : Bool) (hInner : WritesName chunk first inner) :
    ReadsEntry (exportSpecifier typeOnly) chunk fun spec =>
      spec.inner.text = inner ∧ spec.outer.text = inner ∧ spec.typeOnly = false := by
  intro base s kind tail mark rest hEnd h
  have hStands := h.next_blank (hInner.lexes hEnd.endsWord)
  have hMark := hEnd.stands hStands
  have hToken := hInner.names hStands.kind
  obtain ⟨n, hName, rfl⟩ := listedName_finds hToken
  refine ⟨hToken.ne_punct _, .of_eq (a := ⟨n, n, false⟩) ?_ ⟨⟨rfl, rfl, rfl⟩, hMark⟩⟩
  simp [exportSpecifier, listed_alone hName (isListedName_of_punct hMark.kind)]

/-- A name in a list that is exported as another one. -/
theorem readsEntry_export_as (typeOnly : Bool) (hInner : WritesName chunk first inner)
    (hOuter : WritesName behind last outer) :
    ReadsEntry (exportSpecifier typeOnly) (chunk ++ ' ' :: ("as".toList ++ ' ' :: behind))
      fun spec => spec.inner.text = inner ∧ spec.outer.text = outer ∧ spec.typeOnly = false := by
  intro base s kind tail mark rest hEnd h
  obtain ⟨hFirst, ⟨hAs, hWord⟩, hLast, hMark⟩ := stands_as hInner hOuter hEnd h
  have hToken := hOuter.names hLast
  obtain ⟨n, hName, rfl⟩ := listedName_finds hFirst
  obtain ⟨m, hName', rfl⟩ := listedName_finds hToken
  refine ⟨hFirst.ne_punct _, .of_eq (a := ⟨n, m, false⟩) ?_ ⟨⟨rfl, rfl, rfl⟩, hMark⟩⟩
  simp [exportSpecifier, listed_as hName hAs hWord hToken hName' hMark.kind]

end Grammar

def originText (lit : List Char) : List Char := ' ' :: ("from".toList ++ ' ' :: (lit ++ [';']))

namespace Grammar

variable {lit : List Char} {value : String} {halved : Bool}

theorem origin_stands (hLit : scan lit = ⟨.string value halved, lit.length, false, false⟩)
    (h : State.Stands base s kind (originText lit ++ tail)) :
    (s.next.token.kind = .word "from" ∧ s.next.token.escaped = false) ∧
      (∃ r, request s.next.next = .ok r s.next.next.next ∧ r.source.value = value ∧
        r.attributes = []) ∧
      State.Stands base s.next.next.next (.punct .semicolon) tail := by
  simp only [originText, List.append_assoc, List.cons_append, List.nil_append] at h
  have hFrom : isPlainWord "from".toList = true := by decide
  have h₁ := h.next_blank (.word hFrom (endsWord_blank _))
  have h₂ := h₁.next_blank (.literal hLit (';' :: tail))
  have h₃ := h₂.next (.semicolon tail)
  refine ⟨⟨h₁.kind, h₁.plain⟩, ⟨⟨⟨⟨s.next.next.token.start, s.next.next.token.stop⟩, value,
    halved⟩, []⟩, ?_, rfl, rfl⟩, h₃⟩
  simp [request, stringLiteral, importAttributes, h₂.kind, h₃.kind]

/-- An import behind its keyword, where its list is known. -/
theorem importRest_of_list {pos : Nat} {found : List ImportSpecifier} {t : State} {r : Request}
    (hMark : s.token.kind = .punct .braceL ∨ s.token.kind = .punct .star)
    (hList : importList false s = .ok found t)
    (hFrom : t.token.kind = .word "from") (hPlain : t.token.escaped = false)
    (hRequest : request t.next = .ok r t.next.next)
    (hEnd : t.next.next.token.kind = .punct .semicolon) :
    importRest pos s = .ok (.imports ⟨pos, t.next.next.next.lastStop⟩ false found r)
      t.next.next.next := by
  rcases hMark with hMark | hMark <;>
    simp [importRest, importNames, hMark, isVariableName, importClause, hList, hFrom, hPlain, hRequest,
      endStatement, hEnd]

theorem statementRule_import (g : Grammar) (h : s.token.kind = .word "import")
    (hPlain : s.token.escaped = false)
    (hMark : s.next.token.kind = .punct .braceL ∨ s.next.token.kind = .punct .star) :
    g.statementRule .list s = importRest s.token.start s.next := by
  rcases hMark with hMark | hMark <;>
    simp [statementRule, h, wordStatement, isImportExpression, hMark, hPlain]

/-- The tokens that a private import of a whole list or module consists of. -/
theorem importAll_eq {w : String} (hStar : s.token.kind = .punct .star)
    (hAs : s.next.token.kind = .word "as") (hPlain : s.next.token.escaped = false)
    (hName : s.next.next.token.kind = .word w) (hFree : isFreeName w = true) :
    importList false s = .ok [.all ⟨⟨s.next.next.token.start, s.next.next.token.stop⟩, w⟩]
      s.next.next.next := by
  simp [importList, hStar, hAs, hPlain, variableName_of_isFreeName hName hFree]

variable (g : Grammar)

def importListText (lit entry : List Char) (more : List (List Char)) : List Char :=
  "import".toList ++ ' ' :: '\x7b' :: ' ' :: (entry ++ entriesText (originText lit) more)

def importAllText (lit : List Char) (name : String) : List Char :=
  "import".toList ++ ' ' :: '*' :: ' ' :: ("as".toList ++ ' ' :: (name.toList ++ originText lit))

def exportTypesText (lit entry : List Char) (more : List (List Char)) : List Char :=
  "export".toList ++ ' ' :: ("type".toList ++ ' ' :: '\x7b' :: ' ' ::
    (entry ++ entriesText (originText lit) more))

theorem length_le_importListText (lit entry : List Char) (more : List (List Char)) :
    more.length ≤ (importListText lit entry more).length := by
  have hEntries := length_le_entriesText (originText lit) more
  delta importListText
  simp only [List.length_append, List.length_cons]
  omega

theorem length_le_exportTypesText (lit entry : List Char) (more : List (List Char)) :
    more.length ≤ (exportTypesText lit entry more).length := by
  have hEntries := length_le_entriesText (originText lit) more
  delta exportTypesText
  simp only [List.length_append, List.length_cons]
  omega

variable (hLit : scan lit = ⟨.string value halved, lit.length, false, false⟩)
include hLit

/-- An import of a list of names is read from its first word to its semicolon. -/
theorem reads_importList {text : ε → List Char} {told : ε → ImportSpecifier → Prop}
    {entry : ε} {more : List ε}
    (hEntries : ∀ e ∈ entry :: more, ReadsEntry (importSpecifier false) (text e) (told e))
    (hSize : more.length ≤ base.size) :
    ReadsStatement base (g.statementRule .list) (importListText lit (text entry) (more.map text))
      fun stmt => ∃ span specifiers r, stmt = .imports span false specifiers r ∧
        List.Forall₂ told (entry :: more) specifiers ∧ r.source.value = value ∧
        r.attributes = [] := by
  intro s kind tail h
  delta importListText at h
  simp only [List.append_assoc, List.cons_append, entriesText_append] at h
  have hImport : isPlainWord "import".toList = true := by decide
  have h₁ := h.next (.word hImport (endsWord_blank _))
  have h₂ := h₁.next_blank (.braceL _)
  obtain ⟨found, t, hList, hAll, hClose⟩ :=
    separated_entries (fun e hMem => hEntries e hMem base) hSize h₂
  obtain ⟨⟨hFrom, hPlain⟩, ⟨r, hRequest, hValue, hNone⟩, hEnd⟩ := origin_stands hLit hClose
  have hSpecifiers : importList false s.next.next = .ok found t.next := by
    simp [importList, h₂.kind, hList, hClose.kind]
  refine ⟨by simp [h₁.kind], .of_same (statementRule_import g h₁.kind h₁.plain (.inl h₂.kind)) ?_⟩
  exact .of_eq (importRest_of_list (.inl h₂.kind) hSpecifiers hFrom hPlain hRequest hEnd.kind)
    ⟨⟨_, found, r, rfl, hAll, hValue, hNone⟩, _, _, rfl, hEnd⟩

/-- An import of a whole module is read from its first word to its semicolon. -/
theorem reads_importAll {name : String} (hWord : isPlainWord name.toList = true)
    (hFree : isFreeName name = true) :
    ReadsStatement base (g.statementRule .list) (importAllText lit name)
      fun stmt => ∃ span n r, stmt = .imports span false [.all n] r ∧ n.text = name ∧
        r.source.value = value ∧ r.attributes = [] := by
  intro s kind tail h
  delta importAllText at h
  simp only [List.append_assoc, List.cons_append] at h
  have hImport : isPlainWord "import".toList = true := by decide
  have hAs : isPlainWord "as".toList = true := by decide
  have h₁ := h.next (.word hImport (endsWord_blank _))
  have h₂ := h₁.next_blank (.star _)
  have h₃ := h₂.next_blank (.word hAs (endsWord_blank _))
  have h₄ := h₃.next_blank (.word hWord (endsWord_blank _))
  obtain ⟨⟨hFrom, hPlain⟩, ⟨r, hRequest, hValue, hNone⟩, hEnd⟩ := origin_stands hLit h₄
  refine ⟨by simp [h₁.kind], .of_same (statementRule_import g h₁.kind h₁.plain (.inr h₂.kind)) ?_⟩
  exact .of_eq (importRest_of_list (.inr h₂.kind)
      (importAll_eq h₂.kind h₃.kind h₃.plain h₄.kind hFree) hFrom hPlain hRequest hEnd.kind)
    ⟨⟨_, _, r, rfl, rfl, hValue, hNone⟩, _, _, rfl, hEnd⟩

/-- An export of a list of types is read from its first word to its semicolon. -/
theorem reads_exportTypes {text : ε → List Char} {told : ε → ExportSpecifier → Prop}
    {entry : ε} {more : List ε} (hTyped : base.dialect.typed = true)
    (hEntries : ∀ e ∈ entry :: more, ReadsEntry (exportSpecifier true) (text e) (told e))
    (hSize : more.length ≤ base.size) :
    ReadsStatement base (g.statementRule .list) (exportTypesText lit (text entry) (more.map text))
      fun stmt => ∃ span specifiers r, stmt = .exportList span true specifiers (some r) ∧
        List.Forall₂ told (entry :: more) specifiers ∧ r.source.value = value ∧
        r.attributes = [] := by
  intro s kind tail h
  delta exportTypesText at h
  simp only [List.append_assoc, List.cons_append, entriesText_append] at h
  have hExport : isPlainWord "export".toList = true := by decide
  have hType : isPlainWord "type".toList = true := by decide
  have h₁ := h.next (.word hExport (endsWord_blank _))
  have h₂ := h₁.next_blank (.word hType (endsWord_blank _))
  have h₃ := h₂.next_blank (.braceL _)
  obtain ⟨found, t, hList, hAll, hClose⟩ :=
    separated_entries (fun e hMem => hEntries e hMem base) hSize h₃
  obtain ⟨⟨hFrom, hPlain⟩, ⟨r, hRequest, hValue, hNone⟩, hEnd⟩ := origin_stands hLit hClose
  have hTyped : s.next.next.dialect.typed = true := by rw [h₂.dialect, hTyped]
  refine ⟨by simp [h₁.kind], .of_eq (a := .exportList ⟨s.next.token.start,
    t.next.next.next.next.lastStop⟩ true found (some r)) ?_
    ⟨⟨_, found, r, rfl, hAll, hValue, hNone⟩, _, _, rfl, hEnd⟩⟩
  simp [statementRule, wordStatement, exportRule, exportList, h₁.kind, h₁.plain, h₂.kind, h₂.plain,
    h₃.kind, hTyped, hList, hClose.kind, eatWord, hFrom, hPlain, hRequest, endStatement, hEnd.kind]

end Grammar

end Standin.Script
