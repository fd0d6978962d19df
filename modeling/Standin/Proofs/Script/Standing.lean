import Mathlib.Data.List.Forall2
import Standin.Proofs.Script.Literals
import Standin.Proofs.Script.Reading

namespace Standin.Script

open Standin.Text

/-- A stretch of text is one token where `tail` stands behind it. -/
structure Lexes (chunk : List Char) (kind : TokenKind) (tail : List Char) : Prop where
  solid : ∃ c r, chunk = c :: r ∧ isSolid c = true
  scanned : scan (chunk ++ tail) = ⟨kind, chunk.length, false, false⟩

namespace Lexes

variable {tail : List Char}

theorem word {w : String} (h : isPlainWord w.toList = true) (hTail : endsWord tail = true) :
    Lexes w.toList (.word w) tail := by
  refine ⟨?_, by rw [scan_word h hTail, String.ofList_toList]⟩
  generalize w.toList = chars at h
  cases chars with
  | nil => cases h
  | cons c r =>
    simp only [isPlainWord, Bool.and_eq_true] at h
    exact ⟨c, r, rfl, isSolid_of_isIdStart h.1⟩

theorem literal {text : List Char} {value : String} {halved : Bool}
    (h : scan text = ⟨.string value halved, text.length, false, false⟩) (tail : List Char) :
    Lexes text (.string value halved) tail := by
  obtain ⟨c, r, rfl, hQuote⟩ := scan_string (congrArg Scanned.kind h)
  refine ⟨⟨c, r, rfl, ?_⟩, scan_literal tail h⟩
  rcases hQuote with rfl | rfl <;> decide

theorem quote (text : String) (tail : List Char) :
    Lexes (Json.quote text).toList (.string text false) tail := by
  refine ⟨⟨'"', text.toList.flatMap Json.quoteChar ++ ['"'], ?_, by decide⟩, scan_quote text tail⟩
  simp [Json.quote, Json.quoteChars]

theorem braceL (tail : List Char) : Lexes ['\x7b'] (.punct .braceL) tail :=
  ⟨⟨_, _, rfl, by decide⟩, rfl⟩

theorem braceR (tail : List Char) : Lexes ['\x7d'] (.punct .braceR) tail :=
  ⟨⟨_, _, rfl, by decide⟩, rfl⟩

theorem comma (tail : List Char) : Lexes [','] (.punct .comma) tail := ⟨⟨_, _, rfl, by decide⟩, rfl⟩

theorem semicolon (tail : List Char) : Lexes [';'] (.punct .semicolon) tail :=
  ⟨⟨_, _, rfl, by decide⟩, rfl⟩

theorem colon (tail : List Char) : Lexes [':'] (.punct .colon) tail := ⟨⟨_, _, rfl, by decide⟩, rfl⟩

theorem parenL (tail : List Char) : Lexes ['('] (.punct .parenL) tail :=
  ⟨⟨_, _, rfl, by decide⟩, rfl⟩

theorem parenR (tail : List Char) : Lexes [')'] (.punct .parenR) tail :=
  ⟨⟨_, _, rfl, by decide⟩, rfl⟩

theorem bracketL (tail : List Char) : Lexes ['['] (.punct .bracketL) tail :=
  ⟨⟨_, _, rfl, by decide⟩, rfl⟩

theorem bracketR (tail : List Char) : Lexes [']'] (.punct .bracketR) tail :=
  ⟨⟨_, _, rfl, by decide⟩, rfl⟩

theorem star (tail : List Char) : Lexes ['*'] (.punct .star) (' ' :: tail) :=
  ⟨⟨_, _, rfl, by decide⟩, rfl⟩

theorem assign (tail : List Char) : Lexes ['='] (.punct .assign) (' ' :: tail) :=
  ⟨⟨_, _, rfl, by decide⟩, rfl⟩

end Lexes

/-- A state on the way through a text: as many faults are noted as at the start, the token is of a
kind and stands before `tail`. -/
structure State.Stands (base s : State) (kind : TokenKind) (tail : List Char) : Prop where
  dialect : s.dialect = base.dialect
  scope : s.scope = base.scope
  size : s.size = base.size
  faults : s.faults = base.faults
  unclaimed : s.unclaimed = base.unclaimed
  kind : s.token.kind = kind
  plain : s.token.escaped = false
  rest : s.rest = tail

namespace State.Stands

variable {base s : State} {kind found : TokenKind} {chunk tail : List Char}

theorem scanFrom (h : Lexes chunk found tail) (s : State) (position : Nat) (lineStart : Bool) :
    Stands s (s.scanFrom (chunk ++ tail) position lineStart) found tail := by
  obtain ⟨⟨c, r, rfl, hSolid⟩, hScan⟩ := h
  rw [List.cons_append] at hScan ⊢
  rw [scanFrom_of_isSolid _ _ _ _ hSolid, hScan]
  exact ⟨rfl, rfl, rfl, rfl, rfl, rfl, rfl, by simp [State.place]⟩

theorem trans {middle : State} {before : TokenKind} {rest : List Char}
    (h : Stands base middle before rest) (hNext : Stands middle s kind tail) :
    Stands base s kind tail where
  dialect := hNext.dialect.trans h.dialect
  scope := hNext.scope.trans h.scope
  size := hNext.size.trans h.size
  faults := hNext.faults.trans h.faults
  unclaimed := hNext.unclaimed.trans h.unclaimed
  kind := hNext.kind
  plain := hNext.plain
  rest := hNext.rest

/-- Where the token before ended does not matter. -/
theorem moved (h : Stands base s kind tail) :
    Stands base { s with lastStop := s.token.stop } kind tail :=
  ⟨h.dialect, h.scope, h.size, h.faults, h.unclaimed, h.kind, h.plain, h.rest⟩

theorem next (h : Stands base s kind (chunk ++ tail)) (hToken : Lexes chunk found tail) :
    Stands base s.next found tail := by
  rw [State.next, h.rest]
  exact h.moved.trans (scanFrom hToken _ _ _)

theorem next_blank (h : Stands base s kind (' ' :: (chunk ++ tail)))
    (hToken : Lexes chunk found tail) : Stands base s.next found tail := by
  rw [State.next, h.rest, scanFrom_blank]
  exact h.moved.trans (scanFrom hToken _ _ _)

/-- On the next line. -/
theorem next_line (h : Stands base s kind ('\n' :: (chunk ++ tail)))
    (hToken : Lexes chunk found tail) : Stands base s.next found tail := by
  obtain ⟨⟨c, r, rfl, hSolid⟩, hScan⟩ := hToken
  rw [List.cons_append] at h hScan
  rw [State.next, h.rest, State.scanFrom_line _ _ _ _ hSolid, hScan]
  exact h.moved.trans ⟨rfl, rfl, rfl, rfl, rfl, rfl, rfl, by simp [State.place]⟩

theorem next_end (h : Stands base s kind []) : Stands base s.next .eof [] := by
  rw [State.next, h.rest]
  exact h.moved.trans ⟨rfl, rfl, rfl, rfl, rfl, rfl, rfl, rfl⟩

end State.Stands

open Reading

section Statements

variable {ε : Type} {base s : State} {kind : TokenKind} {g : Grammar} {text : ε → List Char}
  {told : ε → Stmt → Prop} {statements : List ε} {tail : List Char}

/-- A statement is read up to the mark that ends it, wherever it stands. -/
def ReadsStatement (base : State) (item : Reading Stmt) (text : List Char) (told : Stmt → Prop) :
    Prop :=
  ∀ ⦃s kind tail⦄, State.Stands base s kind (text ++ tail) →
    s.next.token.kind ≠ .eof ∧ Finds item s.next fun stmt t =>
      told stmt ∧ ∃ u mark, t = u.next ∧ State.Stands base u mark tail

theorem ReadsStatement.mono {item : Reading Stmt} {text : List Char} {told weaker : Stmt → Prop}
    (h : ReadsStatement base item text told) (hWeaker : ∀ stmt, told stmt → weaker stmt) :
    ReadsStatement base item text weaker := by
  intro s kind tail hStands
  obtain ⟨hSome, hFinds⟩ := h hStands
  exact ⟨hSome, hFinds.mono fun stmt t ⟨hTold, hEnd⟩ => ⟨hWeaker stmt hTold, hEnd⟩⟩

/-- A statement is read behind its first word, wherever it stands. -/
def ReadsBehind (base : State) (item : Reading Stmt) (w : String) (more : List Char)
    (told : Stmt → Prop) : Prop :=
  ∀ ⦃s tail⦄, State.Stands base s (.word w) (' ' :: (more ++ tail)) →
    Finds item s fun stmt t => told stmt ∧ ∃ u mark, t = u.next ∧ State.Stands base u mark tail

namespace ReadsBehind

variable {item : Reading Stmt} {w : String} {more : List Char} {told : Stmt → Prop}
  (hWord : isPlainWord w.toList = true) (h : ReadsBehind base item w more told)
include hWord h

theorem statement : ReadsStatement base item (w.toList ++ ' ' :: more) told := by
  intro s kind tail hStands
  rw [List.append_assoc] at hStands
  have hFirst := hStands.next (.word hWord (endsWord_blank (more ++ tail)))
  exact ⟨by simp [hFirst.kind], h hFirst⟩

theorem statement_line : ReadsStatement base item ('\n' :: (w.toList ++ ' ' :: more)) told := by
  intro s kind tail hStands
  rw [List.cons_append, List.append_assoc] at hStands
  have hFirst := hStands.next_line (.word hWord (endsWord_blank (more ++ tail)))
  exact ⟨by simp [hFirst.kind], h hFirst⟩

end ReadsBehind

def manyStep {α : Type} (isEnd : Reading Bool) (item : Reading α) (back : List α) :
    Reading (List α ⊕ List α) := do
  if ← isEnd then return .inr back.reverse
  return .inl ((← item) :: back)

def statementStep (g : Grammar) : List Stmt → Reading (List Stmt ⊕ List Stmt) :=
  manyStep (do return (← Reading.kind) == .eof) (g.statement .list)

/-- A loop goes over all that it takes one of in every round. -/
theorem iterate_each {α : Type} {step : List α → Reading (List α ⊕ List α)}
    {told : ε → α → Prop} {ahead : State → List ε → Prop} {es : List ε}
    (hRound : ∀ e ∈ es, ∀ more s back, ahead s (e :: more) →
      ∃ a t, step back s = .ok (.inl (a :: back)) t ∧ told e a ∧ ahead t more)
    (back : List α) {s : State} (h : ahead s es) :
    ∃ items t, List.Forall₂ told es items ∧ ahead t [] ∧
      ∀ fuel, iterate step (fuel + es.length) back s =
        iterate step fuel (items.reverse ++ back) t := by
  induction es generalizing back s with
  | nil => exact ⟨[], s, .nil, h, fun _ => rfl⟩
  | cons e more ih =>
    obtain ⟨a, t, hStep, hTold, hMore⟩ := hRound e List.mem_cons_self more s back h
    obtain ⟨items, u, hItems, hEnd, hRest⟩ :=
      ih (fun e hMem => hRound e (List.mem_cons_of_mem _ hMem)) (a :: back) hMore
    refine ⟨a :: items, u, .cons hTold hItems, hEnd, fun fuel => ?_⟩
    rw [List.length_cons, ← Nat.add_assoc, iterate, bind_apply, hStep]
    simpa using hRest fuel

/-- Statements are read one by one, whatever stands behind them. -/
theorem iterate_statements
    (hAll : ∀ e ∈ statements, ReadsStatement base (g.statement .list) (text e) (told e))
    (back : List Stmt) (h : State.Stands base s kind (statements.flatMap text ++ tail)) :
    ∃ items u mark, List.Forall₂ told statements items ∧ State.Stands base u mark tail ∧
      ∀ fuel, iterate (statementStep g) (fuel + statements.length) back s.next =
        iterate (statementStep g) fuel (items.reverse ++ back) u.next := by
  let ahead (t : State) (es : List ε) : Prop :=
    ∃ u mark, t = u.next ∧ State.Stands base u mark (es.flatMap text ++ tail)
  have hRound : ∀ e ∈ statements, ∀ more t back, ahead t (e :: more) →
      ∃ stmt u, statementStep g back t = .ok (.inl (stmt :: back)) u ∧ told e stmt ∧
        ahead u more := by
    rintro e hMem more _ back ⟨s, kind, rfl, hStands⟩
    rw [List.flatMap_cons, List.append_assoc] at hStands
    obtain ⟨hSome, stmt, u, hRead, hTold, hEnd⟩ := hAll e hMem hStands
    exact ⟨stmt, u, by simp [statementStep, manyStep, hSome, hRead], hTold, hEnd⟩
  obtain ⟨items, _, hItems, ⟨u, mark, rfl, hEnd⟩, hRest⟩ :=
    iterate_each hRound back ⟨s, kind, rfl, h⟩
  exact ⟨items, u, mark, hItems, hEnd, hRest⟩

theorem flatMap_of_forall₂ {α β γ : Type} {R : α → β → Prop} {as : List α} {bs : List β}
    {f : β → List γ} {g : α → List γ} (h : List.Forall₂ R as bs)
    (hSame : ∀ a ∈ as, ∀ b, R a b → f b = g a) : bs.flatMap f = as.flatMap g := by
  induction h with
  | nil => rfl
  | cons hFirst _ ih =>
    rw [List.flatMap_cons, List.flatMap_cons, hSame _ List.mem_cons_self _ hFirst,
      ih fun a hMem => hSame a (List.mem_cons_of_mem _ hMem)]

theorem forall_of_forall₂ {α β : Type} {R : α → β → Prop} {P : β → Prop} {as : List α}
    {bs : List β} (h : List.Forall₂ R as bs) (hTold : ∀ a ∈ as, ∀ b, R a b → P b) :
    ∀ b ∈ bs, P b := by
  induction h with
  | nil => simp
  | cons hFirst _ ih =>
    obtain ⟨hHead, hMore⟩ := List.forall_mem_cons.mp hTold
    exact List.forall_mem_cons.mpr ⟨hHead _ hFirst, ih hMore⟩

theorem map_eq_of_forall₂ {α β γ : Type} {R : α → β → Prop} {as : List α} {bs : List β}
    {f : β → γ} {g : α → γ} (h : List.Forall₂ R as bs) (hSame : ∀ a b, R a b → f b = g a) :
    bs.map f = as.map g := by
  rw [← List.forall₂_eq_eq_eq, List.forall₂_map_left_iff, List.forall₂_map_right_iff]
  exact h.flip.imp fun b a hR => hSame a b hR

theorem forall₂_append {α β : Type} {R : α → β → Prop} {first second : List α} {bs : List β}
    (h : List.Forall₂ R (first ++ second) bs) : ∃ before behind, bs = before ++ behind ∧
      List.Forall₂ R first before ∧ List.Forall₂ R second behind := by
  induction first generalizing bs with
  | nil => exact ⟨[], bs, rfl, .nil, h⟩
  | cons a more ih =>
    cases h with
    | cons hFirst hMore =>
      obtain ⟨before, behind, rfl, hBefore, hBehind⟩ := ih hMore
      exact ⟨_ :: before, behind, rfl, .cons hFirst hBefore, hBehind⟩

/-- Names that are all different repeat none. -/
theorem repeated_of_nodup {seen : List String} {names : List (String × Nat)}
    (hNodup : (names.map Prod.fst).Nodup) (hNew : ∀ n ∈ names, n.1 ∉ seen) :
    repeated seen names = [] := by
  induction names generalizing seen with
  | nil => rfl
  | cons n more ih =>
    rw [List.map_cons, List.nodup_cons] at hNodup
    obtain ⟨hFirst, hMore⟩ := List.forall_mem_cons.mp hNew
    rw [repeated, if_neg (by simpa using hFirst)]
    refine ih hNodup.2 fun m hMem => List.mem_cons.not.mpr (not_or.mpr ⟨fun hSame => ?_, ?_⟩)
    · exact hNodup.1 (hSame ▸ List.mem_map_of_mem hMem)
    · exact hMore m hMem

theorem length_le_flatMap (h : ∀ e ∈ statements, text e ≠ []) :
    statements.length ≤ (statements.flatMap text).length := by
  induction statements with
  | nil => exact Nat.zero_le _
  | cons e more ih =>
    obtain ⟨hFirst, hMore⟩ := List.forall_mem_cons.mp h
    have hRest := ih hMore
    have hLength := List.length_pos_iff.mpr hFirst
    simp only [List.flatMap_cons, List.length_append, List.length_cons]
    omega

variable (d : Dialect) {k : Nat}

/-- The statements that a text begins with are read one by one. -/
theorem many_statements
    (hAll : ∀ e ∈ statements, ReadsStatement (State.before d (statements.flatMap text ++ tail))
      (Grammar.statementRule (.ofDepth k) .list) (text e) (told e))
    (hSome : ∀ e ∈ statements, text e ≠ [])
    (hHead : ∀ c ∈ (statements.flatMap text ++ tail).head?, isSolid c = true ∧ c ≠ '#') :
    ∃ items u mark, List.Forall₂ told statements items ∧
      State.Stands (State.before d (statements.flatMap text ++ tail)) u mark tail ∧
      ∃ fuel, many (do return (← Reading.kind) == .eof) ((Grammar.ofDepth (k + 1)).statement .list)
          (State.initial d (statements.flatMap text ++ tail)) =
        iterate (statementStep (.ofDepth (k + 1))) (fuel + 1) items.reverse u.next := by
  have hLength := length_le_flatMap hSome
  obtain ⟨fuel, hFuel⟩ : ∃ fuel, (statements.flatMap text ++ tail).length + 2 =
      fuel + 1 + statements.length :=
    ⟨(statements.flatMap text ++ tail).length + 1 - statements.length, by
      rw [List.length_append]; omega⟩
  have hStart : State.Stands (State.before d (statements.flatMap text ++ tail))
      (State.before d (statements.flatMap text ++ tail)) .eof (statements.flatMap text ++ tail) :=
    ⟨rfl, rfl, rfl, rfl, rfl, rfl, rfl, rfl⟩
  obtain ⟨items, u, mark, hItems, hStands, hRest⟩ :=
    iterate_statements (g := Grammar.ofDepth (k + 1)) hAll [] hStart
  refine ⟨items, u, mark, hItems, hStands, fuel, ?_⟩
  have hRead := hRest (fuel + 1)
  rw [← hFuel, List.append_nil] at hRead
  rw [State.initial_eq_next d hHead]
  exact hRead

/-- Depths of the grammar that the shortest text is read at. -/
theorem exists_depth (size : Nat) : ∃ k, 15 ≤ k ∧ depthFor size = k + 1 :=
  ⟨depthFor size - 1, by unfold depthFor; omega, by unfold depthFor; omega⟩

/-- A text of statements that export no name twice, unless types may share it, is read statement by
statement. -/
theorem parse_apart
    (hAll : ∀ k, 15 ≤ k → ∀ e ∈ statements,
      ReadsStatement (State.before d (statements.flatMap text))
        (Grammar.statementRule (.ofDepth k) .list) (text e) (told e))
    (hSome : ∀ e ∈ statements, text e ≠ [])
    (hHead : ∀ c ∈ (statements.flatMap text).head?, isSolid c = true ∧ c ≠ '#')
    (hNames : d.typed = false → ∀ body, List.Forall₂ told statements body →
      repeated [] (body.flatMap Stmt.exportedNames) = []) :
    ∃ body, parse d (statements.flatMap text) = .ok (⟨body⟩, []) ∧
      List.Forall₂ told statements body := by
  obtain ⟨k, hDeep, hDepth⟩ := exists_depth (statements.flatMap text).length
  have hMany := @many_statements ε text told statements [] d k
  rw [List.append_nil] at hMany
  obtain ⟨items, u, mark, hItems, hStands, fuel, hRead⟩ := hMany (hAll k hDeep) hSome hHead
  have hEnd := hStands.next_end
  have hBody : many (do return (← Reading.kind) == .eof) ((Grammar.ofDepth (k + 1)).statement .list)
      (State.initial d (statements.flatMap text)) = .ok items u.next := by
    rw [hRead]
    simp [iterate, statementStep, manyStep, hEnd.kind]
  have hTyped : u.next.dialect.typed = d.typed := by rw [hEnd.dialect]; rfl
  have hFaults : u.next.faults = [] := hEnd.faults
  have hUnclaimed : u.next.unclaimed = [] := hEnd.unclaimed
  have hProgram :
      programRule (Grammar.ofDepth (k + 1)) (State.initial d (statements.flatMap text)) =
        .ok ⟨items⟩ u.next := by
    simp only [programRule, bind_apply, hBody]
    cases hDialect : d.typed with
    | true => simp [hUnclaimed, hTyped, hDialect]
    | false => simp [hUnclaimed, hTyped, hDialect, hNames hDialect items hItems]
  refine ⟨items, ?_, hItems⟩
  rw [parse, hDepth]
  simp [hProgram, hFaults]

/-- A text of statements each of which begins with a word, and of which none exports a name where
types may not share one, is read statement by statement. -/
theorem parse_statements
    (hAll : ∀ g, ∀ e ∈ statements, ReadsStatement (State.before d (statements.flatMap text))
      (Grammar.statementRule g .list) (text e) (told e))
    (hWords : ∀ e ∈ statements, ∃ w rest, text e = w ++ rest ∧ isPlainWord w = true)
    (hNames : d.typed = false → ∀ e ∈ statements, ∀ stmt, told e stmt → stmt.exportedNames = []) :
    ∃ body, parse d (statements.flatMap text) = .ok (⟨body⟩, []) ∧
      List.Forall₂ told statements body := by
  refine parse_apart d (fun k _ => hAll (.ofDepth k)) (fun e hMem hNil => ?_) ?_
    fun hUntyped body hBody => ?_
  · obtain ⟨w, rest, hText, hWord⟩ := hWords e hMem
    obtain ⟨rfl, -⟩ := List.append_eq_nil_iff.mp (hText.symm.trans hNil)
    cases hWord
  · cases statements with
    | nil => exact nofun
    | cons e more =>
      obtain ⟨w, rest, hText, hWord⟩ := hWords e List.mem_cons_self
      rw [List.flatMap_cons, hText, List.append_assoc]
      exact head_of_word hWord _
  · rw [flatMap_of_forall₂ hBody (hNames hUntyped), List.flatMap_def]
    simp [repeated]

theorem parse_empty : parse d [] = .ok (⟨[]⟩, []) := by
  have hParse := @parse_statements Unit (fun _ => []) (fun _ _ => True) [] d
  simp only [List.flatMap_nil] at hParse
  obtain ⟨body, hParse, hAll⟩ := hParse nofun nofun nofun
  cases hAll
  exact hParse

/-- A text of one statement that exports no name. -/
theorem parse_single {text : List Char} {told : Stmt → Prop}
    (hReads : ∀ g, ReadsStatement (State.before d text) (Grammar.statementRule g .list) text told)
    (hWord : ∃ w rest, text = w ++ rest ∧ isPlainWord w = true)
    (hNames : ∀ stmt, told stmt → stmt.exportedNames = []) :
    ∃ stmt, parse d text = .ok (⟨[stmt]⟩, []) ∧ told stmt := by
  have hParse := @parse_statements Unit (fun _ => text) (fun _ => told) [()] d
  simp only [List.flatMap_singleton] at hParse
  obtain ⟨body, hParse, hAll⟩ :=
    hParse (fun g _ _ => hReads g) (fun _ _ => hWord) fun _ _ _ => hNames
  obtain ⟨stmt, hTold, rfl⟩ : ∃ stmt, told stmt ∧ body = [stmt] := by
    cases hAll with
    | cons hFirst hMore =>
      cases hMore
      exact ⟨_, hFirst, rfl⟩
  exact ⟨stmt, hParse, hTold⟩

/-- What was read stays at the front of what is read. -/
theorem statementStep_yields (back : List Stmt) :
    Yields (statementStep g back) s fun found _ =>
      match found with
      | .inl back' => ∃ stmt, back' = stmt :: back
      | .inr body => body = back.reverse := by
  refine .behind fun atEnd _ => ?_
  split
  · exact .pure rfl
  · exact .behind fun stmt _ => .pure ⟨stmt, rfl⟩

theorem iterate_statementStep_yields {gives : Stmt → Prop} (fuel : Nat) (items : List Stmt)
    (hMore : s.token.kind ≠ .eof)
    (hGives : Yields (g.statement .list) s fun stmt _ => gives stmt) :
    Yields (iterate (statementStep g) (fuel + 1) items.reverse) s fun body _ =>
      ∃ stmt more, body = items ++ stmt :: more ∧ gives stmt := by
  have hStep : Yields (statementStep g items.reverse) s fun found _ =>
      ∃ stmt, found = .inl (stmt :: items.reverse) ∧ gives stmt := by
    have hOn : (do return (← Reading.kind) == .eof : Reading Bool) s = .ok false s := by
      simp [hMore]
    exact .known hOn (.bind hGives fun stmt _ hGiven => .pure ⟨stmt, rfl, hGiven⟩)
  refine .bind hStep ?_
  rintro found t ⟨stmt, rfl, hGiven⟩
  refine .iterate (fun back _ => ∃ more, back = more ++ stmt :: items.reverse)
    (fun back t' ⟨more, hBack⟩ => (statementStep_yields back).mono fun found _ hFound => ?_)
    fuel ⟨[], rfl⟩
  cases found with
  | inl back' =>
    obtain ⟨later, rfl⟩ := hFound
    exact ⟨later :: more, by rw [hBack, List.cons_append]⟩
  | inr body => exact ⟨stmt, more.reverse, by rw [hFound, hBack]; simp, hGiven⟩

/-- Behind statements that are read one by one, what is read next tells the statement behind
them. -/
theorem body_of_parse {gives : Stmt → Prop} {q : Program} {faults : List SyntaxFault}
    (hAll : ∀ k, 15 ≤ k → ∀ e ∈ statements,
      ReadsStatement (State.before d (statements.flatMap text ++ tail))
        (Grammar.statementRule (.ofDepth k) .list) (text e) (told e))
    (hSome : ∀ e ∈ statements, text e ≠ [])
    (hHead : ∀ c ∈ (statements.flatMap text ++ tail).head?, isSolid c = true ∧ c ≠ '#')
    (hNext : ∀ g u mark,
      State.Stands (State.before d (statements.flatMap text ++ tail)) u mark tail →
        u.next.token.kind ≠ .eof ∧
          Yields (Grammar.statementRule g .list) u.next fun stmt _ => gives stmt)
    (h : parse d (statements.flatMap text ++ tail) = .ok (q, faults)) :
    ∃ items stmt more, q.body = items ++ stmt :: more ∧ List.Forall₂ told statements items ∧
      gives stmt := by
  obtain ⟨k, hDeep, hDepth⟩ := exists_depth (statements.flatMap text ++ tail).length
  obtain ⟨items, u, mark, hItems, hStands, fuel, hRead⟩ :=
    many_statements d (hAll k hDeep) hSome hHead
  obtain ⟨hMore, hGives⟩ := hNext (.ofDepth k) u mark hStands
  have hProgram : Yields (programRule (.ofDepth (k + 1)))
      (State.initial d (statements.flatMap text ++ tail)) fun p _ =>
        ∃ stmt more, p.body = items ++ stmt :: more ∧ gives stmt := by
    refine .bind (.of_same hRead (iterate_statementStep_yields (g := .ofDepth (k + 1)) fuel items
      hMore hGives)) fun body _ hBody => ?_
    refine .behind fun _ _ => .behind fun _ _ => .behind fun _ _ => ?_
    dsimp only
    split
    · exact .pure hBody
    · exact .behind fun _ _ => .pure hBody
  rw [parse, hDepth] at h
  split at h
  · next p t hFound =>
    cases h
    obtain ⟨stmt, more, hBody, hGiven⟩ := hProgram _ _ hFound
    exact ⟨items, stmt, more, hBody, hItems, hGiven⟩
  · cases h

end Statements

end Standin.Script
