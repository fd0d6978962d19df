import Standin.Proofs.Script.Spans
import Standin.Script.Parse

namespace Standin.Script

/-- What a statement shows stands behind its first character. -/
def Stmt.ShowsBehind (s : Stmt) : Prop := ∀ part ∈ s.shown?, s.span.start < part.start

theorem Stmt.ShowsBehind.of_none {s : Stmt} (h : s.shown? = none) : s.ShowsBehind := by
  intro part hPart
  rw [h] at hPart
  cases hPart

namespace Reading

variable {α : Type}

theorem advanceKeyword_yields (s : State) :
    Yields advanceKeyword s fun _ t => s.token.stop ≤ t.token.start := by
  have hNext (t : State) : t.token.stop ≤ t.next.token.start := Nat.le_add_right ..
  refine .known (token_apply s) ?_
  dsimp only
  split
  · exact .known (change_apply ..) (.of_eq (advance_apply _) (hNext _))
  · exact .of_eq (advance_apply s) (hNext s)

theorem expectWord_yields {w : String} (hWord : w ≠ "") {s : State} (hSound : s.Sound) :
    Yields (expectWord w) s fun _ t => s.token.start < t.token.start := by
  have hEat : Yields (eatWord w) s fun found t =>
      found = true → s.token.start < t.token.start := by
    refine .known (isWord_apply s w) ?_
    split
    · next hKind =>
      refine .bind (advanceKeyword_yields s) fun _ t hStop => .pure fun _ => ?_
      exact Nat.lt_of_lt_of_le (hSound.word w (of_decide_eq_true hKind) hWord) hStop
    · exact .pure nofun
  refine .bind hEat fun found t hFound => ?_
  cases found with
  | true => exact .pure (hFound rfl)
  | false => exact .of_error rfl

/-- Behind a word at `n`, everything is read from `n + 1` on. -/
theorem Gives.behindWord {pos : Nat} {w : String} (hWord : w ≠ "") {k : Nat → Reading α}
    {told : α → Prop} (h : ∀ n, Gives (n + 1) (k n) told) :
    Gives pos (Reading.start >>= fun n => expectWord w >>= fun _ => k n) told := by
  intro s hSound _
  have hExpect : Yields (expectWord w) s fun _ t => t.Sound ∧ s.token.start < t.token.start :=
    fun _ t hRead =>
      ⟨((expectWord w).forward hRead hSound).1, expectWord_yields hWord hSound _ t hRead⟩
  refine .known (start_apply s) (.bind hExpect ?_)
  rintro _ t ⟨hNext, hStart⟩
  exact h s.token.start t hNext hStart

end Reading

namespace Grammar

open Reading

variable {g : Grammar} {pos n : Nat}

theorem plainDefault_gives (h : g.Forward) (hn : pos ≤ n) :
    Gives pos (g.plainDefault n) fun value => ∀ part ∈ value.span?, pos ≤ part.start := by
  refine .behind fun _ => .ite (.behind fun _ => ?_) (.behind fun _ => .behind fun _ =>
    .behind fun _ => .ite (.behind fun _ => .behind fun _ => .pure nofun) ?_)
  · exact .bind (functionDeclaration_gives hn) fun f hf => .pure (by rintro _ ⟨⟩; exact hf)
  · exact .bind h.assignment fun e he => .behind fun _ => .pure (by rintro _ ⟨⟩; exact he)

theorem defaultValue_gives (h : g.Forward) {decorators : List Expr} :
    Gives pos (g.defaultValue decorators) fun value => ∀ part ∈ value.span?, pos ≤ part.start := by
  refine .bind .start fun n hn => .behind fun _ => .afterEither fun decorators => ?_
  refine .behind fun _ => .behind fun _ => .behind fun _ => .afterNote (.behind fun _ => ?_)
  refine .ite ?_ ?_
  · exact .bind (classRest_gives hn) fun c hc => .pure (by rintro _ ⟨⟩; exact hc)
  · split
    · exact .behind fun _ => plainDefault_gives h hn
    · exact plainDefault_gives h hn

theorem exportDeclared_gives {decorators : List Expr} :
    Gives (n + 1) (g.exportDeclared n decorators) Stmt.ShowsBehind := by
  refine .bind .start fun m hm => .behind fun decorators => ?_
  have hShown {d : Decl} (hd : n < d.span.start) :
      Gives (n + 1) (do return .exportDecl (← spanFrom n) d) Stmt.ShowsBehind := by
    refine .bind .spanFrom fun span hSpan => .pure ?_
    rintro _ ⟨⟩
    exact hSpan ▸ hd
  refine .bind (declaration_gives hm) fun d hd => ?_
  split
  · exact .behind fun _ => hShown hd
  · exact hShown hd

section Lists

variable {typeOnly : Bool}

theorem exportAll_gives : Gives pos (exportAll n typeOnly) Stmt.ShowsBehind := by
  refine .behind fun _ => .behind fun _ => .afterChoice fun _ => ?_
  exact .behind fun _ => .behind fun _ => .behind fun _ => .behind fun _ => .pure (.of_none rfl)

theorem exportList_gives : Gives pos (exportList n typeOnly) Stmt.ShowsBehind := by
  refine .behind fun _ => .behind fun _ => .behind fun _ => .behind fun _ => ?_
  exact .afterChoice fun _ => .afterNote (.behind fun _ => .behind fun _ => .pure (.of_none rfl))

theorem importNames_gives (hn : pos ≤ n) {first : Option Name} :
    Gives pos (importNames n typeOnly first) fun s => s.shown? = none ∧ pos ≤ s.span.start := by
  cases first
  case none =>
    exact .behind fun _ => .behind fun _ => .behind fun _ => .behind fun _ =>
      .bind (.span hn) fun _ h => .pure ⟨rfl, h⟩
  case some =>
    refine .behind fun _ => .behind fun _ => .ite ?_ ?_
    · exact .bind (aliasRest_gives hn) fun _ h => .pure ⟨rfl, h⟩
    · exact .behind fun _ => .behind fun _ => .behind fun _ => .behind fun _ =>
        .bind (.span hn) fun _ h => .pure ⟨rfl, h⟩

theorem importRest_gives (hn : pos ≤ n) :
    Gives pos (importRest n) fun s => s.shown? = none ∧ pos ≤ s.span.start := by
  refine .behind fun _ => ?_
  split
  · exact .behind fun _ => .behind fun _ => .bind (.span hn) fun _ h => .pure ⟨rfl, h⟩
  · refine .behind fun _ => .afterChoice fun word => ?_
    dsimp only
    split
    all_goals
      exact .behind fun _ => .ite (.behind fun _ => .afterChoice fun _ => importNames_gives hn)
        (.behind fun _ => importNames_gives hn)

end Lists

theorem exportRule_gives (h : g.Forward) {decorators : List Expr} :
    Gives pos (g.exportRule decorators) Stmt.ShowsBehind := by
  have hExport : "export" ≠ "" := by decide
  -- The statement's span begins at `n`, and everything from here on is read behind it.
  refine .behindWord hExport fun n => .behind fun next => ?_
  split
  · exact exportAll_gives
  · exact exportList_gives
  · refine .behind fun _ => .bind (defaultValue_gives h) fun value hValue =>
      .bind .spanFrom fun span hSpan => .pure fun part hPart => ?_
    exact hSpan ▸ hValue part hPart
  · exact .behind fun _ => .afterCheck (.behind fun _ => .behind fun _ => .behind fun _ =>
      .behind fun _ => .pure (.of_none rfl))
  · exact .behind fun _ => .afterCheck (.behind fun _ => .behind fun _ => .behind fun _ =>
      .behind fun _ => .behind fun _ => .pure (.of_none rfl))
  · refine .behind fun _ => .afterCheck (.bind .start fun m hm => .behind fun _ =>
      .bind (importRest_gives hm) ?_)
    rintro s ⟨-, hStart⟩
    split
    · exact .bind .spanFrom fun span hSpan => .pure (by rintro _ ⟨⟩; exact hSpan ▸ hStart)
    · exact .throwAt _ _
  · exact .behind fun _ => .behind fun _ => .ite (.behind fun _ => exportList_gives)
      (.behind fun _ => .behind fun _ => .ite (.behind fun _ => exportAll_gives)
        exportDeclared_gives)
  · exact exportDeclared_gives

theorem forRest_gives {awaits : Bool} {first : List Stmt} :
    Gives pos (g.forRest n awaits first) (·.shown? = none) :=
  .behind fun _ => .behind fun _ => .afterChoice' fun _ => .behind fun _ => .behind fun _ =>
    .afterChoice' fun _ => .behind fun _ => .afterNote (.behind fun _ => .behind fun _ => .pure rfl)

theorem forEachRest_gives {awaits : Bool} {left : Stmt} :
    Gives pos (g.forEachRest n awaits left) (·.shown? = none) := by
  refine .behind fun _ => .ite (.afterNote ?_) (.behind fun _ => ?_)
  all_goals exact .behind fun _ => .behind fun _ => .behind fun _ => .behind fun _ => .pure rfl

theorem forVariables_gives {awaits : Bool} :
    Gives pos (g.forVariables n awaits) (·.shown? = none) := by
  refine .behind fun _ => .behind fun d => .behind fun _ => .ite forEachRest_gives ?_
  split
  · exact .behind fun _ => forRest_gives
  · exact forRest_gives

theorem forStatement_gives : Gives pos g.forStatement (·.shown? = none) := by
  refine .behind fun n => .behind fun _ => .behind fun awaits =>
    .ite (.behind fun _ => .afterCheck (.behind fun _ => ?_)) ?_
  all_goals
    refine .behind fun _ => .behind fun _ => .ite forRest_gives (.behind fun _ =>
      .ite forVariables_gives (.behind fun _ => .behind fun _ => .behind fun _ => .behind fun _ =>
        .behind fun e => .behind fun _ => .ite (.behind fun _ => .behind fun _ => ?_)
          forRest_gives))
    exact .ite (.afterNote forEachRest_gives) forEachRest_gives

theorem blockStatement_gives : Gives pos g.blockStatement (·.shown? = none) :=
  .behind fun _ => .behind fun _ => .behind fun _ => .pure rfl

theorem doStatement_gives : Gives pos g.doStatement (·.shown? = none) :=
  .behind fun _ => .behind fun _ => .behind fun _ => .behind fun _ => .behind fun _ =>
    .behind fun _ => .behind fun _ => .pure rfl

theorem ifStatement_gives : Gives pos g.ifStatement (·.shown? = none) :=
  .behind fun _ => .behind fun _ => .behind fun _ => .behind fun _ => .behind fun _ =>
    .afterChoice fun _ => .behind fun _ => .pure rfl

theorem switchStatement_gives : Gives pos g.switchStatement (·.shown? = none) :=
  .behind fun _ => .behind fun _ => .behind fun _ => .behind fun _ => .behind fun _ =>
    .behind fun _ => .behind fun _ => .pure rfl

theorem tryStatement_gives : Gives pos g.tryStatement (·.shown? = none) := by
  refine .behind fun _ => .behind fun _ => .behind fun _ => .behind fun _ => .behind fun _ =>
    .ite (.behind fun _ => .behind fun _ => .behind fun _ => ?_) (.behind fun _ => ?_)
  all_goals
    exact .afterEither fun _ => .behind fun _ => .afterEither fun _ =>
      .afterCheck (.behind fun _ => .pure rfl)

theorem jumpStatement_gives : Gives pos jumpStatement (·.shown? = none) :=
  .behind fun _ => .behind fun _ => .behind fun _ => .afterChoice' fun _ => .behind fun _ =>
    .behind fun _ => .pure rfl

theorem returnStatement_gives : Gives pos g.returnStatement (·.shown? = none) :=
  .behind fun _ => .behind fun _ => .behind fun _ => .afterCheck (.behind fun _ =>
    .afterChoice' fun _ => .behind fun _ => .behind fun _ => .pure rfl)

theorem throwStatement_gives : Gives pos g.throwStatement (·.shown? = none) :=
  .behind fun _ => .behind fun _ => .behind fun _ => .afterNote (.behind fun _ => .behind fun _ =>
    .behind fun _ => .pure rfl)

theorem withStatement_gives : Gives pos g.withStatement (·.shown? = none) :=
  .behind fun _ => .behind fun _ => .behind fun _ => .behind fun _ => .behind fun _ => .pure rfl

theorem expressionStatement_gives : Gives pos g.expressionStatement (·.shown? = none) := by
  refine .behind fun _ => .behind fun e => ?_
  split
  · exact .behind fun _ => .ite (.behind fun _ => .behind fun _ => .pure rfl)
      (.behind fun _ => .behind fun _ => .pure rfl)
  · exact .behind fun _ => .behind fun _ => .pure rfl

variable {place : Place}

theorem variableStatement_gives : Gives pos (g.variableStatement place) (·.shown? = none) := by
  refine .behind fun _ => .behind fun d => .behind fun _ => ?_
  split
  · exact .afterNote (.behind fun _ => .pure rfl)
  · exact .pure rfl

theorem functionStatement_gives : Gives pos (g.functionStatement place) (·.shown? = none) := by
  refine .behind fun _ => .behind fun _ => .behind fun f => ?_
  cases f with
  | mk => exact .afterNote (.behind fun _ => .pure rfl)

theorem typedStatement_gives : Gives pos g.typedStatement (·.shown? = none) := by
  refine .behind fun _ => .behind fun _ => .behind fun d => ?_
  split
  · exact .behind fun _ => .pure rfl
  · exact .pure rfl

theorem decoratedStatement_gives (h : g.Forward) :
    Gives pos (g.decoratedStatement place) Stmt.ShowsBehind :=
  .behind fun _ => .behind fun _ => .behind fun _ => .ite (exportRule_gives h)
    (.behind fun _ => .behind fun _ => .afterCheck (.behind fun _ => .behind fun _ =>
      .pure (.of_none rfl)))

theorem wordStatement_gives (h : g.Forward) {w : String} :
    Gives pos (g.wordStatement place w) Stmt.ShowsBehind := by
  have hPlain {r : Reading Stmt} (h : Gives pos r (·.shown? = none)) :
      Gives pos r Stmt.ShowsBehind := Gives.mono h fun _ => .of_none
  refine .bind .start fun n hn => ?_
  split
  · exact hPlain ifStatement_gives
  · exact hPlain doStatement_gives
  · exact .behind fun _ => .behind fun _ => .behind fun _ => .behind fun _ => .pure (.of_none rfl)
  · exact hPlain forStatement_gives
  · exact hPlain jumpStatement_gives
  · exact hPlain jumpStatement_gives
  · exact hPlain returnStatement_gives
  · exact hPlain withStatement_gives
  · exact hPlain switchStatement_gives
  · exact hPlain throwStatement_gives
  · exact hPlain tryStatement_gives
  · exact .behind fun _ => .behind fun _ => .behind fun _ => .pure (.of_none rfl)
  · exact .behind fun _ => .behind fun _ => .pure (.of_none rfl)
  · exact exportRule_gives h
  · exact .behind fun _ => .ite (hPlain expressionStatement_gives) (.behind fun _ =>
      Gives.mono (importRest_gives hn) fun _ h => .of_none h.1)
  · exact .behind fun _ => .behind fun _ => .ite (hPlain typedStatement_gives) (.behind fun _ =>
      .ite (hPlain variableStatement_gives) (.behind fun _ =>
        .ite (hPlain functionStatement_gives) (.behind fun _ => .behind fun _ =>
          .ite (hPlain typedStatement_gives) (hPlain expressionStatement_gives))))

theorem statementRule_gives (h : g.Forward) :
    Gives pos (g.statementRule place) Stmt.ShowsBehind := by
  refine .behind fun _ => .behind fun next => ?_
  split
  · exact Gives.mono blockStatement_gives fun _ => .of_none
  · exact .behind fun _ => .behind fun _ => .pure (.of_none rfl)
  · exact decoratedStatement_gives h
  · exact wordStatement_gives h
  · exact Gives.mono expressionStatement_gives fun _ => .of_none

theorem statement_gives (depth : Nat) :
    Gives pos ((ofDepth depth).statement place) Stmt.ShowsBehind := by
  cases depth with
  | zero => exact .refuse _
  | succ depth => exact statementRule_gives (forward_ofDepth depth)

end Grammar

open Reading

def Program.ShowsBehind (p : Program) : Prop := ∀ s ∈ p.body, s.ShowsBehind

theorem programRule_gives {g : Grammar}
    (hStatement : Gives 0 (g.statement .list) Stmt.ShowsBehind) :
    Gives 0 (programRule g) Program.ShowsBehind :=
  .bind (.many hStatement) fun _ hBody => .behind fun _ => .behind fun _ => .behind fun _ =>
    .afterCheck (.pure hBody)

/-- What an export at the top of a program shows stands behind the word `export`. -/
theorem showsBehind_of_parse {d : Dialect} {text : List Char} {p : Program}
    {faults : List SyntaxFault} (h : parse d text = .ok (p, faults)) : p.ShowsBehind := by
  unfold parse at h
  split at h
  · next hRead =>
    cases h
    have hSound : (State.initial d text).Sound := State.sound_scanFrom _ _ _ (Nat.zero_le _)
    exact programRule_gives (Grammar.statement_gives _) _ hSound (Nat.zero_le _) _ _ hRead
  · cases h

end Standin.Script
