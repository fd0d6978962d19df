import Standin.Proofs.Script.Reading
import Standin.Script.Grammar.Statements

namespace Standin.Script

namespace Reading

variable {α β γ : Type}

/-- Wherever it is read from a position on, a reading gives what is told. -/
def Gives (pos : Nat) (r : Reading α) (told : α → Prop) : Prop :=
  ∀ s : State, s.Sound → pos ≤ s.token.start → Yields r s fun a _ => told a

namespace Gives

variable {pos n : Nat} {r : Reading α} {told : α → Prop} {f : α → Reading β} {next : β → Prop}

theorem mono {weaker : α → Prop} (h : Gives pos r told) (hWeaker : ∀ a, told a → weaker a) :
    Gives pos r weaker :=
  fun s hSound hPos => (h s hSound hPos).mono fun a _ => hWeaker a

theorem pure {a : α} (h : told a) : Gives pos (pure a) told := fun _ _ _ => .pure h

theorem throwAt (position : Nat) (reason : Reason) : Gives pos (throwAt position reason) told :=
  fun _ _ _ => .of_error rfl

theorem refuse (reason : Reason) : Gives pos (refuse reason) told := fun _ _ _ => .of_error rfl

theorem unexpected : Gives pos unexpected told := refuse _

/-- No reading goes back, so what is read next is read from the same position on. -/
theorem bind (h : Gives pos r told) (hLater : ∀ a, told a → Gives pos (f a) next) :
    Gives pos (r >>= f) next := by
  intro s hSound hPos
  have hFirst : Yields r s fun a t => told a ∧ s.LeadsTo t :=
    fun a t hRead => ⟨h s hSound hPos a t hRead, r.forward hRead⟩
  refine hFirst.bind ?_
  rintro a t ⟨hTold, hLeads⟩
  obtain ⟨hNext, hStart, -⟩ := hLeads hSound
  exact hLater a hTold t hNext (Nat.le_trans hPos hStart)

/-- Whatever is read first, what is read behind it counts. -/
theorem behind (hLater : ∀ a, Gives pos (f a) next) : Gives pos (r >>= f) next :=
  bind (fun _ _ _ _ _ _ => trivial) fun a (_ : True) => hLater a

theorem start : Gives pos start (pos ≤ ·) := fun _ _ hPos => .of_eq rfl hPos

theorem token : Gives pos token (pos ≤ ·.start) := fun _ _ hPos => .of_eq rfl hPos

theorem spanFrom : Gives pos (spanFrom n) (·.start = n) := fun _ _ _ => .of_eq rfl rfl

theorem span (hn : pos ≤ n) : Gives pos (Reading.spanFrom n) (pos ≤ ·.start) :=
  fun _ _ _ => .of_eq rfl hn

/-- A piece that began at `n`. -/
theorem piece {make : Span → α} {place : α → Span} (hn : pos ≤ n)
    (h : ∀ span, place (make span) = span) :
    Gives pos (do return make (← Reading.spanFrom n)) fun a => pos ≤ (place a).start :=
  bind (span hn) fun _ hSpan => pure (by rwa [h])

theorem found {a : α} (h : told a) :
    Gives pos (Pure.pure (some a)) fun found => ∀ a ∈ found, told a :=
  pure fun _ hMem => Option.mem_some.mp hMem ▸ h

theorem absent : Gives pos (Pure.pure none) fun found => ∀ a ∈ found, told a := pure nofun

-- An `if` inside a block is read with the rest of the block in both of its branches.
section Branches

variable {c : Prop} [Decidable c]

theorem ite {r' : Reading α} (h : Gives pos r told) (h' : Gives pos r' told) :
    Gives pos (if c then r else r') told := by
  split
  · exact h
  · exact h'

theorem afterNote {note : Reading Unit} {k : Unit → Reading β} (h : Gives pos (k ⟨⟩) next) :
    Gives pos (if c then note >>= k else k ⟨⟩) next :=
  ite (behind fun _ => h) h

theorem afterCheck {check : Reading Unit} {k : Unit → Reading β} (h : Gives pos (k ⟨⟩) next) :
    Gives pos (if c then k ⟨⟩ else check >>= k) next :=
  ite h (behind fun _ => h)

theorem afterEither {x y : Reading α} (h : ∀ a, Gives pos (f a) next) :
    Gives pos (if c then x >>= f else y >>= f) next :=
  ite (behind h) (behind h)

variable {x : Reading γ} {make : γ → α} {otherwise : α}

theorem afterChoice (h : ∀ a, Gives pos (f a) next) :
    Gives pos
      (if c then x >>= fun b => Pure.pure (make b) >>= f else Pure.pure otherwise >>= f) next :=
  ite (behind fun _ => behind h) (behind h)

theorem afterChoice' (h : ∀ a, Gives pos (f a) next) :
    Gives pos
      (if c then Pure.pure otherwise >>= f else x >>= fun b => Pure.pure (make b) >>= f) next :=
  ite (behind h) (behind fun _ => behind h)

end Branches

theorem variableName : Gives pos variableName (pos ≤ ·.span.start) := by
  refine .bind .token fun t ht => ?_
  split
  · exact .afterNote (.behind fun _ => .behind fun _ => .behind fun _ => .pure ht)
  · exact .refuse _

theorem stringLiteral : Gives pos stringLiteral (pos ≤ ·.span.start) := by
  refine .bind .token fun t ht => ?_
  split
  · exact .behind fun _ => .pure ht
  · exact .unexpected

section Rounds

variable {step : α → Reading (α ⊕ β)}
  (hStep : ∀ a, told a → Gives pos (step a) (Sum.elim told next)) {a : α} (h : told a)
include hStep h

theorem iterate (fuel : Nat) : Gives pos (Reading.iterate step fuel a) next := by
  induction fuel generalizing a with
  | zero => exact refuse _
  | succ fuel ih =>
    refine bind (hStep a h) fun found hFound => ?_
    cases found with
    | inl a' => exact ih hFound
    | inr b => exact pure hFound

theorem loop : Gives pos (Reading.loop a step) next := behind fun _ => iterate hStep h _

end Rounds

theorem many {isEnd : Reading Bool} (h : Gives pos r told) :
    Gives pos (Reading.many isEnd r) fun items => ∀ a ∈ items, told a := by
  refine loop (fun back (hBack : ∀ a ∈ back, told a) => behind fun _ => ite ?_ ?_) nofun
  · exact pure fun a hMem => hBack a (List.mem_reverse.mp hMem)
  · exact bind h fun a hTold => pure (List.forall_mem_cons.mpr ⟨hTold, hBack⟩)

theorem within (change : Scope → Scope) (h : Gives pos r told) :
    Gives pos (Reading.within change r) told :=
  behind fun _ => behind fun _ => bind h fun _ hTold => behind fun _ => pure hTold

theorem later {r : Unit → Reading α} (h : Gives pos (r ⟨⟩) told) :
    Gives pos (Reading.later r) told := h

theorem attempt (h : Gives pos r told) :
    Gives pos (Reading.attempt r) fun found => ∀ a ∈ found, told a := by
  intro s hSound hPos found t hRead
  rw [attempt_apply] at hRead
  split at hRead
  · next hFound =>
    cases hRead
    rintro _ ⟨⟩
    exact h s hSound hPos _ _ hFound
  · cases hRead
    intro a hMem
    cases hMem

end Gives

end Reading

namespace Grammar

open Reading

variable {g : Grammar} {pos n : Nat}

theorem functionRest_gives (hn : pos ≤ n) {name : Option Name}
    {isAsync isGenerator inConstructor : Bool} :
    Gives pos (g.functionRest n name isAsync isGenerator inConstructor)
      (pos ≤ ·.span.start) := by
  refine .within _ (.behind fun _ => .behind fun _ => .behind fun _ => .behind fun _ => .ite ?_ ?_)
  · exact .behind fun _ => .piece hn fun _ => rfl
  · exact .behind fun _ => .afterCheck (.behind fun _ => .piece hn fun _ => rfl)

theorem functionExpression_gives (hn : pos ≤ n) {isAsync : Bool} :
    Gives pos (g.functionExpression n isAsync) (pos ≤ ·.span.start) :=
  .afterNote (.behind fun _ => .behind fun _ => .behind fun _ =>
    .bind (functionRest_gives hn) fun _ h => .pure h)

theorem simpleArrow_gives (hn : pos ≤ n) {name : Name} {isAsync returnTypes : Bool} :
    Gives pos (g.simpleArrow n name isAsync returnTypes) (pos ≤ ·.span.start) :=
  .behind fun _ => .afterNote (.behind fun _ => .behind fun _ => .piece hn fun _ => rfl)

theorem arrowFrom_gives (hn : pos ≤ n) {head : ArrowHead} {returnTypes : Bool} :
    Gives pos (g.arrowFrom n head returnTypes) (pos ≤ ·.span.start) :=
  .behind fun _ => .behind fun _ => .piece hn fun _ => rfl

theorem possibleArrow_gives {returnTypes : Bool} :
    Gives pos (g.possibleArrow returnTypes) fun found => ∀ e ∈ found, pos ≤ e.span.start := by
  refine .bind .start fun n hn => .behind fun _ => .ite .absent ?_
  refine .bind (.attempt ?_) fun found hFound => .afterNote (.pure hFound)
  refine .behind fun head => .behind fun _ => .afterCheck ?_
  exact .bind (arrowFrom_gives hn) fun e he =>
    .ite (.behind fun _ => .afterCheck (.pure he)) (.pure he)

theorem parenthesizedArrow_gives {returnTypes : Bool} :
    Gives pos (g.parenthesizedArrow returnTypes) fun found =>
      ∀ e ∈ found, pos ≤ e.span.start := by
  refine .behind fun likely => ?_
  split
  · exact .absent
  · exact .bind .start fun n hn => .behind fun _ => .bind (arrowFrom_gives hn) fun e he =>
      .found he
  · exact possibleArrow_gives

theorem asyncSimpleArrow_gives {returnTypes : Bool} :
    Gives pos (g.asyncSimpleArrow returnTypes) fun found =>
      ∀ e ∈ found, pos ≤ e.span.start := by
  refine .behind fun _ => .ite (.behind fun _ => .ite ?_ .absent) .absent
  exact .bind .start fun n hn => .behind fun _ => .behind fun _ =>
    .bind (simpleArrow_gives hn) fun e he => .found he

theorem classRest_gives (hn : pos ≤ n) {decorators : List Expr} :
    Gives pos (g.classRest n decorators) (pos ≤ ·.span.start) :=
  .behind fun _ => .behind fun _ => .behind fun _ => .afterChoice fun _ => .behind fun _ =>
    .behind fun _ => .behind fun _ => .piece hn fun _ => rfl

theorem decoratedClass_gives : Gives pos g.decoratedClass (pos ≤ ·.span.start) :=
  .bind .start fun _ hn => .behind fun _ => .bind (classRest_gives hn) fun _ h => .pure h

theorem arrayLiteral_gives : Gives pos g.arrayLiteral (pos ≤ ·.span.start) :=
  .bind .start fun _ hn => .behind fun _ => .behind fun _ => .behind fun _ =>
    .piece hn fun _ => rfl

theorem objectLiteral_gives : Gives pos g.objectLiteral (pos ≤ ·.span.start) :=
  .bind .start fun _ hn => .behind fun _ => .behind fun _ => .behind fun _ =>
    .piece hn fun _ => rfl

theorem templateLiteral_gives : Gives pos g.templateLiteral (pos ≤ ·.span.start) :=
  .bind .start fun _ hn => .behind fun _ => .piece hn fun _ => rfl

theorem parenthesized_gives : Gives pos g.parenthesized (pos ≤ ·.span.start) :=
  .bind .start fun _ hn => .behind fun _ => .behind fun _ => .behind fun _ =>
    .piece hn fun _ => rfl

theorem literal_gives (hn : pos ≤ n) : Gives pos (literal n) (pos ≤ ·.span.start) :=
  .behind fun _ => .piece hn fun _ => rfl

theorem importCall_gives (hn : pos ≤ n) : Gives pos (g.importCall n) (pos ≤ ·.span.start) :=
  .behind fun _ => .behind fun _ => .afterNote (.behind fun _ => .behind fun _ => .behind fun _ =>
    .afterChoice fun _ => .behind fun _ => .behind fun _ => .afterCheck (.piece hn fun _ => rfl))

theorem importExpression_gives : Gives pos g.importExpression (pos ≤ ·.span.start) := by
  refine .bind .start fun n hn => .behind fun _ => .behind fun _ => .ite ?_ (importCall_gives hn)
  refine .behind fun word => ?_
  split
  · exact .behind fun _ => .piece hn fun _ => rfl
  all_goals exact .behind fun _ => importCall_gives hn

theorem wordExpression_gives {w : String} :
    Gives pos (g.wordExpression w) (pos ≤ ·.span.start) := by
  refine .bind .start fun n hn => ?_
  split
  · exact functionExpression_gives hn
  · exact .bind (classRest_gives hn) fun _ h => .pure h
  · exact importExpression_gives
  case h_8 =>
    refine .behind fun _ => .behind fun next => ?_
    split
    case h_4 => exact .behind fun _ => .piece hn fun _ => rfl
    all_goals exact .piece hn fun _ => rfl
  case h_9 =>
    refine .behind fun _ => .ite (functionExpression_gives hn) ?_
    exact .bind .variableName fun _ h => .pure h
  all_goals exact .behind fun _ => .piece hn fun _ => rfl

/-- The rules for expressions give what starts no further back than they read from. -/
structure Forward (g : Grammar) : Prop where
  assignment : ∀ {pos returnTypes}, Gives pos (g.assignment returnTypes) (pos ≤ ·.span.start)
  binary : ∀ {pos level}, Gives pos (g.binary level) (pos ≤ ·.span.start)
  unary : ∀ {pos}, Gives pos g.unary (pos ≤ ·.span.start)
  access : ∀ {pos}, Gives pos g.access (pos ≤ ·.span.start)
  primary : ∀ {pos}, Gives pos g.primary (pos ≤ ·.span.start)
  markup : ∀ {pos isChild}, Gives pos (g.markup isChild) (pos ≤ ·.span.start)

theorem property?_gives (hn : pos ≤ n) {object : Expr} :
    Gives pos (property? n object) (pos ≤ ·.span.start) := by
  refine .behind fun t => ?_
  split
  · exact .behind fun _ => .piece hn fun _ => rfl
  · exact .behind fun _ => .piece hn fun _ => rfl
  · exact .unexpected

theorem taggedTemplate_gives (hn : pos ≤ n) {tag : Expr} :
    Gives pos (g.taggedTemplate n tag) (pos ≤ ·.span.start) := by
  unfold taggedTemplate
  split
  all_goals exact .behind fun _ => .piece hn fun _ => rfl

theorem accessStep_gives (hn : pos ≤ n) {a : Access} :
    Gives pos (g.accessStep n a) fun found => ∀ b ∈ found, pos ≤ b.expr.span.start := by
  refine .behind fun t => ?_
  split
  · exact .behind fun _ => .bind (property?_gives hn) fun e he => .found he
  · refine .behind fun _ => .ite (.behind fun _ => .behind fun _ => .ite ?_ ?_) .absent
    · exact .behind fun _ => .behind fun _ => .behind fun _ => .bind (.span hn) fun _ h => .found h
    · exact .bind (property?_gives hn) fun e he => .found he
  · exact .behind fun _ => .ite .absent (.behind fun _ => .behind fun _ => .behind fun _ =>
      .bind (.span hn) fun _ h => .found h)
  · exact .afterNote (.bind (taggedTemplate_gives hn) fun e he => .found he)
  · exact .behind fun _ => .ite .absent (.behind fun _ => .bind (.span hn) fun _ h => .found h)
  case h_6 | h_7 =>
    refine .behind fun _ => .ite (.behind fun found => ?_) .absent
    cases found with
    | some types =>
      exact .behind fun _ => .behind fun _ => .ite
        (.behind fun _ => .afterCheck (.bind (.span hn) fun _ h => .found h))
        (.bind (.span hn) fun _ h => .found h)
    | none => exact .absent
  · exact .absent

theorem accesses_gives (hn : pos ≤ n) {a : Access} (ha : pos ≤ a.expr.span.start) :
    Gives pos (g.accesses n a) fun b => pos ≤ b.expr.span.start := by
  refine .loop (fun b (hb : pos ≤ b.expr.span.start) => ?_) ha
  refine .bind (accessStep_gives hn) fun found hFound => ?_
  cases found with
  | some next => exact .pure (hFound next rfl)
  | none => exact .pure hb

theorem callOf_span (span : Span) (callee : Expr) (types : List TypeTree) (all : List Element) :
    (callOf span callee types all).span = span := by
  unfold callOf
  split <;> rfl

theorem callStep_gives (hn : pos ≤ n) {a : Access} :
    Gives pos (g.callStep n a) fun found => ∀ b ∈ found, pos ≤ b.expr.span.start := by
  have hCall {types : List TypeTree} {isOptional : Bool} {all : Reading (List Element)} :
      Gives pos (do
        let all ← all
        return some (Access.mk (callOf (← spanFrom n) a.expr types all) isOptional))
        fun found => ∀ b ∈ found, pos ≤ b.expr.span.start :=
    .behind fun _ => .bind (.span hn) fun _ h => .found (by rwa [callOf_span])
  refine .behind fun _ => .ite hCall (.behind fun _ => .ite ?_ .absent)
  refine .behind fun _ => .behind fun _ => .behind fun _ => .afterEither fun types =>
    .behind fun next => ?_
  split
  · exact hCall
  · exact .behind fun _ => .bind (taggedTemplate_gives hn) fun _ he => .found he
  · exact .unexpected

theorem calls_gives (hn : pos ≤ n) {a : Access} (ha : pos ≤ a.expr.span.start) :
    Gives pos (g.calls n a) fun b => pos ≤ b.expr.span.start := by
  refine .loop (fun b (hb : pos ≤ b.expr.span.start) => ?_) ha
  refine .bind (accesses_gives hn hb) fun c hc => .bind (callStep_gives hn) fun found hFound => ?_
  cases found with
  | some next => exact .pure (hFound next rfl)
  | none => exact .pure hc

theorem chained_gives (hn : pos ≤ n) {a : Access} (ha : pos ≤ a.expr.span.start) :
    Gives pos (chained n a) (pos ≤ ·.span.start) := by
  refine .ite (.bind (.span hn) fun span hSpan => ?_) (.pure ha)
  split
  case h_1 hExpr => exact .pure (by rwa [hExpr] at ha)
  case h_7 => exact .pure ha
  all_goals exact .pure hSpan

theorem accessRule_gives (h : g.Forward) : Gives pos g.accessRule (pos ≤ ·.span.start) :=
  .bind .start fun _ hn => .bind h.primary fun _ he => .bind (calls_gives hn he) fun _ =>
    chained_gives hn

theorem newExpression_gives : Gives pos g.newExpression (pos ≤ ·.span.start) := by
  refine .bind .start fun n hn => .behind fun _ => .behind fun _ => .ite ?_ ?_
  · exact .behind fun _ => .piece hn fun _ => rfl
  · refine .behind fun calleeFrom => .behind fun _ => .behind fun a => .behind fun _ =>
      .afterNote ?_
    dsimp only
    split
    · exact .behind fun _ => .behind fun _ => .afterEither fun _ => .piece hn fun _ => rfl
    · exact .behind fun _ => .afterEither fun _ => .piece hn fun _ => rfl

theorem primaryRule_gives (h : g.Forward) : Gives pos g.primaryRule (pos ≤ ·.span.start) := by
  refine .bind .token fun t ht => ?_
  split
  · exact newExpression_gives
  · exact wordExpression_gives
  · exact .bind .stringLiteral fun _ h => .pure h
  · exact literal_gives ht
  · refine .behind fun _ => .behind fun _ => ?_
    split
    · exact literal_gives ht
    · exact .unexpected
  · refine .behind fun _ => .behind fun _ => ?_
    split
    · exact literal_gives ht
    · exact .unexpected
  · exact templateLiteral_gives
  · exact parenthesized_gives
  · exact arrayLiteral_gives
  · exact objectLiteral_gives
  · exact decoratedClass_gives
  · exact .behind fun _ => .ite h.markup .unexpected
  · exact .unexpected

theorem awaitExpression_gives : Gives pos g.awaitExpression (pos ≤ ·.span.start) :=
  .bind .start fun _ hn => .behind fun _ => .afterCheck (.behind fun _ => .behind fun _ =>
    .piece hn fun _ => rfl)

theorem typeAssertion_gives : Gives pos g.typeAssertion (pos ≤ ·.span.start) :=
  .bind .start fun _ hn => .behind fun _ => .behind fun _ => .behind fun _ => .behind fun _ =>
    .piece hn fun _ => rfl

theorem postfixExpression_gives (h : g.Forward) :
    Gives pos g.postfixExpression (pos ≤ ·.span.start) := by
  refine .bind .start fun n hn => .bind h.access fun e he => .behind fun _ => ?_
  split
  · exact .behind fun _ =>
      .ite (.behind fun _ => .behind fun _ => .piece hn fun _ => rfl) (.pure he)
  · exact .pure he

theorem unaryRule_gives (h : g.Forward) : Gives pos g.unaryRule (pos ≤ ·.span.start) := by
  refine .bind .start fun n hn => .behind fun _ => ?_
  have hPostfix : Gives pos g.postfixExpression (pos ≤ ·.span.start) := postfixExpression_gives h
  split
  · refine .ite ?_ (.ite ?_ ?_)
    · exact .behind fun _ => .behind fun _ => .piece hn fun _ => rfl
    · exact .behind fun _ => .behind fun _ => .behind fun _ => .piece hn fun _ => rfl
    · exact .behind fun _ => .behind fun _ => .ite typeAssertion_gives hPostfix
  · refine .ite ?_ ?_
    · exact .behind fun _ => .behind fun _ => .piece hn fun _ => rfl
    · exact .behind fun _ => .ite awaitExpression_gives hPostfix
  · exact hPostfix

theorem privateIn_gives {level : Nat} : Gives pos (g.privateIn level) (pos ≤ ·.span.start) := by
  refine .bind .token fun t ht => ?_
  split
  · refine .behind fun _ => .behind fun _ => .behind fun _ => .afterCheck ?_
    refine .behind fun _ => .behind fun _ => ?_
    split
    · exact .behind fun _ => .piece ht fun _ => rfl
    · exact .piece ht fun _ => rfl
  · exact .unexpected

theorem binaryStep_gives (hn : pos ≤ n) {level : Nat} {left : Expr}
    (hLeft : pos ≤ left.span.start) :
    Gives pos (g.binaryStep n level left)
      (Sum.elim (pos ≤ ·.span.start) (pos ≤ ·.span.start)) := by
  refine .behind fun found => ?_
  cases found with
  | none => exact .pure hLeft
  | some found =>
    refine .ite (.pure hLeft) (.behind fun _ => .ite ?_ ?_)
    · exact .behind fun _ => .bind (.span hn) fun _ h => .pure h
    · exact .behind fun _ => .behind fun _ => .bind (.span hn) fun _ h => .pure h

theorem binaryRule_gives (h : g.Forward) {level : Nat} :
    Gives pos (g.binaryRule level) (pos ≤ ·.span.start) := by
  refine .bind .start fun n hn => .behind fun first => ?_
  have hLoop {e : Expr} (he : pos ≤ e.span.start) :
      Gives pos (loop e (g.binaryStep n level)) (pos ≤ ·.span.start) :=
    .loop (fun _ => binaryStep_gives hn) he
  split
  · exact .bind privateIn_gives fun _ => hLoop
  · exact .bind h.unary fun _ => hLoop

theorem yieldExpression_gives : Gives pos g.yieldExpression (pos ≤ ·.span.start) :=
  .bind .start fun _ hn => .behind fun _ => .afterCheck (.behind fun _ => .behind fun _ =>
    .ite (.piece hn fun _ => rfl) (.behind fun _ => .behind fun _ =>
      .ite (.piece hn fun _ => rfl) (.behind fun _ => .piece hn fun _ => rfl)))

theorem conditionalRest_gives (hn : pos ≤ n) {test : Expr} (hTest : pos ≤ test.span.start)
    {returnTypes : Bool} :
    Gives pos (g.conditionalRest n test returnTypes) (pos ≤ ·.span.start) :=
  .behind fun _ => .ite (.behind fun _ => .behind fun _ => .behind fun _ =>
    .piece hn fun _ => rfl) (.pure hTest)

theorem assignmentRest_gives (hn : pos ≤ n) {target : Expr} {p : Punct} {returnTypes : Bool} :
    Gives pos (g.assignmentRest n target p returnTypes) (pos ≤ ·.span.start) :=
  .ite (.behind fun _ => .behind fun _ => .behind fun _ => .piece hn fun _ => rfl)
    (.behind fun _ => .behind fun _ => .behind fun _ => .piece hn fun _ => rfl)

theorem assignmentRule_gives (h : g.Forward) {returnTypes : Bool} :
    Gives pos (g.assignmentRule returnTypes) (pos ≤ ·.span.start) := by
  refine .behind fun _ => .ite yieldExpression_gives ?_
  refine .bind asyncSimpleArrow_gives fun found hFound => ?_
  split
  · exact .pure (hFound _ rfl)
  refine .bind parenthesizedArrow_gives fun found hFound => ?_
  split
  · exact .pure (hFound _ rfl)
  refine .bind .start fun n hn => .bind h.binary fun left hLeft => .behind fun _ => ?_
  split
  · exact simpleArrow_gives hn
  · exact .ite (assignmentRest_gives hn) (conditionalRest_gives hn hLeft)
  · exact .pure hLeft

theorem markupRule_gives {isChild : Bool} :
    Gives pos (g.markupRule isChild) (pos ≤ ·.span.start) := by
  refine .bind .start fun n hn => .behind fun _ => .behind fun _ => .ite ?_ ?_
  · exact .behind fun _ => .behind fun _ => .behind fun _ => .piece hn fun _ => rfl
  · refine .behind fun name => .behind fun _ => .behind fun _ => .afterEither fun types =>
      .behind fun attributes => .behind fun _ => .ite ?_ ?_
    · exact .behind fun _ => .afterCheck (.behind fun _ => .piece hn fun _ => rfl)
    · exact .behind fun _ => .afterCheck (.behind fun _ => .behind fun _ => .behind fun _ =>
        .piece hn fun _ => rfl)

theorem forward_ofDepth (depth : Nat) : (ofDepth depth).Forward := by
  induction depth with
  | zero => exact ⟨.refuse _, .refuse _, .refuse _, .refuse _, .refuse _, .refuse _⟩
  | succ depth ih =>
    -- no hypothesis tells of which depth the rule for markup is
    have hMarkup {pos : Nat} {isChild : Bool} :
        Gives pos (later fun _ => (ofDepth depth).markupRule isChild) (pos ≤ ·.span.start) :=
      .later markupRule_gives
    exact {
      assignment := assignmentRule_gives ih
      binary := binaryRule_gives ih
      unary := unaryRule_gives ih
      access := accessRule_gives ih
      primary := primaryRule_gives ih
      markup := hMarkup }

theorem enumDeclaration_gives (hn : pos ≤ n) {declared : Bool} :
    Gives pos (g.enumDeclaration n declared) (pos ≤ ·.span.start) :=
  .behind fun _ => .behind fun _ => .behind fun _ => .behind fun _ => .behind fun _ =>
    .behind fun _ => .piece hn fun _ => rfl

theorem variableDeclaration_gives (hn : pos ≤ n) {declared : Bool} {place : DeclaratorPlace} :
    Gives pos (g.variableDeclaration n declared place) (pos ≤ ·.span.start) :=
  .behind fun _ => .behind fun _ => .piece hn fun _ => rfl

theorem functionDeclaration_gives (hn : pos ≤ n) {isAsync needsName : Bool} :
    Gives pos (g.functionDeclaration n isAsync needsName) (pos ≤ ·.span.start) :=
  .afterNote (.behind fun _ => .behind fun _ => .behind fun _ => functionRest_gives hn)

theorem interfaceDeclaration_gives (hn : pos ≤ n) :
    Gives pos (g.interfaceDeclaration n) (pos ≤ ·.span.start) :=
  .behind fun _ => .behind fun _ => .piece hn fun _ => rfl

theorem typeAlias_gives (hn : pos ≤ n) : Gives pos (g.typeAlias n) (pos ≤ ·.span.start) :=
  .behind fun _ => .behind fun _ => .behind fun _ => .behind fun _ => .behind fun _ =>
    .behind fun _ => .piece hn fun _ => rfl

theorem moduleText_gives (hn : pos ≤ n) {declared : Bool} {name : StringLiteral} :
    Gives pos (g.moduleText n declared name) (pos ≤ ·.span.start) :=
  .behind fun _ => .ite (.behind fun _ => .piece hn fun _ => rfl)
    (.behind fun _ => .behind fun _ => .piece hn fun _ => rfl)

theorem namespaceDeclaration_gives (hn : pos ≤ n) {declared : Bool} :
    Gives pos (g.namespaceDeclaration n declared) (pos ≤ ·.span.start) := by
  refine .behind fun first => .ite (.behind fun _ => .piece hn fun _ => rfl)
    (.ite (.behind fun _ => ?_) ?_)
  · split
    · exact .behind fun _ => moduleText_gives hn
    · exact .behind fun _ => .behind fun _ => .behind fun _ => .piece hn fun _ => rfl
  · exact .behind fun _ => .behind fun _ => .behind fun _ => .piece hn fun _ => rfl

theorem aliasRest_gives (hn : pos ≤ n) {typeOnly : Bool} {name : Name} :
    Gives pos (aliasRest n typeOnly name) (pos ≤ ·.span.start) := by
  refine .behind fun _ => .behind fun _ => .behind fun _ => .ite ?_ ?_
  · exact .behind fun _ => .behind fun _ => .behind fun _ => .behind fun _ => .behind fun _ =>
      .behind fun _ => .piece hn fun _ => rfl
  · exact .behind fun _ => .behind fun _ => .behind fun _ => .piece hn fun _ => rfl

variable {mods : List String} {decorators : List Expr}

theorem declarationOfWord_gives (hn : pos ≤ n) :
    Gives pos (g.declarationOfWord n mods decorators) (pos ≤ ·.span.start) := by
  refine .behind fun word => ?_
  split
  · exact .behind fun _ => .bind (classRest_gives hn) fun _ h => .pure h
  · exact .behind fun _ => .behind fun _ => .behind fun _ =>
      .ite (enumDeclaration_gives hn) (variableDeclaration_gives hn)
  · refine .behind fun _ => .behind fun _ => .ite ?_ (.behind fun _ => .ite ?_ ?_)
    · exact .bind (functionDeclaration_gives hn) fun _ h => .behind fun _ => .pure h
    · exact variableDeclaration_gives hn
    · refine .behind fun _ => .afterCheck ?_
      dsimp only
      split
      · exact interfaceDeclaration_gives hn
      · exact typeAlias_gives hn
      · exact enumDeclaration_gives hn
      · exact namespaceDeclaration_gives hn
      · exact namespaceDeclaration_gives hn
      · exact namespaceDeclaration_gives hn
      · exact .behind fun _ => .behind fun _ => aliasRest_gives hn
      · exact .unexpected
  · exact .unexpected

theorem declaration_gives (hn : pos ≤ n) :
    Gives pos (g.declaration n decorators) (pos ≤ ·.span.start) := by
  have hWord {change : Scope → Scope} {mods : List String} :
      Gives pos (within change (g.declarationOfWord n mods decorators)) (pos ≤ ·.span.start) :=
    .within change (declarationOfWord_gives hn)
  refine .behind fun mods => .behind fun _ => .afterCheck (.behind fun _ => .ite ?_ hWord)
  split
  · exact .behind fun _ => hWord
  · exact hWord

end Grammar

end Standin.Script
