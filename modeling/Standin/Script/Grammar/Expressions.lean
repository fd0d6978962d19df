import Standin.Script.Grammar.Basic
import Standin.Script.Grammar.Markup

namespace Standin.Script.Grammar

open Reading

variable (g : Grammar)

/-- Commas between the items of a parenthesis are operators, and none may come last. -/
def parenthesized : Reading Expr := do
  let pos ← start
  expect .parenL
  let inner ← within (fun sc => { sc with inOperator := true, decorating := false }) g.expression
  expect .parenR
  return .paren (← spanFrom pos) inner

def decoratedClass : Reading Expr := do
  let pos ← start
  let decorators ← g.decorators
  return .classExpr (← g.classRest pos decorators)

/-- What is imported and the options, behind `import` and its phase. -/
def importCall (pos : Nat) : Reading Expr := do
  expect .parenL
  if ← isPunct .parenR then refuse .importArguments
  let source ← g.oneWithIn
  let options ←
    if (← eat .comma) && !(← isPunct .parenR) then pure [← g.oneWithIn] else pure []
  let _ ← eat .comma
  unless ← eat .parenR do refuse .importArguments
  return .importCall (← spanFrom pos) source options

/-- `import(…)`, `import.meta`, and `import` with a phase. -/
def importExpression : Reading Expr := do
  let pos ← start
  expectWord "import"
  if ← eat .dot then
    match ← word? with
    | some "meta" =>
      advanceKeyword
      return .metaProperty (← spanFrom pos)
    | some "source" | some "defer" => advance
    | _ => unexpected
  g.importCall pos

def literal (pos : Nat) : Reading Expr := do
  advance
  return .literal (← spanFrom pos)

def isAsyncFunction : Reading Bool := do
  return (← isWord "async") && (← nextIs fun t => t.kind == .word "function" && !t.onNewLine)

/-- A word that begins an expression: a keyword with a meaning, else a name. -/
def wordExpression (w : String) : Reading Expr := do
  let pos ← start
  match w with
  | "function" => g.functionExpression pos false
  | "class" => return .classExpr (← g.classRest pos [])
  | "import" => g.importExpression
  | "this" => advanceKeyword; return .thisExpr (← spanFrom pos)
  | "null" => advanceKeyword; return .literal (← spanFrom pos)
  | "true" => advanceKeyword; return .boolean (← spanFrom pos) true
  | "false" => advanceKeyword; return .boolean (← spanFrom pos) false
  | "super" =>
    advanceKeyword
    match ← kind with
    | .punct .dot | .punct .parenL | .punct .bracketL => pure ()
    | _ => note pos .misplacedSuper
    return .superExpr (← spanFrom pos)
  | _ =>
    if ← isAsyncFunction then g.functionExpression pos true
    else return .ident (← variableName)

/-- What may follow a list of types for it to be one inside an expression. -/
def canFollowTypes : Reading Bool := do
  let t ← token
  match t.kind with
  | .punct .parenL | .template .. => return true
  | .punct .less | .punct .greater | .punct .plus | .punct .minus => return false
  | .punct p =>
    return t.onNewLine ||
      !([.braceL, .bracketL, .bang, .tilde, .increment, .decrement, .at].contains p)
  | .word w =>
    return t.onNewLine || ["as", "satisfies", "in", "instanceof"].contains w ||
      (isReserved w && !(["this", "super", "null", "true", "false", "function", "class", "new",
        "import", "delete", "typeof", "void"].contains w))
  | .eof => return true
  | _ => return t.onNewLine

/-- Type arguments inside an expression: only where what follows cannot be an operand. -/
def typesInExpression : Reading (List TypeTree) := do
  splitLess
  expect .less
  let types ← separated .greater g.typeTree
  if types.isEmpty then noteHere .typeForm
  if ← lookahead (do joinGreater; isPunct .greaterEqual) false then unexpected
  expect .greater
  unless ← canFollowTypes do unexpected
  return types

def opensTypes : Reading Bool := do
  match ← kind with
  | .punct .less | .punct .shiftLeft => return true
  | _ => return false

def property? (pos : Nat) (object : Expr) : Reading Expr := do
  let t ← token
  match t.kind with
  | .privateName n =>
    advance
    return .privateMember (← spanFrom pos) object ⟨⟨t.start, t.stop⟩, n⟩
  | .word _ =>
    let name ← anyName
    return .member (← spanFrom pos) object name
  | _ => unexpected

def taggedTemplate (pos : Nat) (tag : Expr) : Reading Expr := do
  let (tag, types) := match tag with
    | .instantiated _ e types => (e, types)
    | e => (e, [])
  let (_, es) ← g.templateParts true
  return .tagged (← spanFrom pos) tag types es

/-- An expression so far, and whether it holds an optional access. -/
structure Access where
  expr : Expr
  isOptional : Bool

/-- One more access behind an expression, if one follows. -/
def accessStep (pos : Nat) (a : Access) : Reading (Option Access) := do
  let t ← token
  match t.kind with
  | .punct .dot =>
    advance
    return some { a with expr := ← property? pos a.expr }
  | .punct .optionalDot =>
    let begins ← nextIs fun t => match t.kind with
      | .word _ | .privateName _ | .punct .bracketL => true
      | _ => false
    unless begins do return none
    advance
    if ← isPunct .bracketL then
      advance
      let key ← g.expressionWithIn
      expect .bracketR
      return some ⟨.index (← spanFrom pos) a.expr key, true⟩
    return some ⟨← property? pos a.expr, true⟩
  | .punct .bracketL =>
    if (← scope).decorating then return none
    advance
    let key ← g.expressionWithIn
    expect .bracketR
    return some { a with expr := .index (← spanFrom pos) a.expr key }
  | .template .. =>
    if a.isOptional then noteHere .optionalTemplate
    return some { a with expr := ← g.taggedTemplate pos a.expr }
  | .punct .bang =>
    if t.onNewLine || !(← typed) then return none
    advance
    return some { a with expr := .nonNull (← spanFrom pos) a.expr }
  | .punct .less | .punct .shiftLeft =>
    unless ← typed do return none
    let some types ← attempt g.typesInExpression | return none
    if (← isPunct .dot) || (← isPunct .optionalDot) then
      unless ← nextIs (·.kind == .punct .parenL) do noteHere .typeForm
    return some { a with expr := .instantiated (← spanFrom pos) a.expr types }
  | _ => return none

def accesses (pos : Nat) (first : Access) : Reading Access :=
  loop first fun a => do
    match ← g.accessStep pos a with
    | some next => return .inl next
    | none => return .inr a

def callOf (span : Span) (callee : Expr) (types : List TypeTree) (all : List Element) : Expr :=
  match callee, types with
  | .instantiated _ e types, [] => .call span e types all
  | e, types => .call span e types all

def callStep (pos : Nat) (a : Access) : Reading (Option Access) := do
  if ← isPunct .parenL then
    let all ← g.arguments
    return some { a with expr := callOf (← spanFrom pos) a.expr [] all }
  unless ← isPunct .optionalDot do return none
  advance
  let types ← if (← typed) && (← opensTypes) then g.typesInExpression else pure []
  match ← kind with
  | .punct .parenL =>
    let all ← g.arguments
    return some ⟨callOf (← spanFrom pos) a.expr types all, true⟩
  | .template .. =>
    noteHere .optionalTemplate
    return some ⟨← g.taggedTemplate pos a.expr, true⟩
  | _ => unexpected

def calls (pos : Nat) (first : Access) : Reading Access :=
  loop first fun a => do
    let a ← g.accesses pos a
    match ← g.callStep pos a with
    | some next => return .inl next
    | none => return .inr a

/-- Marks an expression that holds an optional access. -/
def chained (pos : Nat) (a : Access) : Reading Expr := do
  unless a.isOptional do return a.expr
  let span ← spanFrom pos
  match a.expr with
  | .instantiated whole e types => return .instantiated whole (.chain span e) types
  | .call .. | .member .. | .privateMember .. | .index .. | .nonNull .. =>
    return .chain span a.expr
  | e => return e

def accessRule : Reading Expr := do
  let pos ← start
  chained pos (← g.calls pos ⟨← g.primary, false⟩)

/-- `new e(…)`, where the parentheses may be left out, and `new.target`. -/
def newExpression : Reading Expr := do
  let pos ← start
  expectWord "new"
  if ← eat .dot then
    expectWord "target"
    return .metaProperty (← spanFrom pos)
  let calleeFrom ← start
  let a ← g.accesses calleeFrom ⟨← g.primary, false⟩
  if a.isOptional || (← isPunct .optionalDot) then noteHere .optionalNew
  match a.expr with
  | .importCall .. => note calleeFrom .importArguments
  | _ => pure ()
  let (callee, types) := match a.expr with
    | .instantiated _ e types => (e, types)
    | e => (e, [])
  let all ← if ← isPunct .parenL then g.arguments else pure []
  return .newExpr (← spanFrom pos) callee types all

def primaryRule : Reading Expr := do
  let t ← token
  match t.kind with
  | .word "new" => g.newExpression
  | .word w => g.wordExpression w
  | .string .. => return .string (← stringLiteral)
  | .number => literal t.start
  | .punct .slash | .punct .slashAssign =>
    asRegex
    match ← kind with
    | .regex => literal t.start
    | _ => unexpected
  | .template .. => g.templateLiteral
  | .punct .parenL => g.parenthesized
  | .punct .bracketL => g.arrayLiteral
  | .punct .braceL => g.objectLiteral
  | .punct .at => g.decoratedClass
  | .punct .less => if (← dialect).markup then g.markup false else unexpected
  | _ => unexpected

/-- Whether the token behind a word makes it an operator of one operand, where the surroundings do
not. -/
def beginsOperand (t : Token) : Bool :=
  !t.onNewLine && match t.kind with
    | .word _ | .number | .string .. | .privateName _ => true
    | _ => false

def isAwait : Reading Bool := do
  return (← isWord "await") && ((← scope).awaits || (← nextIs beginsOperand))

def awaitExpression : Reading Expr := do
  let pos ← start
  unless (← scope).awaits do noteHere .awaitOutsideAsync
  advanceKeyword
  let e ← within (fun sc => { sc with awaits := true }) g.unary
  return .awaitExpr (← spanFrom pos) e

def unaryWords : List String := ["delete", "void", "typeof"]

def unaryPuncts : List Punct := [.plus, .minus, .tilde, .bang]

/-- `<T>e`. -/
def typeAssertion : Reading Expr := do
  let pos ← start
  expect .less
  let type ← g.typeTree
  expect .greater
  let e ← g.unary
  return .asserted (← spanFrom pos) type e

/-- `e++` on one line, or `e` alone. -/
def postfixExpression : Reading Expr := do
  let pos ← start
  let e ← g.access
  match ← kind with
  | .punct p =>
    if (p = .increment ∨ p = .decrement) ∧ !(← onNewLine) then
      asPlace e
      advance
      return .update (← spanFrom pos) p.text e
    return e
  | _ => return e

def unaryRule : Reading Expr := do
  let pos ← start
  match ← kind with
  | .punct p =>
    if unaryPuncts.contains p then
      advance
      let e ← g.unary
      return .unary (← spanFrom pos) p.text e
    if p = .increment ∨ p = .decrement then
      advance
      let e ← g.unary
      asPlace e
      return .update (← spanFrom pos) p.text e
    if p = .less ∧ (← typed) ∧ !(← dialect).markup then return ← g.typeAssertion
    g.postfixExpression
  | .word w =>
    if unaryWords.contains w then
      advanceKeyword
      let e ← g.unary
      return .unary (← spanFrom pos) w e
    if ← isAwait then return ← g.awaitExpression
    g.postfixExpression
  | _ => g.postfixExpression

/-- How strongly an operator of two operands binds. -/
def levelOf : Punct → Option Nat
  | .nullish => some 1
  | .orOr => some 2
  | .andAnd => some 3
  | .bar => some 4
  | .caret => some 5
  | .amp => some 6
  | .equal | .notEqual | .strictEqual | .strictNotEqual => some 7
  | .less | .lessEqual | .greater | .greaterEqual => some 8
  | .shiftLeft | .shiftRight | .shiftZero => some 9
  | .plus | .minus => some 10
  | .star | .slash | .percent => some 11
  | .power => some 12
  | _ => none

def relationLevel : Nat := 8

def powerLevel : Nat := 12

/-- The operator at the current token and its level. -/
def operator? : Reading (Option (String × Nat)) := do
  joinGreater
  match ← kind with
  | .punct p => return (levelOf p).map (p.text, ·)
  | .word "instanceof" => return some ("instanceof", relationLevel)
  | .word "in" => return if (← scope).inOperator then some ("in", relationLevel) else none
  | .word w =>
    if (w = "as" ∨ w = "satisfies") ∧ (← typed) ∧ !(← onNewLine) then
      return some (w, relationLevel)
    return none
  | _ => return none

def isNullish : Expr → Bool
  | .binary _ op .. => op == "??"
  | _ => false

def isAndOr : Expr → Bool
  | .binary _ op .. => op == "&&" || op == "||"
  | _ => false

/-- Notes operands that need parentheses. -/
def checkOperands (op : String) (left right : Expr) : Reading Unit := do
  if op = "??" ∧ (isAndOr left ∨ isAndOr right) then note left.span.start .mixedNullish
  if (op = "&&" ∨ op = "||") ∧ (isNullish left ∨ isNullish right) then
    note left.span.start .mixedNullish
  if op = "**" then
    match left with
    | .unary .. | .awaitExpr .. => note left.span.start .negatedPower
    | _ => pure ()

/-- A private name before `in`. -/
def privateIn (level : Nat) : Reading Expr := do
  let t ← token
  match t.kind with
  | .privateName n =>
    advance
    unless (← isWord "in") && (← scope).inOperator && level < relationLevel do unexpected
    advance
    let right ← g.binary relationLevel
    match right with
    | .privateIn .. => noteHere .unexpectedToken
    | _ => pure ()
    return .privateIn (← spanFrom t.start) ⟨⟨t.start, t.stop⟩, n⟩ right
  | _ => unexpected

/-- One more operation on what stands left of it, if one follows that binds stronger than a level.
Operators bind to the left, but for powers. -/
def binaryStep (pos level : Nat) (left : Expr) : Reading (Expr ⊕ Expr) := do
  let some (op, strength) ← operator? | return .inr left
  let stops := if strength = powerLevel then strength < level else strength ≤ level
  if stops then return .inr left
  advance
  if op = "as" ∨ op = "satisfies" then
    let type ← g.typeTree
    return .inl (.typed (← spanFrom pos) left type)
  let right ← g.binary strength
  checkOperands op left right
  return .inl (.binary (← spanFrom pos) op left right)

def binaryRule (level : Nat) : Reading Expr := do
  let pos ← start
  let first ← match ← kind with
    | .privateName _ => g.privateIn level
    | _ => g.unary
  loop first (g.binaryStep pos level)

def assignPuncts : List Punct :=
  [.assign, .plusAssign, .minusAssign, .starAssign, .slashAssign, .percentAssign, .powerAssign,
   .shiftLeftAssign, .shiftRightAssign, .shiftZeroAssign, .ampAssign, .barAssign, .caretAssign,
   .andAssign, .orAssign, .nullishAssign]

def yieldExpression : Reading Expr := do
  let pos ← start
  unless (← scope).yields do noteHere .yieldOutsideGenerator
  advanceKeyword
  if ← onNewLine then return .yieldExpr (← spanFrom pos) []
  let delegates ← eat .star
  let ends : Bool := match ← kind with
    | .eof | .word "in" | .punct .semicolon | .punct .braceR | .punct .parenR | .punct .bracketR
    | .punct .colon | .punct .comma => true
    | _ => false
  if ends && !delegates then return .yieldExpr (← spanFrom pos) []
  let e ← g.one
  return .yieldExpr (← spanFrom pos) [e]

def isYield : Reading Bool := do
  return (← isWord "yield") && ((← scope).yields || (← nextIs beginsOperand))

def conditionalRest (pos : Nat) (test : Expr) (returnTypes : Bool) : Reading Expr := do
  unless ← eat .question do return test
  let yes ← within (fun sc => { sc with inOperator := true }) (g.assignment false)
  expect .colon
  let no ← g.assignment returnTypes
  return .conditional (← spanFrom pos) test yes no

def assignmentRest (pos : Nat) (target : Expr) (p : Punct) (returnTypes : Bool) :
    Reading Expr := do
  if p = .assign then asTarget target else asPlace target
  advance
  let value ← g.assignment returnTypes
  return .assign (← spanFrom pos) p.text target value

def assignmentRule (returnTypes : Bool) : Reading Expr := do
  if ← isYield then return ← g.yieldExpression
  if let some e ← g.asyncSimpleArrow returnTypes then return e
  if let some e ← g.parenthesizedArrow returnTypes then return e
  let pos ← start
  let left ← g.binary 0
  match ← kind, left with
  | .punct .arrow, .ident name => g.simpleArrow pos name false returnTypes
  | .punct p, _ =>
    if assignPuncts.contains p then g.assignmentRest pos left p returnTypes
    else g.conditionalRest pos left returnTypes
  | _, _ => return left

def expressionRule : Reading Expr := do
  let pos ← start
  let first ← g.one
  unless ← isPunct .comma do return first
  let items ← loop [first] fun back => do
    if ← eat .comma then return .inl ((← g.one) :: back)
    return .inr back.reverse
  return .sequence (← spanFrom pos) items

end Standin.Script.Grammar
