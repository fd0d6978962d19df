import Standin.Script.Grammar.Patterns

namespace Standin.Script.Grammar

open Reading

variable (g : Grammar)

def functionScope (isAsync isGenerator : Bool) (sc : Scope) : Scope :=
  { sc with awaits := isAsync, yields := isGenerator, inOperator := true, decorating := false }

def functionBody : Reading (List Stmt) :=
  within (fun sc => { sc with returns := true }) g.statementsInBraces

/-- Type parameters, parameters, return type and body of a function whose head is read. A missing
body leaves a signature, where types are allowed. -/
def functionRest (pos : Nat) (name : Option Name) (isAsync isGenerator inConstructor : Bool) :
    Reading Func := do
  within (functionScope isAsync isGenerator) do
    let typeParams ← g.typeParameters
    let params ← g.params inConstructor
    let result ← g.returnAnnotation
    if ← isPunct .braceL then
      let body ← g.functionBody
      return .mk (← spanFrom pos) name isAsync isGenerator typeParams params result true body
    unless ← typed do unexpected
    endStatement
    return .mk (← spanFrom pos) name isAsync isGenerator typeParams params result false []

/-- The name of a function expression is bound inside the function. -/
def functionExpressionName (isAsync isGenerator : Bool) : Reading (Option Name) := do
  if ← isVariableName then
    return some (← within (fun sc => { sc with awaits := isAsync, yields := isGenerator })
      variableName)
  return none

/-- `async function* f(…) {…}` from its first word, as an expression. -/
def functionExpression (pos : Nat) (isAsync : Bool) : Reading Expr := do
  if isAsync then expectWord "async"
  expectWord "function"
  let isGenerator ← eat .star
  let name ← functionExpressionName isAsync isGenerator
  return .functionExpr (← g.functionRest pos name isAsync isGenerator false)

/-- The name of a declaration; a missing name is noted where one is needed. -/
def declarationName (needsName : Bool) : Reading (Option Name) := do
  if ← isVariableName then return some (← variableName)
  if needsName then
    match ← kind with
    | .punct .parenL => noteHere .functionName
    | .word _ => refuse .functionName
    | _ => pure ()
  return none

/-- The same as a declaration, whose name only a default export may leave out. -/
def functionDeclaration (pos : Nat) (isAsync needsName : Bool) : Reading Func := do
  if isAsync then expectWord "async"
  expectWord "function"
  let isGenerator ← eat .star
  let name ← declarationName needsName
  g.functionRest pos name isAsync isGenerator false

/-- The body behind an arrow: statements in braces, or one expression. -/
def arrowBody (isAsync returnTypes : Bool) : Reading (List Stmt) :=
  within (fun sc => { sc with awaits := isAsync, yields := false }) do
    if ← isPunct .braceL then
      within (fun sc => { sc with inOperator := true }) g.functionBody
    else
      let e ← g.assignment returnTypes
      return [.ret e.span [e]]

/-- `x => …` behind its parameter. -/
def simpleArrow (pos : Nat) (name : Name) (isAsync returnTypes : Bool) : Reading Expr := do
  if ← onNewLine then noteHere .newlineInside
  expect .arrow
  let body ← g.arrowBody isAsync returnTypes
  return .arrow (← spanFrom pos) isAsync [] [.mk [] (.name name [])] [] body

/-- How sure it is that a parenthesis begins an arrow function. -/
inductive Likely
  | yes
  | maybe
  | no
deriving DecidableEq

def isModifierWord (w : String) : Bool :=
  ["public", "private", "protected", "readonly", "override", "static", "abstract", "declare",
   "accessor"].contains w

def likelyArrowBehindParen : Reading Likely := do
  match ← kind with
  | .punct .parenR =>
    advance
    match ← kind with
    | .punct .arrow | .punct .colon | .punct .braceL => return .yes
    | _ => return .no
  | .punct .bracketL | .punct .braceL => return .maybe
  | .punct .ellipsis => return .yes
  | .punct .at => return .maybe
  | .word w =>
    if isModifierWord w && (← nextIs fun t => match t.kind with
        | .word v => v ≠ "as" && !isReserved v
        | _ => false) then return .yes
    if isReserved w && w ≠ "this" then return .no
    advance
    match ← kind with
    | .punct .colon => return .yes
    | .punct .question =>
      advance
      match ← kind with
      | .punct .colon | .punct .comma | .punct .assign | .punct .parenR => return .yes
      | _ => return .no
    | .punct .comma | .punct .assign | .punct .parenR => return .maybe
    | _ => return .no
  | _ => return .no

/-- Looks behind `<`: with markup, only what no element can begin with counts. -/
def likelyArrowBehindLess : Reading Likely := do
  let d ← dialect
  match ← word? with
  | none => return .no
  | some w =>
    if isReserved w && w ≠ "const" then return .no
    unless d.markup do return .maybe
    if w = "const" then advance
    advance
    match ← kind with
    | .punct .comma | .punct .assign => return .yes
    | .word "extends" =>
      advance
      match ← kind with
      | .punct .assign | .punct .greater | .punct .slash => return .no
      | _ => return .yes
    | _ => return .no

def likelyArrow : Reading Likely := do
  let isTyped ← typed
  match ← kind with
  | .punct .parenL => lookahead (do advance; likelyArrowBehindParen) .no
  | .punct .less =>
    if isTyped then lookahead (do advance; likelyArrowBehindLess) .no else return .no
  | .word "async" =>
    lookahead (do
      advance
      if ← onNewLine then return .no
      match ← kind with
      | .punct .parenL => advance; likelyArrowBehindParen
      | .punct .less => if isTyped then do advance; likelyArrowBehindLess else return .no
      | _ => return .no) .no
  | _ => return .no

structure ArrowHead where
  isAsync : Bool
  typeParams : List TypeTree
  params : List Param
  result : List TypeTree

/-- Notes a first parameter that only tells the type of `this`, where there is none to tell of. -/
def checkNoThis : List Param → Reading Unit
  | .mk _ (.name ⟨span, "this"⟩ _) :: _ => note span.start .misplacedThis
  | _ => return

def arrowHead : Reading ArrowHead := do
  let isAsync ← eatWord "async"
  within (fun sc =>
      { sc with awaits := sc.awaits || isAsync, inOperator := true, decorating := false }) do
    let typeParams ← g.typeParameters
    let params ← g.params false
    checkNoThis params
    let result ← g.returnAnnotation
    if ← onNewLine then noteHere .newlineInside
    return ⟨isAsync, typeParams, params, result⟩

def arrowFrom (pos : Nat) (head : ArrowHead) (returnTypes : Bool) : Reading Expr := do
  expect .arrow
  let body ← g.arrowBody head.isAsync returnTypes
  return .arrow (← spanFrom pos) head.isAsync head.typeParams head.params head.result body

/-- An arrow function that might be something else: given up when no arrow follows. Inside the
first branch of a conditional, a return type counts only when the colon of the conditional is still
to come. -/
def possibleArrow (returnTypes : Bool) : Reading (Option Expr) := do
  let pos ← start
  if (← ask (·.noArrow)).contains pos then return none
  let found ← attempt do
    let head ← g.arrowHead
    unless ← isPunct .arrow do unexpected
    let e ← g.arrowFrom pos head returnTypes
    if !returnTypes && !head.result.isEmpty then
      unless ← isPunct .colon do unexpected
    return e
  if found.isNone then
    change (fun s => { s with noArrow := pos :: s.noArrow }) fun _ => .beside rfl rfl
  return found

def parenthesizedArrow (returnTypes : Bool) : Reading (Option Expr) := do
  match ← likelyArrow with
  | .no => return none
  | .yes =>
    let pos ← start
    let head ← g.arrowHead
    return some (← g.arrowFrom pos head true)
  | .maybe => g.possibleArrow returnTypes

/-- `async x => …`, if it begins here. -/
def asyncSimpleArrow (returnTypes : Bool) : Reading (Option Expr) := do
  unless ← isWord "async" do return none
  let isArrow ← lookahead (do
    advance
    if (← onNewLine) || !(← isVariableName) then return false
    advance
    return (← isPunct .arrow) && !(← onNewLine)) false
  unless isArrow do return none
  let pos ← start
  expectWord "async"
  let name ← within (fun sc => { sc with awaits := true }) variableName
  return some (← g.simpleArrow pos name true returnTypes)

end Standin.Script.Grammar
