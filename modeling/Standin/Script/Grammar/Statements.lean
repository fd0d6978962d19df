import Standin.Script.Grammar.Modules

namespace Standin.Script.Grammar

open Reading

variable (g : Grammar)

def parenthesizedTest : Reading Expr := do
  expect .parenL
  let e ← g.expressionWithIn
  expect .parenR
  return e

/-- Notes a declaration that stands where only a statement may. -/
def checkPlace (place : Place) (position : Nat) : Reading Unit := do
  if place ≠ .list then note position .declarationAsBody

def blockStatement : Reading Stmt := do
  let pos ← start
  let body ← g.statementsInBraces
  return .block (← spanFrom pos) body

def doStatement : Reading Stmt := do
  let pos ← start
  expectWord "do"
  let body ← g.statement .body
  expectWord "while"
  let test ← g.parenthesizedTest
  let _ ← eat .semicolon
  return .doWhile (← spanFrom pos) body test

def forRest (pos : Nat) (awaits : Bool) (first : List Stmt) : Reading Stmt := do
  expect .semicolon
  let test ← if ← isPunct .semicolon then pure [] else pure [← g.expression]
  expect .semicolon
  let update ← if ← isPunct .parenR then pure [] else pure [← g.expression]
  expect .parenR
  if awaits then note pos .loopHead
  let body ← g.statement .body
  return .forLoop (← spanFrom pos) first test update body

/-- A loop over keys or items, from `in` or `of` on. -/
def forEachRest (pos : Nat) (awaits : Bool) (left : Stmt) : Reading Stmt := do
  let right ←
    if ← eatWord "in" then
      if awaits then note pos .loopHead
      g.expression
    else
      expectWord "of"
      g.one
  expect .parenR
  let body ← g.statement .body
  return .forEach (← spanFrom pos) left right body

def isEachWord : Reading Bool := return (← isWord "in") || (← isWord "of")

def forVariables (pos : Nat) (awaits : Bool) : Reading Stmt := do
  let declFrom ← start
  let d ← within (fun sc => { sc with inOperator := false })
    (g.variableDeclaration declFrom false .loopHead)
  if ← isEachWord then return ← g.forEachRest pos awaits (.decl d)
  match d with
  | .variable _ kind _ ds => ds.forM (checkInitializer kind)
  | _ => pure ()
  g.forRest pos awaits [.decl d]

def beginsLoopVariables : Reading Bool := do
  match ← word? with
  | some "var" | some "const" => return true
  | some "let" =>
    lookahead (do
      advance
      match ← kind with
      | .word "of" =>
        nextIs fun t => match t.kind with
          | .punct .assign | .punct .semicolon | .punct .comma | .word _ => true
          | _ => false
      | .word w => return w ≠ "in"
      | .punct .bracketL | .punct .braceL => return true
      | _ => return false) false
  | some "using" =>
    lookahead (do
      advance
      if ← onNewLine then return false
      if ← isWord "of" then
        return ← nextIs fun t => t.kind == .punct .assign || t.kind == .word "of"
      isVariableName) false
  | some "await" => isUsingDeclaration
  | _ => return false

def forStatement : Reading Stmt := do
  let pos ← start
  expectWord "for"
  let awaits ← isWord "await"
  if awaits then
    unless (← scope).awaits do noteHere .awaitOutsideAsync
    advanceKeyword
  expect .parenL
  if ← isPunct .semicolon then return ← g.forRest pos awaits []
  if ← beginsLoopVariables then return ← g.forVariables pos awaits
  let startsWithLet ← isWord "let"
  let isAsyncOf := (← isWord "async") && !(← token).escaped &&
    (← nextIs (·.kind == .word "of"))
  let e ← within (fun sc => { sc with inOperator := false }) g.expression
  unless ← isEachWord do return ← g.forRest pos awaits [.expr e.span e]
  asTarget e
  if ← isWord "of" then
    if startsWithLet || (isAsyncOf && !awaits) then note e.span.start .loopHead
  g.forEachRest pos awaits (.expr e.span e)

def ifStatement : Reading Stmt := do
  let pos ← start
  expectWord "if"
  let test ← g.parenthesizedTest
  let yes ← g.statement .body
  let no ← if ← eatWord "else" then pure [← g.statement .body] else pure []
  return .ifThen (← spanFrom pos) test yes no

def switchCase : Reading Case := do
  let test ←
    if ← eatWord "default" then pure []
    else do
      expectWord "case"
      pure [← g.expressionWithIn]
  expect .colon
  let body ← many (do return (← isPunct .braceR) || (← isWord "case") || (← isWord "default"))
    (g.statement .list)
  return .mk test body

def switchStatement : Reading Stmt := do
  let pos ← start
  expectWord "switch"
  let value ← g.parenthesizedTest
  expect .braceL
  let cases ← many (isPunct .braceR) g.switchCase
  expect .braceR
  return .switchOn (← spanFrom pos) value cases

def tryStatement : Reading Stmt := do
  let pos ← start
  expectWord "try"
  let body ← g.statementsInBraces
  let hasCatch ← eatWord "catch"
  let caught ←
    if hasCatch && (← eat .parenL) then do
      let p ← g.annotatedPattern
      expect .parenR
      pure [p]
    else pure []
  let handler ← if hasCatch then g.statementsInBraces else pure []
  let hasFinally ← eatWord "finally"
  let final ← if hasFinally then g.statementsInBraces else pure []
  unless hasCatch || hasFinally do noteHere .missingHandler
  return .attempt (← spanFrom pos) body caught handler final

def jumpStatement : Reading Stmt := do
  let pos ← start
  advanceKeyword
  let label ← if ← canEndHere then pure none else pure (some (← variableName))
  endStatement
  return .jump (← spanFrom pos) label

def returnStatement : Reading Stmt := do
  let pos ← start
  expectWord "return"
  unless (← scope).returns do note pos .returnOutsideFunction
  let value ← if ← canEndHere then pure [] else pure [← g.expressionWithIn]
  endStatement
  return .ret (← spanFrom pos) value

def throwStatement : Reading Stmt := do
  let pos ← start
  expectWord "throw"
  if ← onNewLine then noteHere .newlineInside
  let e ← g.expressionWithIn
  endStatement
  return .throwing (← spanFrom pos) e

def withStatement : Reading Stmt := do
  let pos ← start
  expectWord "with"
  let object ← g.parenthesizedTest
  let body ← g.statement .body
  return .inScope (← spanFrom pos) object body

/-- An expression, or a label when a name is followed by a colon. -/
def expressionStatement : Reading Stmt := do
  let pos ← start
  match ← g.expressionWithIn with
  | .ident name =>
    if ← eat .colon then
      let body ← g.statement .label
      return .labeled (← spanFrom pos) name body
    endStatement
    return .expr (← spanFrom pos) (.ident name)
  | e =>
    endStatement
    return .expr (← spanFrom pos) e

def variableStatement (place : Place) : Reading Stmt := do
  let pos ← start
  let d ← g.variableDeclaration pos false .statement
  endStatement
  match d with
  | .variable _ kind declared ds =>
    if kind ≠ .functionScoped then checkPlace place pos
    return .decl (.variable (← spanFrom pos) kind declared ds)
  | d => return .decl d

def functionStatement (place : Place) : Reading Stmt := do
  let pos ← start
  let f ← g.functionDeclaration pos (← isWord "async") true
  let .mk _ _ isAsync isGenerator .. := f
  if isAsync || isGenerator then checkPlace place pos
  checkBody false f
  return .decl (.function false f)

def typedStatement : Reading Stmt := do
  let pos ← start
  let mods ← declarationModifiers
  let d ← within (fun sc => { sc with awaits := false }) (g.declarationRest pos mods [])
  match d with
  | .variable .. => endStatement
  | _ => pure ()
  return .decl d

/-- A class with decorators, or an export of one. -/
def decoratedStatement (place : Place) : Reading Stmt := do
  let pos ← start
  let decorators ← g.decorators
  if ← isWord "export" then return ← g.exportRule decorators
  let mods ← declarationModifiers
  unless ← isWord "class" do unexpected
  checkPlace place pos
  return .decl (← g.declarationRest pos mods decorators)

/-- Whether `import` begins an expression. -/
def isImportExpression : Reading Bool :=
  nextIs fun t => t.kind == .punct .parenL || t.kind == .punct .dot

def wordStatement (place : Place) (w : String) : Reading Stmt := do
  let pos ← start
  match w with
  | "if" => g.ifStatement
  | "do" => g.doStatement
  | "while" =>
    advanceKeyword
    let test ← g.parenthesizedTest
    let body ← g.statement .body
    return .whileDo (← spanFrom pos) test body
  | "for" => g.forStatement
  | "break" | "continue" => jumpStatement
  | "return" => g.returnStatement
  | "with" => g.withStatement
  | "switch" => g.switchStatement
  | "throw" => g.throwStatement
  | "try" => g.tryStatement
  | "debugger" =>
    advanceKeyword
    endStatement
    return .debugger (← spanFrom pos)
  | "class" =>
    checkPlace place pos
    return .decl (.classDecl false (← g.classRest pos []))
  | "export" => g.exportRule []
  | "import" =>
    if ← isImportExpression then g.expressionStatement
    else
      advanceKeyword
      importRest pos
  | _ =>
    if w = "const" && (← typed) && (← isEnumAhead) then return ← g.typedStatement
    if ← beginsVariables then return ← g.variableStatement place
    if ← isFunctionAhead then return ← g.functionStatement place
    if (← typed) && w ≠ "let" && (← beginsTypedDeclaration) then return ← g.typedStatement
    g.expressionStatement

def statementRule (place : Place) : Reading Stmt := do
  let pos ← start
  match ← kind with
  | .punct .braceL => g.blockStatement
  | .punct .semicolon =>
    advance
    return .empty (← spanFrom pos)
  | .punct .at => g.decoratedStatement place
  | .word w => g.wordStatement place w
  | _ => g.expressionStatement

/-- The grammar whose pieces nest at most so deep. -/
def ofDepth : Nat → Grammar
  | 0 => exhausted
  | depth + 1 =>
    { expression := later fun _ => expressionRule (ofDepth depth)
      assignment := fun returnTypes => later fun _ => assignmentRule (ofDepth depth) returnTypes
      binary := fun level => later fun _ => binaryRule (ofDepth depth) level
      unary := later fun _ => unaryRule (ofDepth depth)
      access := later fun _ => accessRule (ofDepth depth)
      primary := later fun _ => primaryRule (ofDepth depth)
      markup := fun isChild => later fun _ => markupRule (ofDepth depth) isChild
      pattern := later fun _ => patternRule (ofDepth depth)
      type := later fun _ => typeRule (ofDepth depth)
      typeOperator := later fun _ => typeOperatorRule (ofDepth depth)
      statement := fun place => later fun _ => statementRule (ofDepth depth) place }

end Standin.Script.Grammar
