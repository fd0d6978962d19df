import Standin.Script.Grammar.Basic

namespace Standin.Script.Grammar

open Reading

variable (g : Grammar)

/-- `: T`, where types are allowed. -/
def annotation : Reading (List TypeTree) := do
  if (← typed) && (← isPunct .colon) then
    advance
    return [← g.typeTree]
  return []

def typeArguments : Reading (List TypeTree) := do
  splitLess
  expect .less
  let types ← separated .greater g.typeTree
  if types.isEmpty then noteHere .typeForm
  expect .greater
  return types

def computedOf : List TypeTree → List Expr
  | [] => []
  | .mk _ es :: more => es ++ computedOf more

/-- A type parameter: modifiers, a name, a bound and a default. -/
def typeParameter : Reading (List Expr) := do
  let modifiers := ["const", "in", "out"]
  loop () fun _ => do
    match ← word? with
    | some w =>
      if modifiers.contains w && (← nextIs fun t => match t.kind with
          | .word next => next ≠ "extends"
          | _ => false) then
        advance
        return .inl ()
      return .inr ()
    | none => return .inr ()
  let _ ← variableName
  let bound ← if ← eatWord "extends" then g.type else pure []
  let default ← if ← eat .assign then g.type else pure []
  return bound ++ default

/-- The type parameters of a declaration, where types are allowed and `<` follows. -/
def typeParameters : Reading (List TypeTree) := do
  if (← typed) && (← isPunct .less) then
    let pos ← start
    advance
    let params ← separated .greater g.typeParameter
    if params.isEmpty then noteHere .typeForm
    expect .greater
    return [.mk (← spanFrom pos) params.flatten]
  return []

mutual

/-- The expressions in the keys, types and fallbacks of a pattern. -/
def patternParts : Pattern → List Expr
  | .name _ types => computedOf types
  | .object _ properties types => propertiesParts properties ++ computedOf types
  | .array _ elements types => elementsParts elements ++ computedOf types
  | .hole => []
  | .rest _ inner => patternParts inner
  | .fallback inner value => patternParts inner ++ [value]

def elementsParts : List Pattern → List Expr
  | [] => []
  | p :: more => patternParts p ++ elementsParts more

def propertiesParts : List PatternProperty → List Expr
  | [] => []
  | .pair key value :: more => computedIn key ++ patternParts value ++ propertiesParts more
  | .rest inner :: more => patternParts inner ++ propertiesParts more

end

def signatureParam : Reading (List Expr) := do
  let _ ← eat .ellipsis
  let parts ←
    if ← isWord "this" then
      advance
      pure []
    else pure (patternParts (← g.pattern))
  let _ ← eat .question
  let types ← g.annotation
  let fallback ← if ← eat .assign then pure [← g.oneWithIn] else pure []
  return parts ++ computedOf types ++ fallback

def signatureParams : Reading (List Expr) := do
  expect .parenL
  let params ← separated .parenR g.signatureParam
  expect .parenR
  return params.flatten

/-- Whether a token names what a statement is about, on the line of the word before it. -/
def namesSubject (t : Token) : Bool :=
  match t.kind with
  | .word w => !t.onNewLine && (w == "this" || !isReserved w)
  | _ => false

/-- `is T` behind the subject of a statement, if it follows. -/
def statementRest : Reading (List Expr) := do
  if (← isWord "is") && !(← onNewLine) then
    advance
    return ← g.type
  return []

/-- What a function returns: a type, or a statement about a parameter. -/
def returnType : Reading (List Expr) := do
  let isStatement ← lookahead (do
    let named ← isVariableName
    advance
    return named && (← isWord "is") && !(← onNewLine)) false
  if isStatement then
    advance
    return ← g.statementRest
  g.type

def returnAnnotation : Reading (List TypeTree) := do
  if (← typed) && (← isPunct .colon) then
    advance
    let pos ← start
    let computed ← g.returnType
    return [.mk (← spanFrom pos) computed]
  return []

/-- `(a: T) => U` behind its modifiers. -/
def functionType : Reading (List Expr) := do
  let own ← g.typeParameters
  let params ← g.signatureParams
  expect .arrow
  return computedOf own ++ params ++ (← g.returnType)

/-- Passes what can begin a parameter; tells whether something did. -/
def skipParameterStart : Reading Bool := do
  match ← kind with
  | .word w =>
    let modifiers := ["public", "private", "protected", "readonly", "override"]
    if modifiers.contains w && (← nextIs fun t => match t.kind with
        | .word _ | .punct .braceL | .punct .bracketL => true
        | _ => false) then advance
    match ← kind with
    | .word w => if w = "this" ∨ !isReserved w then do advance; return true else return false
    | _ =>
      let _ ← g.pattern
      return true
  | .punct .braceL | .punct .bracketL =>
    let before := (← ask (·.faults)).length
    let _ ← g.pattern
    return (← ask (·.faults)).length == before
  | _ => return false

/-- Whether a parenthesis must begin a function type. -/
def beginsFunctionType : Reading Bool := do
  advance
  match ← kind with
  | .punct .parenR | .punct .ellipsis => return true
  | _ =>
    unless ← g.skipParameterStart do return false
    match ← kind with
    | .punct .colon | .punct .comma | .punct .question | .punct .assign => return true
    | .punct .parenR =>
      advance
      isPunct .arrow
    | _ => return false

def isFunctionTypeNext : Reading Bool := do
  match ← kind with
  | .punct .less => return true
  | .punct .parenL => lookahead g.beginsFunctionType false
  | .word "new" => return true
  | .word "abstract" => nextIs (·.kind == .word "new")
  | _ => return false

/-- Whether a token can begin a type. -/
def beginsType (t : Token) : Bool :=
  match t.kind with
  | .word w =>
    !isReserved w || ["void", "null", "this", "typeof", "new", "true", "false", "import"].contains w
  | .string .. | .number | .template .. => true
  | .punct p =>
    [.braceL, .bracketL, .less, .bar, .amp, .parenL, .minus, .ellipsis, .question, .bang].contains p
  | _ => false

/-- `A.B.C`. -/
def entityName : Reading Unit := do
  let _ ← anyName
  loop () fun _ => do
    if ← eat .dot then
      let _ ← anyName
      return .inl ()
    return .inr ()

def argumentsOnLine : Reading (List Expr) := do
  splitLess
  if (← isPunct .less) && !(← onNewLine) then
    return computedOf (← g.typeArguments)
  return []

/-- `import("m", { … }).A<T>` behind its keyword. -/
def importType : Reading (List Expr) := do
  expect .parenL
  let inner ← g.type
  let attributes ← if ← eat .comma then do
      if ← isPunct .parenR then pure [] else pure [← g.oneWithIn]
    else pure []
  let _ ← eat .comma
  expect .parenR
  loop () fun _ => do
    if ← eat .dot then
      let _ ← anyName
      return .inl ()
    return .inr ()
  return inner ++ attributes ++ (← g.argumentsOnLine)

def typeQuery : Reading (List Expr) := do
  if ← eatWord "import" then return ← g.importType
  entityName
  g.argumentsOnLine

/-- `name: T`, `name?: T`, `...name: T`, `...T`, `T?` or `T`. -/
def tupleElement : Reading (List Expr) := do
  let _ ← eat .ellipsis
  let isNamed ← lookahead (do
    let _ ← anyName
    if ← eat .question then return ← isPunct .colon
    isPunct .colon) false
  if isNamed then
    let _ ← anyName
    let _ ← eat .question
    expect .colon
  let inner ← g.type
  let _ ← eat .question
  return inner

def templateType : Reading (List Expr) :=
  loop [] fun found => do
    match ← kind with
    | .template _ true =>
      advance
      return .inr found
    | .template _ false =>
      advance
      let inner ← g.type
      unless ← isPunct .braceR do unexpected
      asTemplateRest
      return .inl (found ++ inner)
    | _ => unexpected

def isIndexSignature : Reading Bool := do
  expect .bracketL
  match ← kind with
  | .punct .ellipsis | .punct .bracketR => return true
  | .word w =>
    if ["public", "private", "protected", "readonly", "static"].contains w then
      let wasNext ← nextIs fun t => match t.kind with
        | .word v => !isReserved v
        | _ => false
      if wasNext then return true
    if isReserved w then return false
    advance
    match ← kind with
    | .punct .colon | .punct .comma => return true
    | .punct .question =>
      advance
      match ← kind with
      | .punct .colon | .punct .comma | .punct .bracketR => return true
      | _ => return false
    | _ => return false
  | _ => return false

/-- The end of a member: a comma, a semicolon, or a place where it may be left out. -/
def endMember : Reading Unit := do
  if ← eat .comma then return
  endStatement

/-- `[key: K]: T` with its end. -/
def indexSignature : Reading (List Expr) := do
  expect .bracketL
  let params ← separated .bracketR g.signatureParam
  expect .bracketR
  let types ← g.annotation
  endMember
  return params.flatten ++ computedOf types

def callSignature : Reading (List Expr) := do
  let own ← g.typeParameters
  let params ← g.signatureParams
  let result ← g.returnAnnotation
  return computedOf own ++ params ++ computedOf result

def memberSignature : Reading (List Expr) := do
  let key ← g.propertyKey
  let _ ← eat .question
  let inner ← match ← kind with
    | .punct .parenL | .punct .less => g.callSignature
    | _ => pure (computedOf (← g.annotation))
  endMember
  return computedIn key ++ inner

/-- `get x(): T` and `set x(v)` behind their first word. -/
def accessorSignature : Reading (List Expr) := do
  let key ← g.propertyKey
  let params ← g.signatureParams
  let result ← g.returnAnnotation
  endMember
  return computedIn key ++ params ++ computedOf result

def typeMember : Reading (List Expr) := do
  let isCall (t : Token) : Bool := t.kind == .punct .parenL || t.kind == .punct .less
  if isCall (← token) || ((← isWord "new") && (← nextIs isCall)) then
    let _ ← eatWord "new"
    let inner ← g.callSignature
    endMember
    return inner
  let mods ← modifiers
  if ((← isWord "get") || (← isWord "set")) && (← nextIs beginsKey) then
    checkModifiers ["readonly"] mods
    advance
    return ← g.accessorSignature
  if (← isPunct .bracketL) && (← lookahead isIndexSignature false) then
    checkModifiers ["readonly", "static"] mods
    return ← g.indexSignature
  checkModifiers ["readonly"] mods
  g.memberSignature

def typeMembers : Reading (List Expr) := do
  expect .braceL
  let members ← many (isPunct .braceR) g.typeMember
  expect .braceR
  return members.flatten

def isMappedType : Reading Bool := do
  expect .braceL
  match ← kind with
  | .punct .plus | .punct .minus =>
    advance
    return ← isWord "readonly"
  | _ =>
    if ← isWord "readonly" then advance
    unless ← eat .bracketL do return false
    let _ ← anyName
    isWord "in"

def mappedType : Reading (List Expr) := do
  expect .braceL
  if (← isPunct .plus) || (← isPunct .minus) then advance
  let _ ← eatWord "readonly"
  expect .bracketL
  let _ ← anyName
  expectWord "in"
  let keys ← g.type
  let renamed ← if ← eatWord "as" then g.type else pure []
  expect .bracketR
  if (← isPunct .plus) || (← isPunct .minus) then
    advance
    expect .question
  else
    let _ ← eat .question
  let types ← g.annotation
  let _ ← eat .semicolon
  let _ ← eat .comma
  expect .braceR
  return keys ++ renamed ++ computedOf types

def fixedTypes : List String := ["void", "null", "true", "false", "const"]

/-- Words that are types unless a dot follows. -/
def namedTypes : List String :=
  ["any", "unknown", "string", "number", "bigint", "symbol", "boolean", "undefined", "never",
   "object"]

/-- A type without operators. -/
def plainType : Reading (List Expr) := do
  match ← kind with
  | .string .. | .number => advance; return []
  | .template .. => g.templateType
  | .punct .minus =>
    advance
    match ← kind with
    | .number => advance; return []
    | _ => unexpected
  | .punct .braceL =>
    if ← lookahead isMappedType false then g.mappedType else g.typeMembers
  | .punct .bracketL =>
    advance
    let elements ← separated .bracketR g.tupleElement
    expect .bracketR
    return elements.flatten
  | .punct .parenL =>
    advance
    let inner ← within (fun sc => { sc with unconditional := false }) g.type
    expect .parenR
    return inner
  | .word "typeof" => advance; g.typeQuery
  | .word "import" => advance; g.importType
  | .word "this" => advance; g.statementRest
  | .word w =>
    let isNamed ← nextIs (·.kind == .punct .dot)
    if fixedTypes.contains w || (namedTypes.contains w && !isNamed) then
      advance
      return []
    if w = "asserts" && (← nextIs namesSubject) then
      advance
      advance
      return ← g.statementRest
    entityName
    g.argumentsOnLine
  | _ => unexpected

/-- A type with the marks behind it: `T[]`, `T[K]`, `T!` and `T?`. -/
def postfixType : Reading (List Expr) := do
  let first ← g.plainType
  loop first fun found => do
    if ← onNewLine then return .inr found
    match ← kind with
    | .punct .bang => advance; return .inl found
    | .punct .question =>
      if ← nextIs beginsType then return .inr found
      if ← nextIs fun t => t.kind == .punct .colon then return .inr found
      advance
      return .inl found
    | .punct .bracketL =>
      advance
      if ← eat .bracketR then return .inl found
      let key ← g.type
      expect .bracketR
      return .inl (found ++ key)
    | _ => return .inr found

/-- `infer T`, with a bound where no conditional type can follow it. -/
def inferType : Reading (List Expr) := do
  let _ ← variableName
  unless ← isWord "extends" do return []
  let bound ← attempt do
    expectWord "extends"
    let bound ← within (fun sc => { sc with unconditional := true }) g.type
    if !(← scope).unconditional && (← isPunct .question) then unexpected
    return bound
  return bound.getD []

def typeOperatorRule : Reading (List Expr) := do
  match ← kind with
  | .word "keyof" | .word "unique" | .word "readonly" => advance; g.typeOperator
  | .word "infer" => advance; g.inferType
  | _ => g.postfixType

/-- Types joined by a mark, which may also lead them. -/
def joinedTypes (mark : Punct) (item : Reading (List Expr)) : Reading (List Expr) := do
  let _ ← eat mark
  let first ← item
  loop first fun found => do
    if ← eat mark then return .inl (found ++ (← item))
    return .inr found

def functionTypeOr (other : Reading (List Expr)) : Reading (List Expr) := do
  if ← g.isFunctionTypeNext then
    let _ ← eatWord "abstract"
    let _ ← eatWord "new"
    g.functionType
  else other

def intersectionType : Reading (List Expr) :=
  joinedTypes .amp (g.functionTypeOr g.typeOperatorRule)

def unionType : Reading (List Expr) :=
  joinedTypes .bar (g.functionTypeOr g.intersectionType)

def typeRule : Reading (List Expr) := do
  if ← g.isFunctionTypeNext then return ← g.functionTypeOr unexpected
  let subject ← g.unionType
  if (← scope).unconditional || (← onNewLine) || !(← isWord "extends") then return subject
  advance
  let bound ← within (fun sc => { sc with unconditional := true }) g.type
  expect .question
  let yes ← within (fun sc => { sc with unconditional := false }) g.type
  expect .colon
  let no ← within (fun sc => { sc with unconditional := false }) g.type
  return subject ++ bound ++ yes ++ no

end Standin.Script.Grammar
