import Standin.Script.Grammar.Types

namespace Standin.Script.Grammar

open Reading

variable (g : Grammar)

def withFallback (pattern : Reading Pattern) : Reading Pattern := do
  let p ← pattern
  if ← eat .assign then
    return .fallback p (← g.oneWithIn)
  return p

/-- Notes what may not follow a rest element, which must be the last. -/
def checkRestIsLast (close : Punct) : Reading Unit := do
  unless ← isPunct close do noteHere .misplacedRest

/-- Elements of an array pattern; a comma alone leaves one out. -/
def arrayPattern : Reading Pattern := do
  let pos ← start
  expect .bracketL
  let elements ← loop [] fun back => do
    if ← isPunct .bracketR then return .inr back.reverse
    let element ← match ← kind with
      | .punct .comma => pure Pattern.hole
      | .punct .ellipsis =>
        let pos ← start
        advance
        let inner ← g.pattern
        checkRestIsLast .bracketR
        pure (.rest (← spanFrom pos) inner)
      | _ => g.withFallback g.pattern
    if ← isPunct .bracketR then return .inr (element :: back).reverse
    expect .comma
    return .inl (element :: back)
  expect .bracketR
  return .array (← spanFrom pos) elements []

def patternProperty : Reading PatternProperty := do
  if ← eat .ellipsis then
    let pos ← start
    let inner ← g.pattern
    match inner with
    | .name .. => pure ()
    | _ => throwAt pos .patternInRest
    checkRestIsLast .braceR
    return .rest inner
  let canBind ← isVariableName
  let key ← g.propertyKey
  if canBind && !(← isPunct .colon) then
    match key with
    | .word n =>
      let p ← g.withFallback (pure (.name n []))
      return .pair key p
    | _ => unexpected
  expect .colon
  return .pair key (← g.withFallback g.pattern)

def objectPattern : Reading Pattern := do
  let pos ← start
  expect .braceL
  let properties ← separated .braceR g.patternProperty
  expect .braceR
  return .object (← spanFrom pos) properties []

def patternRule : Reading Pattern := do
  match ← kind with
  | .punct .bracketL => g.arrayPattern
  | .punct .braceL => g.objectPattern
  | _ => return .name (← variableName) []

def typedPattern (p : Pattern) (types : List TypeTree) : Pattern :=
  match p with
  | .name n _ => .name n types
  | .object span properties _ => .object span properties types
  | .array span elements _ => .array span elements types
  | p => p

def annotatedPattern : Reading Pattern := do
  let p ← g.pattern
  return typedPattern p (← g.annotation)

/-- Words that make a parameter of a constructor a property. -/
def parameterModifiers : List String :=
  ["public", "private", "protected", "readonly", "override"]

/-- Reads modifiers; one counts only when a name or a pattern follows it. -/
def skipParameterModifiers : Reading Bool :=
  loop false fun found => do
    match ← word? with
    | some w =>
      if parameterModifiers.contains w && (← nextIs fun t => match t.kind with
          | .word _ | .punct .braceL | .punct .bracketL => !t.onNewLine
          | _ => false) then
        advance
        return .inl true
      return .inr found
    | none => return .inr found

/-- A parameter; `inConstructor` allows modifiers. -/
def param (inConstructor : Bool) : Reading Param := do
  let decorators ← g.decorators
  let pos ← start
  if ← typed then
    if (← skipParameterModifiers) && !inConstructor then note pos .modifierPlace
  if ← eat .ellipsis then
    let inner ← g.annotatedPattern
    checkRestIsLast .parenR
    return .mk decorators (.rest (← spanFrom pos) inner)
  let p ← g.pattern
  let isOptional ← if ← typed then eat .question else pure false
  let p := typedPattern p (← g.annotation)
  if ← eat .assign then
    if isOptional then noteHere .optionalDefault
    return .mk decorators (.fallback p (← g.oneWithIn))
  return .mk decorators p

/-- The parameters in parentheses. A first parameter named `this` only tells its type. -/
def params (inConstructor : Bool) : Reading (List Param) := do
  expect .parenL
  if (← typed) && (← isWord "this") then
    let t ← token
    advance
    let types ← g.annotation
    unless ← isPunct .parenR do expect .comma
    let rest ← separated .parenR (g.param inConstructor)
    expect .parenR
    return .mk [] (.name ⟨⟨t.start, t.stop⟩, "this"⟩ types) :: rest
  let all ← separated .parenR (g.param inConstructor)
  expect .parenR
  return all

end Standin.Script.Grammar
