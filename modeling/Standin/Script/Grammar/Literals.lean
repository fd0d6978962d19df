import Standin.Script.Grammar.Classes

namespace Standin.Script.Grammar

open Reading

variable (g : Grammar)

def element : Reading Element := do
  let pos ← start
  if ← eat .ellipsis then
    let e ← g.oneWithIn
    recordTrailing .bracketR pos
    return .spread (← spanFrom pos) e
  return .one (← g.oneWithIn)

/-- Commas without an element between them leave one out. -/
def arrayLiteral : Reading Expr := do
  let pos ← start
  expect .bracketL
  let elements ← loop [] fun back => do
    if ← isPunct .bracketR then return .inr back.reverse
    if ← eat .comma then return .inl (.hole :: back)
    let e ← g.element
    if ← isPunct .bracketR then return .inr (e :: back).reverse
    expect .comma
    return .inl (e :: back)
  expect .bracketR
  return .array (← spanFrom pos) elements

def arguments : Reading (List Element) := do
  expect .parenL
  let all ← within (fun sc => { sc with inOperator := true, decorating := false })
    (separated .parenR g.element)
  expect .parenR
  return all

/-- `name`, or `name = fallback`, which only a pattern may keep. -/
def shorthand (name : Name) : Reading Property := do
  if name.text = "await" || name.text = "yield" then
    checkName name.text name.span.start (← scope)
  if ← eat .assign then
    change (fun s => { s with unclaimed := name.span.start :: s.unclaimed }) fun _ =>
      .beside rfl rfl
    return .shorthand name [← g.oneWithIn]
  return .shorthand name []

def property : Reading Property := do
  let pos ← start
  if ← eat .ellipsis then
    let e ← g.oneWithIn
    recordTrailing .braceR pos
    return .spread (← spanFrom pos) e
  let mods ← modifiers
  unless mods.all (· = "async") do noteHere .modifierPlace
  let role ← accessorKind
  if role ≠ .plain && mods.contains "async" then noteHere .modifierPlace
  let isGenerator ← if role = .plain then eat .star else pure false
  let canBind ← isVariableName
  match ← kind with
  | .privateName _ => unexpected
  | _ => pure ()
  let key ← g.propertyKey
  if role ≠ .plain || isGenerator || (← isPunct .parenL) || (← isPunct .less) then
    let f ← g.functionRest (← start) none (mods.contains "async") isGenerator false
    checkAccessor role f
    let .mk span _ _ _ _ _ _ hasBody _ := f
    unless hasBody do throwAt span.start .bodyMissing
    return .method key role f
  unless mods.isEmpty do noteHere .modifierPlace
  match key with
  | .word n => if canBind && !(← isPunct .colon) then return ← g.shorthand n
  | _ => pure ()
  expect .colon
  return .pair key (← g.oneWithIn)

def objectLiteral : Reading Expr := do
  let pos ← start
  expect .braceL
  let properties ← within (fun sc => { sc with inOperator := true, decorating := false })
    (separated .braceR g.property)
  expect .braceR
  return .object (← spanFrom pos) properties

/-- The texts and substitutions of a template. An escape without meaning is noted unless a tag
reads the template. -/
def templateParts (isTagged : Bool) : Reading (List (Option String) × List Expr) :=
  loop ([], []) fun (texts, es) => do
    match ← kind with
    | .template text last =>
      if text.isNone && !isTagged then noteHere .meaninglessEscape
      let texts := texts ++ [text]
      advance
      if last then return .inr (texts, es)
      let e ← g.expressionWithIn
      unless ← isPunct .braceR do unexpected
      asTemplateRest
      return .inl (texts, es ++ [e])
    | _ => unexpected

def templateLiteral : Reading Expr := do
  let pos ← start
  let (texts, es) ← within (fun sc => { sc with decorating := false }) (g.templateParts false)
  return .template (← spanFrom pos) texts es

end Standin.Script.Grammar
