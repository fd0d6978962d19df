import Standin.Script.Grammar.Literals

namespace Standin.Script.Grammar

open Reading

variable (g : Grammar)

/-- Goes on behind the mark that ends a piece; inside an element, text follows. -/
def leave (isChild : Bool) : Reading Unit := if isChild then advanceInMarkup else advance

def markupWord : Reading String := do
  asMarkupName
  match ← kind with
  | .word w => advance; return w
  | _ => unexpected

/-- `a`, `a:b` or `a.b.c`. -/
def tagName : Reading String := do
  let first ← markupWord
  if ← eat .colon then return first ++ ":" ++ (← markupWord)
  loop first fun name => do
    if ← eat .dot then
      let part ← markupWord
      return .inl (name ++ "." ++ part)
    return .inr name

/-- `{e}` as the value of an attribute or as a child. -/
def markupContainer (isChild : Bool) : Reading (List Expr) := do
  expect .braceL
  let inner ← within (fun sc => { sc with inOperator := true, decorating := false }) do
    if ← isPunct .braceR then
      unless isChild do noteHere .markupExpression
      return []
    if isChild then
      let _ ← eat .ellipsis
    let e ← g.expression
    match e with
    | .sequence span _ => note span.start .markupExpression
    | _ => pure ()
    return [e]
  unless ← isPunct .braceR do unexpected
  leave isChild
  return inner

def attributeValue : Reading (List Expr) := do
  asMarkupString
  match ← kind with
  | .string .. =>
    advance
    return []
  | .punct .braceL => g.markupContainer false
  | .punct .less => return [← g.markup false]
  | _ => unexpected

def tagAttribute : Reading (List Expr) := do
  if ← eat .braceL then
    expect .ellipsis
    let e ← g.oneWithIn
    expect .braceR
    return [e]
  let _ ← markupWord
  if ← eat .colon then
    let _ ← markupWord
  if ← eat .assign then return ← g.attributeValue
  return []

def tagAttributes : Reading (List Expr) := do
  let all ← many (do return (← isPunct .greater) || (← isPunct .slash)) g.tagAttribute
  return all.flatten

/-- The children of an element up to the bracket of the closing tag. -/
def markupChildren : Reading (List Expr) :=
  loop [] fun found => do
    match ← kind with
    | .markupText =>
      advanceInMarkup
      return .inl found
    | .punct .braceL => return .inl (found ++ (← g.markupContainer true))
    | .punct .less =>
      if ← nextIs (·.kind == .punct .slash) then return .inr found
      return .inl (found ++ [← g.markup true])
    | _ => unexpected

/-- The closing tag, whose name is that of the opening one. -/
def closingTag (name : String) (isChild : Bool) : Reading Unit := do
  expect .less
  expect .slash
  let closing ← if ← isPunct .greater then pure "" else tagName
  if closing ≠ name then noteHere .markupMismatch
  unless ← isPunct .greater do unexpected
  leave isChild

def markupRule (isChild : Bool) : Reading Expr := do
  let pos ← start
  expect .less
  if ← isPunct .greater then
    advanceInMarkup
    let children ← g.markupChildren
    closingTag "" isChild
    return .markup (← spanFrom pos) children
  let name ← tagName
  let types ← if (← typed) && (← isPunct .less) then g.typeArguments else pure []
  let attributes ← g.tagAttributes
  let parts := computedOf types ++ attributes
  if ← eat .slash then
    unless ← isPunct .greater do unexpected
    leave isChild
    return .markup (← spanFrom pos) parts
  unless ← isPunct .greater do unexpected
  advanceInMarkup
  let children ← g.markupChildren
  closingTag name isChild
  return .markup (← spanFrom pos) (parts ++ children)

end Standin.Script.Grammar
