import Standin.Script.Reading

namespace Standin.Script

/-- Where a statement stands. -/
inductive Place
  | list
  /-- As the only statement behind a head such as `if (…)`. -/
  | body
  | label
deriving DecidableEq, Repr

/-- The rules for nested pieces. No rule calls itself: it is given the rules to read its pieces with,
which are one level less deep, so the depth of nesting bounds the recursion. A rule for types gives
the expressions in computed keys. -/
structure Grammar where
  /-- Expressions parted by commas. -/
  expression : Reading Expr
  /-- One expression without a comma; the flag tells whether an arrow function may have a return
  type that could also be the other branch of a conditional. -/
  assignment : Bool → Reading Expr
  /-- An expression of operators that bind stronger than a level. -/
  binary : Nat → Reading Expr
  unary : Reading Expr
  access : Reading Expr
  primary : Reading Expr
  markup : Bool → Reading Expr
  pattern : Reading Pattern
  type : Reading (List Expr)
  typeOperator : Reading (List Expr)
  statement : Place → Reading Stmt

namespace Grammar

open Reading

def exhausted : Grammar where
  expression := refuse .tooDeep
  assignment _ := refuse .tooDeep
  binary _ := refuse .tooDeep
  unary := refuse .tooDeep
  access := refuse .tooDeep
  primary := refuse .tooDeep
  markup _ := refuse .tooDeep
  pattern := refuse .tooDeep
  type := refuse .tooDeep
  typeOperator := refuse .tooDeep
  statement _ := refuse .tooDeep

/-- An expression without a comma, where an arrow function may have a return type. -/
def one (g : Grammar) : Reading Expr := g.assignment true

/-- The same where `in` is an operator again. -/
def oneWithIn (g : Grammar) : Reading Expr :=
  within (fun sc => { sc with inOperator := true }) g.one

/-- A whole expression where `in` is an operator again. -/
def expressionWithIn (g : Grammar) : Reading Expr :=
  within (fun sc => { sc with inOperator := true }) g.expression

def typeTree (g : Grammar) : Reading TypeTree := do
  let start ← start
  let computed ← g.type
  return .mk (← spanFrom start) computed

/-- The statements up to a closing brace, which is read too. -/
def statementsInBraces (g : Grammar) : Reading (List Stmt) := do
  expect .braceL
  let body ← many (do return (← isPunct .braceR) || (← kind) == .eof) (g.statement .list)
  expect .braceR
  return body

/-- A property name: `[` holds a computed one. -/
def propertyKey (g : Grammar) : Reading Key := do
  let t ← token
  match t.kind with
  | .word w => advance; return .word ⟨⟨t.start, t.stop⟩, w⟩
  | .string .. => return .string (← stringLiteral)
  | .number => advance; return .number ⟨t.start, t.stop⟩
  | .privateName n => advance; return .privateName ⟨⟨t.start, t.stop⟩, n⟩
  | .punct .bracketL =>
    advance
    let e ← g.oneWithIn
    expect .bracketR
    return .computed e
  | _ => unexpected

/-- Whether a token can begin a property name. -/
def beginsKey (t : Token) : Bool :=
  match t.kind with
  | .word _ | .string .. | .number | .privateName _ | .punct .bracketL => true
  | _ => false

def followsModifier (t : Token) : Bool :=
  beginsKey t || t.kind == .punct .braceL || t.kind == .punct .star || t.kind == .punct .ellipsis

def computedIn : Key → List Expr
  | .computed e => [e]
  | _ => []

/-- Decorators: `@` and an access, call or parenthesis. -/
def decorators (g : Grammar) : Reading (List Expr) :=
  many (do return !(← isPunct .at)) do
    expect .at
    within (fun sc => { sc with decorating := true }) g.access

end Grammar

end Standin.Script

namespace Standin.Script.Grammar

open Reading

/-- The words that may stand before a member, and those that may only stand before them: a word of
the second list has to come after the first. -/
def memberModifiers : List (String × List String) :=
  [("public", ["override", "static", "accessor", "readonly", "async"]),
   ("private", ["override", "static", "accessor", "readonly", "async"]),
   ("protected", ["override", "static", "accessor", "readonly", "async"]),
   ("static", ["readonly", "async", "accessor", "override"]),
   ("override", ["readonly", "accessor", "async"]),
   ("abstract", []), ("accessor", []), ("async", []), ("declare", []), ("readonly", []),
   ("const", []), ("in", []), ("out", []), ("export", []), ("default", [])]

def isAccessibility (w : String) : Bool := ["public", "private", "protected"].contains w

def modifierFits (before : List String) (w : String) : Bool :=
  let late := ((memberModifiers.find? fun m => m.1 = w).map (·.2)).getD []
  !before.contains w && !(isAccessibility w && before.any isAccessibility) &&
    !before.any late.contains

/-- Whether the current word is a modifier here: something follows that it can modify, on the same
line unless the word is `static`. -/
def isModifier (w : String) : Reading Bool := do
  if (memberModifiers.find? fun m => m.1 = w).isNone then return false
  if w = "static" then
    return ← nextIs fun t => followsModifier t && t.kind != .punct .braceL
  nextIs fun t => followsModifier t && !t.onNewLine

/-- Reads modifiers and gives them in order. -/
def modifiers : Reading (List String) :=
  loop [] fun before => do
    match ← word? with
    | some w =>
      unless ← isModifier w do return .inr before.reverse
      if w = "static" && before.contains "static" then return .inr before.reverse
      unless modifierFits before w do noteHere .modifierPlace
      advanceKeyword
      return .inl (w :: before)
    | none => return .inr before.reverse

/-- Notes modifiers other than those that fit. -/
def checkModifiers (fitting : List String) (mods : List String) : Reading Unit := do
  unless mods.all fitting.contains do noteHere .modifierPlace

open Reading

/-- Whether an expression names one place to assign to. -/
def isPlace : Expr → Bool
  | .ident _ | .member .. | .privateMember .. | .index .. => true
  | .paren _ e | .nonNull _ e | .typed _ e _ | .asserted _ _ e => isPlace e
  | _ => false

/-- What is found in an expression that is taken as a target. -/
structure TargetParts where
  /-- Where parts stand that are no targets. -/
  bad : List Nat := []
  /-- Where shorthand properties stand, whose fallbacks the target claims. -/
  shorthands : List Nat := []
  rests : List Nat := []

instance : Append TargetParts where
  append a b := ⟨a.bad ++ b.bad, a.shorthands ++ b.shorthands, a.rests ++ b.rests⟩

mutual

def targetParts : Expr → TargetParts
  | .array _ elements => elementParts elements
  | .object _ properties => propertyParts properties
  | e => if isPlace e then {} else { bad := [e.span.start] }

def fallbackParts : Expr → TargetParts
  | .assign span op target _ =>
    if op = "=" then targetParts target else { bad := [span.start] }
  | e => targetParts e

def elementParts : List Element → TargetParts
  | [] => {}
  | .hole :: more => elementParts more
  | .one e :: more => fallbackParts e ++ elementParts more
  | [.spread span e] => { rests := [span.start] } ++ targetParts e
  | .spread span e :: more => { bad := [span.start] } ++ targetParts e ++ elementParts more

def propertyParts : List Property → TargetParts
  | [] => {}
  | .pair _ e :: more => fallbackParts e ++ propertyParts more
  | .shorthand name _ :: more => { shorthands := [name.span.start] } ++ propertyParts more
  | .method _ _ f :: more => { bad := [f.span.start] } ++ propertyParts more
  | [.spread span e] => { rests := [span.start] } ++ targetParts e
  | .spread span e :: more => { bad := [span.start] } ++ targetParts e ++ propertyParts more

end

/-- Takes an expression as a target: the fallbacks in it are claimed, and no comma may follow a rest
element. -/
def asTarget (e : Expr) : Reading Unit := do
  let parts := targetParts e
  match parts.bad with
  | position :: _ => throwAt position .invalidTarget
  | [] =>
    (parts.rests.filter (← ask (·.trailing)).contains).forM fun position => note position .misplacedRest
    change (fun s => { s with unclaimed := s.unclaimed.filter (!parts.shorthands.contains ·) })
      fun _ => .beside rfl rfl

/-- Takes an expression as the target of an operator that reads it too. -/
def asPlace (e : Expr) : Reading Unit := do
  unless isPlace e do throwAt e.span.start .invalidTarget

end Standin.Script.Grammar
