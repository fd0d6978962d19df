import Standin.Script.Grammar.Functions

namespace Standin.Script.Grammar

open Reading

variable (g : Grammar)

/-- The text of a key that is written out. -/
def keyText? : Key → Option String
  | .word n => some n.text
  | .string s => some s.value
  | _ => none

/-- A getter has no parameter and a setter has one, which is no rest element. -/
def checkAccessor (kind : MethodKind) (f : Func) : Reading Unit := do
  let .mk span _ _ _ _ params .. := f
  let fits : Bool := match kind, params with
    | .plain, _ => true
    | .getter, [] => true
    | .getter, [.mk _ (.name n _)] => n.text == "this"
    | .setter, [.mk _ (.rest ..)] => false
    | .setter, [_] => true
    | .setter, [.mk _ (.name n _), _] => n.text == "this"
    | _, _ => false
  unless fits do note span.start .accessorParams

/-- `get` and `set` before a key. -/
def accessorKind : Reading MethodKind := do
  match ← word? with
  | some "get" =>
    if ← nextIs beginsKey then
      advanceKeyword
      return .getter
    return .plain
  | some "set" =>
    if ← nextIs beginsKey then
      advanceKeyword
      return .setter
    return .plain
  | _ => return .plain

/-- A private name is no constructor, and its access is not to be told. -/
def checkPrivateName (mods : List String) : Key → Reading Unit
  | .privateName n => do
    if n.text = "constructor" then note n.span.start .constructorForm
    if mods.any isAccessibility then note n.span.start .modifierPlace
  | _ => return

def checkMethodName (mods : List String) (key : Key) (kind : MethodKind)
    (isGenerator : Bool) : Reading Unit := do
  let isStatic := mods.contains "static"
  checkPrivateName mods key
  if keyText? key = some "constructor" ∧ !isStatic then
    if kind ≠ .plain ∨ isGenerator ∨ mods.contains "async" then noteHere .constructorForm
  if keyText? key = some "prototype" ∧ isStatic then noteHere .staticPrototype

def checkFieldName (mods : List String) (key : Key) : Reading Unit := do
  checkPrivateName mods key
  if keyText? key = some "constructor" then noteHere .constructorForm
  if keyText? key = some "prototype" ∧ mods.contains "static" then noteHere .staticPrototype
  if mods.contains "async" then noteHere .modifierPlace

def methodRest (decorators : List Expr) (mods : List String) (key : Key) (kind : MethodKind)
    (isGenerator : Bool) : Reading Member := do
  checkMethodName mods key kind isGenerator
  let isStatic := mods.contains "static"
  let isConstructor := keyText? key == some "constructor" && !isStatic
  if mods.any ["readonly", "declare", "accessor"].contains then noteHere .modifierPlace
  if kind ≠ .plain && mods.contains "async" then noteHere .modifierPlace
  if isConstructor && (← isPunct .less) then noteHere .constructorForm
  let f ← g.functionRest (← start) none (mods.contains "async") isGenerator isConstructor
  checkAccessor kind f
  if isConstructor then checkNoThis f.params
  let .mk span _ _ _ _ _ _ hasBody _ := f
  if hasBody && mods.contains "abstract" then note span.start .bodyInDeclaration
  if isConstructor || !hasBody then
    match decorators with
    | d :: _ => note d.span.start .decoratorPlace
    | [] => pure ()
  return .method decorators isStatic key kind f

def fieldRest (decorators : List Expr) (mods : List String) (key : Key) : Reading Member := do
  checkFieldName mods key
  let types ← g.annotation
  let value ← if ← eat .assign then
      if mods.contains "abstract" then noteHere .bodyInDeclaration
      let e ← within (fun sc => { sc with awaits := false, yields := false }) g.oneWithIn
      pure [e]
    else pure []
  endStatement
  return .field decorators (mods.contains "static") key types value

def staticBlock : Reading Member := do
  advanceKeyword
  let body ← within (fun sc => { sc with awaits := true, yields := false, returns := false })
    g.statementsInBraces
  return .staticBlock body

def member : Reading Member := do
  let decorators ← g.decorators
  let mods ← modifiers
  if (← isWord "static") && (← nextIs fun t => t.kind == .punct .braceL) then
    match decorators with
    | d :: _ => note d.span.start .decoratorPlace
    | [] => pure ()
    return ← g.staticBlock
  if mods.any ["const", "in", "out", "export", "default"].contains then noteHere .modifierPlace
  unless ← typed do
    unless mods.all ["static", "async", "accessor"].contains do noteHere .modifierPlace
  if (← typed) && (← isPunct .bracketL) && (← lookahead isIndexSignature false) then
    let pos ← start
    checkModifiers ["readonly", "static"] mods
    let inner ← g.indexSignature
    return .indexSignature (.mk (← spanFrom pos) inner)
  let kind ← accessorKind
  let isGenerator ← if kind = .plain then eat .star else pure false
  let key ← g.propertyKey
  let isOptional ← if ← typed then eat .question else pure false
  if kind ≠ .plain || isGenerator || (← isPunct .parenL) || (← isPunct .less) then
    return ← g.methodRest decorators mods key kind isGenerator
  if (← typed) && (← isPunct .bang) then
    advance
    if isOptional then noteHere .modifierPlace
  g.fieldRest decorators mods key

def classMembers : Reading (List Member) := do
  expect .braceL
  let members ← loop [] fun back => do
    if ← eat .semicolon then return .inl back
    if ← isPunct .braceR then return .inr back.reverse
    return .inl ((← g.member) :: back)
  expect .braceR
  return members

/-- `extends` and `implements`: the superclass, its type arguments, and the types. -/
structure Heritage where
  superclass : List Expr := []
  arguments : List TypeTree := []
  implemented : List TypeTree := []
  implementing : Bool := false

/-- What a class extends, its type arguments apart. -/
def extended : Reading (Expr × List TypeTree) := do
  match ← g.access with
  | .instantiated _ e types => return (e, types)
  | e =>
    if (← typed) && (← isPunct .less) then return (e, ← g.typeArguments)
    return (e, [])

def heritage : Reading Heritage :=
  loop {} fun (h : Heritage) => do
    if ← isWord "extends" then
      if !h.superclass.isEmpty || h.implementing then noteHere .unexpectedToken
      advanceKeyword
      let (e, types) ← g.extended
      if ← eat .comma then
        unless ← typed do unexpected
        let _ ← g.extended
        noteHere .unexpectedToken
      return .inl { h with superclass := [e], arguments := types }
    if (← typed) && (← isWord "implements") then
      if h.implementing then noteHere .unexpectedToken
      advanceKeyword
      let more ← loop [] fun found => do
        let pos ← start
        entityName
        let inner ← g.argumentsOnLine
        let found := found ++ [TypeTree.mk (← spanFrom pos) inner]
        if ← eat .comma then return .inl found
        return .inr found
      return .inl { h with implementing := true, implemented := h.implemented ++ more }
    return .inr h

def classRest (pos : Nat) (decorators : List Expr) : Reading Class := do
  expectWord "class"
  let name ←
    if (← isVariableName) && !(← isWord "implements") then
      pure (some (← variableName))
    else pure none
  let typeParams ← g.typeParameters
  let h ← g.heritage
  let members ← within (fun sc => { sc with inOperator := true, decorating := false })
    g.classMembers
  return .mk (← spanFrom pos) name decorators typeParams h.superclass
    (h.arguments ++ h.implemented) members

end Standin.Script.Grammar
