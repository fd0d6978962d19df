import Standin.Script.Grammar.Expressions

namespace Standin.Script.Grammar

open Reading

variable (g : Grammar)

/-- Whether a declarator stands in the head of a loop, where it may lack a value. -/
inductive DeclaratorPlace
  | statement
  | loopHead
deriving DecidableEq

def needsValue (kind : BindingKind) : Pattern → Bool
  | .object .. | .array .. => true
  | _ => kind = .constant || kind = .resource

/-- Constants and patterns need a value, where the text is not a mere description. -/
def checkInitializer (kind : BindingKind) : Declarator → Reading Unit
  | .mk p [] => do
    if needsValue kind p && !(← scope).ambient then noteHere .missingInitializer
  | _ => return

def declarator (kind : BindingKind) (place : DeclaratorPlace) : Reading Declarator := do
  let p ← g.pattern
  if ← typed then
    if (← isPunct .bang) && !(← onNewLine) then advance
    let _ ← eat .question
  let p := typedPattern p (← g.annotation)
  let value ← if ← eat .assign then pure [← g.one] else pure []
  let d := Declarator.mk p value
  if place = .statement then checkInitializer kind d
  return d

def bindingKind : Reading BindingKind := do
  match ← word? with
  | some "var" => advanceKeyword; return .functionScoped
  | some "let" => advanceKeyword; return .blockScoped
  | some "const" => advanceKeyword; return .constant
  | some "using" => advanceKeyword; return .resource
  | some "await" =>
    advanceKeyword
    expectWord "using"
    return .resource
  | _ => unexpected

def declarators (kind : BindingKind) (place : DeclaratorPlace) : Reading (List Declarator) :=
  loop [] fun back => do
    let d ← g.declarator kind place
    if ← eat .comma then return .inl (d :: back)
    return .inr (d :: back).reverse

def variableDeclaration (pos : Nat) (declared : Bool) (place : DeclaratorPlace) :
    Reading Decl := do
  let kind ← bindingKind
  let ds ← g.declarators kind place
  return .variable (← spanFrom pos) kind declared ds

/-- Whether `let` begins a declaration here. -/
def isLetDeclaration : Reading Bool := do
  return (← isWord "let") && !(← token).escaped && (← nextIs fun t => match t.kind with
    | .word w => w ≠ "in" && w ≠ "instanceof"
    | .punct .bracketL | .punct .braceL => true
    | _ => false)

/-- Whether `using x` or `await using x` begins here. -/
def isUsingDeclaration : Reading Bool := do
  let namesVariable (t : Token) : Bool := match t.kind with
    | .word w => !t.onNewLine && !isReserved w
    | _ => false
  match ← word? with
  | some "using" =>
    lookahead (do
      advance
      let t ← token
      return namesVariable t && t.kind != .word "of") false
  | some "await" =>
    lookahead (do
      advance
      unless (← isWord "using") && !(← onNewLine) do return false
      advance
      return namesVariable (← token)) false
  | _ => return false

def beginsVariables : Reading Bool := do
  match ← word? with
  | some "var" | some "const" => return true
  | some "let" => isLetDeclaration
  | some "using" | some "await" => isUsingDeclaration
  | _ => return false

def typeAlias (pos : Nat) : Reading Decl := do
  expectWord "type"
  let name ← variableName
  let own ← g.typeParameters
  expect .assign
  let body ← g.typeTree
  endStatement
  let computed := computedOf own ++ computedOf [body]
  return .typeAlias (← spanFrom pos) name (.mk body.1 computed)

def extendedTypes : Reading (List TypeTree) := do
  unless ← eatWord "extends" do return []
  loop [] fun found => do
    let pos ← start
    entityName
    let inner ← g.argumentsOnLine
    let found := found ++ [TypeTree.mk (← spanFrom pos) inner]
    if ← eat .comma then return .inl found
    return .inr found

/-- The name and the types of an interface behind its keyword. -/
def interfaceRest : Reading (Name × List TypeTree) := do
  let name ← variableName
  let own ← g.typeParameters
  let bases ← g.extendedTypes
  let bodyFrom ← start
  let members ← g.typeMembers
  return (name, own ++ bases ++ [.mk (← spanFrom bodyFrom) members])

def interfaceDeclaration (pos : Nat) : Reading Decl := do
  expectWord "interface"
  let (name, types) ← g.interfaceRest
  return .interface (← spanFrom pos) name types

/-- A name in an enumeration is a word or a string, in brackets or not. -/
def enumMember : Reading (List Expr) := do
  match ← kind with
  | .number | .privateName _ =>
    noteHere .enumMember
    advance
  | .punct .bracketL =>
    match ← g.propertyKey with
    | .computed (.string _) => pure ()
    | .computed (.template _ _ []) => pure ()
    | _ => noteHere .enumMember
  | .template .. =>
    let _ ← g.templateLiteral
  | _ =>
    let _ ← g.propertyKey
  if ← eat .assign then return [← g.oneWithIn]
  return []

def enumDeclaration (pos : Nat) (declared : Bool) : Reading Decl := do
  let _ ← eatWord "const"
  expectWord "enum"
  let name ← variableName
  expect .braceL
  let values ← separated .braceR g.enumMember
  expect .braceR
  return .enumDecl (← spanFrom pos) declared name values.flatten

def namespaceBody (declared : Bool) : Reading (List Stmt) :=
  within (fun sc => { sc with ambient := sc.ambient || declared, awaits := false })
    g.statementsInBraces

/-- `module "m" { … }` behind its keyword; the body may be missing. -/
def moduleText (pos : Nat) (declared : Bool) (name : StringLiteral) : Reading Decl := do
  let body ←
    if ← isPunct .braceL then g.namespaceBody declared
    else do
      endStatement
      pure []
  return .namespaceDecl (← spanFrom pos) declared [⟨name.span, name.value⟩] body

def namespaceDeclaration (pos : Nat) (declared : Bool) : Reading Decl := do
  let first ← anyName
  if first.text = "global" then
    let body ← g.namespaceBody declared
    return .namespaceDecl (← spanFrom pos) declared [first] body
  if first.text = "module" then
    if let .string .. := ← kind then return ← g.moduleText pos declared (← stringLiteral)
  let names ← loop [← variableName] fun found => do
    if ← eat .dot then return .inl (found ++ [← anyName])
    return .inr found
  let body ← g.namespaceBody declared
  return .namespaceDecl (← spanFrom pos) declared names body

/-- The rest of `import a = b.c` and `import a = require("m")` behind the name. -/
def aliasRest (pos : Nat) (typeOnly : Bool) (name : Name) : Reading Decl := do
  expect .assign
  let request ←
    if (← isWord "require") && (← nextIs (·.kind == .punct .parenL)) then
      advance
      advance
      let s ← stringLiteral
      expect .parenR
      pure (some s)
    else
      entityName
      pure none
  endStatement
  return .alias (← spanFrom pos) typeOnly name request

def isEnumAhead : Reading Bool := nextIs (·.kind == .word "enum")

/-- Whether words that are names elsewhere begin a declaration here. -/
def beginsTypedDeclaration : Reading Bool :=
  lookahead (loop () fun _ => do
    match ← word? with
    | none => return .inr false
    | some w =>
      if ["var", "let", "const", "function", "class", "enum"].contains w then return .inr true
      advance
      match w with
      | "interface" | "type" => return .inr ((← isVariableName) && !(← onNewLine))
      | "module" | "namespace" =>
        let isText := match ← kind with
          | .string .. => true
          | _ => false
        return .inr (!(← onNewLine) && ((← isVariableName) || isText))
      | "global" =>
        return .inr ((← isPunct .braceL) || (← isVariableName) || (← isWord "export"))
      | "import" =>
        let isText := match ← kind with
          | .string .. => true
          | _ => false
        return .inr (isText || (← isPunct .star) || (← isPunct .braceL) || (← isAnyName))
      | "static" => return .inl ()
      | w =>
        if ["abstract", "accessor", "async", "declare", "private", "protected", "public",
            "readonly"].contains w then
          if ← onNewLine then return .inr false
          return .inl ()
        return .inr false) false

def declarationModifiers : Reading (List String) :=
  loop [] fun found => do
    match ← word? with
    | some w =>
      let words := ["declare", "abstract", "private", "protected", "public", "readonly",
        "accessor", "static", "export", "default"]
      if words.contains w && (← nextIs fun t => followsModifier t && !t.onNewLine) then
        unless modifierFits found w do noteHere .modifierPlace
        advanceKeyword
        return .inl (found ++ [w])
      return .inr found
    | none => return .inr found

/-- Whether a function begins here, with `async` or without. -/
def isFunctionAhead : Reading Bool := do
  return (← isWord "function") || (← isAsyncFunction)

/-- A function that is declared to exist elsewhere has no body. -/
def checkBody (declared : Bool) (f : Func) : Reading Unit := do
  let .mk span _ _ _ _ _ _ hasBody _ := f
  if hasBody && (declared || (← scope).ambient) then note span.start .bodyInDeclaration

/-- The declaration that the word behind its modifiers begins. -/
def declarationOfWord (pos : Nat) (mods : List String) (decorators : List Expr) :
    Reading Decl := do
  let declared := mods.contains "declare"
  match ← word? with
  | some "class" =>
    checkModifiers ["declare", "abstract"] mods
    return .classDecl declared (← g.classRest pos decorators)
  | some "const" =>
    checkModifiers ["declare"] mods
    if (← typed) && (← isEnumAhead) then g.enumDeclaration pos declared
    else g.variableDeclaration pos declared .statement
  | some w =>
    checkModifiers ["declare"] mods
    if ← isFunctionAhead then
      let f ← g.functionDeclaration pos (w = "async") true
      checkBody declared f
      return .function declared f
    if ← beginsVariables then
      return ← g.variableDeclaration pos declared .statement
    unless ← typed do unexpected
    match w with
    | "interface" => g.interfaceDeclaration pos
    | "type" => g.typeAlias pos
    | "enum" => g.enumDeclaration pos declared
    | "namespace" | "module" | "global" => g.namespaceDeclaration pos declared
    | "import" =>
      advanceKeyword
      let name ← variableName
      aliasRest pos false name
    | _ => unexpected
  | none => unexpected

/-- The declaration behind its modifiers; decorators belong to a class. A declaration of variables
leaves its end to what it stands in. -/
def declarationRest (pos : Nat) (mods : List String) (decorators : List Expr) :
    Reading Decl := do
  unless (← typed) || mods.isEmpty do unexpected
  if !(← isWord "class") then
    match decorators with
    | d :: _ => note d.span.start .decoratorPlace
    | [] => pure ()
  within (fun sc => { sc with ambient := sc.ambient || mods.contains "declare" })
    (g.declarationOfWord pos mods decorators)

def declaration (pos : Nat) (decorators : List Expr) : Reading Decl := do
  g.declarationRest pos (← declarationModifiers) decorators

end Standin.Script.Grammar
