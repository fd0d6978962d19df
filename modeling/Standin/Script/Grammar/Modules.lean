import Standin.Script.Grammar.Declarations

namespace Standin.Script.Grammar

open Reading

variable (g : Grammar)

def attributeEntry : Reading (ExportName × StringLiteral) := do
  let key ← match ← kind with
    | .string .. => pure (ExportName.literal (← stringLiteral))
    | _ => pure (ExportName.word (← anyName))
  expect .colon
  return (key, ← stringLiteral)

/-- `with { … }`, or `assert { … }` on the same line. -/
def importAttributes : Reading (List (ExportName × StringLiteral)) := do
  let present := (← isWord "with") || ((← isWord "assert") && !(← onNewLine))
  unless present do return []
  advanceKeyword
  expect .braceL
  let entries ← separated .braceR attributeEntry
  expect .braceR
  return entries

def request : Reading Request := do
  let source ← stringLiteral
  return ⟨source, ← importAttributes⟩

/-- A name in a list of imports or exports: any word, or a string without halves of pairs. -/
def listedName : Reading ExportName := do
  match ← kind with
  | .string .. =>
    let s ← stringLiteral
    if s.halved then note s.span.start .exportedLiteral
    return .literal s
  | _ => return .word (← anyName)

def isListedName : Reading Bool := do
  match ← kind with
  | .word _ | .string .. => return true
  | _ => return false

/-- Two names around `as`, or one name, with `type` before them or not. -/
structure Listed where
  inner : ExportName
  outer : ExportName
  typeOnly : Bool

def isText (text : String) : ExportName → Bool
  | .word n => n.text == text
  | _ => false

/-- `name as outer` behind its first name. -/
def listedRest (inner : ExportName) (typeOnly : Bool) : Reading Listed := do
  if ← eatWord "as" then return ⟨inner, ← listedName, typeOnly⟩
  return ⟨inner, inner, typeOnly⟩

/-- Behind `type as`: each further `as` may be the word or a name. -/
def listedBehindAs (word firstAs : ExportName) : Reading Listed := do
  if ← isWord "as" then
    let secondAs := ExportName.word (← anyName)
    if ← isListedName then return ⟨firstAs, ← listedName, true⟩
    return ⟨word, secondAs, false⟩
  if ← isListedName then return ⟨word, ← listedName, false⟩
  return ⟨firstAs, firstAs, true⟩

/-- An entry of a list of imports or exports. `type` is a mark when a name follows that could not
follow a name. -/
def listed : Reading Listed := do
  let name ← listedName
  unless (← typed) && isText "type" name do return ← listedRest name false
  if ← isWord "as" then
    let firstAs := ExportName.word (← anyName)
    return ← listedBehindAs name firstAs
  if ← isListedName then return ← listedRest (← listedName) true
  return ⟨name, name, false⟩

/-- The local name of an import, which must be able to name a variable. -/
def localName : ExportName → Reading Name
  | .word n => do
    if isReserved n.text then throwAt n.span.start .reservedWord
    checkName n.text n.span.start (← scope)
    return n
  | .literal s => throwAt s.span.start .expectedName

def importSpecifier (typeOnly : Bool) : Reading ImportSpecifier := do
  let pos ← start
  let l ← listed
  if typeOnly && l.typeOnly then note pos .modifierPlace
  return .named l.inner (← localName l.outer) l.typeOnly

/-- `* as name` or `{ … }`. Where the whole list holds types, no entry may say so again. -/
def importList (typeOnly : Bool) : Reading (List ImportSpecifier) := do
  if ← eat .star then
    expectWord "as"
    return [.all (← variableName)]
  expect .braceL
  let specifiers ← separated .braceR (importSpecifier typeOnly)
  expect .braceR
  return specifiers

def opensImportList : Reading Bool := return (← isPunct .star) || (← isPunct .braceL)

def importClause (typeOnly : Bool) (first : Option Name) : Reading (List ImportSpecifier) := do
  match first with
  | none => importList typeOnly
  | some name =>
    if ← eat .comma then return .default name :: (← importList typeOnly)
    return [.default name]

/-- Whether the word that was read is no name but says what kind of import follows. -/
def isImportMark (word : Name) : Reading Bool := do
  let namesMore ← isVariableName
  match word.text with
  | "type" =>
    if !(← typed) then return false
    if ← opensImportList then return true
    unless namesMore do return false
    if ← isWord "from" then
      nextIs fun t => t.kind == .word "from" || t.kind == .punct .assign
    else return true
  | "source" => return namesMore && (!(← isWord "from") || (← nextIs (·.kind == .word "from")))
  | "defer" => isPunct .star
  | _ => return false

/-- An import declaration behind its first name, if it has one; an alias where types are allowed. -/
def importNames (pos : Nat) (typeOnly : Bool) (first : Option Name) : Reading Stmt := do
  if let some name := first then
    if (← typed) && (← isPunct .assign) then
      return .decl (← aliasRest pos typeOnly name)
  let specifiers ← importClause typeOnly first
  expectWord "from"
  let r ← request
  endStatement
  return .imports (← spanFrom pos) typeOnly specifiers r

/-- An import declaration behind its keyword. -/
def importRest (pos : Nat) : Reading Stmt := do
  if let .string .. := ← kind then
    let r ← request
    endStatement
    return .imports (← spanFrom pos) false [] r
  let word ← if ← isVariableName then pure (some (← variableName)) else pure none
  let marked ← match word with
    | some w => isImportMark w
    | none => pure false
  let typeOnly := marked && word.any (·.text = "type")
  let first ←
    if marked then
      if ← isVariableName then pure (some (← variableName)) else pure none
    else pure word
  importNames pos typeOnly first

/-- Notes what an export list without a source may not name. -/
def checkLocal (s : ExportSpecifier) : Reading Unit := do
  match s.inner with
  | .literal v => note v.span.start .exportedLiteral
  | .word n =>
    if isReserved n.text || strictWords.contains n.text || ["yield", "await"].contains n.text then
      note n.span.start .exportedReserved

def exportSpecifier (typeOnly : Bool) : Reading ExportSpecifier := do
  let pos ← start
  let l ← listed
  if typeOnly && l.typeOnly then note pos .modifierPlace
  return ⟨l.inner, l.outer, l.typeOnly⟩

def exportList (pos : Nat) (typeOnly : Bool) : Reading Stmt := do
  expect .braceL
  let specifiers ← separated .braceR (exportSpecifier typeOnly)
  expect .braceR
  let source ← if ← eatWord "from" then pure (some (← request)) else pure none
  if source.isNone then specifiers.forM checkLocal
  endStatement
  return .exportList (← spanFrom pos) typeOnly specifiers source

def exportAll (pos : Nat) (typeOnly : Bool) : Reading Stmt := do
  expect .star
  let name ← if ← eatWord "as" then pure (some (← listedName)) else pure none
  expectWord "from"
  let r ← request
  endStatement
  return .exportAll (← spanFrom pos) typeOnly name r

/-- Decorators behind `export`, which may not also stand before it. -/
def innerDecorators (outer : List Expr) : Reading (List Expr) := do
  match outer, ← g.decorators with
  | _ :: _, d :: _ =>
    note d.span.start .decoratorPlace
    return outer ++ [d]
  | outer, inner => return outer ++ inner

/-- A default export that is no class: a function, an interface or a value. -/
def plainDefault (pos : Nat) : Reading DefaultValue := do
  if ← isFunctionAhead then
    return .function (← g.functionDeclaration pos (← isWord "async") false)
  let namesInterface ← nextIs fun t => match t.kind with
    | .word w => !t.onNewLine && !isReserved w
    | _ => false
  if (← typed) && (← isWord "interface") && namesInterface then
    advanceKeyword
    let (name, types) ← g.interfaceRest
    return .interface name types
  let e ← g.one
  endStatement
  return .expr e

/-- What a default export shows, behind `default`. -/
def defaultValue (decorators : List Expr) : Reading DefaultValue := do
  let pos ← start
  let decorators ← if ← isPunct .at then g.innerDecorators decorators else pure decorators
  if (← isWord "abstract") && (← nextIs fun t => t.kind == .word "class" && !t.onNewLine) &&
      (← typed) then
    advanceKeyword
  if ← isWord "class" then return .classDecl (← g.classRest pos decorators)
  match decorators with
  | d :: _ => note d.span.start .decoratorPlace
  | [] => pure ()
  g.plainDefault pos

def exportDeclared (pos : Nat) (decorators : List Expr) : Reading Stmt := do
  let declFrom ← start
  let decorators ← g.innerDecorators decorators
  let d ← g.declaration declFrom decorators
  match d with
  | .variable .. => endStatement
  | _ => pure ()
  return .exportDecl (← spanFrom pos) d

/-- Words behind `export` that begin a statement of their own where types are allowed. -/
def exportRule (decorators : List Expr) : Reading Stmt := do
  let pos ← start
  expectWord "export"
  match ← kind with
  | .punct .star => exportAll pos false
  | .punct .braceL => exportList pos false
  | .word "default" =>
    advanceKeyword
    let value ← g.defaultValue decorators
    return .exportDefault (← spanFrom pos) value
  | .punct .assign =>
    unless ← typed do unexpected
    advance
    let e ← g.expression
    endStatement
    return .exportAssign (← spanFrom pos) e
  | .word "as" =>
    unless ← typed do unexpected
    advanceKeyword
    expectWord "namespace"
    let name ← variableName
    endStatement
    return .exportGlobal (← spanFrom pos) name
  | .word "import" =>
    unless ← typed do unexpected
    let innerFrom ← start
    advanceKeyword
    match ← importRest innerFrom with
    | .decl d => return .exportDecl (← spanFrom pos) d
    | _ => throwAt innerFrom .unexpectedToken
  | .word "type" =>
    if (← typed) && (← nextIs (·.kind == .punct .braceL)) then
      advanceKeyword
      exportList pos true
    else if (← typed) && (← nextIs (·.kind == .punct .star)) then
      advanceKeyword
      exportAll pos true
    else g.exportDeclared pos decorators
  | _ => g.exportDeclared pos decorators

end Standin.Script.Grammar
