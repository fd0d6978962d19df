namespace Standin.Script

/-- Positions count characters from the start of the text. -/
structure Span where
  start : Nat
  stop : Nat
deriving DecidableEq, Repr

structure Name where
  span : Span
  text : String
deriving DecidableEq, Repr

structure StringLiteral where
  span : Span
  value : String
  /-- Whether an escape names half of a surrogate pair. -/
  halved : Bool := false
deriving DecidableEq, Repr

inductive BindingKind
  | functionScoped
  | blockScoped
  | constant
  /-- `using` and `await using` -/
  | resource
deriving DecidableEq, Repr

/-- What a method of an object or a class is called for. -/
inductive MethodKind
  | plain
  | getter
  | setter
deriving DecidableEq, Repr

/-- A name in an export or import list. -/
inductive ExportName
  | word (name : Name)
  | literal (value : StringLiteral)
deriving DecidableEq, Repr

namespace ExportName

def text : ExportName → String
  | word n => n.text
  | literal s => s.value

def span : ExportName → Span
  | word n => n.span
  | literal s => s.span

end ExportName

/-- `inner as outer` in an export list; `outer` is the name the module shows. -/
structure ExportSpecifier where
  inner : ExportName
  outer : ExportName
  typeOnly : Bool := false
deriving DecidableEq, Repr

/-- A binding of an import declaration: what is imported, and the local name. -/
inductive ImportSpecifier
  | default (name : Name)
  | all (name : Name)
  | named (imported : ExportName) (name : Name) (typeOnly : Bool)
deriving DecidableEq, Repr

/-- Where a module request leads, and the attributes it carries. -/
structure Request where
  source : StringLiteral
  attributes : List (ExportName × StringLiteral) := []
deriving DecidableEq, Repr

mutual

/-- A type; of its content only the expressions in computed keys are kept. -/
inductive TypeTree
  | mk (span : Span) (computed : List Expr)

inductive Expr
  | ident (name : Name)
  /-- A number, a big integer, a regular expression or null. -/
  | literal (span : Span)
  | boolean (span : Span) (value : Bool)
  | string (value : StringLiteral)
  | thisExpr (span : Span)
  | superExpr (span : Span)
  /-- A template: its texts, none where an escape has no meaning, and its substitutions. -/
  | template (span : Span) (texts : List (Option String)) (substitutions : List Expr)
  | tagged (span : Span) (tag : Expr) (types : List TypeTree) (substitutions : List Expr)
  | array (span : Span) (elements : List Element)
  | object (span : Span) (properties : List Property)
  | functionExpr (function : Func)
  | arrow (span : Span) (isAsync : Bool) (typeParams : List TypeTree) (params : List Param)
      (result : List TypeTree) (body : List Stmt)
  | classExpr (cls : Class)
  | unary (span : Span) (op : String) (operand : Expr)
  | update (span : Span) (op : String) (target : Expr)
  | binary (span : Span) (op : String) (left right : Expr)
  | privateIn (span : Span) (name : Name) (right : Expr)
  | assign (span : Span) (op : String) (target value : Expr)
  | conditional (span : Span) (test yes no : Expr)
  | call (span : Span) (callee : Expr) (types : List TypeTree) (arguments : List Element)
  | newExpr (span : Span) (callee : Expr) (types : List TypeTree) (arguments : List Element)
  | importCall (span : Span) (source : Expr) (options : List Expr)
  | member (span : Span) (object : Expr) (property : Name)
  | privateMember (span : Span) (object : Expr) (property : Name)
  | index (span : Span) (object : Expr) (key : Expr)
  /-- An expression that holds an optional access. -/
  | chain (span : Span) (inner : Expr)
  | sequence (span : Span) (items : List Expr)
  | paren (span : Span) (inner : Expr)
  | awaitExpr (span : Span) (operand : Expr)
  | yieldExpr (span : Span) (operand : List Expr)
  /-- `import.meta` and `new.target`. -/
  | metaProperty (span : Span)
  /-- A markup element: the expressions and elements inside it. -/
  | markup (span : Span) (parts : List Expr)
  /-- `e as T` and `e satisfies T`. -/
  | typed (span : Span) (inner : Expr) (type : TypeTree)
  /-- `<T>e`. -/
  | asserted (span : Span) (type : TypeTree) (inner : Expr)
  | nonNull (span : Span) (inner : Expr)
  /-- `e<T>` without a call. -/
  | instantiated (span : Span) (inner : Expr) (types : List TypeTree)

/-- An element of an array or an argument of a call. -/
inductive Element
  | hole
  | one (value : Expr)
  | spread (span : Span) (value : Expr)

inductive Key
  | word (name : Name)
  | string (value : StringLiteral)
  | number (span : Span)
  | computed (value : Expr)
  | privateName (name : Name)

inductive Property
  | pair (key : Key) (value : Expr)
  /-- `name`, or `name = fallback` where the object stands for a pattern. -/
  | shorthand (name : Name) (fallback : List Expr)
  | method (key : Key) (kind : MethodKind) (function : Func)
  | spread (span : Span) (value : Expr)

inductive Pattern
  | name (name : Name) (types : List TypeTree)
  | object (span : Span) (properties : List PatternProperty) (types : List TypeTree)
  | array (span : Span) (elements : List Pattern) (types : List TypeTree)
  /-- A left out element of an array pattern. -/
  | hole
  | rest (span : Span) (inner : Pattern)
  | fallback (inner : Pattern) (value : Expr)

inductive PatternProperty
  | pair (key : Key) (value : Pattern)
  | rest (inner : Pattern)

inductive Param
  | mk (decorators : List Expr) (pattern : Pattern)

inductive Func
  | mk (span : Span) (name : Option Name) (isAsync isGenerator : Bool)
      (typeParams : List TypeTree) (params : List Param) (result : List TypeTree) (hasBody : Bool)
      (body : List Stmt)

inductive Class
  /-- The types are the arguments of the superclass and what the class implements. -/
  | mk (span : Span) (name : Option Name) (decorators : List Expr) (typeParams : List TypeTree)
      (superclass : List Expr) (types : List TypeTree) (members : List Member)

inductive Member
  | method (decorators : List Expr) (isStatic : Bool) (key : Key) (kind : MethodKind)
      (function : Func)
  | field (decorators : List Expr) (isStatic : Bool) (key : Key) (types : List TypeTree)
      (value : List Expr)
  | staticBlock (body : List Stmt)
  | indexSignature (type : TypeTree)

inductive Declarator
  | mk (pattern : Pattern) (value : List Expr)

inductive Decl
  | variable (span : Span) (kind : BindingKind) (declared : Bool) (declarators : List Declarator)
  | function (declared : Bool) (function : Func)
  | classDecl (declared : Bool) (cls : Class)
  | typeAlias (span : Span) (name : Name) (type : TypeTree)
  | interface (span : Span) (name : Name) (types : List TypeTree)
  | enumDecl (span : Span) (declared : Bool) (name : Name) (values : List Expr)
  /-- `namespace a.b`, `module "m"` or `global`. -/
  | namespaceDecl (span : Span) (declared : Bool) (name : List Name) (body : List Stmt)
  /-- `import a = b.c` and `import a = require("m")`. -/
  | alias (span : Span) (typeOnly : Bool) (name : Name) (request : Option StringLiteral)

inductive DefaultValue
  | function (function : Func)
  | classDecl (cls : Class)
  | interface (name : Name) (types : List TypeTree)
  | expr (value : Expr)

inductive Stmt
  | expr (span : Span) (value : Expr)
  | block (span : Span) (body : List Stmt)
  | empty (span : Span)
  | ifThen (span : Span) (test : Expr) (yes : Stmt) (no : List Stmt)
  | doWhile (span : Span) (body : Stmt) (test : Expr)
  | whileDo (span : Span) (test : Expr) (body : Stmt)
  | forLoop (span : Span) (start : List Stmt) (test update : List Expr) (body : Stmt)
  /-- `for … in` and `for … of`. -/
  | forEach (span : Span) (left : Stmt) (right : Expr) (body : Stmt)
  /-- `break` and `continue`. -/
  | jump (span : Span) (label : Option Name)
  | ret (span : Span) (value : List Expr)
  | throwing (span : Span) (value : Expr)
  | switchOn (span : Span) (value : Expr) (cases : List Case)
  | attempt (span : Span) (body : List Stmt) (caught : List Pattern) (handler final : List Stmt)
  | labeled (span : Span) (label : Name) (body : Stmt)
  | inScope (span : Span) (object : Expr) (body : Stmt)
  | debugger (span : Span)
  | decl (decl : Decl)
  | imports (span : Span) (typeOnly : Bool) (specifiers : List ImportSpecifier) (request : Request)
  | exportDecl (span : Span) (decl : Decl)
  | exportDefault (span : Span) (value : DefaultValue)
  | exportList (span : Span) (typeOnly : Bool) (specifiers : List ExportSpecifier)
      (request : Option Request)
  | exportAll (span : Span) (typeOnly : Bool) (name : Option ExportName) (request : Request)
  /-- `export = e`. -/
  | exportAssign (span : Span) (value : Expr)
  /-- `export as namespace n`. -/
  | exportGlobal (span : Span) (name : Name)

inductive Case
  | mk (test : List Expr) (body : List Stmt)

end

structure Program where
  body : List Stmt

namespace Program

def empty : Program := ⟨[]⟩

end Program

def Func.span : Func → Span
  | .mk span .. => span

def Func.name? : Func → Option Name
  | .mk _ name .. => name

def Func.params : Func → List Param
  | .mk _ _ _ _ _ params .. => params

def Class.span : Class → Span
  | .mk span .. => span

def Class.name? : Class → Option Name
  | .mk _ name .. => name

def Decl.span : Decl → Span
  | .variable span .. => span
  | .function _ f => f.span
  | .classDecl _ c => c.span
  | .typeAlias span .. => span
  | .interface span .. => span
  | .enumDecl span .. => span
  | .namespaceDecl span .. => span
  | .alias span .. => span

def Expr.span : Expr → Span
  | .ident n => n.span
  | .string s => s.span
  | .functionExpr f => f.span
  | .classExpr c => c.span
  | .literal span | .boolean span _ | .thisExpr span | .superExpr span | .template span ..
  | .tagged span .. | .array span _ | .object span _ | .arrow span .. | .unary span ..
  | .update span .. | .binary span .. | .privateIn span .. | .assign span ..
  | .conditional span .. | .call span .. | .newExpr span .. | .importCall span ..
  | .member span .. | .privateMember span .. | .index span .. | .chain span _
  | .sequence span _ | .paren span _ | .awaitExpr span _ | .yieldExpr span _
  | .metaProperty span | .markup span _ | .typed span .. | .asserted span .. | .nonNull span _
  | .instantiated span .. => span

def Stmt.span : Stmt → Span
  | .decl d => d.span
  | .expr span _ | .block span _ | .empty span | .ifThen span .. | .doWhile span ..
  | .whileDo span .. | .forLoop span .. | .forEach span .. | .jump span _ | .ret span _
  | .throwing span _ | .switchOn span .. | .attempt span .. | .labeled span .. | .inScope span ..
  | .debugger span | .imports span .. | .exportDecl span _ | .exportDefault span _
  | .exportList span .. | .exportAll span .. | .exportAssign span _ | .exportGlobal span _ => span

def DefaultValue.span? : DefaultValue → Option Span
  | .function f => some f.span
  | .classDecl c => some c.span
  | .interface .. => none
  | .expr e => some e.span

/-- What a top-level export shows. -/
def Stmt.shown? : Stmt → Option Span
  | .exportDecl _ d => some d.span
  | .exportDefault _ value => value.span?
  | _ => none

end Standin.Script
