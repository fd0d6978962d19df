import Standin.Script.Calls

namespace Standin

open Script

/-- A registration before its specifier is resolved. -/
structure Registration where
  specifier : String
  spy : Bool
  span : Span
deriving DecidableEq, Repr

namespace Registration

/-- What stands where a specifier should. -/
inductive Found
  | substitutions
  | invalidTemplate
  | computedImport
  | spread
  | identifier
  | computed
deriving DecidableEq, Repr

def Found.text : Found → String
  | substitutions => "a template literal with substitutions"
  | invalidTemplate => "an invalid template literal"
  | computedImport => "a dynamic import of a computed specifier"
  | spread => "a spread argument"
  | identifier => "an identifier"
  | computed => "a computed expression"

/-- Why a call registers nothing. -/
inductive Skipped
  | noSpecifier
  | notLiteral (found : Found)
deriving DecidableEq, Repr

def Skipped.message : Skipped → String
  | noSpecifier => "mock registration without a module specifier"
  | notLiteral found =>
    s!"mock registration specifier must be a string literal, found {found.text}"

/-- What is wrong with the options of a call that registers a module all the same. -/
inductive BadOptions
  | spyNotLiteral
  | spread
  | notObject (specifier : String)
deriving DecidableEq, Repr

def BadOptions.message : BadOptions → String
  | spyNotLiteral => "the `spy` option must be a boolean literal"
  | spread => "spread properties are not supported in mock options"
  | notObject specifier => s!"options of mock '{specifier}' must be an object literal"

/-- The name a callee is written as: `name`, or `object.name`. -/
def calleeName? : Expr → Option String
  | .ident n => some n.text
  | .member _ (.ident object) property => some (object.text ++ "." ++ property.text)
  | _ => none

/-- Whether a call registers a module under one of the callees. -/
def isRegistration (callees : List String) (site : CallSite) : Bool :=
  match calleeName? site.callee with
  | some name => callees.contains name
  | none => false

/-- The specifier an argument gives: a text known without running the script. -/
def specifierOf : Element → Except Found String
  | .one (.string s) => .ok s.value
  | .one (.template _ texts substitutions) =>
    if !substitutions.isEmpty then .error .substitutions
    else match texts with
      | some text :: _ => .ok text
      | _ => .error .invalidTemplate
  | .one (.importCall _ (.string s) _) => .ok s.value
  | .one (.importCall ..) => .error .computedImport
  | .spread .. => .error .spread
  | .one (.ident _) => .error .identifier
  | _ => .error .computed

def keyIs (text : String) : Key → Bool
  | .word n => n.text == text
  | .string s => s.value == text
  | _ => false

/-- The flag of the first property named `spy`, unless a spread stands before it. -/
def spyOf : List Property → Except BadOptions Bool
  | [] => .ok false
  | .spread .. :: _ => .error .spread
  | .pair key value :: more =>
    if keyIs "spy" key then
      match value with
      | .boolean _ flag => .ok flag
      | _ => .error .spyNotLiteral
    else spyOf more
  | .shorthand name _ :: more => if name.text = "spy" then .error .spyNotLiteral else spyOf more
  | .method key _ _ :: more => if keyIs "spy" key then .error .spyNotLiteral else spyOf more

/-- The flag that the argument behind the specifier gives. -/
def spyOption (specifier : String) : List Element → Except BadOptions Bool
  | [] => .ok false
  | .one (.object _ properties) :: _ => spyOf properties
  | _ => .error (.notObject specifier)

/-- What a call registers. With bad options the stand-ins do not record. -/
def ofCall (site : CallSite) : Except Skipped (Registration × Option BadOptions) :=
  match site.arguments with
  | [] => .error .noSpecifier
  | first :: more =>
    match specifierOf first with
    | .error found => .error (.notLiteral found)
    | .ok specifier =>
      match spyOption specifier more with
      | .ok spy => .ok (⟨specifier, spy, site.span⟩, none)
      | .error bad => .ok (⟨specifier, false, site.span⟩, some bad)

def sites (callees : List String) (p : Program) : List CallSite :=
  p.calls.filter (isRegistration callees)

end Registration

end Standin
