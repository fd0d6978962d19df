import Standin.Json.Basic
import Standin.Script.Parse
import Standin.Script.Tree
import Standin.SourceEditor
import Standin.Text.CharClasses

namespace Standin.Automock

open Standin.Text

def isBareName (name : List Char) : Bool :=
  match name with
  | [] => false
  | c :: more =>
    (c == '$' || c == '_' || isAlphabetic c) &&
      more.all fun c => c == '$' || c == '_' || isAlphanumeric c

/-- A name that cannot stand alone is written as a string. -/
def exportName (name : String) : String :=
  if isBareName name.toList then name else Json.quote name

def nameText (name : Script.ExportName) : String := exportName name.text

/-- `inner as outer`, or one name when both are written alike. -/
def specifierText (s : Script.ExportSpecifier) : String :=
  if nameText s.inner = nameText s.outer then nameText s.inner
  else nameText s.inner ++ " as " ++ nameText s.outer

open Standin.Script

/-- An exported name and the private name of its value. -/
structure Binding where
  exported : String
  inner : String
deriving DecidableEq, Repr

/-- What the removal of a module's exports has come to after some of its statements. -/
structure Removal where
  edits : List Edit := []
  bindings : List Binding := []
  notes : List String := []
  /-- How many values of other modules were given a private name. -/
  reexports : Nat := 0
deriving DecidableEq, Repr

def defaultName : String := "__modmock_default__"

def reexportName (index : Nat) : String := s!"__modmock_reexport_{index}__"

def sliceOf (source : List Char) (span : Span) : String :=
  String.ofList ((source.drop span.start).take (span.stop - span.start))

namespace Removal

def edit (r : Removal) (start stop : Nat) (text : String) : Removal :=
  { r with edits := r.edits ++ [⟨start, stop, text.toList⟩] }

/-- Records a binding; the first of a name stays, since overloads export one name repeatedly. -/
def record (r : Removal) (exported inner : String) : Removal :=
  if r.bindings.any (·.exported = exported) then r
  else { r with bindings := r.bindings ++ [⟨exported, inner⟩] }

def note (r : Removal) (text : String) : Removal := { r with notes := r.notes ++ [text] }

/-- Removes `export` before a declaration and records what is declared, unless the declaration
stands no further on than its statement. -/
def strip (r : Removal) (start declaration : Nat) (bindings : List Binding) : Removal :=
  if declaration ≤ start then r
  else bindings.foldl (fun r b => r.record b.exported b.inner) (r.edit start declaration "")

def named (r : Removal) (start : Nat) (declaration : Span) (names : List Name) : Removal :=
  if names.isEmpty then r
  else r.strip start declaration.start (names.map fun n => ⟨n.text, n.text⟩)

/-- Variables, functions and classes are values; all other declarations stay as they are, and so
does what is only declared. -/
def declaration (r : Removal) (start : Nat) : Decl → Removal
  | .variable span _ false ds =>
    r.strip start span.start ((ds.flatMap Declarator.names).map fun n => ⟨n.text, n.text⟩)
  | .function false f => r.named start f.span f.name?.toList
  | .classDecl false c => r.named start c.span c.name?.toList
  | _ => r

/-- A value without a name is bound to one. A semicolon is added unless one stands behind it. -/
def captured (r : Removal) (source : List Char) (start : Nat) (value : Span) (stop : Nat) :
    Removal :=
  if value.start ≤ start then r
  else
    let r := r.edit start value.start s!"const {defaultName} = "
    let behind := (source.drop value.stop).take (stop - value.stop)
    let r := if behind.contains ';' then r else r.edit stop stop ";"
    r.record "default" defaultName

def default (r : Removal) (source : List Char) (span : Span) : DefaultValue → Removal
  | .function f =>
    match f.name? with
    | some n => r.strip span.start f.span.start [⟨"default", n.text⟩]
    | none => r.captured source span.start f.span f.span.stop
  | .classDecl c =>
    match c.name? with
    | some n => r.strip span.start c.span.start [⟨"default", n.text⟩]
    | none => r.captured source span.start c.span c.span.stop
  | .interface .. => r
  | .expr e => r.captured source span.start e.span span.stop

def reexport (r : Removal) (outer : String) : String × Removal :=
  let name := reexportName r.reexports
  (name, { r with reexports := r.reexports + 1 }.record outer name)

def reexportAll (r : Removal) : List ExportSpecifier → List String × Removal
  | [] => ([], r)
  | s :: more =>
    let (name, r) := r.reexport s.outer.text
    let (texts, r) := r.reexportAll more
    ((nameText s.inner ++ " as " ++ name) :: texts, r)

def typeList (types : List ExportSpecifier) : String :=
  "export type \x7b " ++ ", ".intercalate (types.map specifierText) ++ " \x7d"

/-- A list with a source becomes an import of its values; one without a source leaves nothing. Types
are still exported. -/
def list (r : Removal) (source : List Char) (span : Span) (specifiers : List ExportSpecifier)
    (request : Option Request) : Removal :=
  let types := specifiers.filter (·.typeOnly)
  let values := specifiers.filter (!·.typeOnly)
  match request with
  | some request =>
    let origin := " from " ++ sliceOf source request.source.span ++ ";"
    let (texts, r) := r.reexportAll values
    let imports :=
      if values.isEmpty then "" else "import \x7b " ++ ", ".intercalate texts ++ " \x7d" ++ origin
    r.edit span.start span.stop
      (imports ++ if types.isEmpty then "" else typeList types ++ origin)
  | none =>
    let r := values.foldl (fun r s => r.record s.outer.text s.inner.text) r
    r.edit span.start span.stop (if types.isEmpty then "" else typeList types ++ ";")

def all (r : Removal) (source : List Char) (span : Span) (name : Option ExportName)
    (request : Request) : Removal :=
  let origin := sliceOf source request.source.span
  match name with
  | some name =>
    let (inner, r) := r.reexport name.text
    r.edit span.start span.stop s!"import * as {inner} from {origin};"
  | none =>
    r.note s!"`export * from {origin}` is kept as is; its names cannot be listed statically"

/-- Takes the exports out of one statement at the top of the module. -/
def statement (source : List Char) (r : Removal) : Stmt → Removal
  | .exportDecl span d => r.declaration span.start d
  | .exportDefault span value => r.default source span value
  | .exportList span false specifiers request => r.list source span specifiers request
  | .exportAll span false name request => r.all source span name request
  | _ => r

end Removal

def removeExports (source : List Char) (p : Program) : Removal :=
  p.body.foldl (Removal.statement source) {}

end Standin.Automock
