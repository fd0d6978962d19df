import Standin.Script.Grammar.Statements

namespace Standin.Script

open Reading

/-- A first line that names an interpreter is no part of the script. -/
def interpreterLine (text : List Char) : Nat :=
  match text with
  | '#' :: '!' :: _ => (text.takeWhile (!isLineEnd ·)).length
  | _ => 0

/-- The names that a pattern binds. -/
def Pattern.names : Pattern → List Name
  | .name n _ => [n]
  | .object _ properties _ => ofProperties properties
  | .array _ elements _ => ofElements elements
  | .hole => []
  | .rest _ inner => inner.names
  | .fallback inner _ => inner.names
where
  ofProperties : List PatternProperty → List Name
    | [] => []
    | .pair _ p :: more => p.names ++ ofProperties more
    | .rest p :: more => p.names ++ ofProperties more
  ofElements : List Pattern → List Name
    | [] => []
    | p :: more => p.names ++ ofElements more

def Declarator.names : Declarator → List Name
  | .mk p _ => p.names

/-- The names that a statement exports, and where. -/
def Stmt.exportedNames : Stmt → List (String × Nat)
  | .exportDecl _ (.variable _ _ _ ds) =>
    (ds.flatMap Declarator.names).map fun n => (n.text, n.span.start)
  | .exportDecl _ (.function _ f) => f.name?.toList.map fun n => (n.text, n.span.start)
  | .exportDecl _ (.classDecl _ c) => c.name?.toList.map fun n => (n.text, n.span.start)
  | .exportDefault span _ => [("default", span.start)]
  | .exportList _ _ specifiers _ => specifiers.map fun s => (s.outer.text, s.outer.span.start)
  | .exportAll _ _ (some name) _ => [(name.text, name.span.start)]
  | _ => []

/-- The places of names that were exported before. -/
def repeated : List String → List (String × Nat) → List Nat
  | _, [] => []
  | seen, (name, position) :: more =>
    if seen.contains name then position :: repeated seen more
    else repeated (name :: seen) more

/-- Statements up to the end of the text. Fallbacks that no pattern claimed are faults, and so are
names exported twice, unless types may share them. -/
def programRule (g : Grammar) : Reading Program := do
  let body ← many (do return (← kind) == .eof) (g.statement .list)
  let leftover ← ask (·.unclaimed)
  leftover.forM fun position => note position .shorthandDefault
  unless ← typed do
    (repeated [] (body.flatMap Stmt.exportedNames)).forM fun position =>
      note position .duplicateExport
  return ⟨body⟩

/-- Each nested piece takes at least one character and at most eight levels of the grammar. -/
def depthFor (size : Nat) : Nat := 8 * (size + 2)

def Dialect.scope (d : Dialect) : Scope :=
  { awaits := d.modular, ambient := d.ambient }

def State.initial (d : Dialect) (text : List Char) : State :=
  let skipped := interpreterLine text
  State.scanFrom
    { dialect := d, scope := d.scope, token := ⟨.eof, 0, 0, false, false, false⟩, here := text,
      rest := text, lastStop := 0, size := text.length }
    (text.drop skipped) skipped true

/-- The program of a text and the faults that reading went on from, in the order met; or the fault
that it could not go on from. -/
def parse (d : Dialect) (text : List Char) : Except SyntaxFault (Program × List SyntaxFault) :=
  match programRule (Grammar.ofDepth (depthFor text.length)) (State.initial d text) with
  | .ok program s => .ok (program, s.faults.reverse)
  | .error fault _ => .error fault

end Standin.Script
