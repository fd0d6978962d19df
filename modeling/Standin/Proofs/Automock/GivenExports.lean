import Mathlib.Algebra.Ring.Nat
import Standin.Proofs.Automock.Steps
import Standin.Proofs.Script.ShownParts

namespace Standin.Script

/-- Whether a statement at the top gives up an export. -/
def Stmt.isRewritten : Stmt → Bool
  | .exportDecl _ (.variable _ _ false _) => true
  | .exportDecl _ (.function false f) => f.name?.isSome
  | .exportDecl _ (.classDecl false c) => c.name?.isSome
  | .exportDefault _ (.interface ..) => false
  | .exportDefault .. => true
  | .exportList _ false .. => true
  | .exportAll _ false (some _) _ => true
  | _ => false

/-- Whether a statement exports a default value without a name. -/
def Stmt.isNamelessDefault : Stmt → Bool
  | .exportDefault _ (.function f) => f.name?.isNone
  | .exportDefault _ (.classDecl c) => c.name?.isNone
  | .exportDefault _ (.expr _) => true
  | _ => false

def Stmt.passedOn : Stmt → Nat
  | .exportList _ false specifiers (some _) => (specifiers.filter (!·.typeOnly)).length
  | .exportAll _ false (some _) _ => 1
  | _ => 0

def Program.passedOn (p : Program) : Nat := (p.body.map Stmt.passedOn).sum

/-- The names of variables, functions, classes, defaults and lists that a statement exports. -/
def Stmt.givenExports : Stmt → List String
  | .exportDecl _ (.variable _ _ false ds) => (ds.flatMap Declarator.names).map (·.text)
  | .exportDecl _ (.function false f) => f.name?.toList.map (·.text)
  | .exportDecl _ (.classDecl false c) => c.name?.toList.map (·.text)
  | .exportDefault _ (.interface ..) => []
  | .exportDefault .. => ["default"]
  | .exportList _ false specifiers _ => (specifiers.filter (!·.typeOnly)).map (·.outer.text)
  | .exportAll _ false (some name) _ => [name.text]
  | _ => []

/-- What a name exported as a value stands for. -/
inductive Local
  | named (name : String)
  | unnamed
  /-- A value of another module under its name there, or the whole of that module. -/
  | foreign (source : String) (name : Option String)
deriving DecidableEq, Repr

namespace Local

def ofName? : Option Name → Local
  | some n => .named n.text
  | none => .unnamed

/-- What a name in a list stands for. -/
def listed (request : Option Request) (inner : String) : Local :=
  match request with
  | some r => .foreign r.source.value (some inner)
  | none => .named inner

end Local

/-- The names that a statement exports as values, each with what it stands for. -/
def Stmt.given : Stmt → List (String × Local)
  | .exportDecl _ (.variable _ _ false ds) =>
    (ds.flatMap Declarator.names).map fun n => (n.text, .named n.text)
  | .exportDecl _ (.function false f) => f.name?.toList.map fun n => (n.text, .named n.text)
  | .exportDecl _ (.classDecl false c) => c.name?.toList.map fun n => (n.text, .named n.text)
  | .exportDefault _ (.function f) => [("default", .ofName? f.name?)]
  | .exportDefault _ (.classDecl c) => [("default", .ofName? c.name?)]
  | .exportDefault _ (.expr _) => [("default", .unnamed)]
  | .exportList _ false specifiers request =>
    (specifiers.filter (!·.typeOnly)).map fun s => (s.outer.text, .listed request s.inner.text)
  | .exportAll _ false (some name) r => [(name.text, .foreign r.source.value none)]
  | _ => []

def Program.given (p : Program) : List (String × Local) := p.body.flatMap Stmt.given

namespace Stmt

/-- A statement at the top gives up no export, or gives one up in one of these ways. -/
@[elab_as_elim]
theorem byExport {motive : Stmt → Prop} (kept : ∀ s, s.isRewritten = false → motive s)
    (varDecl : ∀ span place kind ds, motive (.exportDecl span (.variable place kind false ds)))
    (function : ∀ span f n, f.name? = some n → motive (.exportDecl span (.function false f)))
    (classDecl : ∀ span c n, c.name? = some n → motive (.exportDecl span (.classDecl false c)))
    (namedFunction : ∀ span f n, f.name? = some n → motive (.exportDefault span (.function f)))
    (namelessFunction : ∀ span f, f.name? = none → motive (.exportDefault span (.function f)))
    (namedClass : ∀ span c n, c.name? = some n → motive (.exportDefault span (.classDecl c)))
    (namelessClass : ∀ span c, c.name? = none → motive (.exportDefault span (.classDecl c)))
    (expr : ∀ span e, motive (.exportDefault span (.expr e)))
    (ownList : ∀ span specifiers, motive (.exportList span false specifiers none))
    (foreignList : ∀ span specifiers r, motive (.exportList span false specifiers (some r)))
    (foreignAll : ∀ span name r, motive (.exportAll span false (some name) r))
    (s : Stmt) : motive s := by
  cases s with
  | exportDecl span d =>
    cases d with
    | «variable» place kind declared ds =>
      cases declared with
      | true => exact kept _ rfl
      | false => exact varDecl ..
    | function declared f =>
      cases declared with
      | true => exact kept _ rfl
      | false =>
        cases h : f.name? with
        | none => exact kept _ (congrArg Option.isSome h)
        | some n => exact function _ f n h
    | classDecl declared c =>
      cases declared with
      | true => exact kept _ rfl
      | false =>
        cases h : c.name? with
        | none => exact kept _ (congrArg Option.isSome h)
        | some n => exact classDecl _ c n h
    | _ => exact kept _ rfl
  | exportDefault span value =>
    cases value with
    | function f =>
      cases h : f.name? with
      | none => exact namelessFunction _ f h
      | some n => exact namedFunction _ f n h
    | classDecl c =>
      cases h : c.name? with
      | none => exact namelessClass _ c h
      | some n => exact namedClass _ c n h
    | interface => exact kept _ rfl
    | expr e => exact expr ..
  | exportList span typeOnly specifiers request =>
    cases typeOnly with
    | true => exact kept _ rfl
    | false =>
      cases request with
      | none => exact ownList ..
      | some r => exact foreignList ..
  | exportAll span typeOnly name r =>
    cases typeOnly with
    | true => exact kept _ rfl
    | false =>
      cases name with
      | none => exact kept _ rfl
      | some name => exact foreignAll ..
  | _ => exact kept _ rfl

variable {s : Stmt}

theorem given_of_not_isRewritten (h : s.isRewritten = false) : s.given = [] := by
  unfold given
  split <;> simp_all [isRewritten]

theorem passedOn_of_not_isRewritten (h : s.isRewritten = false) : s.passedOn = 0 := by
  unfold passedOn
  split <;> simp_all [isRewritten]

theorem isNamelessDefault_of_not_isRewritten (h : s.isRewritten = false) :
    s.isNamelessDefault = false := by
  unfold isNamelessDefault
  split <;> simp_all [isRewritten]

theorem map_fst_given (s : Stmt) : s.given.map Prod.fst = s.givenExports := by
  cases s with
  | exportDecl span d =>
    cases d with
    | «variable» span kind declared ds => cases declared <;> simp [given, givenExports]
    | function declared f => cases declared <;> simp [given, givenExports]
    | classDecl declared c => cases declared <;> simp [given, givenExports]
    | _ => rfl
  | exportDefault span value => cases value <;> rfl
  | exportList span typeOnly specifiers request =>
    cases typeOnly <;> simp [given, givenExports]
  | exportAll span typeOnly name r => cases typeOnly <;> cases name <;> rfl
  | _ => rfl

end Stmt

theorem Program.map_fst_given (p : Program) :
    p.given.map Prod.fst = p.body.flatMap Stmt.givenExports := by
  simp only [given, List.map_flatMap, Stmt.map_fst_given]

end Standin.Script

namespace Standin.Automock

open Standin.Script

/-- A value that is imported from another module under a private name. -/
structure Import where
  source : String
  name : Option String
  inner : String
deriving DecidableEq, Repr

/-- The private names of what is given, the values of other modules numbered. -/
def bindingsOf (index : Nat) : List (String × Local) → List Binding
  | [] => []
  | (exported, .named name) :: more => ⟨exported, name⟩ :: bindingsOf index more
  | (exported, .unnamed) :: more => ⟨exported, defaultName⟩ :: bindingsOf index more
  | (exported, .foreign ..) :: more => ⟨exported, reexportName index⟩ :: bindingsOf (index + 1) more

/-- The imports of what is given from other modules, numbered alike. -/
def importsOf (index : Nat) : List (String × Local) → List Import
  | [] => []
  | (_, .foreign source name) :: more =>
    ⟨source, name, reexportName index⟩ :: importsOf (index + 1) more
  | _ :: more => importsOf index more

section Given

variable (index : Nat)

theorem exported_bindingsOf (given : List (String × Local)) :
    (bindingsOf index given).map (·.exported) = given.map Prod.fst := by
  induction given generalizing index with
  | nil => rfl
  | cons e more ih =>
    obtain ⟨exported, l⟩ := e
    cases l <;> simp [bindingsOf, ih]

section Items

variable {α : Type}

theorem bindingsOf_named (exported name : α → String) (items : List α) :
    bindingsOf index (items.map fun a => (exported a, .named (name a))) =
      items.map fun a => ⟨exported a, name a⟩ := by
  induction items with
  | nil => rfl
  | cons a more ih => rw [List.map_cons, List.map_cons, bindingsOf, ih]

theorem importsOf_named (exported name : α → String) (items : List α) :
    importsOf index (items.map fun a => (exported a, .named (name a))) = [] := by
  induction items with
  | nil => rfl
  | cons a more ih => exact ih

variable (exported : α → String) (source : String) (name : α → Option String) (items : List α)

theorem bindingsOf_foreign :
    bindingsOf index (items.map fun a => (exported a, .foreign source (name a))) =
      (items.zipIdx index).map fun e => ⟨exported e.1, reexportName e.2⟩ := by
  induction items generalizing index with
  | nil => rfl
  | cons a more ih => rw [List.map_cons, List.zipIdx_cons, List.map_cons, bindingsOf, ih]

theorem importsOf_foreign :
    importsOf index (items.map fun a => (exported a, .foreign source (name a))) =
      (items.zipIdx index).map fun e => ⟨source, name e.1, reexportName e.2⟩ := by
  induction items generalizing index with
  | nil => rfl
  | cons a more ih => rw [List.map_cons, List.zipIdx_cons, List.map_cons, importsOf, ih]

end Items

theorem bindingsOf_append (first second : List (String × Local)) :
    bindingsOf index (first ++ second) =
      bindingsOf index first ++
        bindingsOf (index + (importsOf index first).length) second := by
  induction first generalizing index with
  | nil => rfl
  | cons e more ih =>
    obtain ⟨exported, l⟩ := e
    cases l <;> simp [bindingsOf, importsOf, ih, Nat.add_assoc, Nat.add_comm 1]

theorem importsOf_append (first second : List (String × Local)) :
    importsOf index (first ++ second) =
      importsOf index first ++
        importsOf (index + (importsOf index first).length) second := by
  induction first generalizing index with
  | nil => rfl
  | cons e more ih =>
    obtain ⟨exported, l⟩ := e
    cases l <;> simp [importsOf, ih, Nat.add_assoc, Nat.add_comm 1]

/-- As many values of other modules are imported as are passed on. -/
theorem length_importsOf_given (s : Stmt) : (importsOf index s.given).length = s.passedOn := by
  cases s using Stmt.byExport with
  | kept s h =>
    rw [Stmt.given_of_not_isRewritten h, Stmt.passedOn_of_not_isRewritten h]
    rfl
  | varDecl | ownList => exact congrArg List.length (importsOf_named ..)
  | function _ f n h | classDecl _ c n h => simp [Stmt.given, h, importsOf, Stmt.passedOn]
  | namedFunction _ f n h | namedClass _ c n h =>
    simp [Stmt.given, Local.ofName?, h, importsOf, Stmt.passedOn]
  | namelessFunction _ f h | namelessClass _ c h =>
    simp [Stmt.given, Local.ofName?, h, importsOf, Stmt.passedOn]
  | foreignList span specifiers r =>
    simp only [Stmt.given, Local.listed, importsOf_foreign]
    simp [Stmt.passedOn]
  | expr | foreignAll => rfl

end Given

namespace Addition

variable (source : List Char) (index : Nat)

theorem ofStmt_of_not_isRewritten {s : Stmt} (h : s.isRewritten = false) :
    (ofStmt source index s).edits = [] ∧ (ofStmt source index s).bindings = [] ∧
      (ofStmt source index s).reexports = 0 := by
  unfold ofStmt
  split
  · unfold ofDecl ofNames
    split <;> simp_all [Stmt.isRewritten]
  · unfold ofDefault
    split <;> simp_all [Stmt.isRewritten]
  · cases h
  · unfold ofAll
    split <;> simp_all [Stmt.isRewritten]
  · exact ⟨rfl, rfl, rfl⟩

/-- Only a statement that gives up an export is edited. -/
theorem isRewritten_of_mem {source : List Char} {index : Nat} {s : Stmt} {e : Edit}
    (h : e ∈ (ofStmt source index s).edits) : s.isRewritten = true := by
  cases hKept : s.isRewritten with
  | true => rfl
  | false =>
    obtain ⟨hNone, -, -⟩ := ofStmt_of_not_isRewritten source index hKept
    rw [hNone] at h
    cases h

theorem reexports_ofStmt (s : Stmt) : (ofStmt source index s).reexports = s.passedOn := by
  cases s using Stmt.byExport with
  | kept s h =>
    obtain ⟨-, -, hNone⟩ := ofStmt_of_not_isRewritten source index h
    rw [hNone, Stmt.passedOn_of_not_isRewritten h]
  | varDecl => exact reexports_strip ..
  | function _ f n h | classDecl _ c n h =>
    simp [ofStmt, ofDecl, ofNames, reexports_strip, h, Stmt.passedOn]
  | namedFunction _ f n h | namedClass _ c n h =>
    simp [ofStmt, ofDefault, reexports_strip, h, Stmt.passedOn]
  | namelessFunction _ f h | namelessClass _ c h =>
    simp [ofStmt, ofDefault, reexports_captured, h, Stmt.passedOn]
  | expr => exact reexports_captured ..
  | _ => rfl

theorem reexports_ofStmts (body : List Stmt) :
    (ofStmts source index body).reexports = (body.map Stmt.passedOn).sum := by
  induction body generalizing index with
  | nil => rfl
  | cons s more ih =>
    simp only [ofStmts, append, ih, reexports_ofStmt, List.map_cons, List.sum_cons]

theorem bindings_ofStmt {s : Stmt} (hBehind : s.ShowsBehind) :
    (ofStmt source index s).bindings = bindingsOf index s.given := by
  cases s using Stmt.byExport with
  | kept s h =>
    obtain ⟨-, hNone, -⟩ := ofStmt_of_not_isRewritten source index h
    rw [hNone, Stmt.given_of_not_isRewritten h]
    rfl
  | varDecl span place kind ds =>
    have hBefore : span.start < place.start := hBehind _ rfl
    simp only [ofStmt, ofDecl, strip_of_lt hBefore]
    exact (bindingsOf_named ..).symm
  | ownList => exact (bindingsOf_named ..).symm
  | function span f n h | classDecl span f n h =>
    have hBefore : span.start < f.span.start := hBehind _ rfl
    simp [ofStmt, ofDecl, ofNames, strip_of_lt hBefore, Stmt.given, h, bindingsOf]
  | namedFunction span f n h | namedClass span f n h =>
    have hBefore : span.start < f.span.start := hBehind _ rfl
    simp [ofStmt, ofDefault, strip_of_lt hBefore, Stmt.given, Local.ofName?, h, bindingsOf]
  | namelessFunction span f h | namelessClass span f h =>
    have hBefore : span.start < f.span.start := hBehind _ rfl
    simp [ofStmt, ofDefault, captured_of_lt hBefore, Stmt.given, Local.ofName?, h, bindingsOf]
  | expr span e =>
    have hBefore : span.start < e.span.start := hBehind _ rfl
    rw [ofStmt, ofDefault, captured_of_lt hBefore]
    rfl
  | foreignList span specifiers r =>
    exact (bindingsOf_foreign index (fun s : ExportSpecifier => s.outer.text) r.source.value
      (fun s => some s.inner.text) (valuesOf specifiers)).symm
  | foreignAll => rfl

theorem bindings_ofStmts {body : List Stmt} (hBehind : ∀ s ∈ body, s.ShowsBehind) :
    (ofStmts source index body).bindings = bindingsOf index (body.flatMap Stmt.given) := by
  induction body generalizing index with
  | nil => rfl
  | cons s more ih =>
    obtain ⟨hFirst, hMore⟩ := List.forall_mem_cons.mp hBehind
    rw [List.flatMap_cons, bindingsOf_append, length_importsOf_given, ofStmts, append,
      bindings_ofStmt source index hFirst, reexports_ofStmt, ih _ hMore]

theorem exported_ofStmt {s : Stmt} (hBehind : s.ShowsBehind) :
    (ofStmt source index s).bindings.map (·.exported) = s.givenExports := by
  rw [bindings_ofStmt source index hBehind, exported_bindingsOf, Stmt.map_fst_given]

/-- Of all statements, the bindings carry the names they give up. -/
theorem exported_ofStmts {body : List Stmt} (hBehind : ∀ s ∈ body, s.ShowsBehind) :
    (ofStmts source index body).bindings.map (·.exported) = body.flatMap Stmt.givenExports := by
  rw [bindings_ofStmts source index hBehind, exported_bindingsOf]
  exact Program.map_fst_given ⟨body⟩

end Addition

end Standin.Automock
