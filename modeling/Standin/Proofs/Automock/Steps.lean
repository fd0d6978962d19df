import Standin.Automock.Removal

namespace Standin.Automock

open Standin.Script

/-- How a value without a name is bound to one. -/
def captureText : String := s!"const {defaultName} = "

/-- The import of the values of a list, their private names counted from an index. -/
def importText (values : List ExportSpecifier) (index : Nat) (origin : String) : String :=
  if values.isEmpty then ""
  else "import \x7b " ++
    ", ".intercalate ((values.zipIdx index).map fun (s, i) =>
      nameText s.inner ++ " as " ++ reexportName i) ++ " \x7d" ++ origin

/-- The types of a list, exported as before. -/
def typesText (types : List ExportSpecifier) (origin : String) : String :=
  if types.isEmpty then "" else Removal.typeList types ++ origin

/-- The import of all values of a module under a private name. -/
def allText (index : Nat) (origin : String) : String :=
  s!"import * as {reexportName index} from {origin};"

def valuesOf (specifiers : List ExportSpecifier) : List ExportSpecifier :=
  specifiers.filter (!·.typeOnly)

def typesOf (specifiers : List ExportSpecifier) : List ExportSpecifier :=
  specifiers.filter (·.typeOnly)

def recordAll (bindings : List Binding) : List Binding → List Binding
  | [] => bindings
  | b :: more =>
    recordAll (if bindings.any (·.exported = b.exported) then bindings else bindings ++ [b]) more

theorem recordAll_append (bindings first second : List Binding) :
    recordAll bindings (first ++ second) = recordAll (recordAll bindings first) second := by
  induction first generalizing bindings with
  | nil => rfl
  | cons b more ih => rw [List.cons_append, recordAll, recordAll, ih]

/-- What one step adds. -/
structure Addition where
  edits : List Edit := []
  bindings : List Binding := []
  notes : List String := []
  reexports : Nat := 0

namespace Addition

def strip (start declaration : Nat) (bindings : List Binding) : Addition :=
  if declaration ≤ start then {} else { edits := [⟨start, declaration, []⟩], bindings }

theorem strip_of_lt {start declaration : Nat} (h : start < declaration)
    (bindings : List Binding) :
    strip start declaration bindings = { edits := [⟨start, declaration, []⟩], bindings } :=
  if_neg (Nat.not_le.mpr h)

def ofNames (start : Nat) (declaration : Span) (names : List Name) : Addition :=
  if names.isEmpty then {}
  else strip start declaration.start (names.map fun n => ⟨n.text, n.text⟩)

def ofDecl (start : Nat) : Decl → Addition
  | .variable span _ false ds =>
    strip start span.start ((ds.flatMap Declarator.names).map fun n => ⟨n.text, n.text⟩)
  | .function false f => ofNames start f.span f.name?.toList
  | .classDecl false c => ofNames start c.span c.name?.toList
  | _ => {}

theorem reexports_strip (start declaration : Nat) (bindings : List Binding) :
    (strip start declaration bindings).reexports = 0 := by
  unfold strip
  split <;> rfl

theorem mem_of_mem_strip {start declaration : Nat} {bindings : List Binding} {b : Binding}
    (h : b ∈ (strip start declaration bindings).bindings) : b ∈ bindings := by
  unfold strip at h
  split at h
  · cases h
  · exact h

/-- The semicolon behind a captured value, unless one stands there. -/
def semicolon (source : List Char) (value : Span) (stop : Nat) : List Edit :=
  if ((source.drop value.stop).take (stop - value.stop)).contains ';' then []
  else [⟨stop, stop, [';']⟩]

def captured (source : List Char) (start : Nat) (value : Span) (stop : Nat) : Addition :=
  if value.start ≤ start then {}
  else
    { edits := ⟨start, value.start, captureText.toList⟩ :: semicolon source value stop
      bindings := [⟨"default", defaultName⟩] }

theorem captured_of_lt {start stop : Nat} {value : Span} (h : start < value.start)
    (source : List Char) :
    captured source start value stop =
      { edits := ⟨start, value.start, captureText.toList⟩ :: semicolon source value stop
        bindings := [⟨"default", defaultName⟩] } :=
  if_neg (Nat.not_le.mpr h)

theorem reexports_captured (source : List Char) (start : Nat) (value : Span) (stop : Nat) :
    (captured source start value stop).reexports = 0 := by
  unfold captured
  split <;> rfl

theorem eq_of_mem_captured {source : List Char} {start stop : Nat} {value : Span} {b : Binding}
    (h : b ∈ (captured source start value stop).bindings) : b = ⟨"default", defaultName⟩ := by
  unfold captured at h
  split at h
  · cases h
  · exact List.mem_singleton.mp h

def ofDefault (source : List Char) (span : Span) : DefaultValue → Addition
  | .function f =>
    match f.name? with
    | some n => strip span.start f.span.start [⟨"default", n.text⟩]
    | none => captured source span.start f.span f.span.stop
  | .classDecl c =>
    match c.name? with
    | some n => strip span.start c.span.start [⟨"default", n.text⟩]
    | none => captured source span.start c.span c.span.stop
  | .interface .. => {}
  | .expr e => captured source span.start e.span span.stop

def ofList (source : List Char) (index : Nat) (span : Span) (specifiers : List ExportSpecifier) :
    Option Request → Addition
  | some request =>
    let origin := " from " ++ sliceOf source request.source.span ++ ";"
    { edits := [⟨span.start, span.stop,
        (importText (valuesOf specifiers) index origin ++
          typesText (typesOf specifiers) origin).toList⟩]
      bindings := ((valuesOf specifiers).zipIdx index).map fun (s, i) =>
        ⟨s.outer.text, reexportName i⟩
      reexports := (valuesOf specifiers).length }
  | none =>
    { edits := [⟨span.start, span.stop, (typesText (typesOf specifiers) ";").toList⟩]
      bindings := (valuesOf specifiers).map fun s => ⟨s.outer.text, s.inner.text⟩ }

def ofAll (source : List Char) (index : Nat) (span : Span) (request : Request) :
    Option ExportName → Addition
  | some name =>
    { edits := [⟨span.start, span.stop,
        (allText index (sliceOf source request.source.span)).toList⟩]
      bindings := [⟨name.text, reexportName index⟩]
      reexports := 1 }
  | none =>
    { notes := [s!"`export * from {sliceOf source request.source.span}` is kept as is; its names cannot be listed statically"] }

/-- What a statement adds when so many private names are given. -/
def ofStmt (source : List Char) (index : Nat) : Stmt → Addition
  | .exportDecl span d => ofDecl span.start d
  | .exportDefault span value => ofDefault source span value
  | .exportList span false specifiers request => ofList source index span specifiers request
  | .exportAll span false name request => ofAll source index span request name
  | _ => {}

def append (a b : Addition) : Addition :=
  { edits := a.edits ++ b.edits
    bindings := a.bindings ++ b.bindings
    notes := a.notes ++ b.notes
    reexports := a.reexports + b.reexports }

/-- What the statements of a list add, one after another. -/
def ofStmts (source : List Char) (index : Nat) : List Stmt → Addition
  | [] => {}
  | s :: more =>
    let first := ofStmt source index s
    first.append (ofStmts source (index + first.reexports) more)

end Addition

namespace Removal

/-- What is there after an addition. -/
def add (r : Removal) (a : Addition) : Removal :=
  { edits := r.edits ++ a.edits
    bindings := recordAll r.bindings a.bindings
    notes := r.notes ++ a.notes
    reexports := r.reexports + a.reexports }

theorem add_empty (r : Removal) : r.add {} = r := by
  simp [add, recordAll]

theorem add_append (r : Removal) (a b : Addition) : r.add (a.append b) = (r.add a).add b := by
  simp [add, Addition.append, recordAll_append, Nat.add_assoc]

theorem record_eq (r : Removal) (exported inner : String) :
    r.record exported inner = r.add { bindings := [⟨exported, inner⟩] } := by
  unfold record add
  simp only [recordAll, List.append_nil, Nat.add_zero]
  split <;> rfl

theorem edit_eq (r : Removal) (start stop : Nat) (text : String) :
    r.edit start stop text = r.add { edits := [⟨start, stop, text.toList⟩] } := by
  simp [edit, add, recordAll]

theorem foldl_record_eq {α : Type} (exported inner : α → String) (items : List α) (r : Removal) :
    items.foldl (fun r a => r.record (exported a) (inner a)) r =
      r.add { bindings := items.map fun a => ⟨exported a, inner a⟩ } := by
  induction items generalizing r with
  | nil => exact (add_empty r).symm
  | cons a more ih =>
    rw [List.foldl_cons, ih, record_eq, ← add_append]
    rfl

theorem strip_eq (r : Removal) (start declaration : Nat) (bindings : List Binding) :
    r.strip start declaration bindings = r.add (Addition.strip start declaration bindings) := by
  unfold strip Addition.strip
  split
  · exact (add_empty r).symm
  · rw [foldl_record_eq Binding.exported Binding.inner, edit_eq, ← add_append, List.map_id']
    rfl

theorem named_eq (r : Removal) (start : Nat) (declaration : Span) (names : List Name) :
    r.named start declaration names = r.add (Addition.ofNames start declaration names) := by
  unfold named Addition.ofNames
  split
  · exact (add_empty r).symm
  · exact strip_eq ..

theorem declaration_eq (r : Removal) (start : Nat) (d : Decl) :
    r.declaration start d = r.add (Addition.ofDecl start d) := by
  have hEmpty := (add_empty r).symm
  cases d with
  | «variable» span kind declared ds =>
    cases declared with
    | false => exact strip_eq ..
    | true => exact hEmpty
  | function declared f =>
    cases declared with
    | false => exact named_eq ..
    | true => exact hEmpty
  | classDecl declared c =>
    cases declared with
    | false => exact named_eq ..
    | true => exact hEmpty
  | _ => exact hEmpty

theorem captured_eq (r : Removal) (source : List Char) (start : Nat) (value : Span) (stop : Nat) :
    r.captured source start value stop = r.add (Addition.captured source start value stop) := by
  unfold captured Addition.captured
  split
  · exact (add_empty r).symm
  · simp only [Addition.semicolon]
    split
    · rw [record_eq, edit_eq, ← add_append]
      rfl
    · rw [record_eq, edit_eq, edit_eq, ← add_append, ← add_append]
      rfl

theorem default_eq (r : Removal) (source : List Char) (span : Span) (value : DefaultValue) :
    r.default source span value = r.add (Addition.ofDefault source span value) := by
  cases value with
  | function f =>
    simp only [default, Addition.ofDefault]
    cases f.name? with
    | some n => exact strip_eq ..
    | none => exact captured_eq ..
  | classDecl c =>
    simp only [default, Addition.ofDefault]
    cases c.name? with
    | some n => exact strip_eq ..
    | none => exact captured_eq ..
  | interface => exact (add_empty r).symm
  | expr e => exact captured_eq ..

theorem reexport_eq (r : Removal) (outer : String) :
    r.reexport outer = (reexportName r.reexports,
      r.add { bindings := [⟨outer, reexportName r.reexports⟩], reexports := 1 }) := by
  unfold reexport
  simp only [record_eq]
  simp [add, recordAll]

theorem reexportAll_eq (r : Removal) (values : List ExportSpecifier) :
    r.reexportAll values =
      ((values.zipIdx r.reexports).map fun (s, i) => nameText s.inner ++ " as " ++ reexportName i,
        r.add { bindings := (values.zipIdx r.reexports).map fun (s, i) =>
                  ⟨s.outer.text, reexportName i⟩
                reexports := values.length }) := by
  induction values generalizing r with
  | nil => exact congrArg (Prod.mk []) (add_empty r).symm
  | cons s more ih =>
    simp only [reexportAll, reexport_eq, ih, ← add_append]
    simp [add, Addition.append, Nat.add_comm]

theorem list_eq (r : Removal) (source : List Char) (span : Span)
    (specifiers : List ExportSpecifier) (request : Option Request) :
    r.list source span specifiers request =
      r.add (Addition.ofList source r.reexports span specifiers request) := by
  cases request with
  | some request =>
    simp only [list, reexportAll_eq, edit_eq, ← add_append]
    simp [Addition.ofList, Addition.append, importText, typesText, valuesOf, typesOf]
  | none =>
    simp only [list, foldl_record_eq (fun s : ExportSpecifier => s.outer.text)
      (fun s => s.inner.text), edit_eq, ← add_append]
    simp [Addition.ofList, Addition.append, typesText, valuesOf, typesOf]

theorem all_eq (r : Removal) (source : List Char) (span : Span) (name : Option ExportName)
    (request : Request) :
    r.all source span name request =
      r.add (Addition.ofAll source r.reexports span request name) := by
  cases name with
  | some name =>
    simp only [all, reexport_eq, edit_eq, ← add_append]
    simp [Addition.ofAll, Addition.append, allText]
  | none => simp [all, note, Addition.ofAll, add, recordAll]

/-- One statement adds to what came before. -/
theorem statement_eq (source : List Char) (r : Removal) (s : Stmt) :
    statement source r s = r.add (Addition.ofStmt source r.reexports s) := by
  have hEmpty := (add_empty r).symm
  cases s with
  | exportDecl span d => exact declaration_eq ..
  | exportDefault span value => exact default_eq ..
  | exportList span typeOnly specifiers request =>
    cases typeOnly with
    | false => exact list_eq ..
    | true => exact hEmpty
  | exportAll span typeOnly name request =>
    cases typeOnly with
    | false => exact all_eq ..
    | true => exact hEmpty
  | _ => exact hEmpty

theorem foldl_statement_eq (source : List Char) (body : List Stmt) (r : Removal) :
    body.foldl (statement source) r = r.add (Addition.ofStmts source r.reexports body) := by
  induction body generalizing r with
  | nil => exact (add_empty r).symm
  | cons s more ih =>
    rw [List.foldl_cons, ih, statement_eq, ← add_append]
    rfl

end Removal

/-- A whole program adds what its statements add in order. -/
theorem removeExports_eq (source : List Char) (p : Program) :
    removeExports source p = Removal.add {} (Addition.ofStmts source 0 p.body) :=
  Removal.foldl_statement_eq source p.body {}

end Standin.Automock
