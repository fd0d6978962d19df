import Mathlib.Data.List.Nodup
import Standin.Proofs.Automock.Requests
import Standin.Proofs.Automock.ValueNames
import Standin.Proofs.Automock.WrittenNames
import Standin.Proofs.Script.ExportLists

namespace Standin.Automock

open Standin.Script

/-- The names recorded are those given, each where it first appears. -/
theorem exported_removeExports (source : List Char) {p : Program} (hBehind : p.ShowsBehind) :
    (removeExports source p).bindings.map (·.exported) = (p.given.map Prod.fst).eraseDups := by
  have hAll := exported_recordAll [] (Addition.ofStmts source 0 p.body).bindings
  rw [removeExports_eq, Removal.add, p.map_fst_given,
    ← Addition.exported_ofStmts source 0 hBehind, hAll]
  simp

theorem nodup_exported_removeExports (source : List Char) (p : Program) :
    ((removeExports source p).bindings.map (·.exported)).Nodup := by
  rw [removeExports_eq]
  exact nodup_exported_recordAll List.nodup_nil

/-- What is recorded of a name is what is given first under it. -/
theorem mem_bindings_iff_find? {source : List Char} {p : Program} (hBehind : p.ShowsBehind)
    {b : Binding} :
    b ∈ (removeExports source p).bindings ↔
      (bindingsOf 0 p.given).find? (·.exported = b.exported) = some b := by
  rw [mem_bindings_iff, Addition.bindings_ofStmts _ _ hBehind]
  rfl

/-- What is written around a number tells it. -/
theorem digits_injective (before after : List Char) {i j : Nat}
    (h : before ++ (Nat.toDigits 10 i ++ after) = before ++ (Nat.toDigits 10 j ++ after)) :
    i = j := by
  have hDigits := List.append_cancel_right (List.append_cancel_left h)
  simpa using congrArg (fun digits => Nat.ofDigitChars 10 digits 0) hDigits

theorem reexportName_injective : Function.Injective reexportName := by
  intro i j h
  have hChars := congrArg String.toList h
  rw [toList_reexportName, toList_reexportName, List.cons_inj_right] at hChars
  exact digits_injective _ _ hChars

theorem inner_importsOf (index : Nat) (given : List (String × Local)) :
    (importsOf index given).map (·.inner) =
      (List.range' index (importsOf index given).length).map reexportName := by
  induction given generalizing index with
  | nil => rfl
  | cons e more ih =>
    obtain ⟨exported, l⟩ := e
    cases l with
    | foreign source name => simp [importsOf, ih, List.range'_succ]
    | _ => exact ih index

/-- No two values of other modules are imported under one private name. -/
theorem nodup_inner_importsOf (index : Nat) (given : List (String × Local)) :
    ((importsOf index given).map (·.inner)).Nodup := by
  rw [inner_importsOf]
  exact List.Nodup.map reexportName_injective List.nodup_range'

theorem mem_edits_ofStmts_split {source : List Char} (index : Nat) {before after : List Stmt}
    {s : Stmt} {e : Edit}
    (h : e ∈ (Addition.ofStmt source (index + (before.map Stmt.passedOn).sum) s).edits) :
    e ∈ (Addition.ofStmts source index (before ++ s :: after)).edits := by
  induction before generalizing index with
  | nil => exact List.mem_append_left _ h
  | cons first more ih =>
    refine List.mem_append_right _ (ih _ ?_)
    rwa [Addition.reexports_ofStmt, Nat.add_assoc, ← List.sum_cons, ← List.map_cons]

/-- A re-export gives way to what is left of it, its private names counted from those before. -/
theorem leftText_mem_edits {source : List Char} {p : Program} {before after : List Stmt} {s : Stmt}
    {r : Request} (hBody : p.body = before ++ s :: after) (h : s.reexport? = some r) :
    ⟨s.span.start, s.span.stop, leftText source (before.map Stmt.passedOn).sum s⟩ ∈
      (removeExports source p).edits := by
  rw [removeExports_eq, hBody]
  refine mem_edits_ofStmts_split 0 ?_
  rw [Nat.zero_add]
  rcases Stmt.eq_of_reexport? h with ⟨span, specifiers, rfl⟩ | ⟨span, name, rfl⟩ <;>
    exact List.mem_singleton_self _

open Standin.Script Standin.Script.Grammar Standin.Text

/-- The value that an entry of an import brings in, unless it is a type. -/
def importedAs (source : String) : ImportSpecifier → List Import
  | .default n => [⟨source, some "default", n.text⟩]
  | .all n => [⟨source, none, n.text⟩]
  | .named imported n typeOnly =>
    if typeOnly then [] else [⟨source, some imported.text, n.text⟩]

/-- The values that a statement brings in. -/
def importedBy : Stmt → List Import
  | .imports _ false specifiers r => specifiers.flatMap (importedAs r.source.value)
  | _ => []

/-- The imports in place of a re-export. -/
def importedText (source : List Char) (index : Nat) : Stmt → List Char
  | .exportList _ false specifiers (some request) =>
    (importText (valuesOf specifiers) index
      (" from " ++ sliceOf source request.source.span ++ ";")).toList
  | .exportAll _ false (some _) request =>
    (allText index (sliceOf source request.source.span)).toList
  | _ => []

def keptTypesText (source : List Char) : Stmt → List Char
  | .exportList _ false specifiers (some request) =>
    (typesText (typesOf specifiers)
      (" from " ++ sliceOf source request.source.span ++ ";")).toList
  | _ => []

theorem leftText_of_reexport? {source : List Char} (index : Nat) {s : Stmt} {r : Request}
    (h : s.reexport? = some r) :
    leftText source index s = importedText source index s ++ keptTypesText source s := by
  rcases Stmt.eq_of_reexport? h with ⟨span, specifiers, rfl⟩ | ⟨span, name, rfl⟩
  · exact String.toList_append
  · exact (List.append_nil _).symm

theorem exists_first {α : Type} {P : α → Prop} {as : List α} (h : ¬∀ a ∈ as, P a) :
    ∃ before a after, as = before ++ a :: after ∧ (∀ b ∈ before, P b) ∧ ¬P a := by
  induction as with
  | nil => simp at h
  | cons a more ih =>
    by_cases hFirst : P a
    · obtain ⟨before, b, after, rfl, hBefore, hNot⟩ :=
        ih fun hMore => h (List.forall_mem_cons.mpr ⟨hFirst, hMore⟩)
      exact ⟨a :: before, b, after, rfl, List.forall_mem_cons.mpr ⟨hFirst, hBefore⟩, hNot⟩
    · exact ⟨[], a, more, rfl, nofun, hFirst⟩

section Lists

variable {d : Dialect} {values : List ExportSpecifier} {index : Nat} {lit value : String}
  {halved : Bool}

/-- What is told of an entry that imports a value under a private name. -/
def TellsImport (e : ExportSpecifier × Nat) (spec : ImportSpecifier) : Prop :=
  ∃ imported n, spec = .named imported n false ∧ imported.text = e.1.inner.text ∧
    n.text = reexportName e.2

theorem TellsImport.importedAs {e : ExportSpecifier × Nat} {spec : ImportSpecifier}
    (h : TellsImport e spec) (source : String) :
    importedAs source spec = [⟨source, some e.1.inner.text, reexportName e.2⟩] := by
  obtain ⟨imported, n, rfl, hImported, hName⟩ := h
  simp [Automock.importedAs, hImported, hName]

theorem importedAs_of_forall₂ {es : List (ExportSpecifier × Nat)} {specs : List ImportSpecifier}
    (h : List.Forall₂ TellsImport es specs) (source : String) :
    specs.flatMap (importedAs source) =
      es.map fun e => ⟨source, some e.1.inner.text, reexportName e.2⟩ := by
  rw [flatMap_of_forall₂ h fun e _ spec hTold => hTold.importedAs source]
  exact List.map_eq_flatMap.symm

/-- The imports of values from a source. -/
def importsIn (source : String) (index : Nat) (values : List ExportSpecifier) : List Import :=
  (values.zipIdx index).map fun e => ⟨source, some e.1.inner.text, reexportName e.2⟩

theorem parse_importText (hLit : scan lit.toList = ⟨.string value halved, lit.toList.length,
    false, false⟩) (hWritable : ∀ x ∈ values, IsWritable x.inner) :
    ∃ q, parse d (importText values index (" from " ++ lit ++ ";")).toList = .ok (q, []) ∧
      q.body.flatMap importedBy = importsIn value index values := by
  cases values with
  | nil => exact ⟨⟨[]⟩, parse_empty d, rfl⟩
  | cons x more =>
    have hEntries : ∀ e ∈ (x :: more).zipIdx index,
        ReadsEntry (importSpecifier false) (importEntry e).toList (TellsImport e) := fun e hMem =>
      readsEntry_importEntry (hWritable e.1 (List.fst_mem_of_mem_zipIdx hMem)) e.2
    have hWord := begins_importText (List.cons_ne_nil x more) index lit
    rw [toList_importText] at hWord ⊢
    have hSize := length_le_importListText lit.toList (importEntry (x, index)).toList
      ((more.zipIdx (index + 1)).map fun e => (importEntry e).toList)
    rw [List.length_map] at hSize
    obtain ⟨stmt, hParse, span, specifiers, r, rfl, hAll, rfl, -⟩ :=
      parse_single d (fun g => reads_importList g hLit hEntries hSize) hWord
        (by rintro _ ⟨_, _, _, rfl, -⟩; rfl)
    refine ⟨_, hParse, ?_⟩
    rw [List.flatMap_singleton, importedBy, importedAs_of_forall₂ hAll]
    rfl

/-- An import that goes on with another name than the one written behind some entries. -/
def MissesImport (before : List (ExportSpecifier × Nat)) (x : ExportSpecifier)
    (specs : List ImportSpecifier) : Prop :=
  ∃ items a more, specs = items ++ a :: more ∧ List.Forall₂ TellsImport before items ∧
    ∃ imported n, a = .named imported n false ∧ imported.text ≠ x.inner.text

theorem MissesImport.ne {before after : List (ExportSpecifier × Nat)}
    {e : ExportSpecifier × Nat} {specs : List ImportSpecifier} (h : MissesImport before e.1 specs)
    (source : String) (more : List Import) :
    specs.flatMap (importedAs source) ++ more ≠ (before ++ e :: after).map fun e =>
      ⟨value, some e.1.inner.text, reexportName e.2⟩ := by
  obtain ⟨items, _, rest, rfl, hItems, imported, n, rfl, hOther⟩ := h
  intro hSame
  have hNames := congrArg (List.map Import.name) hSame
  simp only [List.flatMap_append, importedAs_of_forall₂ hItems, List.flatMap_cons,
    List.map_append, List.map_map, List.map_cons, List.append_assoc, importedAs,
    Bool.false_eq_true, if_false] at hNames
  obtain ⟨-, hRest⟩ := List.append_inj hNames (by simp)
  simp only [List.map_nil, List.cons_append, List.nil_append, List.cons.injEq,
    Option.some.injEq] at hRest
  exact hOther hRest.1

/-- The text of the imports, cut before a bare name. -/
theorem toList_importText_split {before after : List ExportSpecifier} {x : ExportSpecifier}
    (hBare : isBareName x.inner.text.toList = true) :
    ∃ tail, (importText (before ++ x :: after) index (" from " ++ lit ++ ";")).toList =
      "import".toList ++ ' ' :: '\x7b' :: ' ' ::
        ((before.zipIdx index).flatMap (fun e => (importEntry e).toList ++ [',', ' ']) ++
          (x.inner.text.toList ++ ' ' :: tail)) := by
  obtain ⟨first, more, hAll⟩ : ∃ first more, before ++ x :: after = first :: more := by
    cases before with
    | nil => exact ⟨_, _, rfl⟩
    | cons first before => exact ⟨_, _, rfl⟩
  have hSplit : (first, index) :: more.zipIdx (index + 1) = before.zipIdx index ++
      (x, index + before.length) :: after.zipIdx (index + before.length + 1) := by
    rw [← List.zipIdx_cons, ← hAll, List.zipIdx_append, List.zipIdx_cons]
  have hEntry (i : Nat) : (importEntry (x, i)).toList = x.inner.text.toList ++
      ' ' :: ("as".toList ++ ' ' :: (reexportName i).toList) := by
    rw [importEntry, toList_as, nameText, exportName_of_isBareName hBare]
  rw [hAll, toList_importText]
  delta importListText
  rw [entriesText_split (fun e => (importEntry e).toList) hSplit, hEntry]
  simp only [List.append_assoc, List.cons_append]
  exact ⟨_, rfl⟩

/-- Where a value cannot be read under its name, another one is imported. -/
theorem not_parse_importText {q : Program} {faults : List SyntaxFault}
    (h : parse d (importText values index (" from " ++ lit ++ ";")).toList = .ok (q, faults))
    (hBad : ¬∀ x ∈ values, IsWritable x.inner) :
    q.body.flatMap importedBy ≠ importsIn value index values := by
  -- the entries before the first bad one are read as written, so it is met where it stands
  obtain ⟨before, x, after, rfl, hBefore, hNot⟩ := exists_first hBad
  obtain ⟨hBare, hWord⟩ : isBareName x.inner.text.toList = true ∧
      isPlainWord x.inner.text.toList = false := by
    simpa [IsWritable] using hNot
  obtain ⟨tail, hText⟩ := @toList_importText_split index lit before after x hBare
  rw [hText] at h
  generalize hWhole : "import".toList ++ ' ' :: '\x7b' :: ' ' ::
    ((before.zipIdx index).flatMap (fun e => (importEntry e).toList ++ [',', ' ']) ++
      (x.inner.text.toList ++ ' ' :: tail)) = text at h
  have hHead : ∀ c ∈ text.head?, isSolid c = true ∧ c ≠ '#' := by
    rw [← hWhole]
    exact head_of_word (by decide) _
  have hEntries : ∀ e ∈ before.zipIdx index, ReadsEntryOf (State.before d text)
      (importSpecifier false) (importEntry e).toList (TellsImport e) := fun e hMem =>
    readsEntry_importEntry (hBefore e.1 (List.fst_mem_of_mem_zipIdx hMem)) e.2 _
  have hSize : (before.zipIdx index).length ≤ (State.before d text).size := by
    have hEach := @length_le_flatMap _ (fun e => (importEntry e).toList ++ [',', ' '])
      (before.zipIdx index) (by simp)
    have hLength := congrArg List.length hWhole
    simp only [List.length_append, List.length_cons] at hLength
    show _ ≤ text.length
    omega
  have hNext (g : Grammar) (u : State) (mark : TokenKind)
      (hStands : State.Stands (State.before d text) u mark text) :
      u.next.token.kind ≠ .eof ∧ Reading.Yields (g.statementRule .list) u.next fun stmt _ =>
        ∃ span specifiers request, stmt = .imports span false specifiers request ∧
          MissesImport (before.zipIdx index) x specifiers := by
    rw [← hWhole] at hStands
    have hImport : isPlainWord "import".toList = true := by decide
    have h₁ := hStands.next (.word hImport (endsWord_blank _))
    have h₂ := h₁.next_blank (.braceL _)
    refine ⟨by simp [h₁.kind], importList_yields g h₁.kind h₁.plain h₂.kind ?_⟩
    rw [hWhole] at h₂
    exact separated_yields hEntries hSize h₂ fun v mark hBehind =>
      ⟨not_closed_of_bare hBare hWord (endsWord_blank _) hBehind,
        import_of_bare hBare hWord (endsWord_blank _) hBehind⟩
  obtain ⟨items, _, more, hBody, hNone, span, specifiers, r, rfl, hMisses⟩ :=
    @body_of_parse Unit (fun _ => []) (fun _ _ => True) [] text d _ q faults nofun nofun hHead
      hNext h
  cases hNone
  rw [hBody, List.nil_append, List.flatMap_cons, importsIn, List.zipIdx_append, List.zipIdx_cons]
  exact hMisses.ne r.source.value _

end Lists

theorem importsOf_given_exportList (index : Nat) (span : Span) (specifiers : List ExportSpecifier)
    (r : Request) :
    importsOf index (Stmt.exportList span false specifiers (some r)).given =
      importsIn r.source.value index (valuesOf specifiers) :=
  importsOf_foreign index (fun x : ExportSpecifier => x.outer.text) r.source.value
    (fun x => some x.inner.text) (valuesOf specifiers)

theorem forall_valuesOf {specifiers : List ExportSpecifier} {P : ExportSpecifier → Prop} :
    (∀ x ∈ valuesOf specifiers, P x) ↔ ∀ x ∈ specifiers, x.typeOnly = false → P x := by
  simp [valuesOf, and_imp]

/-- What stands in place of a re-export is read as the imports of its values, each under its private
name, exactly where each name that is written without quotes is a word. -/
theorem imports_read_iff {d : Dialect} {source : List Char} {s : Stmt} {r : Request}
    (h : s.reexport? = some r)
    (hLit : scan (sliceOf source r.source.span).toList = ⟨.string r.source.value r.source.halved,
      (sliceOf source r.source.span).toList.length, false, false⟩) (index : Nat) :
    (∃ q, parse d (importedText source index s) = .ok (q, []) ∧
        q.body.flatMap importedBy = importsOf index s.given) ↔
      ∀ x ∈ s.listed, x.typeOnly = false → IsWritable x.inner := by
  rcases Stmt.eq_of_reexport? h with ⟨span, specifiers, rfl⟩ | ⟨span, name, rfl⟩
  · rw [importsOf_given_exportList, Stmt.listed, ← forall_valuesOf]
    constructor
    · rintro ⟨q, hParse, hImports⟩
      by_contra hBad
      exact not_parse_importText hParse hBad hImports
    · exact parse_importText hLit
  · refine ⟨fun _ x hMem => absurd hMem List.not_mem_nil, fun _ => ?_⟩
    rw [importedText, toList_allText]
    obtain ⟨stmt, hParse, span, n, r, rfl, hName, hSource, -⟩ :=
      parse_single d (fun g => reads_importAll g hLit (isPlainWord_reexportName index)
        (isFreeName_reexportName index)) ⟨_, _, rfl, by decide⟩
        (by rintro _ ⟨_, _, _, rfl, -⟩; rfl)
    refine ⟨_, hParse, ?_⟩
    simp [importedBy, importedAs, Stmt.given, importsOf, hName, hSource]

end Standin.Automock
