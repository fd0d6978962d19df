import Standin.Proofs.Automock.Layout
import Standin.Proofs.Script.ImportLists

namespace Standin.Script

/-- Where a request leads and what it carries. -/
def Request.told (r : Request) : String × List (String × String) :=
  (r.source.value, r.attributes.map fun (key, value) => (key.text, value.value))

/-- What a statement at the top requests. Types request nothing. -/
def Stmt.requests : Stmt → List (String × List (String × String))
  | .imports _ false _ r => [r.told]
  | .exportList _ false _ (some r) => [r.told]
  | .exportAll _ false _ r => [r.told]
  | _ => []

/-- The request of a statement whose values are imported instead. -/
def Stmt.reexport? : Stmt → Option Request
  | .exportList _ false _ request => request
  | .exportAll _ false (some _) request => some request
  | _ => none

theorem Stmt.eq_of_reexport? {s : Stmt} {r : Request} (h : s.reexport? = some r) :
    (∃ span specifiers, s = .exportList span false specifiers (some r)) ∨
      ∃ span name, s = .exportAll span false (some name) r := by
  unfold reexport? at h
  split at h
  · next span specifiers request =>
    subst h
    exact .inl ⟨span, specifiers, rfl⟩
  · next span name request =>
    cases h
    exact .inr ⟨span, name, rfl⟩
  · cases h

def Stmt.listed : Stmt → List ExportSpecifier
  | .exportList _ _ specifiers _ => specifiers
  | _ => []

/-- What is requested by what is left of a statement. -/
def Stmt.leftRequests (s : Stmt) : List (String × List (String × String)) :=
  match s.reexport? with
  | some r => if s.passedOn = 0 then [] else [(r.source.value, [])]
  | none => s.requests

end Standin.Script

namespace Standin.Automock

open Standin.Script Standin.Script.Grammar Standin.Text

/-- Whether a name that is written without quotes is a word. -/
def IsWritable (name : ExportName) : Prop :=
  isBareName name.text.toList = true → isPlainWord name.text.toList = true

theorem writesName_exportName {name : String}
    (h : isBareName name.toList = true → isPlainWord name.toList = true) :
    ∃ kind, WritesName (exportName name).toList kind name := by
  unfold exportName
  split
  · next hBare => exact ⟨_, .word (h hBare)⟩
  · exact ⟨_, .quoted _⟩

theorem writesName_nameText {name : ExportName} (h : IsWritable name) :
    ∃ kind, WritesName (nameText name).toList kind name.text := writesName_exportName h

theorem isIdContinue_of_isDigit {c : Char} (h : c.isDigit = true) : isIdContinue c = true := by
  have hNarrow : c.toNat < 128 := by
    simp only [Char.isDigit, Bool.and_eq_true, decide_eq_true_eq] at h
    have hHigh := UInt32.le_iff_toNat_le.mp h.2
    simp at hHigh
    omega
  simp [isIdContinue, hNarrow, Char.isAlphanum, h]

theorem toList_reexportName (index : Nat) : (reexportName index).toList =
    '_' :: ("_modmock_reexport_".toList ++ (Nat.toDigits 10 index ++ "__".toList)) := by
  have hName : reexportName index = "__modmock_reexport_" ++ index.repr ++ "__" := rfl
  rw [hName, String.toList_append, String.toList_append, Nat.toList_repr, List.append_assoc]
  rfl

/-- A word that begins with an underscore is none of those that do not. -/
theorem notMem_of_underscore {w : String} (h : w.toList.head? = some '_') {words : List String}
    (hOther : ∀ v ∈ words, v.toList.head? ≠ some '_') : w ∉ words :=
  fun hMem => hOther w hMem h

theorem isFreeName_of_underscore {w : String} (h : w.toList.head? = some '_') :
    isFreeName w = true := by
  have hNot := @notMem_of_underscore w h ("await" :: "yield" :: "async" :: reservedWords)
    (by decide +kernel)
  simp only [List.mem_cons, not_or] at hNot
  obtain ⟨hAwait, hYield, hAsync, hReserved⟩ := hNot
  exact isFreeName_iff.mpr ⟨by simpa [isReserved] using hReserved, hAwait, hYield, hAsync⟩

/-- A number between characters of words makes a word. -/
theorem isPlainWord_numbered {before after : List Char} (hBefore : before.all isIdContinue = true)
    (hAfter : after.all isIdContinue = true) (index : Nat) :
    isPlainWord ('_' :: (before ++ (Nat.toDigits 10 index ++ after))) = true := by
  have hHead : isIdStart '_' = true := by decide
  have hDigits : (Nat.toDigits 10 index).all isIdContinue = true :=
    List.all_eq_true.mpr fun c hMem =>
      isIdContinue_of_isDigit (Nat.isDigit_of_mem_toDigits (by decide) (by decide) hMem)
  simp only [isPlainWord, hHead, List.all_append, hBefore, hDigits, hAfter, Bool.and_self]

theorem isPlainWord_reexportName (index : Nat) :
    isPlainWord (reexportName index).toList = true := by
  rw [toList_reexportName]
  exact isPlainWord_numbered (by decide) (by decide) index

theorem isFreeName_reexportName (index : Nat) : isFreeName (reexportName index) = true :=
  isFreeName_of_underscore (by rw [toList_reexportName]; rfl)

theorem toList_as (inner outer : String) : (inner ++ " as " ++ outer).toList =
    inner.toList ++ ' ' :: ("as".toList ++ ' ' :: outer.toList) := by
  have hAs : " as ".toList = ' ' :: ("as".toList ++ [' ']) := rfl
  simp only [String.toList_append, hAs, List.append_assoc, List.cons_append, List.nil_append]

theorem toList_origin (lit : String) :
    (" from " ++ lit ++ ";").toList = originText lit.toList := by
  have hFrom : " from ".toList = ' ' :: ("from".toList ++ [' ']) := rfl
  have hEnd : ";".toList = [';'] := by decide
  simp only [String.toList_append, originText, hFrom, hEnd, List.append_assoc, List.cons_append,
    List.nil_append]

section Lists

variable {ε : Type} (text : ε → String)

theorem intercalate_entries (entry : ε) (more : List ε) (tail : List Char) :
    (", ".intercalate ((entry :: more).map text)).toList ++ ' ' :: '\x7d' :: tail =
      (text entry).toList ++ entriesText tail (more.map fun e => (text e).toList) := by
  induction more generalizing entry with
  | nil => simp [entriesText]
  | cons next more ih =>
    have hComma : ", ".toList = [',', ' '] := by decide
    rw [List.map_cons, String.intercalate_cons_of_ne_nil (by simp)]
    simp only [String.toList_append, hComma, List.append_assoc, List.cons_append, List.nil_append,
      ih next]
    rfl

theorem toList_entries (head : String) (entry : ε) (more : List ε) (lit : String) :
    (head ++ ", ".intercalate ((entry :: more).map text) ++ " \x7d" ++
      (" from " ++ lit ++ ";")).toList = head.toList ++ ((text entry).toList ++
        entriesText (originText lit.toList) (more.map fun e => (text e).toList)) := by
  have hClose : " \x7d".toList = [' ', '\x7d'] := by decide
  rw [← intercalate_entries text]
  simp only [String.toList_append (t := " from " ++ lit ++ ";"), toList_origin]
  simp only [String.toList_append, hClose, List.append_assoc, List.cons_append, List.nil_append]

end Lists

def importEntry : ExportSpecifier × Nat → String
  | (x, index) => nameText x.inner ++ " as " ++ reexportName index

theorem toList_importText (x : ExportSpecifier) (more : List ExportSpecifier) (index : Nat)
    (lit : String) :
    (importText (x :: more) index (" from " ++ lit ++ ";")).toList =
      importListText lit.toList (importEntry (x, index)).toList
        ((more.zipIdx (index + 1)).map fun e => (importEntry e).toList) := by
  have hHead : "import \x7b ".toList = "import".toList ++ [' ', '\x7b', ' '] := rfl
  have hList := toList_entries importEntry "import \x7b " (x, index) (more.zipIdx (index + 1)) lit
  delta importListText
  simp only [hHead, List.append_assoc, List.cons_append, List.nil_append] at hList
  exact hList

theorem toList_typesText (x : ExportSpecifier) (more : List ExportSpecifier) (lit : String) :
    (typesText (x :: more) (" from " ++ lit ++ ";")).toList =
      exportTypesText lit.toList (specifierText x).toList
        (more.map fun x => (specifierText x).toList) := by
  have hHead : "export type \x7b ".toList =
      "export".toList ++ ' ' :: ("type".toList ++ [' ', '\x7b', ' ']) := rfl
  have hList := toList_entries specifierText "export type \x7b " x more lit
  delta exportTypesText
  simp only [hHead, List.append_assoc, List.cons_append, List.nil_append] at hList
  exact hList

theorem toList_allText (index : Nat) (lit : String) :
    (allText index lit).toList = importAllText lit.toList (reexportName index) := by
  have hHead : "import * as ".toList =
      "import".toList ++ ' ' :: '*' :: ' ' :: ("as".toList ++ [' ']) := rfl
  have hText : allText index lit =
      "import * as " ++ reexportName index ++ (" from " ++ lit ++ ";") := by
    rw [← String.append_assoc, ← String.append_assoc]
    rfl
  rw [hText, String.toList_append, String.toList_append, toList_origin]
  delta importAllText
  simp only [hHead, List.append_assoc, List.cons_append, List.nil_append]

theorem readsEntry_importEntry {x : ExportSpecifier} (h : IsWritable x.inner) (index : Nat) :
    ReadsEntry (importSpecifier false) (importEntry (x, index)).toList fun spec =>
      ∃ imported n, spec = .named imported n false ∧ imported.text = x.inner.text ∧
        n.text = reexportName index := by
  obtain ⟨kind, hName⟩ := writesName_nameText h
  rw [importEntry, toList_as]
  exact readsEntry_import hName (isPlainWord_reexportName index) (isFreeName_reexportName index)

theorem readsEntry_specifierText {x : ExportSpecifier} (hInner : IsWritable x.inner)
    (hOuter : IsWritable x.outer) :
    ReadsEntry (exportSpecifier true) (specifierText x).toList fun spec =>
      spec.inner.text = x.inner.text ∧ spec.outer.text = x.outer.text ∧ spec.typeOnly = false := by
  obtain ⟨_, hName⟩ := writesName_nameText hInner
  obtain ⟨_, hName'⟩ := writesName_nameText hOuter
  unfold specifierText
  split
  · next hSame =>
    rw [← hSame] at hName'
    rw [hName'.unique hName]
    exact readsEntry_export true hName
  · rw [toList_as]
    exact readsEntry_export_as true hName hName'

/-- A statement that stands in place of a re-export, and what it requests. -/
structure LeftStatement where
  text : List Char
  requests : List (String × List (String × String))

/-- A statement requests modules, and exports a name only where types may share it. -/
def Requesting (d : Dialect) (requests : List (String × List (String × String))) (s : Stmt) :
    Prop :=
  s.requests = requests ∧ (d.typed = false → s.exportedNames = [])

/-- The statements that stand in place of a list. -/
def leftOfList (index : Nat) (specifiers : List ExportSpecifier) (lit value : String) :
    List LeftStatement :=
  let origin := " from " ++ lit ++ ";"
  (if valuesOf specifiers = [] then []
    else [⟨(importText (valuesOf specifiers) index origin).toList, [(value, [])]⟩]) ++
  if typesOf specifiers = [] then [] else [⟨(typesText (typesOf specifiers) origin).toList, []⟩]

theorem mem_leftOfList {index : Nat} {specifiers : List ExportSpecifier} {lit value : String}
    {e : LeftStatement} (h : e ∈ leftOfList index specifiers lit value) :
    valuesOf specifiers ≠ [] ∧ e = ⟨(importText (valuesOf specifiers) index
      (" from " ++ lit ++ ";")).toList, [(value, [])]⟩ ∨
    typesOf specifiers ≠ [] ∧ e = ⟨(typesText (typesOf specifiers)
      (" from " ++ lit ++ ";")).toList, []⟩ := by
  by_cases hValues : valuesOf specifiers = [] <;> by_cases hTypes : typesOf specifiers = [] <;>
    simp_all [leftOfList]

theorem flatMap_leftOfList (index : Nat) (specifiers : List ExportSpecifier) (lit value : String) :
    (leftOfList index specifiers lit value).flatMap LeftStatement.text =
      (importText (valuesOf specifiers) index (" from " ++ lit ++ ";") ++
        typesText (typesOf specifiers) (" from " ++ lit ++ ";")).toList := by
  by_cases hValues : valuesOf specifiers = [] <;> by_cases hTypes : typesOf specifiers = [] <;>
    simp [leftOfList, hValues, hTypes, importText, typesText]

theorem requests_leftOfList (index : Nat) (span : Span) (specifiers : List ExportSpecifier)
    (lit : String) (r : Request) :
    (leftOfList index specifiers lit r.source.value).flatMap LeftStatement.requests =
      (Stmt.exportList span false specifiers (some r)).leftRequests := by
  have hPassed : (Stmt.exportList span false specifiers (some r)).passedOn = 0 ↔
      valuesOf specifiers = [] := List.length_eq_zero_iff
  simp only [Stmt.leftRequests, Stmt.reexport?, hPassed]
  by_cases hValues : valuesOf specifiers = [] <;> by_cases hTypes : typesOf specifiers = [] <;>
    simp [leftOfList, hValues, hTypes]

section Reads

variable {base : State} {g : Grammar} {lit value : String} {halved : Bool}
  (hLit : scan lit.toList = ⟨.string value halved, lit.toList.length, false, false⟩)
include hLit

theorem reads_importText {values : List ExportSpecifier} {index : Nat} (hSome : values ≠ [])
    (hWritable : ∀ x ∈ values, IsWritable x.inner)
    (hSize : (importText values index (" from " ++ lit ++ ";")).toList.length ≤ base.size) :
    ReadsStatement base (g.statementRule .list)
      (importText values index (" from " ++ lit ++ ";")).toList
      (Requesting base.dialect [(value, [])]) := by
  cases values with
  | nil => exact absurd rfl hSome
  | cons x more =>
    have hEntries : ∀ e ∈ (x :: more).zipIdx index,
        ReadsEntry (importSpecifier false) (importEntry e).toList fun spec =>
          ∃ imported n, spec = .named imported n false ∧ imported.text = e.1.inner.text ∧
            n.text = reexportName e.2 := fun e hMem =>
      readsEntry_importEntry (hWritable e.1 (List.fst_mem_of_mem_zipIdx hMem)) e.2
    rw [toList_importText] at hSize ⊢
    have hMore := length_le_importListText lit.toList (importEntry (x, index)).toList
      ((more.zipIdx (index + 1)).map fun e => (importEntry e).toList)
    rw [List.length_map] at hMore
    refine (reads_importList g hLit hEntries (Nat.le_trans hMore hSize)).mono ?_
    rintro stmt ⟨span, specifiers, r, rfl, -, rfl, hNone⟩
    exact ⟨by simp [Stmt.requests, Request.told, hNone], fun _ => rfl⟩

theorem reads_allText (index : Nat) :
    ReadsStatement base (g.statementRule .list) (allText index lit).toList
      (Requesting base.dialect [(value, [])]) := by
  rw [toList_allText]
  refine (reads_importAll g hLit (isPlainWord_reexportName index)
    (isFreeName_reexportName index)).mono ?_
  rintro stmt ⟨span, n, r, rfl, -, rfl, hNone⟩
  exact ⟨by simp [Stmt.requests, Request.told, hNone], fun _ => rfl⟩

theorem reads_typesText {types : List ExportSpecifier} (hTyped : base.dialect.typed = true)
    (hSome : types ≠ []) (hWritable : ∀ x ∈ types, IsWritable x.inner ∧ IsWritable x.outer)
    (hSize : (typesText types (" from " ++ lit ++ ";")).toList.length ≤ base.size) :
    ReadsStatement base (g.statementRule .list)
      (typesText types (" from " ++ lit ++ ";")).toList (Requesting base.dialect []) := by
  cases types with
  | nil => exact absurd rfl hSome
  | cons x more =>
    have hEntries : ∀ y ∈ x :: more,
        ReadsEntry (exportSpecifier true) (specifierText y).toList fun spec =>
          spec.inner.text = y.inner.text ∧ spec.outer.text = y.outer.text ∧
            spec.typeOnly = false := fun y hMem =>
      readsEntry_specifierText (hWritable y hMem).1 (hWritable y hMem).2
    rw [toList_typesText] at hSize ⊢
    have hMore := length_le_exportTypesText lit.toList (specifierText x).toList
      (more.map fun y => (specifierText y).toList)
    rw [List.length_map] at hMore
    refine (reads_exportTypes g hLit hTyped hEntries (Nat.le_trans hMore hSize)).mono ?_
    rintro stmt ⟨span, specifiers, r, rfl, -, -, -⟩
    exact ⟨rfl, fun hUntyped => by rw [hTyped] at hUntyped; cases hUntyped⟩

end Reads

/-- What is taken over from a re-export can be read where it is written again: its source is a
literal, types stand where types are allowed, and names without quotes are words. -/
structure Rereadable (d : Dialect) (source : List Char) (s : Stmt) : Prop where
  literal : ∀ r ∈ s.reexport?, scan (sliceOf source r.source.span).toList =
    ⟨.string r.source.value r.source.halved, (sliceOf source r.source.span).toList.length,
      false, false⟩
  typed : ∀ x ∈ s.listed, x.typeOnly = true → d.typed = true
  inner : ∀ x ∈ s.listed, IsWritable x.inner
  outer : ∀ x ∈ s.listed, x.typeOnly = true → IsWritable x.outer

/-- A text of left statements, each of which is read as it requests, is read as they request. -/
theorem parse_left (d : Dialect) {left : List LeftStatement}
    (hReads : ∀ g, ∀ e ∈ left, ReadsStatement (State.before d (left.flatMap LeftStatement.text))
      (statementRule g .list) e.text (Requesting d e.requests))
    (hWords : ∀ e ∈ left, ∃ w rest, e.text = w ++ rest ∧ isPlainWord w = true) :
    ∃ q, parse d (left.flatMap LeftStatement.text) = .ok (q, []) ∧
      q.body.flatMap Stmt.requests = left.flatMap LeftStatement.requests := by
  obtain ⟨body, hParse, hAll⟩ := parse_statements d hReads hWords
    fun hUntyped e _ stmt hTold => hTold.2 hUntyped
  exact ⟨⟨body⟩, hParse, flatMap_of_forall₂ hAll fun e _ stmt hTold => hTold.1⟩

theorem length_le_left {left : List LeftStatement} {e : LeftStatement} (h : e ∈ left) :
    e.text.length ≤ (left.flatMap LeftStatement.text).length := by
  rw [List.flatMap_def]
  exact (List.infix_of_mem_flatten (List.mem_map_of_mem h)).length_le

theorem begins_importText {values : List ExportSpecifier} (hSome : values ≠ []) (index : Nat)
    (lit : String) :
    ∃ w rest, (importText values index (" from " ++ lit ++ ";")).toList = w ++ rest ∧
      isPlainWord w = true := by
  cases values with
  | nil => exact absurd rfl hSome
  | cons x more =>
    rw [toList_importText]
    delta importListText
    exact ⟨_, _, rfl, by decide⟩

theorem begins_typesText {types : List ExportSpecifier} (hSome : types ≠ []) (lit : String) :
    ∃ w rest, (typesText types (" from " ++ lit ++ ";")).toList = w ++ rest ∧
      isPlainWord w = true := by
  cases types with
  | nil => exact absurd rfl hSome
  | cons x more =>
    rw [toList_typesText]
    delta exportTypesText
    exact ⟨_, _, rfl, by decide⟩

theorem parse_leftOfList {d : Dialect} {source : List Char} {span : Span}
    {specifiers : List ExportSpecifier} {r : Request}
    (hRead : Rereadable d source (.exportList span false specifiers (some r))) (index : Nat) :
    ∃ q, parse d (leftText source index (.exportList span false specifiers (some r))) =
        .ok (q, []) ∧
      q.body.flatMap Stmt.requests =
        (Stmt.exportList span false specifiers (some r)).leftRequests := by
  have hLit := hRead.literal r rfl
  have hValues (x : ExportSpecifier) (hMem : x ∈ valuesOf specifiers) : IsWritable x.inner :=
    hRead.inner x (List.mem_of_mem_filter hMem)
  have hTypes (x : ExportSpecifier) (hMem : x ∈ typesOf specifiers) :
      IsWritable x.inner ∧ IsWritable x.outer := by
    obtain ⟨hMem, hType⟩ := List.mem_filter.mp hMem
    exact ⟨hRead.inner x hMem, hRead.outer x hMem hType⟩
  have hTyped (hSome : typesOf specifiers ≠ []) : d.typed = true := by
    obtain ⟨x, hMem⟩ := List.exists_mem_of_ne_nil _ hSome
    obtain ⟨hMem, hType⟩ := List.mem_filter.mp hMem
    exact hRead.typed x hMem hType
  have hWords (e : LeftStatement)
      (hMem : e ∈ leftOfList index specifiers (sliceOf source r.source.span) r.source.value) :
      ∃ w rest, e.text = w ++ rest ∧ isPlainWord w = true := by
    rcases mem_leftOfList hMem with ⟨hSome, rfl⟩ | ⟨hSome, rfl⟩
    · exact begins_importText hSome index _
    · exact begins_typesText hSome _
  have hReads (g : Grammar) (e : LeftStatement)
      (hMem : e ∈ leftOfList index specifiers (sliceOf source r.source.span) r.source.value) :
      ReadsStatement (State.before d ((leftOfList index specifiers (sliceOf source r.source.span)
        r.source.value).flatMap LeftStatement.text)) (g.statementRule .list) e.text
        (Requesting d e.requests) := by
    have hSize := length_le_left hMem
    rcases mem_leftOfList hMem with ⟨hSome, rfl⟩ | ⟨hSome, rfl⟩
    · exact reads_importText hLit hSome hValues hSize
    · exact reads_typesText hLit (hTyped hSome) hSome hTypes hSize
  obtain ⟨q, hParse, hRequests⟩ := parse_left d hReads hWords
  refine ⟨q, ?_, ?_⟩
  · rw [← hParse, flatMap_leftOfList]
    rfl
  · rw [hRequests, requests_leftOfList]

theorem parse_leftOfAll {d : Dialect} {source : List Char} {span : Span} {name : ExportName}
    {r : Request} (hRead : Rereadable d source (.exportAll span false (some name) r))
    (index : Nat) :
    ∃ q, parse d (leftText source index (.exportAll span false (some name) r)) = .ok (q, []) ∧
      q.body.flatMap Stmt.requests = (Stmt.exportAll span false (some name) r).leftRequests := by
  have hLit := hRead.literal r rfl
  have hReads (g : Grammar) : ReadsStatement
      (State.before d (allText index (sliceOf source r.source.span)).toList)
      (g.statementRule .list) (allText index (sliceOf source r.source.span)).toList
      (Requesting d [(r.source.value, [])]) := reads_allText hLit index
  have hText := toList_allText index (sliceOf source r.source.span)
  have hParse := @parse_left d
    [⟨(allText index (sliceOf source r.source.span)).toList, [(r.source.value, [])]⟩]
  simp only [List.mem_singleton, forall_eq, List.flatMap_singleton] at hParse
  exact hParse hReads ⟨_, _, hText, by decide⟩

/-- What is left of a re-export is read back as what it requests. -/
theorem parse_leftText {d : Dialect} {source : List Char} {s : Stmt} {r : Request}
    (h : s.reexport? = some r) (hRead : Rereadable d source s) (index : Nat) :
    ∃ q, parse d (leftText source index s) = .ok (q, []) ∧
      q.body.flatMap Stmt.requests = s.leftRequests := by
  rcases Stmt.eq_of_reexport? h with ⟨span, specifiers, rfl⟩ | ⟨span, name, rfl⟩
  · exact parse_leftOfList hRead index
  · exact parse_leftOfAll hRead index

theorem requests_of_reexport? {s : Stmt} {r : Request} (h : s.reexport? = some r) :
    s.requests = [r.told] := by
  rcases Stmt.eq_of_reexport? h with ⟨span, specifiers, rfl⟩ | ⟨span, name, rfl⟩ <;> rfl

theorem leftRequests_eq_iff (s : Stmt) : s.leftRequests = s.requests ↔
    ∀ r ∈ s.reexport?, r.attributes = [] ∧ s.passedOn ≠ 0 := by
  cases h : s.reexport? with
  | none => simp [Stmt.leftRequests, h]
  | some r =>
    rw [requests_of_reexport? h, Stmt.leftRequests, h]
    by_cases hPassed : s.passedOn = 0 <;> simp [hPassed, Request.told]

theorem length_leftRequests_le (s : Stmt) : s.leftRequests.length ≤ s.requests.length := by
  cases h : s.reexport? with
  | none => simp [Stmt.leftRequests, h]
  | some r =>
    rw [requests_of_reexport? h, Stmt.leftRequests, h]
    dsimp only
    split <;> simp

section Joined

variable {α β : Type} {f g : α → List β} {as : List α}

theorem length_flatMap_le (h : ∀ a ∈ as, (f a).length ≤ (g a).length) :
    (as.flatMap f).length ≤ (as.flatMap g).length := by
  induction as with
  | nil => exact Nat.le_refl _
  | cons a more ih =>
    obtain ⟨hFirst, hMore⟩ := List.forall_mem_cons.mp h
    simp only [List.flatMap_cons, List.length_append]
    exact Nat.add_le_add hFirst (ih hMore)

/-- Lists none of which is longer than its counterpart join to the same only one by one. -/
theorem flatMap_eq_flatMap_iff (h : ∀ a ∈ as, (f a).length ≤ (g a).length) :
    as.flatMap f = as.flatMap g ↔ ∀ a ∈ as, f a = g a := by
  refine ⟨fun hSame => ?_, fun hEach => List.flatMap_congr hEach⟩
  induction as with
  | nil => simp
  | cons a more ih =>
    obtain ⟨hFirst, hMore⟩ := List.forall_mem_cons.mp h
    have hRest := length_flatMap_le hMore
    have hLength := congrArg List.length hSame
    simp only [List.flatMap_cons, List.length_append] at hSame hLength
    obtain ⟨hHead, hTail⟩ := List.append_inj hSame (by omega)
    exact List.forall_mem_cons.mpr ⟨hHead, ih hMore hTail⟩

end Joined

/-- The code of a mocked module is laid out statement by statement, and what stands there of a
statement that gives up no export is its own text. What is left of a re-export is read back as what
it requests: its source without attributes, or nothing when it passes no value on. So the modules
requested are those of the source exactly where no re-export carries attributes and each of them
passes a value on. -/
theorem requests_kept_iff {code id : String} {spy : Bool} {p : Program} {out : Automocked}
    (h : automock code id spy = .ok out) (hProgram : program code id = .ok p)
    (hSpans : SpansInOrder p) :
    out.code.toList = layout code.toList 0 0 p.body ++
      (if (removeExports code.toList p).bindings = [] then []
        else (epilogue (removeExports code.toList p).bindings spy).toList) ∧
    (∀ s ∈ p.body, s.isRewritten = false → ∀ index,
      leftText code.toList index s = Edit.between code.toList s.span.start s.span.stop) ∧
    (∀ s ∈ p.body, ∀ r ∈ s.reexport?,
      Rereadable (Dialect.ofModule (Module.strip id)) code.toList s → ∀ index,
        ∃ q, parse (Dialect.ofModule (Module.strip id)) (leftText code.toList index s) =
          .ok (q, []) ∧ q.body.flatMap Stmt.requests = s.leftRequests) ∧
    (p.body.flatMap Stmt.leftRequests = p.body.flatMap Stmt.requests ↔
      ∀ s ∈ p.body, ∀ r ∈ s.reexport?, r.attributes = [] ∧ s.passedOn ≠ 0) := by
  refine ⟨eq_ofProgram h hProgram ▸ code_eq_layout spy hSpans, fun s _ hKept index =>
    leftText_of_not_isRewritten _ index hKept, fun s _ r hRequest hRead index =>
    parse_leftText hRequest hRead index, ?_⟩
  rw [flatMap_eq_flatMap_iff fun s _ => length_leftRequests_le s]
  exact forall₂_congr fun s _ => leftRequests_eq_iff s

/-- The attributes say how the module is to be loaded; its import has none. -/
def attributesSource : String := "export * as ns from \"./d.json\" with \x7b type: \"json\" \x7d;\n"

def readsAttributes : Except Fault Program → Bool
  | .ok ⟨[.exportAll span false (some _) r]⟩ =>
    decide (span.start ≤ span.stop ∧ r.source = ⟨⟨20, 30⟩, "./d.json", false⟩ ∧
      r.told = ("./d.json", [("type", "json")]))
  | _ => false

theorem program_attributesSource :
    ∃ span name r, program attributesSource "/p/a.js" =
        .ok ⟨[.exportAll span false (some name) r]⟩ ∧
      span.start ≤ span.stop ∧ r.source = ⟨⟨20, 30⟩, "./d.json", false⟩ ∧
      r.told = ("./d.json", [("type", "json")]) := by
  have hParsed : readsAttributes (program attributesSource "/p/a.js") = true := by decide +kernel
  unfold readsAttributes at hParsed
  split at hParsed
  · next span name r hProgram => exact ⟨span, name, r, hProgram, of_decide_eq_true hParsed⟩
  · cases hParsed

theorem attributesSource_dropped :
    ∃ out p s q, automock attributesSource "/p/a.js" false = .ok out ∧
      program attributesSource "/p/a.js" = .ok p ∧ p.body = [s] ∧
      s.requests = [("./d.json", [("type", "json")])] ∧
      parse (Dialect.ofModule (Module.strip "/p/a.js")) (leftText attributesSource.toList 0 s) =
        .ok (q, []) ∧
      q.body.flatMap Stmt.requests = [("./d.json", [])] ∧
      p.body.flatMap Stmt.leftRequests ≠ p.body.flatMap Stmt.requests := by
  obtain ⟨span, name, r, hProgram, hForward, hSource, hTold⟩ := program_attributesSource
  let s : Stmt := .exportAll span false (some name) r
  have hSpans : SpansInOrder ⟨[s]⟩ :=
    { ordered := List.pairwise_singleton ..
      forward := by simpa [s, Stmt.span] using hForward
      inside := by simp [s, Stmt.shown?] }
  have hText : sliceOf attributesSource.toList ⟨20, 30⟩ = Json.quote "./d.json" := by decide +kernel
  have hRead : Rereadable (Dialect.ofModule (Module.strip "/p/a.js")) attributesSource.toList s :=
    { literal := by
        rintro _ ⟨⟩
        rw [hSource, hText]
        simpa only [List.append_nil] using scan_quote "./d.json" []
      typed := by simp [s, Stmt.listed]
      inner := by simp [s, Stmt.listed]
      outer := by simp [s, Stmt.listed] }
  have hOut := automock_of_program hProgram false
  obtain ⟨-, -, hLeft, hIff⟩ := requests_kept_iff hOut hProgram hSpans
  obtain ⟨q, hParse, hRequests⟩ := hLeft s (List.mem_singleton.mpr rfl) r rfl hRead 0
  have hValue : r.source.value = "./d.json" := by rw [hSource]
  refine ⟨_, _, s, q, hOut, hProgram, rfl, ?_, hParse, ?_, fun hSame => ?_⟩
  · rw [← hTold]
    rfl
  · rw [hRequests, ← hValue]
    rfl
  · obtain ⟨hNone, -⟩ := hIff.mp hSame s (List.mem_singleton.mpr rfl) r rfl
    simp [Request.told, hNone] at hTold

end Standin.Automock
