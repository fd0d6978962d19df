import Standin.Proofs.Automock.ExportShape
import Standin.Proofs.Automock.Hygiene

namespace Standin.Script

def Decl.isValue : Decl → Bool
  | .typeAlias .. | .interface .. => false
  | .alias _ typeOnly _ _ => !typeOnly
  | _ => true

/-- The names a statement at the top declares, with the kinds of their declarations: unlike in
`topNames`, what is only declared counts as what it is declared to be. -/
def Stmt.declares : Stmt → List TopName
  | .decl d | .exportDecl _ d => d.names.map fun n => ⟨n.text, d.isValue⟩
  | .exportDefault _ (.function f) => f.name?.toList.map fun n => ⟨n.text, true⟩
  | s => s.topNames

def Program.declares (p : Program) : List TopName := p.body.flatMap Stmt.declares

def Stmt.taken : Stmt → List String
  | .exportList _ _ specifiers none => specifiers.map (·.inner.text)
  | _ => []

/-- Whether every name that a list without a source takes is declared at the top. -/
def Program.ListsDeclared (p : Program) : Prop :=
  ∀ name ∈ p.body.flatMap Stmt.taken, name ∈ p.declares.map TopName.text

instance (p : Program) : Decidable p.ListsDeclared :=
  inferInstanceAs (Decidable (∀ name ∈ p.body.flatMap Stmt.taken,
    name ∈ p.declares.map TopName.text))

/-- What a list without a source exports under a name, unless it marks it as a type. -/
def Stmt.pairs? (exported : String) : Stmt → Option String
  | .exportList _ false specifiers none =>
    ((specifiers.filter (!·.typeOnly)).find? (·.outer.text = exported)).map (·.inner.text)
  | _ => none

/-- The same, for the first statement that exports a value under the name. -/
def Program.pairs? (p : Program) (exported : String) : Option String :=
  (p.body.find? (exported ∈ ·.givenExports)).bind (·.pairs? exported)

end Standin.Script

namespace Standin.Automock

open Standin.Script

/-- The names of a module that a value stands behind: what it declares as one, and the private names
given to values without a name of their own. -/
def valueNames (p : Program) : List String :=
  (p.declares.filter (·.isValue)).map TopName.text ++
    (if p.body.any Stmt.isNamelessDefault then [defaultName] else []) ++
    (List.range p.passedOn).map reexportName

theorem mem_valueNames {p : Program} {name : String} : name ∈ valueNames p ↔
    ⟨name, true⟩ ∈ p.declares ∨ (p.body.any Stmt.isNamelessDefault ∧ name = defaultName) ∨
      ∃ i < p.passedOn, name = reexportName i := by
  have hDeclared : name ∈ (p.declares.filter (·.isValue)).map TopName.text ↔
      ⟨name, true⟩ ∈ p.declares := by
    simp only [List.mem_map, List.mem_filter]
    constructor
    · rintro ⟨⟨text, isValue⟩, ⟨hMem, rfl⟩, rfl⟩
      exact hMem
    · exact fun hMem => ⟨_, ⟨hMem, rfl⟩, rfl⟩
  unfold valueNames
  rw [List.mem_append, List.mem_append, hDeclared, or_assoc]
  simp only [List.mem_ite_nil_right, List.mem_singleton, List.mem_map, List.mem_range, eq_comm]

/-- What a statement exports without a value, as it stands in a mocked module. -/
def keptTypes (source : List Char) : Stmt → List Char
  | .exportList _ false specifiers (some request) =>
    (typesText (typesOf specifiers) (" from " ++ sliceOf source request.source.span ++ ";")).toList
  | .exportList _ false specifiers none => (typesText (typesOf specifiers) ";").toList
  | s => if s.isRewritten then [] else Edit.between source s.span.start s.span.stop

/-- What is recorded is the first of its name. -/
theorem mem_recordAll {b : Binding} {bindings more : List Binding} :
    b ∈ recordAll bindings more ↔ b ∈ bindings ∨
      b.exported ∉ bindings.map (·.exported) ∧
        more.find? (·.exported = b.exported) = some b := by
  induction more generalizing bindings with
  | nil => simp [recordAll]
  | cons c more ih =>
    rw [recordAll, ih]
    split
    · next hThere =>
      have hMem : c.exported ∈ bindings.map (·.exported) := by
        simpa [List.any_eq_true] using hThere
      have hOther : b.exported ∉ bindings.map (·.exported) → c.exported ≠ b.exported :=
        fun hNew hSame => hNew (hSame ▸ hMem)
      grind
    · next hNew =>
      have hNew : c.exported ∉ bindings.map (·.exported) := by
        simpa [List.any_eq_true] using hNew
      simp only [List.mem_append, List.map_append]
      grind

namespace Addition

/-- The first binding of a name comes from the first statement that exports it. -/
theorem find?_ofStmts (source : List Char) (index : Nat) {body : List Stmt}
    (hBehind : ∀ s ∈ body, s.ShowsBehind) {exported : String} {s : Stmt}
    (h : body.find? (exported ∈ ·.givenExports) = some s) :
    ∃ i, index ≤ i ∧ i + s.passedOn ≤ index + (body.map Stmt.passedOn).sum ∧
      (ofStmts source index body).bindings.find? (·.exported = exported) =
        (ofStmt source i s).bindings.find? (·.exported = exported) := by
  induction body generalizing index with
  | nil => cases h
  | cons t more ih =>
    obtain ⟨hFirst, hMore⟩ := List.forall_mem_cons.mp hBehind
    simp only [ofStmts, append, List.find?_append, reexports_ofStmt, List.map_cons, List.sum_cons]
    have hSome : ((ofStmt source index t).bindings.find? (·.exported = exported)).isSome ↔
        exported ∈ t.givenExports := by
      rw [List.find?_isSome, ← exported_ofStmt source index hFirst]
      simp only [decide_eq_true_eq, List.mem_map]
    by_cases hThere : exported ∈ t.givenExports
    · rw [List.find?_cons_of_pos (by simpa using hThere)] at h
      cases h
      exact ⟨index, Nat.le_refl _, by omega, Option.or_of_isSome (hSome.mpr hThere)⟩
    · rw [List.find?_cons_of_neg (by simpa using hThere)] at h
      obtain ⟨i, hLow, hHigh, hSame⟩ := ih (index + t.passedOn) hMore h
      have hNone := Option.not_isSome_iff_eq_none.mp (mt hSome.mp hThere)
      exact ⟨i, by omega, by omega, by rw [hNone, Option.none_or, hSame]⟩

theorem find?_ofStmt_of_pairs? (source : List Char) (index : Nat) {s : Stmt}
    {exported inner : String} (h : s.pairs? exported = some inner) :
    (ofStmt source index s).bindings.find? (·.exported = exported) = some ⟨exported, inner⟩ := by
  unfold Stmt.pairs? at h
  split at h
  · next specifiers =>
    obtain ⟨specifier, hFound, rfl⟩ := Option.map_eq_some_iff.mp h
    have hOuter : specifier.outer.text = exported := by simpa using List.find?_some hFound
    simp only [ofStmt, ofList, valuesOf, List.find?_map, Function.comp_def, hFound, Option.map_some,
      hOuter]
  · cases h

/-- An exported declaration is bound by the names it declares, and is one of values. -/
theorem inner_of_mem_ofDecl {start : Nat} {d : Decl} {b : Binding}
    (h : b ∈ (ofDecl start d).bindings) :
    ⟨b.inner, true⟩ ∈ d.names.map fun n => (⟨n.text, d.isValue⟩ : TopName) := by
  have hNamed {declaration : Span} {names : List Name}
      (hMem : b ∈ (ofNames start declaration names).bindings) :
      ⟨b.inner, true⟩ ∈ names.map fun n => (⟨n.text, true⟩ : TopName) := by
    unfold ofNames at hMem
    split at hMem
    · cases hMem
    · obtain ⟨n, hName, rfl⟩ := List.mem_map.mp (mem_of_mem_strip hMem)
      exact List.mem_map_of_mem hName
  cases d with
  | «variable» span kind declared ds =>
    cases declared with
    | true => cases h
    | false =>
      obtain ⟨n, hName, rfl⟩ := List.mem_map.mp (mem_of_mem_strip h)
      exact List.mem_map_of_mem hName
  | function declared f =>
    cases declared with
    | true => cases h
    | false => exact hNamed h
  | classDecl declared c =>
    cases declared with
    | true => cases h
    | false => exact hNamed h
  | _ => cases h

/-- What no list pairs with another name has a value: one that is declared, or one that is given a
private name. -/
theorem inner_of_pairs?_eq_none {source : List Char} {index : Nat} {s : Stmt} {b : Binding}
    (hMem : b ∈ (ofStmt source index s).bindings) (hNone : s.pairs? b.exported = none) :
    ⟨b.inner, true⟩ ∈ s.declares ∨ (s.isNamelessDefault ∧ b.inner = defaultName) ∨
      ∃ i, index ≤ i ∧ i < index + s.passedOn ∧ b.inner = reexportName i := by
  cases s using Stmt.byExport with
  | kept s h =>
    obtain ⟨-, hEmpty, -⟩ := ofStmt_of_not_isRewritten source index h
    rw [hEmpty] at hMem
    cases hMem
  | varDecl | function | classDecl => exact .inl (inner_of_mem_ofDecl hMem)
  | namedFunction _ f n h | namedClass _ c n h =>
    simp only [ofStmt, ofDefault, h] at hMem
    have hSame := List.mem_singleton.mp (mem_of_mem_strip hMem)
    simp [hSame, Stmt.declares, Stmt.topNames, DefaultValue.topNames, h]
  | namelessFunction _ f h | namelessClass _ c h =>
    simp only [ofStmt, ofDefault, h] at hMem
    simp [eq_of_mem_captured hMem, Stmt.isNamelessDefault, h]
  | expr => exact .inr (.inl ⟨rfl, congrArg Binding.inner (eq_of_mem_captured hMem)⟩)
  | ownList span specifiers =>
    -- A list without a source pairs every name it exports.
    obtain ⟨specifier, hValue, rfl⟩ := List.mem_map.mp hMem
    have hAll := List.find?_eq_none.mp (Option.map_eq_none_iff.mp hNone)
    exact absurd (decide_eq_true rfl) (hAll specifier hValue)
  | foreignList span specifiers r =>
    obtain ⟨⟨specifier, i⟩, hIndexed, rfl⟩ := List.mem_map.mp hMem
    obtain ⟨hLow, hHigh, -⟩ := List.mem_zipIdx hIndexed
    exact .inr (.inr ⟨i, hLow, hHigh, rfl⟩)
  | foreignAll span name r =>
    refine .inr (.inr ⟨index, Nat.le_refl _, Nat.lt_succ_self _, ?_⟩)
    exact congrArg Binding.inner (List.mem_singleton.mp hMem)

end Addition

variable {code id : String} {spy : Bool} {source : List Char} {p : Program}

theorem mem_bindings_iff {b : Binding} : b ∈ (removeExports source p).bindings ↔
    (Addition.ofStmts source 0 p.body).bindings.find? (·.exported = b.exported) = some b := by
  rw [removeExports_eq]
  simp only [Removal.add, mem_recordAll, List.not_mem_nil, List.map_nil, not_false_eq_true,
    true_and, false_or]

theorem mem_bindings_of_pairs? (hBehind : p.ShowsBehind) {exported inner : String}
    (h : p.pairs? exported = some inner) :
    ⟨exported, inner⟩ ∈ (removeExports source p).bindings := by
  obtain ⟨s, hFound, hPairs⟩ := Option.bind_eq_some_iff.mp h
  obtain ⟨i, -, -, hSame⟩ := Addition.find?_ofStmts source 0 hBehind hFound
  exact mem_bindings_iff.mpr (hSame.trans (Addition.find?_ofStmt_of_pairs? source i hPairs))

/-- What is recorded is paired by a list or has a value. -/
theorem pairs?_or_mem_valueNames (hBehind : p.ShowsBehind) {b : Binding}
    (h : b ∈ (removeExports source p).bindings) :
    p.pairs? b.exported = some b.inner ∨ b.inner ∈ valueNames p := by
  have hFirst := mem_bindings_iff.mp h
  have hExported : b.exported ∈ p.body.flatMap Stmt.givenExports := by
    rw [← Addition.exported_ofStmts source 0 hBehind]
    exact List.mem_map_of_mem (List.mem_of_find?_eq_some hFirst)
  obtain ⟨s, hFound⟩ : ∃ s, p.body.find? (b.exported ∈ ·.givenExports) = some s :=
    Option.isSome_iff_exists.mp (by simpa using hExported)
  obtain ⟨i, -, hHigh, hSame⟩ := Addition.find?_ofStmts source 0 hBehind hFound
  have hBody := List.mem_of_find?_eq_some hFound
  have hOfStmt := hSame.symm.trans hFirst
  cases hPairs : s.pairs? b.exported with
  | some inner =>
    have hPaired := Addition.find?_ofStmt_of_pairs? source i hPairs
    have hInner := congrArg Binding.inner (Option.some.inj (hPaired.symm.trans hOfStmt))
    left
    rw [Program.pairs?, hFound, Option.bind_some, hPairs, ← hInner]
  | none =>
    right
    rw [mem_valueNames]
    rcases Addition.inner_of_pairs?_eq_none (List.mem_of_find?_eq_some hOfStmt) hPairs with
      hDeclared | ⟨hDefault, hInner⟩ | ⟨k, -, hIndex, hInner⟩
    · exact .inl (List.mem_flatMap_of_mem hBody hDeclared)
    · exact .inr (.inl ⟨List.any_eq_true.mpr ⟨s, hBody, hDefault⟩, hInner⟩)
    · exact .inr (.inr ⟨k, by unfold Program.passedOn; omega, hInner⟩)

/-- A name that a list pairs is one that it takes from the module. -/
theorem mem_taken_of_pairs? {exported inner : String} (h : p.pairs? exported = some inner) :
    inner ∈ p.body.flatMap Stmt.taken := by
  obtain ⟨s, hFound, hPairs⟩ := Option.bind_eq_some_iff.mp h
  refine List.mem_flatMap_of_mem (List.mem_of_find?_eq_some hFound) ?_
  unfold Stmt.pairs? at hPairs
  split at hPairs
  · obtain ⟨specifier, hSpecifier, rfl⟩ := Option.map_eq_some_iff.mp hPairs
    have hMem := (List.mem_filter.mp (List.mem_of_find?_eq_some hSpecifier)).1
    exact List.mem_map_of_mem (f := fun s : ExportSpecifier => s.inner.text) hMem
  · cases hPairs

theorem entry_infix_epilogue {bindings : List Binding} {b : Binding} (spy : Bool)
    (h : b ∈ bindings) : (entry b).toList <:+: (epilogue bindings spy).toList := by
  have hEntries := infix_intercalate ", " (List.mem_map_of_mem (f := entry) h)
  have hObject (before : List Char) : (", ".intercalate (bindings.map entry)).toList <:+:
      before ++ ("\x7b ".toList ++ (", ".intercalate (bindings.map entry)).toList ++
        " \x7d".toList) := List.infix_append_of_infix_right (List.infix_append ..)
  refine hEntries.trans ?_
  unfold epilogue
  generalize standInText = helpers
  simp only [toString, String.toList_append]
  repeat first
    | exact hObject _
    | apply List.infix_append_of_infix_left

theorem entry_infix_code {b : Binding} (h : b ∈ (removeExports code.toList p).bindings) :
    (entry b).toList <:+: (ofProgram code id spy p).code.toList := by
  rw [code_ofProgram code id spy p (List.ne_nil_of_mem h), String.toList_append]
  exact List.infix_append_of_infix_right (entry_infix_epilogue spy h)

/-- A private name with a value is bound in the code. -/
theorem declares_of_mem_valueNames (hBehind : p.ShowsBehind)
    (hSome : (removeExports code.toList p).bindings ≠ []) {name : String}
    (h : name ∈ valueNames p) : ⟨name, true⟩ ∈ p.declares ∨
      Declares (ofProgram code id spy p).code.toList name.toList := by
  have hWritten (hName : (p.body.any Stmt.isNamelessDefault ∧ name = defaultName) ∨
      ∃ i < p.passedOn, name = reexportName i) :
      Declares (ofProgram code id spy p).code.toList name.toList :=
    declares_introduced code id spy p hSome
      ((mem_introducedNames _ hBehind _).mpr (hName.imp_right .inl))
  exact (mem_valueNames.mp h).imp_right hWritten

theorem keptTypes_infix_leftText (source : List Char) (index : Nat) (s : Stmt) :
    keptTypes source s <:+: leftText source index s := by
  unfold keptTypes
  split
  · rw [leftText, String.toList_append]
    exact List.infix_append_right
  · exact List.infix_rfl
  · split
    · exact List.nil_infix
    · next hKept =>
      have hText := leftText_of_not_isRewritten source index (by simpa using hKept)
      exact hText ▸ List.infix_rfl

/-- Where a module's own lists only take what it declares, a mocked module refers to values alone
unless a list is the first to export a type without marking it. -/
theorem exports_have_values_iff {out : Automocked} (h : automock code id spy = .ok out) :
    ∃ p, program code id = .ok p ∧
      (∀ b ∈ (removeExports code.toList p).bindings, (entry b).toList <:+: out.code.toList) ∧
      (out.exports ≠ [] → ∀ name ∈ valueNames p,
        ⟨name, true⟩ ∈ p.declares ∨ Declares out.code.toList name.toList) ∧
      (∀ b, b ∈ (removeExports code.toList p).bindings ∧ b.inner ∉ valueNames p ↔
        p.pairs? b.exported = some b.inner ∧ b.inner ∉ valueNames p) ∧
      (p.ListsDeclared →
        ((∀ b ∈ (removeExports code.toList p).bindings, b.inner ∈ valueNames p) ↔
          ∀ exported inner, p.pairs? exported = some inner → ⟨inner, false⟩ ∈ p.declares →
            inner ∈ valueNames p)) ∧
      (SpansInOrder p → ∀ s ∈ p.body, keptTypes code.toList s <:+: out.code.toList) := by
  obtain ⟨p, hProgram, rfl⟩ := automock_eq_ok_iff.mp h
  have hBehind := showsBehind_of_program hProgram
  have hWithout (b : Binding) :
      b ∈ (removeExports code.toList p).bindings ∧ b.inner ∉ valueNames p ↔
        p.pairs? b.exported = some b.inner ∧ b.inner ∉ valueNames p :=
    and_congr_left fun hNone =>
      ⟨fun hMem => (pairs?_or_mem_valueNames hBehind hMem).resolve_right hNone,
        mem_bindings_of_pairs? hBehind⟩
  refine ⟨p, hProgram, fun b hMem => entry_infix_code hMem, fun hSome name hName => ?_, hWithout,
    fun hLists => ⟨fun hValues exported inner hPairs _ =>
      hValues _ (mem_bindings_of_pairs? hBehind hPairs), fun hTypes b hMem => ?_⟩,
    fun hSpans s hMem => ?_⟩
  · refine declares_of_mem_valueNames hBehind (fun hNone => hSome ?_) hName
    simp [ofProgram, hNone]
  · by_contra hNone
    obtain ⟨hPairs, -⟩ := (hWithout b).mp ⟨hMem, hNone⟩
    have hTaken := hLists b.inner (mem_taken_of_pairs? hPairs)
    obtain ⟨⟨text, isValue⟩, hDeclared, hText⟩ := List.mem_map.mp hTaken
    cases hText
    cases isValue with
    | true => exact hNone (mem_valueNames.mpr (.inl hDeclared))
    | false => exact hNone (hTypes _ _ hPairs hDeclared)
  · obtain ⟨i, hPart⟩ := leftText_infix_code spy hSpans hMem
    exact (keptTypes_infix_leftText code.toList i s).trans hPart

/-- An interface that a list exports like a value. -/
def listedInterface : String := "interface Foo \x7b\x7d\nexport \x7b Foo \x7d;\n"

theorem program_listedInterface :
    ∃ p, program listedInterface "/p/a.ts" = .ok p ∧ p.ListsDeclared ∧
      p.pairs? "Foo" = some "Foo" ∧ ⟨"Foo", false⟩ ∈ p.declares ∧ "Foo" ∉ valueNames p ∧
      (ofProgram listedInterface "/p/a.ts" false p).exports = ["Foo"] := by
  decide +kernel

/-- The stand-ins are made of an object that takes the interface for a value. -/
theorem listedInterface_taken_for_value :
    ∃ out, automock listedInterface "/p/a.ts" false = .ok out ∧ out.exports = ["Foo"] ∧
      ∃ p, program listedInterface "/p/a.ts" = .ok p ∧ p.ListsDeclared ∧
        ∃ b ∈ (removeExports listedInterface.toList p).bindings, b.inner ∉ valueNames p ∧
          (entry b).toList <:+: out.code.toList := by
  obtain ⟨p, hProgram, hLists, hPairs, hType, hNone, hExports⟩ := program_listedInterface
  have hOut := automock_of_program hProgram false
  obtain ⟨q, hSame, hEntries, -, hWithout, -⟩ := exports_have_values_iff hOut
  cases hProgram.symm.trans hSame
  obtain ⟨hMem, -⟩ := (hWithout ⟨"Foo", "Foo"⟩).mpr ⟨hPairs, hNone⟩
  exact ⟨_, hOut, hExports, p, hProgram, hLists, _, hMem, hNone, hEntries _ hMem⟩

end Standin.Automock
