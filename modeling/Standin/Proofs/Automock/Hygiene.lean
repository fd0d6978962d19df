import Standin.Proofs.Automock.Written
import Standin.Script.Parse

namespace Standin.Script

structure TopName where
  text : String
  /-- Whether a value stands behind the name when the module runs. -/
  isValue : Bool := true
deriving DecidableEq, Repr

/-- The names that `var` binds, in a statement and the statements inside it. -/
def Stmt.hoisted : Stmt → List Name
  | .block _ body => ofBody body
  | .ifThen _ _ yes no => yes.hoisted ++ ofBody no
  | .doWhile _ body _ | .whileDo _ _ body | .labeled _ _ body | .inScope _ _ body => body.hoisted
  | .forLoop _ start _ _ body => ofBody start ++ body.hoisted
  | .forEach _ left _ body => left.hoisted ++ body.hoisted
  | .switchOn _ _ cases => ofCases cases
  | .attempt _ body _ handler final => ofBody body ++ ofBody handler ++ ofBody final
  | .decl (.variable _ .functionScoped false ds) => ds.flatMap Declarator.names
  | _ => []
where
  ofBody : List Stmt → List Name
    | [] => []
    | s :: more => s.hoisted ++ ofBody more
  ofCases : List Case → List Name
    | [] => []
    | .mk _ body :: more => ofBody body ++ ofCases more

/-- Whether nothing of a declaration is left when the module runs. -/
def Decl.isErased : Decl → Bool
  | .variable _ _ declared _ | .classDecl declared _ | .enumDecl _ declared _ _ => declared
  | .function declared (.mk _ _ _ _ _ _ _ hasBody _) => declared || !hasBody
  | .typeAlias .. | .interface .. => true
  | .alias _ typeOnly _ _ => typeOnly
  | .namespaceDecl _ declared _ body => declared || ofBody body
where
  ofBody : List Stmt → Bool
    | [] => true
    | .decl d :: more | .exportDecl _ d :: more => d.isErased && ofBody more
    | _ :: _ => false

def Decl.names : Decl → List Name
  | .variable _ _ _ ds => ds.flatMap Declarator.names
  | .function _ f => f.name?.toList
  | .classDecl _ c => c.name?.toList
  | .typeAlias _ name _ | .interface _ name _ | .enumDecl _ _ name _ | .alias _ _ name _ => [name]
  | .namespaceDecl _ _ name _ => name.take 1

def ImportSpecifier.topName (typeOnly : Bool) : ImportSpecifier → TopName
  | .default n | .all n => ⟨n.text, !typeOnly⟩
  | .named _ n marked => ⟨n.text, !(typeOnly || marked)⟩

def DefaultValue.topNames : DefaultValue → List TopName
  | .function (.mk _ name _ _ _ _ _ hasBody _) => name.toList.map fun n => ⟨n.text, hasBody⟩
  | .classDecl c => c.name?.toList.map fun n => ⟨n.text, true⟩
  | .interface n _ => [⟨n.text, false⟩]
  | .expr _ => []

/-- The names a statement at the top binds. -/
def Stmt.topNames : Stmt → List TopName
  | .imports _ typeOnly specifiers _ => specifiers.map (·.topName typeOnly)
  | .decl d | .exportDecl _ d => d.names.map fun n => ⟨n.text, !d.isErased⟩
  | .exportDefault _ value => value.topNames
  | s => s.hoisted.map fun n => ⟨n.text, true⟩

/-- The names bound at the top of a program. -/
def Program.topNames (p : Program) : List TopName := p.body.flatMap Stmt.topNames

end Standin.Script

namespace Standin.Automock

open Standin.Script

/-- No name at the top of the source gets in the way of the names that are written. -/
structure Hygienic (p : Program) (r : Removal) : Prop where
  fresh : ∀ name ∈ introducedNames r, name ∉ p.topNames.map TopName.text
  builtIn : ∀ name ∈ helperGlobals, ⟨name, true⟩ ∉ p.topNames

theorem reexports_removeExports (source : List Char) (p : Program) :
    (removeExports source p).reexports = p.passedOn := by
  rw [removeExports_eq]
  simp only [Removal.add, Addition.reexports_ofStmts, Nat.zero_add]
  rfl

theorem captured_mem_removeExports (source : List Char) {p : Program} (hBehind : p.ShowsBehind) :
    captureText.toList ∈ (removeExports source p).edits.map Edit.text ↔
      p.body.any Stmt.isNamelessDefault := by
  rw [removeExports_eq]
  simp only [Removal.add, List.nil_append]
  exact Addition.captured_mem_ofStmts source 0 hBehind

theorem mem_introducedNames (source : List Char) {p : Program} (hBehind : p.ShowsBehind)
    (name : String) :
    name ∈ introducedNames (removeExports source p) ↔
      (p.body.any Stmt.isNamelessDefault ∧ name = defaultName) ∨
      (∃ i < p.passedOn, name = reexportName i) ∨
      (∃ i < (removeExports source p).bindings.length, name = standInName i) ∨
      name ∈ mockedModuleName :: helperNames := by
  have hDefault := captured_mem_removeExports source hBehind
  unfold introducedNames
  rw [reexports_removeExports]
  split
  · next hCaptured =>
    have hAny := hDefault.mp hCaptured
    simp only [List.mem_append, List.mem_cons, List.mem_map, List.mem_range, List.not_mem_nil, hAny]
    grind
  · next hNone =>
    have hAny := mt hDefault.mpr hNone
    simp only [List.mem_append, List.mem_cons, List.mem_map, List.mem_range, List.not_mem_nil, hAny]
    grind

/-- A module is hygienic under exactly these conditions. -/
theorem hygienic_iff {code id : String} {spy : Bool} {out : Automocked}
    (h : automock code id spy = .ok out) (hSome : out.exports ≠ []) :
    ∃ p, program code id = .ok p ∧
      (∀ name ∈ introducedNames (removeExports code.toList p),
        Declares out.code.toList name.toList) ∧
      (∀ name ∈ helperGlobals, name.toList <:+: out.code.toList) ∧
      (Hygienic p (removeExports code.toList p) ↔
        (∀ name ∈ mockedModuleName :: helperNames, name ∉ p.topNames.map TopName.text) ∧
        (p.body.any Stmt.isNamelessDefault → defaultName ∉ p.topNames.map TopName.text) ∧
        (∀ i < p.passedOn, reexportName i ∉ p.topNames.map TopName.text) ∧
        (∀ i < out.exports.length, standInName i ∉ p.topNames.map TopName.text) ∧
        ∀ name ∈ helperGlobals, ⟨name, true⟩ ∉ p.topNames) := by
  obtain ⟨p, hProgram, rfl⟩ := automock_eq_ok_iff.mp h
  have hBehind := showsBehind_of_program hProgram
  have hBindings : (removeExports code.toList p).bindings ≠ [] := by
    intro hNone
    exact hSome (by simp [ofProgram, hNone])
  have hLength : (ofProgram code id spy p).exports.length =
      (removeExports code.toList p).bindings.length := by simp [ofProgram]
  refine ⟨p, hProgram, fun name hName => declares_introduced code id spy p hBindings hName,
    fun name hName => (infix_standInText_of_global hName).trans
      (standInText_infix_code code id spy p hBindings), ?_⟩
  rw [hLength]
  constructor
  · intro hHygienic
    have hFresh := fun name =>
      hHygienic.fresh name ∘ (mem_introducedNames code.toList hBehind name).mpr
    exact ⟨fun name hName => hFresh name (.inr (.inr (.inr hName))),
      fun hAny => hFresh _ (.inl ⟨hAny, rfl⟩),
      fun i hIndex => hFresh _ (.inr (.inl ⟨i, hIndex, rfl⟩)),
      fun i hIndex => hFresh _ (.inr (.inr (.inl ⟨i, hIndex, rfl⟩))), hHygienic.builtIn⟩
  · rintro ⟨hFixed, hDefault, hReexports, hStandIns, hGlobals⟩
    refine ⟨fun name hName => ?_, hGlobals⟩
    rcases (mem_introducedNames code.toList hBehind name).mp hName with
      ⟨hAny, rfl⟩ | ⟨i, hIndex, rfl⟩ | ⟨i, hIndex, rfl⟩ | hName
    · exact hDefault hAny
    · exact hReexports i hIndex
    · exact hStandIns i hIndex
    · exact hFixed name hName

def mapImported : String := "import \x7b Map \x7d from 'immutable';\nexport const a = () => 1;\n"

theorem program_mapImported :
    ∃ p, program mapImported "/p/a.js" = .ok p ∧ ⟨"Map", true⟩ ∈ p.topNames ∧
      (removeExports mapImported.toList p).bindings = [⟨"a", "a"⟩] := by
  decide +kernel

/-- An imported `Map` is taken for the built-in one. -/
theorem mapImported_not_hygienic :
    ∃ out, automock mapImported "/p/a.js" false = .ok out ∧ out.exports = ["a"] ∧
      ∃ p, program mapImported "/p/a.js" = .ok p ∧
        ¬ Hygienic p (removeExports mapImported.toList p) := by
  obtain ⟨p, hProgram, hMap, hBindings⟩ := program_mapImported
  have hOut := automock_of_program hProgram false
  have hExports : (ofProgram mapImported "/p/a.js" false p).exports = ["a"] := by
    simp [ofProgram, hBindings]
  obtain ⟨q, hSame, -, -, hIff⟩ := hygienic_iff hOut (by simp [hExports])
  refine ⟨_, hOut, hExports, q, hSame, fun hHygienic => ?_⟩
  obtain ⟨-, -, -, -, hGlobals⟩ := hIff.mp hHygienic
  cases hProgram.symm.trans hSame
  exact hGlobals "Map" (by decide) hMap

end Standin.Automock
