import Standin.Proofs.Automock.Layout

namespace Standin.Script

/-- The names a statement exports as values and keeps exporting: those of enumerations, namespaces
and aliases. -/
def Stmt.keptExports : Stmt → List String
  | .exportDecl _ (.enumDecl _ false name _) => [name.text]
  | .exportDecl _ (.namespaceDecl _ false name _) => (name.take 1).map (·.text)
  | .exportDecl _ (.alias _ false name _) => [name.text]
  | _ => []

def Stmt.valueExports (s : Stmt) : List String := s.keptExports ++ s.givenExports

/-- What keeps an export is not rewritten. -/
theorem Stmt.isRewritten_of_keptExports {s : Stmt} (h : s.keptExports ≠ []) :
    s.isRewritten = false := by
  unfold Stmt.keptExports at h
  split at h <;> first | rfl | exact absurd rfl h

def Program.keptExports (p : Program) : List String := p.body.flatMap Stmt.keptExports

def Program.valueExports (p : Program) : List String := p.body.flatMap Stmt.valueExports

end Standin.Script

namespace Standin.Automock

open Standin.Script

theorem exported_recordAll (bindings more : List Binding) :
    (recordAll bindings more).map (·.exported) = bindings.map (·.exported) ++
      ((more.map (·.exported)).filter (· ∉ bindings.map (·.exported))).eraseDups := by
  induction more generalizing bindings with
  | nil => simp [recordAll]
  | cons b more ih =>
    rw [recordAll, ih]
    split
    · next hThere =>
      have hMem : b.exported ∈ bindings.map (·.exported) := by
        simpa [List.any_eq_true] using hThere
      rw [List.map_cons, List.filter_cons_of_neg (by simpa using hMem)]
    · next hNew =>
      have hNew : b.exported ∉ bindings.map (·.exported) := by
        simpa [List.any_eq_true] using hNew
      rw [List.map_cons, List.filter_cons_of_pos (by simpa using hNew), List.eraseDups_cons,
        List.map_append, List.append_assoc, List.filter_filter]
      simp only [List.map_singleton, List.singleton_append, List.mem_append, List.mem_singleton]
      congr 4
      funext name
      rw [Bool.eq_iff_iff]
      simp [not_or, and_comm]

theorem mem_exported_recordAll {name : String} {bindings more : List Binding} :
    name ∈ (recordAll bindings more).map (·.exported) ↔
      name ∈ bindings.map (·.exported) ∨ name ∈ more.map (·.exported) := by
  rw [exported_recordAll, List.mem_append, List.mem_eraseDups, List.mem_filter, decide_eq_true_eq]
  by_cases hThere : name ∈ bindings.map (·.exported)
  · simp only [hThere, true_or]
  · simp only [hThere, not_false_eq_true, and_true, false_or]

theorem nodup_exported_recordAll {bindings more : List Binding}
    (h : (bindings.map (·.exported)).Nodup) :
    ((recordAll bindings more).map (·.exported)).Nodup := by
  induction more generalizing bindings with
  | nil => exact h
  | cons b more ih =>
    rw [recordAll]
    apply ih
    split
    · exact h
    · next hNew =>
      have hNew : b.exported ∉ bindings.map (·.exported) := by
        simpa [List.any_eq_true] using hNew
      rw [List.map_append, List.map_singleton]
      refine List.nodup_append.mpr ⟨h, by simp, fun name hMem other hOther hSame => hNew ?_⟩
      rwa [← List.mem_singleton.mp hOther, ← hSame]

variable {code id : String} {spy : Bool} {p : Program} {name : String}

theorem mem_exports_ofProgram (hBehind : p.ShowsBehind) :
    name ∈ (ofProgram code id spy p).exports ↔ ∃ s ∈ p.body, name ∈ s.givenExports := by
  have hMem : name ∈ (recordAll [] (Addition.ofStmts code.toList 0 p.body).bindings).map
      (·.exported) ↔ name ∈ p.body.flatMap Stmt.givenExports := by
    rw [mem_exported_recordAll, Addition.exported_ofStmts _ _ hBehind]
    simp
  rw [← List.mem_flatMap, ← hMem, ofProgram, removeExports_eq]
  rfl

theorem nodup_exports_ofProgram (code id : String) (spy : Bool) (p : Program) :
    (ofProgram code id spy p).exports.Nodup := by
  rw [ofProgram, removeExports_eq]
  exact nodup_exported_recordAll List.nodup_nil

/-- `export { private as name, … };` with a stand-in for each name. -/
def exportClause (exports : List String) : String :=
  "export \x7b " ++ ", ".intercalate (exports.zipIdx.map fun (name, i) =>
    standInName i ++ " as " ++ exportName name) ++ " \x7d;\n"

theorem exportClause_infix_epilogue (bindings : List Binding) (spy : Bool) :
    (exportClause (bindings.map (·.exported))).toList <:+: (epilogue bindings spy).toList := by
  have hEntries : (bindings.map (·.exported)).zipIdx.map
      (fun e => standInName e.2 ++ " as " ++ exportName e.1) =
      bindings.zipIdx.map fun e => exportEntry e.1 e.2 := by
    rw [List.zipIdx_map, List.map_map]
    rfl
  unfold epilogue exportClause
  generalize standInText = helpers
  rw [hEntries]
  simp only [String.toList_append]
  refine List.infix_append_of_infix_left ?_
  rw [List.append_assoc, List.append_assoc, List.append_assoc]
  exact List.infix_append_right

/-- What is left of every statement stands in the layout. -/
theorem leftText_infix_layout {source : List Char} {position index : Nat} {body : List Stmt}
    {s : Stmt} (hMem : s ∈ body) :
    ∃ i, leftText source i s <:+: layout source position index body := by
  induction body generalizing position index with
  | nil => cases hMem
  | cons first more ih =>
    rw [layout]
    cases hMem with
    | head => exact ⟨index, List.infix_append ..⟩
    | tail _ hMore =>
      obtain ⟨i, hPart⟩ := ih hMore
      exact ⟨i, List.infix_append_of_infix_right hPart⟩

theorem leftText_infix_code (spy : Bool) (hSpans : SpansInOrder p) {s : Stmt} (hMem : s ∈ p.body) :
    ∃ i, leftText code.toList i s <:+: (ofProgram code id spy p).code.toList := by
  obtain ⟨i, hPart⟩ := leftText_infix_layout hMem
  rw [code_eq_layout spy hSpans]
  exact ⟨i, List.infix_append_of_infix_left hPart⟩

/-- The text of every statement that gives up no export stands in the code. -/
theorem infix_code_ofProgram (spy : Bool) (hSpans : SpansInOrder p) {s : Stmt} (hMem : s ∈ p.body)
    (hKept : s.isRewritten = false) :
    Edit.between code.toList s.span.start s.span.stop <:+:
      (ofProgram code id spy p).code.toList := by
  obtain ⟨i, hPart⟩ := leftText_infix_code spy hSpans hMem
  rwa [leftText_of_not_isRewritten code.toList i hKept] at hPart

theorem exportClause_infix_code (h : (ofProgram code id spy p).exports ≠ []) :
    (exportClause (ofProgram code id spy p).exports).toList <:+:
      (ofProgram code id spy p).code.toList := by
  have hSome : (removeExports code.toList p).bindings ≠ [] := fun hNone => h (by
    simp [ofProgram, hNone])
  rw [code_ofProgram code id spy p hSome, String.toList_append]
  exact List.infix_append_of_infix_right (exportClause_infix_epilogue ..)

/-- A mocked module exports the names of its source, and a stand-in is the only export of its name
exactly where the source shares none between a value and an enumeration, a namespace or an
alias. -/
theorem exports_preserved {out : Automocked} (h : automock code id spy = .ok out) :
    ∃ p, program code id = .ok p ∧
      (SpansInOrder p → ∀ s ∈ p.body, s.keptExports ≠ [] →
        Edit.between code.toList s.span.start s.span.stop <:+: out.code.toList) ∧
      (out.exports ≠ [] → (exportClause out.exports).toList <:+: out.code.toList) ∧
      out.exports.Nodup ∧
      (∀ name, name ∈ p.keptExports ∨ name ∈ out.exports ↔ name ∈ p.valueExports) ∧
      ((∀ name ∈ out.exports, name ∉ p.keptExports) ↔
        ∀ s ∈ p.body, ∀ t ∈ p.body, ∀ name ∈ s.givenExports, name ∉ t.keptExports) := by
  obtain ⟨p, hProgram, rfl⟩ := automock_eq_ok_iff.mp h
  have hMem (name : String) : name ∈ (ofProgram code id spy p).exports ↔
      ∃ s ∈ p.body, name ∈ s.givenExports :=
    mem_exports_ofProgram (showsBehind_of_program hProgram)
  refine ⟨p, hProgram, fun hSpans s hMem hKept =>
    infix_code_ofProgram spy hSpans hMem (Stmt.isRewritten_of_keptExports hKept),
    exportClause_infix_code, nodup_exports_ofProgram .., fun name => ?_, ?_⟩
  · simp only [hMem, Program.keptExports, Program.valueExports,
      List.mem_flatMap, Stmt.valueExports, List.mem_append]
    grind
  · simp only [hMem, Program.keptExports, List.mem_flatMap]
    grind

/-- A function and a namespace of one name, which holds a value. -/
def mergedSource : String :=
  "export function f() \x7b\x7d\nexport namespace f \x7b export const x = 1; \x7d\n"

theorem program_mergedSource :
    ∃ p, program mergedSource "/p/a.ts" = .ok p ∧ p.keptExports = ["f"] ∧
      (ofProgram mergedSource "/p/a.ts" false p).exports = ["f"] := by
  decide +kernel

/-- The namespace goes on exporting the name of the stand-in. -/
theorem mergedSource_exports_twice :
    ∃ out, automock mergedSource "/p/a.ts" false = .ok out ∧ out.exports = ["f"] ∧
      ∃ p, program mergedSource "/p/a.ts" = .ok p ∧ "f" ∈ p.keptExports ∧
        ¬ ∀ s ∈ p.body, ∀ t ∈ p.body, ∀ name ∈ s.givenExports, name ∉ t.keptExports := by
  obtain ⟨p, hProgram, hKept, hExports⟩ := program_mergedSource
  have hOut := automock_of_program hProgram false
  obtain ⟨q, hSame, -, -, -, -, hIff⟩ := exports_preserved hOut
  cases hProgram.symm.trans hSame
  exact ⟨_, hOut, hExports, p, hProgram, by simp [hKept], fun hApart =>
    hIff.mpr hApart "f" (by simp [hExports]) (by simp [hKept])⟩

end Standin.Automock
