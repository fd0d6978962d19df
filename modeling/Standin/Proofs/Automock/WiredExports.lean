import Standin.Proofs.Automock.Wiring

namespace Standin.Automock

open Standin.Script Standin.Text

/-- What is recorded of names given as values: each once, in the order they first appear, with the
private name of what is given first under it. -/
structure RecordsGiven (bindings : List Binding) (given : List (String × Local)) : Prop where
  nodup : (bindings.map (·.exported)).Nodup
  order : bindings.map (·.exported) = (given.map Prod.fst).eraseDups
  first : ∀ b, b ∈ bindings ↔ (bindingsOf 0 given).find? (·.exported = b.exported) = some b

theorem recordsGiven_removeExports (source : List Char) {p : Program} (hBehind : p.ShowsBehind) :
    RecordsGiven (removeExports source p).bindings p.given where
  nodup := nodup_exported_removeExports source p
  order := exported_removeExports source hBehind
  first _ := mem_bindings_iff_find? hBehind

theorem length_importsOf_flatMap (index : Nat) (body : List Stmt) :
    (importsOf index (body.flatMap Stmt.given)).length = (body.map Stmt.passedOn).sum := by
  induction body generalizing index with
  | nil => rfl
  | cons s more ih =>
    rw [List.flatMap_cons, importsOf_append, List.length_append, ih, length_importsOf_given,
      List.map_cons, List.sum_cons]

/-- The imports of a statement are numbered behind those of the statements before it. -/
theorem importsOf_infix {p : Program} {before after : List Stmt} {s : Stmt}
    (hBody : p.body = before ++ s :: after) :
    importsOf (before.map Stmt.passedOn).sum s.given <:+: importsOf 0 p.given := by
  rw [Program.given, hBody, List.flatMap_append, List.flatMap_cons, importsOf_append,
    importsOf_append, length_importsOf_flatMap, Nat.zero_add]
  exact List.infix_append_of_infix_right (List.prefix_append _ _).isInfix

theorem isSimpleName_reexportName (index : Nat) : isSimpleName (reexportName index) = true := by
  rw [isSimpleName, isPlainWord_reexportName, isFreeName_reexportName, Bool.and_self]

theorem isSimpleName_defaultName : isSimpleName defaultName = true := by decide +kernel

theorem isVariable_inner_bindingsOf {sc : Scope} {given : List (String × Local)}
    (h : ∀ e ∈ given, ∀ name, e.2 = .named name → sc.isVariable name = true) (index : Nat) :
    ∀ b ∈ bindingsOf index given, sc.isVariable b.inner = true := by
  induction given generalizing index with
  | nil => nofun
  | cons e more ih =>
    obtain ⟨exported, l⟩ := e
    obtain ⟨hFirst, hMore⟩ := List.forall_mem_cons.mp h
    cases l with
    | named name => exact List.forall_mem_cons.mpr ⟨hFirst name rfl, ih hMore index⟩
    | unnamed =>
      exact List.forall_mem_cons.mpr
        ⟨isVariable_of_isSimpleName isSimpleName_defaultName sc, ih hMore index⟩
    | foreign source name =>
      exact List.forall_mem_cons.mpr
        ⟨isVariable_of_isSimpleName (isSimpleName_reexportName index) sc, ih hMore (index + 1)⟩

/-- What the reader of a module vouches for: its own names that it exports are names of variables,
and the sources of its re-exports stand in the text as literals. -/
structure WellNamed (d : Dialect) (source : List Char) (p : Program) : Prop where
  locals : ∀ e ∈ p.given, ∀ name, e.2 = .named name → d.scope.isVariable name = true
  sources : ∀ s ∈ p.body, ∀ r ∈ s.reexport?, scan (sliceOf source r.source.span).toList =
    ⟨.string r.source.value r.source.halved, (sliceOf source r.source.span).toList.length,
      false, false⟩

/-- What is written for the exports of a program is read as the imports of other modules' values,
and as every recorded name wired to its own stand-in. -/
structure ReadsWired (d : Dialect) (source : List Char) (p : Program) (spy : Bool) : Prop where
  imports : ∀ before s after, p.body = before ++ s :: after → s.reexport?.isSome →
    ∃ q, parse d (importedText source (before.map Stmt.passedOn).sum s) = .ok (q, []) ∧
      q.body.flatMap importedBy = importsOf (before.map Stmt.passedOn).sum s.given
  standIns : (removeExports source p).bindings ≠ [] →
    ∃ q, parse d (wiring (removeExports source p).bindings spy).toList = .ok (q, []) ∧
      Wires (removeExports source p).bindings spy q

/-- Every name that is written without quotes is a word, and none recorded asks for a prototype. -/
structure NamesReadable (source : List Char) (p : Program) : Prop where
  imported : ∀ s ∈ p.body, s.reexport?.isSome → ∀ x ∈ s.listed, x.typeOnly = false →
    IsWritable x.inner
  exported : ∀ b ∈ (removeExports source p).bindings, b.exported ≠ "__proto__" ∧
    (exportName b.exported = b.exported → isPlainWord b.exported.toList = true)

theorem readsWired_iff {d : Dialect} {source : List Char} {p : Program}
    (hBehind : p.ShowsBehind) (hNamed : WellNamed d source p) (spy : Bool) :
    ReadsWired d source p spy ↔ NamesReadable source p := by
  have hLocals : ∀ b ∈ (removeExports source p).bindings, d.scope.isVariable b.inner = true :=
    fun b hMem => isVariable_inner_bindingsOf hNamed.locals 0 b
      (List.mem_of_find?_eq_some ((mem_bindings_iff_find? hBehind).mp hMem))
  have hImports (index : Nat) {s : Stmt} (hMem : s ∈ p.body) (hSome : s.reexport?.isSome) :
      (∃ q, parse d (importedText source index s) = .ok (q, []) ∧
          q.body.flatMap importedBy = importsOf index s.given) ↔
        ∀ x ∈ s.listed, x.typeOnly = false → IsWritable x.inner := by
    obtain ⟨r, hRequest⟩ := Option.isSome_iff_exists.mp hSome
    exact imports_read_iff hRequest (hNamed.sources s hMem r hRequest) index
  have hWiring (hSome : (removeExports source p).bindings ≠ []) :=
    wiring_read_iff d spy hSome (nodup_exported_removeExports source p) hLocals
  constructor
  · intro hReads
    refine ⟨fun s hMem hSome => ?_, fun b hMem => ?_⟩
    · obtain ⟨before, after, hBody⟩ := List.append_of_mem hMem
      exact (hImports _ hMem hSome).mp (hReads.imports before s after hBody hSome)
    · have hSome := List.ne_nil_of_mem hMem
      exact (hWiring hSome).mp (hReads.standIns hSome) b hMem
  · intro hNames
    refine ⟨fun before s after hBody hSome => ?_, fun hSome => ?_⟩
    · have hMem : s ∈ p.body := hBody ▸ List.mem_append_cons_self
      exact (hImports _ hMem hSome).mpr (hNames.imported s hMem hSome)
    · exact (hWiring hSome).mpr hNames.exported

/-- Each name that a module gives as a value is recorded once, in the order of the source, with what
it stands for first. The values of other modules have private names of their own, and each re-export
gives way to the import of its values under the names numbered for them. Behind the module, the
wiring enters, holds and exports each recorded name by one number. For a module as the reader leaves
it, all of it is read so exactly where each name that is written without quotes is a word and none
recorded is `__proto__`. -/
theorem exports_wired_iff {code id : String} {spy : Bool} {p : Program} {out : Automocked}
    (h : automock code id spy = .ok out) (hProgram : program code id = .ok p) :
    RecordsGiven (removeExports code.toList p).bindings p.given ∧
    out.exports = (removeExports code.toList p).bindings.map (·.exported) ∧
    ((importsOf 0 p.given).map (·.inner)).Nodup ∧
    (∀ before s after, p.body = before ++ s :: after → s.reexport?.isSome →
      ⟨s.span.start, s.span.stop, importedText code.toList (before.map Stmt.passedOn).sum s ++
        keptTypesText code.toList s⟩ ∈ (removeExports code.toList p).edits ∧
      importsOf (before.map Stmt.passedOn).sum s.given <:+: importsOf 0 p.given) ∧
    ((removeExports code.toList p).bindings ≠ [] → ∃ kept, out.code =
      kept ++ ("\n" ++ wiring (removeExports code.toList p).bindings spy ++ "\n" ++ standInText)) ∧
    Function.Injective standInName ∧
    (WellNamed (Dialect.ofModule (Module.strip id)) code.toList p →
      (ReadsWired (Dialect.ofModule (Module.strip id)) code.toList p spy ↔
        NamesReadable code.toList p)) := by
  obtain rfl := eq_ofProgram h hProgram
  have hBehind := showsBehind_of_program hProgram
  refine ⟨recordsGiven_removeExports code.toList hBehind, rfl,
    nodup_inner_importsOf 0 p.given, fun before s after hBody hSome => ⟨?_, importsOf_infix hBody⟩,
    fun hSome => ?_, standInName_injective, fun hNamed => readsWired_iff hBehind hNamed spy⟩
  · obtain ⟨r, hRequest⟩ := Option.isSome_iff_exists.mp hSome
    rw [← leftText_of_reexport? _ hRequest]
    exact leftText_mem_edits hBody hRequest
  · rw [code_ofProgram code id spy p hSome, epilogue_eq]
    exact ⟨_, rfl⟩

/-- A name that passes for a bare one and is no word. -/
def superscriptSource : String := "export \x7b \"a²\" as b \x7d from \"m\";\n"

def readsSuperscript : Except Fault Program → Bool
  | .ok ⟨[.exportList _ false [⟨inner, outer, false⟩] (some r)]⟩ =>
    decide (inner.text = "a²" ∧ outer.text = "b" ∧ r.source = ⟨⟨26, 29⟩, "m", false⟩)
  | _ => false

theorem program_superscriptSource :
    ∃ span inner outer r, program superscriptSource "/p/a.js" =
        .ok ⟨[.exportList span false [⟨inner, outer, false⟩] (some r)]⟩ ∧
      inner.text = "a²" ∧ outer.text = "b" ∧ r.source = ⟨⟨26, 29⟩, "m", false⟩ := by
  have hParsed : readsSuperscript (program superscriptSource "/p/a.js") = true := by
    decide +kernel
  unfold readsSuperscript at hParsed
  split at hParsed
  · next span inner outer r hProgram =>
    exact ⟨span, inner, outer, r, hProgram, of_decide_eq_true hParsed⟩
  · cases hParsed

theorem superscriptSource_not_wired :
    ∃ out p, automock superscriptSource "/p/a.js" false = .ok out ∧
      program superscriptSource "/p/a.js" = .ok p ∧
      WellNamed (Dialect.ofModule (Module.strip "/p/a.js")) superscriptSource.toList p ∧
      p.given = [("b", .foreign "m" (some "a²"))] ∧
      ¬ReadsWired (Dialect.ofModule (Module.strip "/p/a.js")) superscriptSource.toList p false := by
  obtain ⟨span, inner, outer, r, hProgram, hInner, hOuter, hSource⟩ := program_superscriptSource
  have hText : sliceOf superscriptSource.toList ⟨26, 29⟩ = Json.quote "m" := by decide +kernel
  have hNamed : WellNamed (Dialect.ofModule (Module.strip "/p/a.js")) superscriptSource.toList
      ⟨[.exportList span false [⟨inner, outer, false⟩] (some r)]⟩ :=
    { locals := by simp [Program.given, Stmt.given, Local.listed]
      sources := by
        rintro _ hMem _ hRequest
        obtain rfl := List.mem_singleton.mp hMem
        cases hRequest
        rw [hSource, hText]
        simpa only [List.append_nil] using scan_quote "m" [] }
  have hOut := automock_of_program hProgram false
  obtain ⟨-, -, -, -, -, -, hReadsIff⟩ := exports_wired_iff hOut hProgram
  refine ⟨_, _, hOut, hProgram, hNamed, ?_, fun hReads => ?_⟩
  · simp [Program.given, Stmt.given, Local.listed, hInner, hOuter, hSource]
  · have hWord := ((hReadsIff hNamed).mp hReads).imported _ (List.mem_singleton_self _) rfl _
      (List.mem_singleton_self _) rfl
    rw [IsWritable, hInner] at hWord
    exact absurd (hWord (by decide +kernel)) (by decide +kernel)

end Standin.Automock
