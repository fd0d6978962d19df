import Standin.Automock.Basic
import Standin.Proofs.Automock.GivenExports
import Standin.Proofs.Edit.Substitution

namespace Standin

theorem infix_join {text : String} {texts : List String} (h : text ∈ texts) :
    text.toList <:+: (String.join texts).toList := by
  rw [String.toList_join, List.flatMap_def]
  exact List.infix_of_mem_flatten (List.mem_map_of_mem h)

theorem infix_intercalate {text : String} {texts : List String} (separator : String)
    (h : text ∈ texts) : text.toList <:+: (separator.intercalate texts).toList := by
  induction texts with
  | nil => cases h
  | cons first more ih =>
    by_cases hNil : more = []
    · subst hNil
      simp [List.mem_singleton.mp h]
    · rw [String.intercalate_cons_of_ne_nil hNil, String.toList_append, String.toList_append]
      cases h with
      | head => exact List.infix_append_of_infix_left List.infix_append_left
      | tail _ hMore => exact List.infix_append_of_infix_right (ih hMore)

namespace Automock

open Standin.Script

/-- Whether what a module is read as has a property is decided by reading it. -/
instance decidableReadAs {read : Except Fault Program} {P : Program → Prop} [DecidablePred P] :
    Decidable (∃ p, read = .ok p ∧ P p) :=
  match read with
  | .ok p =>
    decidable_of_iff (P p) ⟨fun h => ⟨p, rfl, h⟩, fun ⟨_, hSame, h⟩ => by cases hSame; exact h⟩
  | .error _ => .isFalse fun ⟨_, h, _⟩ => nomatch h

def helperNames : List String :=
  [mockModuleName, "__modmock_mock_fn__", "__modmock_mock_methods__"]

def helperGlobals : List String := ["Map", "Object", "Function"]

/-- The names at the top of a mocked module that its source need not have. -/
def introducedNames (r : Removal) : List String :=
  (if captureText.toList ∈ r.edits.map Edit.text then [defaultName] else []) ++
    (List.range r.reexports).map reexportName ++ mockedModuleName ::
    (List.range r.bindings.length).map standInName ++ helperNames

def Declares (code name : List Char) : Prop :=
  ∃ word ∈ ["const ", "function ", " as "], word.toList ++ name <:+: code

theorem Declares.mono {piece code name : List Char} (h : Declares piece name)
    (hPiece : piece <:+: code) : Declares code name := by
  obtain ⟨word, hWord, hPart⟩ := h
  exact ⟨word, hWord, hPart.trans hPiece⟩

namespace Addition

theorem captureText_ne (text : String) (h : text.toList.head? ≠ some 'c') :
    captureText.toList ≠ text.toList := by
  intro hSame
  rw [← hSame] at h
  exact h (by decide)

/-- The texts for lists begin with a word of their own. -/
theorem captureText_ne_list (values types : List ExportSpecifier) (index : Nat)
    (before after : String) :
    captureText.toList ≠ (importText values index before ++ typesText types after).toList := by
  apply captureText_ne
  unfold importText typesText Removal.typeList
  split <;> split <;> simp

theorem captured_mem_ofStmt (source : List Char) (index : Nat) {s : Stmt}
    (hBehind : s.ShowsBehind) :
    captureText.toList ∈ (ofStmt source index s).edits.map Edit.text ↔
      s.isNamelessDefault := by
  have hEmpty : captureText.toList ≠ [] := by decide
  cases s using Stmt.byExport with
  | kept s h =>
    obtain ⟨hNone, -, -⟩ := ofStmt_of_not_isRewritten source index h
    simp [hNone, Stmt.isNamelessDefault_of_not_isRewritten h]
  | varDecl span place kind ds =>
    have hBefore : span.start < place.start := hBehind _ rfl
    simp [ofStmt, ofDecl, strip_of_lt hBefore, hEmpty, Stmt.isNamelessDefault]
  | function span f n h | classDecl span f n h =>
    have hBefore : span.start < f.span.start := hBehind _ rfl
    simp [ofStmt, ofDecl, ofNames, strip_of_lt hBefore, h, hEmpty, Stmt.isNamelessDefault]
  | namedFunction span f n h | namedClass span f n h =>
    have hBefore : span.start < f.span.start := hBehind _ rfl
    simp [ofStmt, ofDefault, strip_of_lt hBefore, h, hEmpty, Stmt.isNamelessDefault]
  | namelessFunction span f h | namelessClass span f h =>
    have hBefore : span.start < f.span.start := hBehind _ rfl
    simp [ofStmt, ofDefault, captured_of_lt hBefore, h, Stmt.isNamelessDefault]
  | expr span e =>
    have hBefore : span.start < e.span.start := hBehind _ rfl
    simp [ofStmt, ofDefault, captured_of_lt hBefore, Stmt.isNamelessDefault]
  | ownList span specifiers =>
    have hList := captureText_ne_list [] (typesOf specifiers) 0 "" ";"
    simp only [importText, List.isEmpty_nil, if_true, String.empty_append] at hList
    simp [ofStmt, ofList, Stmt.isNamelessDefault, hList]
  | foreignList span specifiers r =>
    have hList := captureText_ne_list (valuesOf specifiers) (typesOf specifiers) index
    simp only [ofStmt, ofList, List.map_cons, List.map_nil, List.mem_singleton, hList,
      Stmt.isNamelessDefault, Bool.false_eq_true]
  | foreignAll span name r =>
    have hAll := captureText_ne (allText index (sliceOf source r.source.span))
      (by simp [allText, toString])
    simpa only [ofStmt, ofAll, List.map_cons, List.map_nil, List.mem_singleton,
      Stmt.isNamelessDefault, Bool.false_eq_true, iff_false] using hAll

theorem captured_mem_ofStmts (source : List Char) (index : Nat) {body : List Stmt}
    (hBehind : ∀ s ∈ body, s.ShowsBehind) :
    captureText.toList ∈ (ofStmts source index body).edits.map Edit.text ↔
      body.any Stmt.isNamelessDefault := by
  induction body generalizing index with
  | nil => simp [ofStmts]
  | cons s more ih =>
    obtain ⟨hFirst, hMore⟩ := List.forall_mem_cons.mp hBehind
    simp only [ofStmts, append, List.map_append, List.mem_append, ih _ hMore,
      captured_mem_ofStmt source index hFirst, List.any_cons, Bool.or_eq_true]

end Addition

theorem declares_importText {values : List ExportSpecifier} {index i : Nat} (origin : String)
    (hLow : index ≤ i) (hHigh : i < index + values.length) :
    Declares (importText values index origin).toList (reexportName i).toList := by
  have hPlace : i - index < values.length := by omega
  have hMem : (values[i - index], i) ∈ values.zipIdx index :=
    List.mk_mem_zipIdx_iff_le_and_getElem?_sub.mpr ⟨hLow, List.getElem?_eq_getElem hPlace⟩
  have hSome : values.isEmpty = false := by
    cases values with
    | nil => simp at hPlace
    | cons => rfl
  have hEntry : (" as ".toList ++ (reexportName i).toList) <:+:
      (nameText values[i - index].inner ++ " as " ++ reexportName i).toList :=
    ⟨(nameText values[i - index].inner).toList, [], by simp⟩
  have hList := infix_intercalate ", "
    (List.mem_map_of_mem (f := fun e => nameText e.1.inner ++ " as " ++ reexportName e.2) hMem)
  refine ⟨" as ", by decide, (hEntry.trans hList).trans ?_⟩
  simp only [importText, hSome, Bool.false_eq_true, if_false, String.toList_append]
  exact List.infix_append_of_infix_left (List.infix_append_of_infix_left List.infix_append_right)

theorem declares_allText (index : Nat) (origin : String) :
    Declares (allText index origin).toList (reexportName index).toList :=
  ⟨" as ", by decide, "import *".toList, (" from " ++ origin ++ ";").toList,
    by simp [allText, toString]⟩

/-- A statement writes the private names it is counted for. -/
theorem declares_ofStmt (source : List Char) (index : Nat) (s : Stmt) {i : Nat} (hLow : index ≤ i)
    (hHigh : i < index + (Addition.ofStmt source index s).reexports) :
    ∃ e ∈ (Addition.ofStmt source index s).edits, Declares e.text (reexportName i).toList := by
  rw [Addition.reexports_ofStmt] at hHigh
  cases s using Stmt.byExport with
  | kept s h =>
    rw [Stmt.passedOn_of_not_isRewritten h] at hHigh
    exact absurd hHigh (Nat.not_lt.mpr hLow)
  | foreignList span specifiers r =>
    refine ⟨_, List.mem_singleton_self _, ?_⟩
    have hImport := declares_importText (" from " ++ sliceOf source r.source.span ++ ";") hLow hHigh
    apply hImport.mono
    rw [String.toList_append]
    exact List.infix_append_left
  | foreignAll span name r =>
    obtain rfl : i = index := Nat.le_antisymm (Nat.le_of_lt_succ hHigh) hLow
    exact ⟨_, List.mem_singleton_self _, declares_allText ..⟩
  | _ => exact absurd hHigh (Nat.not_lt.mpr hLow)

theorem declares_ofStmts (source : List Char) (index : Nat) (body : List Stmt) {i : Nat}
    (hLow : index ≤ i) (hHigh : i < index + (Addition.ofStmts source index body).reexports) :
    ∃ e ∈ (Addition.ofStmts source index body).edits, Declares e.text (reexportName i).toList := by
  induction body generalizing index with
  | nil => simp [Addition.ofStmts] at hHigh; omega
  | cons s more ih =>
    simp only [Addition.ofStmts, Addition.append] at hHigh ⊢
    by_cases hFirst : i < index + (Addition.ofStmt source index s).reexports
    · obtain ⟨e, hEdit, hText⟩ := declares_ofStmt source index s hLow hFirst
      exact ⟨e, List.mem_append_left _ hEdit, hText⟩
    · obtain ⟨e, hEdit, hText⟩ :=
        ih (index + (Addition.ofStmt source index s).reexports) (by omega) (by omega)
      exact ⟨e, List.mem_append_right _ hEdit, hText⟩

theorem declares_epilogue_mocked (bindings : List Binding) (spy : Bool) :
    Declares (epilogue bindings spy).toList mockedModuleName.toList := by
  have hHead : "const ".toList ++ mockedModuleName.toList <:+:
      "\nconst ".toList ++ mockedModuleName.toList := ⟨['\n'], [], by simp⟩
  refine ⟨"const ", by decide, hHead.trans ?_⟩
  unfold epilogue
  generalize standInText = helpers
  simp only [toString, String.toList_append]
  repeat first
    | exact List.infix_rfl
    | apply List.infix_append_of_infix_left

theorem declares_epilogue_standIn {bindings : List Binding} {i : Nat} (spy : Bool)
    (h : i < bindings.length) :
    Declares (epilogue bindings spy).toList (standInName i).toList := by
  have hMem : (bindings[i], i) ∈ bindings.zipIdx :=
    List.mk_mem_zipIdx_iff_getElem?.mpr (List.getElem?_eq_getElem h)
  have hJoin := infix_join (List.mem_map_of_mem (f := fun e => standIn e.1 e.2) hMem)
  have hLine : "const ".toList ++ (standInName i).toList <:+: (standIn bindings[i] i).toList :=
    ⟨[], (" = " ++ mockedModuleName ++ "[" ++ Json.quote bindings[i].exported ++ "];\n").toList,
      by simp [standIn, toString]⟩
  refine ⟨"const ", by decide, (hLine.trans hJoin).trans ?_⟩
  unfold epilogue
  generalize standInText = helpers
  simp only [String.toList_append]
  exact List.infix_append_of_infix_left (List.infix_append_of_infix_left
    (List.infix_append_of_infix_left (List.infix_append_of_infix_left List.infix_append_right)))

theorem infix_standInText {line : String} (h : line ∈ standInLines) :
    line.toList <:+: standInText.toList := by
  have hJoin := infix_join (List.mem_map_of_mem (f := (· ++ "\n")) h)
  rw [String.toList_append] at hJoin
  rw [standInText, String.toList_append]
  exact List.infix_append_of_infix_right (List.infix_append_left.trans hJoin)

theorem declares_standInText {name : String} (h : name ∈ helperNames) :
    Declares standInText.toList name.toList := by
  have hLine (rest : String) (hLine : "function " ++ name ++ rest ∈ standInLines) :
      Declares standInText.toList name.toList := by
    have hText := infix_standInText hLine
    rw [String.toList_append, String.toList_append] at hText
    exact ⟨"function ", by decide, List.infix_append_left.trans hText⟩
  simp only [helperNames, List.mem_cons, List.not_mem_nil, or_false] at h
  rcases h with rfl | rfl | rfl
  · exact hLine "(source, spy) \x7b" (by decide)
  · exact hLine "(original, key, spy, seen) \x7b" (by decide)
  · exact hLine "(source, target, stop, skip, spy, seen) \x7b" (by decide)

/-- The helpers refer to the built-ins by their names alone. -/
theorem infix_standInText_of_global {name : String} (h : name ∈ helperGlobals) :
    name.toList <:+: standInText.toList := by
  have hLine (before after : String) (hLine : before ++ name ++ after ∈ standInLines) :
      name.toList <:+: standInText.toList := by
    have hText := infix_standInText hLine
    rw [String.toList_append, String.toList_append] at hText
    exact (List.infix_append ..).trans hText
  simp only [helperGlobals, List.mem_cons, List.not_mem_nil, or_false] at h
  rcases h with rfl | rfl | rfl
  · exact hLine "  const seen = new " "();" (by decide)
  · exact hLine "  for (const key of " ".keys(source)) \x7b" (by decide)
  · exact hLine "  __modmock_mock_methods__(original, stub, " (".prototype, [\"length\", \"name\", " ++
      "\"prototype\", \"arguments\", \"caller\"], spy, seen);") (by decide +kernel)

theorem infix_epilogue (bindings : List Binding) (spy : Bool) :
    standInText.toList <:+: (epilogue bindings spy).toList := by
  unfold epilogue
  generalize standInText = helpers
  rw [String.toList_append]
  exact List.infix_append_right

/-- What parses is automocked, and nothing else. -/
theorem automock_eq_ok_iff {code id : String} {spy : Bool} {out : Automocked} :
    automock code id spy = .ok out ↔ ∃ p, program code id = .ok p ∧ ofProgram code id spy p = out := by
  unfold automock
  cases program code id with
  | error fault => simp [Except.map]
  | ok p => simp [Except.map]

theorem parse_of_program {code id : String} {p : Program} (h : program code id = .ok p) :
    parse (Dialect.ofModule (Module.strip id)) code.toList = .ok (p, []) := by
  unfold program at h
  split at h
  · next hParse =>
    cases h
    exact hParse
  · cases h
  · cases h

theorem showsBehind_of_program {code id : String} {p : Program} (h : program code id = .ok p) :
    p.ShowsBehind := showsBehind_of_parse (parse_of_program h)

theorem automock_of_program {code id : String} {p : Program} (h : program code id = .ok p)
    (spy : Bool) : automock code id spy = .ok (ofProgram code id spy p) :=
  automock_eq_ok_iff.mpr ⟨p, h, rfl⟩

theorem eq_ofProgram {code id : String} {spy : Bool} {out : Automocked} {p : Program}
    (h : automock code id spy = .ok out) (hProgram : program code id = .ok p) :
    out = ofProgram code id spy p :=
  Except.ok.inj (h.symm.trans (automock_of_program hProgram spy))

theorem toList_code_ofProgram (code id : String) (spy : Bool) (p : Program) :
    (ofProgram code id spy p).code.toList =
      Edit.apply code.toList (removeExports code.toList p).edits ++
        if (removeExports code.toList p).bindings = [] then []
        else (epilogue (removeExports code.toList p).bindings spy).toList := by
  show ((editor code (removeExports code.toList p) spy).finish (Module.strip id)).1.toList = _
  rw [SourceEditor.finish_code, editor]
  simp only [List.isEmpty_iff]
  split
  · rfl
  · simp [SourceEditor.append]

theorem code_ofProgram (code id : String) (spy : Bool) (p : Program)
    (hSome : (removeExports code.toList p).bindings ≠ []) :
    (ofProgram code id spy p).code =
      String.ofList (Edit.apply code.toList (removeExports code.toList p).edits) ++
        epilogue (removeExports code.toList p).bindings spy := by
  refine String.toList_injective ?_
  rw [toList_code_ofProgram, if_neg hSome, String.toList_append, String.toList_ofList]

theorem standInText_infix_code (code id : String) (spy : Bool) (p : Program)
    (hSome : (removeExports code.toList p).bindings ≠ []) :
    standInText.toList <:+: (ofProgram code id spy p).code.toList := by
  rw [code_ofProgram code id spy p hSome, String.toList_append]
  exact List.infix_append_of_infix_right (infix_epilogue ..)

/-- Every name introduced into a module is bound in the code that comes out. -/
theorem declares_introduced (code id : String) (spy : Bool) (p : Program)
    (hSome : (removeExports code.toList p).bindings ≠ []) {name : String}
    (h : name ∈ introducedNames (removeExports code.toList p)) :
    Declares (ofProgram code id spy p).code.toList name.toList := by
  rw [code_ofProgram code id spy p hSome, String.toList_append, String.toList_ofList]
  generalize hKept : Edit.apply code.toList (removeExports code.toList p).edits = kept
  generalize hTail : (epilogue (removeExports code.toList p).bindings spy).toList = tail
  have hEdit {e : Edit} (h : e ∈ (removeExports code.toList p).edits) : e.text <:+: kept ++ tail :=
    List.infix_append_of_infix_left (hKept ▸ Edit.infix_after h code.toList)
  have hBehind {name : List Char} (h : Declares tail name) : Declares (kept ++ tail) name :=
    h.mono List.infix_append_right
  simp only [introducedNames, List.mem_append, List.mem_cons, List.mem_map, List.mem_range] at h
  rcases h with ((hDefault | ⟨i, hIndex, rfl⟩) | (rfl | ⟨i, hIndex, rfl⟩)) | hHelper
  · split at hDefault
    · next hWritten =>
      rw [List.mem_singleton.mp hDefault]
      obtain ⟨e, hMem, hText⟩ := hWritten
      have hInfix := hEdit hMem
      rw [hText] at hInfix
      exact ⟨"const ", by decide, List.IsInfix.trans ⟨[], " = ".toList, by decide⟩ hInfix⟩
    · cases hDefault
  · rw [removeExports_eq] at hIndex
    obtain ⟨e, hMem, hText⟩ := declares_ofStmts code.toList 0 p.body (Nat.zero_le i)
      (by simpa only [Removal.add] using hIndex)
    refine hText.mono (hEdit ?_)
    rwa [removeExports_eq]
  · exact hBehind (hTail ▸ declares_epilogue_mocked ..)
  · exact hBehind (hTail ▸ declares_epilogue_standIn spy hIndex)
  · exact hBehind (hTail ▸ (declares_standInText hHelper).mono (infix_epilogue ..))

end Automock

end Standin
