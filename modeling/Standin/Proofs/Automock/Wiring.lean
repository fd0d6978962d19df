import Standin.Proofs.Automock.PrivateImports
import Standin.Proofs.Script.Constants
import Standin.Proofs.Script.ObjectLiterals

namespace Standin.Automock

open Standin.Script Standin.Script.Grammar Standin.Text

/-- A constant for the object of all values, made into stand-ins. -/
def holderText (bindings : List Binding) (spy : Bool) : String :=
  "const " ++ mockedModuleName ++ " = " ++ mockModuleName ++ "(\x7b " ++
    ", ".intercalate (bindings.map entry) ++ " \x7d, " ++ toString spy ++ ");\n"

/-- An export of each stand-in. -/
def exportsText (bindings : List Binding) : String :=
  "export \x7b " ++ ", ".intercalate (bindings.zipIdx.map fun e => exportEntry e.1 e.2) ++ " \x7d;"

/-- The statements of the epilogue that name the exports: all but the functions behind them. -/
def wiring (bindings : List Binding) (spy : Bool) : String :=
  holderText bindings spy ++ String.join (bindings.zipIdx.map fun e => standIn e.1 e.2) ++
    exportsText bindings

theorem epilogue_eq (bindings : List Binding) (spy : Bool) :
    epilogue bindings spy = "\n" ++ wiring bindings spy ++ "\n" ++ standInText := by
  unfold epilogue wiring holderText exportsText
  generalize standInText = helpers
  generalize mockedModuleName = n
  generalize mockModuleName = f
  apply String.toList_injective
  have hFirst : "\nconst ".toList = "\n".toList ++ "const ".toList := rfl
  have hOpen : "(\x7b ".toList = "(".toList ++ "\x7b ".toList := rfl
  have hClose : " \x7d, ".toList = " \x7d".toList ++ ", ".toList := rfl
  have hEnd : " \x7d;\n".toList = " \x7d;".toList ++ "\n".toList := rfl
  simp only [toString, String.toList_append, List.append_assoc, hFirst, hOpen, hClose, hEnd]

/-- The statements that wire exports to their stand-ins. -/
inductive WiringPart
  | holder
  | standIn (e : Binding × Nat)
  | exports

def WiringPart.text (b : Binding) (more : List Binding) (spy : Bool) : WiringPart → List Char
  | .holder => "const".toList ++ ' ' :: objectCallText mockedModuleName mockModuleName spy
      (entry b).toList (more.map fun b => (entry b).toList)
  | .standIn e => '\n' :: ("const".toList ++
      ' ' :: elementText (standInName e.2) mockedModuleName e.1.exported)
  | .exports => '\n' :: ("export".toList ++ ' ' :: exportListText (exportEntry b 0).toList
      ((more.zipIdx 1).map fun e => (exportEntry e.1 e.2).toList))

def declaredParts (bindings : List Binding) : List WiringPart :=
  .holder :: bindings.zipIdx.map .standIn

section Text

variable (b : Binding) (more : List Binding) (spy : Bool)

theorem toList_holderText : (holderText (b :: more) spy).toList =
    WiringPart.text b more spy .holder ++ ['\n'] := by
  have hEntries := intercalate_entries entry b more
  have hConst : "const ".toList = "const".toList ++ [' '] := rfl
  have hAssign : " = ".toList = [' ', '=', ' '] := rfl
  have hOpen : "(\x7b ".toList = ['(', '\x7b', ' '] := rfl
  have hClose : " \x7d, ".toList = [' ', '\x7d', ',', ' '] := rfl
  have hEnd : ");\n".toList = [')', ';', '\n'] := rfl
  unfold holderText WiringPart.text objectCallText
  generalize mockedModuleName = n
  generalize mockModuleName = f
  simp only [String.toList_append, hConst, hAssign, hOpen, hClose, hEnd, List.append_assoc,
    List.cons_append, List.nil_append, hEntries, entriesText_append]

theorem toList_standIn (e : Binding × Nat) (tail : List Char) :
    '\n' :: ((standIn e.1 e.2).toList ++ tail) =
      WiringPart.text b more spy (.standIn e) ++ '\n' :: tail := by
  have hConst : "const ".toList = "const".toList ++ [' '] := rfl
  have hAssign : " = ".toList = [' ', '=', ' '] := rfl
  have hOpen : "[".toList = ['['] := by decide
  have hEnd : "];\n".toList = [']', ';', '\n'] := rfl
  unfold standIn WiringPart.text elementText
  generalize mockedModuleName = n
  simp only [toString, String.toList_append, hConst, hAssign, hOpen, hEnd, List.append_assoc,
    List.cons_append, List.nil_append]

theorem toList_standIns (es : List (Binding × Nat)) (tail : List Char) :
    '\n' :: ((String.join (es.map fun e => standIn e.1 e.2)).toList ++ tail) =
      (es.map .standIn).flatMap (WiringPart.text b more spy) ++ '\n' :: tail := by
  induction es generalizing tail with
  | nil => simp
  | cons e rest ih =>
    rw [List.map_cons, String.join_cons, String.toList_append, List.append_assoc,
      toList_standIn b more spy, ih, List.map_cons, List.flatMap_cons, List.append_assoc]

theorem toList_exportsText :
    '\n' :: (exportsText (b :: more)).toList = WiringPart.text b more spy .exports := by
  have hNames := intercalate_entries (fun e : Binding × Nat => exportEntry e.1 e.2) (b, 0)
    (more.zipIdx 1) [';']
  have hExport : "export \x7b ".toList = "export".toList ++ [' ', '\x7b', ' '] := rfl
  have hLast : " \x7d;".toList = [' ', '\x7d', ';'] := rfl
  rw [← List.zipIdx_cons] at hNames
  simp only [exportsText, WiringPart.text, exportListText, String.toList_append, hExport, hLast,
    List.append_assoc, List.cons_append, List.nil_append, hNames]

/-- The wiring is the object, a constant for each stand-in, and the export of them. -/
theorem toList_wiring : (wiring (b :: more) spy).toList =
    (declaredParts (b :: more) ++ [WiringPart.exports]).flatMap (WiringPart.text b more spy) := by
  rw [wiring, String.toList_append, String.toList_append, toList_holderText, List.append_assoc,
    List.append_assoc, List.singleton_append, toList_standIns b more spy,
    toList_exportsText b more spy]
  simp [declaredParts]

end Text

/-- A property enters the value of a binding under its name. -/
def EntersValue (b : Binding) (p : Property) : Prop :=
  ∃ s n, p = .pair (.string s) (.ident n) ∧ s.value = b.exported ∧ n.text = b.inner

/-- The object of a literal has the value of a binding under its name, and nothing else there. -/
def GivesValue (ps : List Property) (b : Binding) : Prop :=
  ∀ f, Builds b.exported {} ps f → ∃ n, f.own = some (.value (.ident n)) ∧ n.text = b.inner

namespace EntersValue

variable {b : Binding} {p : Property} {name : String} (h : EntersValue b p)
include h

theorem mayDefine_iff : p.mayDefine name = true ↔
    b.exported = name ∧ b.exported ≠ "__proto__" := by
  obtain ⟨s, n, rfl, hKey, -⟩ := h
  by_cases hProto : b.exported = "__proto__" <;>
    simp [Property.mayDefine, Property.prototype?, Key.known?, Value.mayName, hKey, hProto]

theorem mustDefine_iff : p.mustDefine name = true ↔
    b.exported = name ∧ b.exported ≠ "__proto__" := by
  obtain ⟨s, n, rfl, hKey, -⟩ := h
  by_cases hProto : b.exported = "__proto__" <;>
    simp [Property.mustDefine, Property.prototype?, Key.known?, Value.mustName, hKey, hProto]

theorem inherits (hInherits : p.inherits = true) : b.exported = "__proto__" := by
  obtain ⟨s, n, rfl, hKey, -⟩ := h
  by_contra hOther
  simp [Property.inherits, Property.prototype?, hKey, hOther] at hInherits

end EntersValue

section Values

variable {bindings : List Binding} {ps : List Property}
  (hAll : List.Forall₂ EntersValue bindings ps)
include hAll

/-- An object of values under distinct names has each under its own, but for the name that asks for
a prototype. -/
theorem givesValue_of_forall₂ (hNodup : (bindings.map (·.exported)).Nodup) {b : Binding}
    (hMem : b ∈ bindings) (hProto : b.exported ≠ "__proto__") : GivesValue ps b := by
  unfold GivesValue
  generalize ({} : Field) = first
  induction hAll generalizing first with
  | nil => cases hMem
  | @cons b' p more ps hEnters hMore ih =>
    rw [List.map_cons, List.nodup_cons] at hNodup
    intro f hBuilds
    cases hBuilds with
    | cons hStep hRest =>
      rcases List.mem_cons.mp hMem with rfl | hMem
      -- no key behind its own is the name again
      · have hNone : ∀ q ∈ ps, q.mayDefine b.exported = false :=
          forall_of_forall₂ hMore fun b' hMem q hEnters => Bool.eq_false_iff.mpr fun hMay =>
            hNodup.1 ((hEnters.mayDefine_iff.mp hMay).1 ▸ List.mem_map_of_mem hMem)
        rw [hRest.own_eq hNone]
        cases hStep with
        | defines =>
          obtain ⟨s, n, rfl, -, hName⟩ := hEnters
          exact ⟨n, rfl, hName⟩
        | passes hPasses => simp [hEnters.mustDefine_iff.mpr ⟨rfl, hProto⟩] at hPasses
        | inherits hInherits => exact absurd (hEnters.inherits hInherits) hProto
      · exact ih hNodup.2 hMem _ f hRest

theorem not_givesValue_proto {b : Binding} (hProto : b.exported = "__proto__") :
    ¬GivesValue ps b := by
  intro hGives
  have hPasses : ∀ p ∈ ps, p.mustDefine b.exported = false :=
    forall_of_forall₂ hAll fun b' _ p hEnters => Bool.eq_false_iff.mpr fun hMust =>
      (hEnters.mustDefine_iff.mp hMust).2 ((hEnters.mustDefine_iff.mp hMust).1.trans hProto)
  obtain ⟨n, hOwn, -⟩ := hGives {} (.of_passes hPasses)
  cases hOwn

end Values

theorem toList_standInName (index : Nat) : (standInName index).toList =
    '_' :: ("_modmock_export_".toList ++ (Nat.toDigits 10 index ++ "__".toList)) := by
  have hName : standInName index = "__modmock_export_" ++ index.repr ++ "__" := rfl
  rw [hName, String.toList_append, String.toList_append, Nat.toList_repr, List.append_assoc]
  rfl

theorem isPlainWord_standInName (index : Nat) : isPlainWord (standInName index).toList = true := by
  rw [toList_standInName]
  exact isPlainWord_numbered (by decide) (by decide) index

theorem isSimpleName_standInName (index : Nat) : isSimpleName (standInName index) = true := by
  have hFree : isFreeName (standInName index) = true :=
    isFreeName_of_underscore (by rw [toList_standInName]; rfl)
  rw [isSimpleName, isPlainWord_standInName, hFree, Bool.and_self]

theorem isExportable_standInName (index : Nat) : isExportable (standInName index) = true := by
  have hNot := @notMem_of_underscore (standInName index) (by rw [toList_standInName]; rfl)
    ("yield" :: "await" :: (reservedWords ++ strictWords)) (by decide +kernel)
  simp only [List.mem_cons, List.mem_append, not_or] at hNot
  obtain ⟨hYield, hAwait, hReserved, hStrict⟩ := hNot
  simp [isExportable, isReserved, hYield, hAwait, hReserved, hStrict]

theorem standInName_injective : Function.Injective standInName := by
  intro i j h
  have hChars := congrArg String.toList h
  rw [toList_standInName, toList_standInName, List.cons_inj_right] at hChars
  exact digits_injective _ _ hChars

/-- A constant holds the stand-ins made of an object. -/
def HoldsObject (ps : List Property) (spy : Bool) (stmt : Stmt) : Prop :=
  ∃ span bound callee callSpan objectSpan flagSpan,
    stmt = .decl (.variable span .constant false [.mk (.name bound []) [.call callSpan
      (.ident callee) [] [.one (.object objectSpan ps), .one (.boolean flagSpan spy)]]]) ∧
    bound.text = mockedModuleName ∧ callee.text = mockModuleName

/-- A private constant is the stand-in of a binding. -/
def TakesStandIn (e : Binding × Nat) (stmt : Stmt) : Prop :=
  ∃ span bound indexSpan object s,
    stmt = .decl (.variable span .constant false [.mk (.name bound [])
      [.index indexSpan (.ident object) (.string s)]]) ∧
    bound.text = standInName e.2 ∧ object.text = mockedModuleName ∧ s.value = e.1.exported

/-- An entry exports a stand-in under the name of its binding. -/
def ExportsStandIn (e : Binding × Nat) (x : ExportSpecifier) : Prop :=
  (∃ n, x.inner = .word n ∧ n.text = standInName e.2) ∧ x.outer.text = e.1.exported ∧
    x.typeOnly = false

def ExportsStandIns (bindings : List Binding) (stmt : Stmt) : Prop :=
  ∃ span specifiers, stmt = .exportList span false specifiers none ∧
    List.Forall₂ ExportsStandIn bindings.zipIdx specifiers

/-- Every binding is wired to its own stand-in: the value under its name in the object, the constant
of its number and the entry that exports the constant under its name. -/
structure Wired (bindings : List Binding) (spy : Bool) (holder : Stmt) (ps : List Property)
    (constants : List Stmt) (exports : Stmt) : Prop where
  holder : HoldsObject ps spy holder
  entries : List.Forall₂ EntersValue bindings ps
  values : ∀ b ∈ bindings, GivesValue ps b
  constants : List.Forall₂ TakesStandIn bindings.zipIdx constants
  exports : ExportsStandIns bindings exports

/-- A program wires every binding to its own stand-in, and does nothing else. -/
def Wires (bindings : List Binding) (spy : Bool) (q : Program) : Prop :=
  ∃ holder ps constants exports, q.body = holder :: (constants ++ [exports]) ∧
    Wired bindings spy holder ps constants exports

/-- What is told of each statement of the wiring. -/
def WiringPart.told (bindings : List Binding) (spy : Bool) : WiringPart → Stmt → Prop
  | .holder => fun stmt => ∃ ps, HoldsObject ps spy stmt ∧ List.Forall₂ EntersValue bindings ps
  | .standIn e => TakesStandIn e
  | .exports => ExportsStandIns bindings

theorem toList_entry (b : Binding) :
    (entry b).toList = (Json.quote b.exported).toList ++ ':' :: ' ' :: b.inner.toList := by
  have hColon : ": ".toList = [':', ' '] := by decide
  simp only [entry, String.toList_append, hColon, List.append_assoc, List.cons_append,
    List.nil_append]

theorem toList_exportEntry (b : Binding) (index : Nat) : (exportEntry b index).toList =
    (standInName index).toList ++
      ' ' :: ("as".toList ++ ' ' :: (exportName b.exported).toList) := by
  have hText : exportEntry b index = standInName index ++ " as " ++ exportName b.exported := rfl
  rw [hText, toList_as]

theorem readsEntry_exportEntry {e : Binding × Nat} (hName : exportName e.1.exported = e.1.exported →
    isPlainWord e.1.exported.toList = true) :
    ReadsEntry (exportSpecifier false) (exportEntry e.1 e.2).toList (ExportsStandIn e) := by
  obtain ⟨kind, hWrites⟩ := writesName_exportName fun hBare =>
    hName (exportName_of_isBareName hBare)
  rw [toList_exportEntry]
  exact readsEntry_export_local false (isPlainWord_standInName e.2) hWrites

section Reads

variable {base : State} {b : Binding} {more : List Binding} {spy : Bool}
  (hOuter : base.scope.IsOuter)
  (hLocals : ∀ c ∈ b :: more, base.scope.isVariable c.inner = true)
  (hSize : more.length ≤ base.size)

include hOuter

theorem reads_standIn (k : Nat) (e : Binding × Nat) :
    ReadsStatement base (statementRule (.ofDepth (k + 14)) .list)
      (WiringPart.text b more spy (.standIn e)) (TakesStandIn e) :=
  (reads_element hOuter (isSimpleName_standInName e.2) (by decide +kernel) e.1.exported
    k).statement_line (by decide)

include hLocals hSize

theorem reads_holder (k : Nat) :
    ReadsStatement base (statementRule (.ofDepth (k + 14)) .list)
      (WiringPart.text b more spy .holder) (WiringPart.told (b :: more) spy .holder) := by
  have hEntries : ∀ c ∈ b :: more, ReadsEntryOf base (Grammar.ofDepth (k + 5)).property
      (entry c).toList (EntersValue c) := fun c hMem => by
    rw [toList_entry]
    exact readsEntry_pair hOuter c.exported (hLocals c hMem) k
  refine ((reads_objectCall hOuter (by decide +kernel) (by decide +kernel) k hEntries
    hSize).statement (by decide)).mono ?_
  rintro stmt ⟨_, _, _, _, _, ps, _, rfl, hBound, hCallee, hAll⟩
  exact ⟨ps, ⟨_, _, _, _, _, _, rfl, hBound, hCallee⟩, hAll⟩

omit hOuter hLocals in
theorem reads_exports (g : Grammar)
    (hNames : ∀ c ∈ b :: more, exportName c.exported = c.exported →
      isPlainWord c.exported.toList = true) :
    ReadsStatement base (statementRule g .list) (WiringPart.text b more spy .exports)
      (ExportsStandIns (b :: more)) := by
  have hEntries : ∀ e ∈ (b :: more).zipIdx, ReadsEntry (exportSpecifier false)
      (exportEntry e.1 e.2).toList (ExportsStandIn e) := fun e hMem =>
    readsEntry_exportEntry (hNames e.1 (List.fst_mem_of_mem_zipIdx hMem))
  have hLocal : ∀ e ∈ (b, 0) :: more.zipIdx 1, ∀ x, ExportsStandIn e x → x.IsLocal := by
    rintro e - x ⟨⟨n, hInner, hName⟩, -⟩
    exact ⟨n, hInner, by rw [hName, isExportable_standInName]⟩
  exact (reads_exportList g hEntries hLocal (by rwa [List.length_zipIdx])).statement_line
    (by decide)

end Reads

section Parts

variable (d : Dialect) {b : Binding} {more : List Binding} {spy : Bool}

theorem text_ne_nil (part : WiringPart) : part.text b more spy ≠ [] := by
  cases part <;> simp [WiringPart.text]

theorem head_of_declaredParts (rest : List Char) :
    ∀ c ∈ ((declaredParts (b :: more)).flatMap (WiringPart.text b more spy) ++ rest).head?,
      isSolid c = true ∧ c ≠ '#' := by
  have hText : (declaredParts (b :: more)).flatMap (WiringPart.text b more spy) =
      "const".toList ++ (' ' :: objectCallText mockedModuleName mockModuleName spy
        (entry b).toList (more.map fun b => (entry b).toList) ++
        ((b :: more).zipIdx.map .standIn).flatMap (WiringPart.text b more spy)) := by
    simp only [declaredParts, List.flatMap_cons, WiringPart.text, List.append_assoc,
      List.cons_append]
  rw [hText, List.append_assoc]
  exact head_of_word (by decide) _

theorem length_le_declaredParts (rest : List Char) : more.length ≤
    ((declaredParts (b :: more)).flatMap (WiringPart.text b more spy) ++ rest).length := by
  have hLength := @length_le_flatMap _ (WiringPart.text b more spy) (declaredParts (b :: more))
    fun part _ => text_ne_nil part
  simp only [declaredParts, List.length_cons, List.length_map, List.length_zipIdx] at hLength
  rw [List.length_append]
  unfold declaredParts
  omega

theorem exportedNames_of_declared {bindings : List Binding} {part : WiringPart}
    (hMem : part ∈ declaredParts bindings) {stmt : Stmt} (h : part.told bindings spy stmt) :
    stmt.exportedNames = [] := by
  rcases List.mem_cons.mp hMem with rfl | hMem
  · obtain ⟨ps, ⟨_, _, _, _, _, _, rfl, -⟩, -⟩ := h
    rfl
  · obtain ⟨e, -, rfl⟩ := List.mem_map.mp hMem
    obtain ⟨_, _, _, _, _, rfl, -⟩ := h
    rfl

/-- The names in an export of stand-ins are those of the bindings. -/
theorem outer_of_exportsStandIn {bindings : List Binding} {specifiers : List ExportSpecifier}
    (h : List.Forall₂ ExportsStandIn bindings.zipIdx specifiers) :
    specifiers.map (·.outer.text) = bindings.map (·.exported) := by
  rw [map_eq_of_forall₂ h fun e x hExports => hExports.2.1]
  conv_rhs => rw [← List.zipIdx_map_fst 0 bindings, List.map_map]
  rfl

variable (hLocals : ∀ c ∈ b :: more, d.scope.isVariable c.inner = true)
include hLocals

theorem reads_declaredParts {rest : List Char} {k : Nat} (hDeep : 15 ≤ k) :
    ∀ part ∈ declaredParts (b :: more), ReadsStatement (State.before d
        ((declaredParts (b :: more)).flatMap (WiringPart.text b more spy) ++ rest))
      (statementRule (.ofDepth k) .list) (part.text b more spy) (part.told (b :: more) spy) := by
  obtain ⟨k, rfl⟩ := Nat.exists_eq_add_of_le' (show 14 ≤ k by omega)
  refine List.forall_mem_cons.mpr ⟨?_, List.forall_mem_map.mpr fun e _ => ?_⟩
  · exact reads_holder d.isOuter_scope hLocals (length_le_declaredParts rest) k
  · exact reads_standIn d.isOuter_scope k e

/-- The wiring is read statement by statement where every name can be read. -/
theorem parse_wiring (hNodup : ((b :: more).map (·.exported)).Nodup)
    (hNames : ∀ c ∈ b :: more, exportName c.exported = c.exported →
      isPlainWord c.exported.toList = true) :
    ∃ body, parse d (wiring (b :: more) spy).toList = .ok (⟨body⟩, []) ∧
      List.Forall₂ (WiringPart.told (b :: more) spy) (declaredParts (b :: more) ++ [.exports])
        body := by
  rw [toList_wiring]
  refine parse_apart d (fun k hDeep => ?_) (fun part _ => text_ne_nil part) ?_
    fun _ body hBody => ?_
  · rw [List.flatMap_append]
    refine List.forall_mem_append.mpr ⟨reads_declaredParts d hLocals hDeep, ?_⟩
    exact List.forall_mem_singleton.mpr
      (reads_exports (length_le_declaredParts _) (.ofDepth k) hNames)
  · rw [List.flatMap_append]
    exact head_of_declaredParts _
  · obtain ⟨declared, last, rfl, hDeclared, hLast⟩ := forall₂_append hBody
    obtain ⟨span, specifiers, rfl, hAll⟩ : ∃ span specifiers,
        last = [.exportList span false specifiers none] ∧
          List.Forall₂ ExportsStandIn (b :: more).zipIdx specifiers := by
      cases hLast with
      | cons hExports hNone =>
        cases hNone
        obtain ⟨span, specifiers, rfl, hAll⟩ := hExports
        exact ⟨span, specifiers, rfl, hAll⟩
    have hNone : declared.flatMap Stmt.exportedNames = [] :=
      List.flatMap_eq_nil_iff.mpr (forall_of_forall₂ hDeclared fun part hMem stmt hTold =>
        exportedNames_of_declared hMem hTold)
    rw [List.flatMap_append, hNone, List.nil_append, List.flatMap_singleton, Stmt.exportedNames]
    refine repeated_of_nodup ?_ fun _ _ => List.not_mem_nil
    rw [← outer_of_exportsStandIn hAll] at hNodup
    rwa [List.map_map]

end Parts

/-- What is read of each statement wires the bindings, where none asks for a prototype. -/
theorem wires_of_told {bindings : List Binding} {spy : Bool} {body : List Stmt}
    (hAll : List.Forall₂ (WiringPart.told bindings spy) (declaredParts bindings ++ [.exports]) body)
    (hNodup : (bindings.map (·.exported)).Nodup)
    (hProto : ∀ b ∈ bindings, b.exported ≠ "__proto__") : Wires bindings spy ⟨body⟩ := by
  obtain ⟨declared, last, rfl, hDeclared, hLast⟩ := forall₂_append hAll
  cases hDeclared with
  | @cons _ holder _ constants hHolder hConstants =>
    cases hLast with
    | @cons _ exports _ _ hExports hNone =>
      cases hNone
      obtain ⟨ps, hObject, hEntries⟩ := hHolder
      have hConstants := List.forall₂_map_left_iff.mp hConstants
      exact ⟨holder, ps, constants, exports, rfl,
        { holder := hObject
          entries := hEntries
          values := fun b hMem => givesValue_of_forall₂ hEntries hNodup hMem (hProto b hMem)
          constants := hConstants
          exports := hExports }⟩

/-- An export list that goes on with another name than the one written behind some entries. -/
def MissesExport (before : List Binding) (b : Binding) (stmt : Stmt) : Prop :=
  ∃ span specifiers request, stmt = .exportList span false specifiers request ∧
    ∃ items x more, specifiers = items ++ x :: more ∧
      List.Forall₂ ExportsStandIn before.zipIdx items ∧ x.outer.text ≠ b.exported

theorem MissesExport.not_exports {before after : List Binding} {b : Binding} {stmt : Stmt}
    (h : MissesExport before b stmt) : ¬ExportsStandIns (before ++ b :: after) stmt := by
  obtain ⟨_, _, _, rfl, items, x, more, rfl, hItems, hOther⟩ := h
  rintro ⟨_, _, hSame, hAll⟩
  cases hSame
  have hNames := outer_of_exportsStandIn hAll
  simp only [List.map_append, outer_of_exportsStandIn hItems, List.map_cons] at hNames
  exact hOther (List.cons.inj (List.append_cancel_left hNames)).1

theorem endsWord_entriesText (tail : List Char) (entries : List (List Char)) :
    endsWord (entriesText tail entries) = true := by
  cases entries with
  | nil => exact endsWord_blank _
  | cons entry more => exact endsWord_mark _ (by decide)

section Misread

variable (d : Dialect) {before after : List Binding} {b : Binding} {spy : Bool}

/-- The text of the export, cut before a bare name. -/
theorem exports_split {first : Binding} {more : List Binding}
    (hAll : before ++ b :: after = first :: more) (hBare : isBareName b.exported.toList = true) :
    ∃ tail, endsWord tail = true ∧ WiringPart.text first more spy .exports =
      '\n' :: ("export".toList ++ ' ' :: '\x7b' :: ' ' ::
        (before.zipIdx.flatMap (fun e => (exportEntry e.1 e.2).toList ++ [',', ' ']) ++
          ((standInName before.length).toList ++ ' ' :: ("as".toList ++
            ' ' :: (b.exported.toList ++ tail))))) := by
  have hSplit : (first, 0) :: more.zipIdx 1 =
      before.zipIdx ++ (b, before.length) :: after.zipIdx (before.length + 1) := by
    have hIndexed : (first :: more).zipIdx = (first, 0) :: more.zipIdx 1 := rfl
    rw [← hIndexed, ← hAll, List.zipIdx_append, List.zipIdx_cons, Nat.zero_add]
  refine ⟨_, endsWord_entriesText [';'] ((after.zipIdx (before.length + 1)).map
    fun e => (exportEntry e.1 e.2).toList), ?_⟩
  rw [WiringPart.text]
  delta exportListText
  rw [entriesText_split (fun e : Binding × Nat => (exportEntry e.1 e.2).toList) hSplit,
    toList_exportEntry, exportName_of_isBareName hBare]
  simp only [List.append_assoc, List.cons_append]

/-- Where an entry cannot be read, another name is exported. -/
theorem misses_of_bare {first : Binding} {more : List Binding} {q : Program}
    {faults : List SyntaxFault} (hAll : before ++ b :: after = first :: more)
    (hLocals : ∀ c ∈ first :: more, d.scope.isVariable c.inner = true)
    (hBefore : ∀ c ∈ before, exportName c.exported = c.exported →
      isPlainWord c.exported.toList = true)
    (hBare : isBareName b.exported.toList = true) (hWord : isPlainWord b.exported.toList = false)
    (h : parse d (wiring (first :: more) spy).toList = .ok (q, faults)) :
    ∃ declared stmt rest, q.body = declared ++ stmt :: rest ∧
      List.Forall₂ (WiringPart.told (first :: more) spy) (declaredParts (first :: more)) declared ∧
      MissesExport before b stmt := by
  obtain ⟨tail, hEnds, hText⟩ := @exports_split before after b spy first more hAll hBare
  rw [toList_wiring, List.flatMap_append, List.flatMap_singleton] at h
  refine body_of_parse d (fun k hDeep => reads_declaredParts d hLocals hDeep)
    (fun part _ => text_ne_nil part) (head_of_declaredParts _) (fun g u mark hStands => ?_) h
  have hSize := @length_le_declaredParts first more spy (WiringPart.text first more spy .exports)
  have hShorter : before.length ≤ more.length := by
    have hLength := congrArg List.length hAll
    simp only [List.length_append, List.length_cons] at hLength
    omega
  generalize hBase : State.before d _ = base at hStands
  rw [hText] at hStands
  have hExport : isPlainWord "export".toList = true := by decide
  have h₁ := hStands.next_line (.word hExport (endsWord_blank _))
  have h₂ := h₁.next_blank (.braceL _)
  refine ⟨by simp [h₁.kind], exportList_yields g h₁.kind h₁.plain h₂.kind ?_⟩
  refine separated_yields (fun e hMem => readsEntry_exportEntry
    (hBefore e.1 (List.fst_mem_of_mem_zipIdx hMem)) base) ?_ h₂ fun v mark hBehind => ?_
  · rw [List.length_zipIdx, ← hBase]
    exact Nat.le_trans hShorter hSize
  · have hName := isPlainWord_standInName before.length
    have h₃ := hBehind.next_blank (.word hName (endsWord_blank _))
    have hType : standInName before.length ≠ "type" := fun hSame => by
      have hHead := congrArg (fun name => name.toList.head?) hSame
      simp [toList_standInName] at hHead
    exact ⟨by simp [h₃.kind], export_of_bare hName hType hBare hWord hEnds hBehind⟩

/-- The wiring of a module is read as each binding wired to its own stand-in, exactly where no name
asks for a prototype and each that is written without quotes is a word. -/
theorem wiring_read_iff (spy : Bool) {bindings : List Binding} (hSome : bindings ≠ [])
    (hNodup : (bindings.map (·.exported)).Nodup)
    (hLocals : ∀ b ∈ bindings, d.scope.isVariable b.inner = true) :
    (∃ q, parse d (wiring bindings spy).toList = .ok (q, []) ∧ Wires bindings spy q) ↔
      ∀ b ∈ bindings, b.exported ≠ "__proto__" ∧
        (exportName b.exported = b.exported → isPlainWord b.exported.toList = true) := by
  obtain ⟨first, more, rfl⟩ := List.exists_cons_of_ne_nil hSome
  constructor
  · rintro ⟨q, hParse, holder, ps, constants, exports, hBody, hWired⟩
    have hNames : ∀ b ∈ first :: more, exportName b.exported = b.exported →
        isPlainWord b.exported.toList = true := by
      by_contra hBad
      obtain ⟨before, b, after, hAll, hBefore, hNot⟩ := exists_first hBad
      obtain ⟨hSelf, hWord⟩ := Classical.not_imp.mp hNot
      obtain ⟨declared, stmt, rest, hSplit, hDeclared, hMisses⟩ := misses_of_bare d hAll.symm
        hLocals hBefore (exportName_eq_self_iff.mp hSelf) (Bool.eq_false_iff.mpr hWord) hParse
      have hLength : declared.length = (holder :: constants).length := by
        rw [← hDeclared.length_eq, List.length_cons, ← hWired.constants.length_eq]
        simp [declaredParts]
      -- as many statements stand before both, so the export of all stand-ins misses a name
      rw [hBody, ← List.cons_append] at hSplit
      obtain ⟨-, hLast⟩ := List.append_inj hSplit.symm hLength
      cases hLast
      exact hMisses.not_exports (hAll ▸ hWired.exports)
    refine fun b hMem => ⟨fun hProto => ?_, hNames b hMem⟩
    exact not_givesValue_proto hWired.entries hProto (hWired.values b hMem)
  · intro hAll
    obtain ⟨body, hParse, hTold⟩ := parse_wiring d hLocals hNodup fun b hMem => (hAll b hMem).2
    exact ⟨⟨body⟩, hParse, wires_of_told hTold hNodup fun b hMem => (hAll b hMem).1⟩

end Misread

end Standin.Automock
