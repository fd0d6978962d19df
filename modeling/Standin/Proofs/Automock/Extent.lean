import Standin.Proofs.Automock.Layout
import Standin.Proofs.Edit.Simultaneous

namespace Standin.Script

def Stmt.isExport : Stmt → Bool
  | .exportDecl .. | .exportDefault .. | .exportList .. | .exportAll .. | .exportAssign ..
  | .exportGlobal .. => true
  | _ => false

/-- Declarations without a value to stand in for: what is only declared, types, enumerations,
namespaces and aliases. -/
def Decl.isKept : Decl → Bool
  | .variable _ _ declared _ | .function declared _ | .classDecl declared _ => declared
  | .typeAlias .. | .interface .. | .enumDecl .. | .namespaceDecl .. | .alias .. => true

/-- Exports without a value to stand in for: such declarations, types, and values of another module
that the source does not name. -/
def Stmt.isKeptExport : Stmt → Bool
  | .exportDecl _ d => d.isKept
  | .exportDefault _ (.interface ..) => true
  | .exportList _ typeOnly _ _ => typeOnly
  | .exportAll _ typeOnly name _ => typeOnly || name.isNone
  | .exportAssign .. | .exportGlobal .. => true
  | _ => false

def Stmt.origin? : Stmt → Option Span
  | .exportList _ _ _ request => request.map (·.source.span)
  | .exportAll _ _ _ request => some request.source.span
  | _ => none

/-- The stretches of the source that are read to take an export out of a statement: what may hold a
semicolon behind a value, and the literal of another module. -/
def Stmt.reads : Stmt → List Span
  | .exportDefault span (.expr e) => [⟨e.span.stop, span.stop⟩]
  | .exportList _ false _ request => (request.map (·.source.span)).toList
  | .exportAll _ false _ request => [request.source.span]
  | _ => []

/-- Statements in order inside a source, and what they name inside them. -/
structure SpansInside (source : List Char) (p : Program) : Prop extends SpansInOrder p where
  ends : ∀ s ∈ p.body, s.span.stop ≤ source.length
  origins : ∀ s ∈ p.body, ∀ part ∈ s.origin?,
    s.span.start ≤ part.start ∧ part.start ≤ part.stop ∧ part.stop ≤ s.span.stop

instance (source : List Char) (p : Program) : Decidable (SpansInside source p) :=
  decidable_of_iff
    ((p.body.Pairwise fun a b => a.span.stop ≤ b.span.start) ∧
      (∀ s ∈ p.body, s.span.start ≤ s.span.stop ∧ s.span.stop ≤ source.length) ∧
      ∀ s ∈ p.body, ∀ part ∈ s.shown?.toList ++ s.origin?.toList,
        s.span.start ≤ part.start ∧ part.start ≤ part.stop ∧ part.stop ≤ s.span.stop)
    ⟨fun ⟨hOrdered, hEnds, hParts⟩ =>
      { ordered := hOrdered
        forward := fun s hMem => (hEnds s hMem).1
        inside := fun s hMem part hPart => hParts s hMem part
          (List.mem_append_left _ (Option.mem_toList.mpr hPart))
        ends := fun s hMem => (hEnds s hMem).2
        origins := fun s hMem part hPart => hParts s hMem part
          (List.mem_append_right _ (Option.mem_toList.mpr hPart)) },
    fun h => ⟨h.ordered, fun s hMem => ⟨h.forward s hMem, h.ends s hMem⟩, by
      intro s hMem part hPart
      rcases List.mem_append.mp hPart with hShown | hOrigin
      · exact h.inside s hMem part (Option.mem_toList.mp hShown)
      · exact h.origins s hMem part (Option.mem_toList.mp hOrigin)⟩⟩

variable {source : List Char} {p : Program} {s : Stmt}

theorem Stmt.isRewritten_of_isKeptExport (h : s.isKeptExport = true) : s.isRewritten = false := by
  cases s with
  | exportDecl span d => cases d <;> simp_all [isKeptExport, Decl.isKept, isRewritten]
  | exportDefault span value => cases value <;> simp_all [isKeptExport, isRewritten]
  | exportList => simp_all [isKeptExport, isRewritten]
  | exportAll span typeOnly name =>
    cases typeOnly <;> cases name <;> simp_all [isKeptExport, isRewritten]
  | _ => rfl

theorem Stmt.isExport_of_isRewritten (h : s.isRewritten = true) : s.isExport = true := by
  cases s <;> first | rfl | cases h

theorem SpansInside.reads (h : SpansInside source p) (hMem : s ∈ p.body) {part : Span}
    (hPart : part ∈ s.reads) : part.start ≤ part.stop ∧ part.stop ≤ source.length := by
  have hEnd := h.ends s hMem
  have hOrigin := h.origins s hMem
  unfold Stmt.reads at hPart
  split at hPart
  · next span e =>
    obtain rfl := List.mem_singleton.mp hPart
    obtain ⟨-, -, hStop⟩ := h.inside _ hMem e.span rfl
    exact ⟨hStop, hEnd⟩
  · next request =>
    obtain ⟨-, hOrder, hStop⟩ := hOrigin part (by simpa [Stmt.origin?] using hPart)
    exact ⟨hOrder, Nat.le_trans hStop hEnd⟩
  · obtain rfl := List.mem_singleton.mp hPart
    obtain ⟨-, hOrder, hStop⟩ := hOrigin _ rfl
    exact ⟨hOrder, Nat.le_trans hStop hEnd⟩
  · cases hPart

end Standin.Script

namespace Standin.Automock

open Standin.Script Standin.Edit

variable {source other : List Char} {index : Nat} {s : Stmt} {body : List Stmt} {e : Edit}

/-- Nothing else of the source is read. -/
theorem Addition.ofStmt_congr (index : Nat)
    (h : ∀ part ∈ s.reads, sliceOf source part = sliceOf other part) :
    ofStmt source index s = ofStmt other index s := by
  have hEmpty (start : Nat) (value : Span) :
      captured source start value value.stop = captured other start value value.stop := by
    simp [captured, semicolon]
  cases s with
  | exportDefault span value =>
    cases value with
    | function f => cases hName : f.name? <;> simp only [ofStmt, ofDefault, hName, hEmpty]
    | classDecl c => cases hName : c.name? <;> simp only [ofStmt, ofDefault, hName, hEmpty]
    | interface => rfl
    | expr e =>
      have hBehind := String.ofList_injective (h _ (List.mem_singleton_self _))
      simp only [ofStmt, ofDefault, captured, semicolon, hBehind]
  | exportList span typeOnly specifiers request =>
    cases typeOnly with
    | true => rfl
    | false =>
      cases request with
      | none => rfl
      | some request =>
        have hOrigin := h request.source.span (List.mem_singleton_self _)
        simp only [ofStmt, ofList, hOrigin]
  | exportAll span typeOnly name request =>
    cases typeOnly with
    | true => rfl
    | false =>
      have hOrigin := h request.source.span (List.mem_singleton_self _)
      cases name <;> simp only [ofStmt, ofAll, hOrigin]
  | _ => rfl

theorem mem_edits_ofStmts (h : e ∈ (Addition.ofStmts source index body).edits) :
    ∃ s ∈ body, ∃ i, e ∈ (Addition.ofStmt source i s).edits := by
  induction body generalizing index with
  | nil => cases h
  | cons s more ih =>
    rcases List.mem_append.mp h with hFirst | hMore
    · exact ⟨s, List.mem_cons_self, index, hFirst⟩
    · obtain ⟨t, hMem, hEdit⟩ := ih hMore
      exact ⟨t, List.mem_cons_of_mem _ hMem, hEdit⟩

theorem edits_removeExports (source : List Char) (p : Program) :
    (removeExports source p).edits = (Addition.ofStmts source 0 p.body).edits := by
  rw [removeExports_eq]
  rfl

/-- Every edit stands inside a statement that gives up an export. -/
theorem exists_rewritten {p : Program} (hSpans : SpansInOrder p)
    (h : e ∈ (removeExports source p).edits) :
    ∃ s ∈ p.body, s.isRewritten = true ∧
      s.span.start ≤ e.start ∧ e.start ≤ e.stop ∧ e.stop ≤ s.span.stop := by
  rw [edits_removeExports] at h
  obtain ⟨s, hMem, i, hEdit⟩ := mem_edits_ofStmts h
  have hPlaced : s.Placed := ⟨hSpans.forward s hMem, hSpans.inside s hMem⟩
  exact ⟨s, hMem, Addition.isRewritten_of_mem hEdit, (shape_ofStmt source i hPlaced).inside hEdit⟩

theorem valid_removeExports {p : Program} (hSpans : SpansInside source p) :
    Edit.Valid source (removeExports source p).edits where
  fits e hEdit := by
    obtain ⟨s, hMem, -, -, hForward, hStop⟩ := exists_rewritten hSpans.toSpansInOrder hEdit
    exact ⟨hForward, Nat.le_trans hStop (hSpans.ends s hMem)⟩
  apart := by
    rw [edits_removeExports]
    exact (behind_ofStmts source 0 hSpans.toSpansInOrder).imp Or.inl

/-- What is taken out of a program depends on the stretches that its statements read. -/
theorem removeExports_congr {p : Program}
    (h : ∀ s ∈ p.body, ∀ part ∈ s.reads, sliceOf source part = sliceOf other part) :
    removeExports source p = removeExports other p := by
  have hStmts (index : Nat) (body : List Stmt)
      (h : ∀ s ∈ body, ∀ part ∈ s.reads, sliceOf source part = sliceOf other part) :
      Addition.ofStmts source index body = Addition.ofStmts other index body := by
    induction body generalizing index with
    | nil => rfl
    | cons s more ih =>
      obtain ⟨hFirst, hMore⟩ := List.forall_mem_cons.mp h
      simp only [Addition.ofStmts, Addition.ofStmt_congr index hFirst, ih _ hMore]
  rw [removeExports_eq, removeExports_eq, hStmts 0 p.body h]

/-- Automocking reads and edits a source inside the exports that it gives up, without a fault; the
code that comes out is the source with those in their new shape and all else as it was. -/
theorem touches_only_exports {code : String} (id : String) (spy : Bool) {p : Program}
    (hSpans : SpansInside code.toList p) :
    let source := code.toList
    let r := removeExports source p
    (∀ e ∈ r.edits, ∃ s ∈ p.body, s.isExport = true ∧ s.isKeptExport = false ∧
      s.span.start ≤ e.start ∧ e.start ≤ e.stop ∧ e.stop ≤ s.span.stop) ∧
    r.edits.Pairwise Apart ∧
    checked? source r.edits = some (apply source r.edits) ∧
    (∀ s ∈ p.body, ∀ part ∈ s.reads,
      slice? source part.start part.stop = some (sliceOf source part).toList) ∧
    (∀ other, (∀ s ∈ p.body, ∀ part ∈ s.reads, sliceOf source part = sliceOf other part) →
      removeExports other p = r) ∧
    (ofProgram code id spy p).code.toList = layout source 0 0 p.body ++
      (if r.bindings = [] then [] else (epilogue r.bindings spy).toList) ∧
    ∀ s ∈ p.body, s.isExport = false ∨ s.isKeptExport = true → ∀ index,
      leftText source index s = between source s.span.start s.span.stop := by
  intro source r
  have hValid : Edit.Valid source r.edits := valid_removeExports hSpans
  refine ⟨fun e hEdit => ?_, hValid.apart, checked?_eq_some_iff.mpr ⟨hValid, rfl⟩,
    fun s hMem part hPart => ?_, fun other hSame => (removeExports_congr hSame).symm,
    code_eq_layout spy hSpans.toSpansInOrder, fun s _ hKept index => ?_⟩
  · obtain ⟨s, hMem, hRewritten, hPlace⟩ := exists_rewritten hSpans.toSpansInOrder hEdit
    have hGiven : s.isKeptExport = false := by
      by_contra hKept
      rw [Stmt.isRewritten_of_isKeptExport (by simpa using hKept)] at hRewritten
      cases hRewritten
    exact ⟨s, hMem, Stmt.isExport_of_isRewritten hRewritten, hGiven, hPlace⟩
  · obtain ⟨hOrder, hStop⟩ := hSpans.reads hMem hPart
    rw [slice?_of_le hOrder hStop, sliceOf, String.toList_ofList, between]
  · refine leftText_of_not_isRewritten source index ?_
    rcases hKept with hOther | hKept
    · by_contra hRewritten
      rw [Stmt.isExport_of_isRewritten (by simpa using hRewritten)] at hOther
      cases hOther
    · exact Stmt.isRewritten_of_isKeptExport hKept

/-- Exports without a gap between them, a semicolon due where the first ends, a list of a value and
a type, and two exports that are kept. -/
def adjacentSource : String :=
  "export default class\x7b\x7dexport const b=1;export\x7bc,type D\x7dfrom'./m'\n" ++
    "export type T=1;export*from'n';b"

def adjacentEdits : List Edit :=
  [⟨0, 15, captureText.toList⟩, ⟨22, 22, [';']⟩, ⟨22, 29, []⟩, ⟨39, 64,
    ("import \x7b c as __modmock_reexport_0__ \x7d from './m';" ++
      "export type \x7b D \x7d from './m';").toList⟩]

theorem program_adjacentSource :
    ∃ p, program adjacentSource "/p/a.ts" = .ok p ∧ SpansInside adjacentSource.toList p ∧
      (removeExports adjacentSource.toList p).edits = adjacentEdits ∧
      (removeExports adjacentSource.toList p).bindings ≠ [] := by
  decide +kernel

theorem adjacentSource_kept :
    ∃ p, program adjacentSource "/p/a.ts" = .ok p ∧ SpansInside adjacentSource.toList p ∧
      (removeExports adjacentSource.toList p).edits = adjacentEdits ∧
      adjacentEdits.Pairwise Apart ∧
      ("const __modmock_default__ = class\x7b\x7d;const b=1;" ++
        "import \x7b c as __modmock_reexport_0__ \x7d from './m';" ++
        "export type \x7b D \x7d from './m';\nexport type T=1;export*from'n';b").toList <+:
        (ofProgram adjacentSource "/p/a.ts" false p).code.toList := by
  obtain ⟨p, hProgram, hSpans, hEdits, -⟩ := program_adjacentSource
  obtain ⟨-, hApart, -, -, -, hCode, -⟩ := touches_only_exports "/p/a.ts" false hSpans
  rw [hEdits] at hApart
  refine ⟨p, hProgram, hSpans, hEdits, hApart, ?_⟩
  rw [hCode, ← apply_removeExports _ hSpans.toSpansInOrder,
    apply_eq_substituted (valid_removeExports hSpans), hEdits]
  refine List.IsPrefix.trans ?_ (List.prefix_append _ _)
  decide +kernel

end Standin.Automock
