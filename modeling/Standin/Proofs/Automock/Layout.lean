import Standin.Automock.Basic
import Standin.Proofs.Automock.Written
import Standin.Proofs.Edit.Substitution
import Standin.Script.Tree

namespace Standin.Script

/-- Statements stand one behind another, and what an export shows stands inside it. -/
structure SpansInOrder (p : Program) : Prop where
  ordered : p.body.Pairwise fun a b => a.span.stop ≤ b.span.start
  forward : ∀ s ∈ p.body, s.span.start ≤ s.span.stop
  inside : ∀ s ∈ p.body, ∀ part ∈ s.shown?,
    s.span.start ≤ part.start ∧ part.start ≤ part.stop ∧ part.stop ≤ s.span.stop

theorem SpansInOrder.tail {s : Stmt} {more : List Stmt} (h : SpansInOrder ⟨s :: more⟩) :
    SpansInOrder ⟨more⟩ where
  ordered := (List.pairwise_cons.mp h.ordered).2
  forward s hMem := h.forward s (List.mem_cons_of_mem _ hMem)
  inside s hMem := h.inside s (List.mem_cons_of_mem _ hMem)

/-- A statement ends behind its start, and what it shows stands inside it. -/
structure Stmt.Placed (s : Stmt) : Prop where
  forward : s.span.start ≤ s.span.stop
  shown : ∀ part ∈ s.shown?,
    s.span.start ≤ part.start ∧ part.start ≤ part.stop ∧ part.stop ≤ s.span.stop

theorem SpansInOrder.head {s : Stmt} {more : List Stmt} (h : SpansInOrder ⟨s :: more⟩) :
    s.Placed := ⟨h.forward s List.mem_cons_self, h.inside s List.mem_cons_self⟩

end Standin.Script

namespace Standin.Automock

open Standin.Script Standin.Edit

/-- A value bound to the private default name, up to the end of its statement. One that stands no
further on than its statement is left as it is. -/
def capturedText (source : List Char) (start : Nat) (value : Span) (stop : Nat) : List Char :=
  if value.start ≤ start then between source start stop
  else
    captureText.toList ++ between source value.start stop ++
      if (between source value.stop stop).contains ';' then [] else [';']

/-- What is left in place of a statement at the top when so many private names are given. -/
def leftText (source : List Char) (index : Nat) : Stmt → List Char
  | .exportDecl span d =>
    between source (if (Stmt.exportDecl span d).isRewritten then d.span.start else span.start)
      span.stop
  | .exportDefault span (.function f) =>
    match f.name? with
    | some _ => between source f.span.start span.stop
    | none =>
      capturedText source span.start f.span f.span.stop ++ between source f.span.stop span.stop
  | .exportDefault span (.classDecl c) =>
    match c.name? with
    | some _ => between source c.span.start span.stop
    | none =>
      capturedText source span.start c.span c.span.stop ++ between source c.span.stop span.stop
  | .exportDefault span (.expr e) => capturedText source span.start e.span span.stop
  | .exportList _ false specifiers (some request) =>
    let origin := " from " ++ sliceOf source request.source.span ++ ";"
    (importText (valuesOf specifiers) index origin ++
      typesText (typesOf specifiers) origin).toList
  | .exportList _ false specifiers none => (typesText (typesOf specifiers) ";").toList
  | .exportAll _ false (some _) request =>
    (allText index (sliceOf source request.source.span)).toList
  | s => between source s.span.start s.span.stop

/-- The text behind a position when each statement gives way to what is left of it. -/
def layout (source : List Char) (position index : Nat) : List Stmt → List Char
  | [] => source.drop position
  | s :: more =>
    between source position s.span.start ++ leftText source index s ++
      layout source s.span.stop (index + s.passedOn) more

/-- A statement that gives up no export leaves its own text. -/
theorem leftText_of_not_isRewritten (source : List Char) (index : Nat) {s : Stmt}
    (h : s.isRewritten = false) :
    leftText source index s = between source s.span.start s.span.stop := by
  cases s with
  | exportDecl span d => simp [leftText, h, Stmt.span]
  | exportDefault span value =>
    cases value with
    | interface => rfl
    | _ => simp [Stmt.isRewritten] at h
  | exportList span typeOnly specifiers request =>
    cases typeOnly with
    | true => rfl
    | false => simp [Stmt.isRewritten] at h
  | exportAll span typeOnly name request =>
    cases typeOnly with
    | true => rfl
    | false =>
      cases name with
      | none => rfl
      | some name => simp [Stmt.isRewritten] at h
  | _ => rfl

/-- A statement makes no edit, or one at its start, or another one further on that only inserts. -/
inductive Shape (source : List Char) (s : Stmt) : List Edit → List Char → Prop
  | none : Shape source s [] (between source s.span.start s.span.stop)
  | one (low : Nat) (text : List Char) (hLow : s.span.start ≤ low) (hStop : low ≤ s.span.stop) :
    Shape source s [⟨s.span.start, low, text⟩] (text ++ between source low s.span.stop)
  | two (low middle : Nat) (text inserted : List Char) (hLow : s.span.start ≤ low)
      (hMiddle : low ≤ middle) (hStop : middle ≤ s.span.stop) :
    Shape source s [⟨s.span.start, low, text⟩, ⟨middle, middle, inserted⟩]
      (text ++ between source low middle ++ inserted ++ between source middle s.span.stop)

variable {source : List Char} {index position : Nat} {s : Stmt}

theorem shape_captured {value : Span} {stop : Nat} (hLow : s.span.start ≤ value.start)
    (hValue : value.start ≤ stop) (hStop : stop ≤ s.span.stop) :
    Shape source s (Addition.captured source s.span.start value stop).edits
      (capturedText source s.span.start value stop ++ between source stop s.span.stop) := by
  rw [capturedText]
  split
  · next hThere =>
    rw [Addition.captured, if_pos hThere, between_append source (Nat.le_trans hLow hValue) hStop]
    exact .none
  · next hBehind =>
    have hEdits : (Addition.captured source s.span.start value stop).edits =
        ⟨s.span.start, value.start, captureText.toList⟩ ::
          if (between source value.stop stop).contains ';' then [] else [⟨stop, stop, [';']⟩] :=
      congrArg Addition.edits (Addition.captured_of_lt (Nat.not_le.mp hBehind) source)
    rw [hEdits]
    split
    · have hText : Shape source s _ _ :=
        .one value.start captureText.toList hLow (Nat.le_trans hValue hStop)
      rw [← between_append source hValue hStop, ← List.append_assoc] at hText
      simpa only [List.append_nil] using hText
    · exact .two value.start stop captureText.toList [';'] hLow hValue hStop

theorem shape_list (span : Span) (text : List Char) (h : s.span = span)
    (hForward : span.start ≤ span.stop) : Shape source s [⟨span.start, span.stop, text⟩] text := by
  subst h
  have hText : Shape source s _ _ := .one s.span.stop text hForward (Nat.le_refl _)
  rwa [between_self, List.append_nil] at hText

/-- What a statement edits, and what is left of it. -/
theorem shape_ofStmt (source : List Char) (index : Nat) (h : s.Placed) :
    Shape source s (Addition.ofStmt source index s).edits (leftText source index s) := by
  obtain ⟨hForward, hShown⟩ := h
  have hStrip {part : Span} (hPart : part ∈ s.shown?) (bindings : List Binding) :
      Shape source s (Addition.strip s.span.start part.start bindings).edits
        (between source part.start s.span.stop) := by
    obtain ⟨hLow, hOrder, hHigh⟩ := hShown part hPart
    unfold Addition.strip
    split
    · next hThere =>
      rw [Nat.le_antisymm hThere hLow]
      exact .none
    · exact .one part.start [] hLow (Nat.le_trans hOrder hHigh)
  cases s using Stmt.byExport with
  | kept s hKept =>
    obtain ⟨hNone, -, -⟩ := Addition.ofStmt_of_not_isRewritten source index hKept
    rw [hNone, leftText_of_not_isRewritten source index hKept]
    exact .none
  | varDecl => exact hStrip rfl _
  | function _ f n hName | classDecl _ c n hName =>
    simp only [Addition.ofStmt, Addition.ofDecl, Addition.ofNames, leftText, Stmt.isRewritten,
      hName, Option.toList]
    exact hStrip rfl _
  | namedFunction _ f n hName | namedClass _ c n hName =>
    simp only [Addition.ofStmt, Addition.ofDefault, leftText, hName]
    exact hStrip rfl _
  | namelessFunction _ f hName =>
    obtain ⟨hLow, hPart, hHigh⟩ := hShown f.span rfl
    simp only [Addition.ofStmt, Addition.ofDefault, leftText, hName]
    exact shape_captured hLow hPart hHigh
  | namelessClass _ c hName =>
    obtain ⟨hLow, hPart, hHigh⟩ := hShown c.span rfl
    simp only [Addition.ofStmt, Addition.ofDefault, leftText, hName]
    exact shape_captured hLow hPart hHigh
  | expr span e =>
    obtain ⟨hLow, hPart, hHigh⟩ := hShown e.span rfl
    have hText : Shape source (.exportDefault span (.expr e)) _ _ :=
      shape_captured hLow (Nat.le_trans hPart hHigh) (Nat.le_refl _)
    rwa [between_self, List.append_nil] at hText
  | ownList span | foreignList span | foreignAll span => exact shape_list span _ rfl hForward

theorem Shape.inside {edits : List Edit} {left : List Char} (h : Shape source s edits left)
    {e : Edit} (hEdit : e ∈ edits) :
    s.span.start ≤ e.start ∧ e.start ≤ e.stop ∧ e.stop ≤ s.span.stop := by
  cases h with
  | none => cases hEdit
  | one low text hLow hStop =>
    obtain rfl := List.mem_singleton.mp hEdit
    exact ⟨Nat.le_refl _, hLow, hStop⟩
  | two low middle text inserted hLow hMiddle hStop =>
    simp only [List.mem_cons, List.not_mem_nil, or_false] at hEdit
    rcases hEdit with rfl | rfl
    · exact ⟨Nat.le_refl _, hLow, Nat.le_trans hMiddle hStop⟩
    · exact ⟨Nat.le_trans hLow hMiddle, Nat.le_refl _, hStop⟩

/-- Of two edits of a statement the second starts behind the first. -/
theorem Shape.behind {edits : List Edit} {left : List Char} (h : Shape source s edits left) :
    edits.Pairwise fun a b => a.stop ≤ b.start := by
  cases h with
  | none => exact .nil
  | one => exact List.pairwise_singleton ..
  | two low middle _ _ hLow hMiddle => exact List.pairwise_pair.mpr hMiddle

/-- The edits of a statement leave its text, whatever is edited behind it. -/
theorem Shape.appliedFrom {edits more : List Edit} {left : List Char}
    (h : Shape source s edits left) (hLow : position ≤ s.span.start)
    (hForward : s.span.start ≤ s.span.stop) (hMore : ∀ e ∈ more, s.span.stop ≤ e.start) :
    Edit.appliedFrom source position (edits ++ more) =
      between source position s.span.start ++ left ++
        Edit.appliedFrom source s.span.stop more := by
  cases h with
  | none =>
    rw [List.nil_append, appliedFrom_skip (Nat.le_trans hLow hForward) hMore,
      between_append source hLow hForward]
  | one low text hStart hStop =>
    rw [List.singleton_append, appliedFrom_cons more hLow hStart, appliedFrom_skip hStop hMore]
    simp only [List.append_assoc]
  | two low middle text inserted hStart hMiddle hStop =>
    simp only [List.cons_append, List.nil_append]
    rw [appliedFrom_cons _ hLow hStart, appliedFrom_cons more hMiddle (Nat.le_refl _),
      appliedFrom_skip hStop hMore]
    simp only [List.append_assoc]

variable {body : List Stmt}

theorem start_le_of_later {low : Nat} (hSpans : SpansInOrder ⟨body⟩)
    (hLow : ∀ s ∈ body, low ≤ s.span.start) {e : Edit}
    (h : e ∈ (Addition.ofStmts source index body).edits) :
    low ≤ e.start ∧ e.start ≤ e.stop := by
  induction body generalizing index with
  | nil => cases h
  | cons s more ih =>
    rcases List.mem_append.mp h with h | h
    · obtain ⟨hStart, hStop, -⟩ := (shape_ofStmt source index hSpans.head).inside h
      exact ⟨Nat.le_trans (hLow s List.mem_cons_self) hStart, hStop⟩
    · exact ih hSpans.tail (fun s hMem => hLow s (List.mem_cons_of_mem _ hMem)) h

/-- Each edit starts where the one before it ends, or behind. -/
theorem behind_ofStmts (source : List Char) (index : Nat) (hSpans : SpansInOrder ⟨body⟩) :
    (Addition.ofStmts source index body).edits.Pairwise fun a b => a.stop ≤ b.start := by
  induction body generalizing index with
  | nil => exact .nil
  | cons s more ih =>
    have hShape := shape_ofStmt source index hSpans.head
    refine List.pairwise_append.mpr ⟨hShape.behind, ih _ hSpans.tail, fun a ha b hb => ?_⟩
    obtain ⟨-, -, hStop⟩ := hShape.inside ha
    have hLater := (List.pairwise_cons.mp hSpans.ordered).1
    exact Nat.le_trans hStop (start_le_of_later hSpans.tail hLater hb).1

theorem pairwise_ofStmts (source : List Char) (index : Nat) (hSpans : SpansInOrder ⟨body⟩) :
    (Addition.ofStmts source index body).edits.Pairwise fun a b => Edit.le a b := by
  refine (behind_ofStmts source index hSpans).imp_of_mem fun {a b} ha hb hBehind => ?_
  have hFirst := (start_le_of_later hSpans (fun _ _ => Nat.zero_le _) ha).2
  have hSecond := (start_le_of_later hSpans (fun _ _ => Nat.zero_le _) hb).2
  simp only [Edit.le, Bool.or_eq_true, Bool.and_eq_true, decide_eq_true_eq, beq_iff_eq]
  omega

theorem appliedFrom_ofStmts (source : List Char) (hSpans : SpansInOrder ⟨body⟩)
    (hLow : ∀ s ∈ body, position ≤ s.span.start) :
    Edit.appliedFrom source position (Addition.ofStmts source index body).edits =
      layout source position index body := by
  induction body generalizing position index with
  | nil => rfl
  | cons s more ih =>
    have hBehind := (List.pairwise_cons.mp hSpans.ordered).1
    show Edit.appliedFrom source position ((Addition.ofStmt source index s).edits ++
      (Addition.ofStmts source (index + (Addition.ofStmt source index s).reexports) more).edits) = _
    rw [(shape_ofStmt source index hSpans.head).appliedFrom (hLow s List.mem_cons_self)
      hSpans.head.forward fun e hMem => (start_le_of_later hSpans.tail hBehind hMem).1,
      ih hSpans.tail hBehind, Addition.reexports_ofStmt]
    rfl

/-- With its exports taken out, a module is laid out statement by statement. -/
theorem apply_removeExports {p : Program} (source : List Char) (hSpans : SpansInOrder p) :
    Edit.apply source (removeExports source p).edits = layout source 0 0 p.body := by
  rw [removeExports_eq]
  simp only [Removal.add, List.nil_append]
  rw [apply_of_pairwise (pairwise_ofStmts source 0 hSpans)]
  exact appliedFrom_ofStmts source hSpans fun s _ => Nat.zero_le _

/-- The code of a mocked module is its layout and, where it exports anything, the stand-ins. -/
theorem code_eq_layout {code id : String} (spy : Bool) {p : Program} (hSpans : SpansInOrder p) :
    (ofProgram code id spy p).code.toList = layout code.toList 0 0 p.body ++
      if (removeExports code.toList p).bindings = [] then []
      else (epilogue (removeExports code.toList p).bindings spy).toList := by
  rw [toList_code_ofProgram, apply_removeExports code.toList hSpans]

end Standin.Automock
