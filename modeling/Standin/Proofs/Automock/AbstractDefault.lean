import Standin.Proofs.Automock.Layout
import Standin.Proofs.Script.LineEnds

namespace Standin.Script

open Reading

namespace Grammar

variable {s : State}

/-- Words and marks that bind a constant to what begins as an abstract class. -/
structure BindsAbstract (w : String) (s : State) : Prop where
  const : s.token.kind = .word "const"
  plain : s.token.escaped = false
  name : s.next.token.kind = .word w
  assign : s.next.next.token.kind = .punct .assign
  abstract : s.next.next.next.token.kind = .word "abstract"
  cls : s.next.next.next.next.token.kind = .word "class"
  onLine : s.next.next.next.next.token.onNewLine = false

variable {w : String} (h : BindsAbstract w s)
include h

theorem BindsAbstract.bindsName : BindsName w "abstract" s :=
  ⟨⟨h.const, h.plain, h.name, h.assign⟩, h.abstract⟩

variable (hName : isFreeName w = true)
include hName

theorem declarator_abstract (k : Nat) :
    ∃ d, (ofDepth (k + 5)).declarator .constant .statement s.next =
      .ok d (behindName s) := by
  -- a class does not take the name before it further
  have hEnds : (behindName s).token.continues = false := by simp [Token.continues, h.cls]
  have hValue := one_name h.abstract (by decide) hEnds k
  rw [declarator_eq h.bindsName.toBindsConstant hName]
  simp [hValue]

theorem statementRule_abstract (k : Nat) (place : Place) :
    ∃ s', (ofDepth (k + 5)).statementRule place s =
      .error ⟨(behindName s).token.start, .expectedSemicolon⟩ s' := by
  obtain ⟨d, hDeclarator⟩ := declarator_abstract h hName k
  have hEnd := endStatement_of_word h.cls h.onLine
  have hDeclaration : (ofDepth (k + 5)).variableDeclaration s.token.start false .statement s =
      .ok (.variable ⟨s.token.start, (behindName s).lastStop⟩ .constant false [d])
        (behindName s) := by
    simp [variableDeclaration, bindingKind_eq h.bindsName.toBindsConstant, declarators, loop,
      iterate, hDeclarator, h.cls]
  rw [statementRule_eq h.bindsName.toBindsConstant hName]
  simp [variableStatement, hDeclaration, hEnd]

theorem programRule_abstract (k : Nat) :
    ∃ s', programRule (ofDepth (k + 6)) s =
      .error ⟨(behindName s).token.start, .expectedSemicolon⟩ s' := by
  obtain ⟨s', hRefused⟩ := statementRule_abstract h hName k .list
  have hStatement : (ofDepth (k + 6)).statement .list s = _ := hRefused
  exact ⟨s', by simp [programRule, many, loop, iterate, h.const, hStatement]⟩

end Grammar

def abstractBound : List Char := "const __modmock_default__ = abstract class".toList

variable (d : Dialect) {c : Char} (rest : List Char)

theorem abstractBound_append : abstractBound ++ c :: rest =
    boundNameText "__modmock_default__" "abstract" ++ ' ' :: ("class".toList ++ c :: rest) := by
  have hText : abstractBound =
      boundNameText "__modmock_default__" "abstract" ++ ' ' :: "class".toList := by decide +kernel
  simp only [hText, List.append_assoc, List.cons_append]

theorem initial_bindsAbstract (hEnds : Text.isIdContinue c = false) (hPlain : c ≠ '\\') :
    Grammar.BindsAbstract "__modmock_default__" (State.initial d (abstractBound ++ c :: rest)) := by
  generalize hStart : State.initial d (abstractBound ++ c :: rest) = s
  rw [abstractBound_append] at hStart
  obtain ⟨-, hBinds, -, hBehind⟩ :=
    initial_boundName d (by decide +kernel) (by decide +kernel) (endsWord_blank _) hStart
  have hClass : isPlainWord "class".toList = true := by decide
  rw [tokenBehind_word d hClass (endsWord_cons rest hEnds hPlain)] at hBehind
  exact ⟨hBinds.const, hBinds.plain, hBinds.name, hBinds.assign, hBinds.value,
    congrArg Token.kind hBehind, congrArg Token.onNewLine hBehind⟩

/-- A text that begins by binding a constant to an abstract class is refused. -/
theorem parse_abstractBound (hEnds : Text.isIdContinue c = false) (hPlain : c ≠ '\\') :
    ∃ fault, parse d (abstractBound ++ c :: rest) = .error fault := by
  have hBinds := initial_bindsAbstract d rest hEnds hPlain
  obtain ⟨k, hDepth⟩ : ∃ k, depthFor (abstractBound ++ c :: rest).length = k + 6 :=
    ⟨depthFor (abstractBound ++ c :: rest).length - 6, by unfold depthFor; omega⟩
  obtain ⟨s', hRefused⟩ := Grammar.programRule_abstract hBinds (by decide +kernel) k
  exact ⟨_, by rw [parse, hDepth, hRefused]⟩

end Standin.Script

namespace Standin.Automock

open Standin.Script

def abstractHead : List Char := "abstract class".toList

theorem abstractBound_eq : captureText.toList ++ abstractHead = abstractBound := by decide

variable {source : List Char} {p : Program} {span : Span} {cls : Script.Class} {more : List Stmt}
  {c : Char}

/-- The code that comes out begins by binding the private default name to an abstract class. -/
theorem abstractBound_prefix_kept (hBehind : p.ShowsBehind)
    (hFirst : p.body = .exportDefault span (.classDecl cls) :: more) (hSpans : SpansInOrder p)
    (hStart : span.start = 0) (hNameless : cls.name? = none)
    (hText : abstractHead ++ [c] <+: (sliceOf source cls.span).toList) :
    abstractBound ++ [c] <+: Edit.apply source (removeExports source p).edits := by
  have hValue : abstractHead ++ [c] <+: Edit.between source cls.span.start cls.span.stop := by
    simpa only [sliceOf, String.toList_ofList, Edit.between] using hText
  have hLeft : abstractBound ++ [c] <+:
      leftText source 0 (.exportDefault span (.classDecl cls)) := by
    have hMem : Stmt.exportDefault span (.classDecl cls) ∈ p.body := by simp [hFirst]
    have hBefore : span.start < cls.span.start := hBehind _ hMem _ rfl
    simp only [leftText, hNameless, capturedText, if_neg (Nat.not_le.mpr hBefore),
      ← abstractBound_eq, List.append_assoc]
    exact (List.prefix_append_right_inj _).mpr (hValue.trans (List.prefix_append ..))
  rw [apply_removeExports source hSpans, hFirst]
  simp only [layout, Stmt.span, hStart, Edit.between_self, List.nil_append]
  exact hLeft.trans (List.prefix_append ..)

/-- A module that begins with a default export of an abstract class without a name is given code
that the parser refuses. -/
theorem abstractDefault_refused {code id : String} (spy : Bool)
    (hProgram : program code id = .ok p) (hSpans : SpansInOrder p)
    (hFirst : p.body = .exportDefault span (.classDecl cls) :: more) (hStart : span.start = 0)
    (hNameless : cls.name? = none)
    (hText : abstractHead ++ [c] <+: (sliceOf code.toList cls.span).toList)
    (hEnds : Text.isIdContinue c = false) (hPlain : c ≠ '\\') :
    ∃ out fault, automock code id spy = .ok out ∧
      parse (Dialect.ofModule (Module.strip id)) out.code.toList = .error fault := by
  obtain ⟨rest, hKept⟩ := abstractBound_prefix_kept
    (showsBehind_of_program hProgram) hFirst hSpans hStart hNameless hText
  have hOut := automock_of_program hProgram spy
  have hCode : ∃ rest, (ofProgram code id spy p).code.toList = abstractBound ++ c :: rest := by
    rw [toList_code_ofProgram, ← hKept]
    exact ⟨_, List.append_assoc ..⟩
  obtain ⟨rest, hCode⟩ := hCode
  obtain ⟨fault, hRefused⟩ :=
    parse_abstractBound (Dialect.ofModule (Module.strip id)) rest hEnds hPlain
  exact ⟨_, fault, hOut, by rw [hCode, hRefused]⟩

def abstractSource : String := "export default abstract class \x7b\x7d"

def readsAbstract : Except Fault Program → Bool
  | .ok ⟨[.exportDefault span (.classDecl cls)]⟩ =>
    decide (span = ⟨0, 32⟩ ∧ cls.span = ⟨15, 32⟩ ∧ cls.name? = none)
  | _ => false

theorem program_abstractSource :
    ∃ span cls, program abstractSource "/p/a.ts" = .ok ⟨[.exportDefault span (.classDecl cls)]⟩ ∧
      span = ⟨0, 32⟩ ∧ cls.span = ⟨15, 32⟩ ∧ cls.name? = none := by
  have hParsed : readsAbstract (program abstractSource "/p/a.ts") = true := by decide +kernel
  unfold readsAbstract at hParsed
  split at hParsed
  · next span cls hProgram => exact ⟨span, cls, hProgram, of_decide_eq_true hParsed⟩
  · cases hParsed

theorem abstractSource_refused :
    ∃ out fault, automock abstractSource "/p/a.ts" false = .ok out ∧
      parse (Dialect.ofModule (Module.strip "/p/a.ts")) out.code.toList = .error fault := by
  obtain ⟨span, cls, hProgram, rfl, hSpan, hNameless⟩ := program_abstractSource
  have hSpans : SpansInOrder ⟨[.exportDefault ⟨0, 32⟩ (.classDecl cls)]⟩ :=
    { ordered := List.pairwise_singleton ..
      forward := by simp [Stmt.span]
      inside := by simp [Stmt.shown?, DefaultValue.span?, Stmt.span, hSpan] }
  exact abstractDefault_refused false hProgram hSpans rfl rfl hNameless
    (c := ' ') (by rw [hSpan]; decide +kernel) (by decide) (by decide)

end Standin.Automock
