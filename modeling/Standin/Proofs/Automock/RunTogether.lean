import Standin.Proofs.Automock.Layout
import Standin.Proofs.Script.LineEnds

namespace Standin.Automock

open Standin.Script

variable {code id : String} {spy : Bool} {p : Program} {source : List Char}

theorem getLast?_semicolon (text origin : String) :
    (text ++ (origin ++ ";")).toList.getLast? = some ';' := by
  simp only [String.toList_append, List.getLast?_append]
  rfl

theorem typesText_ends (types : List ExportSpecifier) (origin : String) :
    typesText types (origin ++ ";") = "" ∨
      (typesText types (origin ++ ";")).toList.getLast? = some ';' := by
  unfold typesText
  split
  · exact .inl rfl
  · exact .inr (getLast?_semicolon ..)

theorem importText_ends (values : List ExportSpecifier) (index : Nat) (origin : String) :
    importText values index (origin ++ ";") = "" ∨
      (importText values index (origin ++ ";")).toList.getLast? = some ';' := by
  unfold importText
  split
  · exact .inl rfl
  · exact .inr (getLast?_semicolon ..)

/-- A list leaves nothing, or text that ends in a semicolon. -/
theorem leftText_list_ends (source : List Char) (index : Nat) (span : Span)
    (specifiers : List ExportSpecifier) (request : Option Request) :
    leftText source index (.exportList span false specifiers request) = [] ∨
      (leftText source index (.exportList span false specifiers request)).getLast? = some ';' := by
  cases request with
  | none => simpa [leftText] using typesText_ends (typesOf specifiers) ""
  | some request =>
    simp only [leftText, String.toList_append, List.getLast?_append]
    rcases typesText_ends (typesOf specifiers) (" from " ++ sliceOf source request.source.span)
      with hTypes | hTypes
    · rw [hTypes]
      rcases importText_ends (valuesOf specifiers) index
        (" from " ++ sliceOf source request.source.span) with hValues | hValues
      · exact .inl (by rw [hValues]; rfl)
      · exact .inr (by rw [hValues]; rfl)
    · exact .inr (by rw [hTypes]; rfl)

theorem leftText_removed (source : List Char) (index : Nat) (span : Span)
    {specifiers : List ExportSpecifier} (hValues : ∀ x ∈ specifiers, x.typeOnly = false) :
    leftText source index (.exportList span false specifiers none) = [] := by
  have hNone : typesOf specifiers = [] :=
    List.filter_eq_nil_iff.mpr fun x hMem => by simp [hValues x hMem]
  simp [leftText, hNone, typesText]

theorem length_boundNameText (n v : String) :
    (boundNameText n v).length = 9 + n.toList.length + v.toList.length := by
  have hConst : "const".toList.length = 5 := by decide
  delta boundNameText
  simp only [List.length_append, List.length_cons, hConst]
  omega

theorem layout_boundName {n v : String} {rest : List Char} {stop : Nat}
    {specifiers : List ExportSpecifier} {more : List Stmt}
    (hSource : source = boundNameText n v ++ '\n' :: rest)
    (hValues : ∀ x ∈ specifiers, x.typeOnly = false) :
    layout source 0 0 (firstBound n v ::
        .exportList ⟨(boundNameText n v).length + 1, stop⟩ false specifiers none :: more) =
      boundNameText n v ++ '\n' :: layout source stop 0 more := by
  have hSpan : (firstBound n v).span = ⟨0, (boundNameText n v).length⟩ := by
    rw [length_boundNameText]
    rfl
  have hFirst : leftText source 0 (firstBound n v) = boundNameText n v := by
    rw [leftText_of_not_isRewritten _ _ rfl, hSpan, hSource]
    simp [Edit.between]
  have hLine : Edit.between source (boundNameText n v).length
      ((boundNameText n v).length + 1) = ['\n'] := by
    rw [hSource]
    simp [Edit.between]
  rw [layout, layout, hFirst, hSpan, leftText_removed source _ _ hValues]
  simp only [Stmt.span, hLine, Edit.between_self, List.nil_append, List.append_nil,
    List.singleton_append]
  rfl

/-- Before an export the constant is a statement of its own. -/
theorem first_eq_firstBound {n v : String} {rest : List Char} {first : Stmt} {more : List Stmt}
    (hProgram : program code id = .ok p) (hName : isSimpleName n = true)
    (hValue : isSimpleName v = true) (hRest : endsWord rest = true)
    (hCode : code.toList = boundNameText n v ++ '\n' :: ("export".toList ++ rest))
    (hBody : p.body = first :: more) : first = firstBound n v := by
  have hParse := parse_of_program hProgram
  rw [hCode] at hParse
  have hTail (text : List Char) : endsWord ('\n' :: text) = true :=
    endsWord_cons text (by decide) (by decide)
  have hExport : isPlainWord "export".toList = true := by decide
  have hKind := kind_tokenBehind_line (Dialect.ofModule (Module.strip id)) hExport hRest 0
  have hHead := (parse_boundName _ hName hValue (hTail _) (onNewLine_tokenBehind ..) hParse).mpr
    (Token.extends_of_word hKind (onNewLine_tokenBehind ..) (by decide))
  rw [hBody] at hHead
  exact Option.some_inj.mp hHead

/-- A mocked module keeps the text of every statement that gives up no export and ends what it
writes for a list in a semicolon, but a list without a source and types leaves nothing. So a
constant bound to a name on the line before such a list stays the statement it was exactly where
the token behind the list does not extend it. -/
theorem statements_kept {out : Automocked} (h : automock code id spy = .ok out)
    (hProgram : program code id = .ok p) (hSpans : SpansInOrder p) :
    let tail := if (removeExports code.toList p).bindings = [] then []
      else (epilogue (removeExports code.toList p).bindings spy).toList
    out.code.toList = layout code.toList 0 0 p.body ++ tail ∧
    (∀ s ∈ p.body, s.isRewritten = false → ∀ index,
      leftText code.toList index s = Edit.between code.toList s.span.start s.span.stop) ∧
    (∀ span specifiers request index,
      leftText code.toList index (.exportList span false specifiers request) = [] ∨
      (leftText code.toList index (.exportList span false specifiers request)).getLast? =
        some ';') ∧
    ∀ n v rest first stop specifiers more, isSimpleName n = true → isSimpleName v = true →
      endsWord rest = true → (∀ x ∈ specifiers, x.typeOnly = false) →
      code.toList = boundNameText n v ++ '\n' :: ("export".toList ++ rest) →
      p.body = first ::
        .exportList ⟨(boundNameText n v).length + 1, stop⟩ false specifiers none :: more →
      let behind := '\n' :: (layout code.toList stop 0 more ++ tail)
      first = firstBound n v ∧ out.code.toList = boundNameText n v ++ behind ∧
      ∀ q faults, parse (Dialect.ofModule (Module.strip id)) out.code.toList = .ok (q, faults) →
        (q.body.head? = some first ↔
          (tokenBehind (Dialect.ofModule (Module.strip id)) 0 behind).extends = false) := by
  intro tail
  have hLayout : out.code.toList = layout code.toList 0 0 p.body ++ tail :=
    eq_ofProgram h hProgram ▸ code_eq_layout spy hSpans
  refine ⟨hLayout, fun s _ hKept index => leftText_of_not_isRewritten _ index hKept,
    fun span specifiers request index => leftText_list_ends .., ?_⟩
  intro n v rest first stop specifiers more hName hValue hRest hValues hCode hBody behind
  obtain rfl := first_eq_firstBound hProgram hName hValue hRest hCode hBody
  have hBehind : out.code.toList = boundNameText n v ++ behind := by
    rw [hLayout, hBody, layout_boundName hCode hValues, List.append_assoc]
    rfl
  refine ⟨rfl, hBehind, fun q faults hParse => ?_⟩
  rw [hBehind] at hParse
  exact parse_boundName _ hName hValue (endsWord_cons _ (by decide) (by decide))
    (onNewLine_tokenBehind ..) hParse

/-- Without a semicolon in front of it, the parenthesis becomes the arguments of a call. -/
def joinedSource : String := "const a = b\nexport \x7b\x7d\n(c)\n"

def readsJoined : Except Fault Program → Bool
  | .ok ⟨[first, .exportList span false [] none, third]⟩ =>
    decide (span = ⟨12, 21⟩ ∧ (removeExports joinedSource.toList
        ⟨[first, .exportList ⟨12, 21⟩ false [] none, third]⟩).bindings = [] ∧
      first.span = ⟨0, 11⟩ ∧ first.shown? = none ∧ third.span = ⟨22, 25⟩ ∧
      third.shown? = none ∧ third.isRewritten = false)
  | _ => false

theorem program_joinedSource :
    ∃ p first third, program joinedSource "/p/a.js" = .ok p ∧
      p.body = [first, .exportList ⟨12, 21⟩ false [] none, third] ∧
      (removeExports joinedSource.toList p).bindings = [] ∧
      first.span = ⟨0, 11⟩ ∧ first.shown? = none ∧
      third.span = ⟨22, 25⟩ ∧ third.shown? = none ∧ third.isRewritten = false := by
  have hParsed : readsJoined (program joinedSource "/p/a.js") = true := by decide +kernel
  unfold readsJoined at hParsed
  split at hParsed
  · next first span third hProgram =>
    obtain ⟨rfl, hRest⟩ := of_decide_eq_true hParsed
    exact ⟨_, first, third, hProgram, rfl, hRest⟩
  · cases hParsed

def readsWhole : Except SyntaxFault (Program × List SyntaxFault) → Bool
  | .ok (_, []) => true
  | _ => false

theorem joinedSource_joined :
    ∃ out p q, automock joinedSource "/p/a.js" false = .ok out ∧
      program joinedSource "/p/a.js" = .ok p ∧
      parse (Dialect.ofModule (Module.strip "/p/a.js")) out.code.toList = .ok (q, []) ∧
      q.body.head? ≠ p.body.head? := by
  obtain ⟨p, first, third, hProgram, hBody, hNone, hFirst, hShown, hThird, hShown', hKept⟩ :=
    program_joinedSource
  have hList : (Stmt.exportList ⟨12, 21⟩ false [] none).span = ⟨12, 21⟩ := rfl
  have hNothing : (Stmt.exportList ⟨12, 21⟩ false [] none).shown? = none := rfl
  have hSpans : SpansInOrder p :=
    { ordered := by simp [hBody, hFirst, hThird, hList]
      forward := by simp [hBody, hFirst, hThird, hList]
      inside := by simp [hBody, hShown, hShown', hNothing] }
  have hOut := automock_of_program hProgram false
  obtain ⟨-, -, -, hFamily⟩ := statements_kept hOut hProgram hSpans
  obtain ⟨-, hCode, hIff⟩ := hFamily "a" "b" " \x7b\x7d\n(c)\n".toList first 21 [] [third]
    (by decide +kernel) (by decide +kernel) (by decide +kernel) (by simp) (by decide +kernel) hBody
  have hLeft : layout joinedSource.toList 21 0 [third] = "\n(c)\n".toList := by
    rw [layout, leftText_of_not_isRewritten _ _ hKept, hThird, layout]
    decide +kernel
  rw [hLeft, if_pos hNone, List.append_nil] at hCode hIff
  have hRead : readsWhole (parse (Dialect.ofModule (Module.strip "/p/a.js"))
      (ofProgram joinedSource "/p/a.js" false p).code.toList) = true := by
    rw [hCode]
    decide +kernel
  unfold readsWhole at hRead
  split at hRead
  · next q hParse =>
    have hExtends : (tokenBehind (Dialect.ofModule (Module.strip "/p/a.js")) 0
        ('\n' :: "\n(c)\n".toList)).extends = true := by decide +kernel
    refine ⟨_, p, q, hOut, hProgram, hParse, fun hSame => ?_⟩
    rw [hBody] at hSame
    exact absurd (hExtends.symm.trans ((hIff q [] hParse).mp hSame)) (by decide)
  · cases hRead

end Standin.Automock
