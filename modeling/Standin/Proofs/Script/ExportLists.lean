import Standin.Proofs.Script.ImportLists

namespace Standin.Script

open Reading

/-- Whether a word may be exported as it stands. -/
def isExportable (w : String) : Bool :=
  !(isReserved w || strictWords.contains w || ["yield", "await"].contains w)

/-- Whether an entry exports a name of the module itself that may be exported. -/
def ExportSpecifier.IsLocal (x : ExportSpecifier) : Prop :=
  ∃ n, x.inner = .word n ∧ isExportable n.text = true

namespace Grammar

variable {base s : State} {inner outer : String} {behind tail : List Char} {last : TokenKind}

/-- A name of the module itself that is exported under another one. -/
theorem readsEntry_export_local (typeOnly : Bool) (hInner : isPlainWord inner.toList = true)
    (hOuter : WritesName behind last outer) :
    ReadsEntry (exportSpecifier typeOnly)
      (inner.toList ++ ' ' :: ("as".toList ++ ' ' :: behind)) fun spec =>
        (∃ n, spec.inner = .word n ∧ n.text = inner) ∧ spec.outer.text = outer ∧
          spec.typeOnly = false := by
  intro base s kind tail mark rest hEnd h
  have hWord := h
  simp only [List.append_assoc, List.cons_append] at hWord
  have hKind := (hWord.next_blank (.word hInner (endsWord_blank _))).kind
  obtain ⟨hFirst, ⟨hAs, hPlain⟩, hLast, hMark⟩ := stands_as (.word hInner) hOuter hEnd h
  have hToken := hOuter.names hLast
  have hName : listedName s.next =
      .ok (.word ⟨⟨s.next.token.start, s.next.token.stop⟩, inner⟩) s.next.next := by
    simp [listedName, anyName, hKind]
  obtain ⟨m, hName', rfl⟩ := listedName_finds hToken
  refine ⟨hFirst.ne_punct _, .of_eq
    (a := ⟨.word ⟨⟨s.next.token.start, s.next.token.stop⟩, inner⟩, m, false⟩) ?_
    ⟨⟨⟨_, rfl, rfl⟩, rfl, rfl⟩, hMark⟩⟩
  simp [exportSpecifier, listed_as hName hAs hPlain hToken hName' hMark.kind]

theorem forM_checkLocal {specifiers : List ExportSpecifier} (h : ∀ x ∈ specifiers, x.IsLocal) :
    (forM specifiers checkLocal : Reading PUnit) s = .ok ⟨⟩ s := by
  induction specifiers with
  | nil => rfl
  | cons x more ih =>
    obtain ⟨⟨n, hInner, hName⟩, hMore⟩ := List.forall_mem_cons.mp h
    have hFirst : checkLocal x s = .ok ⟨⟩ s := by
      simp only [isExportable, Bool.not_eq_true'] at hName
      simp only [checkLocal, hInner, hName]
      rfl
    simp [hFirst, ih hMore]

/-- `\x7b entry, … \x7d;` -/
def exportListText (entry : List Char) (more : List (List Char)) : List Char :=
  '\x7b' :: ' ' :: (entry ++ entriesText [';'] more)

variable {ε : Type} {text : ε → List Char} {told : ε → ExportSpecifier → Prop} {entry : ε}
  {more : List ε}

/-- An export of a list of local names is read from its first word to its semicolon. -/
theorem reads_exportList (g : Grammar)
    (hEntries : ∀ e ∈ entry :: more, ReadsEntry (exportSpecifier false) (text e) (told e))
    (hLocal : ∀ e ∈ entry :: more, ∀ x, told e x → x.IsLocal)
    (hSize : more.length ≤ base.size) :
    ReadsBehind base (g.statementRule .list) "export"
      (exportListText (text entry) (more.map text)) fun stmt =>
        ∃ span specifiers, stmt = .exportList span false specifiers none ∧
          List.Forall₂ told (entry :: more) specifiers := by
  intro s tail h
  delta exportListText at h
  simp only [List.append_assoc, List.cons_append, entriesText_append, List.nil_append] at h
  have h₁ := h.next_blank (.braceL _)
  obtain ⟨found, t, hList, hAll, hClose⟩ :=
    separated_entries (fun e hMem => hEntries e hMem base) hSize h₁
  have hEnd := hClose.next (.semicolon tail)
  have hCheck : (forM found checkLocal : Reading PUnit) t.next = .ok ⟨⟩ t.next :=
    forM_checkLocal (forall_of_forall₂ hAll hLocal)
  refine .of_eq (a := .exportList ⟨s.token.start, t.next.next.lastStop⟩ false found none) ?_
    ⟨⟨_, found, rfl, hAll⟩, _, _, rfl, hEnd⟩
  simp [statementRule, wordStatement, exportRule, exportList, h.kind, h.plain, h₁.kind, hList,
    hClose.kind, eatWord, hCheck, endStatement, hEnd.kind]

/-- What is read of the entries of an export list is found in its statement. -/
theorem exportList_yields (g : Grammar) {gives : List ExportSpecifier → Prop}
    (hWord : s.token.kind = .word "export") (hPlain : s.token.escaped = false)
    (hMark : s.next.token.kind = .punct .braceL)
    (hList : Yields (separated .braceR (exportSpecifier false)) s.next.next fun found _ =>
      gives found) :
    Yields (g.statementRule .list) s fun stmt _ =>
      ∃ span specifiers request, stmt = .exportList span false specifiers request ∧
        gives specifiers := by
  have hRule : g.statementRule .list s = exportList s.token.start false s.next := by
    simp [statementRule, wordStatement, exportRule, hWord, hPlain, hMark]
  refine .of_same hRule ?_
  unfold exportList
  refine .known (expect_apply _ hMark) (.bind hList fun found t hFound => ?_)
  refine .behind fun _ _ => .behind fun hasSource _ => ?_
  have hRest (source : Option Request) (u : State) : Yields (do
        if source.isNone then found.forM checkLocal
        endStatement
        return Stmt.exportList (← spanFrom s.token.start) false found source) u fun stmt _ =>
          ∃ span specifiers request, stmt = .exportList span false specifiers request ∧
            gives specifiers := by
    have hEnd (u : State) : Yields (do
        endStatement
        return Stmt.exportList (← spanFrom s.token.start) false found source) u fun stmt _ =>
          ∃ span specifiers request, stmt = .exportList span false specifiers request ∧
            gives specifiers :=
      .behind fun _ _ => .behind fun span _ => .pure ⟨span, found, source, rfl, hFound⟩
    dsimp only
    split
    · exact .behind fun _ _ => hEnd _
    · exact hEnd _
  dsimp only
  split
  · exact .behind fun r _ => .behind fun source _ => hRest source _
  · exact .behind fun source _ => hRest source _

/-- What is read of the entries of an import list is found in its statement. -/
theorem importList_yields (g : Grammar) {gives : List ImportSpecifier → Prop}
    (hWord : s.token.kind = .word "import") (hPlain : s.token.escaped = false)
    (hMark : s.next.token.kind = .punct .braceL)
    (hList : Yields (separated .braceR (importSpecifier false)) s.next.next fun found _ =>
      gives found) :
    Yields (g.statementRule .list) s fun stmt _ =>
      ∃ span specifiers request, stmt = .imports span false specifiers request ∧
        gives specifiers := by
  refine .of_same (statementRule_import g hWord hPlain (.inl hMark)) ?_
  have hSpecifiers : Yields (importList false) s.next fun found _ => gives found := by
    have hStar : eat .star s.next = .ok false s.next := by simp [hMark]
    refine .known hStar (.known (expect_apply _ hMark) (.bind hList fun found t hFound => ?_))
    exact .behind fun _ _ => .pure hFound
  have hRule : importRest s.token.start s.next = (do
      let specifiers ← importList false
      expectWord "from"
      let r ← request
      endStatement
      return .imports (← spanFrom s.token.start) false specifiers r : Reading Stmt) s.next := by
    simp [importRest, importNames, hMark, isVariableName, importClause]
  refine .of_same hRule (.bind hSpecifiers fun found t hFound => ?_)
  refine .behind fun _ _ => .behind fun r _ => .behind fun _ _ => .behind fun span _ => ?_
  exact .pure ⟨span, found, r, rfl, hFound⟩

end Grammar

end Standin.Script
