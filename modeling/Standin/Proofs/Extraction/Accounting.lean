import Mathlib.Data.List.Basic
import Standin.Extraction

namespace Standin.Mock.Manifest

def Apart (calls : List Call) : Prop := calls.Pairwise fun a b => ¬Path.Same a.path b.path

theorem addAll_of_apart (m : Manifest) {calls : List Call} (h : Apart (m.calls ++ calls)) :
    m.addAll calls = (⟨m.calls ++ calls, h⟩, []) := by
  induction calls generalizing m with
  | nil => simp [addAll]
  | cons c more ih =>
    have hNew : ¬m.hasPath c.path = true := by
      have hFront := (List.pairwise_append.mp h).2.2
      simpa [hasPath] using fun d hd => hFront d hd c List.mem_cons_self
    have hRest : Apart ((m.push c hNew).calls ++ more) := by simpa [push] using h
    rw [addAll, dif_neg hNew, ih (m.push c hNew) hRest]
    simp [push]

theorem ofCalls_of_apart {calls : List Call} (h : Apart calls) : ofCalls calls = (⟨calls, h⟩, []) :=
  addAll_of_apart empty h

end Standin.Mock.Manifest

namespace Standin.Extraction

open Script

/-- The report of a call that registers nothing. -/
def skipOf (text : List Char) (site : CallSite) : Option Diagnostic :=
  match Registration.ofCall site with
  | .error skipped => some ⟨.extraction, skipped.message, some (spotOf text site.span), none⟩
  | .ok _ => none

/-- Whether a diagnostic says that a call was skipped. A call whose options are bad registers its
module all the same, and its report begins otherwise. -/
def Diagnostic.isSkip (d : Diagnostic) : Bool :=
  d.kind = .extraction && "mock registration".toList.isPrefixOf d.message.toList

theorem isSkip_of_skipped (skipped : Registration.Skipped) (spot : Option Spot) :
    Diagnostic.isSkip ⟨.extraction, skipped.message, spot, none⟩ = true := by
  have hLead : "mock registration".toList <+: skipped.message.toList := by
    cases skipped with
    | noSpecifier => decide +kernel
    | notLiteral found =>
      have hText : (Registration.Skipped.notLiteral found).message =
          "mock registration specifier must be a string literal, found " ++ found.text := rfl
      have hFront : "mock registration".toList <+:
          "mock registration specifier must be a string literal, found ".toList := by
        decide +kernel
      rw [hText, String.toList_append]
      exact hFront.trans (List.prefix_append ..)
  simpa [Diagnostic.isSkip] using hLead

theorem isSkip_of_badOptions (bad : Registration.BadOptions) (spot : Option Spot) :
    Diagnostic.isSkip ⟨.extraction, bad.message, spot, none⟩ = false := by
  have hOther : ∃ c rest, bad.message.toList = c :: rest ∧ c ≠ 'm' := by
    cases bad with
    | spyNotLiteral => exact ⟨'t', _, String.toList_ofList, by decide⟩
    | spread => exact ⟨'s', _, String.toList_ofList, by decide⟩
    | notObject specifier =>
      have hText : (Registration.BadOptions.notObject specifier).message =
          "o" ++ "ptions of mock '" ++ specifier ++ "' must be an object literal" := rfl
      rw [hText, String.toList_append, String.toList_append, String.toList_append]
      exact ⟨'o', _, rfl, by decide⟩
  have hLead : "mock registration".toList = 'm' :: "ock registration".toList :=
    String.toList_ofList
  obtain ⟨c, rest, hText, hc⟩ := hOther
  have hNot : ('m' == c) = false := by simpa using Ne.symm hc
  rw [Diagnostic.isSkip, hText, hLead, List.isPrefixOf_cons_cons, hNot]
  simp

theorem kind_of_mem_reportOf {text : List Char} {site : CallSite} {d : Diagnostic}
    (h : d ∈ reportOf text site) : d.kind = .extraction := by
  unfold reportOf at h
  split at h <;> simp_all

theorem filter_isSkip_reportOf (text : List Char) (site : CallSite) :
    (reportOf text site).filter Diagnostic.isSkip = (skipOf text site).toList := by
  unfold reportOf skipOf
  cases Registration.ofCall site with
  | error skipped => simp [isSkip_of_skipped]
  | ok found =>
    obtain ⟨r, bad⟩ := found
    cases bad with
    | none => rfl
    | some bad => simp [isSkip_of_badOptions]

def Setting.placed? (s : Setting) (text : List Char) (r : Registration) : Option Placed :=
  match s.callOf r with
  | .ok call => some ⟨call, spotOf text r.span⟩
  | .error _ => none

def Setting.unresolved? (s : Setting) (text : List Char) (r : Registration) : Option Diagnostic :=
  match s.callOf r with
  | .ok _ => none
  | .error fault => some ⟨.resolution, fault.message, some (spotOf text r.span), some r.specifier⟩

theorem resolveAll_eq (s : Setting) (text : List Char) (rs : List Registration) :
    resolveAll s text rs = (rs.filterMap (s.placed? text), rs.filterMap (s.unresolved? text)) := by
  induction rs with
  | nil => rfl
  | cons r more ih =>
    rw [resolveAll, ih, List.filterMap_cons, List.filterMap_cons, Setting.placed?,
      Setting.unresolved?]
    cases s.callOf r <;> rfl

theorem kind_of_unresolved? {s : Setting} {text : List Char} {r : Registration} {d : Diagnostic}
    (h : s.unresolved? text r = some d) : d.kind = .resolution := by
  unfold Setting.unresolved? at h
  split at h
  · cases h
  · cases h
    rfl

theorem callOf_keeps {s : Setting} {r : Registration} {call : Mock.Call}
    (h : s.callOf r = .ok call) : call.specifier = r.specifier ∧ call.spy = r.spy := by
  unfold Setting.callOf at h
  split at h
  · cases h
  · cases h
    exact ⟨rfl, rfl⟩

def Setting.names (s : Setting) (path : String) (r : Registration) : Bool :=
  match s.callOf r with
  | .ok call => Path.Same call.path path
  | .error _ => false

/-- What a registration comes to. -/
inductive Ending
  | entry (call : Mock.Call)
  | unresolved (report : Diagnostic)
  | duplicate (report : Diagnostic)
deriving DecidableEq, Repr

namespace Ending

def entry? : Ending → Option Mock.Call
  | entry call => some call
  | _ => none

def unresolved? : Ending → Option Diagnostic
  | unresolved report => some report
  | _ => none

def duplicate? : Ending → Option Diagnostic
  | duplicate report => some report
  | _ => none

theorem length_eq (ends : List Ending) : ends.length = (ends.filterMap entry?).length +
    (ends.filterMap unresolved?).length + (ends.filterMap duplicate?).length := by
  induction ends with
  | nil => rfl
  | cons e more ih =>
    cases e <;> simp only [List.filterMap_cons, entry?, unresolved?, duplicate?, List.length_cons,
      ih] <;> omega

end Ending

/-- A registration is an entry unless it names no file, or a file that one before it names. -/
def Setting.endingOf (s : Setting) (text : List Char) (earlier : List Registration)
    (r : Registration) : Ending :=
  match s.callOf r with
  | .error fault =>
    .unresolved ⟨.resolution, fault.message, some (spotOf text r.span), some r.specifier⟩
  | .ok call =>
    if earlier.any (s.names call.path) then .duplicate (duplicateOf ⟨call, spotOf text r.span⟩)
    else .entry call

/-- What registrations come to, each behind the earlier ones and those listed before it. -/
def Setting.endings (s : Setting) (text : List Char) (earlier rs : List Registration) :
    List Ending :=
  rs.mapIdx fun i r => s.endingOf text (earlier ++ rs.take i) r

theorem endings_cons (s : Setting) (text : List Char) (earlier : List Registration)
    (r : Registration) (more : List Registration) :
    s.endings text earlier (r :: more) =
      s.endingOf text earlier r :: s.endings text (earlier ++ [r]) more := by
  simp [Setting.endings, List.mapIdx_cons]

theorem unresolved?_endings (s : Setting) (text : List Char) (earlier rs : List Registration) :
    (s.endings text earlier rs).filterMap Ending.unresolved? =
      rs.filterMap (s.unresolved? text) := by
  induction rs generalizing earlier with
  | nil => rfl
  | cons r more ih =>
    have hHead : (s.endingOf text earlier r).unresolved? = s.unresolved? text r := by
      unfold Setting.endingOf Setting.unresolved?
      cases s.callOf r with
      | error fault => rfl
      | ok call =>
        dsimp only
        split <;> rfl
    rw [endings_cons, List.filterMap_cons, List.filterMap_cons, hHead, ih]

theorem any_names_append (s : Setting) (path : String) (earlier : List Registration)
    (r : Registration) : (earlier ++ [r]).any (s.names path) =
      (earlier.any (s.names path) || s.names path r) := by
  simp

/-- The calls kept while those of taken paths are dropped are the entries, if the taken paths are
the files named by the earlier registrations. -/
theorem distinct_eq_endings (s : Setting) (text : List Char) {taken : List Placed}
    {earlier : List Registration}
    (hTaken : ∀ path, (taken.any fun t => Path.Same t.call.path path) =
      earlier.any (s.names path)) (rs : List Registration) :
    ((distinct taken (rs.filterMap (s.placed? text))).1.map (·.call) =
        (s.endings text earlier rs).filterMap Ending.entry?) ∧
      ((distinct taken (rs.filterMap (s.placed? text))).2.map duplicateOf =
        (s.endings text earlier rs).filterMap Ending.duplicate?) := by
  induction rs generalizing taken earlier with
  | nil => exact ⟨rfl, rfl⟩
  | cons r more ih =>
    cases hCall : s.callOf r with
    | error fault =>
      have hPlaced : s.placed? text r = none := by rw [Setting.placed?, hCall]
      have hNames (path : String) : s.names path r = false := by rw [Setting.names, hCall]
      have hNext (path : String) : (taken.any fun t => Path.Same t.call.path path) =
          (earlier ++ [r]).any (s.names path) := by
        rw [any_names_append, hNames, Bool.or_false, hTaken]
      rw [endings_cons, Setting.endingOf, hCall, List.filterMap_cons, hPlaced]
      exact ih hNext
    | ok call =>
      have hPlaced : s.placed? text r = some ⟨call, spotOf text r.span⟩ := by
        rw [Setting.placed?, hCall]
      have hNames (path : String) : s.names path r = decide (Path.Same call.path path) := by
        rw [Setting.names, hCall]
      rw [endings_cons, Setting.endingOf, hCall, List.filterMap_cons, hPlaced]
      dsimp only
      rw [distinct, hTaken]
      by_cases hOld : earlier.any (s.names call.path) = true
      · have hNext (path : String) : (taken.any fun t => Path.Same t.call.path path) =
            (earlier ++ [r]).any (s.names path) := by
          rw [any_names_append, hNames, ← hTaken]
          by_cases hSame : Path.Same call.path path
          · have hThere : (taken.any fun t => Path.Same t.call.path path) = true := by
              rw [← hTaken, List.any_eq_true] at hOld
              obtain ⟨t, ht, hPath⟩ := hOld
              refine List.any_eq_true.mpr ⟨t, ht, ?_⟩
              simpa using (of_decide_eq_true hPath).trans hSame
            rw [hThere, Bool.true_or]
          · simp [hSame]
        obtain ⟨hKept, hDropped⟩ := ih hNext
        rw [if_pos hOld, if_pos hOld]
        refine ⟨hKept, ?_⟩
        simp only [List.map_cons, List.filterMap_cons, Ending.duplicate?, hDropped]
      · have hNext (path : String) :
            ((⟨call, spotOf text r.span⟩ :: taken : List Placed).any fun t =>
              Path.Same t.call.path path) = (earlier ++ [r]).any (s.names path) := by
          rw [any_names_append, hNames, List.any_cons, hTaken, Bool.or_comm]
        obtain ⟨hKept, hDropped⟩ := ih hNext
        rw [if_neg hOld, if_neg hOld]
        refine ⟨?_, hDropped⟩
        simp only [List.map_cons, List.filterMap_cons, Ending.entry?, hKept]

/-- What becomes of the registrations when no path is taken before. -/
theorem distinct_eq_endings_nil (s : Setting) (text : List Char) (rs : List Registration) :
    ((distinct [] (rs.filterMap (s.placed? text))).1.map (·.call) =
        (s.endings text [] rs).filterMap Ending.entry?) ∧
      ((distinct [] (rs.filterMap (s.placed? text))).2.map duplicateOf =
        (s.endings text [] rs).filterMap Ending.duplicate?) :=
  distinct_eq_endings s text (fun _ => rfl) rs

/-- The calls kept are of different paths, none of them taken. -/
theorem distinct_apart (taken ps : List Placed) :
    Mock.Manifest.Apart ((distinct taken ps).1.map (·.call)) ∧
      ∀ p ∈ (distinct taken ps).1, ∀ t ∈ taken, ¬Path.Same t.call.path p.call.path := by
  induction ps generalizing taken with
  | nil => exact ⟨.nil, by simp [distinct]⟩
  | cons p more ih =>
    rw [distinct]
    split
    · exact ih taken
    · next hNew =>
      obtain ⟨hApart, hFresh⟩ := ih (p :: taken)
      refine ⟨List.pairwise_cons.mpr ⟨?_, hApart⟩, ?_⟩
      · intro c hc
        obtain ⟨q, hq, rfl⟩ := List.mem_map.mp hc
        exact hFresh q hq p List.mem_cons_self
      · intro q hq t ht
        rcases List.mem_cons.mp hq with rfl | hq
        · intro hSame
          exact hNew (List.any_eq_true.mpr ⟨t, ht, decide_eq_true hSame⟩)
        · exact hFresh q hq t (List.mem_cons_of_mem _ ht)

/-- A call registers or is reported as skipped, never both. -/
theorem isSome_registered (text : List Char) (site : CallSite) :
    (registered site).isSome = !(skipOf text site).isSome := by
  unfold registered skipOf
  cases Registration.ofCall site <;> rfl

theorem length_sites (text : List Char) (sites : List CallSite) : sites.length =
    (sites.filterMap registered).length + (sites.filterMap (skipOf text)).length := by
  induction sites with
  | nil => rfl
  | cons site more ih =>
    have hOne := isSome_registered text site
    cases hReg : registered site <;> cases hSkip : skipOf text site <;> rw [hReg, hSkip] at hOne <;>
      simp_all only [List.filterMap_cons, List.length_cons, reduceCtorEq, Option.isSome_some,
        Option.isSome_none, Bool.not_true, Bool.not_false] <;> omega

section OfText

variable {s : Setting} {text : List Char} {p : Program} {faults : List SyntaxFault}

/-- The entries are of different paths, so making the manifest drops none of them. -/
theorem ofCalls_entries (s : Setting) (text : List Char) (rs : List Registration) :
    ∃ h, Mock.Manifest.ofCalls ((s.endings text [] rs).filterMap Ending.entry?) =
      (⟨(s.endings text [] rs).filterMap Ending.entry?, h⟩, []) := by
  have hEntries := (distinct_eq_endings_nil s text rs).1
  have hApart := (distinct_apart [] (rs.filterMap (s.placed? text))).1
  rw [hEntries] at hApart
  exact ⟨hApart, Mock.Manifest.ofCalls_of_apart hApart⟩

/-- An extraction in terms of what its registrations come to. -/
theorem ofText_eq (h : parse (Dialect.ofConfig s.options.entryPath) text = .ok (p, faults)) :
    let sites := p.calls.filter (Registration.isRegistration s.options.callees)
    let ends := s.endings text [] (sites.filterMap registered)
    (ofText s text).manifest = (Mock.Manifest.ofCalls (ends.filterMap Ending.entry?)).1 ∧
    ∃ flaws : List Diagnostic, (∀ d ∈ flaws, d.kind = .parse) ∧
      (ofText s text).diagnostics = flaws ++ sites.flatMap (reportOf text) ++
        ends.filterMap Ending.unresolved? ++ ends.filterMap Ending.duplicate? := by
  intro sites ends
  have hProgram : programOf (Dialect.ofConfig s.options.entryPath) text =
      (p, !faults.isEmpty) := by rw [programOf, h]
  obtain ⟨hKept, hDropped⟩ := distinct_eq_endings_nil s text (sites.filterMap registered)
  constructor
  · rw [ofText, hProgram]
    dsimp only [Registration.sites]
    rw [resolveAll_eq, hKept]
  · refine ⟨if !faults.isEmpty then
      [⟨.parse, "the configuration does not parse", none, none⟩] else [], ?_, ?_⟩
    · intro d hd
      split at hd <;> simp_all
    · rw [ofText, hProgram]
      dsimp only [Registration.sites]
      rw [resolveAll_eq, hDropped, unresolved?_endings]

theorem filter_kind_other {k j : DiagnosticKind} {ds : List Diagnostic}
    (h : ∀ d ∈ ds, d.kind = k) (hne : k ≠ j) : (ds.filter fun d => d.kind = j) = [] := by
  rw [List.filter_eq_nil_iff]
  intro d hd hj
  exact hne ((h d hd).symm.trans (of_decide_eq_true hj))

theorem filter_kind_self {k : DiagnosticKind} {ds : List Diagnostic}
    (h : ∀ d ∈ ds, d.kind = k) : (ds.filter fun d => d.kind = k) = ds := by
  rw [List.filter_eq_self]
  intro d hd
  exact decide_eq_true (h d hd)

theorem filter_isSkip_other {k : DiagnosticKind} {ds : List Diagnostic}
    (h : ∀ d ∈ ds, d.kind = k) (hne : k ≠ .extraction) : ds.filter Diagnostic.isSkip = [] := by
  rw [List.filter_eq_nil_iff]
  intro d hd
  simp [Diagnostic.isSkip, h d hd, hne]

/-- The diagnostics of an extraction, sorted by what they say. -/
theorem diagnostics_ofText
    (h : parse (Dialect.ofConfig s.options.entryPath) text = .ok (p, faults)) :
    let sites := p.calls.filter (Registration.isRegistration s.options.callees)
    let ends := s.endings text [] (sites.filterMap registered)
    (ofText s text).diagnostics.filter Diagnostic.isSkip = sites.filterMap (skipOf text) ∧
    ((ofText s text).diagnostics.filter fun d => d.kind = .resolution) =
      ends.filterMap Ending.unresolved? ∧
    ((ofText s text).diagnostics.filter fun d => d.kind = .duplicate) =
      ends.filterMap Ending.duplicate? := by
  intro sites ends
  obtain ⟨-, flaws, hFlaws, hAll⟩ := ofText_eq h
  have hReports : ∀ d ∈ sites.flatMap (reportOf text), d.kind = .extraction := by
    intro d hd
    obtain ⟨site, -, hd⟩ := List.mem_flatMap.mp hd
    exact kind_of_mem_reportOf hd
  have hUnresolved : ∀ d ∈ ends.filterMap Ending.unresolved?, d.kind = .resolution := by
    intro d hd
    rw [unresolved?_endings] at hd
    obtain ⟨r, -, hr⟩ := List.mem_filterMap.mp hd
    exact kind_of_unresolved? hr
  have hDuplicate : ∀ d ∈ ends.filterMap Ending.duplicate?, d.kind = .duplicate := by
    intro d hd
    rw [← (distinct_eq_endings_nil s text _).2] at hd
    obtain ⟨q, -, rfl⟩ := List.mem_map.mp hd
    rfl
  have hSkips : (sites.flatMap (reportOf text)).filter Diagnostic.isSkip =
      sites.filterMap (skipOf text) := by
    rw [List.filter_flatMap, List.filterMap_eq_flatMap_toList]
    simp only [filter_isSkip_reportOf]
  rw [hAll]
  simp only [List.filter_append]
  refine ⟨?_, ?_, ?_⟩
  · rw [filter_isSkip_other hFlaws (by decide), hSkips, filter_isSkip_other hUnresolved (by decide),
      filter_isSkip_other hDuplicate (by decide)]
    simp
  · rw [filter_kind_other hFlaws (by decide), filter_kind_other hReports (by decide),
      filter_kind_self hUnresolved, filter_kind_other hDuplicate (by decide)]
    simp
  · rw [filter_kind_other hFlaws (by decide), filter_kind_other hReports (by decide),
      filter_kind_other hUnresolved (by decide), filter_kind_self hDuplicate]
    simp

end OfText

/-- Every registration call of a configuration that is read and parsed registers a module or is
reported as skipped. Every registration ends in exactly one way, and these endings are what the
manifest and the diagnostics hold, in order; the entries keep what was registered, and making the
manifest drops none of them. -/
theorem registrations_accounted (s : Setting) (text : String) (p : Program)
    (faults : List SyntaxFault) (hRead : s.tree.readText s.options.entryPath = .ok text)
    (hParse : parse (Dialect.ofConfig s.options.entryPath) text.toList = .ok (p, faults)) :
    let sites := p.calls.filter (Registration.isRegistration s.options.callees)
    let rs := sites.filterMap registered
    let ends := s.endings text.toList [] rs
    ∃ e, extract s = .ok e ∧
      (∀ site ∈ sites, (registered site).isSome = !(skipOf text.toList site).isSome) ∧
      e.diagnostics.filter Diagnostic.isSkip = sites.filterMap (skipOf text.toList) ∧
      sites.length = rs.length + (e.diagnostics.filter Diagnostic.isSkip).length ∧
      ends.length = rs.length ∧
      (e.diagnostics.filter fun d => d.kind = .resolution) = ends.filterMap Ending.unresolved? ∧
      (e.diagnostics.filter fun d => d.kind = .duplicate) = ends.filterMap Ending.duplicate? ∧
      e.manifest.calls = ends.filterMap Ending.entry? ∧
      rs.length = e.manifest.size + (e.diagnostics.filter fun d => d.kind = .resolution).length +
        (e.diagnostics.filter fun d => d.kind = .duplicate).length ∧
      (∀ r ∈ rs, ∀ call, s.callOf r = .ok call →
        call.specifier = r.specifier ∧ call.spy = r.spy) ∧
      Mock.Manifest.ofCalls (ends.filterMap Ending.entry?) = (e.manifest, []) := by
  intro sites rs ends
  have hExtract : extract s = .ok (ofText s text.toList) := by rw [extract, hRead]
  obtain ⟨hManifest, -⟩ := ofText_eq hParse
  obtain ⟨hSkips, hUnresolved, hDuplicates⟩ := diagnostics_ofText hParse
  obtain ⟨hApart, hCalls⟩ := ofCalls_entries s text.toList rs
  have hWhole : Mock.Manifest.ofCalls (ends.filterMap Ending.entry?) =
      ((ofText s text.toList).manifest, []) := by rw [hManifest, hCalls]
  have hEntries : (ofText s text.toList).manifest.calls = ends.filterMap Ending.entry? := by
    rw [hManifest, hCalls]
  have hLength : ends.length = rs.length := by simp [ends, Setting.endings]
  refine ⟨_, hExtract, fun site _ => isSome_registered _ site, hSkips, ?_, hLength, hUnresolved,
    hDuplicates, hEntries, ?_, fun r _ call hCall => callOf_keeps hCall, hWhole⟩
  · rw [hSkips]
    exact length_sites _ sites
  · rw [hUnresolved, hDuplicates, Mock.Manifest.size, hEntries, ← hLength]
    exact Ending.length_eq ends

/-- A module registered twice, one that does not exist, and one not named by a text. -/
def sampleText : String := "f(() => sb.mock('/a'));sb.mock('/a');sb.mock(a);sb.mock('/c')"

def sampleSetting : Setting where
  options := { entryPath := "/p.js", preserveLinks := true }
  root := "/"
  tree := .dir [("p.js", .file sampleText.toUTF8.toList), ("a", .file [])]

def readsSample : Except SyntaxFault (Program × List SyntaxFault) → Bool
  | .ok (p, []) =>
    let sites := p.calls.filter (Registration.isRegistration sampleSetting.options.callees)
    let rs := sites.filterMap registered
    let ends := sampleSetting.endings sampleText.toList [] rs
    decide (sites.length = 4 ∧ rs.length = 3 ∧
      (ends.filterMap Ending.entry?).map (·.path) = ["/a"] ∧
      (ends.filterMap Ending.unresolved?).length = 1 ∧
      (ends.filterMap Ending.duplicate?).length = 1)
  | _ => false

theorem sample_accounted : ∃ p e,
    parse (Dialect.ofConfig sampleSetting.options.entryPath) sampleText.toList = .ok (p, []) ∧
      (p.calls.filter (Registration.isRegistration sampleSetting.options.callees)).length = 4 ∧
      extract sampleSetting = .ok e ∧ e.manifest.calls.map (·.path) = ["/a"] ∧
      (e.diagnostics.filter Diagnostic.isSkip).length = 1 ∧
      (e.diagnostics.filter fun d => d.kind = .resolution).length = 1 ∧
      (e.diagnostics.filter fun d => d.kind = .duplicate).length = 1 := by
  have hParsed : readsSample (parse (Dialect.ofConfig sampleSetting.options.entryPath)
      sampleText.toList) = true := by decide +kernel
  have hRead : sampleSetting.tree.readText sampleSetting.options.entryPath = .ok sampleText := by
    decide +kernel
  unfold readsSample at hParsed
  split at hParsed
  · next p hParse =>
    obtain ⟨hSites, hRegistered, hPaths, hMissing, hTwice⟩ := of_decide_eq_true hParsed
    obtain ⟨e, hExtract, -, -, hCount, -, hUnresolved, hDuplicates, hEntries, -⟩ :=
      registrations_accounted sampleSetting sampleText p [] hRead hParse
    refine ⟨p, e, hParse, hSites, hExtract, ?_, ?_, ?_, ?_⟩
    · rw [hEntries, hPaths]
    · omega
    · rw [hUnresolved, hMissing]
    · rw [hDuplicates, hTwice]
  · cases hParsed

end Standin.Extraction
