import Standin.Proofs.Invalidation.Status
import Standin.Proofs.Session.Overlap

namespace Standin.Overlap

open Standin.Mock Standin.Graph

/-- The manifest noted is the one in use, unless that was replaced in between. -/
structure Noted.Holds (o : Overlap) (n : Noted) : Prop where
  past : n.version ≤ o.version
  held : n.version = o.version → n.old = o.session.manifest

theorem Noted.Holds.kept {o p : Overlap} {n : Noted} (h : n.Holds o)
    (hVersion : p.version = o.version) (hManifest : p.session.manifest = o.session.manifest) :
    n.Holds p := by
  constructor
  · rw [hVersion]
    exact h.past
  · rw [hVersion, hManifest]
    exact h.held

theorem Noted.Holds.replaced {o p : Overlap} {n : Noted} (h : n.Holds o)
    (hVersion : p.version = o.version + 1) : n.Holds p := by
  have hPast := h.past
  constructor
  · omega
  · intro hSame
    omega

structure NotesHold (o : Overlap) : Prop where
  noted : ∀ n ∈ o.noted, n.Holds o
  found : ∀ f ∈ o.found, f.toNoted.Holds o

theorem notesHold_step (o : Overlap) (a : Action) (h : o.NotesHold) : (o.step a).NotesHold := by
  have hMove := move_step o a
  generalize o.step a = p at hMove ⊢
  cases hMove with
  | write path tree =>
    exact ⟨fun n hn => (h.noted n hn).kept rfl rfl, fun f hf => (h.found f hf).kept rfl rfl⟩
  | ignored hPath =>
    exact ⟨fun n hn => (h.noted n hn).kept rfl rfl, fun f hf => (h.found f hf).kept rfl rfl⟩
  | noted hPath =>
    refine ⟨?_, fun f hf => (h.found f hf).kept rfl rfl⟩
    intro n hn
    rcases List.mem_append.mp hn with hn | hn
    · exact (h.noted n hn).kept rfl rfl
    · rw [List.mem_singleton.mp hn]
      exact ⟨Nat.le_refl _, fun _ => rfl⟩
  | @extracted i n e hn he =>
    have hMember : n ∈ o.noted := List.mem_of_getElem? hn
    refine ⟨fun k hk => (h.noted k (List.mem_of_mem_eraseIdx hk)).kept rfl rfl, ?_⟩
    intro f hf
    rcases List.mem_append.mp hf with hf | hf
    · exact (h.found f hf).kept rfl rfl
    · rw [List.mem_singleton.mp hf]
      exact (h.noted n hMember).kept rfl rfl
  | unread hn he =>
    exact ⟨fun n hn => (h.noted n (List.mem_of_mem_eraseIdx hn)).kept rfl rfl,
      fun f hf => (h.found f hf).kept rfl rfl⟩
  | settled hf =>
    -- the version moves on, so what was noted before is no longer taken for the manifest in use
    exact ⟨fun n hn => (h.noted n hn).replaced rfl,
      fun f hf => (h.found f (List.mem_of_mem_eraseIdx hf)).replaced rfl⟩
  | absent hSame => exact h

theorem report_settling (o : Overlap) (f : Found) : (o.settling f).report =
    changeReport o.server.graph o.session.options.naming o.tree o.session.options.entryPath
      f.old f.new := rfl

theorem graph_settling (o : Overlap) (f : Found) : (o.settling f).server.graph =
    afterChange o.server.graph o.session.options.naming o.tree o.session.options.entryPath
      f.old f.new := rfl

/-- What the old manifest registers at a path that the new one lacks is reported, and each of its
modules is invalidated once. -/
theorem dropped_settling (o : Overlap) (f : Found) {c : Call} (hc : c ∈ f.old.calls)
    (hDropped : ∀ d ∈ f.new.calls, ¬Path.Same d.path c.path) :
    c.path ∈ (o.settling f).report.removed ∧
      ∀ id ∈ o.server.graph.ids, IsMockOf o.session.options.naming o.tree c id →
        id ∈ (o.settling f).report.invalidated ∧
        (o.settling f).server.graph.invalidationCount id =
          o.server.graph.invalidationCount id + 1 := by
  rw [report_settling, graph_settling]
  constructor
  · rw [changeReport_removed]
    exact List.mem_map_of_mem ((mem_removedIn _ _ c).mpr ⟨hc, hDropped⟩)
  · intro id hid hMock
    have hSeed : IsSeed o.server.graph o.session.options.naming o.tree
        o.session.options.entryPath f.old f.new id :=
      ⟨hid, Or.inr ⟨c, Or.inr ⟨hc, hDropped⟩, hMock⟩⟩
    have hInvalidated := (mem_invalidated _ _ _ _ _ _ id).mpr ⟨hid, id, hSeed, .refl⟩
    refine ⟨hInvalidated, ?_⟩
    rw [afterChange_eq, invalidationCount_foldl_invalidate (invalidated_nodup _ _ _ _ _ _)
      (fun m hm => ((mem_invalidated _ _ _ _ _ _ m).mp hm).1), if_pos hInvalidated]

/-- An answer that settles when no other settled since it noted the manifest in use compares with
the manifest that it replaces: what is registered there and no longer is reported, and the modules
of it are invalidated. -/
theorem settle_compares_with_held (w : Workspace) (acts : List Action) (i : Nat) (f : Found)
    (hf : ((start w).run acts).found[i]? = some f)
    (hLatest : f.version = ((start w).run acts).version) :
    let o := (start w).run acts
    let c := o.settling f
    f.old = o.session.manifest ∧
      (o.step (.settle i)).session = c.session ∧ (o.step (.settle i)).server = c.server ∧
      c.session.manifest = f.new ∧
      c.report = changeReport o.server.graph o.session.options.naming o.tree
        o.session.options.entryPath o.session.manifest f.new ∧
      ∀ call ∈ o.session.manifest.calls, (∀ d ∈ f.new.calls, ¬Path.Same d.path call.path) →
        call.path ∈ c.report.removed ∧
        ∀ id ∈ o.server.graph.ids, IsMockOf o.session.options.naming o.tree call id →
          id ∈ c.report.invalidated ∧
          c.server.graph.invalidationCount id = o.server.graph.invalidationCount id + 1 := by
  intro o c
  have hStart : (start w).NotesHold := ⟨by simp [start], by simp [start]⟩
  have hNotes : o.NotesHold := run_keeps notesHold_step hStart acts
  have hHeld : f.old = o.session.manifest :=
    (hNotes.found f (List.mem_of_getElem? hf)).held hLatest
  have hStep : o.step (.settle i) = { o with
      session := c.session, server := c.server
      found := o.found.eraseIdx i, version := o.version + 1, settled := f.turn } := by
    rw [step, settle, hf]
  refine ⟨hHeld, ?_, ?_, rfl, ?_, ?_⟩
  · rw [hStep]
  · rw [hStep]
  · rw [← hHeld]
    rfl
  · intro call hCall hDropped
    rw [← hHeld] at hCall
    exact dropped_settling o f hCall hDropped

/-- A workspace whose session serves one module. -/
def serving (id : String) (tree : FileTree) : Workspace :=
  { built tree with server := { graph := Graph.empty.addModule id } }

/-- An answer notes the manifest; meanwhile another one extracts. -/
def meanwhile (config : String) : List Action :=
  [.note "/p.js", .write "/p.js" (configured config ["a", "b"]), .note "/p.js", .extract 1]

/-- The answer that settles first compares with the manifest in use, and reports what it drops. -/
theorem settle_first_drops :
    let o := (start (serving "/b" (configured "sb.mock('/b')" ["a", "b"]))).run (meanwhile "")
    ∃ f, o.found[0]? = some f ∧ f.version = o.version ∧ f.old = o.session.manifest ∧
      "/b" ∈ (o.settling f).report.removed ∧ "/b" ∈ (o.settling f).report.invalidated ∧
      (o.settling f).server.graph.invalidationCount "/b" = 1 := by
  intro o
  have hRun : o.found.map (fun f => (f.version, f.new.calls.length)) = [(o.version, 0)] ∧
      o.session.manifest.calls.map (·.path) = ["/b"] ∧
      "/b" ∈ o.server.graph.ids ∧ o.server.graph.invalidationCount "/b" = 0 := by decide +kernel
  obtain ⟨hOne, hPaths, hKnown, hBefore⟩ := hRun
  obtain ⟨f, hFound, hPair⟩ := List.map_eq_singleton_iff.mp hOne
  obtain ⟨hLatest, hNone⟩ := Prod.mk.inj hPair
  have hf : o.found[0]? = some f := by rw [hFound]; rfl
  obtain ⟨hHeld, -, -, -, -, hDropped⟩ := settle_compares_with_held _ _ 0 f hf hLatest
  obtain ⟨c, hc, hPath⟩ : ∃ c ∈ o.session.manifest.calls, c.path = "/b" := by
    have hMem : "/b" ∈ o.session.manifest.calls.map (·.path) := by
      rw [hPaths]
      exact List.mem_cons_self
    exact List.mem_map.mp hMem
  have hGone : ∀ d ∈ f.new.calls, ¬Path.Same d.path c.path := by
    rw [List.eq_nil_of_length_eq_zero hNone]
    simp
  obtain ⟨hRemoved, hModules⟩ := hDropped c hc hGone
  have hMock : IsMockOf o.session.options.naming o.tree c "/b" := by
    refine Or.inl ?_
    rw [hPath]
    rfl
  obtain ⟨hInvalidated, hCount⟩ := hModules "/b" hKnown hMock
  rw [hPath] at hRemoved
  exact ⟨f, hf, hLatest, hHeld, hRemoved, hInvalidated, hCount.trans (by rw [hBefore])⟩

theorem ids_step (o : Overlap) (a : Action) :
    (o.step a).server.graph.ids = o.server.graph.ids := by
  have hMove := move_step o a
  generalize o.step a = p at hMove ⊢
  cases hMove with
  | @settled i f hf =>
    change (o.settling f).server.graph.ids = o.server.graph.ids
    rw [graph_settling, afterChange_eq, Graph.ids, nodes_foldl_invalidate, ← Graph.ids]
  | _ => rfl

/-- A run adds no module to the graph, and removes none. -/
theorem ids_run (o : Overlap) (acts : List Action) :
    (o.run acts).server.graph.ids = o.server.graph.ids := by
  have hStep (q : Overlap) (a : Action) (h : q.server.graph.ids = o.server.graph.ids) :
      (q.step a).server.graph.ids = o.server.graph.ids := (ids_step q a).trans h
  exact run_keeps hStep rfl acts

theorem report_of_pending_nil (o : Overlap) (f : Found) {g : Graph}
    (hids : g.ids = o.server.graph.ids) (hPending : (changePass g o.session.options.naming o.tree
      o.session.options.entryPath f.old f.new).pending = [])
    (hRemoved : f.old.removedIn f.new = []) : (o.settling f).report = ⟨[], []⟩ := by
  have hPass : changePass o.server.graph o.session.options.naming o.tree
      o.session.options.entryPath f.old f.new = changePass g o.session.options.naming o.tree
      o.session.options.entryPath f.old f.new := by
    rw [changePass, changePass, Pass.start, Pass.start, hids]
  have hNone : (o.settling f).report.invalidated = [] := by
    rw [report_settling, changeReport_invalidated, hPass, Pass.affected, hPending]
    simp [spread]
  have hEmpty : (o.settling f).report.removed = [] := by
    rw [report_settling, changeReport_removed, hRemoved]
    rfl
  calc (o.settling f).report
      = ⟨(o.settling f).report.invalidated, (o.settling f).report.removed⟩ := rfl
    _ = ⟨[], []⟩ := by rw [hNone, hEmpty]

/-- A configuration beside a package. -/
def packaged (config : String) : FileTree :=
  .dir [("p.js", .file config.toUTF8.toList),
    ("node_modules", .dir [("l", .dir [("index.js", .file [])])])]

def copyId : String := "/node_modules/.vite/deps/l.js?v=1"

/-- An answer that another one overtook drops what that one registered and reports nothing. So does
an answer that finds a package registered by its path and no longer by its name, though a copy of
the package goes by the name. -/
theorem settle_drops_unreported :
    let o := (start (serving "/b" (configured "" ["a", "b"]))).run (meanwhile "sb.mock('/b')" ++
      [.settle 0, .write "/p.js" (configured "" ["a", "b"]), .extract 0])
    let p := (start (serving copyId (packaged ""))).run [
      .write "/p.js" (packaged "sb.mock('l')"), .note "/p.js", .extract 0, .settle 0,
      .write "/p.js" (packaged "sb.mock('./node_modules/l/index.js')"), .note "/p.js", .extract 0]
    (∃ f, o.found[0]? = some f ∧ f.old ≠ o.session.manifest ∧
      o.session.manifest.calls.map (·.path) = ["/b"] ∧ f.new.calls = [] ∧
      "/b" ∈ o.server.graph.ids ∧ (o.settling f).report = ⟨[], []⟩) ∧
    ∃ f, p.found[0]? = some f ∧ p.session.manifest.calls.map (·.specifier) = ["l"] ∧
      f.new.calls.map (·.specifier) = ["./node_modules/l/index.js"] ∧
      (∀ c ∈ p.session.manifest.calls, IsMockOf p.session.options.naming p.tree c copyId) ∧
      copyId ∈ p.server.graph.ids ∧ (p.settling f).report = ⟨[], []⟩ := by
  intro o p
  constructor
  · have hRun : o.found.map (fun f => (f.old.calls.length, f.new.calls.length,
          (f.old.removedIn f.new).length, (changePass (Graph.empty.addModule "/b")
            o.session.options.naming o.tree o.session.options.entryPath f.old f.new).pending)) =
          [(0, 0, 0, [])] ∧
        o.session.manifest.calls.map (·.path) = ["/b"] := by decide +kernel
    obtain ⟨hOne, hHeld⟩ := hRun
    obtain ⟨f, hFound, hParts⟩ := List.map_eq_singleton_iff.mp hOne
    simp only [Prod.mk.injEq] at hParts
    obtain ⟨hOld, hNew, hRemoved, hPending⟩ := hParts
    have hids : o.server.graph.ids = (Graph.empty.addModule "/b").ids := ids_run _ _
    refine ⟨f, by rw [hFound]; rfl, ?_, hHeld, List.eq_nil_of_length_eq_zero hNew, ?_, ?_⟩
    · intro hSame
      rw [← hSame, List.eq_nil_of_length_eq_zero hOld] at hHeld
      cases hHeld
    · rw [hids]
      decide
    · exact report_of_pending_nil o f hids.symm hPending (List.eq_nil_of_length_eq_zero hRemoved)
  · have hRun : p.found.map (fun f => (f.new.calls.map (·.specifier),
          (f.old.removedIn f.new).length, (changePass (Graph.empty.addModule copyId)
            p.session.options.naming p.tree p.session.options.entryPath f.old f.new).pending)) =
          [(["./node_modules/l/index.js"], 0, [])] ∧
        p.session.manifest.calls.map (·.specifier) = ["l"] ∧
        (∀ c ∈ p.session.manifest.calls,
          Module.clean (Module.normalize p.session.options.naming p.tree copyId) = c.cleanId) := by
      decide +kernel
    obtain ⟨hOne, hHeld, hCopy⟩ := hRun
    obtain ⟨f, hFound, hParts⟩ := List.map_eq_singleton_iff.mp hOne
    simp only [Prod.mk.injEq] at hParts
    obtain ⟨hNew, hRemoved, hPending⟩ := hParts
    have hids : p.server.graph.ids = (Graph.empty.addModule copyId).ids := ids_run _ _
    refine ⟨f, by rw [hFound]; rfl, hHeld, hNew, fun c hc => Or.inr (hCopy c hc), ?_, ?_⟩
    · rw [hids]
      decide
    · exact report_of_pending_nil p f hids.symm hPending (List.eq_nil_of_length_eq_zero hRemoved)

end Standin.Overlap
