import Mathlib.Data.List.Basic
import Standin.Graph.Invalidation
import Standin.Session.Basic
import Standin.Session.Plugin

namespace Standin.Session

variable (s : Session) (tree : FileTree) (server : DevServer)

@[simp] theorem leave_enter : s.enter.leave = s := by
  simp [enter, leave]

@[simp] theorem setting_enter : s.enter.setting tree = s.setting tree := rfl

theorem buildStart_eq : s.buildStart tree =
    (extract (s.setting tree)).map fun e => (e, s.withManifest e.manifest) := by
  rw [buildStart]
  simp

theorem fileChanged_of_not_relevant {path : String}
    (h : s.watchTargets.isRelevant path = false) : s.fileChanged tree server path = .ok none := by
  rw [fileChanged, h]
  rfl

theorem fileChanged_of_relevant {path : String} (h : s.watchTargets.isRelevant path = true) :
    s.fileChanged tree server path =
      match extract (s.setting tree) with
      | .ok e => .ok (some (s.settle tree server s.manifest e.manifest))
      | .error fault => .error (.watchCallback path fault.message) := by
  cases hExtract : extract (s.setting tree) <;> simp [fileChanged, h, hExtract]

end Standin.Session

namespace Standin.Extraction.Setting

variable {s : Setting}

/-- The manifest that an extraction finds; none if the configuration cannot be read. -/
def manifest? (s : Setting) : Option Mock.Manifest :=
  match extract s with
  | .ok e => some e.manifest
  | .error _ => none

theorem manifest?_of_ok {e : Extraction} (h : extract s = .ok e) :
    s.manifest? = some e.manifest := by
  rw [manifest?, h]

theorem manifest?_of_error {fault : Fault} (h : extract s = .error fault) :
    s.manifest? = none := by
  rw [manifest?, h]

theorem extract_of_read {text : String}
    (h : s.tree.readText s.options.entryPath = .ok text) :
    extract s = .ok (Extraction.ofText s text.toList) := by
  rw [extract, h]

theorem extract_of_unread {failure : FileTree.Failure}
    (h : s.tree.readText s.options.entryPath = .error failure) :
    extract s = .error (.configRead s.options.entryPath failure.message) := by
  rw [extract, h]

end Standin.Extraction.Setting

namespace Standin.Broadcaster

/-- One event reaches every client that is registered and listens; a client that listens no more
is not registered afterwards. -/
theorem clients_broadcast (b : Broadcaster) (e : HotEvent) : (b.broadcast e).clients =
    b.clients.map fun c =>
      if c.registered ∧ c.listening then { c with queue := c.queue ++ [e] }
      else { c with registered := false } := by
  refine List.map_congr_left fun c _ => ?_
  obtain ⟨id, queue, registered, listening⟩ := c
  cases registered <;> cases listening <;> rfl

end Standin.Broadcaster

namespace Standin

open Mock

namespace Session

/-- The manifests found when a file changes: one if registrations can depend on it and the
configuration can be read. -/
def foundAt (s : Session) (tree : FileTree) (path : String) : List Manifest :=
  if s.watchTargets.isRelevant path then (s.setting tree).manifest?.toList else []

end Session

namespace Workspace

open Session Extraction.Setting

def Operation.filesAfter (tree : FileTree) : Operation → FileTree
  | .edit new => new
  | _ => tree

/-- The manifests that an operation extracts, in order. -/
def Operation.found (s : Session) (tree : FileTree) : Operation → List Manifest
  | .buildStart => (s.setting tree).manifest?.toList
  | .change path => s.foundAt tree path
  | .changes paths => paths.flatMap (s.foundAt tree)
  | _ => []

def found (s : Session) : FileTree → List Operation → List Manifest
  | _, [] => []
  | tree, op :: more => op.found s tree ++ found s (op.filesAfter tree) more

/-- The last of the manifests found, or else the one in use before. -/
def latest (s : Session) (ms : List Manifest) : Manifest := ms.getLast?.getD s.manifest

theorem latest_append (s : Session) (ms ns : List Manifest) :
    latest s (ms ++ ns) = latest (s.withManifest (latest s ms)) ns := by
  rw [latest, latest, latest, List.getLast?_append]
  cases ns.getLast? <;> rfl

theorem found_withManifest (s : Session) (m : Manifest) (tree : FileTree) (ops : List Operation) :
    found (s.withManifest m) tree ops = found s tree ops := by
  induction ops generalizing tree with
  | nil => rfl
  | cons op more ih =>
    have hOp : op.found (s.withManifest m) tree = op.found s tree := by cases op <;> rfl
    rw [found, found, hOp, ih]

/-- An operation changes the manifest in use at most, and only to what it extracts last. -/
structure Steps (w : Workspace) (op : Operation) : Prop where
  session : (w.perform op).2.session = w.session.withManifest (latest w.session
    (op.found w.session w.tree))
  tree : (w.perform op).2.tree = op.filesAfter w.tree

theorem run_of_steps (ops : List Operation) (h : ∀ op ∈ ops, ∀ w, Steps w op) (w : Workspace) :
    (w.run ops).session =
        w.session.withManifest (latest w.session (found w.session w.tree ops)) ∧
      (w.run ops).tree = ops.foldl Operation.filesAfter w.tree := by
  induction ops generalizing w with
  | nil => exact ⟨rfl, rfl⟩
  | cons op more ih =>
    obtain ⟨hSession, hTree⟩ := h op List.mem_cons_self w
    have hRest := ih (fun q hq => h q (List.mem_cons_of_mem _ hq)) (w.perform op).2
    rw [hSession, hTree, found_withManifest] at hRest
    rw [run, found, latest_append]
    exact hRest

theorem perform_irrelevant (w : Workspace) {path : String}
    (h : w.session.watchTargets.isRelevant path = false) :
    w.perform (.change path) = (.irrelevant, w) := by
  rw [perform, fileChanged_of_not_relevant _ _ _ h]

theorem perform_change (w : Workspace) {path : String}
    (h : w.session.watchTargets.isRelevant path = true) :
    w.perform (.change path) =
      match extract w.setting with
      | .ok e =>
        let c := w.session.settle w.tree w.server w.session.manifest e.manifest
        (.reported c.report, { w with session := c.session, server := c.server })
      | .error fault => (.failed (.watchCallback path fault.message), w) := by
  rw [perform, fileChanged_of_relevant _ _ _ h, setting]
  cases extract (w.session.setting w.tree) <;> rfl

theorem perform_buildStart (w : Workspace) :
    w.perform .buildStart =
      match extract w.setting with
      | .ok e => (.extracted e, { w with session := w.session.withManifest e.manifest })
      | .error fault => (.failed fault, w) := by
  rw [perform, buildStart_eq, setting]
  cases extract (w.session.setting w.tree) <;> rfl

/-- An operation that extracts takes what it finds into use; one that cannot read the
configuration changes nothing. -/
theorem steps_of_extract {w : Workspace} {op : Operation}
    (hFound : op.found w.session w.tree = w.setting.manifest?.toList)
    (hFiles : op.filesAfter w.tree = w.tree)
    (hOk : ∀ e, extract w.setting = .ok e → (w.perform op).2.tree = w.tree ∧
      (w.perform op).2.session = w.session.withManifest e.manifest)
    (hError : ∀ fault, extract w.setting = .error fault → (w.perform op).2 = w) : Steps w op := by
  cases hExtract : extract w.setting with
  | ok e =>
    obtain ⟨hTree, hSession⟩ := hOk e hExtract
    refine ⟨?_, hTree.trans hFiles.symm⟩
    rw [hSession, hFound, manifest?_of_ok hExtract]
    rfl
  | error fault =>
    have hSame := hError fault hExtract
    refine ⟨?_, by rw [hSame, hFiles]⟩
    rw [hSame, hFound, manifest?_of_error hExtract]
    rfl

theorem steps_change (w : Workspace) (path : String) : Steps w (.change path) := by
  cases hPath : w.session.watchTargets.isRelevant path with
  | false =>
    have hFound : (Operation.change path).found w.session w.tree = [] := by
      rw [Operation.found, foundAt, hPath]
      rfl
    exact ⟨by rw [perform_irrelevant w hPath, hFound]; rfl, by rw [perform_irrelevant w hPath]; rfl⟩
  | true =>
    have hFound : (Operation.change path).found w.session w.tree =
        w.setting.manifest?.toList := by
      rw [Operation.found, foundAt, hPath]
      rfl
    refine steps_of_extract hFound rfl (fun e hExtract => ?_) (fun fault hExtract => ?_)
    · rw [perform_change w hPath, hExtract]
      exact ⟨rfl, rfl⟩
    · rw [perform_change w hPath, hExtract]

theorem perform_changes (w : Workspace) (paths : List String) :
    (w.perform (.changes paths)).2 = w.run (paths.map .change) := by
  induction paths generalizing w with
  | nil => rfl
  | cons path more ih =>
    have hMore := ih (w.perform (.change path)).2
    rw [List.map_cons, run, ← hMore]
    simp only [perform, filesChanged]
    cases w.session.fileChanged w.tree w.server path with
    | error fault => rfl
    | ok found => cases found <;> rfl

theorem found_changes (s : Session) (tree : FileTree) (paths : List String) :
    found s tree (paths.map .change) = (Operation.changes paths).found s tree := by
  induction paths with
  | nil => rfl
  | cons path more ih =>
    have hTree : (Operation.change path).filesAfter tree = tree := rfl
    rw [List.map_cons, found, hTree, ih]
    rfl

theorem filesAfter_changes (tree : FileTree) (paths : List String) :
    (paths.map Operation.change).foldl Operation.filesAfter tree = tree := by
  induction paths with
  | nil => rfl
  | cons path more ih => exact ih

theorem steps (w : Workspace) (op : Operation) : Steps w op := by
  cases op with
  | edit tree => exact ⟨rfl, rfl⟩
  | host server => exact ⟨rfl, rfl⟩
  | load id => exact ⟨rfl, rfl⟩
  | transform code id => exact ⟨rfl, rfl⟩
  | change path => exact steps_change w path
  | buildStart =>
    refine steps_of_extract rfl rfl (fun e hExtract => ?_) (fun fault hExtract => ?_)
    · rw [perform_buildStart, hExtract]
      exact ⟨rfl, rfl⟩
    · rw [perform_buildStart, hExtract]
  | changes paths =>
    have hEach : ∀ op ∈ paths.map Operation.change, ∀ w, Steps w op := by
      intro op hOp w
      obtain ⟨path, -, rfl⟩ := List.mem_map.mp hOp
      exact steps_change w path
    obtain ⟨hSession, hTree⟩ := run_of_steps _ hEach w
    constructor
    · rw [perform_changes, hSession, found_changes]
    · rw [perform_changes, hTree, filesAfter_changes]
      rfl

/-- What each operation on a workspace may do: all of its effect, or none. -/
structure AllOrNothing (w : Workspace) : Prop where
  irrelevant : ∀ path, w.session.watchTargets.isRelevant path = false →
    w.perform (.change path) = (.irrelevant, w)
  unreadBuild : ∀ failure, w.tree.readText w.session.options.entryPath = .error failure →
    w.perform .buildStart =
      (.failed (.configRead w.session.options.entryPath failure.message), w)
  unreadChange : ∀ failure, w.tree.readText w.session.options.entryPath = .error failure →
    ∀ path, w.session.watchTargets.isRelevant path = true → w.perform (.change path) =
      (.failed (.watchCallback path
        (Fault.configRead w.session.options.entryPath failure.message).message), w)
  built : ∀ text, w.tree.readText w.session.options.entryPath = .ok text →
    let e := Extraction.ofText w.setting text.toList
    w.perform .buildStart =
      (.extracted e, { w with session := w.session.withManifest e.manifest })
  changed : ∀ text, w.tree.readText w.session.options.entryPath = .ok text →
    ∀ path, w.session.watchTargets.isRelevant path = true →
    let e := Extraction.ofText w.setting text.toList
    let passed := w.server.graph.invalidateChanges w.session.options.naming w.tree
      w.session.options.entryPath w.session.manifest e.manifest
    -- a client that listens no more is not registered afterwards
    let clients := w.server.clients.clients.map fun c =>
      if c.registered ∧ c.listening then { c with queue := c.queue ++ [.fullReload] }
      else { c with registered := false }
    w.perform (.change path) = (.reported passed.1,
      { tree := w.tree, session := w.session.withManifest e.manifest
        server := { graph := passed.2, clients := { clients } } })
  listed : ∀ paths, w.perform (.changes paths) = (.none, w.run (paths.map .change))
  loads : ∀ id, w.perform (.load id) = (.loaded (w.session.load w.tree id), w)
  transforms : ∀ code id,
    w.perform (.transform code id) = (.transformed (w.session.transform w.tree code id), w)

theorem allOrNothing (w : Workspace) : w.AllOrNothing where
  irrelevant _ h := perform_irrelevant w h
  unreadBuild failure h := by
    have hExtract := extract_of_unread (s := w.setting) h
    rw [perform_buildStart, hExtract]
    rfl
  unreadChange failure h path hPath := by
    have hExtract := extract_of_unread (s := w.setting) h
    rw [perform_change w hPath, hExtract]
    rfl
  built text h := by
    have hExtract := extract_of_read (s := w.setting) h
    rw [perform_buildStart, hExtract]
  changed text h path hPath := by
    have hExtract := extract_of_read (s := w.setting) h
    rw [perform_change w hPath, hExtract, ← Broadcaster.clients_broadcast]
    rfl
  listed paths := by
    rw [← perform_changes]
    rfl
  loads _ := rfl
  transforms _ _ := rfl

/-- After any operations a new session is idle and differs from the new one only in its manifest,
which the last successful extraction found; and whatever comes next is done wholly or not at all. -/
theorem run_idle_and_latest (options : Options) (mode : HostMode) (root : String) (s : Session)
    (hNew : Session.ofOptions options mode root = .ok s) (tree : FileTree) (server : DevServer)
    (ops : List Operation) :
    let w := run ⟨tree, s, server⟩ ops
    w.session = s.withManifest ((found s tree ops).getLast?.getD .empty) ∧
      w.session.phase = .idle ∧ w.tree = ops.foldl Operation.filesAfter tree ∧
      w.AllOrNothing := by
  intro w
  have hs : s.manifest = .empty ∧ s.phase = .idle := by
    cases hValid : options.validate with
    | error fault =>
      rw [ofOptions, hValid] at hNew
      cases hNew
    | ok _ =>
      rw [ofOptions, hValid] at hNew
      cases hNew
      exact ⟨rfl, rfl⟩
  obtain ⟨hSession, hTree⟩ := run_of_steps ops (fun op _ w => steps w op) ⟨tree, s, server⟩
  have hLatest : w.session = s.withManifest ((found s tree ops).getLast?.getD .empty) := by
    rw [← hs.1]
    exact hSession
  have hIdle : w.session.phase = .idle := by
    rw [hLatest]
    exact hs.2
  exact ⟨hLatest, hIdle, hTree, allOrNothing w⟩

def mockedOptions : Options := { entryPath := "/p.js", preserveLinks := true }

/-- A configuration that registers one module. -/
def mockedTree : FileTree :=
  .dir [("p.js", .file "sb.mock('/a')".toUTF8.toList), ("a", .file [])]

def mockedSession : Session := { options := mockedOptions, root := "/", mode := .serve }

/-- While the configuration is gone a change of it fails, and the manifest stays; when it is there
again, the change is answered. -/
theorem unread_then_read :
    let w := run ⟨mockedTree, mockedSession, {}⟩ [.buildStart, .edit .empty, .change "/p.js"]
    let v := run ⟨mockedTree, mockedSession, {}⟩ [.edit .empty, .buildStart, .edit mockedTree]
    w.session.manifest.calls.map (·.path) = ["/a"] ∧ w.session.phase = .idle ∧
      w.perform (.change "/a") = (.irrelevant, w) ∧
      (w.perform .buildStart).2 = w ∧ (w.perform (.change "/p.js")).2 = w ∧
      v.session.manifest.calls = [] ∧
      (∃ e, (v.perform .buildStart).1 = .extracted e) ∧
      ∃ report, (v.perform (.change "/p.js")).1 = .reported report := by
  intro w v
  have hValid : mockedOptions.validate = .ok () := by decide +kernel
  have hNew : Session.ofOptions mockedOptions .serve "/" = .ok mockedSession := by
    rw [ofOptions, hValid]
    rfl
  have hTargets (m : Manifest) : (mockedSession.withManifest m).watchTargets =
      mockedSession.watchTargets := rfl
  have hConfig : mockedSession.watchTargets.isRelevant "/p.js" = true := by decide +kernel
  have hOther : mockedSession.watchTargets.isRelevant "/a" = false := by decide +kernel
  have hGone : FileTree.empty.readText "/p.js" = .error .notFound := by decide +kernel
  have hThere : mockedTree.readText "/p.js" = .ok "sb.mock('/a')" := by decide +kernel
  obtain ⟨hSession, hIdle, hTree, hSteps⟩ := run_idle_and_latest mockedOptions .serve "/"
    mockedSession hNew mockedTree {} [.buildStart, .edit .empty, .change "/p.js"]
  obtain ⟨hSession', -, hTree', hSteps'⟩ := run_idle_and_latest mockedOptions .serve "/"
    mockedSession hNew mockedTree {} [.edit .empty, .buildStart, .edit mockedTree]
  change w.session = _ at hSession
  change v.session = _ at hSession'
  change w.tree = FileTree.empty at hTree
  change v.tree = mockedTree at hTree'
  have hUnread : w.tree.readText w.session.options.entryPath = .error .notFound := by
    rw [hTree, hSession]
    exact hGone
  have hRead : v.tree.readText v.session.options.entryPath = .ok "sb.mock('/a')" := by
    rw [hTree', hSession']
    exact hThere
  have hRelevant : w.session.watchTargets.isRelevant "/p.js" = true := by
    rw [hSession, hTargets, hConfig]
  have hIrrelevant : w.session.watchTargets.isRelevant "/a" = false := by
    rw [hSession, hTargets, hOther]
  have hRelevant' : v.session.watchTargets.isRelevant "/p.js" = true := by
    rw [hSession', hTargets, hConfig]
  refine ⟨?_, hIdle, hSteps.irrelevant _ hIrrelevant, ?_, ?_, ?_, ?_, ?_⟩
  · rw [hSession]
    decide +kernel
  · rw [hSteps.unreadBuild _ hUnread]
  · rw [hSteps.unreadChange _ hUnread _ hRelevant]
  · rw [hSession']
    decide +kernel
  · rw [hSteps'.built _ hRead]
    exact ⟨_, rfl⟩
  · rw [hSteps'.changed _ hRead _ hRelevant']
    exact ⟨_, rfl⟩

end Workspace

end Standin
