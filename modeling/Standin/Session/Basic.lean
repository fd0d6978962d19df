import Standin.Automock.Basic
import Standin.Basic
import Standin.Extraction
import Standin.FileTree.Basic
import Standin.Graph.Invalidation
import Standin.Mock.Match
import Standin.Options.Basic
import Standin.Wire

namespace Standin

/-- The answer to a request for a module's source. -/
inductive Loaded
  | redirected (path code : String)
  | passed
deriving DecidableEq, Repr

/-- The answer to a module's source. -/
inductive Transformed
  | automocked (code : String) (map : SourceMap)
  | redirected (path code : String)
  | passed
deriving DecidableEq, Repr

structure Interceptor where
  rule : Mock.MatchRule
  naming : Module.Naming
deriving DecidableEq, Repr

namespace Interceptor

open Mock

/-- Serves the manual mock of the module at an exact path. A mock that cannot be read is passed
over. -/
def load (i : Interceptor) (tree : FileTree) (m : Manifest) (id : String) : Loaded :=
  match MatchRule.exactPath.find? i.naming tree m id with
  | none => .passed
  | some call =>
    match call.redirect with
    | none => .passed
    | some path =>
      match tree.readText path with
      | .ok code => .redirected path code
      | .error _ => .passed

/-- Replaces the source of a registered module. A source without exports, or one that does not
parse, stays as it is. -/
def transform (i : Interceptor) (tree : FileTree) (m : Manifest) (code id : String) :
    Transformed :=
  match i.rule.find? i.naming tree m id with
  | none => .passed
  | some call =>
    match call.redirect with
    | some path =>
      match tree.readText path with
      | .ok code => .redirected path code
      | .error _ => .passed
    | none =>
      match automock code id call.spy with
      | .ok mocked => if mocked.exports.isEmpty then .passed else .automocked mocked.code mocked.map
      | .error _ => .passed

end Interceptor

structure WatchTargets where
  configFile : String
  /-- Directories watched with all they contain. -/
  dirs : List String
  mocksDir : String
deriving DecidableEq, Repr

namespace WatchTargets

/-- A change matters at the configuration file, and below a directory of manual mocks that is not
part of an installed package. -/
def isRelevant (w : WatchTargets) (path : String) : Bool :=
  if Path.Same path w.configFile then true
  else if .name "node_modules" ∈ Path.components path then false
  else .name w.mocksDir ∈ Path.components path

/-- Watching needs every directory to exist. -/
def check (w : WatchTargets) (tree : FileTree) : Except Fault Unit :=
  match w.dirs.find? fun dir => !tree.isDirectory dir with
  | some dir => .error (.options s!"watch directory does not exist: {dir}")
  | none => .ok ()

end WatchTargets

def Options.watchTargets (o : Options) (root : String) : WatchTargets where
  configFile := o.entryPath
  dirs := if Path.startsWith o.entryDir root then [root] else [root, o.entryDir]
  mocksDir := o.mocksDir

open Mock

/-- What a session tells a dev server to do. -/
structure DevServer where
  graph : Graph := {}
  clients : Broadcaster := {}
deriving DecidableEq, Repr

structure Session where
  options : Options
  root : String
  mode : HostMode
  manifest : Manifest := .empty
  /-- Passes that extract at the moment. -/
  running : Nat := 0

namespace Session

inductive Phase
  | idle
  | extracting
deriving DecidableEq, Repr

def phase (s : Session) : Phase := if s.running = 0 then .idle else .extracting

/-- A session starts without registrations. -/
def ofOptions (options : Options) (mode : HostMode) (root : String) : Except Fault Session :=
  options.validate.map fun _ => { options, root, mode }

def setting (s : Session) (tree : FileTree) : Extraction.Setting := ⟨s.options, s.root, tree⟩

def enter (s : Session) : Session := { s with running := s.running + 1 }

def leave (s : Session) : Session := { s with running := s.running - 1 }

def withManifest (s : Session) (m : Manifest) : Session := { s with manifest := m }

/-- Extracts the manifest anew. A configuration that cannot be read leaves the session as it is. -/
def buildStart (s : Session) (tree : FileTree) : Except Fault (Extraction × Session) :=
  let s := s.enter
  let found := extract (s.setting tree)
  let s := s.leave
  found.map fun e => (e, s.withManifest e.manifest)

def watchTargets (s : Session) : WatchTargets := s.options.watchTargets s.root

structure Change where
  report : Graph.Report
  session : Session
  server : DevServer

/-- The last step of a pass: what replacing `old` by `new` concerns is invalidated, `new` is taken
into use, and every client is told to reload. -/
def settle (s : Session) (tree : FileTree) (server : DevServer) (old new : Manifest) : Change :=
  let (report, graph) :=
    server.graph.invalidateChanges s.options.naming tree s.options.entryPath old new
  { report
    session := s.withManifest new
    server := ⟨graph, server.clients.broadcast .fullReload⟩ }

/-- Answers a change of the file at a path; none when no registration can depend on it. -/
def fileChanged (s : Session) (tree : FileTree) (server : DevServer) (path : String) :
    Except Fault (Option Change) :=
  if !s.watchTargets.isRelevant path then .ok none
  else
    let old := s.manifest
    let s := s.enter
    let found := extract (s.setting tree)
    let s := s.leave
    match found with
    | .ok e => .ok (some (s.settle tree server old e.manifest))
    | .error fault => .error (.watchCallback path fault.message)

/-- Answers changes one after the other; one that fails changes nothing. -/
def filesChanged (s : Session) (tree : FileTree) (server : DevServer) :
    List String → Session × DevServer
  | [] => (s, server)
  | path :: more =>
    match s.fileChanged tree server path with
    | .ok (some c) => c.session.filesChanged tree c.server more
    | .ok none | .error _ => s.filesChanged tree server more

def interceptor (s : Session) : Interceptor := ⟨MatchRule.ofMode s.mode, s.options.naming⟩

def load (s : Session) (tree : FileTree) (id : String) : Loaded :=
  s.interceptor.load tree s.manifest id

def transform (s : Session) (tree : FileTree) (code id : String) : Transformed :=
  s.interceptor.transform tree s.manifest code id

def modeName : HostMode → String
  | .build => "Build"
  | .serve => "Serve"

def phaseName : Phase → String
  | .idle => "Idle"
  | .extracting => "ReExtracting"

/-- The session for a developer to read. -/
def describe (s : Session) : String :=
  s!"MockSession \x7b root: {Text.shown s.root}, mode: {modeName s.mode}, " ++
    s!"mocks: {s.manifest.size}, state: {phaseName s.phase}, .. \x7d"

end Session

end Standin
