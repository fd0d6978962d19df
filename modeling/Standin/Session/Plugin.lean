import Standin.Session.Basic

namespace Standin

namespace Plugin

structure Hooks where
  name : String
  /-- Whether sources are seen before other plugins change them. -/
  first : Bool
  load : Bool
  transform : Bool
  buildStart : Bool
  resolveId : Bool
deriving DecidableEq, Repr

def hooks : Hooks where
  name := "modmock"
  first := true
  load := true
  transform := true
  buildStart := true
  resolveId := false

/-- A plugin's own session is one of a build. -/
def session (options : Options) (root : String) : Except Fault Session :=
  Session.ofOptions options .build root

def buildStart (s : Session) (tree : FileTree) : Session :=
  match s.buildStart tree with
  | .ok (_, s) => s
  | .error _ => s

def load? (s : Session) (tree : FileTree) (id : String) : Option String :=
  match s.load tree id with
  | .redirected _ code => some code
  | .passed => none

/-- The new source, with its map when it was automocked. -/
def transform? (s : Session) (tree : FileTree) (code id : String) :
    Option (String × Option SourceMap) :=
  match s.transform tree code id with
  | .automocked code map => some (code, some map)
  | .redirected _ code => some (code, none)
  | .passed => none

end Plugin

structure Workspace where
  tree : FileTree
  session : Session
  server : DevServer

namespace Workspace

def setting (w : Workspace) : Extraction.Setting := w.session.setting w.tree

inductive Operation
  /-- The files become those of a tree. -/
  | edit (tree : FileTree)
  /-- The host changes its module graph or its clients. -/
  | host (server : DevServer)
  | buildStart
  | change (path : String)
  | changes (paths : List String)
  | load (id : String)
  | transform (code id : String)

inductive Answer
  | none
  | extracted (e : Extraction)
  | failed (fault : Fault)
  /-- No registration can depend on the change. -/
  | irrelevant
  | reported (report : Graph.Report)
  | loaded (l : Loaded)
  | transformed (t : Transformed)

def perform (w : Workspace) : Operation → Answer × Workspace
  | .edit tree => (.none, { w with tree })
  | .host server => (.none, { w with server })
  | .buildStart =>
    match w.session.buildStart w.tree with
    | .ok (e, session) => (.extracted e, { w with session })
    | .error fault => (.failed fault, w)
  | .change path =>
    match w.session.fileChanged w.tree w.server path with
    | .ok none => (.irrelevant, w)
    | .ok (some c) => (.reported c.report, { w with session := c.session, server := c.server })
    | .error fault => (.failed fault, w)
  | .changes paths =>
    let (session, server) := w.session.filesChanged w.tree w.server paths
    (.none, { w with session, server })
  | .load id => (.loaded (w.session.load w.tree id), w)
  | .transform code id => (.transformed (w.session.transform w.tree code id), w)

def run (w : Workspace) : List Operation → Workspace
  | [] => w
  | op :: more => (w.perform op).2.run more

end Workspace

end Standin
