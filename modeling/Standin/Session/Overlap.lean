import Standin.Session.Plugin

namespace Standin

namespace Overlap

/-- An answer that has noted the manifest in use. -/
structure Noted where
  path : String
  old : Mock.Manifest
  /-- The version of the manifest it noted. -/
  version : Nat

/-- An answer that has extracted. -/
structure Found extends Noted where
  new : Mock.Manifest
  /-- How many answers had extracted by then, this one among them. -/
  turn : Nat

end Overlap

/-- Changes answered at the same time. An answer notes the manifest in use, extracts, and settles; the
steps of several answers, and writes of files, come in any order. -/
structure Overlap extends Workspace where
  /-- Paths written to whose change is still to be answered. -/
  owed : List String := []
  noted : List Overlap.Noted := []
  /-- Answers still to settle. -/
  found : List Overlap.Found := []
  /-- How often the manifest in use was replaced. -/
  version : Nat := 0
  /-- How many answers have extracted. -/
  turns : Nat := 0
  /-- The turn of the answer that settled last; zero before one has. -/
  settled : Nat := 0

namespace Overlap

inductive Action
  /-- The file at a path is written, which leaves the files of a tree. -/
  | write (path : String) (tree : FileTree)
  | note (path : String)
  | extract (i : Nat)
  | settle (i : Nat)

def start (w : Workspace) : Overlap := { toWorkspace := w }

/-- A change that no registration can depend on is answered at once. -/
def note (o : Overlap) (path : String) : Overlap :=
  let owed := o.owed.erase path
  if o.session.watchTargets.isRelevant path then
    { o with
      owed, session := o.session.enter
      noted := o.noted ++ [⟨path, o.session.manifest, o.version⟩] }
  else { o with owed }

/-- An answer extracts from the files as they are; it ends when the configuration cannot be read. -/
def extract (o : Overlap) (i : Nat) : Overlap :=
  match o.noted[i]? with
  | none => o
  | some n =>
    let noted := o.noted.eraseIdx i
    match Standin.extract o.setting with
    | .ok e =>
      let turn := o.turns + 1
      { o with noted, turns := turn, found := o.found ++ [⟨n, e.manifest, turn⟩] }
    | .error _ => { o with noted, session := o.session.leave }

def settling (o : Overlap) (f : Found) : Session.Change :=
  o.session.leave.settle o.tree o.server f.old f.new

def settle (o : Overlap) (i : Nat) : Overlap :=
  match o.found[i]? with
  | none => o
  | some f =>
    let c := o.settling f
    { o with
      session := c.session, server := c.server, found := o.found.eraseIdx i
      version := o.version + 1, settled := f.turn }

/-- A step of an answer that does not exist changes nothing. -/
def step (o : Overlap) : Action → Overlap
  | .write path tree => { o with tree, owed := path :: o.owed }
  | .note path => o.note path
  | .extract i => o.extract i
  | .settle i => o.settle i

def run (o : Overlap) : List Action → Overlap
  | [] => o
  | a :: more => (o.step a).run more

end Overlap

end Standin
