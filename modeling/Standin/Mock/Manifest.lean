import Standin.Path.Basic

namespace Standin.Mock

structure Call where
  specifier : String
  path : String
  /-- The manual mock served in the module's place. -/
  redirect : Option String := none
  /-- Whether stand-ins record their arguments and results. -/
  spy : Bool := false
  /-- What a pre-bundled copy of the module is recognized by. -/
  cleanId : String := specifier
deriving DecidableEq, Repr

namespace Call

def isRedirected (c : Call) : Bool := c.redirect.isSome

/-- What of a call counts when calls are compared: paths count by their components. -/
def key (c : Call) :
    String × List Path.Component × Option (List Path.Component) × Bool × String :=
  (c.specifier, Path.components c.path, c.redirect.map Path.components, c.spy, c.cleanId)

def Same (a b : Call) : Prop := a.key = b.key

instance (a b : Call) : Decidable (Same a b) := inferInstanceAs (Decidable (a.key = b.key))

end Call

structure Manifest where
  calls : List Call
  distinct : calls.Pairwise fun a b => ¬Path.Same a.path b.path

namespace Manifest

def empty : Manifest := ⟨[], .nil⟩

instance : Inhabited Manifest := ⟨empty⟩

def size (m : Manifest) : Nat := m.calls.length

def isEmpty (m : Manifest) : Bool := m.calls.isEmpty

def atPath? (m : Manifest) (path : String) : Option Call :=
  m.calls.find? fun c => Path.Same c.path path

def withCleanId? (m : Manifest) (cleanId : String) : Option Call :=
  m.calls.find? fun c => c.cleanId = cleanId

def hasPath (m : Manifest) (path : String) : Bool :=
  m.calls.any fun c => Path.Same c.path path

theorem not_same_of_hasPath_false {m : Manifest} {path : String} (h : ¬m.hasPath path = true) :
    ∀ c ∈ m.calls, ¬Path.Same c.path path := by
  simpa [hasPath] using h

/-- The manifest with a call of a new path at its end. -/
def push (m : Manifest) (c : Call) (h : ¬m.hasPath c.path = true) : Manifest where
  calls := m.calls ++ [c]
  distinct := by
    refine List.pairwise_append.2 ⟨m.distinct, List.pairwise_singleton _ _, ?_⟩
    intro a ha b hb
    rw [List.mem_singleton.1 hb]
    exact not_same_of_hasPath_false h a ha

/-- Adds calls in order; a call whose path is taken goes to the second list. -/
def addAll (m : Manifest) : List Call → Manifest × List Call
  | [] => (m, [])
  | c :: more =>
    if h : m.hasPath c.path = true then
      let (kept, dropped) := m.addAll more
      (kept, c :: dropped)
    else (m.push c h).addAll more

/-- The manifest of the calls and the calls dropped as duplicates. -/
def ofCalls (calls : List Call) : Manifest × List Call := empty.addAll calls

def removedIn (m newer : Manifest) : List Call :=
  m.calls.filter fun c => !newer.hasPath c.path

/-- The same calls in the same order. -/
def Same (a b : Manifest) : Prop := a.calls.map Call.key = b.calls.map Call.key

instance (a b : Manifest) : Decidable (Same a b) :=
  inferInstanceAs (Decidable (a.calls.map Call.key = b.calls.map Call.key))

end Manifest

structure Indexed extends Manifest where
  /-- Where among the calls the one of a clean id stands. -/
  positions : List (String × Nat)

namespace Indexed

def empty : Indexed := { Manifest.empty with positions := [] }

/-- Enters the position of a clean id; the first one stays. -/
def enter (positions : List (String × Nat)) (cleanId : String) (position : Nat) :
    List (String × Nat) :=
  match positions.lookup cleanId with
  | some _ => positions
  | none => positions ++ [(cleanId, position)]

def push (x : Indexed) (c : Call) (h : ¬x.hasPath c.path = true) : Indexed :=
  { x.toManifest.push c h with positions := enter x.positions c.cleanId x.size }

def addAll (x : Indexed) : List Call → Indexed × List Call
  | [] => (x, [])
  | c :: more =>
    if h : x.hasPath c.path = true then
      let (kept, dropped) := x.addAll more
      (kept, c :: dropped)
    else (x.push c h).addAll more

def ofCalls (calls : List Call) : Indexed × List Call := empty.addAll calls

/-- The call that a clean id leads to. -/
def withCleanId? (x : Indexed) (cleanId : String) : Option Call :=
  (x.positions.lookup cleanId).bind fun position => x.calls[position]?

end Indexed

end Standin.Mock
