namespace Standin

structure Graph.Node where
  id : String
  importers : List String := []
deriving DecidableEq, Repr

structure Graph where
  nodes : List Graph.Node := []
  invalidations : List (String × Nat) := []
deriving DecidableEq, Repr

namespace Graph

def empty : Graph := {}

def ids (g : Graph) : List String := g.nodes.map (·.id)

def node? (g : Graph) (id : String) : Option Node := g.nodes.find? (·.id = id)

def importersOf (g : Graph) (id : String) : List String :=
  match g.node? id with
  | some n => n.importers
  | none => []

def addModule (g : Graph) (id : String) : Graph :=
  if id ∈ g.ids then g else { g with nodes := g.nodes ++ [{ id }] }

def Node.addImporter (n : Node) (importer : String) : Node :=
  if importer ∈ n.importers then n else { n with importers := n.importers ++ [importer] }

/-- Records that `importer` imports `imported`; both become modules. -/
def addImport (g : Graph) (importer imported : String) : Graph :=
  let g := (g.addModule importer).addModule imported
  { g with nodes := g.nodes.map fun n => if n.id = imported then n.addImporter importer else n }

/-- Raises the count of an id, which stands where its first invalidation put it. -/
def raise (id : String) : List (String × Nat) → List (String × Nat)
  | [] => [(id, 1)]
  | (key, count) :: more =>
    if key = id then (key, count + 1) :: more else (key, count) :: raise id more

/-- Invalidates a module; an unknown id changes nothing. -/
def invalidate (g : Graph) (id : String) : Graph :=
  if id ∈ g.ids then { g with invalidations := raise id g.invalidations } else g

def isInvalidated (g : Graph) (id : String) : Bool := (g.invalidations.lookup id).isSome

def invalidationCount (g : Graph) (id : String) : Nat := (g.invalidations.lookup id).getD 0

def clearInvalidations (g : Graph) : Graph := { g with invalidations := [] }

@[simp] theorem nodes_invalidate (g : Graph) (id : String) : (g.invalidate id).nodes = g.nodes := by
  unfold invalidate
  split <;> rfl

@[simp] theorem importersOf_invalidate (g : Graph) (id other : String) :
    (g.invalidate id).importersOf other = g.importersOf other := by
  simp [importersOf, node?]

end Graph

end Standin

namespace Standin.Graph

inductive Operation
  | addModule (id : String)
  | addImport (importer imported : String)
  | invalidate (id : String)
  | clearInvalidations
deriving DecidableEq, Repr

def perform (g : Graph) : Operation → Graph
  | .addModule id => g.addModule id
  | .addImport importer imported => g.addImport importer imported
  | .invalidate id => g.invalidate id
  | .clearInvalidations => g.clearInvalidations

def run (g : Graph) (ops : List Operation) : Graph := ops.foldl perform g

end Standin.Graph
