import Standin.Json.Basic
import Standin.Mock.Match

namespace Standin

inductive HotEvent
  | fullReload
deriving DecidableEq, Repr

def HotEvent.kind : HotEvent → String
  | .fullReload => "full-reload"

/-- The event as it is sent. -/
def HotEvent.wireText (e : HotEvent) : String := "\x7b\"type\":\"" ++ e.kind ++ "\"\x7d"

structure ReloadClient where
  id : Nat
  /-- Events sent and not yet taken. -/
  queue : List HotEvent := []
  /-- Whether the broadcaster still sends to it. -/
  registered : Bool := true
  /-- Whether the client still listens. -/
  listening : Bool := true
deriving DecidableEq, Repr

/-- An event reaches the registered clients that listen; the others stop being registered. -/
def ReloadClient.send (e : HotEvent) (c : ReloadClient) : ReloadClient :=
  if !c.registered then c
  else if c.listening then { c with queue := c.queue ++ [e] }
  else { c with registered := false }

structure Broadcaster where
  clients : List ReloadClient := []
deriving DecidableEq, Repr

namespace Broadcaster

def empty : Broadcaster := {}

/-- Clients are never forgotten, so their number is an id not used before. -/
def register (b : Broadcaster) : Nat × Broadcaster :=
  (b.clients.length, ⟨b.clients ++ [{ id := b.clients.length }]⟩)

def update (b : Broadcaster) (id : Nat) (f : ReloadClient → ReloadClient) : Broadcaster :=
  ⟨b.clients.map fun c => if c.id = id then f c else c⟩

def unregister (b : Broadcaster) (id : Nat) : Broadcaster :=
  b.update id fun c => { c with registered := false }

/-- The client goes away; its undelivered events go with it. -/
def leave (b : Broadcaster) (id : Nat) : Broadcaster :=
  b.update id fun c => { c with listening := false, queue := [] }

def registeredCount (b : Broadcaster) : Nat := b.clients.countP (·.registered)

def broadcast (b : Broadcaster) (e : HotEvent) : Broadcaster :=
  ⟨b.clients.map (ReloadClient.send e)⟩

def broadcastTimes (b : Broadcaster) (e : HotEvent) : Nat → Broadcaster
  | 0 => b
  | n + 1 => (b.broadcast e).broadcastTimes e n

/-- What a listening client finds when it takes its events. -/
structure Delivery where
  events : List HotEvent
  /-- Whether no event can follow. -/
  closed : Bool
deriving DecidableEq, Repr

def take? (b : Broadcaster) (id : Nat) : Option Delivery × Broadcaster :=
  match b.clients.find? fun c => c.id = id ∧ c.listening with
  | none => (none, b)
  | some c => (some ⟨c.queue, !c.registered⟩, b.update id fun c => { c with queue := [] })

end Broadcaster

namespace ReloadClient

/-- How many events a client holds. -/
def capacity : Nat := 100

/-- Whether the next event has to wait for the client. -/
def isFull (c : ReloadClient) : Bool :=
  c.registered && c.listening && decide (capacity ≤ c.queue.length)

end ReloadClient

namespace Broadcaster

inductive Operation
  | register
  | unregister (id : Nat)
  | leave (id : Nat)
  | broadcast (e : HotEvent)
  | take (id : Nat)
deriving DecidableEq, Repr

inductive Answer
  | none
  | registered (id : Nat)
  | taken (id : Nat) (d : Delivery)
deriving DecidableEq, Repr

/-- Performs an operation as if every client had room. -/
def perform (b : Broadcaster) : Operation → Answer × Broadcaster
  | .register =>
    let (id, b) := b.register
    (.registered id, b)
  | .unregister id => (.none, b.unregister id)
  | .leave id => (.none, b.leave id)
  | .broadcast e => (.none, b.broadcast e)
  | .take id =>
    match b.take? id with
    | (some d, b) => (.taken id d, b)
    | (none, b) => (.none, b)

/-- Performs an operation; none when it has to wait. -/
def perform? (b : Broadcaster) (op : Operation) : Option (Answer × Broadcaster) :=
  match op with
  | .broadcast _ => if b.clients.any ReloadClient.isFull then none else some (b.perform op)
  | _ => some (b.perform op)

def run (b : Broadcaster) : List Operation → List Answer × Broadcaster
  | [] => ([], b)
  | op :: more =>
    let (answer, b) := b.perform op
    let (answers, b) := b.run more
    (answer :: answers, b)

/-- Performs operations one after the other; none when one of them has to wait. -/
def run? (b : Broadcaster) : List Operation → Option (List Answer × Broadcaster)
  | [] => some ([], b)
  | op :: more => do
    let (answer, b) ← b.perform? op
    let (answers, b) ← b.run? more
    return (answer :: answers, b)

/-- The registry knows the client with an id. -/
def knows (b : Broadcaster) (id : Nat) : Bool := b.clients.any fun c => c.id == id && c.registered

end Broadcaster

namespace Mock.HostMode

def text : HostMode → String
  | build => "build"
  | serve => "serve"

def ofText? (s : String) : Option HostMode := [build, serve].find? (·.text = s)

/-- A mode is its text, or an object of one member that has the text as its key and no value. -/
def ofJson? : Json → Option HostMode
  | .string s => ofText? s
  | .object [(key, .null)] => ofText? key
  | _ => none

end Mock.HostMode

namespace HotEvent

def toJson (e : HotEvent) : Json := .object [("type", .string e.kind)]

def ofKind? (kind : Json) : Option HotEvent :=
  match kind with
  | .string s => [fullReload].find? (·.kind = s)
  | _ => none

/-- An event is an object whose `type` names it, or an array of its name alone. -/
def ofJson? : Json → Option HotEvent
  | .object members => (members.lookup "type").bind ofKind?
  | .array [kind] => ofKind? kind
  | _ => none

end HotEvent

end Standin
