import Mathlib.Data.List.Nodup
import Standin.Wire

namespace Standin

open Broadcaster

namespace ReloadClient

/-- What an operation makes of a client that was registered before it. -/
def after (c : ReloadClient) : Operation → ReloadClient
  | .register => c
  | .unregister id => if c.id = id then { c with registered := false } else c
  | .leave id => if c.id = id then { c with listening := false, queue := [] } else c
  | .broadcast e => c.send e
  | .take id => if c.id = id ∧ c.listening then { c with queue := [] } else c

def afterAll (c : ReloadClient) (ops : List Operation) : ReloadClient := ops.foldl after c

/-- The events that a client takes in a run of operations. -/
def takenIn (c : ReloadClient) : List Operation → List HotEvent
  | [] => []
  | op :: more =>
    (if op = .take c.id ∧ c.listening then c.queue else []) ++ (c.after op).takenIn more

variable {c : ReloadClient}

@[simp] theorem id_send (e : HotEvent) : (c.send e).id = c.id := by
  unfold send
  split
  · rfl
  · split <;> rfl

@[simp] theorem id_after (op : Operation) : (c.after op).id = c.id := by
  cases op with
  | register => rfl
  | broadcast e => exact id_send e
  | _ =>
    simp only [after]
    split <;> rfl

end ReloadClient

namespace Broadcaster

def sent (ops : List Operation) : List HotEvent :=
  ops.filterMap fun
    | .broadcast e => some e
    | _ => none

/-- The events that the client with an id took. -/
def takenBy (id : Nat) (answers : List Answer) : List HotEvent :=
  answers.flatMap fun
    | .taken other d => if other = id then d.events else []
    | _ => []

def idsOf (answers : List Answer) : List Nat :=
  answers.filterMap fun
    | .registered id => some id
    | _ => none

/-- A broadcast comes after the client with an id went away. -/
def Missed (id : Nat) (ops : List Operation) : Prop :=
  ∃ front e behind, ops = front ++ .broadcast e :: behind ∧ .leave id ∈ front

theorem mem_sent {e : HotEvent} {ops : List Operation} : e ∈ sent ops ↔ .broadcast e ∈ ops := by
  simp only [sent, List.mem_filterMap]
  constructor
  · rintro ⟨op, hOp, hSent⟩
    split at hSent
    · cases hSent
      exact hOp
    · cases hSent
  · exact fun hOp => ⟨_, hOp, rfl⟩

theorem missed_cons {id : Nat} {op : Operation} {more : List Operation} :
    Missed id (op :: more) ↔ (op = .leave id ∧ sent more ≠ []) ∨ Missed id more := by
  constructor
  · rintro ⟨front, e, behind, hOps, hLeave⟩
    cases front with
    | nil => cases hLeave
    | cons first front =>
      obtain ⟨rfl, rfl⟩ := List.cons.inj hOps
      cases hLeave with
      | head =>
        have hSent : e ∈ sent (front ++ .broadcast e :: behind) := mem_sent.mpr (by simp)
        exact .inl ⟨rfl, List.ne_nil_of_mem hSent⟩
      | tail _ hLeave => exact .inr ⟨front, e, behind, rfl, hLeave⟩
  · rintro (⟨rfl, hSent⟩ | ⟨front, e, behind, rfl, hLeave⟩)
    · obtain ⟨e, hMem⟩ := List.exists_mem_of_ne_nil _ hSent
      obtain ⟨front, behind, rfl⟩ := List.append_of_mem (mem_sent.mp hMem)
      exact ⟨.leave id :: front, e, behind, rfl, List.mem_cons_self⟩
    · exact ⟨op :: front, e, behind, rfl, List.mem_cons_of_mem _ hLeave⟩

end Broadcaster

namespace ReloadClient

variable {c : ReloadClient} {ops : List Operation}

theorem listening_afterAll (c : ReloadClient) (ops : List Operation) :
    (c.afterAll ops).listening = true ↔ c.listening = true ∧ .leave c.id ∉ ops := by
  induction ops generalizing c with
  | nil => simp [afterAll]
  | cons op more ih =>
    have hOne : (c.after op).listening = true ↔ c.listening = true ∧ op ≠ .leave c.id := by
      cases op with
      | register => simp [after]
      | broadcast e =>
        simp only [after, send]
        split
        · simp
        · split <;> simp
      | leave id => simp only [after]; grind
      | unregister id => simp only [after]; grind
      | take id => simp only [after]; grind
    rw [afterAll, List.foldl_cons, ← afterAll, ih, hOne, id_after, List.mem_cons]
    grind

/-- The registry keeps a client until it unregisters or a broadcast finds that it listens no
more. -/
theorem registered_afterAll (c : ReloadClient) (ops : List Operation) :
    (c.afterAll ops).registered = true ↔ c.registered = true ∧ .unregister c.id ∉ ops ∧
      (c.listening = true ∨ sent ops = []) ∧ ¬Missed c.id ops := by
  induction ops generalizing c with
  | nil =>
    have hNone : ¬Missed c.id [] := by
      rintro ⟨front, e, behind, hOps, -⟩
      simp at hOps
    simp [afterAll, sent, hNone]
  | cons op more ih =>
    rw [afterAll, List.foldl_cons, ← afterAll, ih, id_after, missed_cons, List.mem_cons, not_or]
    clear ih
    cases op with
    | register => simp [after, sent]
    | leave id => by_cases hSame : c.id = id <;> simp [after, hSame, sent] <;> grind
    | unregister id => by_cases hSame : c.id = id <;> simp [after, hSame, sent]
    | broadcast e =>
      cases hRegistered : c.registered <;> cases hListening : c.listening <;>
        simp [after, send, hRegistered, hListening, sent]
    | take id => by_cases hSame : c.id = id ∧ c.listening <;> simp [after, hSame, sent]

/-- What a client that goes on listening takes, and what it can still take, is what it could take
before and all that is sent until it unregisters. -/
theorem takenIn_append_queue (hListening : c.listening = true) (hStays : .leave c.id ∉ ops) :
    c.takenIn ops ++ (c.afterAll ops).queue =
      c.queue ++ if c.registered then sent (ops.takeWhile (· ≠ .unregister c.id)) else [] := by
  induction ops generalizing c with
  | nil => simp [takenIn, afterAll, sent]
  | cons op more ih =>
    rw [List.mem_cons, not_or] at hStays
    obtain ⟨hOp, hMore⟩ := hStays
    have hNext : (c.after op).listening = true :=
      (listening_afterAll c [op]).mpr ⟨hListening, by simpa using hOp⟩
    have hRest := ih hNext (by rwa [id_after])
    rw [id_after] at hRest
    rw [takenIn, afterAll, List.foldl_cons, ← afterAll, List.append_assoc, hRest]
    cases op with
    | register => simp [after, sent]
    | leave id =>
      have hOther : c.id ≠ id := fun hSame => hOp (by rw [hSame])
      simp [after, hOther, sent]
    | unregister id =>
      by_cases hSame : c.id = id
      · simp [after, hSame, sent]
      · have hOther : id ≠ c.id := fun h => hSame h.symm
        simp [after, hSame, hOther, sent]
    | broadcast e =>
      cases hRegistered : c.registered <;> simp [after, send, hRegistered, hListening, sent]
    | take id =>
      by_cases hSame : c.id = id
      · simp [after, hSame, hListening, sent]
      · have hOther : id ≠ c.id := fun h => hSame h.symm
        simp [after, hSame, hOther, sent]

end ReloadClient

namespace Broadcaster

/-- Clients stand in the order of their ids, which are counted from zero. -/
def Numbered (b : Broadcaster) : Prop :=
  ∀ (n : Nat) (c : ReloadClient), b.clients[n]? = some c → c.id = n

variable {b : Broadcaster} {ops : List Operation} {n : Nat} {c : ReloadClient}

theorem numbered_empty : Numbered {} := by
  intro n c h
  cases h

theorem Numbered.get (h : b.Numbered) (hMem : c ∈ b.clients) : b.clients[c.id]? = some c := by
  obtain ⟨n, hClient⟩ := List.mem_iff_getElem?.mp hMem
  rw [h n c hClient, hClient]

theorem Numbered.ids (h : b.Numbered) : b.clients.map (·.id) = List.range b.clients.length := by
  apply List.ext_getElem?
  intro n
  rw [List.getElem?_map]
  cases hClient : b.clients[n]? with
  | none =>
    have hLength := List.getElem?_eq_none_iff.mp hClient
    rw [List.getElem?_eq_none_iff.mpr (by simpa using hLength)]
    rfl
  | some c =>
    obtain ⟨hLength, -⟩ := List.getElem?_eq_some_iff.mp hClient
    rw [List.getElem?_range hLength, Option.map_some, h n c hClient]

/-- A client takes its events if it listens. -/
theorem Numbered.find? (h : b.Numbered) (n : Nat) :
    b.clients.find? (fun c => c.id = n ∧ c.listening) = b.clients[n]?.filter (·.listening) := by
  cases hFind : b.clients.find? (fun c => c.id = n ∧ c.listening) with
  | none =>
    have hNone := List.find?_eq_none.mp hFind
    cases hClient : b.clients[n]? with
    | none => rfl
    | some c =>
      have hDeaf : ¬(c.id = n ∧ c.listening = true) := by
        simpa using hNone c (List.mem_of_getElem? hClient)
      rw [Option.filter_some, if_neg fun hListening => hDeaf ⟨h n c hClient, hListening⟩]
  | some c =>
    have hFound : c.id = n ∧ c.listening = true := by simpa using List.find?_some hFind
    rw [← hFound.1, h.get (List.mem_of_find?_eq_some hFind), Option.filter_some,
      if_pos hFound.2]

theorem take?_of_numbered (h : b.Numbered) (n : Nat) :
    (b.take? n).1 = (b.clients[n]?.filter (·.listening)).map fun c => ⟨c.queue, !c.registered⟩ := by
  rw [take?, h.find?]
  cases b.clients[n]?.filter (·.listening) <;> rfl

/-- An operation acts on each client by itself, and a registration adds one. -/
theorem clients_perform (h : b.Numbered) (op : Operation) : (b.perform op).2.clients =
    b.clients.map (·.after op) ++ if op = .register then [{ id := b.clients.length }] else [] := by
  cases op with
  | register =>
    have hSame : b.clients.map (·.after .register) = b.clients := List.map_id _
    rw [hSame]
    rfl
  | take id =>
    rw [if_neg Operation.noConfusion, List.append_nil, perform, take?, h.find?]
    cases hClient : b.clients[id]?.filter (·.listening) with
    | none =>
      have hSame : ∀ c ∈ b.clients, c.after (.take id) = c := by
        intro c hc
        refine if_neg fun hTakes => ?_
        rw [← hTakes.1, h.get hc, Option.filter_some, if_pos hTakes.2] at hClient
        cases hClient
      exact ((List.map_congr_left hSame).trans (List.map_id _)).symm
    | some found =>
      refine List.map_congr_left fun c hc => ?_
      by_cases hSame : c.id = id
      · rw [← hSame, h.get hc] at hClient
        obtain ⟨hFound, hListening⟩ := Option.filter_eq_some_iff.mp hClient
        cases hFound
        simp [ReloadClient.after, hSame, hListening]
      · simp [ReloadClient.after, hSame]
  | _ =>
    rw [if_neg Operation.noConfusion, List.append_nil]
    rfl

theorem length_perform (h : b.Numbered) (op : Operation) : (b.perform op).2.clients.length =
    b.clients.length + if op = .register then 1 else 0 := by
  rw [clients_perform h, List.length_append, List.length_map]
  split <;> rfl

theorem getElem?_perform (h : b.Numbered) (op : Operation) (hClient : b.clients[n]? = some c) :
    (b.perform op).2.clients[n]? = some (c.after op) := by
  obtain ⟨hLength, -⟩ := List.getElem?_eq_some_iff.mp hClient
  rw [clients_perform h, List.getElem?_append_left (by simpa using hLength), List.getElem?_map,
    hClient, Option.map_some]

theorem numbered_perform (h : b.Numbered) (op : Operation) : (b.perform op).2.Numbered := by
  intro n c hClient
  cases hBefore : b.clients[n]? with
  | some d =>
    rw [getElem?_perform h op hBefore] at hClient
    cases hClient
    rw [ReloadClient.id_after, h n d hBefore]
  | none =>
    -- what was not there before is the client that registers
    have hLength := List.getElem?_eq_none_iff.mp hBefore
    rw [clients_perform h, List.getElem?_append_right (by simpa using hLength)] at hClient
    split at hClient
    · obtain ⟨hPlace, hNew⟩ := List.getElem?_eq_some_iff.mp hClient
      have hSame : n = b.clients.length := by
        simp only [List.length_map, List.length_singleton] at hPlace
        omega
      rw [← hNew, List.getElem_singleton, hSame]
    · cases hClient

theorem run_cons (b : Broadcaster) (op : Operation) (more : List Operation) :
    b.run (op :: more) =
      ((b.perform op).1 :: ((b.perform op).2.run more).1, ((b.perform op).2.run more).2) := rfl

theorem run_append (b : Broadcaster) (ops more : List Operation) : b.run (ops ++ more) =
    ((b.run ops).1 ++ ((b.run ops).2.run more).1, ((b.run ops).2.run more).2) := by
  induction ops generalizing b with
  | nil => rfl
  | cons op rest ih => rw [List.cons_append, run_cons, ih, run_cons]; rfl

theorem numbered_run (h : b.Numbered) (ops : List Operation) : (b.run ops).2.Numbered := by
  induction ops generalizing b with
  | nil => exact h
  | cons op more ih => exact ih (numbered_perform h op)

theorem length_run (h : b.Numbered) (ops : List Operation) :
    (b.run ops).2.clients.length = b.clients.length + ops.count .register := by
  induction ops generalizing b with
  | nil => rfl
  | cons op more ih =>
    rw [run_cons, ih (numbered_perform h op), length_perform h, List.count_cons]
    simp only [beq_iff_eq]
    omega

theorem getElem?_run (h : b.Numbered) (ops : List Operation) (hClient : b.clients[n]? = some c) :
    (b.run ops).2.clients[n]? = some (c.afterAll ops) := by
  induction ops generalizing b c with
  | nil => exact hClient
  | cons op more ih => exact ih (numbered_perform h op) (getElem?_perform h op hClient)

theorem length_answers (b : Broadcaster) (ops : List Operation) :
    (b.run ops).1.length = ops.length := by
  induction ops generalizing b with
  | nil => rfl
  | cons op more ih => rw [run_cons, List.length_cons, ih, List.length_cons]

theorem answer_take (h : b.Numbered) (id : Nat) : (b.perform (.take id)).1 =
    match b.clients[id]?.filter (·.listening) with
    | some c => .taken id ⟨c.queue, !c.registered⟩
    | none => .none := by
  rw [perform, take?, h.find?]
  cases b.clients[id]?.filter (·.listening) <;> rfl

/-- Ids are given out in order. -/
theorem idsOf_run (h : b.Numbered) (ops : List Operation) :
    idsOf (b.run ops).1 = List.range' b.clients.length (ops.count .register) := by
  induction ops generalizing b with
  | nil => rfl
  | cons op more ih =>
    have hRest := ih (numbered_perform h op)
    rw [length_perform h] at hRest
    cases op with
    | register =>
      have hFirst : idsOf (b.run (.register :: more)).1 =
          b.clients.length :: idsOf ((b.perform .register).2.run more).1 := rfl
      rw [hFirst, hRest, List.count_cons_self, List.range'_succ]
      rfl
    | take id =>
      rw [List.count_cons_of_ne Operation.noConfusion, run_cons, answer_take h]
      split <;> exact hRest
    | _ =>
      rw [List.count_cons_of_ne Operation.noConfusion]
      exact hRest

theorem takenBy_append (id : Nat) (front behind : List Answer) :
    takenBy id (front ++ behind) = takenBy id front ++ takenBy id behind := List.flatMap_append

/-- What a client takes in one operation. -/
theorem takenBy_perform (h : b.Numbered) (op : Operation) (hClient : b.clients[n]? = some c) :
    takenBy n [(b.perform op).1] = if op = .take n ∧ c.listening then c.queue else [] := by
  cases op with
  | take id =>
    rw [answer_take h]
    by_cases hSame : id = n
    · subst hSame
      rw [hClient]
      cases hListening : c.listening <;> simp [Option.filter, hListening, takenBy]
    · have hOther : ¬(Operation.take id = .take n ∧ c.listening = true) := by simp [hSame]
      rw [if_neg hOther]
      split <;> simp [takenBy, hSame]
  | _ => rfl

theorem takenBy_run (h : b.Numbered) (ops : List Operation) (hClient : b.clients[n]? = some c) :
    takenBy n (b.run ops).1 = c.takenIn ops := by
  induction ops generalizing b c with
  | nil => rfl
  | cons op more ih =>
    have hFirst := takenBy_perform h op hClient
    have hRest := ih (numbered_perform h op) (getElem?_perform h op hClient)
    rw [run_cons, ← List.singleton_append, takenBy_append, hFirst, hRest,
      ReloadClient.takenIn, h n c hClient]

/-- A client takes nothing before it is registered. -/
theorem takenBy_of_later (h : b.Numbered) (ops : List Operation)
    (hLater : (b.run ops).2.clients.length ≤ n) : takenBy n (b.run ops).1 = [] := by
  induction ops generalizing b with
  | nil => rfl
  | cons op more ih =>
    have hRest := ih (numbered_perform h op) hLater
    rw [length_run h] at hLater
    rw [run_cons, ← List.singleton_append, takenBy_append, hRest, List.append_nil]
    cases op with
    | take id =>
      rw [answer_take h]
      cases hClient : b.clients[id]? with
      | none => rfl
      | some c =>
        obtain ⟨hLength, -⟩ := List.getElem?_eq_some_iff.mp hClient
        have hOther : id ≠ n := by omega
        split <;> simp [takenBy, hOther]
    | _ => rfl

theorem knows_iff (h : b.Numbered) (n : Nat) :
    b.knows n = true ↔ ∃ c, b.clients[n]? = some c ∧ c.registered = true := by
  simp only [knows, List.any_eq_true, Bool.and_eq_true, beq_iff_eq]
  constructor
  · rintro ⟨c, hMem, hId, hRegistered⟩
    exact ⟨c, hId ▸ h.get hMem, hRegistered⟩
  · rintro ⟨c, hClient, hRegistered⟩
    exact ⟨c, List.mem_of_getElem? hClient, h n c hClient, hRegistered⟩

theorem registeredCount_eq (h : b.Numbered) :
    b.registeredCount = (List.range b.clients.length).countP b.knows := by
  rw [← h.ids, List.countP_map]
  refine List.countP_congr fun c hc => ?_
  have hKnows := knows_iff h c.id
  rw [h.get hc] at hKnows
  simpa using hKnows.symm

def Roomy (b : Broadcaster) (ops : List Operation) : Prop :=
  ∀ n ≤ ops.length, ∀ c ∈ (b.run (ops.take n)).2.clients, c.queue.length ≤ ReloadClient.capacity

theorem Roomy.tail {op : Operation} {more : List Operation} (h : b.Roomy (op :: more)) :
    (b.perform op).2.Roomy more := by
  intro n hn c hc
  exact h (n + 1) (by simpa using hn) c hc

/-- An event for a full client is one more than it holds. -/
theorem Roomy.perform? {op : Operation} {more : List Operation} (h : b.Roomy (op :: more)) :
    b.perform? op = some (b.perform op) := by
  cases op with
  | broadcast e =>
    refine if_neg fun hFull => ?_
    obtain ⟨c, hc, hFull⟩ := List.any_eq_true.mp hFull
    simp only [ReloadClient.isFull, Bool.and_eq_true, decide_eq_true_eq] at hFull
    obtain ⟨⟨hRegistered, hListening⟩, hLength⟩ := hFull
    have hSent := h 1 (by simp) (c.send e) (List.mem_map_of_mem hc)
    simp only [ReloadClient.send, hRegistered, hListening, Bool.not_true, Bool.false_eq_true,
      ↓reduceIte, List.length_append, List.length_singleton] at hSent
    omega
  | _ => rfl

/-- Where clients have room no operation waits. -/
theorem Roomy.run? (h : b.Roomy ops) : b.run? ops = some (b.run ops) := by
  induction ops generalizing b with
  | nil => rfl
  | cons op more ih =>
    rw [Broadcaster.run?, h.perform?]
    simp only [bind, Option.bind, ih h.tail]
    rfl

/-- What the client with an id gets of the operations behind its registration. -/
structure Served (after : List Operation) (id : Nat) (answers : List Answer) (b : Broadcaster) :
    Prop where
  /-- A client that stays has taken, or can still take, what is sent until it unregisters. -/
  delivered : .leave id ∉ after → ∃ d, (b.take? id).1 = some d ∧
    takenBy id answers ++ d.events = sent (after.takeWhile (· ≠ .unregister id)) ∧
    (d.closed = true ↔ .unregister id ∈ after)
  known : b.knows id = true ↔ .unregister id ∉ after ∧ ¬Missed id after

theorem served_of_run (before after : List Operation) :
    let start := (run {} before).2
    let id := start.clients.length
    let ops := before ++ .register :: after
    (run {} ops).1[before.length]? = some (.registered id) ∧
      Served after id (run {} ops).1 (run {} ops).2 := by
  intro start id ops
  have hStart : start.Numbered := numbered_run numbered_empty before
  have hNumbered := numbered_run numbered_empty ops
  have hRun : run {} ops = ((run {} before).1 ++ (start.run (.register :: after)).1,
      (start.run (.register :: after)).2) := run_append ..
  have hNew : (start.perform .register).2.clients[id]? = some { id } :=
    List.getElem?_concat_length
  have hAfter := numbered_perform hStart .register
  have hClient : (run {} ops).2.clients[id]? = some (ReloadClient.afterAll { id } after) := by
    rw [hRun]
    exact getElem?_run hAfter after hNew
  have hTaken : takenBy id (run {} ops).1 = ReloadClient.takenIn { id } after := by
    have hNone : takenBy id (run {} before).1 = [] :=
      takenBy_of_later numbered_empty before (Nat.le_refl _)
    rw [hRun, takenBy_append, hNone, List.nil_append]
    exact takenBy_run hAfter after hNew
  refine ⟨?_, fun hStays => ?_, ?_⟩
  · rw [hRun, List.getElem?_append_right (Nat.le_of_eq (length_answers ..)), length_answers,
      Nat.sub_self]
    rfl
  · have hListening := (ReloadClient.listening_afterAll { id } after).mpr ⟨rfl, hStays⟩
    have hKept := ReloadClient.registered_afterAll { id } after
    have hMissed : ¬Missed id after := by
      rintro ⟨front, e, behind, rfl, hLeave⟩
      exact hStays (List.mem_append_left _ hLeave)
    refine ⟨⟨(ReloadClient.afterAll { id } after).queue,
      !(ReloadClient.afterAll { id } after).registered⟩, ?_, ?_, ?_⟩
    · rw [take?_of_numbered hNumbered, hClient, Option.filter_some, if_pos hListening]
      rfl
    · rw [hTaken]
      exact ReloadClient.takenIn_append_queue rfl hStays
    · simp only [Bool.not_eq_true', ← Bool.not_eq_true, hKept]
      simp [hMissed]
  · rw [knows_iff hNumbered, hClient]
    simpa using ReloadClient.registered_afterAll { id } after

/-- A run in which clients have room never waits. No id is given out twice. The client of each
registration has taken, or finds in its queue, one event for each broadcast up to its
unregistration, in their order, and its queue is closed exactly if it was unregistered. The registry
counts the clients that neither were unregistered nor went away before a broadcast. -/
theorem run_delivers (ops : List Operation) (h : Roomy {} ops) :
    ∃ answers b, run? {} ops = some (answers, b) ∧ (idsOf answers).Nodup ∧
      (∀ before after, ops = before ++ .register :: after →
        ∃ id, answers[before.length]? = some (.registered id) ∧ Served after id answers b) ∧
      b.registeredCount = (idsOf answers).countP b.knows := by
  refine ⟨_, _, h.run?, ?_, fun before after hOps => ⟨_, hOps ▸ served_of_run before after⟩, ?_⟩
  · rw [idsOf_run numbered_empty]
    exact List.nodup_range'
  · rw [registeredCount_eq (numbered_run numbered_empty ops), length_run numbered_empty,
      idsOf_run numbered_empty, List.range_eq_range']
    simp

/-- A client fills up, takes all, gets one more event and unregisters; another one goes away. -/
def filledUp : List Operation :=
  .register :: List.replicate 100 (.broadcast .fullReload) ++
    [.take 0, .register, .broadcast .fullReload, .leave 1, .unregister 0, .broadcast .fullReload]

theorem filledUp_delivered :
    Roomy {} filledUp ∧ ∃ answers b, run? {} filledUp = some (answers, b) ∧
      (∃ d, (b.take? 0).1 = some d ∧ d.closed = true ∧
        takenBy 0 answers ++ d.events = List.replicate 101 .fullReload) ∧
      b.registeredCount = 0 := by
  have hRoomy : Roomy {} filledUp := by
    unfold Roomy
    decide +kernel
  obtain ⟨answers, b, hRun, -, hServed, hCount⟩ := run_delivers filledUp hRoomy
  have hIds : (run? {} filledUp).map (fun r => (r.1[0]?, r.1[102]?, idsOf r.1)) =
      some (some (.registered 0), some (.registered 1), [0, 1]) := by decide +kernel
  rw [hRun, Option.map_some, Option.some_inj, Prod.mk.injEq, Prod.mk.injEq] at hIds
  obtain ⟨hFirst, hSecond, hIds⟩ := hIds
  obtain ⟨first, hAnswer, hGets⟩ := hServed [] _ rfl
  obtain ⟨second, hAnswer', hGets'⟩ := hServed (.register :: List.replicate 100
    (.broadcast .fullReload) ++ [.take 0]) _ rfl
  obtain rfl : first = 0 := by simpa using hAnswer.symm.trans hFirst
  obtain rfl : second = 1 := by simpa using hAnswer'.symm.trans hSecond
  obtain ⟨d, hTake, hEvents, hClosed⟩ := hGets.delivered (by decide +kernel)
  have hFirstGone : b.knows 0 = false := by
    rw [← Bool.not_eq_true, hGets.known]
    exact fun hKept => hKept.1 (by decide +kernel)
  have hSecondGone : b.knows 1 = false := by
    rw [← Bool.not_eq_true, hGets'.known]
    exact fun hKept => hKept.2 ⟨[.broadcast .fullReload, .leave 1, .unregister 0], .fullReload, [],
      rfl, by decide⟩
  refine ⟨hRoomy, answers, b, hRun, ⟨d, hTake, hClosed.mpr (by decide +kernel), ?_⟩, ?_⟩
  · rw [hEvents]
    decide +kernel
  · rw [hCount, hIds]
    simp [hFirstGone, hSecondGone]

end Broadcaster

end Standin
