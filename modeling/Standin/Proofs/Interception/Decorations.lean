import Standin.Proofs.Invalidation.Seeds
import Standin.Session.Basic

namespace Standin.Module

variable {naming : Naming} {tree : FileTree}

/-- The normal form that a cache gives a stripped id. -/
def NormalCache.answer (naming : Naming) (tree : FileTree) (cache : NormalCache)
    (stripped : String) : String :=
  (cache.lookup stripped).getD (resolved naming tree stripped)

theorem normalizeCached_fst (cache : NormalCache) (id : String) :
    (normalizeCached naming tree cache id).1 = cache.answer naming tree (strip id) := by
  unfold normalizeCached NormalCache.answer
  split
  · next normal h => rw [h, Option.getD_some]
  · next h => rw [h, Option.getD_none]

/-- A cache answers as before when it grows, also when what it holds is out of date. -/
theorem answer_normalizeCached (cache : NormalCache) (id stripped : String) :
    (normalizeCached naming tree cache id).2.answer naming tree stripped =
      cache.answer naming tree stripped := by
  unfold normalizeCached
  split
  · rfl
  · next h =>
    unfold NormalCache.answer
    by_cases hSame : stripped = strip id
    · subst hSame
      rw [h, List.lookup_cons_self, Option.getD_some, Option.getD_none]
    · have hOther : (stripped == strip id) = false := by simpa using hSame
      rw [List.lookup_cons, hOther]

end Standin.Module

namespace Standin.Graph

open Standin.Module Standin.Mock

variable {naming : Naming} {tree : FileTree} {a b : String}

/-- Every entry has the answer that the cache gave at the start. -/
theorem entry_of_mem_indexIds {ids : List String} {cache : NormalCache} {e : IndexEntry}
    (h : e ∈ (indexIds naming tree ids cache).1) :
    e.normal = cache.answer naming tree (strip e.id) ∧ e.clean = clean e.normal := by
  induction ids generalizing cache with
  | nil => cases h
  | cons id more ih =>
    rcases List.mem_cons.mp h with rfl | hMore
    · exact ⟨normalizeCached_fst cache id, rfl⟩
    · obtain ⟨hNormal, hClean⟩ := ih hMore
      exact ⟨hNormal.trans (answer_normalizeCached cache id _), hClean⟩

theorem map_id_indexIds (ids : List String) (cache : NormalCache) :
    (indexIds naming tree ids cache).1.map (·.id) = ids := by
  induction ids generalizing cache with
  | nil => rfl
  | cons id more ih =>
    rw [indexIds]
    exact congrArg (id :: ·) (ih _)

/-- For every entry of one id there is an entry of the other that says the same. -/
def Follows (index : List IndexEntry) (a b : String) : Prop :=
  ∀ e ∈ index, e.id = a → ∃ f ∈ index, f.id = b ∧ f.normal = e.normal ∧ f.clean = e.clean

theorem follows_indexIds (h : strip a = strip b) {ids : List String} (hb : b ∈ ids)
    (cache : NormalCache) : Follows (indexIds naming tree ids cache).1 a b := by
  rintro e he rfl
  have hListed : b ∈ (indexIds naming tree ids cache).1.map (·.id) := by
    rwa [map_id_indexIds]
  obtain ⟨f, hf, rfl⟩ := List.mem_map.mp hListed
  obtain ⟨hNormal, hClean⟩ := entry_of_mem_indexIds he
  obtain ⟨kNormal, kClean⟩ := entry_of_mem_indexIds hf
  have hSame : f.normal = e.normal := by rw [hNormal, kNormal, h]
  exact ⟨f, hf, rfl, hSame, by rw [hClean, kClean, hSame]⟩

inductive Seeding
  | file (path : String)
  | registered (call : Call)

namespace Pass

def take (p : Pass) : Seeding → Pass
  | .file path => p.moduleAt path
  | .registered c => p.mockedModule c

/-- A pass told one thing after another, each in the file tree of its time. -/
def takeAll (p : Pass) : List (FileTree × Seeding) → Pass
  | [] => p
  | (tree, s) :: more => ({ p with tree }.take s).takeAll more

/-- The index says the same of both ids, and both are queued or neither. -/
structure Alike (p : Pass) (a b : String) : Prop where
  forward : Follows p.index a b
  backward : Follows p.index b a
  pending : a ∈ p.pending ↔ b ∈ p.pending

theorem alike_start (h : strip a = strip b) {g : Graph} (ha : a ∈ g.ids) (hb : b ∈ g.ids) :
    (start naming tree g).Alike a b where
  forward := follows_indexIds h hb []
  backward := follows_indexIds h.symm ha []
  pending := by
    have hNone : (start naming tree g).pending = [] := rfl
    simp [hNone]

theorem mem_pending_seed (p : Pass) (path : String) (accepts : String → IndexEntry → Bool)
    (x : String) : x ∈ (p.seed path accepts).pending ↔ x ∈ p.pending ∨
      ∃ e ∈ p.index, accepts (normalizeCached p.naming p.tree p.cache path).1 e = true ∧
        e.id = x := by
  have hPending : (p.seed path accepts).pending = enqueue p.pending
      ((p.index.filter (accepts (normalizeCached p.naming p.tree p.cache path).1)).map (·.id)) :=
    rfl
  rw [hPending, mem_enqueue]
  simp only [List.mem_map, List.mem_filter, and_assoc]

/-- A test that looks only at the normal form and the clean id accepts both ids or neither. -/
theorem Alike.seed {p : Pass} (h : p.Alike a b) (path : String)
    (accepts : String → IndexEntry → Bool) (hAccepts : ∀ target e f, f.normal = e.normal →
      f.clean = e.clean → accepts target f = accepts target e) :
    (p.seed path accepts).Alike a b where
  forward := h.forward
  backward := h.backward
  pending := by
    have hOne {a b : String} (hFollows : Follows p.index a b) {target : String}
        (hFound : ∃ e ∈ p.index, accepts target e = true ∧ e.id = a) :
        ∃ f ∈ p.index, accepts target f = true ∧ f.id = b := by
      obtain ⟨e, he, hAccepted, hId⟩ := hFound
      obtain ⟨f, hf, hOther, hNormal, hClean⟩ := hFollows e he hId
      exact ⟨f, hf, (hAccepts target e f hNormal hClean).trans hAccepted, hOther⟩
    rw [mem_pending_seed, mem_pending_seed]
    exact or_congr h.pending ⟨hOne h.forward, hOne h.backward⟩

theorem Alike.take {p : Pass} (h : p.Alike a b) (s : Seeding) : (p.take s).Alike a b := by
  cases s with
  | file path =>
    refine h.seed path (fun target e => e.normal = target) ?_
    intro target e f hNormal hClean
    rw [hNormal]
  | registered c =>
    refine h.seed c.path (fun target e => e.normal = target || e.clean = c.cleanId) ?_
    intro target e f hNormal hClean
    rw [hNormal, hClean]

theorem Alike.takeAll {p : Pass} (h : p.Alike a b) (steps : List (FileTree × Seeding)) :
    (p.takeAll steps).Alike a b := by
  induction steps generalizing p with
  | nil => exact h
  | cons step more ih =>
    obtain ⟨tree, s⟩ := step
    have hNow : Alike { p with tree } a b := ⟨h.forward, h.backward, h.pending⟩
    exact ih (hNow.take s)

end Pass

/-- What a manifest change concerns, it concerns under every id of the stripped form. -/
theorem IsSeed.of_strip (h : strip a = strip b) {g : Graph} (hb : b ∈ g.ids) {config : String}
    {old new : Manifest} (hSeed : IsSeed g naming tree config old new a) :
    IsSeed g naming tree config old new b := by
  have hNormal : Module.normalize naming tree a = Module.normalize naming tree b := by
    rw [Module.normalize, Module.normalize, h]
  refine ⟨hb, ?_⟩
  simpa only [IsAt, IsMockOf, hNormal] using hSeed.concerned

end Standin.Graph

namespace Standin.Automock

open Standin.Module

/-- The language of a module and the name in its map come from the stripped id. Only the text of a
refusal names the id itself. -/
theorem automock_congr {a b : String} (h : strip a = strip b) (code : String) (spy : Bool) :
    (automock code a spy).toOption = (automock code b spy).toOption := by
  have hProgram : (program code a).toOption = (program code b).toOption := by
    unfold program
    rw [h]
    split <;> rfl
  have hMocked (p : Script.Program) : ofProgram code a spy p = ofProgram code b spy p := by
    unfold ofProgram
    rw [h]
  unfold automock
  cases ha : program code a <;> cases hb : program code b <;>
    simp_all [Except.toOption, Except.map]

end Standin.Automock

namespace Standin.Interceptor

open Standin.Module Standin.Mock Standin.Graph

variable {a b : String}

theorem find?_congr (h : strip a = strip b) (rule : MatchRule) (naming : Naming) (tree : FileTree)
    (m : Manifest) : rule.find? naming tree m a = rule.find? naming tree m b := by
  unfold MatchRule.find? Module.normalize
  rw [h]

theorem load_congr (h : strip a = strip b) (i : Interceptor) (tree : FileTree) (m : Manifest) :
    i.load tree m a = i.load tree m b := by
  unfold load
  rw [find?_congr h]

theorem transform_congr (h : strip a = strip b) (i : Interceptor) (tree : FileTree) (m : Manifest)
    (code : String) : i.transform tree m code a = i.transform tree m code b := by
  unfold transform
  rw [find?_congr h]
  cases i.rule.find? i.naming tree m b with
  | none => rfl
  | some call =>
    have hMocked := Automock.automock_congr h code call.spy
    cases ha : automock code a call.spy <;> cases hb : automock code b call.spy <;>
      simp_all [Except.toOption]

/-- Two ids that strip to one text are answered alike by both hooks, down to the code that comes out
and its map; and a pass over a graph that has both queues both or neither, in the change of a
manifest and in every other run. -/
theorem decorations_irrelevant (h : strip a = strip b) :
    (∀ (i : Interceptor) (tree : FileTree) (m : Manifest), i.load tree m a = i.load tree m b) ∧
    (∀ (i : Interceptor) (tree : FileTree) (m : Manifest) (code : String),
      i.transform tree m code a = i.transform tree m code b) ∧
    (∀ code spy, (automock code a spy).toOption = (automock code b spy).toOption) ∧
    ∀ g : Graph, a ∈ g.ids → b ∈ g.ids → ∀ (naming : Naming) (tree : FileTree),
      (∀ steps, a ∈ ((Pass.start naming tree g).takeAll steps).pending ↔
        b ∈ ((Pass.start naming tree g).takeAll steps).pending) ∧
      ∀ (config : String) (old new : Manifest),
        a ∈ (changePass g naming tree config old new).pending ↔
          b ∈ (changePass g naming tree config old new).pending := by
  refine ⟨load_congr h, transform_congr h, Automock.automock_congr h,
    fun g ha hb naming tree => ⟨fun steps => ?_, fun config old new => ?_⟩⟩
  · exact ((Pass.alike_start h ha hb).takeAll steps).pending
  · rw [mem_changePass_pending, mem_changePass_pending]
    exact ⟨fun hSeed => hSeed.of_strip h hb, fun hSeed => hSeed.of_strip h.symm ha⟩

/-- A module under a marked id with a query, and under one with backslashes and a hash. -/
def twoVariants : Graph :=
  (Graph.empty.addModule "\x00/p/src/api.ts?v=1").addModule "\\p\\src\\api.ts#x"

def apiCall : Call := { specifier := "./api", path := "/p/src/api.ts" }

/-- Both variants get the same stand-ins, and both are queued for their call. -/
theorem twoVariants_alike :
    (∃ code map, Interceptor.transform ⟨.cleanIdentity, .followingLinks⟩ .empty
        (Manifest.ofCalls [apiCall]).1 "export const a = 1;" "\\p\\src\\api.ts#x" =
      .automocked code map) ∧
    (∀ code, Interceptor.transform ⟨.cleanIdentity, .followingLinks⟩ .empty
        (Manifest.ofCalls [apiCall]).1 code "\x00/p/src/api.ts?v=1" =
      Interceptor.transform ⟨.cleanIdentity, .followingLinks⟩ .empty
        (Manifest.ofCalls [apiCall]).1 code "\\p\\src\\api.ts#x") ∧
    "\\p\\src\\api.ts#x" ∈ ((Pass.start .followingLinks .empty twoVariants).takeAll
      [(.empty, .registered apiCall)]).pending := by
  have hStrip : strip "\x00/p/src/api.ts?v=1" = strip "\\p\\src\\api.ts#x" := by decide +kernel
  obtain ⟨-, hTransform, -, hPasses⟩ := decorations_irrelevant hStrip
  have hAutomocked : (match Interceptor.transform ⟨.cleanIdentity, .followingLinks⟩ .empty
      (Manifest.ofCalls [apiCall]).1 "export const a = 1;" "\x00/p/src/api.ts?v=1" with
    | .automocked .. => true
    | _ => false) = true := by decide +kernel
  refine ⟨?_, hTransform _ _ _, ?_⟩
  · rw [← hTransform]
    split at hAutomocked
    · next code map hFound => exact ⟨code, map, hFound⟩
    · cases hAutomocked
  · obtain ⟨hSteps, -⟩ := hPasses twoVariants (by decide +kernel) (by decide +kernel)
      .followingLinks .empty
    exact (hSteps _).mp (by decide +kernel)

end Standin.Interceptor
