import Standin.Proofs.Session.Runs
import Standin.Session.Overlap

namespace Standin.Overlap

open Mock Extraction.Setting

/-- All that a step can do, and when. -/
inductive Move (o : Overlap) : Action → Overlap → Prop
  | write (path : String) (tree : FileTree) :
    Move o (.write path tree) { o with tree, owed := path :: o.owed }
  | ignored {path : String} (hPath : o.session.watchTargets.isRelevant path = false) :
    Move o (.note path) { o with owed := o.owed.erase path }
  | noted {path : String} (hPath : o.session.watchTargets.isRelevant path = true) :
    Move o (.note path)
      { o with
        owed := o.owed.erase path, session := o.session.enter
        noted := o.noted ++ [⟨path, o.session.manifest, o.version⟩] }
  | extracted {i : Nat} {n : Noted} {e : Extraction} (hn : o.noted[i]? = some n)
      (he : Standin.extract o.setting = .ok e) :
    Move o (.extract i)
      { o with
        noted := o.noted.eraseIdx i, turns := o.turns + 1
        found := o.found ++ [⟨n, e.manifest, o.turns + 1⟩] }
  | unread {i : Nat} {n : Noted} {fault : Fault} (hn : o.noted[i]? = some n)
      (he : Standin.extract o.setting = .error fault) :
    Move o (.extract i) { o with noted := o.noted.eraseIdx i, session := o.session.leave }
  | settled {i : Nat} {f : Found} (hf : o.found[i]? = some f) :
    Move o (.settle i)
      { o with
        session := (o.settling f).session, server := (o.settling f).server
        found := o.found.eraseIdx i, version := o.version + 1, settled := f.turn }
  | absent {a : Action} (hSame : o.step a = o) : Move o a o

theorem move_step (o : Overlap) (a : Action) : Move o a (o.step a) := by
  cases a with
  | write path tree => exact .write path tree
  | note path =>
    cases hPath : o.session.watchTargets.isRelevant path with
    | false =>
      rw [step, note, hPath]
      exact .ignored hPath
    | true =>
      rw [step, note, hPath]
      exact .noted hPath
  | extract i =>
    cases hn : o.noted[i]? with
    | none =>
      have hSame : o.step (.extract i) = o := by rw [step, extract, hn]
      rw [hSame]
      exact .absent hSame
    | some n =>
      rw [step, extract, hn]
      dsimp only
      split
      · next e he => exact .extracted hn he
      · next fault he => exact .unread hn he
  | settle i =>
    cases hf : o.found[i]? with
    | none =>
      have hSame : o.step (.settle i) = o := by rw [step, settle, hf]
      rw [hSame]
      exact .absent hSame
    | some f =>
      rw [step, settle, hf]
      exact .settled hf

theorem run_keeps {P : Overlap → Prop} (hStep : ∀ o a, P o → P (o.step a)) {o : Overlap} (h : P o)
    (acts : List Action) : P (o.run acts) := by
  induction acts generalizing o with
  | nil => exact h
  | cons a more ih => exact ih (hStep o a h)

/-- An answer whose steps nothing comes between is the answer to one change. -/
theorem run_alone (w : Workspace) (path : String) :
    ((start w).run [.note path, .extract 0, .settle 0]).toWorkspace =
      (w.perform (.change path)).2 := by
  cases hPath : w.session.watchTargets.isRelevant path with
  | false =>
    rw [Workspace.perform_irrelevant w hPath]
    simp [run, step, note, extract, settle, start, hPath]
  | true =>
    have hEnter : ({ w with session := w.session.enter } : Workspace).setting = w.setting := rfl
    rw [Workspace.perform_change w hPath]
    cases hExtract : Standin.extract w.setting with
    | error fault => simp [run, step, note, extract, settle, start, hPath, hEnter, hExtract]
    | ok e =>
      simp [run, step, note, extract, settle, settling, start, hPath, hEnter, hExtract]

def configured (config : String) (names : List String) : FileTree :=
  .dir (("p.js", .file config.toUTF8.toList) :: names.map fun name => (name, .file []))

def built (tree : FileTree) : Workspace :=
  let options : Options := { entryPath := "/p.js", preserveLinks := true }
  let w : Workspace := ⟨tree, { options, root := "/", mode := .serve }, {}⟩
  (w.perform .buildStart).2

end Standin.Overlap
