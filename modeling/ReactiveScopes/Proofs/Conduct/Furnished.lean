import ReactiveScopes.Proofs.Conduct.Passes

/-!
# What the library is made of

The operations of the library that touch a session themselves. A discipline that they keep is kept by everything that
engines, tasks and client code do, as the modules after this one show. Following the machine is such a discipline.
-/
namespace ReactiveScopes

open Eff

variable {κ α : Type} {e : Nat}

/-- The operations that touch a session have the property. -/
class Discipline.Furnished (D : Discipline κ) : Prop extends D.Composes where
  call (v : Value) (args : List Value) : D.Holds (callValue v args)
  build {α : Type} (m : Build α) : D.Holds (Eff.build m)
  /-- A change that is on no engine's side. -/
  aside {f : Session κ → Session κ} (h : ∀ w e, (f w).board e = w.board e) : D.Holds (update f)
  close {c : Closure} (h : ∀ x key, c ≠ .pass x key) : D.Holds (Eff.close c)
  create (x : Nat) (y : Engine) : D.Holds (do log (.created x); modifyEngine x fun _ => y)
  post (x : Nat) (f : Value) : D.Holds (Queue.post x f)
  runPending (x : Nat) : D.Holds (Queue.runPending x)
  request (x : Nat) (key : Value) : D.Holds (Scheduler.request x key)
  flush (x : Nat) (key : Value) : D.Holds (Scheduler.flush x key)
  force (x : Nat) (key : Value) : D.Holds (Scheduler.force x key)
  register (x : Nat) (key f : Value) : D.Holds (Scheduler.register x key f)
  removeWatcher (x : Nat) (key f : Value) : D.Holds (Scheduler.modify x fun s => s.removeWatcher key f)
  forget (x : Nat) (key : Value) : D.Holds (Scheduler.forget x key)
  named (x : Nat) (key : Value) : D.Holds (Scheduler.named x key)
  pause (app : Value) : D.Holds (App.pause app)
  resume (app : Value) : D.Holds (App.resume app)
  /-- A change of the loops that run. -/
  loops {f : Session κ → Session κ}
    (h : ∀ w, ∃ l o n, f w = { w with loop := l, outer := o, loops := n } ∧
      Shift (w.loop :: w.outer).reduceOption w.loops (l :: o).reduceOption n) : D.Holds (update f)
  /-- A loop starts, under the next number. -/
  startLoop {α : Type} {k : Nat → Eff κ α} (hk : ∀ n, D.Holds (k n)) :
    D.Holds (do
      let number ← Eff.read (·.loops)
      update fun w => { w with loops := number + 1, loop := some { number := number } }
      k number)
  runEntries {p : Command → Eff κ Value} (hp : ∀ entry, D.Holds (Task.runEntry p entry)) (count : Nat) :
    D.Holds (Task.runEntries p count)

namespace Obeys

open Discipline

variable {D : Discipline κ} [D.Furnished]

instance (v : Value) (args : List Value) : Obeys D (callValue v args : Eff κ Value) := ⟨Furnished.call v args⟩

instance (f : Fn) (args : List Value) : Obeys D (callFn f args : Eff κ Value) :=
  inferInstanceAs (Obeys D (callValue _ _))

instance (m : Build α) : Obeys D (build m : Eff κ α) := ⟨Furnished.build m⟩

instance (c : Cell) : Obeys D (alloc c : Eff κ Value) := inferInstanceAs (Obeys D (build _))

theorem aside {f : Session κ → Session κ} (h : ∀ w e, (f w).board e = w.board e) : Obeys D (update f) :=
  ⟨Furnished.aside h⟩

instance (s : Store) : Obeys D (setStore s : Eff κ Unit) := aside fun _ _ => rfl

instance (n : Notice) : Obeys D (notice n : Eff κ Unit) := aside fun _ _ => rfl

/-- A change of an engine outside its scheduler and its queue. -/
theorem modifyEngine_rest {x : Nat} {f : Engine → Engine} (hs : ∀ y, (f y).scheduler = y.scheduler)
    (hq : ∀ y, (f y).queue = y.queue) : Obeys D (modifyEngine x f : Eff κ Unit) := by
  refine aside fun w e => ?_
  by_cases hx : x = e
  · subst hx
    rw [Session.board_modifyEngine, hs, hq]
    rfl
  · have other : (w.modifyEngine x f).engine e = w.engine e := by simp [hx]
    unfold Session.board
    rw [other]
    rfl

section Closing

theorem closes {c : Closure} (h : ∀ x key, c ≠ .pass x key) : Obeys D (Eff.close c : Eff κ Fn) :=
  ⟨Furnished.close h⟩

instance : Obeys D (Eff.close .idle : Eff κ Fn) := closes nofun

instance (x : Nat) (key f : Value) : Obeys D (Eff.close (.unsubscribe x key f) : Eff κ Fn) := closes nofun

instance (x : Nat) (name : String) (f : Value) : Obeys D (Eff.close (.unregister x name f) : Eff κ Fn) :=
  closes nofun

instance (x : Nat) (pub : Value) : Obeys D (Eff.close (.detach x pub) : Eff κ Fn) := closes nofun

instance (d : Directive) : Obeys D (Eff.close (.refresh d) : Eff κ Fn) := closes nofun

instance (u : Update) : Obeys D (Eff.close (.lenient u) : Eff κ Fn) := closes nofun

instance (r : Reaction) : Obeys D (Eff.close (.react r) : Eff κ Fn) := closes nofun

end Closing

section Engines

variable (x : Nat) (key f : Value)

instance : Obeys D (Queue.post x f : Eff κ Unit) := ⟨Furnished.post x f⟩

instance : Obeys D (Queue.runPending x : Eff κ Nat) := ⟨Furnished.runPending x⟩

instance : Obeys D (Scheduler.request x key : Eff κ Unit) := ⟨Furnished.request x key⟩

instance : Obeys D (Scheduler.flush x key : Eff κ Unit) := ⟨Furnished.flush x key⟩

instance : Obeys D (Scheduler.force x key : Eff κ Unit) := ⟨Furnished.force x key⟩

instance : Obeys D (Scheduler.register x key f : Eff κ Unit) := ⟨Furnished.register x key f⟩

instance : Obeys D (Scheduler.forget x key : Eff κ Unit) := ⟨Furnished.forget x key⟩

instance : Obeys D (Scheduler.named x key : Eff κ Value) := ⟨Furnished.named x key⟩

instance : Obeys D (Scheduler.watch x key f : Eff κ Fn) := by
  unfold Scheduler.watch
  dsimp only
  infer_instance

instance (filed : Value → Value) (op : SchedulerOp) : Obeys D (Scheduler.perform x filed op : Eff κ Value) := by
  unfold Scheduler.perform Scheduler.scheduler
  cases op <;> infer_instance

instance (op : QueueOp) : Obeys D (Queue.perform x op : Eff κ Value) := by
  unfold Queue.perform
  cases op <;> infer_instance

end Engines

section Loops

/-- The loop of this thread goes on. -/
theorem update_loop {g : Loop → Loop} (hg : ∀ l : Loop, l.Keeps (g l)) :
    Obeys D (update fun w : Session κ => { w with loop := w.loop.map g }) :=
  ⟨Furnished.loops fun w => ⟨w.loop.map g, w.outer, w.loops, rfl, .current w.outer w.loops hg⟩⟩

instance (entry : Ready) : Obeys D (Queue.soon entry : Eff κ Unit) := update_loop fun l => .add l entry

/-- An entry for the loop of a number is added to it wherever it runs. -/
theorem forall₂_add (number : Nat) (entry : Ready) (ls : List (Option Loop)) :
    List.Forall₂ Loop.Keeps ls.reduceOption (ls.map fun l =>
      if l.any (·.number == number) then l.map fun l => { l with ready := l.ready ++ [entry] }
      else l).reduceOption := by
  induction ls with
  | nil => exact .nil
  | cons l ls ih =>
    rcases l with _ | l
    · exact ih
    · simp only [List.map_cons, Option.any_some, Option.map_some]
      split
      · exact .cons (.add l entry) ih
      · exact .cons (.refl l) ih

instance (loop : Nat) (entry : Ready) : Obeys D (Method.soonOn loop entry : Eff κ Unit) := by
  have : Obeys D (update fun w : Session κ =>
      let add (l : Option Loop) : Option Loop :=
        if l.any (·.number == loop) then l.map fun l => { l with ready := l.ready ++ [entry] } else l
      { w with loop := add w.loop, outer := w.outer.map add }) :=
    ⟨Furnished.loops fun w =>
      ⟨_, _, w.loops, rfl, .keep (.refl _) (forall₂_add loop entry (w.loop :: w.outer))⟩⟩
  unfold Method.soonOn
  infer_instance

instance : Obeys D (enterThread : Eff κ Unit) :=
  ⟨Furnished.loops fun w => ⟨none, w.loop :: w.outer, w.loops, rfl, .keep (.refl _) (Loop.Keeps.all _)⟩⟩

instance : Obeys D (leaveThread : Eff κ Unit) := by
  refine ⟨Furnished.loops fun w => ?_⟩
  rcases ho : w.outer with _ | ⟨l, outer⟩
  · refine ⟨w.loop, [], w.loops, ?_, .keep (.refl _) (Loop.Keeps.all _)⟩
    cases w
    cases ho
    rfl
  · refine ⟨l, outer, w.loops, rfl, .keep ?_ (Loop.Keeps.all _)⟩
    exact ho ▸ (w.board 0).outer_sublist

theorem endLoop : Obeys D (update fun w : Session κ => { w with loop := none }) :=
  ⟨Furnished.loops fun w => ⟨none, w.outer, w.loops, rfl, .keep (w.board 0).outer_sublist (Loop.Keeps.all _)⟩⟩

theorem startLoop {k : Nat → Eff κ α} (hk : ∀ n, Obeys D (k n)) :
    Obeys D (do
      let number ← read (·.loops)
      update fun w => { w with loops := number + 1, loop := some { number := number } }
      k number) :=
  ⟨Furnished.startLoop fun n => (hk n).kept⟩

end Loops

end Obeys

namespace Follows

open Session

/-- An entry is taken from the front and run; a callback is due until it is called. -/
theorem leads_entry {p : Command → Eff κ Value} {env : Env κ} {w : Session κ} {ps : List OpenPass} {l : Loop}
    {entry : Ready} {rest : List Ready} (hp : Follows e (Task.runEntry p entry)) (henv : env.Follows e)
    (hl : w.loop = some l) (hr : l.ready = entry :: rest) :
    Leads e (w.scene e ps)
      (Task.runEntry p entry env { w with loop := w.loop.map fun l => { l with ready := rest } }) ps := by
  let w₁ : Session κ := { w with loop := w.loop.map fun l => { l with ready := rest } }
  have hb : w₁.board e = { w.board e with loop := some { l with ready := rest } } := by
    simp only [w₁, hl]
    rfl
  cases entry with
  | call f =>
    have hs : Step e (w.scene e ps) ⟨w₁.board e, ps, some f⟩ := by
      rw [hb]
      exact .take _ ps l f rest hl hr
    refine Leads.head (.single hs) ?_
    unfold Task.runEntry
    exact leads_bind (leads_attempt (leads_due henv f w₁ ps)) fun _ _ _ => .refl
  | _ =>
    have keeps : l.Keeps { l with ready := rest } := ⟨rfl, fun hf => by simpa [hr] using hf⟩
    have hs : Step e (w.scene e ps) (w₁.scene e ps) := by
      rw [Session.scene, Session.scene, hb]
      refine .loops _ ps _ _ _ (.keep (.refl _) ?_)
      unfold Board.live
      rw [show (w.board e).loop = some l from hl]
      exact .cons keeps (Loop.Keeps.all _)
    exact lead (Task.runEntry p _) henv (.single hs)

theorem follows_runEntries {p : Command → Eff κ Value} (hp : ∀ entry, Follows e (Task.runEntry p entry))
    (count : Nat) : Follows e (Task.runEntries p count : Eff κ Unit) := by
  induction count with
  | zero => unfold Task.runEntries; infer_instance
  | succ count ih =>
    refine ⟨fun env w ps henv => ?_⟩
    unfold Task.runEntries
    rw [bind_read]
    rcases hl : w.loop with _ | l
    · exact .refl
    · rcases hr : l.ready with _ | ⟨entry, rest⟩
      · simp only [Option.map_some, Option.getD_some, hr]
        exact .refl
      · simp only [Option.map_some, Option.getD_some, hr]
        change Leads e _ ((Task.runEntry p entry >>= fun _ => Task.runEntries p count) env
          { w with loop := w.loop.map fun l => { l with ready := rest } }) ps
        exact leads_bind (leads_entry (hp entry) henv hl hr) fun _ w' _ => ih.leads env w' ps henv

theorem follows_create (x : Nat) (y : Engine) :
    Follows e (do log (.created x); modifyEngine x fun _ => y : Eff κ Unit) := by
  by_cases hx : x = e
  · subst hx
    refine ⟨fun env w ps henv => ?_⟩
    let w₁ : Session κ := { w with journal := .created x :: w.journal }
    have h₁ : w₁.board x = { w.board x with history := [], setUps := w.setUps x + 1 } := by
      have hd : (Event.created x).door? = none := rfl
      simp [w₁, Session.board, Session.history, Session.setUps, Session.engine, Session.doors, Event.sets, hd]
    have h₂ := Session.board_modifyEngine w₁ x fun _ => y
    rw [h₁] at h₂
    change Steps x _ ⟨_, ps, none⟩
    rw [h₂]
    exact .single (.create _ ps y.scheduler y.queue)
  · have := log_other (κ := κ) (e := e) (.created x) rfl hx
    have := modifyEngine_other (κ := κ) hx fun _ => y
    infer_instance

instance : (discipline e : Discipline κ).Furnished where
  call v args := inferInstanceAs (Follows e (callValue v args))
  build m := inferInstanceAs (Follows e (build m))
  aside h := Follows.aside fun w => h w e
  close h := follows_close fun key => h e key
  create x y := follows_create x y
  post x f := inferInstanceAs (Follows e (Queue.post x f))
  runPending x := inferInstanceAs (Follows e (Queue.runPending x))
  request x key := inferInstanceAs (Follows e (Scheduler.request x key))
  flush x key := inferInstanceAs (Follows e (Scheduler.flush x key))
  force x key := inferInstanceAs (Follows e (Scheduler.force x key))
  register x key f := inferInstanceAs (Follows e (Scheduler.register x key f))
  removeWatcher := follows_removeWatcher
  forget x key := inferInstanceAs (Follows e (Scheduler.forget x key))
  named x key := inferInstanceAs (Follows e (Scheduler.named x key))
  pause app := ⟨fun _ w ps _ => .single (.door (w.board e) ps (.enter app))⟩
  resume app := ⟨fun _ w ps _ => .single (.door (w.board e) ps (.leave app))⟩
  loops h := move_loops fun w => by
    obtain ⟨l, o, n, hf, hs⟩ := h w
    exact ⟨l, o, n, by rw [hf]; rfl, hs⟩
  startLoop hk := ⟨fun env w ps henv => by
    let w₁ : Session κ := { w with loops := w.loops + 1, loop := some { number := w.loops } }
    have hs : Step e (w.scene e ps) (w₁.scene e ps) :=
      .loops (w.board e) ps w₁.loop w.outer (w.loops + 1) (.start (w.board e).outer_sublist)
    have := hk w.loops
    exact Leads.head (.single hs) (this.leads env w₁ ps henv)⟩
  runEntries := follows_runEntries

end Follows

end ReactiveScopes
