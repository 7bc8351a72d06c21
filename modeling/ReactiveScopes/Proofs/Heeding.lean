import ReactiveScopes.Proofs.Ends

/-!
# A drain is heeded

A drain sets a mark on its queue, which it takes off when it is over. Whatever runs in the meantime, the mark stays and
no other callback from the queue begins: a drain that is asked for does nothing. Nothing else touches the mark, so
whatever returns leaves it as it was, and where it is found set, a drain is in progress. To keep to this is a
discipline, so all client code does, however far it gets.
-/
namespace ReactiveScopes

open Eff

variable {κ α : Type} {e x : Nat} {key f : Value} {host : Host κ} {env : Env κ} {w w' w'' : Session κ}
  {P : Env κ → Prop}

section Along

variable {R Q R' Q' : Session κ → Session κ → Prop} {r : Outcome α × Session κ}

/-- What a computation has left of a session stands in one relation to it where the computation returned, and in
another one where the client quit. -/
def Session.Leaves (w : Session κ) (R Q : Session κ → Session κ → Prop) : Outcome α × Session κ → Prop
  | (.value _, w') => R w w'
  | (.fault _, w') => R w w'
  | (.stopped, w') => Q w w'
  | (.exhausted, _) => True

theorem Session.Leaves.mono {v : Session κ} (h : w.Leaves R Q r) (hR : ∀ {w'}, R w w' → R' v w')
    (hQ : ∀ {w'}, Q w w' → Q' v w') : v.Leaves R' Q' r := by
  rcases r with ⟨_ | _ | _ | _, w'⟩
  · exact hR h
  · exact hR h
  · exact hQ h
  · trivial

/-- So it is with calls. -/
def Env.Along (env : Env κ) (R Q : Session κ → Session κ → Prop) : Prop :=
  ∀ v args (w : Session κ), w.Leaves R Q (env.call v args w)

/-- The relations go together: one thing may return and then another one return or be quit. -/
class Gathers (R Q : Session κ → Session κ → Prop) : Prop where
  refl (w : Session κ) : R w w
  trans {w w' w'' : Session κ} : R w w' → R w' w'' → R w w''
  stop (w : Session κ) : Q w w
  after {w w' w'' : Session κ} : R w w' → Q w' w'' → Q w w''

/-- What holds of calls, in certain environments, holds of a computation there. -/
def Discipline.along (P : Env κ → Prop) (R Q : Session κ → Session κ → Prop) : Discipline κ :=
  ⟨fun m => ∀ env (w : Session κ), P env → env.Along R Q → w.Leaves R Q (m env w)⟩

namespace Obeys

instance [Gathers R Q] : (Discipline.along P R Q).Composes where
  pure _ _ w _ _ := Gathers.refl Q w
  raise _ _ w _ _ := Gathers.refl Q w
  stop _ w _ _ := Gathers.stop R w
  exhaust _ _ _ _ := trivial
  read _ _ w _ _ := Gathers.refl Q w
  budget _ w _ _ := Gathers.refl Q w
  bind {α β m f} hm hf env w henv along := by
    change w.Leaves R Q (Eff.bind m f env w)
    have first := hm env w henv along
    unfold Eff.bind
    rcases h : m env w with ⟨a | φ | _ | _, w₁⟩ <;> rw [h] at first
    · have returned : R w w₁ := first
      exact (hf a env w₁ henv along).mono (Gathers.trans Q returned) (Gathers.after returned)
    · exact first
    · exact first
    · trivial
  attempt {α m} hm env w henv along := by
    have first := hm env w henv along
    unfold Eff.attempt
    rcases h : m env w with ⟨_ | _ | _ | _, w₁⟩ <;> rw [h] at first <;> exact first

theorem along_update {f : Session κ → Session κ} (h : ∀ w, R w (f w)) : Obeys (Discipline.along P R Q) (update f) :=
  ⟨fun _ w _ _ => h w⟩

theorem along_build [Gathers R Q] (h : ∀ w s, R w { w with store := s }) (m : Build α) :
    Obeys (Discipline.along P R Q) (build m : Eff κ α) := by
  refine ⟨fun env w _ _ => ?_⟩
  unfold build
  split
  · exact h w _
  · exact Gathers.refl Q w

instance [Gathers R Q] (v : Value) (args : List Value) :
    Obeys (Discipline.along P R Q) (callValue v args : Eff κ Value) := by
  refine ⟨fun env w _ along => ?_⟩
  unfold callValue
  split
  · exact along v args w
  · exact Gathers.refl Q w

end Obeys

end Along

namespace Queue

/-- A drain that is not part of another one sets the mark and takes it off again, unless the client quits. -/
theorem runPending_outside (outside : (w.engine e).queue.draining = false) :
    runPending e env w = match drain e env.budget 0 env (w.draining e true) with
      | (.value n, u) => (.value n, u.draining e false)
      | (.fault φ, u) => (.fault φ, u.draining e false)
      | (.stopped, u) => (.stopped, u)
      | (.exhausted, u) => (.exhausted, u) := by
  unfold runPending
  rw [bind_engine, outside]
  change (Queue.modify e (fun q => { q with draining := true }) >>= _) env w = _
  rw [bind_modify]
  unfold andFinally
  rw [bind_attempt]
  have drained : (do drain e (← budget) 0 : Eff κ Nat) env (w.draining e true) =
      drain e env.budget 0 env (w.draining e true) := rfl
  unfold Session.draining at *
  rw [drained]
  rcases drain e env.budget 0 env _ with ⟨_ | _ | _ | _, u⟩ <;> rfl

/-- Inside another one it does nothing. -/
theorem runPending_inside (inside : (w.engine e).queue.draining = true) : runPending e env w = (.value 0, w) := by
  unfold runPending
  rw [bind_engine, if_pos inside]
  rfl

end Queue

namespace Session

/-- An engine is set up no less often later. -/
def Later (e : Nat) (w w' : Session κ) : Prop := w.setUps e ≤ w'.setUps e

/-- A drain of the queue is in progress: one that began when none was has come to this. -/
def Drains (host : Host κ) (e : Nat) (w : Session κ) : Prop :=
  ∃ budget u, u.setUps e = w.setUps e ∧ (u.engine e).queue.draining = false ∧
    Queue.runPending e (Env.within host budget) u = (.stopped, w)

/-- Unless the engine is set up anew, a queue of it that is being drained is so when something has returned, no callback
from it has begun in the meantime, and no other one is being drained then. -/
structure Heeds (e : Nat) (w w' : Session κ) : Prop where
  later : w.Later e w'
  same : w'.setUps e = w.setUps e → (w'.engine e).queue.draining = (w.engine e).queue.draining
  begun : w'.setUps e = w.setUps e → (w.engine e).queue.draining = true → w'.begun e = w.begun e

/-- The same where the client quits. Then a drain may be in progress that was not before. -/
structure Halts (host : Host κ) (e : Nat) (w w' : Session κ) : Prop where
  later : w.Later e w'
  stays : w'.setUps e = w.setUps e → (w.engine e).queue.draining = true →
    (w'.engine e).queue.draining = true ∧ w'.begun e = w.begun e
  drains : w'.setUps e = w.setUps e → (w.engine e).queue.draining = false → (w'.engine e).queue.draining = true →
    w'.Drains host e

instance : Gathers (Later (κ := κ) e) (Later e) where
  refl _ := Nat.le_refl _
  trans := Nat.le_trans
  stop _ := Nat.le_refl _
  after := Nat.le_trans

theorem Heeds.refl (w : Session κ) : w.Heeds e w := ⟨Nat.le_refl _, fun _ => rfl, fun _ _ => rfl⟩

instance : Gathers (Heeds e) (Halts host e) where
  refl := .refl
  trans {a b c} hab hbc := by
    have le : a.setUps e ≤ b.setUps e := hab.later
    have le' : b.setUps e ≤ c.setUps e := hbc.later
    refine ⟨Nat.le_trans le le', fun once => ?_, fun once hd => ?_⟩
    · exact (hbc.same (by omega)).trans (hab.same (by omega))
    · have hb := hab.same (by omega)
      exact (hbc.begun (by omega) (hb.trans hd)).trans (hab.begun (by omega) hd)
  stop _ := ⟨Nat.le_refl _, fun _ hd => ⟨hd, rfl⟩, fun _ hf hd => absurd (hf.symm.trans hd) nofun⟩
  after {a b c} hab hbc := by
    have le : a.setUps e ≤ b.setUps e := hab.later
    have le' : b.setUps e ≤ c.setUps e := hbc.later
    refine ⟨Nat.le_trans le le', fun once hd => ?_, fun once hf hd => ?_⟩
    · have hb := hab.same (by omega)
      obtain ⟨stays, begun⟩ := hbc.stays (by omega) (hb.trans hd)
      exact ⟨stays, begun.trans (hab.begun (by omega) hd)⟩
    · exact hbc.drains (by omega) ((hab.same (by omega)).trans hf) hd

theorem Heeds.of_eq (hs : w'.setUps e = w.setUps e) (hq : (w'.engine e).queue.draining = (w.engine e).queue.draining)
    (hb : w'.begun e = w.begun e) : w.Heeds e w' :=
  ⟨Nat.le_of_eq hs.symm, fun _ => hq, fun _ _ => hb⟩

theorem Heeds.of_board (h : w'.board e = w.board e) : w.Heeds e w' :=
  .of_eq (congrArg Board.setUps h) (congrArg (·.queue.draining) h)
    (congrArg (fun b => b.history.filterMap Event.begun?) h)

/-- Nothing has happened, and the engine is the same. -/
theorem Heeds.of_journal (hj : w'.journal = w.journal) (he : w'.engine e = w.engine e) : w.Heeds e w' := by
  have hh : w'.history e = w.history e := by
    unfold history
    rw [hj]
  refine .of_eq ?_ (by rw [he]) ?_
  · unfold setUps
    rw [hj]
  · unfold Session.begun
    rw [hh]

/-- Something has happened, and it was no callback from the queue that began. -/
theorem Heeds.logged (w : Session κ) {ev : Event} (going : ev.sets e = false)
    (h : ev.begun? = none ∨ ev.engine? ≠ some e) : w.Heeds e (w.logged ev) := by
  refine .of_eq ?_ rfl ?_
  · simp [Session.setUps, Session.logged, going]
  · rcases h with h | h
    · exact w.begun_logged going h
    · unfold Session.begun history Session.logged
      rw [List.takeWhile_cons, going]
      simp [h]

theorem Heeds.modifyEngine (w : Session κ) {f : Engine → Engine}
    (h : x = e → ∀ y, (f y).queue.draining = y.queue.draining) : w.Heeds e (w.modifyEngine x f) := by
  refine .of_eq rfl ?_ rfl
  rw [engine_modifyEngine]
  split
  · next hx => exact h hx _
  · rfl

end Session

open Session

namespace Obeys

/-- The queue of an engine is heeded while it is drained. -/
abbrev heeding (host : Host κ) (e : Nat) : Discipline κ :=
  Discipline.along (fun env => ∃ budget, env = Env.within host budget) (Session.Heeds e) (Session.Halts host e)

theorem heed_log (host : Host κ) (ev : Event) (going : ev.sets e = false) (h : ev.begun? = none ∨ ev.engine? ≠ some e) :
    Obeys (heeding host e) (log ev : Eff κ Unit) := along_update fun w => .logged w going h

theorem heed_modifyEngine {f : Engine → Engine} (h : x = e → ∀ y, (f y).queue.draining = y.queue.draining) :
    Obeys (heeding host e) (modifyEngine x f : Eff κ Unit) := along_update fun w => .modifyEngine w h

instance (f : Scheduler → Scheduler) : Obeys (heeding host e) (Scheduler.modify x f : Eff κ Unit) :=
  heed_modifyEngine fun _ _ => rfl

instance (c : Closure) : Obeys (heeding host e) (close c : Eff κ Fn) := by
  have : Obeys (heeding host e) (update fun w : Session κ => { w with closures := w.closures.push c }) :=
    along_update fun _ => .of_journal rfl rfl
  unfold close
  infer_instance

instance (m : Build α) : Obeys (heeding host e) (build m : Eff κ α) := along_build (fun _ _ => .of_journal rfl rfl) m

instance (n : Notice) : Obeys (heeding host e) (notice n : Eff κ Unit) := heed_log host _ rfl (.inl rfl)

instance (entry : Ready) : Obeys (heeding host e) (Queue.soon entry : Eff κ Unit) :=
  along_update fun _ => .of_journal rfl rfl

instance (f : Fn) (args : List Value) : Obeys (heeding host e) (callFn f args : Eff κ Value) :=
  inferInstanceAs (Obeys _ (callValue _ _))

instance (c : Cell) : Obeys (heeding host e) (alloc c : Eff κ Value) := inferInstanceAs (Obeys _ (build _))

instance (x : Nat) (f : Value) : Obeys (heeding host e) (Queue.post x f : Eff κ Unit) :=
  .post (heed_log host _ rfl (.inl rfl)) (fun _ => heed_log host _ rfl (.inl rfl)) fun _ =>
    heed_modifyEngine fun _ _ => rfl

instance (x : Nat) (key : Value) : Obeys (heeding host e) (Scheduler.enqueue x key : Eff κ Unit) := by
  unfold Scheduler.enqueue Scheduler.scheduler
  infer_instance

instance (x : Nat) (key : Value) : Obeys (heeding host e) (Scheduler.request x key : Eff κ Unit) := by
  have := heed_log (e := e) host (.requested x key) rfl (.inl rfl)
  unfold Scheduler.request
  infer_instance

instance (x : Nat) (key : Value) : Obeys (heeding host e) (Scheduler.trace x key : Eff κ (List Value)) :=
  .trace fun _ => inferInstance

instance (x : Nat) (key : Value) (fs : List Value) :
    Obeys (heeding host e) (Scheduler.callWatchers x key fs : Eff κ Unit) :=
  callWatchers (fun _ => heed_log host _ rfl (.inl rfl)) fs

instance (x : Nat) (key : Value) : Obeys (heeding host e) (Scheduler.notify x key : Eff κ Unit) :=
  .notify (fun _ => inferInstance) (fun _ => heed_log host _ rfl (.inl rfl)) fun _ => heed_log host _ rfl (.inl rfl)

/-- Nothing unsets an engine, and draining a queue sets up none by itself. -/
theorem along_drain (fuel ran : Nat) :
    Obeys (Discipline.along P (Session.Later e) (Session.Later e)) (Queue.drain x fuel ran : Eff κ Nat) := by
  have log (f : Value) :
      Obeys (Discipline.along P (Session.Later e) (Session.Later e)) (log (.began x f) : Eff κ Unit) :=
    along_update fun w => by simp [Session.Later, Session.setUps, Event.sets]
  have modify (g : Queue → Queue) :
      Obeys (Discipline.along P (Session.Later e) (Session.Later e)) (Queue.modify x g : Eff κ Unit) :=
    along_update fun _ => Nat.le_refl _
  exact drain log (fun _ => modify _) fuel ran

/-- Another engine's queue is drained. -/
theorem heed_drain (host : Host κ) (hx : x ≠ e) (fuel ran : Nat) :
    Obeys (heeding host e) (Queue.drain x fuel ran : Eff κ Nat) := by
  have log (f : Value) : Obeys (heeding host e) (log (.began x f) : Eff κ Unit) :=
    heed_log host _ rfl (.inr (by simpa [Event.engine?] using hx))
  exact drain log (fun _ => heed_modifyEngine fun h => absurd h hx) fuel ran

/-- A drain of the engine's own queue is over when it returns, and in progress where the client quits. -/
theorem heed_runPending : Obeys (heeding host e) (Queue.runPending e : Eff κ Nat) := by
  refine ⟨fun env w ⟨budget, within⟩ along => ?_⟩
  by_cases hd : (w.engine e).queue.draining = true
  · rw [Queue.runPending_inside hd]
    exact .refl w
  have outside : (w.engine e).queue.draining = false := by simpa using hd
  -- callbacks begin inside, so the drain is not heeded itself; how often the engine is set up is all that is followed
  have later := (along_drain (P := fun _ => True) (x := e) env.budget 0).kept env (w.draining e true) trivial
    fun v args w => (along v args w).mono Session.Heeds.later Session.Halts.later
  have eq : Queue.runPending e env w = _ := Queue.runPending_outside outside
  rcases hr : Queue.drain e env.budget 0 env (w.draining e true) with ⟨n | φ | _ | _, u⟩ <;> rw [hr] at eq later <;>
    rw [eq]
  · exact ⟨later, fun _ => by simp [outside], fun _ h => absurd h hd⟩
  · exact ⟨later, fun _ => by simp [outside], fun _ h => absurd h hd⟩
  · exact ⟨later, fun _ h => absurd h hd, fun once _ _ => ⟨budget, w, once.symm, outside, within ▸ eq⟩⟩
  · trivial

instance (x : Nat) : Obeys (heeding host e) (Queue.runPending x : Eff κ Nat) := by
  by_cases hx : x = e
  · exact hx ▸ heed_runPending
  · have := fun fuel ran => heed_drain host hx fuel ran
    have modify (g : Queue → Queue) : Obeys (heeding host e) (Queue.modify x g : Eff κ Unit) :=
      heed_modifyEngine fun h => absurd h hx
    unfold Queue.runPending
    infer_instance

instance (x : Nat) (key : Value) : Obeys (heeding host e) (Scheduler.flush x key : Eff κ Unit) := by
  unfold Scheduler.flush Scheduler.scheduler
  infer_instance

instance (x : Nat) (key : Value) : Obeys (heeding host e) (Scheduler.force x key : Eff κ Unit) := by
  have := heed_log (e := e) host (.notified x key) rfl (.inl rfl)
  unfold Scheduler.force
  infer_instance

instance (x : Nat) (key f : Value) : Obeys (heeding host e) (Scheduler.register x key f : Eff κ Unit) := by
  have := heed_log (e := e) host (.watched x key f) rfl (.inl rfl)
  unfold Scheduler.register
  infer_instance

instance (x : Nat) (key : Value) : Obeys (heeding host e) (Scheduler.forget x key : Eff κ Unit) := by
  have := heed_log (e := e) host (.dropped x key) rfl (.inl rfl)
  unfold Scheduler.forget
  infer_instance

instance (x : Nat) (key : Value) : Obeys (heeding host e) (Scheduler.named x key : Eff κ Value) :=
  .named fun _ => inferInstance

theorem heed_create (x : Nat) (y : Engine) :
    Obeys (heeding host e) (do log (.created x); modifyEngine x fun _ => y : Eff κ Unit) := by
  by_cases hx : x = e
  · subst hx
    refine ⟨fun env w _ _ => ?_⟩
    change w.Heeds x ((w.logged (.created x)).modifyEngine x fun _ => y)
    have anew : ((w.logged (.created x)).modifyEngine x fun _ => y).setUps x = w.setUps x + 1 := by
      simp [Session.setUps, Session.modifyEngine, Session.logged, Event.sets]
    have later : w.setUps x ≤ w.setUps x + 1 := Nat.le_succ _
    exact ⟨later.trans_eq anew.symm, fun once => absurd (anew ▸ once) (Nat.succ_ne_self _),
      fun once => absurd (anew ▸ once) (Nat.succ_ne_self _)⟩
  · have := heed_log (e := e) host (.created x) (by simpa [Event.sets] using hx) (.inl rfl)
    have : Obeys (heeding host e) (modifyEngine x fun _ => y : Eff κ Unit) := heed_modifyEngine fun h => absurd h hx
    infer_instance

instance : (heeding host e).Furnished where
  call v args := Obeys.kept (D := heeding host e) (m := callValue v args)
  build m := Obeys.kept (D := heeding host e) (m := build m)
  aside h := fun _ w _ _ => .of_board (h w e)
  close {c} _ := Obeys.kept (D := heeding host e) (m := close c)
  create x y := (heed_create x y).kept
  post x f := Obeys.kept (D := heeding host e) (m := Queue.post x f)
  runPending x := Obeys.kept (D := heeding host e) (m := Queue.runPending x)
  request x key := Obeys.kept (D := heeding host e) (m := Scheduler.request x key)
  flush x key := Obeys.kept (D := heeding host e) (m := Scheduler.flush x key)
  force x key := Obeys.kept (D := heeding host e) (m := Scheduler.force x key)
  register x key f := Obeys.kept (D := heeding host e) (m := Scheduler.register x key f)
  removeWatcher x key f := Obeys.kept (D := heeding host e) (m := Scheduler.modify x fun s => s.removeWatcher key f)
  forget x key := Obeys.kept (D := heeding host e) (m := Scheduler.forget x key)
  named x key := Obeys.kept (D := heeding host e) (m := Scheduler.named x key)
  pause app := by
    have := heed_log (e := e) host (.paused app) rfl (.inl rfl)
    have : Obeys (heeding host e) (update fun w : Session κ => { w with paused := insertKey app w.paused }) :=
      along_update fun _ => .of_journal rfl rfl
    unfold App.pause
    exact Obeys.kept
  resume app := by
    have := heed_log (e := e) host (.resumed app) rfl (.inl rfl)
    have : Obeys (heeding host e) (update fun w : Session κ => { w with paused := eraseKey app w.paused }) :=
      along_update fun _ => .of_journal rfl rfl
    unfold App.resume
    exact Obeys.kept
  loops {g} h := fun _ w _ _ => by
    obtain ⟨l, o, n, hf, -⟩ := h w
    change w.Heeds e (g w)
    rw [hf]
    exact .of_journal rfl rfl
  startLoop {α k} hk := by
    have := fun n => Obeys.mk (hk n)
    have (n : Nat) : Obeys (heeding host e)
        (update fun w : Session κ => { w with loops := n + 1, loop := some { number := n } }) :=
      along_update fun _ => .of_journal rfl rfl
    exact Obeys.kept
  runEntries {p} hp count := by
    have := fun entry => Obeys.mk (hp entry)
    have modify (g : Loop → Loop) : Obeys (heeding host e) (Task.modifyLoop g : Eff κ Unit) :=
      along_update fun _ => .of_journal rfl rfl
    have all : Obeys (heeding host e) (Task.runEntries p count : Eff κ Unit) := by
      induction count with
      | zero => unfold Task.runEntries; infer_instance
      | succ count ih =>
        unfold Task.runEntries
        refine bind fun ready => ?_
        split <;> infer_instance
    exact all.kept

end Obeys

/-- So it is with calls, with any budget. -/
theorem Env.heeds_within (host : Host κ) (budget e : Nat) :
    (Env.within host budget).Along (Session.Heeds e) (Session.Halts host e) := by
  induction budget with
  | zero => exact fun _ _ _ => trivial
  | succ n ih =>
    intro v args w
    exact Obeys.kept (D := Obeys.heeding host e) (m := applyValue host v args) _ w ⟨n, rfl⟩ ih

/-- In a run that begins outside any drain the mark is set only where a drain is in progress. -/
theorem Session.Moment.drains {w₀ : Session κ} (moment : Session.Moment w₀ w) (once : w.setUps e = w₀.setUps e)
    (outside : (w₀.engine e).queue.draining = false) (marked : (w.engine e).queue.draining = true) :
    ∃ host, w.Drains host e := by
  obtain ⟨o, ho, ran⟩ := moment.ran
  obtain ⟨host, budget, m, h, kept⟩ := ran.kept
  have left := kept (Obeys.heeding host e) _ w₀ ⟨budget, rfl⟩ (Env.heeds_within host budget e)
  rw [h] at left
  cases o with
  | value v => exact absurd ((left.same once).trans outside) (by simp [marked])
  | fault φ => exact absurd ((left.same once).trans outside) (by simp [marked])
  | stopped => exact ⟨host, left.drains once outside marked⟩
  | exhausted => exact absurd rfl ho

end ReactiveScopes
