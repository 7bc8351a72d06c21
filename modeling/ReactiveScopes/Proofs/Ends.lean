import ReactiveScopes.Proofs.Marks

/-!
# Runs that end

A run ends if it comes to one end with every budget that is large enough. Such runs are put together like the
programs that they are runs of, and nothing that is said of the whole speaks of budgets. A pass ends when its
watchers do, and a drain when the callbacks do and none is left.
-/
namespace ReactiveScopes

open Eff

variable {κ α β : Type} {host : Host κ} {w w₁ w' : Session κ} {a : α} {f : Fault}

/-- With every budget that is large enough the computation comes to this end. -/
def Ends (host : Host κ) (m : Eff κ α) (w : Session κ) (r : Outcome α × Session κ) : Prop :=
  ∃ N, ∀ n, N ≤ n → m (Env.within host n) w = r

namespace Ends

variable {m : Eff κ α} {k : α → Eff κ β} {r r' : Outcome α × Session κ} {q : Outcome β × Session κ}

/-- A computation that does the same whatever calling means. -/
theorem alone (h : ∀ env, m env w = r) : Ends host m w r := ⟨0, fun _ _ => h _⟩

theorem pure (a : α) (w : Session κ) : Ends host (Pure.pure a : Eff κ α) w (.value a, w) := alone fun _ => rfl

theorem unique (h : Ends host m w r) (h' : Ends host m w r') : r = r' := by
  obtain ⟨N, h⟩ := h
  obtain ⟨N', h'⟩ := h'
  exact (h _ (Nat.le_max_left N N')).symm.trans (h' _ (Nat.le_max_right N N'))

/-- Computations that are the same with every large budget have the same ends. -/
theorem congr {m' : Eff κ α} {w' : Session κ} (he : ∀ env, m env w = m' env w') (h : Ends host m' w' r) :
    Ends host m w r := by
  obtain ⟨N, h⟩ := h
  exact ⟨N, fun n hn => (he _).trans (h n hn)⟩

theorem attempt_congr {m' : Eff κ α} {q : Outcome (Except Fault α) × Session κ}
    (he : ∀ env, m env w = m' env w) (h : Ends host m'.attempt w q) : Ends host m.attempt w q :=
  congr (fun env => by unfold attempt; rw [he env]) h

theorem bind (hm : Ends host m w (.value a, w₁)) (hk : Ends host (k a) w₁ q) : Ends host (m >>= k) w q := by
  obtain ⟨N, hm⟩ := hm
  obtain ⟨N', hk⟩ := hk
  refine ⟨max N N', fun n hn => ?_⟩
  rw [bind_value (hm n (le_of_max_le_left hn))]
  exact hk n (le_of_max_le_right hn)

theorem bind_fault (hm : Ends host m w (.fault f, w₁)) : Ends host (m >>= k) w (.fault f, w₁) := by
  obtain ⟨N, hm⟩ := hm
  refine ⟨N, fun n hn => ?_⟩
  change Eff.bind m k _ w = _
  rw [Eff.bind, hm n hn]

/-- What is attempted ends when its parts do. -/
theorem attempt_bind {q : Outcome (Except Fault β) × Session κ} (hm : Ends host m w (.value a, w₁))
    (hk : Ends host (k a).attempt w₁ q) : Ends host (m >>= k).attempt w q := by
  obtain ⟨N, hm⟩ := hm
  obtain ⟨N', hk⟩ := hk
  refine ⟨max N N', fun n hn => ?_⟩
  unfold attempt
  rw [bind_value (hm n (le_of_max_le_left hn))]
  exact hk n (le_of_max_le_right hn)

theorem attempt_iff {x : Except Fault α} :
    Ends host m.attempt w (.value x, w') ↔ Ends host m w (.ofExcept x, w') := by
  have same (env : Env κ) : m.attempt env w = (.value x, w') ↔ m env w = (.ofExcept x, w') := by
    unfold attempt
    rcases m env w with ⟨_ | _ | _ | _, _⟩ <;> cases x <;> simp [Outcome.ofExcept]
  exact exists_congr fun N => forall₂_congr fun n _ => same _

theorem attempt_value (hm : Ends host m w (.value a, w')) : Ends host m.attempt w (.value (.ok a), w') :=
  attempt_iff.2 hm

theorem attempt_fault (hm : Ends host m w (.fault f, w')) : Ends host m.attempt w (.value (.error f), w') :=
  attempt_iff.2 hm

/-- An error that is contained is handled, and a value stays. -/
theorem contain {P : Fault → Bool} {handle : Fault → Eff κ α} {x : Except Fault α}
    (hm : Ends host m.attempt w (.value x, w₁)) (hv : ∀ a, x = .ok a → r = (.value a, w₁))
    (hf : ∀ f, x = .error f → P f = true ∧ Ends host (handle f) w₁ r) :
    Ends host (Eff.contain m P handle) w r := by
  refine hm.bind ?_
  cases x with
  | ok a =>
    rw [hv a rfl]
    exact pure a w₁
  | error f =>
    obtain ⟨hp, hh⟩ := hf f rfl
    dsimp only
    rw [if_pos hp]
    exact hh

/-- A loop that is given the budget. -/
theorem looping {loop : Nat → Eff κ α}
    (h : ∃ N, ∀ fuel, N ≤ fuel → ∀ n, N ≤ n → loop fuel (Env.within host n) w = r) :
    Ends host (do loop (← budget)) w r := by
  obtain ⟨N, h⟩ := h
  exact ⟨N, fun n hn => h n hn n hn⟩

/-- Calling a callable ends when what it does ends. -/
theorem call {v : Value} {args : List Value} {r : Outcome Value × Session κ} (callable : v.isCallable = true)
    (h : Ends host (applyValue host v args) w r) : Ends host (callValue v args) w r := by
  obtain ⟨N, h⟩ := h
  refine ⟨N + 1, fun n hn => ?_⟩
  obtain ⟨n, rfl⟩ : ∃ k, n = k + 1 := ⟨n - 1, by omega⟩
  unfold callValue
  rw [if_pos callable]
  exact h n (by omega)

/-- A run that ends with a value or a fault leads on by the moves of the machine. -/
theorem steps {e : Nat} [hm : Follows e m] {x : Except Fault α} (h : Ends host m.attempt w (.value x, w')) :
    Steps e (w.scene e []) (w'.scene e []) := by
  obtain ⟨N, h⟩ := h
  have hl := Follows.leads_attempt (hm.leads (Env.within host N) w [] (Env.follows_within host N e))
  rwa [h N (Nat.le_refl N)] at hl

/-- What a program asks for first is done first. -/
theorem ask {c : Command} {v : Value} {k : Value → Act κ Value} {r : Outcome Value × Session κ}
    (asked : Ends host (perform c) w (.value v, w₁)) (rest : Ends host (k v).run w₁ r) :
    Ends host (Act.ask c >>= k).run w r :=
  asked.attempt_value.bind rest

/-- What a client keeps in mind, it has when it goes on. -/
theorem noted {g : κ → κ} {a : Act κ Value} {r : Outcome Value × Session κ}
    (rest : Ends host a.run { w with memory := g w.memory } r) :
    Ends host (Act.modifyMemory g >>= fun _ => a).run w r :=
  .congr (fun _ => rfl) rest

/-- A function of the client does what its program does. -/
theorem client {name : String} {program : Act κ Value} {r : Outcome Value × Session κ}
    (code : host name = { body := fun _ => program }) (ran : Ends host program.run w r) :
    Ends host (callValue (.fn (.client name)) []) w r := by
  refine .call rfl (.congr (fun env => ?_) ran)
  unfold applyValue
  dsimp only
  rw [code]
  rfl

end Ends

variable {e : Nat} {key f : Value} {fs : List Value} {x : Except Fault Value}

namespace Session

/-- A pass begins, for some watchers. -/
def entering (w : Session κ) (e : Nat) (key : Value) (fs : List Value) : Session κ :=
  (w.logged (.passBegan e key fs)).reschedule e fun s => { s with running := insertKey key s.running }

/-- A pass is over. -/
def leaving (w : Session κ) (e : Nat) (key : Value) : Session κ :=
  (w.reschedule e fun s => { s with running := eraseKey key s.running }).logged (.passEnded e key none)

/-- What a watcher raised is reported. -/
def reporting (w : Session κ) : Except Fault Value → Session κ
  | .ok _ => w
  | .error fault => w.logged (.notice (.watcherFailed fault))

/-- A callback is taken from the queue and begins, with others left. -/
def taking (w : Session κ) (e : Nat) (f : Value) (rest : List Value) : Session κ :=
  (w.requeue e fun q => { q with posted := rest }).logged (.began e f)

/-- A drain begins, or is over. -/
def draining (w : Session κ) (e : Nat) (b : Bool) : Session κ := w.requeue e fun q => { q with draining := b }

@[simp]
theorem engine_entering (w : Session κ) (e : Nat) (key : Value) (fs : List Value) :
    (w.entering e key fs).engine e = { w.engine e with
      scheduler := { (w.engine e).scheduler with running := insertKey key (w.engine e).scheduler.running } } := by
  simp [entering]

@[simp]
theorem engine_leaving (w : Session κ) (e : Nat) (key : Value) :
    (w.leaving e key).engine e = { w.engine e with
      scheduler := { (w.engine e).scheduler with running := eraseKey key (w.engine e).scheduler.running } } := by
  simp [leaving]

@[simp]
theorem engine_taking (w : Session κ) (e : Nat) (f : Value) (rest : List Value) :
    (w.taking e f rest).engine e = { w.engine e with queue := { (w.engine e).queue with posted := rest } } := by
  simp [taking]

@[simp]
theorem engine_draining (w : Session κ) (e : Nat) (b : Bool) :
    (w.draining e b).engine e = { w.engine e with queue := { (w.engine e).queue with draining := b } } := by
  simp [draining]

theorem bides_entering (w : Session κ) (e : Nat) (key : Value) (fs : List Value) :
    w.Bides e (w.entering e key fs) :=
  (w.bides_logged e _).trans (bides_reschedule _ e _)

theorem bides_leaving (w : Session κ) (e : Nat) (key : Value) : w.Bides e (w.leaving e key) :=
  (w.bides_reschedule e _).trans (bides_logged _ e _)

theorem begun_taking (w : Session κ) (e : Nat) (f : Value) (rest : List Value) :
    (w.taking e f rest).begun e = f :: w.begun e := by
  simp [taking, begun, history, logged, Event.sets, Event.engine?, Event.begun?, requeue, modifyEngine]

theorem bides_taking (w : Session κ) (e : Nat) (f : Value) (rest : List Value) :
    w.Bides e (w.taking e f rest) :=
  (w.bides_requeue e _).trans (bides_logged _ e _)

theorem bides_draining (w : Session κ) (e : Nat) (b : Bool) : w.Bides e (w.draining e b) := w.bides_requeue e _

end Session

namespace Scheduler

variable {r : Outcome Unit × Session κ}

theorem flush_ends (marked : key ∈ (w.engine e).scheduler.pending)
    (notified : Ends host (notify e key)
      (w.reschedule e fun s => { s with pending := eraseKey key s.pending }) r) :
    Ends host (flush e key) w r := by
  refine .bind (a := (w.engine e).scheduler) (.alone fun _ => rfl) ?_
  rw [if_pos (List.contains_iff_mem.2 marked)]
  exact .bind (.alone fun _ => rfl) notified

/-- Unless tracing runs client code, a pass begins right away. -/
theorem notify_ends (host : Host κ) (quiet : ¬ (w.engine e).scheduler.Loud)
    (watched : (w.engine e).scheduler.watchersOf key = f :: fs) :
    ∃ w₁, w.Still e w₁ ∧ ∀ {r}, Ends host (runPass e key (f :: fs)) w₁ r → Ends host (notify e key) w r := by
  obtain ⟨w₁, traced, still⟩ := Follows.trace_quiet (w := w) key quiet
  refine ⟨w₁, still, fun {r} ran => ?_⟩
  rw [Session.scheduler_board, watched] at traced
  refine .congr (fun env => ?_) (.bind (.alone traced) ran)
  unfold notify
  rw [bind_scheduler, watched]

/-- One watcher is called after the other, whatever errors there are. -/
theorem callWatchers_next {x : Except Fault Value}
    (called : Ends host (callValue f []).attempt (w.logged (.watcherCalled e key f)) (.value x, w₁))
    (errors : ∀ fault, x = .error fault → fault.isError = true)
    (rest : Ends host (callWatchers e key fs) (w₁.reporting x) r) :
    Ends host (callWatchers e key (f :: fs)) w r := by
  have ended := Ends.attempt_iff.1 called
  have contained : Ends host (contain (do let _ ← callValue f []) Fault.isError
      fun fault => notice (.watcherFailed fault)) (w.logged (.watcherCalled e key f))
      (.value (), w₁.reporting x) := by
    cases x with
    | ok v => exact .contain (ended.bind (.pure () w₁)).attempt_value (fun _ h => by cases h; rfl) nofun
    | error fault =>
      refine .contain (Ends.attempt_fault (ended.bind_fault (k := fun _ => pure ()))) nofun fun g hg => ?_
      cases hg
      exact ⟨errors fault rfl, .alone fun _ => rfl⟩
  exact .bind (.alone fun _ => rfl) (contained.bind rest)

/-- A pass to which nothing has been left is over when the watchers have been called. -/
theorem runPass_ends (called : Ends host (callWatchers e key fs) (w.entering e key fs) (.value (), w₁))
    (undeferred : key ∉ (w₁.engine e).scheduler.deferred) :
    Ends host (runPass e key fs) w (.value (), w₁.leaving e key) := by
  have settled : Ends host (do
      if (← scheduler e).deferred.contains key then
        modify e fun s => { s with deferred := eraseKey key s.deferred }
        enqueue e key) (w₁.leaving e key) (.value (), w₁.leaving e key) := by
    refine .alone fun env => ?_
    rw [bind_scheduler, Session.engine_leaving, if_neg (by simpa using undeferred)]
    rfl
  exact .bind (.alone fun _ => rfl) (.bind (.alone fun _ => rfl) (.bind called.attempt_value
    (.bind (.alone fun _ => rfl) (.bind (.alone fun _ => rfl) (.bind (.alone fun _ => rfl) settled)))))

/-- Otherwise one more is seen to. -/
theorem runPass_again (called : Ends host (callWatchers e key fs) (w.entering e key fs) (.value (), w₁))
    (deferred : key ∈ (w₁.engine e).scheduler.deferred)
    (again : Ends host (enqueue e key)
      ((w₁.leaving e key).reschedule e fun s => { s with deferred := eraseKey key s.deferred }) r) :
    Ends host (runPass e key fs) w r := by
  have settled : Ends host (do
      if (← scheduler e).deferred.contains key then
        modify e fun s => { s with deferred := eraseKey key s.deferred }
        enqueue e key) (w₁.leaving e key) r := by
    refine .congr (fun env => ?_) again
    rw [bind_scheduler, Session.engine_leaving, if_pos (by simpa using deferred)]
    rfl
  exact .bind (.alone fun _ => rfl) (.bind (.alone fun _ => rfl) (.bind called.attempt_value
    (.bind (.alone fun _ => rfl) (.bind (.alone fun _ => rfl) (.bind (.alone fun _ => rfl) settled)))))

/-- A callback for a pass flushes its key. -/
theorem callback_ends (runs : w.runsPass e key f) (flushed : Ends host (flush e key) w (.value (), w')) :
    Ends host (callValue f []) w (.value .none, w') := by
  obtain ⟨i, rfl, hi⟩ : (w.board e).runsPass e key f := Session.runsPass_iff.1 runs
  have whole : Ends host (do flush e key; return Value.none) w (.value .none, w') :=
    flushed.bind (.pure Value.none w')
  refine .call rfl (.congr (fun env => ?_) whole)
  unfold applyValue
  dsimp only
  rw [bind_read, show w.closures[i]? = some (.pass e key) from hi]
  rfl

end Scheduler

namespace Queue

variable {ran : Nat} {r : Outcome Nat × Session κ} {posted : List Value} {v : Value}

/-- A queue that nothing is in is drained. -/
theorem drain_empty (empty : (w.engine e).queue.posted = []) (fuel ran : Nat) (env : Env κ) :
    drain e (fuel + 1) ran env w = (.value ran, w) := by
  unfold drain
  rw [bind_engine, empty]
  rfl

/-- The first callback of a queue is taken from it and called, and then the others are. -/
theorem drain_queued (queued : (w.engine e).queue.posted = f :: posted) (fuel ran : Nat) (env : Env κ) :
    drain e (fuel + 1) ran env w =
      (callValue f [] >>= fun _ => drain e fuel (ran + 1)) env (w.taking e f posted) := by
  rw [drain, bind_engine, queued]
  dsimp only
  rw [bind_modify, bind_log]
  rfl

/-- Draining the queue, after some callbacks, comes to this end with every budget and every bound that are large
enough. -/
def Drains (host : Host κ) (e ran : Nat) (w : Session κ) (r : Outcome Nat × Session κ) : Prop :=
  ∃ N, ∀ fuel, N ≤ fuel → ∀ n, N ≤ n → drain e fuel ran (Env.within host n) w = r

theorem Drains.nil (empty : (w.engine e).queue.posted = []) : Drains host e ran w (.value ran, w) := by
  refine ⟨1, fun fuel hf n _ => ?_⟩
  obtain ⟨fuel, rfl⟩ : ∃ k, fuel = k + 1 := ⟨fuel - 1, by omega⟩
  exact drain_empty empty fuel ran _

/-- One callback after the other. -/
theorem Drains.cons (queued : (w.engine e).queue.posted = f :: posted)
    (called : Ends host (callValue f []) (w.taking e f posted) (.value v, w₁))
    (rest : Drains host e (ran + 1) w₁ r) : Drains host e ran w r := by
  obtain ⟨N, called⟩ := called
  obtain ⟨N', rest⟩ := rest
  refine ⟨max N N' + 1, fun fuel hf n hn => ?_⟩
  obtain ⟨fuel, rfl⟩ : ∃ k, fuel = k + 1 := ⟨fuel - 1, by omega⟩
  rw [drain_queued queued]
  exact (bind_value (called n (by omega)) _).trans (rest fuel (by omega) n (by omega))

/-- A drain that is not part of another one. -/
theorem runPending_ends (outside : (w.engine e).queue.draining = false)
    (drained : Drains host e 0 (w.draining e true) (.value ran, w₁)) :
    Ends host (runPending e) w (.value ran, w₁.draining e false) := by
  have ends : Ends host (do drain e (← budget) 0) (w.draining e true) (.value ran, w₁) := .looping drained
  have closed : Ends host (andFinally (do drain e (← budget) 0) (modify e fun q => { q with draining := false }))
      (w.draining e true) (.value ran, w₁.draining e false) :=
    ends.attempt_value.bind (.bind (.alone fun _ => rfl) (.pure ran _))
  refine .congr (fun env => ?_) closed
  unfold runPending
  rw [bind_engine, outside]
  rfl

/-- A drain that has come to an end needs no larger bound than the callbacks it has run. -/
theorem drain_bound {env : Env κ} {fuel n : Nat} (h : drain e fuel ran env w = (.value n, w')) :
    ran ≤ n ∧ ∀ bound, n - ran < bound → drain e bound ran env w = (.value n, w') := by
  induction fuel generalizing ran w with
  | zero => cases h
  | succ fuel ih =>
    rcases queued : (w.engine e).queue.posted with _ | ⟨f, posted⟩
    · rw [drain_empty queued] at h
      cases h
      refine ⟨Nat.le_refl _, fun bound hb => ?_⟩
      obtain ⟨bound, rfl⟩ : ∃ k, bound = k + 1 := ⟨bound - 1, by omega⟩
      exact drain_empty queued bound _ env
    · rw [drain_queued queued] at h
      obtain ⟨v, w₁, called, rest⟩ := value_of_bind h
      obtain ⟨le, drained⟩ := ih rest
      refine ⟨by omega, fun bound hb => ?_⟩
      obtain ⟨bound, rfl⟩ : ∃ k, bound = k + 1 := ⟨bound - 1, by omega⟩
      rw [drain_queued queued]
      exact (bind_value called _).trans (drained bound (by omega))

section Endless

variable {P : Session κ → Prop} (goes : ∀ {w}, P w → ∃ f posted v w', (w.engine e).queue.posted = f :: posted ∧
  Ends host (callValue f []) (w.taking e f posted) (.value v, w') ∧ P w')

include goes

/-- While each callback leaves another one, no bound is enough. -/
theorem drain_exhausts (fuel : Nat) (hw : P w) (ran : Nat) :
    ∃ N, ∀ n, N ≤ n → (drain e fuel ran (Env.within host n) w).1 = .exhausted := by
  induction fuel generalizing w ran with
  | zero => exact ⟨0, fun _ _ => rfl⟩
  | succ fuel ih =>
    obtain ⟨f, posted, v, w', queued, ⟨N, called⟩, hw'⟩ := goes hw
    obtain ⟨N', rest⟩ := ih hw' (ran + 1)
    refine ⟨max N N', fun n hn => ?_⟩
    rw [drain_queued queued]
    exact (congrArg Prod.fst (bind_value (called n (by omega)) _)).trans (rest n (by omega))

/-- Then a drain that is not part of another one comes to no end. -/
theorem runPending_endless (outside : (w.engine e).queue.draining = false) (hw : P (w.draining e true)) {n : Nat} :
    ¬ Ends host (runPending e) w (.value n, w') := by
  rintro ⟨N, ended⟩
  obtain ⟨N', exhausted⟩ := drain_exhausts goes (n + 1) hw 0
  have ended := ended (max N N') (Nat.le_max_left N N')
  unfold runPending at ended
  rw [bind_engine, outside] at ended
  change (Queue.modify e (fun q => { q with draining := true }) >>= _) _ _ = _ at ended
  rw [bind_modify] at ended
  obtain ⟨x, w₁, drained, rest⟩ := value_of_bind ended
  cases x with
  | error f => cases rest
  | ok m =>
    cases rest
    have drained : drain e (max N N') 0 (Env.within host (max N N')) (w.draining e true) = (.value n, w₁) := by
      unfold attempt at drained
      split at drained
      · next h =>
        cases drained
        exact h
      all_goals cases drained
    have bound := (drain_bound drained).2 (n + 1) (by omega)
    exact absurd ((congrArg Prod.fst bound).symm.trans (exhausted _ (Nat.le_max_right N N'))) nofun

end Endless

end Queue

end ReactiveScopes
