import ReactiveScopes.Proofs.Heeding
import ReactiveScopes.Proofs.PassStack

/-!
# Callbacks begin in the order of their posts

A queue of its own, outside any event loop: the callbacks that have begun and those that are waiting are the ones that
were posted, in this order. A drain goes through them until none is left, those posted meanwhile included, or until one
of them fails; then the rest wait for the next drain. A drain that is asked for inside another one does nothing.
-/
namespace ReactiveScopes

open Eff

variable {κ : Type} {e : Nat} {env : Env κ} {w w' : Session κ}

/-- The callbacks that were posted, the first one first. -/
def Session.posts (w : Session κ) (e : Nat) : List Value := ((w.history e).filterMap Event.callback?).reverse

namespace Board

variable {b : Board} {ev : Event} {f : Value}

/-- Those that have begun and then those that are waiting are all that were posted. -/
def InOrder (b : Board) : Prop :=
  (b.history.filterMap Event.begun?).reverse ++ b.queue.posted = (b.history.filterMap Event.callback?).reverse

theorem InOrder.note (h : b.InOrder) (ev : Event) (hb : ev.begun? = none) (hc : ev.callback? = none) :
    (b.note ev).InOrder := by
  unfold InOrder at *
  simpa [hb, hc] using h

theorem InOrder.posting (h : b.InOrder) (hs : b.queue.sink = none) (hl : b.loop = none) :
    (b.posting e f).InOrder := by
  have quiet : (Event.posted e f).begun? = none := rfl
  have posted : (Event.posted e f).callback? = some f := rfl
  unfold InOrder at *
  rw [posting_queued hs hl]
  simp [quiet, posted, ← h]

theorem InOrder.enqueue {key : Value} (h : b.InOrder) (hs : b.queue.sink = none) (hl : b.loop = none) :
    (b.enqueue e key).InOrder := by
  rcases b.enqueue_cases e key with ⟨_, _, hb⟩ | ⟨_, _, hb⟩ | ⟨_, _, hb⟩ | ⟨_, _, hb⟩ <;> rw [hb]
  · exact h
  · exact h
  · exact h
  · refine InOrder.posting (b := (b.reschedule _).close _) ?_ hs hl
    exact h

theorem InOrder.beginPass {key : Value} {ps : List OpenPass} (h : b.InOrder) :
    (b.beginPass e key ps).board.InOrder := by
  rcases b.beginPass_cases e key ps with hb | ⟨fs, hb⟩ <;> rw [hb]
  · exact (h.note (.passBegan e key []) rfl rfl).note _ rfl rfl
  · exact h.note (.passBegan e key fs) rfl rfl

theorem InOrder.finishPass {key : Value} (h : b.InOrder) (hs : b.queue.sink = none) (hl : b.loop = none) :
    (b.finishPass e key).InOrder := by
  have left : (b.leavePass e key none).InOrder := h.note (.passEnded e key none) rfl rfl
  rcases b.finishPass_cases e key with ⟨_, hb⟩ | ⟨_, hb⟩ <;> rw [hb]
  · exact InOrder.enqueue (b := b.giveWay e key) left hs hl
  · exact left

end Board

variable {s t : Scene}

theorem Step.inOrder (h : Step e s t) (once : t.board.setUps = s.board.setUps) (hs : s.board.queue.sink = none)
    (hl : s.board.loop = none) (order : s.board.InOrder) : t.board.InOrder := by
  cases h with
  | create b ps s' q => exact absurd once (Nat.succ_ne_self _)
  | post b ps f => exact order.posting hs hl
  | request b ps key => exact (order.note (.requested e key) rfl rfl).enqueue hs hl
  | pop b ps f rest hq =>
    have begun : (Event.began e f).begun? = some f := rfl
    have silent : (Event.began e f).callback? = none := rfl
    unfold Board.InOrder at *
    simpa [begun, silent, hq] using order
  | flush b ps key due => exact Board.InOrder.beginPass (b := b.unmark key) order
  | notify b ps key => exact (order.note (.notified e key) rfl rfl).beginPass
  | addWatcher b ps key f => exact order.note (.watched e key f) rfl rfl
  | drop b ps key => exact order.note (.dropped e key) rfl rfl
  | traceNotified b ps key => exact order.note (.notified e key) rfl rfl
  | traced b ps key fs => exact order.note (.passBegan e key fs) rfl rfl
  | call b ps key f => exact order.note (.watcherCalled e key f) rfl rfl
  | finish b ps key => exact order.finishPass hs hl
  | breakOff b ps key rest f => exact order.note (.passEnded e key (some f)) rfl rfl
  | _ => exact order

/-- As long as no loop is started. -/
theorem Steps.inOrder (h : Steps e s t) (once : t.board.setUps = s.board.setUps) (hs : s.board.queue.sink = none)
    (hl : s.board.Loopless) (still : t.board.started = s.board.started) (order : s.board.InOrder) :
    t.board.InOrder ∧ t.board.queue.sink = none ∧ t.board.Loopless := by
  have hp : t.board.Loopless ∧ t.board.InOrder := by
    refine h.loopless_invariant (P := fun u => u.board.InOrder) once hl still order
      fun u v settings hlu huv hup hu => ?_
    exact huv.inOrder hup ((Board.sink_of_settings settings).trans hs) hlu.loop hu
  exact ⟨hp.2, (Board.sink_of_settings (h.settings once)).trans hs, hp.1⟩

/-- With callbacks that have run so many, a drain that is over answers how many. -/
def Outcome.counting (n : Nat) : Outcome Unit → Outcome Nat
  | .value _ => .value n
  | .fault φ => .fault φ
  | .stopped => .stopped
  | .exhausted => .exhausted

theorem Outcome.counting_eq_stopped {n : Nat} {r : Outcome Unit} : r.counting n = .stopped ↔ r = .stopped := by
  cases r <;> simp [counting]

namespace Queue

/-- Callbacks are taken from the queue one after the other, and each of them is called: until none is left, or until one
of them does not return. -/
inductive Serves (env : Env κ) (e : Nat) : Session κ → List Value → Outcome Unit → Session κ → Prop where
  | done {w : Session κ} (empty : (w.engine e).queue.posted = []) : Serves env e w [] (.value ()) w
  | next {w u w' : Session κ} {f v : Value} {rest fs : List Value} {r : Outcome Unit}
      (queued : (w.engine e).queue.posted = f :: rest)
      (called : callValue f [] env (w.taking e f rest) = (.value v, u)) (served : Serves env e u fs r w') :
      Serves env e w (f :: fs) r w'
  | raised {w w' : Session κ} {f : Value} {rest : List Value} {φ : Fault}
      (queued : (w.engine e).queue.posted = f :: rest)
      (called : callValue f [] env (w.taking e f rest) = (.fault φ, w')) : Serves env e w [f] (.fault φ) w'
  | quit {w w' : Session κ} {f : Value} {rest : List Value} (queued : (w.engine e).queue.posted = f :: rest)
      (called : callValue f [] env (w.taking e f rest) = (.stopped, w')) : Serves env e w [f] .stopped w'

variable {fs rest : List Value} {r : Outcome Unit} {f : Value} {u : Session κ}

theorem serves_of_drain {fuel ran : Nat} {o : Outcome Nat} (h : drain e fuel ran env w = (o, w'))
    (ho : o ≠ .exhausted) : ∃ fs r, Serves env e w fs r w' ∧ o = r.counting (ran + fs.length) := by
  induction fuel generalizing ran w with
  | zero =>
    cases h
    exact absurd rfl ho
  | succ fuel ih =>
    rcases hq : (w.engine e).queue.posted with _ | ⟨f, rest⟩
    · rw [drain_empty hq] at h
      cases h
      exact ⟨[], .value (), .done hq, rfl⟩
    · rw [drain_queued hq] at h
      change Eff.bind (callValue f []) _ env (w.taking e f rest) = _ at h
      unfold Eff.bind at h
      rcases called : callValue f [] env (w.taking e f rest) with ⟨v | φ | _ | _, u⟩ <;> rw [called] at h
      · obtain ⟨fs, r, served, counted⟩ := ih h
        refine ⟨f :: fs, r, .next hq called served, ?_⟩
        rw [counted, List.length_cons, Nat.add_right_comm, Nat.add_assoc]
      · cases h
        exact ⟨[f], .fault φ, .raised hq called, rfl⟩
      · cases h
        exact ⟨[f], .stopped, .quit hq called, rfl⟩
      · cases h
        exact absurd rfl ho

/-- So much is served as the bound lets it. -/
theorem drain_of_serves (h : Serves env e w fs r w') {fuel : Nat} (bound : fs.length < fuel) (ran : Nat) :
    drain e fuel ran env w = (r.counting (ran + fs.length), w') := by
  induction h generalizing fuel ran with
  | done empty =>
    obtain ⟨fuel, rfl⟩ : ∃ k, fuel = k + 1 := ⟨fuel - 1, by omega⟩
    exact drain_empty empty fuel ran env
  | @next w u w' f v rest fs r queued called _ ih =>
    obtain ⟨fuel, rfl⟩ : ∃ k, fuel = k + 1 := ⟨fuel - 1, by omega⟩
    rw [List.length_cons] at bound
    rw [drain_queued queued]
    refine (bind_value called _).trans ((ih (by omega) (ran + 1)).trans ?_)
    rw [List.length_cons, Nat.add_right_comm, Nat.add_assoc]
  | raised queued called | quit queued called =>
    obtain ⟨fuel, rfl⟩ : ∃ k, fuel = k + 1 := ⟨fuel - 1, by omega⟩
    rw [drain_queued queued]
    change Eff.bind (callValue _ []) _ env (Session.taking _ e _ _) = _
    rw [Eff.bind, called]
    rfl

/-- A drain that is not part of another one serves the queue, with the mark set meanwhile. -/
theorem runPending_serves {o : Outcome Nat} (outside : (w.engine e).queue.draining = false)
    (h : runPending e env w = (o, w')) (ho : o ≠ .exhausted) :
    ∃ fs r u, Serves env e (w.draining e true) fs r u ∧ o = r.counting fs.length ∧
      w' = if r = .stopped then u else u.draining e false := by
  rw [runPending_outside outside] at h
  rcases drained : drain e env.budget 0 env (w.draining e true) with ⟨o', u⟩
  rw [drained] at h
  obtain ⟨rfl, ended⟩ : o' = o ∧ w' = if o' = .stopped then u else u.draining e false := by
    cases o' <;> cases h <;> first | exact ⟨rfl, rfl⟩ | exact absurd rfl ho
  obtain ⟨fs, r, served, counted⟩ := serves_of_drain drained ho
  rw [Nat.zero_add] at counted
  exact ⟨fs, r, u, served, counted, by simpa only [counted, Outcome.counting_eq_stopped] using ended⟩

theorem runPending_of_serves (outside : (w.engine e).queue.draining = false)
    (h : Serves env e (w.draining e true) fs r u) (bound : fs.length < env.budget) :
    (runPending e env w).1 = r.counting fs.length := by
  rw [runPending_outside outside, drain_of_serves h bound, Nat.zero_add]
  cases r <;> rfl

theorem Serves.empties (h : Serves env e w fs r w') (hr : r = .value ()) : (w'.engine e).queue.posted = [] := by
  induction h with
  | done empty => exact empty
  | next _ _ _ ih => exact ih hr
  | raised => cases hr
  | quit => cases hr

/-- A callback that is called with the mark set leaves it there, and no other callback begins. -/
theorem called_heeds {o : Outcome Value} (along : env.Along (Session.Heeds e) (Session.Halts host e))
    (called : callValue f [] env (w.taking e f rest) = (o, u)) (ho : o ≠ .exhausted) :
    w.Later e u ∧ (u.setUps e = w.setUps e → (w.engine e).queue.draining = true →
      (u.engine e).queue.draining = true ∧ u.begun e = f :: w.begun e) := by
  have anew : (w.taking e f rest).setUps e = w.setUps e := by
    simp [Session.taking, Session.setUps, Session.logged, Session.requeue, Session.modifyEngine, Event.sets]
  have left := Obeys.kept (D := Discipline.along (fun _ => True) (Session.Heeds e) (Session.Halts host e))
    (m := callValue f []) env (w.taking e f rest) trivial along
  rw [called] at left
  have heeded : (w.taking e f rest).Later e u ∧ (u.setUps e = (w.taking e f rest).setUps e →
      ((w.taking e f rest).engine e).queue.draining = true →
      (u.engine e).queue.draining = true ∧ u.begun e = (w.taking e f rest).begun e) := by
    cases o with
    | value v => exact ⟨left.later, fun once hd => ⟨(left.same once).trans hd, left.begun once hd⟩⟩
    | fault φ => exact ⟨left.later, fun once hd => ⟨(left.same once).trans hd, left.begun once hd⟩⟩
    | stopped => exact ⟨left.later, left.stays⟩
    | exhausted => exact absurd rfl ho
  obtain ⟨later, stays⟩ := heeded
  rw [Session.Later, anew] at later
  rw [anew, Session.engine_taking, Session.begun_taking] at stays
  exact ⟨later, stays⟩

/-- What is served is what begins. -/
theorem Serves.heeds (h : Serves env e w fs r w') (along : env.Along (Session.Heeds e) (Session.Halts host e)) :
    w.Later e w' ∧ (w'.setUps e = w.setUps e → (w.engine e).queue.draining = true →
      (w'.engine e).queue.draining = true ∧ w'.begun e = fs.reverse ++ w.begun e) := by
  -- by induction on what is served; the mark, which every callback leaves, is what the next one needs
  induction h with
  | done => exact ⟨Nat.le_refl _, fun _ hd => ⟨hd, rfl⟩⟩
  | @next w u w' f _ _ fs _ _ called _ ih =>
    obtain ⟨later, stays⟩ := called_heeds along called nofun
    obtain ⟨later', stays'⟩ := ih
    refine ⟨Nat.le_trans later later', fun once hd => ?_⟩
    have le : w.setUps e ≤ u.setUps e := later
    have le' : u.setUps e ≤ w'.setUps e := later'
    obtain ⟨hu, begun⟩ := stays (by omega) hd
    obtain ⟨hw, begun'⟩ := stays' (by omega) hu
    exact ⟨hw, by rw [begun', begun, List.reverse_cons, List.append_assoc]; rfl⟩
  | raised _ called => exact called_heeds along called nofun
  | quit _ called => exact called_heeds along called nofun

end Queue

/-- While a drain is in progress, its mark is set. -/
theorem Session.Drains.marked (h : w.Drains host e) : (w.engine e).queue.draining = true := by
  obtain ⟨budget, u, once, outside, ran⟩ := h
  obtain ⟨fs, r, v, served, counted, ended⟩ := Queue.runPending_serves outside ran nofun
  obtain rfl : r = .stopped := Outcome.counting_eq_stopped.1 counted.symm
  obtain rfl : w = v := ended
  exact ((served.heeds (Env.heeds_within host budget e)).2 once.symm (by simp)).1

/-- The course of a drain that is not part of another one: which callbacks it serves, what it comes to, and what it
leaves. -/
structure Queue.Course (env : Env κ) (e : Nat) (w : Session κ) (fs : List Value) (r : Outcome Unit)
    (w' : Session κ) : Prop where
  /-- Each of them is taken from the front of the queue and called; the last one need not return. -/
  served : ∃ u, Serves env e (w.draining e true) fs r u ∧ w' = if r = .stopped then u else u.draining e false
  /-- No other ones begin. -/
  begun : w'.begun e = fs.reverse ++ w.begun e
  /-- Those that were queued come first, and then those posted meanwhile; the rest is still queued. -/
  ordered : ∃ new, w'.posts e = w.posts e ++ new ∧
    fs ++ (w'.engine e).queue.posted = (w.engine e).queue.posted ++ new
  /-- If all of them return, none is left. -/
  emptied : r = .value () → (w'.engine e).queue.posted = []
  /-- The drain is in progress where the client has quit, and otherwise over, be it for an error. -/
  remains : (∃ host, w'.Drains host e) ↔ r = .stopped

section Draining

variable {host : Host κ} {budget : Nat} {o : Outcome Nat}

/-- What has begun during the drain is what it has served, so what is left in the queue is the rest of the posts. -/
theorem Queue.runPending_course (order : (w.board e).InOrder) (sink : (w.board e).queue.sink = none)
    (idle : (w.board e).Loopless) (outside : (w.engine e).queue.draining = false)
    (ran : Queue.runPending e (Env.within host budget) w = (o, w')) (ho : o ≠ .exhausted)
    (once : w'.setUps e = w.setUps e) (still : w'.loops = w.loops) :
    ∃ fs r, o = r.counting fs.length ∧ Queue.Course (Env.within host budget) e w fs r w' := by
  obtain ⟨fs, r, u, served, counted, ended⟩ := Queue.runPending_serves outside ran ho
  obtain ⟨-, begins⟩ := served.heeds (Env.heeds_within host budget e)
  have leads := Follows.leads (m := Queue.runPending e) _ w [] (Env.follows_within host budget e)
  rw [ran] at leads
  obtain ⟨ps, steps⟩ := leads.steps ho
  obtain ⟨order', -, -⟩ := steps.inOrder once sink idle still order
  obtain ⟨later, grown⟩ := steps.suffix once
  have left : w'.setUps e = u.setUps e ∧ w'.begun e = u.begun e ∧
      (w'.engine e).queue.posted = (u.engine e).queue.posted := by
    rw [ended]
    split
    · exact ⟨rfl, rfl, rfl⟩
    · exact ⟨rfl, rfl, by rw [Session.engine_draining]⟩
  obtain ⟨anew, begun', posted'⟩ := left
  have begun : w'.begun e = fs.reverse ++ w.begun e := begun'.trans (begins (anew.symm.trans once) (by simp)).2
  have posts : w'.posts e = w.posts e ++ (later.filterMap Event.callback?).reverse := by
    unfold Session.posts
    rw [show w'.history e = later ++ w.history e from grown.symm, List.filterMap_append, List.reverse_append]
  have ordered : fs ++ (w'.engine e).queue.posted =
      (w.engine e).queue.posted ++ (later.filterMap Event.callback?).reverse := by
    have before : (w.begun e).reverse ++ (w.engine e).queue.posted = w.posts e := order
    have after : (w'.begun e).reverse ++ (w'.engine e).queue.posted = w'.posts e := order'
    rw [begun, posts, ← before, List.reverse_append, List.reverse_reverse] at after
    simpa only [List.append_assoc, List.append_cancel_left_eq] using after
  have remains : (∃ host, w'.Drains host e) ↔ r = .stopped := by
    constructor
    · rintro ⟨host, drains⟩
      by_contra running
      have unmarked : (w'.engine e).queue.draining = false := by rw [ended, if_neg running, Session.engine_draining]
      exact Bool.false_ne_true (unmarked.symm.trans drains.marked)
    · rintro rfl
      exact ⟨host, budget, w, once.symm, outside, ran.trans (congrArg (·, w') counted)⟩
  exact ⟨fs, r, counted, ⟨u, served, ended⟩, begun, ⟨_, posts, ordered⟩, fun hr => posted'.trans (served.empties hr),
    remains⟩

end Draining

/-- At every moment of a run without loops, the callbacks that have begun and then those that are queued are the ones
that were posted, in this order. A drain that is asked for while one is in progress answers that none has run, and
leaves everything as it is. Any other one runs what is queued, in order, with what is posted meanwhile. If it returns,
the queue is empty, and it answers how many callbacks there were. If a callback fails, so does the drain, and those that
have not begun are left to the next one. It comes to its end when its callbacks do. -/
theorem queue_runs_in_posting_order {w₀ w : Session κ} (default : (w₀.engine e).queue = {})
    (unheard : w₀.history e = []) (loopless : w₀.Loopless) (moment : Session.Moment w₀ w)
    (once : w.setUps e = w₀.setUps e) (still : w.loops = w₀.loops) :
    (w.begun e).reverse ++ (w.engine e).queue.posted = w.posts e ∧
    ((∃ host, w.Drains host e) → ∀ env, Queue.runPending e env w = (.value 0, w)) ∧
    ((¬ ∃ host, w.Drains host e) → ∀ (host : Host κ) (budget : Nat),
      (∀ o w', Queue.runPending e (Env.within host budget) w = (o, w') → o ≠ .exhausted →
        w'.setUps e = w.setUps e → w'.loops = w.loops →
        ∃ fs r, o = r.counting fs.length ∧ Queue.Course (Env.within host budget) e w fs r w') ∧
      ∀ fs r u, Queue.Serves (Env.within host budget) e (w.draining e true) fs r u → fs.length < budget →
        (Queue.runPending e (Env.within host budget) w).1 = r.counting fs.length) := by
  have order₀ : (w₀.board e).InOrder := by
    change ((w₀.history e).filterMap _).reverse ++ (w₀.engine e).queue.posted = ((w₀.history e).filterMap _).reverse
    rw [unheard, default]
    rfl
  have sink₀ : (w₀.engine e).queue.sink = none := by rw [default]
  obtain ⟨ps, steps⟩ := moment.steps e
  obtain ⟨order, sink, idle⟩ := steps.inOrder once sink₀ loopless.board still order₀
  refine ⟨order, fun ⟨host, drains⟩ env => Queue.runPending_inside drains.marked, ?_⟩
  intro resting host budget
  have outside : (w.engine e).queue.draining = false := by
    by_contra marked
    exact resting (moment.drains once (by rw [default]) (by simpa using marked))
  exact ⟨fun _ _ => Queue.runPending_course order sink idle outside, fun _ _ _ => Queue.runPending_of_serves outside⟩

-- A client with callbacks in the queue. One of them posts another one and asks for a drain, and the next one fails.
namespace Rondo

def callback (name : String) : Value := .fn (.client name)

def ask (op : QueueOp) : Act Unit Value := .ask (.queue 0 op)

def host (quits : Bool) : Host Unit := fun name =>
  { body := fun _ =>
      if name = "first" then do
        let _ ← ask (.post (callback "last"))
        if quits then .quit else ask .runPending
      else if name = "failing" then .raise .invalid
      else return .none }

def main : Act Unit Value := do
  let _ ← ask (.post (callback "first"))
  let _ ← ask (.post (callback "failing"))
  ask (.post (callback "third"))

/-- When all callbacks have been posted. -/
def ready : Session Unit := (Session.run (host false) 10 main (.opened .defer ())).2

/-- Where the first callback quits in place of asking for a drain. -/
def within : Session Unit :=
  (Session.run (host true) 10 (do let _ ← main; ask .runPending) (.opened .defer ())).2

def drained : Outcome Nat × Session Unit := Queue.runPending 0 (Env.within (host false) 10) ready

end Rondo

/-- The drain that the first callback asks for does nothing. The other one gets as far as to the callback that fails,
and leaves the third one and the one that was posted meanwhile. -/
theorem queue_runs_in_posting_order_rondo :
    (∀ env, Queue.runPending 0 env Rondo.within = (.value 0, Rondo.within)) ∧
    Rondo.drained.1 = .fault .invalid ∧
    (∃ r, Queue.Course (Env.within (Rondo.host false) 10) 0 Rondo.ready
      [Rondo.callback "first", Rondo.callback "failing"] r Rondo.drained.2) ∧
    (Rondo.drained.2.engine 0).queue.posted = [Rondo.callback "third", Rondo.callback "last"] := by
  have loopless : (Session.opened .defer ()).Loopless := ⟨by decide +kernel, by decide +kernel⟩
  have within : Session.Moment (.opened .defer ()) Rondo.within :=
    .plain (Rondo.host true) 10 (do let _ ← Rondo.main; Rondo.ask .runPending) Prod.mk.eta.symm (by decide +kernel)
  have ready : Session.Moment (.opened .defer ()) Rondo.ready :=
    .plain (Rondo.host false) 10 Rondo.main Prod.mk.eta.symm (by decide +kernel)
  obtain ⟨-, idle, -⟩ := queue_runs_in_posting_order (e := 0) rfl rfl loopless within
    (by decide +kernel) (by decide +kernel)
  obtain ⟨-, -, outermost⟩ := queue_runs_in_posting_order (e := 0) rfl rfl loopless ready
    (by decide +kernel) (by decide +kernel)
  have inside : ∃ host, Rondo.within.Drains host 0 := within.drains (by decide +kernel) rfl (by decide +kernel)
  have outside : ¬ ∃ host, Rondo.ready.Drains host 0 := by
    rintro ⟨host, drains⟩
    exact absurd drains.marked (by decide +kernel)
  obtain ⟨drains, -⟩ := outermost outside (Rondo.host false) 10
  obtain ⟨fs, r, -, course⟩ := drains Rondo.drained.1 Rondo.drained.2 rfl
    (by decide +kernel) (by decide +kernel) (by decide +kernel)
  have first : Rondo.ready.begun 0 = [] := by decide +kernel
  have both : Rondo.drained.2.begun 0 = [Rondo.callback "failing", Rondo.callback "first"] := by decide +kernel
  have served : fs = [Rondo.callback "first", Rondo.callback "failing"] := by
    have begun := course.begun
    rw [first, both, List.append_nil] at begun
    exact List.reverse_injective begun.symm
  exact ⟨idle inside, by decide +kernel, ⟨r, served ▸ course⟩, by decide +kernel⟩

end ReactiveScopes
