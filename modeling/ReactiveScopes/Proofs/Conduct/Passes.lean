import ReactiveScopes.Proofs.Conduct

/-!
# The queue and the scheduler follow the machine

The operations whose effects are the machine's own moves. An operation of another engine is part of
everything else.
-/
namespace ReactiveScopes

open Eff

variable {κ α : Type} {e : Nat}

namespace Session

/-- A session in which one more thing has happened. -/
def logged (w : Session κ) (ev : Event) : Session κ := { w with journal := ev :: w.journal }

/-- A session in which an engine's scheduler has changed. -/
def reschedule (w : Session κ) (e : Nat) (f : Scheduler → Scheduler) : Session κ :=
  w.modifyEngine e fun x => { x with scheduler := f x.scheduler }

/-- A session in which an engine's queue has changed. -/
def requeue (w : Session κ) (e : Nat) (f : Queue → Queue) : Session κ :=
  w.modifyEngine e fun x => { x with queue := f x.queue }

/-- A session in which one more callable has been made. -/
def closing (w : Session κ) (c : Closure) : Session κ := { w with closures := w.closures.push c }

/-- A pass is left to the one that is running. -/
def deferring (w : Session κ) (e : Nat) (key : Value) : Session κ :=
  w.reschedule e fun s => { s with deferred := insertKey key s.deferred }

@[simp]
theorem engine_logged (w : Session κ) (ev : Event) (e : Nat) : (w.logged ev).engine e = w.engine e := rfl

@[simp]
theorem engine_reschedule (w : Session κ) (e : Nat) (f : Scheduler → Scheduler) :
    (w.reschedule e f).engine e = { w.engine e with scheduler := f (w.engine e).scheduler } := by
  simp [reschedule]

@[simp]
theorem engine_requeue (w : Session κ) (e : Nat) (f : Queue → Queue) :
    (w.requeue e f).engine e = { w.engine e with queue := f (w.engine e).queue } := by
  simp [requeue]

/-- Of an engine nothing but its scheduler and its queue has changed, and no cell of the store has. -/
structure Bides (w : Session κ) (e : Nat) (w' : Session κ) : Prop where
  engine : ∃ s q, w'.engine e = { w.engine e with scheduler := s, queue := q }
  cells : ∀ {r c}, w.store.cell? r = some c → w'.store.cell? r = some c

theorem Bides.refl (w : Session κ) (e : Nat) : w.Bides e w := ⟨⟨_, _, rfl⟩, id⟩

theorem Bides.trans {w w' w'' : Session κ} (h : w.Bides e w') (h' : w'.Bides e w'') : w.Bides e w'' := by
  obtain ⟨s, q, he⟩ := h.engine
  obtain ⟨s', q', he'⟩ := h'.engine
  exact ⟨⟨s', q', by rw [he', he]⟩, h'.cells ∘ h.cells⟩

theorem bides_logged (w : Session κ) (e : Nat) (ev : Event) : w.Bides e (w.logged ev) := ⟨⟨_, _, rfl⟩, id⟩

theorem bides_reschedule (w : Session κ) (e : Nat) (f : Scheduler → Scheduler) : w.Bides e (w.reschedule e f) :=
  ⟨⟨f (w.engine e).scheduler, (w.engine e).queue, engine_reschedule w e f⟩, id⟩

theorem bides_requeue (w : Session κ) (e : Nat) (f : Queue → Queue) : w.Bides e (w.requeue e f) :=
  ⟨⟨(w.engine e).scheduler, f (w.engine e).queue, engine_requeue w e f⟩, id⟩

theorem bides_alloc (w : Session κ) (e : Nat) (c : Cell) : w.Bides e { w with store := (w.store.alloc c).2 } := by
  refine ⟨⟨_, _, rfl⟩, fun {r d} hr => ?_⟩
  have bound : r.index < w.store.cells.size := (Array.getElem?_eq_some_iff.1 hr).1
  exact (Store.cell?_alloc_old bound).trans hr

theorem Bides.engine_eq {w w' : Session κ} (h : w.Bides e w') (board : w'.board e = w.board e) :
    w'.engine e = w.engine e := by
  obtain ⟨_, _, he⟩ := h.engine
  have hs : (w'.engine e).scheduler = (w.engine e).scheduler := congrArg Board.scheduler board
  have hq : (w'.engine e).queue = (w.engine e).queue := congrArg Board.queue board
  rw [he] at hs hq ⊢
  dsimp only at hs hq
  rw [hs, hq]

/-- Nothing has happened that concerns an engine, the cells of the store or the client. -/
structure Still (w : Session κ) (e : Nat) (w' : Session κ) : Prop where
  board : w'.board e = w.board e
  bides : w.Bides e w'
  memory : w'.memory = w.memory

theorem Still.refl (w : Session κ) (e : Nat) : w.Still e w := ⟨rfl, .refl w e, rfl⟩

theorem Still.trans {w w' w'' : Session κ} (h : w.Still e w') (h' : w'.Still e w'') : w.Still e w'' :=
  ⟨h'.board.trans h.board, h.bides.trans h'.bides, h'.memory.trans h.memory⟩

theorem scheduler_board (w : Session κ) (e : Nat) :
    (w.board e).scheduler = (w.engine e).scheduler := rfl

theorem board_logged (w : Session κ) {ev : Event} (h : ev.engine? = some e) (hs : ev.sets e = false) :
    (w.logged ev).board e = (w.board e).note ev := by
  simp [logged, board, history, setUps, doors, engine, h, hs, Event.door?_of_engine? h]

theorem begun_logged (w : Session κ) {ev : Event} (going : ev.sets e = false) (h : ev.begun? = none) :
    (w.logged ev).begun e = w.begun e := by
  unfold begun history logged
  rw [List.takeWhile_cons, going]
  by_cases about : ev.engine? = some e <;> simp [about, h]

theorem board_modifyEngine (w : Session κ) (e : Nat) (f : Engine → Engine) :
    (w.modifyEngine e f).board e =
      { w.board e with
        scheduler := (f (w.engine e)).scheduler
        queue := (f (w.engine e)).queue } := by
  have he : (w.modifyEngine e f).engine e = f (w.engine e) := by simp
  unfold board
  rw [he]
  rfl

theorem board_reschedule (w : Session κ) (e : Nat) (f : Scheduler → Scheduler) :
    (w.reschedule e f).board e = (w.board e).reschedule f :=
  board_modifyEngine w e _

theorem board_requeue (w : Session κ) (e : Nat) (f : Queue → Queue) :
    (w.requeue e f).board e = { w.board e with queue := f (w.board e).queue } :=
  board_modifyEngine w e _

end Session

section Steps

variable {env : Env κ} {w : Session κ}

theorem Eff.bind_log (ev : Event) (k : Unit → Eff κ α) :
    (log ev >>= k) env w = k () env (w.logged ev) := rfl

theorem Eff.bind_close (c : Closure) (k : Fn → Eff κ α) :
    (close c >>= k) env w = k (.made w.closures.size) env (w.closing c) := rfl

theorem Scheduler.bind_modify (f : Scheduler → Scheduler) (k : Unit → Eff κ α) :
    (modify e f >>= k) env w = k () env (w.reschedule e f) := rfl

theorem Queue.bind_modify (f : Queue → Queue) (k : Unit → Eff κ α) :
    (modify e f >>= k) env w = k () env (w.requeue e f) := rfl

theorem Scheduler.enqueue_defers {key : Value} (running : key ∈ (w.engine e).scheduler.running)
    (defer : (w.engine e).scheduler.policy = .defer) (env : Env κ) :
    enqueue e key env w = (.value (), w.deferring e key) := by
  unfold enqueue
  rw [bind_scheduler, if_pos (by simpa using running), if_pos defer]
  rfl

end Steps

namespace Follows

open Session

instance (entry : Ready) : Follows e (Queue.soon entry : Eff κ Unit) :=
  move_loop fun l => .add l entry

/-- Without a sink a post comes to its end by itself. -/
theorem post_own (env : Env κ) {w : Session κ} (f : Value) (hs : (w.board e).queue.sink = none) :
    ∃ w', Queue.post e f env w = (.value (), w') ∧ w'.board e = (w.board e).posting e f := by
  unfold Queue.post
  rw [bind_log, bind_engine, bind_read]
  have hb : (w.logged (.posted e f)).board e = (w.board e).note (.posted e f) :=
    board_logged w rfl rfl
  rw [show ((w.logged (.posted e f)).engine e).queue.sink = none from hs]
  rcases hl : (w.logged (.posted e f)).loop with _ | l
  · refine ⟨(w.logged (.posted e f)).requeue e fun q => { q with posted := q.posted ++ [f] }, rfl, ?_⟩
    rw [Board.posting_queued hs hl, board_requeue, hb]
    rfl
  · let w₁ := (w.logged (.posted e f)).logged (.handed e f l.number)
    let add (l : Loop) : Loop := { l with ready := l.ready ++ [.call f] }
    refine ⟨{ w₁ with loop := w₁.loop.map add }, rfl, ?_⟩
    change ({ w₁.board e with loop := w.loop.map add } : Board) = _
    rw [Board.posting_handed hs hl, board_logged _ rfl rfl, hb, show w.loop = some l from hl]
    rfl

/-- A post takes the engine to the board after it, and then tells the sink if there is one. -/
theorem leads_post {env : Env κ} {w : Session κ} {s : Scene} {ps : List OpenPass} {f : Value}
    (henv : env.Follows e) (h : Steps e s ⟨(w.board e).posting e f, ps, none⟩) :
    Leads e s (Queue.post e f env w) ps := by
  rcases hs : (w.board e).queue.sink with _ | p
  · obtain ⟨w', hw, hb⟩ := post_own env f hs
    rw [hw]
    change Steps e s ⟨w'.board e, ps, none⟩
    rwa [hb]
  · have hb : (w.logged (.posted e f)).board e = (w.board e).note (.posted e f) :=
      board_logged w rfl rfl
    rw [Board.posting_told (by rw [hs]; nofun), ← hb] at h
    unfold Queue.post
    rw [bind_log, bind_engine, bind_read]
    rw [show ((w.logged (.posted e f)).engine e).queue.sink = some p from hs]
    exact lead (do let _ ← callFn p [f]) henv h

instance (x : Nat) (f : Value) : Follows e (Queue.post x f : Eff κ Unit) := by
  by_cases hx : x = e
  · subst hx
    exact ⟨fun _ w ps henv => leads_post henv (.single (.post _ ps f))⟩
  · have told (ev : Event) (about : ev.engine? = some x) := log_other (κ := κ) ev about hx
    have posted : Obeys (discipline e) (Queue.post x f : Eff κ Unit) :=
      .post ⟨told _ rfl⟩ (fun _ => ⟨told _ rfl⟩) fun _ => ⟨modifyEngine_other hx _⟩
    exact posted.kept

theorem leads_modify {f : Scheduler → Scheduler} {env : Env κ} {w : Session κ} {s : Scene}
    {ps : List OpenPass} (h : Steps e s ⟨(w.board e).reschedule f, ps, none⟩) :
    Leads e s (Scheduler.modify e f env w) ps := by
  change Steps e s ⟨(w.reschedule e f).board e, ps, none⟩
  rw [board_reschedule]
  exact h

/-- All that may be left of a write once it has been marked is its post. -/
theorem enqueue_eq (env : Env κ) (w : Session κ) (key : Value) :
    (∃ w', Scheduler.enqueue e key env w = (.value (), w') ∧
      w'.board e = (w.board e).enqueue e key) ∨
    ∃ f w₁, Scheduler.enqueue e key env w = Queue.post e f env w₁ ∧
      (w₁.board e).queue = (w.board e).queue ∧
      (w₁.board e).posting e f = (w.board e).enqueue e key := by
  unfold Scheduler.enqueue
  rw [Scheduler.bind_scheduler]
  simp only [List.contains_iff_mem]
  unfold Board.enqueue
  rw [scheduler_board]
  split
  · split
    · exact .inl ⟨_, rfl, board_reschedule w e fun s => { s with deferred := insertKey key s.deferred }⟩
    · exact .inl ⟨w, rfl, rfl⟩
  · split
    · exact .inl ⟨w, rfl, rfl⟩
    · let w₁ := w.reschedule e fun s => { s with pending := insertKey key s.pending }
      have hb : (w₁.closing (.pass e key)).board e = ((w.board e).reschedule fun s =>
          { s with pending := insertKey key s.pending }).close (.pass e key) := by
        rw [← board_reschedule]
        rfl
      exact .inr ⟨_, w₁.closing (.pass e key), rfl, by rw [hb]; rfl, by rw [hb]; rfl⟩

/-- Where a write leads once it has been logged, or the pass it was deferred to has ended. -/
theorem leads_enqueue {env : Env κ} {w : Session κ} {s : Scene} {ps : List OpenPass} {key : Value}
    (henv : env.Follows e) (h : Steps e s ⟨(w.board e).enqueue e key, ps, none⟩) :
    Leads e s (Scheduler.enqueue e key env w) ps := by
  rcases enqueue_eq env w key with ⟨w', hw, hb⟩ | ⟨f, w₁, hw, -, hb⟩ <;> rw [hw]
  · change Steps e s ⟨w'.board e, ps, none⟩
    rwa [hb]
  · exact leads_post henv (hb ▸ h)

theorem enqueue_other {x : Nat} (hx : x ≠ e) (key : Value) :
    Follows e (Scheduler.enqueue x key : Eff κ Unit) := by
  have := fun g => modifyEngine_other (κ := κ) hx g
  have : Follows e (close (.pass x key) : Eff κ Fn) := follows_close fun k h => by
    cases h
    exact hx rfl
  unfold Scheduler.enqueue Scheduler.scheduler Scheduler.modify
  infer_instance

theorem leads_request {env : Env κ} {w : Session κ} {s : Scene} {ps : List OpenPass} {key : Value}
    (henv : env.Follows e) (h : Steps e s ⟨(w.board e).request e key, ps, none⟩) :
    Leads e s (Scheduler.request e key env w) ps := by
  unfold Scheduler.request
  rw [bind_log]
  refine leads_enqueue henv ?_
  rw [board_logged w rfl rfl]
  exact h

/-- Without a sink a write comes to its end by itself. -/
theorem request_own (env : Env κ) {w : Session κ} (key : Value)
    (hs : (w.board e).queue.sink = none) :
    ∃ w', Scheduler.request e key env w = (.value (), w') ∧
      w'.board e = (w.board e).request e key := by
  have hb : (w.logged (.requested e key)).board e = (w.board e).note (.requested e key) :=
    board_logged w rfl rfl
  unfold Scheduler.request Board.request
  rw [bind_log, ← hb]
  rcases enqueue_eq env (w.logged (.requested e key)) key with h | ⟨f, w₁, hw, hq, hp⟩
  · exact h
  · rw [hw, ← hp]
    exact post_own env f (by rw [hq]; exact hs)

instance (x : Nat) (key : Value) : Follows e (Scheduler.request x key : Eff κ Unit) := by
  by_cases hx : x = e
  · subst hx
    exact ⟨fun env w ps henv => leads_request henv (.single (.request _ ps key))⟩
  · have := log_other (κ := κ) (e := e) (.requested x key) rfl hx
    have := enqueue_other (κ := κ) hx key
    unfold Scheduler.request
    infer_instance

/-- Moves lead from a scene to where the watchers of the innermost pass have been called, or where
something got out of one that left the rest uncalled. -/
def Calls (e : Nat) (s : Scene) (r : Outcome α × Session κ) (key : Value) (ps : List OpenPass) : Prop :=
  match r with
  | (.value _, w) => Steps e s (w.scene e (⟨key, some []⟩ :: ps))
  | (.fault _, w) => ∃ rest, Steps e s (w.scene e (⟨key, some rest⟩ :: ps))
  | (.stopped, w) => ∃ ps', Steps e s (w.scene e ps')
  | (.exhausted, _) => True

theorem Calls.head {s t : Scene} {r : Outcome α × Session κ} {key : Value} {ps : List OpenPass}
    (h : Steps e s t) (ht : Calls e t r key ps) : Calls e s r key ps := by
  obtain ⟨o, w⟩ := r
  cases o with
  | value a => exact h.trans ht
  | fault f =>
    obtain ⟨rest, ht⟩ := ht
    exact ⟨rest, h.trans ht⟩
  | stopped =>
    obtain ⟨ps', ht⟩ := ht
    exact ⟨ps', h.trans ht⟩
  | exhausted => trivial

theorem Calls.bind {s : Scene} {β : Type} {m : Eff κ β} {k : β → Eff κ α} {env : Env κ} {w : Session κ}
    {key : Value} {fs : List Value} {ps : List OpenPass}
    (hm : Leads e s (m env w) (⟨key, some fs⟩ :: ps))
    (hk : ∀ a w', Calls e (w'.scene e (⟨key, some fs⟩ :: ps)) (k a env w') key ps) :
    Calls e s ((m >>= k) env w) key ps := by
  change Calls e s (Eff.bind m k env w) key ps
  unfold Eff.bind
  rcases h : m env w with ⟨a | _ | _ | _, w'⟩ <;> rw [h] at hm
  · exact Calls.head hm (hk a w')
  · exact ⟨fs, hm⟩
  · exact hm
  · trivial

theorem calls_callWatchers {env : Env κ} (henv : env.Follows e) (key : Value) (fs : List Value)
    (ps : List OpenPass) (w : Session κ) :
    Calls e (w.scene e (⟨key, some fs⟩ :: ps)) (Scheduler.callWatchers e key fs env w) key ps := by
  induction fs generalizing w with
  | nil => exact .refl
  | cons f fs ih =>
    have hc : Step e (w.scene e (⟨key, some (f :: fs)⟩ :: ps))
        ((w.logged (.watcherCalled e key f)).scene e (⟨key, some fs⟩ :: ps)) := by
      rw [Session.scene, Session.scene, board_logged w rfl rfl]
      exact .call _ ps key f fs
    refine Calls.head (.single hc) ?_
    unfold Scheduler.callWatchers
    rw [bind_log]
    refine Calls.bind (leads _ (w.logged _) _ henv) fun _ w' => ?_
    exact ih w'

/-- A handler that does not fail leaves only what it is not for. -/
theorem contain_fault {m : Eff κ α} {contains : Fault → Bool} {handle : Fault → Eff κ α}
    {env : Env κ} {w w' : Session κ} {f : Fault}
    (hh : ∀ g w₁, (handle g env w₁).1 ≠ .fault f)
    (h : contain m contains handle env w = (.fault f, w')) : contains f = false := by
  unfold contain at h
  rw [bind_attempt] at h
  rcases hm : m env w with ⟨_ | g | _ | _, w₁⟩ <;> rw [hm] at h
  · cases h
  · dsimp only at h
    split at h
    · exact absurd (congrArg Prod.fst h) (hh g w₁)
    · next hg =>
      cases h
      exact Bool.eq_false_of_not_eq_true hg
  · cases h
  · cases h

/-- What breaks a pass off is no error of a watcher. -/
theorem callWatchers_fault {env : Env κ} {key : Value} {fs : List Value} {w w' : Session κ} {f : Fault}
    (h : Scheduler.callWatchers e key fs env w = (.fault f, w')) : f.isError = false := by
  induction fs generalizing w with
  | nil => cases h
  | cons g fs ih =>
    let m : Eff κ Unit := contain (do let _ ← callValue g []) Fault.isError fun fault =>
      notice (.watcherFailed fault)
    unfold Scheduler.callWatchers at h
    rw [bind_log] at h
    change Eff.bind m (fun _ => Scheduler.callWatchers e key fs) env (w.logged _) = _ at h
    unfold Eff.bind at h
    rcases hm : m env (w.logged _) with ⟨_ | _ | _ | _, w₂⟩ <;> rw [hm] at h
    · exact ih h
    · cases h
      exact contain_fault (fun _ _ hn => by cases hn) hm
    · cases h
    · cases h

/-- From where a pass is open, its run leads to where it is over. -/
theorem leads_runPass {env : Env κ} {w : Session κ} {s : Scene} {ps : List OpenPass} {key : Value}
    {fs : List Value} (henv : env.Follows e) (h : Steps e s ((w.board e).openPass e key fs ps)) :
    Leads e s (Scheduler.runPass e key fs env w) ps := by
  unfold Scheduler.runPass
  rw [bind_log, Scheduler.bind_modify, bind_attempt]
  let w₁ := (w.logged (.passBegan e key fs)).reschedule e fun s =>
    { s with running := insertKey key s.running }
  have h₁ : Steps e s (w₁.scene e (⟨key, some fs⟩ :: ps)) := by
    rw [Session.scene, board_reschedule, board_logged w rfl rfl]
    exact h
  have left : ∀ (w₂ : Session κ) (fault : Option Fault), ((w₂.reschedule e fun s =>
      { s with running := eraseKey key s.running }).logged (.passEnded e key fault)).board e =
      (w₂.board e).leavePass e key fault := by
    intro w₂ fault
    rw [board_logged _ rfl rfl, board_reschedule]
    rfl
  have hc := Calls.head h₁ (calls_callWatchers henv key fs ps w₁)
  rcases hr : Scheduler.callWatchers e key fs env w₁ with ⟨_ | f | _ | _, w₂⟩ <;> rw [hr] at hc
  · have h₂ : Steps e s ⟨(w₂.board e).finishPass e key, ps, none⟩ := hc.tail (.finish _ ps key)
    unfold Board.finishPass at h₂
    rw [← left] at h₂
    dsimp only [fault?] at h₂ ⊢
    rw [scheduler_board] at h₂
    rw [Scheduler.bind_modify, bind_log, bind_ofExcept_ok, Scheduler.bind_scheduler]
    simp only [List.contains_iff_mem]
    split
    · next hd =>
      rw [if_pos hd, ← board_reschedule] at h₂
      rw [Scheduler.bind_modify]
      exact leads_enqueue henv h₂
    · next hd =>
      rw [if_neg hd] at h₂
      exact h₂
  · obtain ⟨rest, hc⟩ := hc
    have h₂ : Steps e s ⟨(w₂.board e).leavePass e key (some f), ps, none⟩ :=
      hc.tail (.breakOff _ ps key rest f (callWatchers_fault hr))
    dsimp only
    rw [Scheduler.bind_modify, bind_log, bind_ofExcept_error]
    rw [← left] at h₂
    exact h₂
  · exact hc
  · trivial

theorem shownState_quiet {w : Session κ} (key : Value)
    (h : ∀ f, (w.board e).scheduler.describe ≠ some (some f)) :
    ∃ v w', (∀ env, Scheduler.shownState e key env w = (.value v, w')) ∧ w.Still e w' := by
  have opened (env : Env κ) : Scheduler.shownState e key env w = _ := bind_engine e _
  rcases hd : (w.engine e).scheduler.describe with _ | _ | f <;> rw [hd] at opened
  · dsimp only at opened
    have looked (env : Env κ) := (opened env).trans (bind_store _)
    rcases hm : ((w.engine e).records.get? key).bind w.store.mapping? with _ | data <;> rw [hm] at looked
    · exact ⟨_, _, looked, .refl w e⟩
    · exact ⟨_, _, looked, rfl, bides_alloc w e (.dict data), rfl⟩
  · exact ⟨_, _, opened, .refl w e⟩
  · exact absurd hd (h f)

/-- Unless tracing runs client code it changes nothing that concerns the engine. -/
theorem trace_quiet {w : Session κ} (key : Value) (h : ¬ (w.board e).scheduler.Loud) :
    ∃ w', (∀ env, Scheduler.trace e key env w = (.value ((w.board e).scheduler.watchersOf key), w')) ∧
      w.Still e w' := by
  have opened (env : Env κ) : Scheduler.trace e key env w = _ := Scheduler.bind_scheduler e _
  rcases hd : (w.engine e).scheduler.debug with _ | _ <;> rw [hd] at opened
  · exact ⟨w, opened, .refl w e⟩
  · let w₁ := w.reschedule e fun s => { s with tracing := (key, none) :: s.tracing }
    have h₁ : w₁.board e = _ := board_reschedule w e _
    have hq : ∀ f, (w₁.board e).scheduler.describe ≠ some (some f) := by
      rw [h₁]
      exact fun f hf => h ⟨hd, f, hf⟩
    obtain ⟨v, w₂, hs, h₂, k₂, m₂⟩ := shownState_quiet key hq
    let w₃ := w₂.reschedule e fun s => { s with tracing := s.tracing.tail }
    have h₃ : w₃.board e = w.board e := by
      rw [board_reschedule, h₂, h₁]
      rfl
    have hs₂ : (w₂.engine e).scheduler =
        { (w.board e).scheduler with tracing := (key, none) :: (w.board e).scheduler.tracing } :=
      congrArg Board.scheduler (h₂.trans h₁)
    let told := Event.notice (.pass ((w.board e).scheduler.watchersOf key).length v w₃.store)
    refine ⟨w₃.logged told, fun env => ?_, h₃, ?_, m₂⟩
    · rw [opened, if_neg (by simp), Scheduler.bind_modify, bind_attempt, hs]
      dsimp only
      rw [Scheduler.bind_scheduler, hs₂]
      rfl
    · exact ((bides_reschedule w e _).trans (k₂.trans (bides_reschedule w₂ e _))).trans (bides_logged w₃ e told)

instance (key : Value) : Follows e (Scheduler.trace e key : Eff κ (List Value)) := by
  have trace : Obeys (discipline e) (Scheduler.trace e key : Eff κ (List Value)) :=
    .trace fun _ => ⟨⟨fun _ w ps _ => leads_modify (.single (.aside (w.board e) ps _ _))⟩⟩
  exact trace.kept

theorem leads_notify {env : Env κ} {w : Session κ} {s : Scene} {ps : List OpenPass} {key : Value}
    (henv : env.Follows e) (h : Steps e s ((w.board e).beginPass e key ps))
    (hl : (w.board e).scheduler.Loud → Steps e s (w.scene e (⟨key, none⟩ :: ps))) :
    Leads e s (Scheduler.notify e key env w) ps := by
  unfold Scheduler.notify
  rw [Scheduler.bind_scheduler]
  unfold Board.beginPass at h
  rw [scheduler_board] at h
  rcases hf : (w.engine e).scheduler.watchersOf key with _ | ⟨f, fs⟩
  · rw [hf] at h
    change Steps e s (((w.logged _).logged _).scene e ps)
    rw [Session.scene, board_logged _ rfl rfl, board_logged w rfl rfl]
    exact h
  · rw [hf] at h
    change Leads e s (Eff.bind (Scheduler.trace e key) (Scheduler.runPass e key) env w) ps
    unfold Eff.bind
    by_cases loud : (w.board e).scheduler.Loud
    · have ht := lead (Scheduler.trace e key) henv (hl loud)
      rcases hr : Scheduler.trace e key env w with ⟨gs | _ | _ | _, w₁⟩ <;> rw [hr] at ht
      · exact leads_runPass henv (ht.tail (.traced _ ps key gs))
      · exact ht.tail (.traceFailed _ ps key)
      · exact ht
      · trivial
    · obtain ⟨w₁, ht, hb, -⟩ := trace_quiet key loud
      rw [ht env, scheduler_board, hf]
      refine leads_runPass henv ?_
      rw [hb]
      exact h

section Other

variable {x : Nat}

theorem notify_other (hx : x ≠ e) (key : Value) : Follows e (Scheduler.notify x key : Eff κ Unit) := by
  have told (ev : Event) (about : ev.engine? = some x) := log_other (κ := κ) ev about hx
  have modify (f : Scheduler → Scheduler) : Obeys (discipline e) (Scheduler.modify x f : Eff κ Unit) :=
    ⟨modifyEngine_other hx _⟩
  have := enqueue_other (κ := κ) hx key
  have : Obeys (discipline e) (Scheduler.trace x key : Eff κ (List Value)) := .trace fun _ => modify _
  have calls (fs : List Value) : Obeys (discipline e) (Scheduler.callWatchers x key fs : Eff κ Unit) :=
    .callWatchers (fun f => ⟨told _ rfl⟩) fs
  have notify : Obeys (discipline e) (Scheduler.notify x key : Eff κ Unit) :=
    .notify modify (fun _ => ⟨told _ rfl⟩) fun _ => ⟨told _ rfl⟩
  exact notify.kept

theorem drain_other (hx : x ≠ e) (fuel ran : Nat) : Follows e (Queue.drain x fuel ran : Eff κ Nat) := by
  have drain : Obeys (discipline e) (Queue.drain x fuel ran : Eff κ Nat) :=
    .drain (fun f => ⟨log_other (.began x f) rfl hx⟩) (fun _ => ⟨modifyEngine_other hx _⟩) fuel ran
  exact drain.kept

end Other

/-- A flush, of a callback that is due as much as any other. -/
theorem leads_flush {env : Env κ} {w : Session κ} {ps : List OpenPass} {key : Value}
    {due : Option Value} (henv : env.Follows e) (hd : ∀ f ∈ due, (w.board e).runsPass e key f) :
    Leads e ⟨w.board e, ps, due⟩ (Scheduler.flush e key env w) ps := by
  unfold Scheduler.flush
  rw [Scheduler.bind_scheduler]
  simp only [List.contains_iff_mem]
  split
  · next hp =>
    have hb : (w.reschedule e fun s => { s with pending := eraseKey key s.pending }).board e =
        (w.board e).unmark key := board_reschedule w e _
    rw [Scheduler.bind_modify]
    refine leads_notify henv ?_ fun hl => ?_
    · rw [hb]
      exact .single (.flush _ ps key due hp hd)
    · rw [Session.scene, hb]
      rw [hb] at hl
      exact .single (.trace _ ps key due hl hd)
  · next hp =>
    cases due with
    | none => exact .refl
    | some f =>
      refine .single (.skip _ ps f fun x hx => ?_)
      rw [Board.runsPass_unique hx (hd f rfl)]
      exact hp

instance (x : Nat) (key : Value) : Follows e (Scheduler.flush x key : Eff κ Unit) := by
  by_cases hx : x = e
  · subst hx
    exact ⟨fun env w ps henv => leads_flush henv fun f hf => by cases hf⟩
  · have := fun g => modifyEngine_other (κ := κ) hx g
    have := notify_other (κ := κ) hx key
    unfold Scheduler.flush Scheduler.scheduler Scheduler.modify
    infer_instance

/-- Changes of a scheduler that are moves. -/
theorem modify_move (x : Nat) {f : Scheduler → Scheduler}
    (h : ∀ b ps, Step e ⟨b, ps, none⟩ ⟨b.reschedule f, ps, none⟩) :
    Follows e (Scheduler.modify x f : Eff κ Unit) := by
  by_cases hx : x = e
  · subst hx
    exact ⟨fun env w ps henv => leads_modify (.single (h _ ps))⟩
  · exact modifyEngine_other hx _

/-- So are those that are told of first. -/
theorem log_modify_move (x : Nat) {ev : Event} {f : Scheduler → Scheduler} (about : ev.engine? = some x)
    (going : ev.sets x = false)
    (h : ∀ b ps, Step x ⟨b, ps, none⟩ ⟨(b.note ev).reschedule f, ps, none⟩) :
    Follows e (do log ev; Scheduler.modify x f : Eff κ Unit) := by
  by_cases hx : x = e
  · subst hx
    refine ⟨fun env w ps henv => ?_⟩
    rw [bind_log]
    refine leads_modify ?_
    rw [board_logged w about going]
    exact .single (h _ ps)
  · have := fun g => modifyEngine_other (κ := κ) hx g
    have := log_other (κ := κ) (e := e) ev about hx
    unfold Scheduler.modify
    infer_instance

instance (x : Nat) (key f : Value) : Follows e (Scheduler.register x key f : Eff κ Unit) :=
  log_modify_move x rfl rfl fun b ps => .addWatcher b ps key f

theorem follows_removeWatcher (x : Nat) (key f : Value) :
    Follows e (Scheduler.modify x fun s => s.removeWatcher key f : Eff κ Unit) :=
  modify_move x fun b ps => .removeWatcher b ps key f

instance (x : Nat) (key : Value) : Follows e (Scheduler.forget x key : Eff κ Unit) :=
  log_modify_move x rfl rfl fun b ps => .drop b ps key

instance (x : Nat) (key : Value) : Follows e (Scheduler.named x key : Eff κ Value) := by
  have named : Obeys (discipline e) (Scheduler.named x key : Eff κ Value) :=
    .named fun _ => ⟨modify_move x fun b ps => .aside b ps _ _⟩
  exact named.kept

instance (x : Nat) (key : Value) : Follows e (Scheduler.force x key : Eff κ Unit) := by
  by_cases hx : x = e
  · subst hx
    refine ⟨fun env w ps henv => ?_⟩
    have hb : (w.logged (.notified x key)).board x = (w.board x).note (.notified x key) :=
      board_logged w rfl rfl
    unfold Scheduler.force
    rw [bind_log]
    refine leads_notify henv ?_ fun hl => ?_
    · rw [hb]
      exact .single (.notify _ ps key)
    · rw [Session.scene, Session.scene, hb]
      rw [hb] at hl
      exact .single (.traceNotified _ ps key hl)
  · have := notify_other (κ := κ) hx key
    have := log_other (κ := κ) (e := e) (.notified x key) rfl hx
    unfold Scheduler.force
    infer_instance

/-- A callback is taken from the queue and called, until none is left. -/
theorem leads_drain {env : Env κ} (henv : env.Follows e) (fuel ran : Nat) (w : Session κ)
    (ps : List OpenPass) : Leads e (w.scene e ps) (Queue.drain e fuel ran env w) ps := by
  induction fuel generalizing ran w with
  | zero => trivial
  | succ fuel ih =>
    unfold Queue.drain
    rw [bind_engine]
    rcases hq : (w.engine e).queue.posted with _ | ⟨f, rest⟩
    · exact .refl
    · dsimp only
      rw [Queue.bind_modify, bind_log]
      let w₁ := (w.requeue e fun q => { q with posted := rest }).logged (.began e f)
      have hs : Step e (w.scene e ps) ⟨w₁.board e, ps, some f⟩ := by
        rw [board_logged _ rfl rfl, board_requeue]
        exact .pop _ ps f rest hq
      exact leads_bind (Leads.head (.single hs) (leads_due henv f w₁ ps)) fun _ w₃ _ =>
        ih (ran + 1) w₃

instance (x : Nat) : Follows e (Queue.runPending x : Eff κ Nat) := by
  have hd : ∀ fuel ran, Follows e (Queue.drain x fuel ran : Eff κ Nat) := by
    intro fuel ran
    by_cases hx : x = e
    · subst hx
      exact ⟨fun env w ps henv => leads_drain henv fuel ran w ps⟩
    · exact drain_other hx fuel ran
  have hm : ∀ d, Follows e (Queue.modify x fun q => { q with draining := d } : Eff κ Unit) := by
    intro d
    by_cases hx : x = e
    · subst hx
      refine ⟨fun env w ps henv => ?_⟩
      change Steps x _ ((w.requeue x fun q => { q with draining := d }).scene x ps)
      rw [Session.scene, Session.scene, board_requeue]
      exact .single (.drain _ ps d)
    · exact modifyEngine_other hx _
  unfold Queue.runPending
  infer_instance

end Follows

section Flush

variable {env : Env κ} {w w' : Session κ} {key : Value}

/-- What is left of a flush of a pending key once the pass of it begins. -/
theorem Scheduler.steps_of_flush (henv : env.Follows e)
    (h : flush e key env w = (.value (), w')) (hp : key ∈ (w.board e).scheduler.pending)
    (quiet : ¬ (w.board e).scheduler.Loud) (ps : List OpenPass) :
    Steps e (((w.board e).unmark key).beginPass e key ps) (w'.scene e ps) := by
  let w₀ := w.reschedule e fun s => { s with pending := eraseKey key s.pending }
  have hb : w₀.board e = (w.board e).unmark key := Session.board_reschedule w e _
  have hl : Leads e ((w₀.board e).beginPass e key ps) (notify e key env w₀) ps :=
    Follows.leads_notify henv .refl fun loud => by
      rw [hb] at loud
      exact absurd loud quiet
  unfold flush at h
  rw [bind_scheduler] at h
  simp only [List.contains_iff_mem] at h
  rw [if_pos (show key ∈ (w.engine e).scheduler.pending from hp), bind_modify] at h
  rwa [show notify e key env w₀ = (.value (), w') from h, hb] at hl

theorem Scheduler.flush_of_unmarked (hp : key ∉ (w.board e).scheduler.pending) :
    flush e key env w = (.value (), w) := by
  unfold flush
  rw [bind_scheduler]
  simp only [List.contains_iff_mem]
  rw [if_neg (show key ∉ (w.engine e).scheduler.pending from hp)]
  rfl

end Flush

end ReactiveScopes
