import ReactiveScopes.Proofs.Delivery
import ReactiveScopes.Proofs.PassCourse

/-!
# Handling an event delivers

Handling an event evaluates and then flushes. A write that the evaluation reported has marked its scope
unless a pass of it was running, and the mark stays until a pass begins: one within the evaluation, or that
of the flush. A flush that comes back has called every watcher and leaves no mark, because the scope is
running all the while; one within the evaluation may have been broken off by what is no error.
-/
namespace ReactiveScopes

open Eff History

variable {κ : Type} {e : Nat} {key : Value}

namespace Scheduler

variable {env : Env κ} {w w' : Session κ} {fs : List Value}

/-- The session in which a pass has just begun. -/
def opening (w : Session κ) (e : Nat) (key : Value) (fs : List Value) : Session κ :=
  (w.logged (.passBegan e key fs)).reschedule e fun s => { s with running := insertKey key s.running }

theorem scene_opening (w : Session κ) (e : Nat) (key : Value) (fs : List Value) (ps : List OpenPass) :
    (opening w e key fs).scene e (⟨key, some fs⟩ :: ps) = (w.board e).openPass e key fs ps := by
  unfold opening
  rw [Session.scene, Session.board_reschedule, Session.board_logged w rfl rfl]
  rfl

theorem board_opening (w : Session κ) (e : Nat) (key : Value) (fs : List Value) :
    (opening w e key fs).board e = ((w.board e).openPass e key fs []).board :=
  congrArg Scene.board (scene_opening w e key fs [])

/-- The first watcher is called, and then the others are. -/
theorem callWatchers_cons {f : Value} (henv : env.Follows e)
    (h : callWatchers e key (f :: fs) env w = (.value (), w')) : ∃ w₁,
      Steps e ((w.logged (.watcherCalled e key f)).scene e []) (w₁.scene e []) ∧
        callWatchers e key fs env w₁ = (.value (), w') := by
  unfold callWatchers at h
  rw [bind_log] at h
  obtain ⟨_, w₁, called, rest⟩ := value_of_bind h
  -- the call is none of the passes in progress, so it leads on whatever they are
  exact ⟨w₁, Follows.steps henv called [], rest⟩

/-- Calling the watchers of a running key to the end calls each of them once, in their order. -/
theorem callWatchers_value (henv : env.Follows e) (h : callWatchers e key fs env w = (.value (), w'))
    (quiet : ¬ (w.board e).scheduler.Loud) (once : w'.setUps e = w.setUps e)
    (unforced : .notified e key ∉ since (w.history e) (w'.history e))
    (hu : key ∉ (w.board e).scheduler.pending) (hr : key ∈ (w.board e).scheduler.running) :
    w.history e <:+ w'.history e ∧
      (∀ ev ∈ since (w.history e) (w'.history e), ¬ ev.Bounds key) ∧
      (since (w.history e) (w'.history e)).filterMap (Event.call? key) = fs.reverse ∧
      key ∉ (w'.board e).scheduler.pending := by
  induction fs generalizing w with
  | nil =>
    cases h
    exact ⟨List.suffix_refl _, by simp, by simp, hu⟩
  | cons f fs ih =>
    let w₁ := w.logged (.watcherCalled e key f)
    have hb₁ : w₁.board e = (w.board e).note (.watcherCalled e key f) := Session.board_logged w rfl rfl
    have hh₁ : w₁.history e = .watcherCalled e key f :: w.history e := congrArg Board.history hb₁
    obtain ⟨w₂, call, h⟩ := callWatchers_cons henv h
    replace call : Steps e (w₁.scene e []) (w₂.scene e []) := call
    have more := Follows.calls_callWatchers henv key fs [] w₂
    rw [h] at more
    have lower : w₁.setUps e ≤ w₂.setUps e := call.setUps_le
    have upper : w₂.setUps e ≤ w'.setUps e := Steps.setUps_le more
    have same : w₁.setUps e = w.setUps e := congrArg Board.setUps hb₁
    have once₁ : w₂.setUps e = w₁.setUps e := by omega
    have once₂ : w'.setUps e = w₂.setUps e := by omega
    have suffix₁ : w₁.history e <:+ w₂.history e := Steps.suffix call once₁
    have suffix₂ : w₂.history e <:+ w'.history e := Steps.suffix more once₂
    have suffix : w.history e <:+ w₁.history e := hh₁ ▸ List.suffix_cons _ _
    have hs₁ : since (w.history e) (w₁.history e) = [.watcherCalled e key f] := by
      rw [hh₁]
      exact since_append [_]
    rw [since_trans suffix (suffix₁.trans suffix₂), since_trans suffix₁ suffix₂, hs₁] at unforced ⊢
    simp only [List.mem_append, not_or] at unforced
    obtain ⟨⟨unforced₂, unforced₁⟩, _⟩ := unforced
    have quiet₁ : ¬ (w₁.board e).scheduler.Loud := by
      rw [hb₁]
      exact quiet
    have quiet₂ : ¬ (w₂.board e).scheduler.Loud := call.quiet once₁ quiet₁
    have hu₁ : key ∉ (w₁.board e).scheduler.pending := by
      rw [hb₁]
      exact hu
    have hr₁ : key ∈ (w₁.board e).scheduler.running := by
      rw [hb₁]
      exact hr
    obtain ⟨out, hu, hr⟩ := call.beside quiet₁ once₁ (List.forall_mem_nil _) unforced₁ hu₁ hr₁
      List.not_mem_nil
    obtain ⟨_, inside, calls, closed⟩ := ih h quiet₂ once₂ unforced₂ hu hr
    refine ⟨suffix.trans (suffix₁.trans suffix₂), ?_, ?_, closed⟩
    · simp only [List.forall_mem_append, List.forall_mem_singleton]
      exact ⟨⟨inside, fun ev hev => (out ev hev).1⟩, id⟩
    · have hnone : (since (w₁.history e) (w₂.history e)).filterMap (Event.call? key) = [] :=
        List.filterMap_eq_nil_iff.2 fun ev hev => (out ev hev).2
      simp [hnone, calls, Event.call?]

/-- Where the watchers of a pass have been called, it is over unless another one was deferred to it. -/
theorem runPass_value (henv : env.Follows e) (h : runPass e key fs env w = (.value (), w')) :
    ∃ w₁, callWatchers e key fs env (opening w e key fs) = (.value (), w₁) ∧
      Steps e (w₁.scene e [⟨key, some []⟩]) (w'.scene e []) ∧
      (key ∉ (w₁.board e).scheduler.deferred → w'.board e = (w₁.board e).leavePass e key none) := by
  unfold runPass at h
  rw [bind_log, bind_modify, bind_attempt] at h
  rcases hr : callWatchers e key fs env (opening w e key fs) with ⟨_ | f | _ | _, w₁⟩ <;>
    rw [show callWatchers e key fs env ((w.logged _).reschedule e _) = _ from hr] at h
  · refine ⟨w₁, rfl, ?_⟩
    let w₂ := (w₁.reschedule e fun s => { s with running := eraseKey key s.running }).logged
      (.passEnded e key none)
    have hb : w₂.board e = (w₁.board e).leavePass e key none := by
      rw [Session.board_logged _ rfl rfl, Session.board_reschedule]
      rfl
    have hf : Steps e (w₁.scene e [⟨key, some []⟩]) ⟨(w₁.board e).finishPass e key, [], none⟩ :=
      .single (.finish _ [] key)
    have hd₂ : (w₂.engine e).scheduler.deferred = (w₁.board e).scheduler.deferred := by
      rw [← Session.scheduler_board, hb]
      rfl
    unfold Board.finishPass at hf
    rw [← hb] at hf
    dsimp only [fault?] at h hf
    rw [bind_modify, bind_log, bind_ofExcept_ok, bind_scheduler] at h
    simp only [List.contains_iff_mem] at h
    refine ⟨?_, fun hd => ?_⟩
    · split at h
      · next hd =>
        rw [if_pos (show key ∈ (w₂.board e).scheduler.deferred from hd), ← Session.board_reschedule] at hf
        rw [bind_modify] at h
        have hl := Follows.leads_enqueue henv hf
        rwa [h] at hl
      · next hd =>
        rw [if_neg (show key ∉ (w₂.board e).scheduler.deferred from hd)] at hf
        cases h
        exact hf
    · rw [if_neg (hd₂ ▸ hd)] at h
      cases h
      exact hb
  · dsimp only at h
    rw [bind_modify, bind_log, bind_ofExcept_error] at h
    cases h
  · cases h
  · cases h

/-- A pass that comes back has called each of its watchers once, in their order, and leaves the key unmarked
unless another one was deferred to it. -/
theorem runPass_delivers (henv : env.Follows e) (h : runPass e key fs env w = (.value (), w'))
    (quiet : ¬ (w.board e).scheduler.Loud) (once : w'.setUps e = w.setUps e)
    (unforced : .notified e key ∉ since (w.history e) (w'.history e))
    (hu : key ∉ (w.board e).scheduler.pending)
    (undeferred : ∀ w₁ : Session κ, w₁.setUps e = w.setUps e →
      (∀ ps, Steps e ((w.board e).openPass e key fs ps) (w₁.scene e (⟨key, some []⟩ :: ps))) →
      key ∉ (w₁.board e).scheduler.deferred) :
    Completed e key fs (w.history e) (w'.history e) ∧ key ∉ (w'.board e).scheduler.pending := by
  obtain ⟨w₁, hc, rest, hb⟩ := runPass_value henv h
  have hb₀ := board_opening w e key fs
  have hh₀ : (opening w e key fs).history e = .passBegan e key fs :: w.history e :=
    congrArg Board.history hb₀
  have calls : ∀ ps, Steps e ((w.board e).openPass e key fs ps) (w₁.scene e (⟨key, some []⟩ :: ps)) := by
    intro ps
    have hl := Follows.calls_callWatchers henv key fs ps (opening w e key fs)
    rwa [hc, scene_opening] at hl
  have lower : w.setUps e ≤ w₁.setUps e := Steps.setUps_le (calls [])
  have upper : w₁.setUps e ≤ w'.setUps e := rest.setUps_le
  have same : w₁.setUps e = w.setUps e := by omega
  have hb := hb (undeferred w₁ same calls)
  have hh : w'.history e = .passEnded e key none :: w₁.history e := congrArg Board.history hb
  have suffix : .passBegan e key fs :: w.history e <:+ w₁.history e := Steps.suffix (calls []) same
  have unforced₁ : .notified e key ∉ since ((opening w e key fs).history e) (w₁.history e) := by
    intro hm
    refine unforced ?_
    rw [hh₀] at hm
    rw [since_trans (List.suffix_cons _ _) (suffix.trans (hh ▸ List.suffix_cons _ _)),
      since_trans suffix (hh ▸ List.suffix_cons _ _)]
    exact List.mem_append_left _ (List.mem_append_right _ hm)
  have running : key ∈ ((opening w e key fs).board e).scheduler.running := by
    rw [hb₀]
    exact mem_insertKey.2 (Or.inl rfl)
  have unmarked : key ∉ ((opening w e key fs).board e).scheduler.pending := by
    rw [hb₀]
    exact hu
  have settled : (opening w e key fs).setUps e = w.setUps e := congrArg Board.setUps hb₀
  obtain ⟨older, inside, called, closed⟩ := callWatchers_value henv hc (by rw [hb₀]; exact quiet)
    (same.trans settled.symm) unforced₁ unmarked running
  rw [hh₀] at older inside called
  refine ⟨⟨[], since (.passBegan e key fs :: w.history e) (w₁.history e), ?_, inside, called⟩, ?_⟩
  · rw [since_append_self older]
    exact hh
  · rw [hb]
    exact closed

/-- A flush of a pending key that comes back has called every watcher registered when it began. -/
theorem flush_delivers (henv : env.Follows e) (h : flush e key env w = (.value (), w'))
    (hp : key ∈ (w.board e).scheduler.pending) (quiet : ¬ (w.board e).scheduler.Loud)
    (once : w'.setUps e = w.setUps e)
    (unforced : .notified e key ∉ since (w.history e) (w'.history e)) (ps : List OpenPass)
    (undeferred : ∀ w₁ : Session κ, w₁.setUps e = w.setUps e →
      Steps e (w.scene e ps) (w₁.scene e (⟨key, some []⟩ :: ps)) →
      key ∉ (w₁.board e).scheduler.deferred) :
    Completed e key ((w.board e).scheduler.watchersOf key) (w.history e) (w'.history e) ∧
      key ∉ (w'.board e).scheduler.pending := by
  let w₀ := w.reschedule e fun s => { s with pending := eraseKey key s.pending }
  have hb : w₀.board e = (w.board e).unmark key := Session.board_reschedule w e _
  have hu : key ∉ (w₀.board e).scheduler.pending := by
    rw [hb]
    exact fun h => (mem_eraseKey.1 h).2 rfl
  have hw : (w₀.engine e).scheduler.watchersOf key = (w.board e).scheduler.watchersOf key := by
    rw [← Session.scheduler_board, hb]
    rfl
  have hh : w₀.history e = w.history e := congrArg Board.history hb
  unfold flush at h
  rw [bind_scheduler] at h
  simp only [List.contains_iff_mem] at h
  rw [if_pos (show key ∈ (w.engine e).scheduler.pending from hp), bind_modify] at h
  unfold notify at h
  rw [bind_scheduler, hw] at h
  rcases hf : (w.board e).scheduler.watchersOf key with _ | ⟨f, fs⟩ <;> rw [hf] at h hw
  · dsimp only at h
    rw [bind_log] at h
    cases h
    have hb' : ((w₀.logged (.passBegan e key [])).logged (.passEnded e key none)).board e =
        ((w₀.board e).note (.passBegan e key [])).note (.passEnded e key none) := by
      rw [Session.board_logged _ rfl rfl, Session.board_logged _ rfl rfl]
    refine ⟨⟨[], [], (congrArg Board.history hb').trans ?_, List.forall_mem_nil _, rfl⟩, ?_⟩
    · rw [hb]
      rfl
    · change key ∉ (((w₀.logged (.passBegan e key [])).logged _).board e).scheduler.pending
      rw [hb']
      exact hu
  · have quiet₀ : ¬ (w₀.board e).scheduler.Loud := by
      rw [hb]
      exact quiet
    obtain ⟨w₁, ht, hb₁, -⟩ := Follows.trace_quiet key quiet₀
    replace ht := ht env
    rw [Session.scheduler_board, hw] at ht
    dsimp only at h
    rw [bind_value ht] at h
    have hh₁ : w₁.history e = w.history e := (congrArg Board.history hb₁).trans hh
    have hset : w₁.setUps e = w.setUps e := congrArg Board.setUps (hb₁.trans hb)
    have begins : Step e (w.scene e ps) ((w₁.board e).openPass e key (f :: fs) ps) := by
      have hs := Step.flush (e := e) (w.board e) ps key none hp fun f hf => by cases hf
      unfold Board.beginPass at hs
      rw [← hb, Session.scheduler_board, hw] at hs
      rw [hb₁]
      exact hs
    have hd := runPass_delivers henv h (hb₁ ▸ quiet₀) (once.trans hset.symm) (hh₁ ▸ unforced) (hb₁ ▸ hu)
      fun w₂ same calls => undeferred w₂ (same.trans hset) (.head begins (calls ps))
    rwa [hh₁] at hd

end Scheduler

section Runs

variable {w₀ w w' : Session κ} {ps : List OpenPass}

/-- Under the skipping policy a flush that comes back leaves the key unmarked; if it was marked, every
watcher registered when the flush began has been called. -/
theorem Scheduler.flush_settles {env : Env κ} (henv : env.Follows e) (fresh : w₀.Fresh e)
    (quiet : ¬ (w₀.engine e).scheduler.Loud) (skips : (w₀.engine e).scheduler.policy = .skip)
    (reached : Steps e (w₀.scene e []) (w.scene e ps)) (flushed : flush e key env w = (.value (), w'))
    (once : w'.setUps e = w₀.setUps e)
    (unforced : .notified e key ∉ since (w.history e) (w'.history e)) :
    key ∉ (w'.engine e).scheduler.pending ∧
    (key ∈ (w.engine e).scheduler.pending → (w.scene e ps).Begins e key ∧
      Steps e (((w.board e).unmark key).beginPass e key ps) (w'.scene e ps) ∧
      Completed e key ((w.board e).scheduler.watchersOf key) (w.history e) (w'.history e)) := by
  by_cases hp : key ∈ (w.board e).scheduler.pending
  · have flushing : Steps e (w.scene e ps) (w'.scene e ps) := Follows.steps henv flushed ps
    have lower : w₀.setUps e ≤ w.setUps e := reached.setUps_le
    have upper : w.setUps e ≤ w'.setUps e := flushing.setUps_le
    have once₁ : w.setUps e = w₀.setUps e := by omega
    have quiet₁ : ¬ (w.board e).scheduler.Loud := reached.quiet once₁ quiet
    have undeferred : ∀ u : Session κ, u.setUps e = w.setUps e →
        Steps e (w.scene e ps) (u.scene e (⟨key, some []⟩ :: ps)) →
        key ∉ (u.board e).scheduler.deferred := by
      intro u same steps hd
      have all : Steps e (w₀.scene e []) (u.scene e (⟨key, some []⟩ :: ps)) := reached.trans steps
      have onceᵤ : u.setUps e = w₀.setUps e := same.trans once₁
      have turns := (all.turns quiet onceᵤ fresh.sound).1
      rw [show (w₀.scene e []).board.marks = _ from fresh.marks_eq] at turns
      have hpol := (turns.nested Marks.nested_none).deferred_policy key hd
      have same := congrArg Prod.fst (all.settings onceᵤ)
      have hset : (u.board e).scheduler.policy = .skip := same.trans skips
      have both : Reentrancy.skip = .defer := hset.symm.trans hpol
      cases both
    obtain ⟨completed, unmarked⟩ := flush_delivers henv flushed hp quiet₁ (once.trans once₁.symm) unforced
      ps undeferred
    have begins : (w.scene e ps).Begins e key := .flush _ ps key none hp fun f hf => by cases hf
    exact ⟨unmarked, fun _ => ⟨begins, steps_of_flush henv flushed hp quiet₁ ps, completed⟩⟩
  · rw [flush_of_unmarked hp] at flushed
    cases flushed
    exact ⟨hp, fun h => absurd h hp⟩

end Runs

theorem Session.engine_of_history {w : Session κ} {event : Event} (h : event ∈ w.history e) :
    event.engine? = some e := by
  have hf := (List.mem_filter.1 h).2
  exact of_decide_eq_true hf

/-- What follows a write that was reported while no pass of its key was in progress, unless the key is
dropped: it is pending, or a pass of it has begun. -/
theorem Session.pending_or_began {w : Session κ} {earlier : List Event}
    (kept : (w.marks e).Kept key) (hs : .requested e key :: earlier <:+ w.history e)
    (rest : key ∉ openPasses earlier) (undropped : .dropped e key ∉ since earlier (w.history e)) :
    key ∈ (w.board e).scheduler.pending ∨
      ∃ fs before, .passBegan e key fs :: before <:+ w.history e ∧
        .requested e key :: earlier <:+ before := by
  obtain ⟨later, hh⟩ := hs
  by_cases ha : ∃ ev ∈ later, ev.Answers key
  · obtain ⟨ev, hev, ha⟩ := ha
    have hmem : ev ∈ w.history e := hh ▸ List.mem_append_left _ hev
    have heng := Session.engine_of_history hmem
    obtain ⟨l₁, l₂, rfl⟩ := List.append_of_mem hev
    cases ev with
    | passBegan x k fs =>
      cases heng
      cases ha
      refine Or.inr ⟨fs, _, ⟨l₁, ?_⟩, List.suffix_append l₂ _⟩
      simpa using hh
    | dropped x k =>
      cases heng
      cases ha
      refine absurd ?_ undropped
      rw [← hh, List.append_cons, since_append]
      simp
    | _ => exact ha.elim
  · refine Or.inl (kept.at_rest ⟨later, earlier, e, hh.symm, rest, fun ev hev h => ha ⟨ev, hev, h⟩⟩)

/-- What is left of handling an event once it has been evaluated to something that is not awaited is the
flush of the nearest scope. -/
theorem Scope.flush_of_handle {env : Env κ} {w w₁ w₂ w' : Session κ} {ev : Evaluation} {v record : Value}
    (handled : handle e ev env w = (.value v, w')) (evaluated : evaluate e ev env w = (.value v, w₁))
    (settled : v.isAwaitable = false)
    (found : find e ev.scope env w₁ = (.value (some (key, record)), w₂)) :
    Scheduler.flush e key env w₂ = (.value (), w') := by
  unfold handle at handled
  rw [bind_value evaluated] at handled
  simp only [settled] at handled
  obtain ⟨_, w₃, hf, hp⟩ := value_of_bind handled
  cases hp
  change flush e ev.scope env w₁ = _ at hf
  unfold flush at hf
  rw [bind_value found] at hf
  exact hf

/-- On the way from one session to another a pass of `key` began in the scene `u`. -/
def Session.BeganIn (w₀ w : Session κ) (e : Nat) (key : Value) (u : Scene) : Prop :=
  Steps e (w₀.scene e []) u ∧ u.Begins e key ∧
    ∃ ps, Steps e ((u.board.unmark key).beginPass e key u.passes) (w.scene e ps)

/-- Handling an event under the skipping policy, unless its result is awaitable, leaves the nearest scope
unmarked. Every write to the scope that the evaluation reported outside the passes of it is followed by
a pass that has called all the watchers registered where it began, each once and in their order, or that
something that is no error has broken off before the flush. The scope must not be notified directly
meanwhile, nor be dropped between the write and the flush. -/
theorem handling_delivers {w₀ w w₁ w₂ w' : Session κ} {host : Host κ} {budget : Nat} {ev : Evaluation}
    {v record : Value} (fresh : w₀.Fresh e) (quiet : ¬ (w₀.engine e).scheduler.Loud)
    (skips : (w₀.engine e).scheduler.policy = .skip) (moment : Session.Moment w₀ w)
    (idle : key ∉ openPasses (w.history e))
    (evaluated : Scope.evaluate e ev (Env.within host budget) w = (.value v, w₁))
    (settled : v.isAwaitable = false)
    (found : Scope.find e ev.scope (Env.within host budget) w₁ = (.value (some (key, record)), w₂))
    (handled : Scope.handle e ev (Env.within host budget) w = (.value v, w'))
    (once : w'.setUps e = w₀.setUps e)
    (unforced : .notified e key ∉ since (w.history e) (w'.history e)) :
    key ∉ (w'.engine e).scheduler.pending ∧
    ∀ later earlier, w₁.history e = later ++ .requested e key :: earlier →
      w.history e <:+ earlier → key ∉ openPasses earlier →
      .dropped e key ∉ since earlier (w₂.history e) →
      ∃ u, w₀.BeganIn w' e key u ∧ .requested e key :: earlier <:+ u.board.history ∧
        (Completed e key (u.board.scheduler.watchersOf key) u.board.history (w'.history e) ∨
          CutShort e key (u.board.scheduler.watchersOf key) u.board.history (w₂.history e)) := by
  have henv := Env.follows_within host budget e
  have flushed := Scope.flush_of_handle handled evaluated settled found
  obtain ⟨ps, reached⟩ := moment.steps e
  have evaluating : Steps e (w.scene e ps) (w₁.scene e ps) := by
    have hl := Follows.leads (m := Scope.evaluate e ev) _ w ps henv
    rwa [evaluated] at hl
  have finding : Steps e (w₁.scene e ps) (w₂.scene e ps) := by
    have hl := Follows.leads (m := Scope.find e ev.scope) _ w₁ ps henv
    rwa [found] at hl
  have flushing : Steps e (w₂.scene e ps) (w'.scene e ps) := by
    have hl := Follows.leads (m := Scheduler.flush e key) _ w₂ ps henv
    rwa [flushed] at hl
  have before : Steps e (w.scene e ps) (w₂.scene e ps) := evaluating.trans finding
  have whole : Steps e (w₀.scene e []) (w₂.scene e ps) := reached.trans before
  -- the engine is never set up anew
  have le₀ : w₀.setUps e ≤ w.setUps e := reached.setUps_le
  have le₁ : w.setUps e ≤ w₁.setUps e := evaluating.setUps_le
  have le₂ : w₁.setUps e ≤ w₂.setUps e := finding.setUps_le
  have le₃ : w₂.setUps e ≤ w'.setUps e := flushing.setUps_le
  have once₀ : w.setUps e = w₀.setUps e := by omega
  have once₂ : w₂.setUps e = w.setUps e := by omega
  have older : w.history e <:+ w₂.history e := before.suffix once₂
  have once₁ : w₂.setUps e = w₁.setUps e := by omega
  have once₃ : w'.setUps e = w₂.setUps e := by omega
  have mid : w₁.history e <:+ w₂.history e := Steps.suffix finding once₁
  have newer : w₂.history e <:+ w'.history e := Steps.suffix flushing once₃
  rw [since_trans older newer, List.mem_append, not_or] at unforced
  obtain ⟨unmarked, delivered⟩ := Scheduler.flush_settles henv fresh quiet skips whole flushed
    once unforced.1
  refine ⟨unmarked, fun later earlier hh hsince hrest undropped => ?_⟩
  have hs : .requested e key :: earlier <:+ w₂.history e := by
    refine List.IsSuffix.trans ?_ mid
    exact ⟨later, hh.symm⟩
  have turns := (whole.turns quiet (once₂.trans once₀) fresh.sound).1
  rw [show (w₀.scene e []).board.marks = _ from fresh.marks_eq] at turns
  have kept : (w₂.marks e).Kept key := turns.kept
  rcases Session.pending_or_began kept hs hrest undropped with hp | ⟨fs, began, hb, hafter⟩
  · obtain ⟨begins, rest, completed⟩ := delivered hp
    exact ⟨w₂.scene e ps, ⟨whole, begins, ps, rest⟩, hs, Or.inl completed⟩
  · have sound := (reached.turns quiet once₀ fresh.sound).2
    have closed : key ∉ ps.map OpenPass.key := by
      have told : openPasses (w.history e) = ps.map OpenPass.key := sound.told
      exact told ▸ idle
    have quiet₀ : ¬ (w.board e).scheduler.Loud :=
      fun h => quiet ((Board.loud_of_settings (reached.settings once₀)).1 h)
    obtain ⟨u, hto, hbegin, hfrom, rfl, rfl, hend⟩ := before.ended quiet₀ once₂ sound unforced.2 hb
      (hsince.trans ((List.suffix_cons _ _).trans hafter)) closed
    exact ⟨u, ⟨reached.trans hto, hbegin, ps, hfrom.trans flushing⟩, hafter,
      hend.imp_left fun hc => hc.mono newer⟩

-- A client whose handler writes to a scope with two watchers. The first watcher may give up with something
-- that is no error, which the handler lets happen in a flush of its own; or it may have the scope notified
-- once, while the second writes.
namespace Saving

inductive Manner where
  | calm
  | abrupt
  | nested

def write (n : Int) : Act Nat Value := do
  let updates ← Act.ask (.make (.dict (Table.ofList [(.text "n", .int n)])))
  Act.ask (.engine 0 (.setState Echo.scope updates))

def save (manner : Manner) : Act Nat Value := do
  let _ ← write 0
  match manner with
  | .abrupt =>
    let _ ← (Act.ask (.engine 0 (.flush Echo.scope))).attempt
    return .none
  | _ => return .none

def first : Manner → Act Nat Value
  | .calm => return .none
  | .abrupt => .raise (.client .cancelled "")
  | .nested => do
    if (← Act.memory) ≠ 0 then return .none
    else
      Act.modifyMemory (· + 1)
      Act.ask (.scheduler 0 (.notify Echo.scope))

def second : Manner → Act Nat Value
  | .nested => do
    Act.modifyMemory (· + 1)
    write (← Act.memory)
  | _ => return .none

def host (manner : Manner) : Host Nat := fun name =>
  { body := fun _ =>
      if name = "save" then save manner else if name = "first" then first manner else second manner }

def main : Act Nat Value := do
  let _ ← Act.ask (.engine 0 (.initScope Echo.scope .none))
  let _ ← Act.ask (.engine 0 (.watch Echo.scope (.fn (.client "first"))))
  let _ ← Act.ask (.engine 0 (.watch Echo.scope (.fn (.client "second"))))
  Act.ask (.registry 0 (.register (.text "save") (.fn (.client "save"))))

def start (manner : Manner) : Session Nat :=
  let setUp : Act Nat Value := .ask (.create 0 {})
  (Session.run (host manner) 10 setUp { memory := 0 }).2

def watched (manner : Manner) : Session Nat := (Session.run (host manner) 10 main (start manner)).2

def env (manner : Manner) : Env Nat := Env.within (host manner) 10

def event : Evaluation := { scope := Echo.scope, source := .text "save" }

def evaluated (manner : Manner) : Session Nat := (Scope.evaluate 0 event (env manner) (watched manner)).2

def found (manner : Manner) : Session Nat :=
  (Scope.find 0 Echo.scope (env manner) (evaluated manner)).2

def handled (manner : Manner) : Session Nat := (Scope.handle 0 event (env manner) (watched manner)).2

def record (manner : Manner) : Value := (((watched manner).engine 0).records.get? Echo.scope).getD .none

def reported : Event → Bool
  | .requested 0 scope => scope == Echo.scope
  | _ => false

def drops : Event → Bool
  | .dropped _ _ => true
  | _ => false

def completes : Event → Bool
  | .passEnded _ _ none => true
  | _ => false

/-- Handling the event comes back with something that is not awaited, the nearest record is the same before
and after the evaluation, no pass of its scope is running, and the evaluation reports a write to it. -/
structure Situation (manner : Manner) : Prop where
  skips : ((start manner).engine 0).scheduler.policy = .skip
  accepts : ((start manner).engine 0).queue.sink = none
  idle : Echo.scope ∉ openPasses ((watched manner).history 0)
  handles : Scope.handle 0 event (env manner) (watched manner) = (.value .none, handled manner)
  evaluates : Scope.evaluate 0 event (env manner) (watched manner) = (.value .none, evaluated manner)
  before : (Scope.find 0 Echo.scope (env manner) (watched manner)).1 =
    .value (some (Echo.scope, record manner))
  after : Scope.find 0 Echo.scope (env manner) (evaluated manner) =
    (.value (some (Echo.scope, record manner)), found manner)
  writes : ∃ later, (evaluated manner).history 0 =
    later ++ .requested 0 Echo.scope :: (watched manner).history 0
  kept : .dropped 0 Echo.scope ∉ (handled manner).history 0

theorem eq_of_fst {α β : Type} {p : α × β} {a : α} (h : p.1 = a) : p = (a, p.2) := by
  rw [← h]

theorem evaluates (manner : Manner) :
    Scope.evaluate 0 event (env manner) (watched manner) = (.value .none, evaluated manner) :=
  eq_of_fst (by cases manner <;> decide +kernel)

/-- What an evaluation tells of comes after all that was told before. -/
theorem older {manner : Manner} {w w₁ : Session Nat} {v : Value}
    (run : Scope.evaluate 0 event (env manner) w = (.value v, w₁)) (once : w₁.setUps 0 = w.setUps 0) :
    w.history 0 <:+ w₁.history 0 := by
  have hl := Follows.leads (m := Scope.evaluate 0 event) _ w [] (Env.follows_within (host manner) 10 0)
  rw [show Scope.evaluate 0 event (Env.within (host manner) 10) w = _ from run] at hl
  exact Steps.suffix hl once

theorem writes (manner : Manner) : ∃ later, (evaluated manner).history 0 =
    later ++ .requested 0 Echo.scope :: (watched manner).history 0 := by
  have once : (evaluated manner).setUps 0 = (watched manner).setUps 0 := by
    cases manner <;> decide +kernel
  have first : (since ((watched manner).history 0) ((evaluated manner).history 0)).getLast?.any reported =
      true := by
    cases manner <;> decide +kernel
  obtain ⟨ev, hl, hr⟩ := (Option.any_eq_true _ _).1 first
  unfold reported at hr
  split at hr
  · rw [beq_iff_eq] at hr
    subst hr
    obtain ⟨later, hh⟩ := List.getLast?_eq_some_iff.1 hl
    refine ⟨later, ?_⟩
    rw [← since_append_self (older (evaluates manner) once), hh, List.append_assoc, List.singleton_append]
  · cases hr

theorem situation (manner : Manner) : Situation manner := by
  have handles : (Scope.handle 0 event (env manner) (watched manner)).1 = .value .none := by
    cases manner <;> decide +kernel
  have after : (Scope.find 0 Echo.scope (env manner) (evaluated manner)).1 =
      .value (some (Echo.scope, record manner)) := by
    cases manner <;> decide +kernel
  have undropped : ((handled manner).history 0).any drops = false := by
    cases manner <;> decide +kernel
  refine ⟨?_, ?_, ?_, eq_of_fst handles, evaluates manner, ?_, eq_of_fst after, writes manner,
    not_mem_of_any undropped rfl⟩
  all_goals cases manner <;> decide +kernel

end Saving

theorem handling_delivers_saving :
    Echo.scope ∉ ((Saving.handled .calm).engine 0).scheduler.pending ∧
      ∃ b : Board, Completed 0 Echo.scope (b.scheduler.watchersOf Echo.scope) b.history
        ((Saving.handled .calm).history 0) := by
  have situation := Saving.situation .calm
  have fresh : (Saving.start .calm).Fresh 0 := by
    refine ⟨?_, ?_, ?_, List.isEmpty_iff.1 ?_⟩ <;> decide +kernel
  have quiet : ¬ ((Saving.start .calm).engine 0).scheduler.Loud := by
    rintro ⟨debug, _⟩
    exact absurd debug (by decide +kernel)
  have ends : (Session.run (Saving.host .calm) 10 Saving.main (Saving.start .calm)).1 ≠ .exhausted := by
    decide +kernel
  have moment : Session.Moment (Saving.start .calm) (Saving.watched .calm) :=
    .plain (Saving.host .calm) 10 Saving.main Prod.mk.eta.symm ends
  have once : (Saving.handled .calm).setUps 0 = (Saving.start .calm).setUps 0 := by decide +kernel
  have unforced : ((Saving.handled .calm).history 0).any Event.forces = false := by decide +kernel
  have whole : ((Saving.found .calm).history 0).any Event.breaksOff = false := by decide +kernel
  have undropped : ((Saving.found .calm).history 0).any Saving.drops = false := by decide +kernel
  obtain ⟨unmarked, delivered⟩ := handling_delivers fresh quiet situation.skips moment situation.idle
    situation.evaluates rfl situation.after situation.handles once
    fun h => not_mem_of_any unforced rfl (List.mem_of_mem_take h)
  obtain ⟨later, hh⟩ := situation.writes
  obtain ⟨u, _, _, hc | ⟨_, _, f, hcut, _⟩⟩ := delivered later _ hh (List.suffix_refl _)
    situation.idle
    fun h => not_mem_of_any undropped rfl (List.mem_of_mem_take h)
  · exact ⟨unmarked, u.board, hc⟩
  · have ended : .passEnded 0 Echo.scope (some f) ∈ (Saving.found .calm).history 0 := by
      rw [hcut]
      exact List.mem_append_right _ List.mem_cons_self
    exact absurd ended (not_mem_of_any whole rfl)

/-- A watcher that gives up with something that is no error breaks a pass off, and the mark is gone with it;
and notifying a scope inside its own pass leaves the rest of that pass open to writes. -/
theorem handling_may_not_deliver :
    (Saving.Situation .abrupt ∧
      ∀ fs before, ¬ Completed 0 Echo.scope fs before ((Saving.handled .abrupt).history 0)) ∧
    Saving.Situation .nested ∧ Echo.scope ∈ ((Saving.handled .nested).engine 0).scheduler.pending := by
  have cut : ((Saving.handled .abrupt).history 0).any Saving.completes = false := by decide +kernel
  refine ⟨⟨Saving.situation .abrupt, fun fs before hc => ?_⟩, Saving.situation .nested, by decide +kernel⟩
  obtain ⟨after, during, hh, _⟩ := hc
  have ended : .passEnded 0 Echo.scope none ∈ (Saving.handled .abrupt).history 0 := by
    rw [hh]
    exact List.mem_append_right _ List.mem_cons_self
  exact not_mem_of_any cut rfl ended

end ReactiveScopes
