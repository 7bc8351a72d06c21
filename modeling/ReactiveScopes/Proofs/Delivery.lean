import ReactiveScopes.Proofs.PassStack

/-!
# No write is lost

A write that waits for a pass keeps its key pending, or deferred where a running pass is to see to it;
and as long as callbacks stay in the queue until they are run, every pending key has one there. So once
the queue is empty and no pass is in progress, every write has been followed by a pass.
-/
namespace ReactiveScopes

open History

variable {κ : Type} {e : Nat} {key : Value} {m m' : Marks}

namespace Marks

/-- A write that waits for a pass has left its mark. -/
structure Kept (m : Marks) (key : Value) : Prop where
  at_rest : UnansweredAtRest key m.history → key ∈ m.pending
  either : m.policy = .defer → Unanswered key m.history → key ∈ m.pending ∨ key ∈ m.deferred

/-- A pass answers the writes to its own key; whether that is still marked makes no difference. -/
theorem Kept.enter (hm : m.Kept key) {k : Value} {p : List Value}
    (hp : key ≠ k → key ∈ m.pending → key ∈ p) (fs : List Value) :
    ({ m with pending := p }.enter e k fs).Kept key := by
  have hr : UnansweredAtRest key (.passBegan e k fs :: m.history) → key ∈ p := by
    rw [unansweredAtRest_passBegan]
    rintro ⟨hk, h⟩
    exact hp hk.symm (hm.at_rest h)
  have hd : m.policy = .defer → Unanswered key (.passBegan e k fs :: m.history) →
      key ∈ p ∨ key ∈ m.deferred := by
    rw [unanswered_passBegan]
    rintro hpol ⟨hk, h⟩
    exact (hm.either hpol h).imp_left (hp hk.symm)
  cases fs with
  | nil =>
    refine ⟨fun h => hr (unansweredAtRest_passEnded.1 h), fun hpol h => ?_⟩
    exact hd hpol (unanswered_passEnded.1 h)
  | cons f fs => exact ⟨hr, hd⟩

theorem Kept.turn (h : Turn e m m') (nested : m.Nested e) (hm : m.Kept key) : m'.Kept key := by
  cases h with
  | aside ev ha =>
    refine ⟨fun h => hm.at_rest ((unansweredAtRest_aside ha).1 h), fun hpol h => ?_⟩
    exact hm.either hpol ((unanswered_aside ha).1 h)
  | request k =>
    refine ⟨?_, ?_⟩ <;> simp only [enqueue_history, enqueue_policy, note]
    · rw [unansweredAtRest_requested, mem_enqueue_pending]
      rintro (⟨rfl, ho⟩ | h)
      · exact Or.inr ⟨rfl, fun hr => ho (nested.running_open _ hr)⟩
      · exact Or.inl (hm.at_rest h)
    · rw [unanswered_requested, mem_enqueue_pending, mem_enqueue_deferred]
      rintro hpol (rfl | h)
      · by_cases hr : k ∈ m.running
        · exact Or.inr (Or.inr ⟨rfl, hr, hpol⟩)
        · exact Or.inl (Or.inr ⟨rfl, hr⟩)
      · exact (hm.either hpol h).imp Or.inl Or.inl
  | drop k =>
    refine ⟨fun h => ?_, fun hpol h => ?_⟩
    · obtain ⟨hk, h⟩ := unansweredAtRest_dropped.1 h
      exact mem_eraseKey.2 ⟨hm.at_rest h, hk.symm⟩
    · obtain ⟨hk, h⟩ := unanswered_dropped.1 h
      have hmark := hm.either hpol h
      exact hmark.imp (fun hp => mem_eraseKey.2 ⟨hp, hk.symm⟩) fun hd => mem_eraseKey.2 ⟨hd, hk.symm⟩
  | flush k fs hp => exact hm.enter (fun hk h => mem_eraseKey.2 ⟨h, hk⟩) fs
  | force k fs hf => exact hm.enter (fun _ h => h) fs
  | finish k ks ho =>
    refine ⟨?_, ?_⟩ <;> simp only [finish_history, finish_policy]
    · rw [unansweredAtRest_passEnded, mem_finish_pending]
      exact fun h => Or.inl (hm.at_rest h)
    · rw [unanswered_passEnded, mem_finish_pending, mem_finish_deferred]
      intro hpol h
      rcases hm.either hpol h with hp | hd
      · exact Or.inl (Or.inl hp)
      · by_cases hk : key = k
        · subst hk
          exact Or.inl (Or.inr ⟨rfl, hd⟩)
        · exact Or.inr ⟨hd, hk⟩
  | breakOff k ks f ho hf =>
    refine ⟨fun h => hm.at_rest (unansweredAtRest_passEnded.1 h), fun hpol h => ?_⟩
    exact hm.either hpol (unanswered_passEnded.1 h)

theorem kept_none {policy : Reentrancy} : Kept { policy } key := by
  refine ⟨?_, ?_⟩
  · rintro ⟨later, earlier, x, hh, _⟩
    exact absurd hh.symm (by simp)
  · rintro - ⟨later, earlier, x, hh, _⟩
    exact absurd hh.symm (by simp)

end Marks

theorem Turns.kept {policy : Reentrancy} (h : Turns e { policy } m) : m.Kept key := by
  let P (u : Marks) : Prop := u.Nested e ∧ u.Kept key
  have hp : P m := by
    refine h.invariant ⟨Marks.nested_none, Marks.kept_none⟩ fun u v _ _ huv hu => ?_
    exact ⟨hu.1.turn huv, hu.2.turn huv hu.1⟩
  exact hp.2

/-- Every pending key has a callback in the queue, or it is the one that is due. -/
def Board.Served (b : Board) (e : Nat) (due : Option Value) : Prop :=
  ∀ key ∈ b.scheduler.pending, ∃ f, (f ∈ b.queue.posted ∨ due = some f) ∧ b.runsPass e key f

variable {b b' : Board} {due : Option Value}

namespace Board

theorem Served.mono (hb : b.Served e due)
    (hp : ∀ k ∈ b'.scheduler.pending, k ∈ b.scheduler.pending)
    (hq : ∀ f ∈ b.queue.posted, f ∈ b'.queue.posted)
    (hr : ∀ k f, b.runsPass e k f → b'.runsPass e k f) : b'.Served e due := by
  intro k hk
  obtain ⟨f, hf, hrun⟩ := hb k (hp k hk)
  exact ⟨f, hf.imp_left (hq f), hr k f hrun⟩

theorem Served.posting (hb : b.Served e due) (f : Value) : (b.posting e f).Served e due := by
  refine hb.mono (fun _ => id) (fun g hg => ?_) fun _ _ => id
  dsimp only [Board.posting]
  split
  · exact List.mem_append_left _ hg
  · exact hg

/-- The callback of a new mark goes to the end of the queue. -/
theorem Served.announce (hb : b.Served e due) (hsink : b.queue.sink = none) (hl : b.loop = none)
    (key : Value) : (b.announce e key).Served e due := by
  let b₁ := (b.reschedule fun s => { s with pending := insertKey key s.pending }).close (.pass e key)
  let f : Value := .fn (.made b.closures.size)
  have hpost : b.announce e key = { b₁.note (.posted e f) with
      queue := { b.queue with posted := b.queue.posted ++ [f] } } :=
    posting_queued (b := b₁) hsink hl
  rw [hpost]
  intro k hk
  rcases mem_insertKey.1 hk with rfl | hk
  · refine ⟨f, Or.inl (List.mem_append_right _ List.mem_cons_self), b.closures.size, rfl, ?_⟩
    simp [b₁]
  · obtain ⟨g, hg, hrun⟩ := hb k hk
    exact ⟨g, hg.imp_left (List.mem_append_left _), runsPass_push hrun⟩

theorem Served.enqueue (hb : b.Served e due) (hsink : b.queue.sink = none) (hl : b.loop = none)
    (key : Value) : (b.enqueue e key).Served e due := by
  rcases b.enqueue_cases e key with ⟨_, _, h⟩ | ⟨_, _, h⟩ | ⟨_, _, h⟩ | ⟨_, _, h⟩ <;> rw [h]
  · exact hb
  · exact hb
  · exact hb
  · exact hb.announce hsink hl key

theorem Served.finishPass (hb : b.Served e due) (hsink : b.queue.sink = none)
    (hl : b.loop = none) (key : Value) : (b.finishPass e key).Served e due := by
  have hleave : (b.leavePass e key none).Served e due := hb
  rcases b.finishPass_cases e key with ⟨_, h⟩ | ⟨_, h⟩ <;> rw [h]
  · have hd : (b.giveWay e key).Served e due := hleave
    exact hd.enqueue hsink hl key
  · exact hleave

theorem Served.beginPass (hb : b.Served e none) (key : Value) (ps : List OpenPass) :
    (b.beginPass e key ps).board.Served e (b.beginPass e key ps).due := by
  rcases b.beginPass_cases e key ps with h | ⟨fs, h⟩ <;> rw [h]
  · exact hb
  · exact hb

/-- A callback for a key that is no longer pending need not be due any more. -/
theorem Served.unmark (hb : b.Served e due) {key : Value} (hd : ∀ f ∈ due, b.runsPass e key f) :
    (b.unmark key).Served e none := by
  intro k hk
  obtain ⟨hk, hne⟩ := mem_eraseKey.1 hk
  obtain ⟨f, hf | hf, hrun⟩ := hb k hk
  · exact ⟨f, Or.inl hf, hrun⟩
  · exact absurd (runsPass_unique hrun (hd f hf)) hne

end Board

variable {s t : Scene}

/-- The queue goes on serving the keys that are pending, if the callbacks of new ones go there or no pass is called
for. -/
theorem Step.served (h : Step e s t) (quiet : ¬ s.board.scheduler.Loud)
    (once : t.board.setUps = s.board.setUps) (begun : s.Begun)
    (queued : s.board.queue.sink = none ∧ s.board.loop = none ∨
      s.board.scheduler.deferred = [] ∧ ∀ key, ¬ .requested e key :: s.board.history <:+ t.board.history)
    (hs : s.board.Served e s.due) : t.board.Served e t.due := by
  cases h with
  | close b ps c => exact hs.mono (fun _ => id) (fun _ => id) fun _ _ hf => Board.runsPass_push hf
  | loops | door | aside | addWatcher | drain | call | breakOff => exact hs
  | take b ps l f rest =>
    intro k hk
    obtain ⟨g, hg | hg, hrun⟩ := hs k hk
    · exact ⟨g, Or.inl hg, hrun⟩
    · cases hg
  | create b ps s' q => exact absurd once (Nat.succ_ne_self _)
  | removeWatcher b ps key f =>
    exact hs.mono (fun k hk => b.scheduler.pending_removeWatcher key f ▸ hk) (fun _ => id) fun _ _ => id
  | drop b ps key => exact hs.mono (fun k hk => (mem_eraseKey.1 hk).1) (fun _ => id) fun _ _ => id
  | request b ps key =>
    have hr : (b.note (.requested e key)).Served e none := hs
    rcases queued with ⟨hsink, hl⟩ | ⟨_, silent⟩
    · exact hr.enqueue hsink hl key
    · exact absurd (Board.suffix_enqueue (b.note (.requested e key)) e key) (silent key)
  | post b ps f => exact hs.posting f
  | pop b ps f rest hq =>
    intro k hk
    obtain ⟨g, hg | hg, hrun⟩ := hs k hk
    · rw [hq] at hg
      rcases List.mem_cons.1 hg with rfl | hg
      · exact ⟨g, Or.inr rfl, hrun⟩
      · exact ⟨g, Or.inl hg, hrun⟩
    · cases hg
  | skip b ps f hf =>
    intro k hk
    obtain ⟨g, hg | hg, hrun⟩ := hs k hk
    · exact ⟨g, Or.inl hg, hrun⟩
    · cases hg
      exact absurd hk (hf k hrun)
  | flush b ps key due hp hd => exact (hs.unmark hd).beginPass key ps
  | notify b ps key =>
    have hn : (b.note (.notified e key)).Served e none := hs
    exact hn.beginPass key ps
  | trace b ps key due h => exact absurd h quiet
  | traceNotified b ps key h => exact absurd h quiet
  | traced b ps key => exact absurd rfl (begun _ List.mem_cons_self)
  | traceFailed b ps key => exact absurd rfl (begun _ List.mem_cons_self)
  | finish b ps key =>
    rcases queued with ⟨hsink, hl⟩ | ⟨undeferred, _⟩
    · exact hs.finishPass hsink hl key
    · rw [Board.finishPass_idle (fun hd => absurd hd (undeferred ▸ List.not_mem_nil))]
      exact hs

/-- As long as no loop is started, the queue of an engine without a sink serves its scheduler. -/
theorem Steps.served (h : Steps e s t) (quiet : ¬ s.board.scheduler.Loud)
    (once : t.board.setUps = s.board.setUps) (sound : s.Sound)
    (hsink : s.board.queue.sink = none) (hl : s.board.Loopless)
    (still : t.board.started = s.board.started) (hs : s.board.Served e s.due) :
    t.board.Served e t.due := by
  have hp : t.board.Loopless ∧ t.Sound ∧ t.board.Served e t.due := by
    refine h.loopless_invariant (P := fun u => u.Sound ∧ u.board.Served e u.due) once hl still ⟨sound, hs⟩
      fun u v settings hlu huv hup hu => ?_
    obtain ⟨sound, hu⟩ := hu
    have hq : ¬ u.board.scheduler.Loud := fun h => quiet ((Board.loud_of_settings settings).1 h)
    have hsink' : u.board.queue.sink = none := (Board.sink_of_settings settings).trans hsink
    exact ⟨(huv.turns hq hup sound).2, huv.served hq hup sound.begun (.inl ⟨hsink', hlu.loop⟩) hu⟩
  exact hp.2.2

/-- At every moment of a run without loops, of an engine that keeps its callbacks itself: every pending
key has a callback in the queue; a write reported while no pass of its key was running is pending until
a pass begins or the key is dropped; and with deferring so is every other one, or it is left to a pass in
progress. When the queue is empty and no pass is in progress, nothing is left to do. Only a pass that
something other than an error has broken off may leave a deferred write behind. -/
theorem no_write_is_lost {w₀ w : Session κ} (fresh : w₀.Fresh e)
    (quiet : ¬ (w₀.engine e).scheduler.Loud) (own : (w₀.engine e).queue.sink = none)
    (loopless : w₀.Loopless) (moment : Session.Moment w₀ w) (once : w.setUps e = w₀.setUps e)
    (still : w.loops = w₀.loops) :
    let s := (w.engine e).scheduler
    let q := (w.engine e).queue
    let stack := openPasses (w.history e)
    (∀ key ∈ s.pending, ∃ f ∈ q.posted, w.runsPass e key f) ∧
    (∀ key, UnansweredAtRest key (w.history e) → key ∈ s.pending) ∧
    (s.policy = .defer → ∀ key, Unanswered key (w.history e) → key ∈ s.pending ∨ key ∈ s.deferred) ∧
    (∀ key ∈ s.deferred, key ∈ stack ∨ BrokenOff e key (w.history e)) ∧
    (q.posted = [] → stack = [] → s.pending = [] ∧
      ∀ key, ¬ UnansweredAtRest key (w.history e) ∧
        (¬ BrokenOff e key (w.history e) → key ∉ s.deferred ∧
          (s.policy = .defer → ¬ Unanswered key (w.history e)))) := by
  intro s q stack
  have turns := moment.turns fresh quiet once
  have nested := turns.nested Marks.nested_none
  have at_rest : ∀ key, UnansweredAtRest key (w.history e) → key ∈ s.pending :=
    fun key => turns.kept.at_rest
  have either : s.policy = .defer → ∀ key, Unanswered key (w.history e) →
      key ∈ s.pending ∨ key ∈ s.deferred := fun hd key => turns.kept.either hd
  have deferred : ∀ key ∈ s.deferred, key ∈ stack ∨ BrokenOff e key (w.history e) :=
    nested.deferred_open
  have served : ∀ key ∈ s.pending, ∃ f ∈ q.posted, w.runsPass e key f := by
    obtain ⟨ps, steps⟩ := moment.steps e
    have h₀ : (w₀.board e).Served e none := by
      have hp : (w₀.board e).scheduler.pending = [] := fresh.pending
      intro key hk
      rw [hp] at hk
      cases hk
    intro key hk
    obtain ⟨f, hf | hf, hrun⟩ := steps.served quiet once fresh.sound own loopless.board still h₀ key hk
    · exact ⟨f, hf, Session.runsPass_iff.2 hrun⟩
    · cases hf
  refine ⟨served, at_rest, either, deferred, fun hq hstack => ?_⟩
  have pending : ∀ key, key ∉ s.pending := by
    intro key hk
    obtain ⟨f, hf, _⟩ := served key hk
    rw [hq] at hf
    cases hf
  refine ⟨List.eq_nil_iff_forall_not_mem.2 pending, fun key => ?_⟩
  refine ⟨fun h => pending key (at_rest key h), fun whole => ?_⟩
  have closed : key ∉ s.deferred := by
    intro hd
    rcases deferred key hd with ho | hb
    · rw [hstack] at ho
      cases ho
    · exact whole hb
  refine ⟨closed, fun hd h => ?_⟩
  exact (either hd key h).elim (pending key) closed

theorem no_write_is_lost_echo :
    ((Echo.reached false).history 0).countP (Event.startsPass Echo.scope) = 2 ∧
      ((Echo.reached false).engine 0).scheduler.pending = [] ∧
      Echo.scope ∉ ((Echo.reached false).engine 0).scheduler.deferred ∧
      ¬ Unanswered Echo.scope ((Echo.reached false).history 0) := by
  have own : (Echo.start.engine 0).queue.sink = none := by decide +kernel
  have loopless : Echo.start.Loopless := ⟨by decide +kernel, by decide +kernel⟩
  have still : (Echo.reached false).loops = Echo.start.loops := by decide +kernel
  obtain ⟨_, _, _, _, done⟩ := no_write_is_lost Echo.fresh Echo.quiet own loopless
    (Echo.moment false) (Echo.once false) still
  obtain ⟨pending, answered⟩ := done (by decide +kernel) (by decide +kernel)
  obtain ⟨_, whole⟩ := answered Echo.scope
  obtain ⟨deferred, unanswered⟩ := whole (Echo.whole false Echo.scope)
  exact ⟨by decide +kernel, pending, deferred, unanswered (by decide +kernel)⟩

end ReactiveScopes
