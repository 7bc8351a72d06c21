import ReactiveScopes.Proofs.Coalescing
import ReactiveScopes.Proofs.Delivery

/-!
# When posting fails

A request puts on its mark before it posts, and a sink that fails leaves the mark where it is. The key
then bears a mark without a callback, and no later write posts one, until a pass of the key begins for
another reason or the key is dropped.
-/
namespace ReactiveScopes

open History

variable {κ : Type} {e : Nat} {key : Value} {m : Marks}

/-- Where passes are only called for and none of the key is broken off, the pending keys are those that
are owed a pass. -/
theorem Turns.pending_iff {policy : Reentrancy} (h : Turns e { policy } m)
    (hn : .notified e key ∉ m.history) (hw : policy = .skip ∨ ¬ BrokenOff e key m.history) :
    key ∈ m.pending ↔ Owed policy key m.history := by
  have nested := h.nested Marks.nested_none
  have single := h.single hn Marks.single_none
  have kept : m.Kept key := h.kept
  have hpol : m.policy = policy := by
    refine h.invariant (P := fun u => u.policy = policy) rfl fun u v _ _ huv hu => ?_
    exact huv.policy.trans hu
  have exact : m.Exact key := by
    refine h.exact hn fun hd => ?_
    rcases hw with hs | hw
    · rw [hs] at hd
      cases hd
    · exact hw
  cases policy with
  | skip => exact ⟨exact.marked_rest hpol, kept.at_rest⟩
  | defer =>
    have hw : ¬ BrokenOff e key m.history := by
      rcases hw with hs | hw
      · cases hs
      · exact hw
    constructor
    · exact fun hp => ⟨exact.marked (Or.inl hp), single.pending_closed hp⟩
    · rintro ⟨hu, hc⟩
      rcases kept.either hpol hu with hp | hd
      · exact hp
      · exact ((nested.deferred_open key hd).elim hc hw).elim

variable {s t : Scene} {b : Board}

namespace Board

theorem pending_enqueue (hp : key ∈ b.scheduler.pending) (k : Value) :
    key ∈ (b.enqueue e k).scheduler.pending := by
  rcases b.enqueue_cases e k with ⟨_, _, h⟩ | ⟨_, _, h⟩ | ⟨_, _, h⟩ | ⟨_, _, h⟩ <;> rw [h]
  · exact hp
  · exact hp
  · exact hp
  · exact mem_insertKey.2 (Or.inr hp)

theorem pending_finishPass (hp : key ∈ b.scheduler.pending) (k : Value) :
    key ∈ (b.finishPass e k).scheduler.pending := by
  rcases b.finishPass_cases e k with ⟨_, h⟩ | ⟨_, h⟩ <;> rw [h]
  · exact pending_enqueue (b := b.giveWay e k) hp k
  · exact hp

theorem pending_beginPass (hp : key ∈ b.scheduler.pending) (k : Value) (ps : List OpenPass) :
    key ∈ (b.beginPass e k ps).board.scheduler.pending := by
  rcases b.beginPass_cases e k ps with h | ⟨fs, h⟩ <;> rw [h]
  · exact hp
  · exact hp

theorem answered_beginPass (b : Board) (e : Nat) (key : Value) (ps : List OpenPass) :
    AnsweredSince key b.history (b.beginPass e key ps).board.history := by
  rcases b.beginPass_cases e key ps with h | ⟨fs, h⟩ <;> rw [h]
  · refine ⟨[.passEnded e key none, .passBegan e key []], rfl, .passBegan e key [], ?_, rfl⟩
    exact List.mem_cons_of_mem _ List.mem_cons_self
  · exact ⟨[.passBegan e key fs], rfl, _, List.mem_cons_self, rfl⟩

end Board

/-- A mark goes only with a pass that begins or when the key is dropped. -/
theorem Step.marked (h : Step e s t) (quiet : ¬ s.board.scheduler.Loud)
    (once : t.board.setUps = s.board.setUps) (begun : s.Begun)
    (hp : key ∈ s.board.scheduler.pending) :
    key ∈ t.board.scheduler.pending ∨ AnsweredSince key s.board.history t.board.history := by
  cases h with
  | close | loops | door | take | aside | addWatcher | post | drain | pop | skip | call | breakOff =>
    exact Or.inl hp
  | create b ps s' q => exact absurd once (Nat.succ_ne_self _)
  | removeWatcher b ps k f =>
    exact Or.inl ((b.scheduler.pending_removeWatcher k f).symm ▸ hp)
  | drop b ps k =>
    by_cases hk : k = key
    · subst hk
      exact Or.inr ⟨[.dropped e k], rfl, _, List.mem_cons_self, rfl⟩
    · exact Or.inl (mem_eraseKey.2 ⟨hp, fun h => hk h.symm⟩)
  | request b ps k => exact Or.inl (Board.pending_enqueue (b := b.note (.requested e k)) hp k)
  | flush b ps k due =>
    by_cases hk : k = key
    · subst hk
      exact Or.inr (Board.answered_beginPass (b.unmark k) e k ps)
    · have hu : key ∈ (b.unmark k).scheduler.pending := mem_eraseKey.2 ⟨hp, fun h => hk h.symm⟩
      exact Or.inl (Board.pending_beginPass hu k ps)
  | notify b ps k => exact Or.inl (Board.pending_beginPass (b := b.note (.notified e k)) hp k ps)
  | trace b ps key due h => exact absurd h quiet
  | traceNotified b ps key h => exact absurd h quiet
  | traced b ps key => exact absurd rfl (begun _ List.mem_cons_self)
  | traceFailed b ps key => exact absurd rfl (begun _ List.mem_cons_self)
  | finish b ps k => exact Or.inl (Board.pending_finishPass hp k)

theorem Steps.marked (h : Steps e s t) (quiet : ¬ s.board.scheduler.Loud)
    (once : t.board.setUps = s.board.setUps) (begun : s.Begun)
    (hp : key ∈ s.board.scheduler.pending) :
    key ∈ t.board.scheduler.pending ∨ AnsweredSince key s.board.history t.board.history := by
  refine h.onward (P := fun u => key ∈ u.board.scheduler.pending ∨
      AnsweredSince key s.board.history u.board.history) (Q := fun _ => True) quiet once begun
    (fun _ _ => trivial) (Or.inl hp) fun u v m hu => ?_
  rcases hu with hu | hu
  · exact (m.move.marked m.quiet m.once m.begun hu).imp_right fun ha => ha.of_suffix m.older
  · exact Or.inr (hu.mono m.later)

/-- A write to a key that bears its mark or is running posts nothing. -/
theorem Scheduler.request_of_marked {w : Session κ} (env : Env κ)
    (h : key ∈ (w.engine e).scheduler.pending ∨ key ∈ (w.engine e).scheduler.running) :
    ∃ w', request e key env w = (.value (), w') ∧ w'.history e = .requested e key :: w.history e := by
  have hb : (w.logged (.requested e key)).board e = (w.board e).note (.requested e key) :=
    Session.board_logged w rfl rfl
  have hh : (w.logged (.requested e key)).history e = .requested e key :: w.history e :=
    congrArg Board.history hb
  unfold request
  rw [Eff.bind_log]
  unfold enqueue
  rw [bind_scheduler]
  simp only [List.contains_iff_mem]
  split
  · split
    · have hd := Session.board_reschedule (w.logged (.requested e key)) e fun s =>
        { s with deferred := insertKey key s.deferred }
      exact ⟨_, rfl, (congrArg Board.history hd).trans hh⟩
    · exact ⟨_, rfl, hh⟩
  · next hr =>
    split
    · exact ⟨_, rfl, hh⟩
    · next hp => exact absurd (h.resolve_right hr) hp

/-- Where a request leads from when all that is left of it is its post. -/
theorem Scheduler.request_leads (w : Session κ) (key : Value) (host : Host κ) (budget : Nat)
    (ps : List OpenPass) :
    Leads e ⟨(w.board e).request e key, ps, none⟩
      (Scheduler.request e key (Env.within host budget) w) ps :=
  Follows.leads_request (Env.follows_within host budget e) .refl

/-- A write posts a callback if and only if its key bears no mark and is not running. -/
theorem Scheduler.request_posts_iff {w w' : Session κ} {host : Host κ} {budget : Nat}
    {o : Outcome Unit} (h : request e key (Env.within host budget) w = (o, w')) (ho : o ≠ .exhausted)
    (once : w'.setUps e = w.setUps e) :
    (∃ since f, w'.history e = since ++ .posted e f :: .requested e key :: w.history e) ↔
      key ∉ (w.engine e).scheduler.pending ∧ key ∉ (w.engine e).scheduler.running := by
  constructor
  · rintro ⟨since, f, hh⟩
    rw [← not_or]
    intro hm
    obtain ⟨w₁, hr, hh'⟩ := request_of_marked (Env.within host budget) hm
    rw [hr] at h
    cases h
    have hlen := congrArg List.length (hh.symm.trans hh')
    simp only [List.length_append, List.length_cons] at hlen
    omega
  · rintro ⟨hp, hr⟩
    have hl := request_leads (e := e) w key host budget []
    rw [h, Board.request_of_idle hp hr] at hl
    obtain ⟨ps, hs⟩ := hl.steps ho
    obtain ⟨since, hh⟩ := (Board.suffix_announce _ e key).trans (hs.suffix once)
    exact ⟨since, _, hh.symm⟩

/-- A request whose post fails leaves its key pending, unless the post itself has begun a pass of it or
dropped it; exactly, the key is pending if it is owed a pass. The next write posts a callback only if the
key is neither pending nor running, and as long as it stays pending no write ever does. -/
theorem failing_post_leaves_mark {w₀ w w' : Session κ} {host : Host κ} {budget : Nat} {f : Fault}
    (fresh : w₀.Fresh e) (quiet : ¬ (w₀.engine e).scheduler.Loud) (moment : Session.Moment w₀ w)
    (idle : key ∉ (w.engine e).scheduler.pending ∧ key ∉ (w.engine e).scheduler.running)
    (failed : Scheduler.request e key (Env.within host budget) w = (.fault f, w'))
    (once : w'.setUps e = w₀.setUps e) :
    let s := (w'.engine e).scheduler
    (key ∈ s.pending ∨ AnsweredSince key (.requested e key :: w.history e) (w'.history e)) ∧
    (.notified e key ∉ w'.history e →
      s.policy = .skip ∨ ¬ BrokenOff e key (w'.history e) →
      (key ∈ s.pending ↔ Owed s.policy key (w'.history e))) ∧
    (∀ host budget o w'', Scheduler.request e key (Env.within host budget) w' = (o, w'') →
      o ≠ .exhausted → w''.setUps e = w'.setUps e →
      ((∃ since f, w''.history e = since ++ .posted e f :: .requested e key :: w'.history e) ↔
        key ∉ s.pending ∧ key ∉ s.running)) ∧
    (key ∈ s.pending → ∀ w'', Session.Moment w' w'' → w''.setUps e = w'.setUps e →
      AnsweredSince key (w'.history e) (w''.history e) ∨
      ∀ env, ∃ w₃, Scheduler.request e key env w'' = (.value (), w₃) ∧
        w₃.history e = .requested e key :: w''.history e) := by
  intro s
  obtain ⟨ps, steps⟩ := moment.steps e
  let b := (w.board e).request e key
  have hb : b = ((w.board e).note (.requested e key)).announce e key :=
    Board.request_of_idle idle.1 idle.2
  have rest : Steps e ⟨b, ps, none⟩ (w'.scene e ps) := by
    have hl := Scheduler.request_leads (e := e) w key host budget ps
    rw [failed] at hl
    exact hl
  have mid : Steps e (w₀.scene e []) ⟨b, ps, none⟩ := steps.tail (.request _ ps key)
  have all : Steps e (w₀.scene e []) (w'.scene e ps) := mid.trans rest
  -- the engine is set up anew neither before the post nor in it
  have hle : w₀.setUps e ≤ b.setUps := mid.setUps_le
  have hle' : b.setUps ≤ w'.setUps e := rest.setUps_le
  have hmid : b.setUps = w₀.setUps e := by omega
  have hend : w'.setUps e = b.setUps := by omega
  have quiet' : ∀ {u : Board}, u.settings = (w₀.board e).settings → ¬ u.scheduler.Loud :=
    fun h hl => quiet ((Board.loud_of_settings h).1 hl)
  refine ⟨?_, fun unforced whole => ?_, fun host budget o w'' => Scheduler.request_posts_iff, ?_⟩
  · have marked : key ∈ b.scheduler.pending := by
      rw [hb]
      exact mem_insertKey.2 (Or.inl rfl)
    have begun := (mid.turns quiet hmid fresh.sound).2.begun
    have kept := rest.marked (quiet' (mid.settings hmid)) hend begun marked
    refine kept.imp_right fun ha => ha.of_suffix ?_
    rw [hb]
    have posted := ((w.board e).note (.requested e key)).suffix_announce e key
    exact (List.suffix_cons _ _).trans posted
  · have turns : Turns e { policy := (w₀.engine e).scheduler.policy } (w'.marks e) := by
      rw [← fresh.marks_eq]
      exact (all.turns quiet once fresh.sound).1
    have hpol : s.policy = (w₀.engine e).scheduler.policy := congrArg Prod.fst (all.settings once)
    rw [hpol] at whole ⊢
    exact turns.pending_iff unforced whole
  · intro marked w'' later hup
    obtain ⟨ps', hs⟩ := later.steps e
    rcases hs.marked (quiet' (all.settings once)) hup (List.forall_mem_nil _) marked with hp | ha
    · exact Or.inr fun env => Scheduler.request_of_marked env (Or.inl hp)
    · exact Or.inl ha

-- A client whose engine posts to a function of the client, which may fail.
namespace Refusal

def host (accepts : Bool) : Host Unit := fun _ =>
  { body := fun _ => if accepts then return .none else .raise (.client .runtime "refused") }

def main : Act Unit Value := do
  let _ ← Act.ask (.engine 0 (.initScope Echo.scope .none))
  Act.ask (.engine 0 (.watch Echo.scope (.fn (.client "watcher"))))

def start : Session Unit :=
  let setUp : Act Unit Value := .ask (.create 0 { post := some (.client "post") })
  (Session.run (host true) 10 setUp { memory := () }).2

def watched : Session Unit := (Session.run (host true) 10 main start).2

/-- A write is reported while the function fails. -/
def refused : Session Unit := (Scheduler.request 0 Echo.scope (Env.within (host false) 10) watched).2

/-- Another is reported when it would not. -/
def retried : Session Unit := (Scheduler.request 0 Echo.scope (Env.within (host true) 10) refused).2

theorem idle : Echo.scope ∉ (watched.engine 0).scheduler.pending ∧
    Echo.scope ∉ (watched.engine 0).scheduler.running := by
  decide +kernel

theorem failed : Scheduler.request 0 Echo.scope (Env.within (host false) 10) watched =
    (.fault (.client .runtime "refused"), refused) := by
  have fault : (Scheduler.request 0 Echo.scope (Env.within (host false) 10) watched).1 =
      .fault (.client .runtime "refused") := by
    decide +kernel
  exact Prod.ext fault rfl

end Refusal

theorem failing_post_leaves_mark_refusal :
    Echo.scope ∈ (Refusal.refused.engine 0).scheduler.pending ∧
      Owed .skip Echo.scope (Refusal.refused.history 0) := by
  have fresh : Refusal.start.Fresh 0 := by
    refine ⟨?_, ?_, ?_, List.isEmpty_iff.1 ?_⟩ <;> decide +kernel
  have quiet : ¬ (Refusal.start.engine 0).scheduler.Loud := by
    rintro ⟨debug, _⟩
    exact absurd debug (by decide +kernel)
  have ends : (Session.run (Refusal.host true) 10 Refusal.main Refusal.start).1 ≠ .exhausted := by decide +kernel
  have moment : Session.Moment Refusal.start Refusal.watched :=
    .plain (Refusal.host true) 10 Refusal.main Prod.mk.eta.symm ends
  have once : Refusal.refused.setUps 0 = Refusal.start.setUps 0 := by decide +kernel
  have skips : (Refusal.refused.engine 0).scheduler.policy = .skip := by decide +kernel
  have marked : Echo.scope ∈ (Refusal.refused.engine 0).scheduler.pending := by decide +kernel
  have none : (Refusal.refused.history 0).any Event.forces = false := by decide +kernel
  have unforced : .notified 0 Echo.scope ∉ Refusal.refused.history 0 := not_mem_of_any none rfl
  obtain ⟨_, exact, _⟩ := failing_post_leaves_mark fresh quiet moment Refusal.idle Refusal.failed once
  have owed := (exact unforced (Or.inl skips)).1 marked
  rw [skips] at owed
  exact ⟨marked, owed⟩

/-- A request that failed is not undone, and the next one goes by its mark. -/
theorem failing_post_silences_scope :
    (Echo.scope ∉ (Refusal.watched.engine 0).scheduler.pending ∧
      Echo.scope ∉ (Refusal.watched.engine 0).scheduler.running) ∧
    Scheduler.request 0 Echo.scope (Env.within (Refusal.host false) 10) Refusal.watched =
      (.fault (.client .runtime "refused"), Refusal.refused) ∧
    Echo.scope ∈ (Refusal.refused.engine 0).scheduler.pending ∧
    Refusal.retried.history 0 = .requested 0 Echo.scope :: Refusal.refused.history 0 := by
  have marked : Echo.scope ∈ (Refusal.refused.engine 0).scheduler.pending := by decide +kernel
  obtain ⟨w', hr, hh⟩ :=
    Scheduler.request_of_marked (Env.within (Refusal.host true) 10) (Or.inl marked)
  have again : Refusal.retried = w' := congrArg Prod.snd hr
  rw [← again] at hh
  exact ⟨Refusal.idle, Refusal.failed, marked, hh⟩

end ReactiveScopes
