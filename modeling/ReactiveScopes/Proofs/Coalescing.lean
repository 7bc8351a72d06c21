import Mathlib.Data.Finset.Card
import ReactiveScopes.Proofs.PassStack

/-!
# Coalescing is exact

A key bears a mark only while a write to it waits for a pass, so every pass is called for by a write of
its own. A mark is put on with a new callback each time and taken off by the pass, so there are no more
passes than callbacks; that callbacks stay in the queue when the mark is gone does not matter.
-/
namespace ReactiveScopes

open History

variable {κ : Type} {e : Nat} {key : Value} {m m' : Marks}

namespace Marks

/-- The marks of a key stand for a write to it, and so did all its passes. -/
structure Exact (m : Marks) (key : Value) : Prop where
  marked : key ∈ m.pending ∨ key ∈ m.deferred → Unanswered key m.history
  marked_rest : m.policy = .skip → key ∈ m.pending → UnansweredAtRest key m.history
  coalesced : Coalesced key m.history

theorem Exact.enter_of_ne (hm : m.Exact key) {k : Value} (hk : k ≠ key) (fs : List Value) :
    (m.enter e k fs).Exact key := by
  have hb : Coalesced key (.passBegan e k fs :: m.history) := by
    refine hm.coalesced.cons fun x gs he => ?_
    cases he
    exact hk rfl
  have hu : key ∈ m.pending ∨ key ∈ m.deferred → Unanswered key (.passBegan e k fs :: m.history) :=
    fun h => unanswered_passBegan.2 ⟨hk, hm.marked h⟩
  have hr : m.policy = .skip → key ∈ m.pending → UnansweredAtRest key (.passBegan e k fs :: m.history) :=
    fun hs h => unansweredAtRest_passBegan.2 ⟨hk, hm.marked_rest hs h⟩
  cases fs with
  | nil =>
    refine ⟨fun h => unanswered_passEnded.2 (hu h), fun hs h => ?_, hb.cons fun _ _ he => by cases he⟩
    exact unansweredAtRest_passEnded.2 (hr hs h)
  | cons f fs => exact ⟨hu, hr, hb⟩

/-- A pass of the key itself leaves it without marks. -/
theorem Exact.enter_self (hm : m.Exact key) (hp : key ∈ m.pending) (hd : key ∉ m.deferred)
    (fs : List Value) : ((m.unmark key).enter e key fs).Exact key := by
  have hb : Coalesced key (.passBegan e key fs :: m.history) :=
    coalesced_cons.2 ⟨fun _ _ _ => hm.marked (Or.inl hp), hm.coalesced⟩
  have hgone : ¬ (key ∈ eraseKey key m.pending ∨ key ∈ m.deferred) := by
    simp [hd]
  have hgone' : key ∉ eraseKey key m.pending := fun h => hgone (Or.inl h)
  cases fs with
  | nil =>
    refine ⟨fun h => absurd h hgone, fun _ h => absurd h hgone', ?_⟩
    exact hb.cons fun _ _ he => by cases he
  | cons f fs => exact ⟨fun h => absurd h hgone, fun _ h => absurd h hgone', hb⟩

theorem Exact.request (hm : m.Exact key) (single : m.Single key) (k : Value) :
    ((m.note (.requested e k)).enqueue k).Exact key := by
  refine ⟨?_, ?_, ?_⟩ <;> simp only [enqueue_history, enqueue_policy, note]
  · rw [mem_enqueue_pending, mem_enqueue_deferred, unanswered_requested]
    rintro ((hp | ⟨rfl, _⟩) | (hd | ⟨rfl, _⟩))
    · exact Or.inr (hm.marked (Or.inl hp))
    · exact Or.inl rfl
    · exact Or.inr (hm.marked (Or.inr hd))
    · exact Or.inl rfl
  · rw [mem_enqueue_pending, unansweredAtRest_requested]
    rintro hs (hp | ⟨rfl, hr⟩)
    · exact Or.inr (hm.marked_rest hs hp)
    · exact Or.inl ⟨rfl, fun ho => hr (single.open_running ho)⟩
  · exact hm.coalesced.cons fun _ _ he => by cases he

/-- What was deferred to a pass is marked after it. -/
theorem Exact.finish (hm : m.Exact key) (nested : m.Nested e) (k : Value) :
    (m.finish e k).Exact key := by
  refine ⟨?_, ?_, ?_⟩ <;> simp only [finish_history, finish_policy]
  · rw [mem_finish_pending, mem_finish_deferred, unanswered_passEnded]
    rintro ((hp | ⟨rfl, hd⟩) | ⟨hd, _⟩)
    · exact hm.marked (Or.inl hp)
    · exact hm.marked (Or.inr hd)
    · exact hm.marked (Or.inr hd)
  · rw [mem_finish_pending, unansweredAtRest_passEnded]
    rintro hs (hp | ⟨rfl, hd⟩)
    · exact hm.marked_rest hs hp
    · have hpol := nested.deferred_policy _ hd
      rw [hs] at hpol
      cases hpol
  · exact hm.coalesced.cons fun _ _ he => by cases he

theorem Exact.turn (h : Turn e m m') (hn : .notified e key ∉ m.history)
    (hw : m.policy = .defer → ¬ BrokenOff e key m.history) (nested : m.Nested e)
    (single : m.Single key) (hm : m.Exact key) : m'.Exact key := by
  cases h with
  | aside ev ha =>
    refine ⟨fun h => (unanswered_aside ha).2 (hm.marked h), fun hs h => ?_, hm.coalesced.cons ?_⟩
    · exact (unansweredAtRest_aside ha).2 (hm.marked_rest hs h)
    · rintro x fs rfl
      exact ha
  | request k => exact hm.request single k
  | drop k =>
    refine ⟨fun h => ?_, fun hs h => ?_, hm.coalesced.cons fun _ _ he => by cases he⟩
    · simp only [mem_eraseKey] at h
      change Unanswered key (.dropped e k :: m.history)
      rw [unanswered_dropped]
      rcases h with ⟨hp, hk⟩ | ⟨hd, hk⟩
      · exact ⟨hk.symm, hm.marked (Or.inl hp)⟩
      · exact ⟨hk.symm, hm.marked (Or.inr hd)⟩
    · obtain ⟨hp, hk⟩ := mem_eraseKey.1 h
      exact unansweredAtRest_dropped.2 ⟨hk.symm, hm.marked_rest hs hp⟩
  | flush k fs hp =>
    by_cases hk : k = key
    · subst hk
      refine hm.enter_self hp (fun hd => ?_) fs
      rcases nested.deferred_open k hd with ho | hb
      · exact single.pending_closed hp ho
      · exact hw (nested.deferred_policy k hd) hb
    · have hu : (m.unmark k).Exact key :=
        ⟨fun h => hm.marked (h.imp_left fun hp => (mem_eraseKey.1 hp).1),
          fun hs h => hm.marked_rest hs (mem_eraseKey.1 h).1, hm.coalesced⟩
      exact hu.enter_of_ne hk fs
  | force k fs hf =>
    have hk : k ≠ key := by
      rintro rfl
      exact hn hf
    exact hm.enter_of_ne hk fs
  | finish k ks ho => exact hm.finish nested k
  | breakOff k ks f ho hf =>
    refine ⟨fun h => unanswered_passEnded.2 (hm.marked h), fun hs h => ?_, ?_⟩
    · exact unansweredAtRest_passEnded.2 (hm.marked_rest hs h)
    · exact hm.coalesced.cons fun _ _ he => by cases he

theorem exact_none {policy : Reentrancy} : Exact { policy } key := by
  refine ⟨fun h => ?_, fun _ h => (List.not_mem_nil h).elim, ?_⟩
  · rcases h with h | h <;> cases h
  · rintro later earlier x fs hh
    exact absurd hh.symm (by simp)

end Marks

theorem Turns.exact {policy : Reentrancy} (h : Turns e { policy } m)
    (hn : .notified e key ∉ m.history) (hw : policy = .defer → ¬ BrokenOff e key m.history) :
    m.Exact key := by
  let P (u : Marks) : Prop := u.Nested e ∧ u.Single key ∧ u.Exact key
  have h₀ : P { policy } := ⟨Marks.nested_none, Marks.single_none, Marks.exact_none⟩
  have hp : P m := by
    refine h.invariant h₀ fun u v hs hpol huv hu => ?_
    obtain ⟨nested, single, exact⟩ := hu
    have older : u.history ⊆ m.history := (huv.suffix.trans hs).subset
    have hn : .notified e key ∉ u.history := fun hm => hn (older hm)
    refine ⟨nested.turn huv, single.turn huv hn, ?_⟩
    exact exact.turn huv hn (fun hd hb => hw (hpol.symm.trans hd) (hb.mono older)) nested single
  exact hp.2.2

namespace Board

open Classical in
/-- The different callbacks for passes of a key that have been posted. -/
noncomputable def callbacks (b : Board) (e : Nat) (key : Value) : Finset Value :=
  (b.history.filterMap Event.callback?).toFinset.filter (b.runsPass e key)

theorem mem_callbacks {b : Board} {f : Value} :
    f ∈ b.callbacks e key ↔ (∃ x, .posted x f ∈ b.history) ∧ b.runsPass e key f := by
  have hposted : (∃ ev ∈ b.history, ev.callback? = some f) ↔ ∃ x, .posted x f ∈ b.history := by
    constructor
    · rintro ⟨ev, hev, hf⟩
      cases ev with
      | posted x g =>
        cases hf
        exact ⟨x, hev⟩
      | _ => cases hf
    · rintro ⟨x, hx⟩
      exact ⟨_, hx, rfl⟩
  simp [callbacks, hposted]

/-- Each pass, and the mark for the next one, has a callback of its own. -/
def Paid (b : Board) (e : Nat) (key : Value) : Prop :=
  b.history.countP (Event.startsPass key) + (if key ∈ b.scheduler.pending then 1 else 0) ≤
    (b.callbacks e key).card

variable {b b' : Board}

/-- Callbacks stay what they are while more is made and more happens. -/
theorem callbacks_subset (hr : ∀ f, b.runsPass e key f → b'.runsPass e key f)
    (hh : b.history <:+ b'.history) : b.callbacks e key ⊆ b'.callbacks e key := by
  intro f hf
  rw [mem_callbacks] at hf ⊢
  obtain ⟨⟨x, hx⟩, hf⟩ := hf
  exact ⟨⟨x, hh.mem hx⟩, hr f hf⟩

/-- Nothing that begins a pass or puts on a mark. -/
theorem Paid.mono (hb : b.Paid e key) (hr : ∀ f, b.runsPass e key f → b'.runsPass e key f)
    (hh : b.history <:+ b'.history)
    (hc : b'.history.countP (Event.startsPass key) = b.history.countP (Event.startsPass key))
    (hp : key ∈ b'.scheduler.pending → key ∈ b.scheduler.pending) : b'.Paid e key := by
  have hcard := Finset.card_le_card (callbacks_subset hr hh)
  unfold Paid at hb ⊢
  rw [hc]
  by_cases hp' : key ∈ b'.scheduler.pending
  · rw [if_pos (hp hp')] at hb
    rw [if_pos hp']
    omega
  · rw [if_neg hp']
    omega

theorem countP_posting (b : Board) (e : Nat) (f : Value) :
    (b.posting e f).history.countP (Event.startsPass key) =
      b.history.countP (Event.startsPass key) := by
  unfold posting
  rcases b.handing_cases e f with h | ⟨n, h⟩ <;> rw [h] <;> rfl

/-- A new mark comes with a callback that has not been posted before. -/
theorem Paid.announce (hb : b.Paid e key) {k : Value} (hp : k ∉ b.scheduler.pending) :
    (b.announce e k).Paid e key := by
  have hr : ∀ f, b.runsPass e key f → (b.announce e k).runsPass e key f := fun f => runsPass_push
  let b₁ := (b.reschedule fun s => { s with pending := insertKey k s.pending }).close (.pass e k)
  let f : Value := .fn (.made b.closures.size)
  have hposted : .posted e f :: b.history <:+ (b.announce e k).history := b.suffix_announce e k
  have hh : b.history <:+ (b.announce e k).history := (List.suffix_cons _ _).trans hposted
  have hc : (b.announce e k).history.countP (Event.startsPass key) =
      b.history.countP (Event.startsPass key) := b₁.countP_posting e f
  by_cases hk : k = key
  · subst hk
    have hnew : f ∈ (b.announce e k).callbacks e k := by
      refine mem_callbacks.2 ⟨⟨e, hposted.mem List.mem_cons_self⟩, b.closures.size, rfl, ?_⟩
      simp
    have hold : f ∉ b.callbacks e k := by
      intro hf
      obtain ⟨n, hn, hc⟩ := (mem_callbacks.1 hf).2
      have hn : b.closures.size = n := by
        simpa [f] using hn
      rw [← hn] at hc
      simp at hc
    have hcard := Finset.card_lt_card <|
      (Finset.ssubset_iff_of_subset (callbacks_subset hr hh)).2 ⟨f, hnew, hold⟩
    unfold Paid at hb ⊢
    rw [if_neg hp] at hb
    have hm : k ∈ (b.announce e k).scheduler.pending := mem_insertKey.2 (Or.inl rfl)
    rw [hc, if_pos hm]
    omega
  · refine hb.mono hr hh hc fun h => ?_
    rcases mem_insertKey.1 h with rfl | h
    · exact absurd rfl hk
    · exact h

theorem Paid.enqueue (hb : b.Paid e key) (k : Value) : (b.enqueue e k).Paid e key := by
  rcases b.enqueue_cases e k with ⟨_, _, h⟩ | ⟨_, _, h⟩ | ⟨_, _, h⟩ | ⟨_, hp, h⟩ <;> rw [h]
  · exact hb
  · exact hb
  · exact hb
  · exact hb.announce hp

theorem Paid.beginPass (hb : b.Paid e key) {k : Value} (hk : k ≠ key) (ps : List OpenPass) :
    (b.beginPass e k ps).board.Paid e key := by
  have hs : Event.startsPass key (.passBegan e k []) = false := by
    simpa [Event.startsPass] using hk
  rcases b.beginPass_cases e k ps with h | ⟨fs, h⟩ <;> rw [h]
  · refine hb.mono (fun _ => id) ((List.suffix_cons _ _).trans (List.suffix_cons _ _)) ?_ id
    simp only [note]
    rw [List.countP_cons_of_neg (by simp [Event.startsPass]), List.countP_cons_of_neg (by simp [hs])]
  · refine hb.mono (fun _ => id) (List.suffix_cons _ _) ?_ id
    simp only [openPass, note, reschedule]
    exact List.countP_cons_of_neg (by simpa [Event.startsPass] using hk)

/-- The pass takes the place of the mark. -/
theorem Paid.spend (hb : b.Paid e key) (hp : key ∈ b.scheduler.pending)
    (hr : ∀ f, b.runsPass e key f → b'.runsPass e key f) (hh : b.history <:+ b'.history)
    (hc : b'.history.countP (Event.startsPass key) = b.history.countP (Event.startsPass key) + 1)
    (hp' : key ∉ b'.scheduler.pending) : b'.Paid e key := by
  have hcard := Finset.card_le_card (callbacks_subset hr hh)
  unfold Paid at hb ⊢
  rw [if_pos hp] at hb
  rw [hc, if_neg hp']
  omega

theorem Paid.flush (hb : b.Paid e key) (hp : key ∈ b.scheduler.pending) (ps : List OpenPass) :
    ((b.unmark key).beginPass e key ps).board.Paid e key := by
  have hgone : key ∉ eraseKey key b.scheduler.pending := fun h => (mem_eraseKey.1 h).2 rfl
  have hc : ∀ fs, (.passBegan e key fs :: b.history).countP (Event.startsPass key) =
      b.history.countP (Event.startsPass key) + 1 :=
    fun fs => List.countP_cons_of_pos (by simp [Event.startsPass])
  rcases (b.unmark key).beginPass_cases e key ps with h | ⟨fs, h⟩ <;> rw [h]
  · refine hb.spend hp (fun _ => id) ((List.suffix_cons _ _).trans (List.suffix_cons _ _)) ?_ hgone
    rw [← hc []]
    exact List.countP_cons_of_neg (by simp [Event.startsPass])
  · exact hb.spend hp (fun _ => id) (List.suffix_cons _ _) (hc fs) hgone

theorem Paid.leavePass (hb : b.Paid e key) (k : Value) (fault : Option Fault) :
    (b.leavePass e k fault).Paid e key :=
  hb.mono (fun _ => id) (List.suffix_cons _ _) (List.countP_cons_of_neg (by simp [Event.startsPass])) id

theorem Paid.finishPass (hb : b.Paid e key) (k : Value) : (b.finishPass e k).Paid e key := by
  have hl := hb.leavePass k none
  rcases b.finishPass_cases e k with ⟨_, h⟩ | ⟨_, h⟩ <;> rw [h]
  · have hd : (b.giveWay e k).Paid e key := hl.mono (fun _ => id) (List.suffix_refl _) rfl id
    exact hd.enqueue k
  · exact hl

end Board

variable {s t : Scene}

theorem Step.paid (h : Step e s t) (quiet : ¬ s.board.scheduler.Loud)
    (once : t.board.setUps = s.board.setUps) (hs : s.Sound) (hn : .notified e key ∉ t.board.history)
    (hb : s.board.Paid e key) : t.board.Paid e key := by
  -- for the moves that log one event at most, and none that begins a pass
  have aside : ∀ {b b' : Board} {ev : Event}, b.Paid e key → b'.closures = b.closures →
      b'.history = ev :: b.history → ev.startsPass key = false →
      (key ∈ b'.scheduler.pending → key ∈ b.scheduler.pending) → b'.Paid e key := by
    intro b b' ev hb hc hh hev hp
    refine hb.mono (fun f hf => ?_) (hh ▸ List.suffix_cons _ _) ?_ hp
    · unfold Board.runsPass at hf ⊢
      rw [hc]
      exact hf
    · rw [hh]
      exact List.countP_cons_of_neg (by simp [hev])
  cases h with
  | close b ps c => exact hb.mono (fun f => Board.runsPass_push) (List.suffix_refl _) rfl id
  | loops | door | take | aside | drain | skip => exact hb
  | addWatcher b ps k f => exact aside hb rfl rfl rfl id
  | create b ps s' q => exact absurd once (Nat.succ_ne_self _)
  | removeWatcher b ps key' f =>
    exact hb.mono (fun _ => id) (List.suffix_refl _) rfl fun hp => b.scheduler.pending_removeWatcher key' f ▸ hp
  | drop b ps k => exact aside hb rfl rfl rfl fun hp => (mem_eraseKey.1 hp).1
  | request b ps k =>
    have hr : (b.note (.requested e k)).Paid e key := aside hb rfl rfl rfl id
    exact hr.enqueue k
  | post b ps f =>
    have hh := (List.suffix_cons _ _).trans (b.suffix_posting e f)
    exact hb.mono (fun _ => id) hh (b.countP_posting e f) id
  | pop b ps f rest => exact aside hb rfl rfl rfl id
  | flush b ps k due hp =>
    by_cases hk : k = key
    · subst hk
      exact hb.flush hp ps
    · have hu : (b.unmark k).Paid e key :=
        hb.mono (fun _ => id) (List.suffix_refl _) rfl fun hp => (mem_eraseKey.1 hp).1
      exact hu.beginPass hk ps
  | notify b ps k =>
    have hk : k ≠ key := by
      rintro rfl
      exact hn ((Board.suffix_beginPass (b.note _) e k ps).mem List.mem_cons_self)
    have hr : (b.note (.notified e k)).Paid e key := aside hb rfl rfl rfl id
    exact hr.beginPass hk ps
  | trace b ps key due h => exact absurd h quiet
  | traceNotified b ps key h => exact absurd h quiet
  | traced b ps key => exact absurd rfl (hs.begun _ List.mem_cons_self)
  | traceFailed b ps key => exact absurd rfl (hs.begun _ List.mem_cons_self)
  | call b ps k f rest => exact aside hb rfl rfl rfl id
  | finish b ps k => exact hb.finishPass k
  | breakOff b ps k rest f => exact hb.leavePass k (some f)

theorem Steps.paid (h : Steps e s t) (quiet : ¬ s.board.scheduler.Loud)
    (once : t.board.setUps = s.board.setUps) (hs : s.Sound) (hn : .notified e key ∉ t.board.history)
    (hb : s.board.Paid e key) : t.board.Paid e key := by
  let P (u : Scene) : Prop := u.Sound ∧ (.notified e key ∉ u.board.history → u.board.Paid e key)
  have hp : P t := by
    refine h.invariant once ⟨hs, fun _ => hb⟩ fun u v hset huv hup hu => ?_
    obtain ⟨sound, paid⟩ := hu
    have hq : ¬ u.board.scheduler.Loud := fun hl => quiet ((Board.loud_of_settings hset).1 hl)
    obtain ⟨turns, sound'⟩ := huv.turns hq hup sound
    refine ⟨sound', fun hv => ?_⟩
    have hu : .notified e key ∉ u.board.history := fun hm => hv (turns.suffix.mem hm)
    exact huv.paid hq hup sound hv (paid hu)
  exact hp.2 hn

namespace Session

variable {w₀ w : Session κ}

theorem board_callbacks (w : Session κ) (e : Nat) (key : Value) :
    (w.board e).callbacks e key = w.callbacks e key := by
  ext f
  simp only [Board.callbacks, callbacks, Finset.mem_filter, runsPass_iff]
  rfl

end Session

/-- Unless a key is notified directly, a pass of it begins only if a write to it was reported since the
last pass began and since it was last dropped, and there are no more passes than different callbacks
posted for them. A pass that something other than an error has broken off may have had a write left to
it. -/
theorem coalescing_is_exact {w₀ w : Session κ} (fresh : w₀.Fresh e)
    (quiet : ¬ (w₀.engine e).scheduler.Loud) (moment : Session.Moment w₀ w)
    (once : w.setUps e = w₀.setUps e) (unforced : .notified e key ∉ w.history e) :
    ((w₀.engine e).scheduler.policy = .skip ∨ ¬ BrokenOff e key (w.history e) →
      Coalesced key (w.history e)) ∧
    (w.history e).countP (Event.startsPass key) ≤ (w.callbacks e key).card := by
  refine ⟨fun whole => ?_, ?_⟩
  · have turns := moment.turns fresh quiet once
    refine (turns.exact unforced fun hd => ?_).coalesced
    rcases whole with hs | hw
    · rw [hs] at hd
      cases hd
    · exact hw
  · obtain ⟨ps, steps⟩ := moment.steps e
    have h₀ : (w₀.board e).Paid e key := by
      have hh : (w₀.board e).history = [] := fresh.history
      have hp : (w₀.board e).scheduler.pending = [] := fresh.pending
      simp [Board.Paid, hh, hp]
    have paid : (w.board e).Paid e key := steps.paid quiet once fresh.sound unforced h₀
    rw [← Session.board_callbacks]
    exact le_trans (Nat.le_add_right _ _) paid

theorem coalescing_is_exact_echo :
    Coalesced Echo.scope ((Echo.reached false).history 0) ∧
      ((Echo.reached false).history 0).countP (Event.startsPass Echo.scope) = 2 ∧
      2 ≤ ((Echo.reached false).callbacks 0 Echo.scope).card := by
  have two : ((Echo.reached false).history 0).countP (Event.startsPass Echo.scope) = 2 := by
    decide +kernel
  obtain ⟨coalesced, paid⟩ := coalescing_is_exact Echo.fresh Echo.quiet (Echo.moment false)
    (Echo.once false) (Echo.unforced false Echo.scope)
  rw [two] at paid
  exact ⟨coalesced (Or.inr (Echo.whole false Echo.scope)), two, paid⟩

end ReactiveScopes
