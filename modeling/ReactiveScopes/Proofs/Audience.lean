import ReactiveScopes.Proofs.FailingPost
import ReactiveScopes.Proofs.Manners

/-!
# How often watchers are called

While no write is reported, the calls that a watcher has had and those it is still owed, in the passes in progress
and in the one its key is pending for, come to the same number all along. So a tick calls every watcher of a key
that is owed a pass once, and no watcher of any other key.
-/
namespace ReactiveScopes

open Eff History

variable {κ : Type} {e : Nat} {key k f g : Value} {h h' : List Event} {ev : Event} {b : Board} {s t : Scene}
  {ps : List OpenPass}

/-- How often a watcher of a key was called. -/
def History.callsOf (key f : Value) (h : List Event) : Nat := (h.filterMap (Event.call? key)).count f

theorem History.callsOf_append (key f : Value) (h h' : List Event) :
    callsOf key f (h ++ h') = callsOf key f h + callsOf key f h' := by
  unfold callsOf
  rw [List.filterMap_append, List.count_append]

theorem History.callsOf_cons (hc : ev.call? key = none) (h : List Event) :
    callsOf key f (ev :: h) = callsOf key f h := by
  unfold callsOf
  rw [List.filterMap_cons_none hc]

theorem History.callsOf_outside (new : ∀ ev ∈ h, ev.Outside key) : callsOf key f h = 0 := by
  unfold callsOf
  rw [List.filterMap_eq_nil_iff.2 fun ev hev => (new ev hev).2]
  rfl

/-- How often a pass is still to call a watcher of a key. -/
def OpenPass.owes (key f : Value) (p : OpenPass) : Nat := if p.key = key then (p.rest.getD []).count f else 0

/-- How often passes are still to call it. -/
def OpenPass.owed (key f : Value) : List OpenPass → Nat
  | [] => 0
  | p :: ps => p.owes key f + owed key f ps

namespace Scheduler

variable {r : Scheduler}

/-- How often the pass that a key is pending for is going to call a watcher. -/
def owes (r : Scheduler) (key f : Value) : Nat := if key ∈ r.pending then (r.watchersOf key).count f else 0

/-- Another watcher, or one of another key, is no concern of this one. -/
theorem owes_addWatcher (other : ¬ (k = key ∧ g = f)) : (r.addWatcher k g).owes key f = r.owes key f := by
  have same : ((r.addWatcher k g).watchersOf key).count f = (r.watchersOf key).count f := by
    rw [watchersOf_addWatcher]
    split
    · next hk =>
      have apart : g ≠ f := fun hf => other ⟨hk, hf⟩
      unfold insertKey
      split
      · rfl
      · simp [List.count_append, apart]
    · rfl
  exact if_congr Iff.rfl same rfl

/-- Taking out a watcher may cost it the calls it was owed, and no other watcher any. -/
theorem owes_removeWatcher (r : Scheduler) (k g key f : Value) :
    (r.removeWatcher k g).owes key f ≤ r.owes key f ∧
      (f ∈ (r.removeWatcher k g).watchersOf key → (r.removeWatcher k g).owes key f = r.owes key f) := by
  have after := r.watchersOf_removeWatcher k g key
  unfold owes
  rw [pending_removeWatcher, after]
  by_cases hk : key = k
  · rw [if_pos hk]
    constructor
    · split
      · exact List.filter_sublist.count_le f
      · exact Nat.le_refl _
    · intro hf
      have other : f ≠ g := (mem_eraseKey.1 hf).2
      have same : (eraseKey g (r.watchersOf key)).count f = (r.watchersOf key).count f :=
        List.count_filter (by simpa using other)
      rw [same]
  · rw [if_neg hk]
    exact ⟨Nat.le_refl _, fun _ => rfl⟩

/-- With a key its watchers lose the calls they were owed, and others none. -/
theorem owes_drop (r : Scheduler) (k key f : Value) :
    (r.drop k).owes key f = if k = key then 0 else r.owes key f := by
  have after : (r.drop k).watchersOf key = _ := watchersOf_drop
  unfold owes
  rw [after]
  by_cases hk : k = key
  · simp [hk]
  · rw [if_neg hk, if_neg hk]
    exact if_congr (mem_eraseKey.trans (and_iff_left (Ne.symm hk))) rfl rfl

theorem owes_unmark (r : Scheduler) (k key f : Value) :
    { r with pending := eraseKey k r.pending }.owes key f = if k = key then 0 else r.owes key f := by
  unfold owes
  by_cases hk : k = key
  · simp [hk]
  · rw [if_neg hk]
    exact if_congr (mem_eraseKey.trans (and_iff_left (Ne.symm hk))) rfl rfl

end Scheduler

/-- How often a watcher of a key was called or is still to be. -/
def Scene.balance (s : Scene) (key f : Value) : Nat :=
  callsOf key f s.board.history + (OpenPass.owed key f s.passes + s.board.scheduler.owes key f)

/-- Outside of passes it is owed what its key is pending for. -/
theorem Session.balance_scene (w : Session κ) (e : Nat) (key f : Value) : (w.scene e []).balance key f =
    callsOf key f (w.history e) + (w.engine e).scheduler.owes key f := by
  unfold Scene.balance
  rw [show OpenPass.owed key f (w.scene e []).passes = 0 from rfl, Nat.zero_add]
  rfl

/-- A pass that begins is to call the watchers there are. -/
theorem Board.balance_beginPass (b : Board) (e : Nat) (k : Value) (ps : List OpenPass) (key f : Value) :
    (b.beginPass e k ps).balance key f = callsOf key f b.history +
      ((if k = key then (b.scheduler.watchersOf key).count f else 0) +
        (OpenPass.owed key f ps + b.scheduler.owes key f)) := by
  unfold beginPass
  rcases hw : b.scheduler.watchersOf k with _ | ⟨g, fs⟩
  · have none : (if k = key then (b.scheduler.watchersOf key).count f else 0) = 0 := by
      split
      · next hk => rw [← hk, hw, List.count_nil]
      · rfl
    rw [none, Nat.zero_add]
    rfl
  · have begun : OpenPass.owes key f ⟨k, some (g :: fs)⟩ =
        if k = key then (b.scheduler.watchersOf key).count f else 0 := by
      unfold OpenPass.owes
      dsimp only
      split
      · next hk => rw [← hk, hw, Option.getD_some]
      · rfl
    rw [← begun, ← Nat.add_assoc (OpenPass.owes key f _)]
    rfl

/-- An event after which a watcher is owed more calls. -/
def Event.Adds (e : Nat) (key f : Value) (ev : Event) : Prop :=
  (∃ k, ev = .requested e k) ∨ ev = .notified e key ∨ ev = .watched e key f

/-- From one scene to another a watcher has got the calls it was owed. It may have lost some with its registration, or
because something that is no error broke a pass off, but no others. -/
structure Scene.Settles (s : Scene) (e : Nat) (key f : Value) (t : Scene) : Prop where
  undeferred : t.board.scheduler.deferred = []
  bound : t.balance key f ≤ s.balance key f
  exact : f ∈ t.board.scheduler.watchersOf key →
    (∀ g, .passEnded e key (some g) ∉ since s.board.history t.board.history) →
    f ∈ s.board.scheduler.watchersOf key ∧ t.balance key f = s.balance key f

namespace Scene.Settles

theorem refl (undeferred : s.board.scheduler.deferred = []) : s.Settles e key f s :=
  ⟨undeferred, Nat.le_refl _, fun hf _ => ⟨hf, rfl⟩⟩

/-- A move after which a watcher that is registered was so before, and is owed neither more nor less. -/
theorem even (undeferred : t.board.scheduler.deferred = [])
    (watchers : f ∈ t.board.scheduler.watchersOf key → f ∈ s.board.scheduler.watchersOf key)
    (same : t.balance key f = s.balance key f) : s.Settles e key f t :=
  ⟨undeferred, Nat.le_of_eq same, fun hf _ => ⟨watchers hf, same⟩⟩

/-- A move that tells of no call and changes no pass. -/
theorem beside {b' : Board} {due due' : Option Value} (new : List Event) (undeferred : b'.scheduler.deferred = [])
    (told : b'.history = new ++ b.history) (outside : ∀ ev ∈ new, ev.Outside key)
    (less : b'.scheduler.owes key f ≤ b.scheduler.owes key f)
    (kept : f ∈ b'.scheduler.watchersOf key →
      f ∈ b.scheduler.watchersOf key ∧ b'.scheduler.owes key f = b.scheduler.owes key f) :
    Scene.Settles ⟨b, ps, due⟩ e key f ⟨b', ps, due'⟩ := by
  have calls : callsOf key f b'.history = callsOf key f b.history := by
    rw [told, callsOf_append, callsOf_outside outside, Nat.zero_add]
  refine ⟨undeferred, ?_, fun hf _ => ⟨(kept hf).1, ?_⟩⟩ <;> unfold balance <;> dsimp only <;> rw [calls]
  · omega
  · rw [(kept hf).2]

/-- A pass that begins takes the place of what was owed. -/
theorem beginPass {b' : Board} {due : Option Value} (undeferred : b'.scheduler.deferred = [])
    (watchers : b'.scheduler.watchersOf key = b.scheduler.watchersOf key)
    (same : (b'.beginPass e k ps).balance key f = (Scene.mk b ps due).balance key f) :
    Scene.Settles ⟨b, ps, due⟩ e key f (b'.beginPass e k ps) := by
  refine .even ?_ (fun hf => ?_) same
  · rcases b'.beginPass_cases e k ps with h | ⟨gs, h⟩ <;> rw [h] <;> exact undeferred
  · rcases b'.beginPass_cases e k ps with h | ⟨gs, h⟩ <;> rw [h] at hf <;> exact watchers ▸ hf

theorem trans {u : Scene} (hs : s.Settles e key f u) (ht : u.Settles e key f t)
    (older : s.board.history <:+ u.board.history) (later : u.board.history <:+ t.board.history) :
    s.Settles e key f t where
  undeferred := ht.undeferred
  bound := ht.bound.trans hs.bound
  exact hf whole := by
    rw [since_trans older later] at whole
    obtain ⟨hu, same⟩ := ht.exact hf fun g hg => whole g (List.mem_append_left _ hg)
    obtain ⟨hs, same'⟩ := hs.exact hu fun g hg => whole g (List.mem_append_right _ hg)
    exact ⟨hs, same.trans same'⟩

section Moves

variable {due : Option Value} {rest : List Value}

/-- Another watcher, or one of another key, is registered. -/
theorem watch (undeferred : b.scheduler.deferred = []) (other : ¬ (k = key ∧ g = f)) :
    Scene.Settles ⟨b, ps, due⟩ e key f
      ⟨(b.note (.watched e k g)).reschedule fun r => r.addWatcher k g, ps, due⟩ := by
  have owes : (b.scheduler.addWatcher k g).owes key f = b.scheduler.owes key f := Scheduler.owes_addWatcher other
  have outside : ∀ ev ∈ [Event.watched e k g], ev.Outside key := List.forall_mem_singleton.2 ⟨id, rfl⟩
  refine .beside [.watched e k g] undeferred rfl outside (Nat.le_of_eq owes) fun hf => ⟨?_, owes⟩
  exact (Scheduler.mem_watchersOf_addWatcher.1 hf).resolve_left fun he => other ⟨he.1.symm, he.2.symm⟩

theorem unwatch (undeferred : b.scheduler.deferred = []) :
    Scene.Settles ⟨b, ps, due⟩ e key f ⟨b.reschedule fun r => r.removeWatcher k g, ps, due⟩ := by
  obtain ⟨less, kept⟩ := b.scheduler.owes_removeWatcher k g key f
  have deferred := b.scheduler.deferred_removeWatcher k g
  exact .beside [] (deferred.trans undeferred) rfl (List.forall_mem_nil _) less fun hf =>
    ⟨Scheduler.watchersOf_removeWatcher_subset hf, kept hf⟩

theorem drop (undeferred : b.scheduler.deferred = []) :
    Scene.Settles ⟨b, ps, due⟩ e key f ⟨(b.note (.dropped e k)).reschedule fun r => r.drop k, ps, due⟩ := by
  have owes := b.scheduler.owes_drop k key f
  have deferred : (b.scheduler.drop k).deferred = [] := by
    change eraseKey k b.scheduler.deferred = []
    rw [undeferred]
    rfl
  refine .beside [.dropped e k] deferred rfl (List.forall_mem_singleton.2 ⟨id, rfl⟩) ?_ fun hf => ?_
  · change (b.scheduler.drop k).owes key f ≤ _
    rw [owes]
    split
    · exact Nat.zero_le _
    · exact Nat.le_refl _
  · change f ∈ (b.scheduler.drop k).watchersOf key at hf
    rw [Scheduler.watchersOf_drop] at hf
    split at hf
    · cases hf
    · next hk => exact ⟨hf, owes.trans (if_neg hk)⟩

/-- The pass that a key was pending for begins: what was owed then is owed in the pass. -/
theorem flush (undeferred : b.scheduler.deferred = []) (hp : k ∈ b.scheduler.pending) :
    Scene.Settles ⟨b, ps, due⟩ e key f ((b.unmark k).beginPass e k ps) := by
  refine .beginPass undeferred rfl ?_
  have owes := b.scheduler.owes_unmark k key f
  rw [Board.balance_beginPass, Board.unmark, Board.reschedule]
  dsimp only
  rw [owes]
  unfold balance
  dsimp only
  by_cases hk : k = key
  · subst hk
    have marked : b.scheduler.owes k f = (b.scheduler.watchersOf k).count f := if_pos hp
    rw [if_pos rfl, if_pos rfl, marked, Nat.add_zero, Nat.add_comm _ (OpenPass.owed _ _ _)]
    rfl
  · rw [if_neg hk, if_neg hk, Nat.zero_add]

/-- A pass that is forced is one of another key. -/
theorem notify (undeferred : b.scheduler.deferred = []) (hk : k ≠ key) :
    Scene.Settles ⟨b, ps, due⟩ e key f ((b.note (.notified e k)).beginPass e k ps) := by
  refine .beginPass undeferred rfl ?_
  rw [Board.balance_beginPass, if_neg hk, Nat.zero_add, Board.note, callsOf_cons rfl]
  rfl

/-- A call that was owed is made. -/
theorem call (undeferred : b.scheduler.deferred = []) :
    Scene.Settles ⟨b, ⟨k, some (g :: rest)⟩ :: ps, none⟩ e key f
      ⟨b.note (.watcherCalled e k g), ⟨k, some rest⟩ :: ps, due⟩ := by
  refine .even undeferred id ?_
  have paid : callsOf key f (.watcherCalled e k g :: b.history) + OpenPass.owes key f ⟨k, some rest⟩ =
      callsOf key f b.history + OpenPass.owes key f ⟨k, some (g :: rest)⟩ := by
    unfold callsOf OpenPass.owes
    by_cases hk : k = key
    · subst hk
      simp [Event.call?, List.count_cons]
      omega
    · simp [Event.call?, hk]
  unfold balance
  rw [OpenPass.owed, OpenPass.owed]
  dsimp only [Board.note]
  omega

/-- A pass that has called everything owes nothing. -/
theorem finish (undeferred : b.scheduler.deferred = []) :
    Scene.Settles ⟨b, ⟨k, some []⟩ :: ps, none⟩ e key f ⟨b.finishPass e k, ps, none⟩ := by
  have ended : b.finishPass e k = b.leavePass e k none :=
    Board.finishPass_idle fun hd => absurd hd (undeferred ▸ List.not_mem_nil)
  have done : OpenPass.owes key f ⟨k, some []⟩ = 0 := by simp [OpenPass.owes]
  refine .even (by rw [ended]; exact undeferred) (by rw [ended]; exact id) ?_
  unfold balance
  rw [ended, OpenPass.owed, done, Nat.zero_add]
  dsimp only [Board.leavePass, Board.note]
  rw [callsOf_cons rfl]
  rfl

/-- What a pass still owed when it was broken off is owed no more. -/
theorem breakOff (undeferred : b.scheduler.deferred = []) (φ : Fault) :
    Scene.Settles ⟨b, ⟨k, some rest⟩ :: ps, none⟩ e key f ⟨b.leavePass e k (some φ), ps, none⟩ := by
  have balance : (Scene.mk (b.leavePass e k (some φ)) ps none).balance key f + OpenPass.owes key f ⟨k, some rest⟩ =
      (Scene.mk b (⟨k, some rest⟩ :: ps) none).balance key f := by
    have calls : callsOf key f (.passEnded e k (some φ) :: b.history) = callsOf key f b.history := callsOf_cons rfl _
    unfold Scene.balance
    rw [OpenPass.owed]
    change callsOf key f (.passEnded e k (some φ) :: b.history) + (_ + b.scheduler.owes key f) + _ = _
    rw [calls]
    dsimp only
    omega
  refine ⟨undeferred, by omega, fun hf whole => ⟨hf, ?_⟩⟩
  have hk : k ≠ key := by
    rintro rfl
    exact whole φ (mem_since (List.suffix_refl _))
  have nothing : OpenPass.owes key f ⟨k, some rest⟩ = 0 := if_neg hk
  omega

end Moves

end Scene.Settles

/-- What a move makes of the calls that a watcher is owed, as long as no more are added. -/
theorem Step.settles (h : Step e s t) (quiet : ¬ s.board.scheduler.Loud) (once : t.board.setUps = s.board.setUps)
    (begun : s.Begun) (undeferred : s.board.scheduler.deferred = [])
    (steady : ∀ ev ∈ since s.board.history t.board.history, ¬ ev.Adds e key f) : s.Settles e key f t := by
  -- an event that is told of adds no calls
  have told {ev : Event} (hs : ev :: s.board.history <:+ t.board.history) : ¬ ev.Adds e key f :=
    steady ev (mem_since hs)
  cases h with
  | close | loops | door | take | drain | skip | aside => exact .even undeferred id rfl
  | create b ps s' q => exact absurd once (Nat.succ_ne_self _)
  | addWatcher b ps k g =>
    refine .watch undeferred ?_
    rintro ⟨rfl, rfl⟩
    exact told (List.suffix_refl _) (.inr (.inr rfl))
  | removeWatcher b ps k g => exact .unwatch undeferred
  | drop b ps k => exact .drop undeferred
  | request b ps k =>
    have hs : .requested e k :: b.history <:+ (b.request e k).history :=
      Board.suffix_enqueue (b.note (.requested e k)) e k
    exact absurd (.inl ⟨k, rfl⟩) (told hs)
  | post b ps g =>
    obtain ⟨new, hh, hn⟩ := b.outside_posting e g key
    exact .beside new undeferred hh hn (Nat.le_refl _) fun hf => ⟨hf, rfl⟩
  | pop b ps g rest hq =>
    have outside : ∀ ev ∈ [Event.began e g], ev.Outside key := List.forall_mem_singleton.2 ⟨id, rfl⟩
    exact .beside [.began e g] undeferred rfl outside (Nat.le_refl _) fun hf => ⟨hf, rfl⟩
  | flush b ps k due hp => exact .flush undeferred hp
  | notify b ps k =>
    have hs : .notified e k :: b.history <:+ ((b.note (.notified e k)).beginPass e k ps).board.history :=
      Board.suffix_beginPass (b.note (.notified e k)) e k ps
    refine .notify undeferred ?_
    rintro rfl
    exact told hs (.inr (.inl rfl))
  | trace b ps k due h => exact absurd h quiet
  | traceNotified b ps k h => exact absurd h quiet
  | traced b ps k => exact absurd rfl (begun _ List.mem_cons_self)
  | traceFailed b ps k => exact absurd rfl (begun _ List.mem_cons_self)
  | call b ps k g rest => exact .call undeferred
  | finish b ps k => exact .finish undeferred
  | breakOff b ps k rest g hg => exact .breakOff undeferred g

/-- So does a run, and the queue goes on serving the keys that are pending. -/
theorem Steps.settles (h : Steps e s t) (quiet : ¬ s.board.scheduler.Loud) (once : t.board.setUps = s.board.setUps)
    (begun : s.Begun) (undeferred : s.board.scheduler.deferred = []) (served : s.board.Served e s.due)
    (steady : ∀ ev ∈ since s.board.history t.board.history, ¬ ev.Adds e key f) :
    s.Settles e key f t ∧ t.board.Served e t.due := by
  refine h.onward (P := fun u => s.Settles e key f u ∧ u.board.Served e u.due) quiet once begun steady
    ⟨.refl undeferred, served⟩ fun u v m hu => ?_
  obtain ⟨before, served⟩ := hu
  have silent (k : Value) : ¬ .requested e k :: u.board.history <:+ v.board.history :=
    fun hs => m.told _ (mem_since hs) (.inl ⟨k, rfl⟩)
  exact ⟨before.trans (m.move.settles m.quiet m.once m.begun before.undeferred m.told) m.older m.later,
    m.move.served m.quiet m.once m.begun (.inr ⟨before.undeferred, silent⟩) served⟩

/-- Where its key is not pending any more, a watcher has been called as often as it was owed. -/
theorem Scene.Settles.calls {w w' : Session κ} (h : (w.scene e []).Settles e key f (w'.scene e []))
    (older : w.history e <:+ w'.history e) (unmarked : key ∉ (w'.engine e).scheduler.pending) :
    callsOf key f (since (w.history e) (w'.history e)) ≤ (w.engine e).scheduler.owes key f ∧
      (f ∈ (w'.engine e).scheduler.watchersOf key →
        (∀ g, .passEnded e key (some g) ∉ since (w.history e) (w'.history e)) →
        f ∈ (w.engine e).scheduler.watchersOf key ∧
          callsOf key f (since (w.history e) (w'.history e)) = (w.engine e).scheduler.owes key f) := by
  have before := w.balance_scene e key f
  have after : (w'.scene e []).balance key f = callsOf key f (w'.history e) := by
    rw [Session.balance_scene, show (w'.engine e).scheduler.owes key f = 0 from if_neg unmarked]
    rfl
  have calls : callsOf key f (w'.history e) =
      callsOf key f (since (w.history e) (w'.history e)) + callsOf key f (w.history e) := by
    rw [← callsOf_append, since_append_self older]
  have bound := h.bound
  refine ⟨by omega, fun hf whole => ?_⟩
  obtain ⟨registered, same⟩ := h.exact hf whole
  exact ⟨registered, by omega⟩

/-- No watcher is registered twice under the same key. -/
def Scheduler.Distinct (r : Scheduler) : Prop := ∀ key, (r.watchersOf key).Nodup

theorem Step.distinct (h : Step e s t) (once : t.board.setUps = s.board.setUps) (hs : s.board.scheduler.Distinct) :
    t.board.scheduler.Distinct := by
  have same {r : Scheduler} (watchers : r.watchersOf = s.board.scheduler.watchersOf) : r.Distinct :=
    fun key => watchers ▸ hs key
  cases h with
  | create b ps s' q => exact absurd once (Nat.succ_ne_self _)
  | addWatcher b ps k g =>
    intro key
    change ((b.scheduler.addWatcher k g).watchersOf key).Nodup
    rw [Scheduler.watchersOf_addWatcher]
    split
    · unfold insertKey
      split
      · exact hs key
      · next hg =>
        rw [← List.concat_eq_append]
        exact (hs key).concat (by simpa using hg)
    · exact hs key
  | removeWatcher b ps k g =>
    intro key
    change ((b.scheduler.removeWatcher k g).watchersOf key).Nodup
    rw [Scheduler.watchersOf_removeWatcher]
    split
    · exact (hs key).filter _
    · exact hs key
  | drop b ps k =>
    intro key
    change ((b.scheduler.drop k).watchersOf key).Nodup
    rw [Scheduler.watchersOf_drop]
    split
    · exact List.nodup_nil
    · exact hs key
  | request b ps k => exact same (Board.watchersOf_steady.request b e k)
  | flush b ps k due => exact same (Board.watchersOf_steady.beginPass (b.unmark k) e k ps)
  | notify b ps k => exact same (Board.watchersOf_steady.beginPass (b.note (.notified e k)) e k ps)
  | finish b ps k => exact same (Board.watchersOf_steady.finishPass b e k)
  | _ => exact same rfl

theorem Steps.distinct (h : Steps e s t) (once : t.board.setUps = s.board.setUps)
    (hs : s.board.scheduler.Distinct) : t.board.scheduler.Distinct :=
  h.invariant (P := fun u => u.board.scheduler.Distinct) once hs fun _ _ _ huv hup hu => huv.distinct hup hu

/-- Since the session `w` each watcher that was registered then has been called once if its key was owed a pass, unless
it is registered no longer, and otherwise not at all. -/
def Session.PaysUp (w : Session κ) (e : Nat) (policy : Reentrancy) (w' : Session κ) : Prop :=
  ∀ key f, .watched e key f ∉ since (w.history e) (w'.history e) →
    let calls := callsOf key f (since (w.history e) (w'.history e))
    (Owed policy key (w.history e) → calls ≤ 1 ∧ (f ∈ (w'.engine e).scheduler.watchersOf key → calls = 1)) ∧
      (¬ Owed policy key (w.history e) → calls = 0)

namespace Manners

variable (M : Manners κ)

/-- The engine has just been set up. It has a queue of its own and the policy that the client expects, no loop is
running, and tracing a pass runs no client code. -/
structure Begins (w : Session κ) : Prop where
  fresh : w.Fresh M.engine
  quiet : ¬ (w.engine M.engine).scheduler.Loud
  distinct : (w.engine M.engine).scheduler.Distinct
  own : (w.engine M.engine).queue.sink = none
  loopless : w.Loopless
  policy : (w.engine M.engine).scheduler.policy = M.policy

/-- The engine is at rest, and a client that has its manners may have it tick: no pass is in progress, none has been
forced or, if it matters, broken off, and what is marked and queued is for scopes that may have passes. -/
structure Rests (M : Manners κ) (b : Board) : Prop where
  outside : openPasses b.history = []
  idle : b.queue.draining = false
  unforced : ∀ key, .notified M.engine key ∉ b.history
  whole : M.policy = .skip ∨ ∀ key, ¬ BrokenOff M.engine key b.history
  watchers : ∀ {k f}, M.keys k → f ∈ b.scheduler.watchersOf k → M.fit k f
  marked : ∀ k ∈ b.scheduler.pending, M.keys k
  queued : ∀ f ∈ b.queue.posted, ∃ k, b.runsPass M.engine k f

namespace Rests

variable {M}

theorem note (h : M.Rests b) (same : openPasses (ev :: b.history) = openPasses b.history) (unforced : ev.forces = false)
    (whole : ev.breaksOff = false) : M.Rests (b.note ev) where
  outside := same.trans h.outside
  idle := h.idle
  unforced key hm := by
    rcases List.mem_cons.1 hm with rfl | hm
    · cases unforced
    · exact h.unforced key hm
  whole := h.whole.imp_right fun h key hb => by
    obtain ⟨fault, hm, hf⟩ := hb
    rcases List.mem_cons.1 hm with rfl | hm
    · cases whole
    · exact h key ⟨fault, hm, hf⟩
  watchers := h.watchers
  marked := h.marked
  queued := h.queued

/-- A callback for a pass may be posted. -/
theorem posting (h : M.Rests b) (e : Nat) {k : Value} (runs : b.runsPass M.engine k f) : M.Rests (b.posting e f) := by
  have told : M.Rests { b with history := (b.posting e f).history } := by
    have posted : M.Rests (b.note (.posted e f)) := h.note rfl rfl rfl
    unfold Board.posting
    rcases b.handing_cases e f with none | ⟨l, some⟩
    · rw [none]
      exact posted
    · rw [some]
      exact @note κ (.handed e f l) (b.note (.posted e f)) M posted rfl rfl rfl
  refine ⟨told.outside, ?_, told.unforced, told.whole, h.watchers, h.marked, fun g hg => ?_⟩
  · unfold Board.posting
    dsimp only
    split <;> exact h.idle
  · unfold Board.posting at hg
    dsimp only at hg
    split at hg
    · rcases List.mem_append.1 hg with hg | hg
      · exact h.queued g hg
      · exact ⟨k, List.mem_singleton.1 hg ▸ runs⟩
    · exact h.queued g hg

/-- A write to a scope that may have passes leaves the engine at rest. -/
theorem request (h : M.Rests b) (may : M.keys k) : M.Rests (b.request M.engine k) := by
  have noted : M.Rests (b.note (.requested M.engine k)) := h.note rfl rfl rfl
  unfold Board.request
  generalize b.note (.requested M.engine k) = b at noted
  rcases b.enqueue_cases M.engine k with ⟨_, _, he⟩ | ⟨_, _, he⟩ | ⟨_, _, he⟩ | ⟨_, _, he⟩ <;> rw [he]
  · exact ⟨noted.outside, noted.idle, noted.unforced, noted.whole, noted.watchers, noted.marked, noted.queued⟩
  · exact noted
  · exact noted
  · have marked : M.Rests ((b.reschedule fun s => { s with pending := insertKey k s.pending }).close
        (.pass M.engine k)) := by
      refine ⟨noted.outside, noted.idle, noted.unforced, noted.whole, noted.watchers, fun x hx => ?_, fun f hf => ?_⟩
      · exact (mem_insertKey.1 hx).elim (· ▸ may) (noted.marked x)
      · obtain ⟨x, runs⟩ := noted.queued f hf
        exact ⟨x, Board.runsPass_push runs⟩
    exact marked.posting M.engine (k := k) ⟨b.closures.size, rfl, Array.getElem?_push_size⟩

end Rests

section Ticks

variable {M} {w₀ w : Session κ} (begins : M.Begins w₀)
  (steps : Steps M.engine (w₀.scene M.engine []) (w.scene M.engine ps))
  (once : w.setUps M.engine = w₀.setUps M.engine) (rests : M.Rests (w.board M.engine))

include begins steps once

theorem Begins.turns : Turns M.engine { policy := M.policy } (w.marks M.engine) := by
  have turns := (steps.turns begins.quiet once begins.fresh.sound).1
  rwa [show (w₀.scene M.engine []).board.marks = _ from begins.fresh.marks_eq, begins.policy] at turns

theorem Begins.served (still : w.loops = w₀.loops) : (w.board M.engine).Served M.engine none := by
  have served : (w₀.board M.engine).Served M.engine none := fun k hk => by
    rw [show (w₀.board M.engine).scheduler.pending = [] from begins.fresh.pending] at hk
    cases hk
  exact steps.served begins.quiet once begins.fresh.sound begins.own begins.loopless.board still served

include rests

/-- An engine at rest has left nothing to a pass in progress. -/
theorem Rests.undeferred : (w.engine M.engine).scheduler.deferred = [] := by
  have nested := (begins.turns steps once).nested Marks.nested_none
  refine List.eq_nil_iff_forall_not_mem.2 fun k hk => ?_
  rcases nested.deferred_open k hk with ho | hb
  · rw [show openPasses (w.marks M.engine).history = [] from rests.outside] at ho
    cases ho
  · rcases rests.whole with skip | whole
    · have defer : (w.engine M.engine).scheduler.policy = .defer := nested.deferred_policy k hk
      have same : (w.engine M.engine).scheduler.policy = M.policy :=
        (congrArg Prod.fst (steps.settings once)).trans begins.policy
      cases (same.trans skip).symm.trans defer
    · exact whole k hb

/-- Marked are the keys that are owed a pass. -/
theorem Rests.pending_iff (key : Value) :
    key ∈ (w.engine M.engine).scheduler.pending ↔ Owed M.policy key (w.history M.engine) :=
  (begins.turns steps once).pending_iff (rests.unforced key) (rests.whole.imp_right fun whole => whole key)

theorem Rests.closed : ps = [] := by
  have told := (steps.turns begins.quiet once begins.fresh.sound).2.told
  rw [show openPasses (w.scene M.engine ps).board.history = [] from rests.outside] at told
  exact List.map_eq_nil_iff.1 told.symm

/-- After a run without loops, a tick of an engine at rest comes to its end if the watchers keep to their manners.
Unless writes are reported in it, it calls every watcher that is owed a pass once, and no other. -/
theorem tick_calls (hM : M.Sound) (still : w.loops = w₀.loops) (known : M.known w) :
    ∃ w', Ends M.host (perform (.engine M.engine .tick)) w
        (.value (.int (w.engine M.engine).queue.posted.length), w') ∧
      ((∀ key, .requested M.engine key ∉ since (w.history M.engine) (w'.history M.engine)) →
        w.PaysUp M.engine M.policy w') := by
  have none := rests.undeferred begins steps once
  have due := rests.pending_iff begins steps once
  obtain rfl := rests.closed begins steps once
  have admits : M.Admits w := ⟨rests.watchers, rests.marked, known⟩
  have ready : M.Ready w :=
    admits.ready_of_steps begins.fresh begins.quiet steps once begins.policy rests.unforced fun key _ _ => by
      rw [none]
      exact List.not_mem_nil
  have queued : M.Queued w := fun f hf => by
    obtain ⟨k, runs⟩ := rests.queued f hf
    exact ⟨k, Session.runsPass_iff.2 runs⟩
  obtain ⟨w', ends, told, -, empty⟩ := tick_tells hM ready queued rests.idle
  refine ⟨w', ends, fun silent key f unwatched => ?_⟩
  have steady : ∀ ev ∈ since (w.history M.engine) (w'.history M.engine), ¬ ev.Adds M.engine key f := by
    rintro ev hev (⟨k, rfl⟩ | rfl | rfl)
    · exact silent k hev
    · exact told.tame _ hev
    · exact unwatched hev
  have begun := (steps.turns begins.quiet once begins.fresh.sound).2.begun
  have ticked : Steps M.engine (w.scene M.engine []) (w'.scene M.engine []) := ends.attempt_value.steps
  obtain ⟨settles, served⟩ :=
    ticked.settles ready.calm told.once begun none (begins.served steps once still) steady
  -- with the queue empty nothing is pending, so that nobody is owed a call any more
  have unmarked : key ∉ (w'.engine M.engine).scheduler.pending := by
    intro hk
    obtain ⟨g, hg | hg, -⟩ := served key hk
    · rw [show (w'.scene M.engine []).board.queue.posted = [] from empty] at hg
      cases hg
    · cases hg
  obtain ⟨most, exact⟩ := settles.calls told.older unmarked
  have distinct : ((w.engine M.engine).scheduler.watchersOf key).Nodup := steps.distinct once begins.distinct key
  intro n
  constructor
  · intro owed
    have owes : (w.engine M.engine).scheduler.owes key f =
        ((w.engine M.engine).scheduler.watchersOf key).count f := if_pos ((due key).2 owed)
    rw [owes] at most exact
    refine ⟨most.trans (List.nodup_iff_count_le_one.1 distinct f), fun hf => ?_⟩
    have unbroken (g : Fault) :
        .passEnded M.engine key (some g) ∉ since (w.history M.engine) (w'.history M.engine) :=
      fun hg => absurd (told.tame _ hg) nofun
    obtain ⟨registered, calls⟩ := exact hf unbroken
    exact calls.trans (List.count_eq_one_of_mem distinct registered)
  · intro free
    have owes : (w.engine M.engine).scheduler.owes key f = 0 := if_neg fun hk => free ((due key).1 hk)
    exact Nat.le_zero.1 (most.trans (Nat.le_of_eq owes))

end Ticks

end Manners

end ReactiveScopes
