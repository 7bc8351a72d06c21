import ReactiveScopes.Proofs.Marks

/-!
# The course of a pass

Nothing but notifying a key directly begins a pass of it while one is running. So what is told of the key
between the beginning of a pass and its end is that pass alone: its watchers are called in their order,
until all have been or something that is no error breaks it off.
-/
namespace ReactiveScopes

open History

variable {κ : Type} {e : Nat} {key k : Value} {fs : List Value} {h h₀ h₁ : List Event}

namespace Event

/-- Whether a pass of `key` begins or ends. -/
def Bounds (key : Value) : Event → Prop
  | passBegan _ k _ => k = key
  | passEnded _ k _ => k = key
  | _ => False

/-- The watcher of `key` that is called. -/
def call? (key : Value) : Event → Option Value
  | watcherCalled _ k f => if k = key then some f else none
  | _ => none

/-- Whether this is no part of a pass of `key`. -/
def Outside (key : Value) (ev : Event) : Prop := ¬ ev.Bounds key ∧ ev.call? key = none

theorem OfPost.outside {ev : Event} (h : ev.OfPost) (key : Value) : ev.Outside key := by
  cases ev with
  | posted | handed => exact ⟨id, rfl⟩
  | _ => exact h.elim

end Event

namespace History

/-- A pass of `key` for the watchers `fs`, begun after `before`, has called all of them in their order and
was then over. -/
def Completed (e : Nat) (key : Value) (fs : List Value) (before h : List Event) : Prop :=
  ∃ after during, h = after ++ .passEnded e key none :: (during ++ .passBegan e key fs :: before) ∧
    (∀ ev ∈ during, ¬ ev.Bounds key) ∧ during.filterMap (Event.call? key) = fs.reverse

/-- A pass of `key` for the watchers `fs`, begun after `before`, was broken off by something that is no
error. -/
def CutShort (e : Nat) (key : Value) (fs : List Value) (before h : List Event) : Prop :=
  ∃ after during f, h = after ++ .passEnded e key (some f) :: (during ++ .passBegan e key fs :: before) ∧
    (∀ ev ∈ during, ¬ ev.Bounds key) ∧ f.isError = false

theorem Completed.mono {before : List Event} (hc : Completed e key fs before h₁) (hs : h₁ <:+ h) :
    Completed e key fs before h := by
  obtain ⟨after, during, rfl, hin, hcalls⟩ := hc
  obtain ⟨new, rfl⟩ := hs
  exact ⟨new ++ after, during, (List.append_assoc ..).symm, hin, hcalls⟩

theorem CutShort.mono {before : List Event} (hc : CutShort e key fs before h₁) (hs : h₁ <:+ h) :
    CutShort e key fs before h := by
  obtain ⟨after, during, f, rfl, hin, hf⟩ := hc
  obtain ⟨new, rfl⟩ := hs
  exact ⟨new ++ after, during, f, (List.append_assoc ..).symm, hin, hf⟩

/-- What began before is told of before. -/
theorem suffix_of_append {ev : Event} {new : List Event} (hs : ev :: h₀ <:+ new ++ h) (hev : ev ∉ new) :
    ev :: h₀ <:+ h := by
  induction new with
  | nil => exact hs
  | cons x new ih =>
    rcases List.suffix_cons_iff.1 hs with he | hs
    · cases he
      exact absurd List.mem_cons_self hev
    · exact ih hs fun hm => hev (List.mem_cons_of_mem x hm)

end History

/-- A pass of `key` for the watchers `fs`, begun after `before`, is in progress: it has still to call the
watchers `rest`, while the passes `above` run inside it. -/
def Scene.Underway (s : Scene) (e : Nat) (key : Value) (fs : List Value) (before : List Event) : Prop :=
  ∃ during above rest below,
    s.board.history = during ++ .passBegan e key fs :: before ∧ (∀ ev ∈ during, ¬ ev.Bounds key) ∧
    (during.filterMap (Event.call? key)).reverse ++ rest = fs ∧
    s.passes = above ++ ⟨key, some rest⟩ :: below ∧ key ∉ above.map OpenPass.key ∧
    key ∉ s.board.scheduler.pending ∧ key ∈ s.board.scheduler.running

/-- A pass begins, goes on or ends, and it is none of `key`. -/
inductive Aloof (key : Value) : List OpenPass → List OpenPass → Prop where
  | same (ps) : Aloof key ps ps
  | begins (p ps) (h : p.key ≠ key) : Aloof key ps (p :: ps)
  | goesOn (p p' ps) (h : p.key ≠ key) (h' : p'.key ≠ key) : Aloof key (p :: ps) (p' :: ps)
  | ends (p ps) (h : p.key ≠ key) : Aloof key (p :: ps) ps

/-- From one scene to another a running key has stayed so, and nothing has happened in its passes. -/
structure Scene.Beside (s t : Scene) (key : Value) : Prop where
  told : ∃ new, t.board.history = new ++ s.board.history ∧ ∀ ev ∈ new, ev.Outside key
  unmarked : key ∉ t.board.scheduler.pending
  running : key ∈ t.board.scheduler.running
  stack : Aloof key s.passes t.passes

variable {s t : Scene} {b : Board} {before : List Event} {ps ps' : List OpenPass}

namespace Board

theorem outside_posting (b : Board) (e : Nat) (f key : Value) :
    ∃ new, (b.posting e f).history = new ++ b.history ∧ ∀ ev ∈ new, ev.Outside key :=
  (b.told_posting e f).imp fun _ told => ⟨told.1, fun ev hev => (told.2 ev hev).outside key⟩

theorem outside_enqueue (b : Board) (e : Nat) (k key : Value) :
    ∃ new, (b.enqueue e k).history = new ++ b.history ∧ ∀ ev ∈ new, ev.Outside key :=
  (b.told_enqueue e k).imp fun _ told => ⟨told.1, fun ev hev => (told.2 ev hev).outside key⟩

theorem outside_finishPass (b : Board) (e : Nat) (k key : Value) :
    ∃ new, (b.finishPass e k).history = new ++ .passEnded e k none :: b.history ∧ ∀ ev ∈ new, ev.Outside key :=
  (b.told_finishPass e k).imp fun _ told => ⟨told.1, fun ev hev => (told.2 ev hev).outside key⟩

/-- A running key is not marked. -/
theorem unmarked_enqueue (hp : key ∉ b.scheduler.pending) (hr : k = key → key ∈ b.scheduler.running) :
    key ∉ (b.enqueue e k).scheduler.pending := by
  rcases b.enqueue_cases e k with ⟨_, _, h⟩ | ⟨_, _, h⟩ | ⟨_, _, h⟩ | ⟨hn, _, h⟩ <;> rw [h]
  · exact hp
  · exact hp
  · exact hp
  · intro hm
    rcases mem_insertKey.1 hm with rfl | hm
    · exact hn (hr rfl)
    · exact hp hm

theorem unmarked_finishPass (hp : key ∉ b.scheduler.pending) (hk : k ≠ key) :
    key ∉ (b.finishPass e k).scheduler.pending := by
  rcases b.finishPass_cases e k with ⟨_, h⟩ | ⟨_, h⟩ <;> rw [h]
  · exact unmarked_enqueue hp fun h => absurd h hk
  · exact hp

theorem running_finishPass (b : Board) (e : Nat) (k : Value) :
    (b.finishPass e k).scheduler.running = eraseKey k b.scheduler.running := by
  rcases b.finishPass_cases e k with ⟨_, h⟩ | ⟨_, h⟩ <;> rw [h]
  · exact running_enqueue _ e k
  · rfl

end Board

theorem Aloof.absent (h : Aloof key ps ps') (hk : key ∉ ps.map OpenPass.key) :
    key ∉ ps'.map OpenPass.key := by
  cases h with
  | same => exact hk
  | begins p _ hp => exact fun h => (List.mem_cons.1 h).elim (fun h => hp h.symm) hk
  | goesOn p p' ps hp hp' =>
    exact fun h => (List.mem_cons.1 h).elim (fun h => hp' h.symm) fun h => hk (List.mem_cons_of_mem _ h)
  | ends p _ hp => exact fun h => hk (List.mem_cons_of_mem _ h)

/-- A pass of the key keeps its place. -/
theorem Aloof.place (h : Aloof key ps ps') {above below : List OpenPass} {p : OpenPass}
    (hs : ps = above ++ p :: below) (hp : p.key = key) (ha : key ∉ above.map OpenPass.key) :
    ∃ above', ps' = above' ++ p :: below ∧ key ∉ above'.map OpenPass.key := by
  cases h with
  | same => exact ⟨above, hs, ha⟩
  | begins q _ hq =>
    refine ⟨q :: above, congrArg (q :: ·) hs, ?_⟩
    exact fun h => (List.mem_cons.1 h).elim (fun h => hq h.symm) ha
  | goesOn q q' qs hq hq' =>
    cases above with
    | nil =>
      cases hs
      exact absurd hp hq
    | cons r above =>
      cases hs
      refine ⟨q' :: above, rfl, fun h => ?_⟩
      exact (List.mem_cons.1 h).elim (fun h => hq' h.symm) fun h => ha (List.mem_cons_of_mem _ h)
  | ends q _ hq =>
    cases above with
    | nil =>
      cases hs
      exact absurd hp hq
    | cons r above =>
      cases hs
      exact ⟨above, rfl, fun h => ha (List.mem_cons_of_mem _ h)⟩

/-- A pass of another key begins. -/
theorem Scene.Beside.beginPass {b : Board} (new : List Event) (hk : k ≠ key)
    (hh : b.history = new ++ s.board.history) (hn : ∀ ev ∈ new, ev.Outside key)
    (hu : key ∉ b.scheduler.pending) (hr : key ∈ b.scheduler.running) :
    s.Beside (b.beginPass e k s.passes) key := by
  have began : ∀ gs, (Event.passBegan e k gs).Outside key := fun gs => ⟨hk, rfl⟩
  have ended : (Event.passEnded e k none).Outside key := ⟨hk, rfl⟩
  rcases b.beginPass_cases e k s.passes with h | ⟨gs, h⟩ <;> rw [h]
  · refine ⟨⟨.passEnded e k none :: .passBegan e k [] :: new, ?_, ?_⟩, hu, hr, .same _⟩
    · simp [hh]
    · exact List.forall_mem_cons.2 ⟨ended, List.forall_mem_cons.2 ⟨began [], hn⟩⟩
  · refine ⟨⟨.passBegan e k gs :: new, ?_, ?_⟩, hu, mem_insertKey.2 (Or.inr hr), .begins _ _ hk⟩
    · simp [hh]
    · exact List.forall_mem_cons.2 ⟨began gs, hn⟩

namespace Scene.Beside

variable {b : Board} {due due' : Option Value}

/-- A write to a key is reported. -/
theorem request (hu : key ∉ b.scheduler.pending) (hr : key ∈ b.scheduler.running) (k : Value) :
    Scene.Beside ⟨b, ps, due⟩ ⟨b.request e k, ps, due'⟩ key := by
  obtain ⟨new, hh, hn⟩ := (b.note (.requested e k)).outside_enqueue e k key
  have hr' : key ∈ (b.request e k).scheduler.running := by
    rw [show (b.request e k).scheduler.running = b.scheduler.running from Board.running_enqueue _ e k]
    exact hr
  refine ⟨⟨new ++ [.requested e k], hh.trans (List.append_cons ..), ?_⟩,
    Board.unmarked_enqueue hu fun _ => hr, hr', .same _⟩
  exact List.forall_mem_append.2 ⟨hn, List.forall_mem_singleton.2 ⟨id, rfl⟩⟩

/-- A pass of another key is over. -/
theorem finishPass (hk : k ≠ key) (hu : key ∉ b.scheduler.pending) (hr : key ∈ b.scheduler.running)
    (r : Option (List Value)) : Scene.Beside ⟨b, ⟨k, r⟩ :: ps, due⟩ ⟨b.finishPass e k, ps, due'⟩ key := by
  obtain ⟨new, hh, hn⟩ := b.outside_finishPass e k key
  have hr' : key ∈ (b.finishPass e k).scheduler.running := by
    rw [Board.running_finishPass]
    exact mem_eraseKey.2 ⟨hr, fun h => hk h.symm⟩
  refine ⟨⟨new ++ [.passEnded e k none], hh.trans (List.append_cons ..), ?_⟩,
    Board.unmarked_finishPass hu hk, hr', .ends _ _ hk⟩
  exact List.forall_mem_append.2 ⟨hn, List.forall_mem_singleton.2 ⟨hk, rfl⟩⟩

end Scene.Beside

/-- What a move can do to a key that is running and unmarked, unless the key is notified directly: nothing,
or it goes on with the innermost pass, which is of the key. -/
theorem Step.running_cases (h : Step e s t) (quiet : ¬ s.board.scheduler.Loud)
    (once : t.board.setUps = s.board.setUps) (begun : s.Begun)
    (unforced : .notified e key ∉ since s.board.history t.board.history)
    (hu : key ∉ s.board.scheduler.pending) (hr : key ∈ s.board.scheduler.running) :
    s.Beside t key ∨
    (∃ f rest ps, s.passes = ⟨key, some (f :: rest)⟩ :: ps ∧
      t = ⟨s.board.note (.watcherCalled e key f), ⟨key, some rest⟩ :: ps, none⟩) ∨
    (∃ ps, s.passes = ⟨key, some []⟩ :: ps ∧ t = ⟨s.board.finishPass e key, ps, none⟩) ∨
    ∃ rest f ps, s.passes = ⟨key, some rest⟩ :: ps ∧ f.isError = false ∧
      t = ⟨s.board.leavePass e key (some f), ps, none⟩ := by
  have nothing : ∀ ev ∈ ([] : List Event), ev.Outside key := List.forall_mem_nil _
  have only : ∀ {ev : Event}, ev.Outside key → ∀ x ∈ [ev], x.Outside key := List.forall_mem_singleton.2
  cases h with
  | close | loops | door | take | aside | drain | skip =>
    exact Or.inl ⟨⟨[], rfl, nothing⟩, hu, hr, .same _⟩
  | addWatcher b ps k f => exact Or.inl ⟨⟨[.watched e k f], rfl, only ⟨id, rfl⟩⟩, hu, hr, .same _⟩
  | create b ps s' q => exact absurd once (Nat.succ_ne_self _)
  | removeWatcher b ps k f =>
    refine Or.inl ⟨⟨[], rfl, nothing⟩, ?_, ?_, .same _⟩
    · rwa [Board.reschedule, Scheduler.pending_removeWatcher]
    · rwa [Board.reschedule, Scheduler.running_removeWatcher]
  | drop b ps k =>
    have hu' : key ∉ eraseKey k b.scheduler.pending := fun h => hu (mem_eraseKey.1 h).1
    exact Or.inl ⟨⟨[.dropped e k], rfl, only ⟨id, rfl⟩⟩, hu', hr, .same _⟩
  | request b ps k => exact Or.inl (.request hu hr k)
  | post b ps f => exact Or.inl ⟨b.outside_posting e f key, hu, hr, .same _⟩
  | pop b ps f posted hq => exact Or.inl ⟨⟨[.began e f], rfl, only ⟨id, rfl⟩⟩, hu, hr, .same _⟩
  | flush b ps k due hp =>
    have hk : k ≠ key := fun h => hu (h ▸ hp)
    have hu' : key ∉ eraseKey k b.scheduler.pending := fun h => hu (mem_eraseKey.1 h).1
    exact Or.inl (.beginPass (b := b.unmark k) [] hk rfl nothing hu' hr)
  | notify b ps k =>
    have hk : k ≠ key := by
      rintro rfl
      have later := Board.suffix_beginPass (b.note (.notified e k)) e k ps
      rw [since_trans (List.suffix_cons _ _) later, List.mem_append, not_or] at unforced
      exact unforced.2 (mem_since (List.suffix_refl _))
    exact Or.inl (.beginPass (b := b.note (.notified e k)) [.notified e k] hk rfl (only ⟨id, rfl⟩)
      hu hr)
  | trace b ps k due h => exact absurd h quiet
  | traceNotified b ps k h => exact absurd h quiet
  | traced b ps k => exact absurd rfl (begun _ List.mem_cons_self)
  | traceFailed b ps k => exact absurd rfl (begun _ List.mem_cons_self)
  | call b ps k f rest =>
    by_cases hk : k = key
    · subst hk
      exact Or.inr (Or.inl ⟨f, rest, ps, rfl, rfl⟩)
    · exact Or.inl ⟨⟨[.watcherCalled e k f], rfl, only ⟨id, if_neg hk⟩⟩, hu, hr, .goesOn _ _ _ hk hk⟩
  | finish b ps k =>
    by_cases hk : k = key
    · subst hk
      exact Or.inr (Or.inr (Or.inl ⟨ps, rfl, rfl⟩))
    · exact Or.inl (.finishPass hk hu hr _)
  | breakOff b ps k rest f hf =>
    by_cases hk : k = key
    · subst hk
      exact Or.inr (Or.inr (Or.inr ⟨rest, f, ps, rfl, hf, rfl⟩))
    · have hr' : key ∈ eraseKey k b.scheduler.running := mem_eraseKey.2 ⟨hr, fun h => hk h.symm⟩
      exact Or.inl ⟨⟨[.passEnded e k (some f)], rfl, only ⟨hk, rfl⟩⟩, hu, hr', .ends _ _ hk⟩

namespace Scene

/-- A pass that has begun from its pending mark is in progress. -/
theorem underway_openPass (b : Board) (e : Nat) (key : Value) (fs : List Value) (ps : List OpenPass) :
    ((b.unmark key).openPass e key fs ps).Underway e key fs b.history := by
  refine ⟨[], [], fs, ps, rfl, List.forall_mem_nil _, rfl, rfl, List.not_mem_nil, ?_, ?_⟩
  · exact fun h => (mem_eraseKey.1 h).2 rfl
  · exact mem_insertKey.2 (Or.inl rfl)

/-- One that begins is in progress unless there are no watchers to call. -/
theorem underway_beginPass (b : Board) (e : Nat) (key : Value) (ps : List OpenPass) :
    Completed e key (b.scheduler.watchersOf key) b.history
        ((b.unmark key).beginPass e key ps).board.history ∨
      ((b.unmark key).beginPass e key ps).Underway e key (b.scheduler.watchersOf key) b.history := by
  have hw : (b.unmark key).scheduler.watchersOf key = b.scheduler.watchersOf key := rfl
  unfold Board.beginPass
  rw [hw]
  rcases b.scheduler.watchersOf key with _ | ⟨f, fs⟩
  · exact Or.inl ⟨[], [], rfl, List.forall_mem_nil _, rfl⟩
  · exact Or.inr (underway_openPass b e key (f :: fs) ps)

/-- A pass in progress is on the stack. -/
theorem Underway.mem_passes (hs : s.Underway e key fs before) : key ∈ s.passes.map OpenPass.key := by
  obtain ⟨during, above, rest, below, _, _, _, hp, _⟩ := hs
  rw [hp, List.map_append, List.map_cons]
  exact List.mem_append_right _ List.mem_cons_self

end Scene

/-- A pass in progress stays so with every move, unless it ends. -/
theorem Step.underway (h : Step e s t) (quiet : ¬ s.board.scheduler.Loud)
    (once : t.board.setUps = s.board.setUps) (begun : s.Begun)
    (unforced : .notified e key ∉ since s.board.history t.board.history)
    (hs : s.Underway e key fs before) :
    t.Underway e key fs before ∨ Completed e key fs before t.board.history ∨
      CutShort e key fs before t.board.history := by
  obtain ⟨during, above, rest, below, hh, hin, hcalls, hp, ha, hu, hr⟩ := hs
  -- the innermost pass of the key is this one
  have innermost : ∀ {r ps}, s.passes = ⟨key, r⟩ :: ps → r = some rest ∧ above = [] := by
    intro r ps hp'
    rw [hp] at hp'
    cases above with
    | nil =>
      cases hp'
      exact ⟨rfl, rfl⟩
    | cons q above =>
      cases hp'
      exact absurd List.mem_cons_self ha
  rcases h.running_cases quiet once begun unforced hu hr with
    hb | ⟨f, more, ps, hp', rfl⟩ | ⟨ps, hp', rfl⟩ | ⟨more, f, ps, hp', hf, rfl⟩
  · obtain ⟨new, hh', hn⟩ := hb.told
    obtain ⟨above', hp', ha'⟩ := hb.stack.place hp rfl ha
    refine Or.inl ⟨new ++ during, above', rest, below, ?_, fun ev hev => ?_, ?_, hp', ha', hb.unmarked,
      hb.running⟩
    · rw [hh', hh, List.append_assoc]
    · exact (List.mem_append.1 hev).elim (fun h => (hn ev h).1) (hin ev)
    · have hnone : new.filterMap (Event.call? key) = [] :=
        List.filterMap_eq_nil_iff.2 fun ev hev => (hn ev hev).2
      rw [List.filterMap_append, hnone]
      exact hcalls
  · obtain ⟨hrest, rfl⟩ := innermost hp'
    cases hrest
    refine Or.inl ⟨.watcherCalled e key f :: during, [], more, ps, ?_, ?_, ?_, rfl, List.not_mem_nil,
      hu, hr⟩
    · exact congrArg (Event.watcherCalled e key f :: ·) hh
    · exact List.forall_mem_cons.2 ⟨id, hin⟩
    · simpa [Event.call?] using hcalls
  · obtain ⟨hrest, rfl⟩ := innermost hp'
    cases hrest
    obtain ⟨new, hh', hn⟩ := s.board.outside_finishPass e key key
    refine Or.inr (Or.inl ⟨new, during, ?_, hin, ?_⟩)
    · exact hh'.trans (congrArg (fun h => new ++ Event.passEnded e key none :: h) hh)
    · rw [List.append_nil] at hcalls
      rw [← hcalls, List.reverse_reverse]
  · refine Or.inr (Or.inr ⟨[], during, f, ?_, hin, hf⟩)
    exact congrArg (Event.passEnded e key (some f) :: ·) hh

/-- A pass in progress is still so later on, or has come to its end. -/
theorem Steps.underway (h : Steps e s t) (quiet : ¬ s.board.scheduler.Loud)
    (once : t.board.setUps = s.board.setUps) (begun : s.Begun)
    (unforced : .notified e key ∉ since s.board.history t.board.history)
    (hs : s.Underway e key fs before) :
    t.Underway e key fs before ∨ Completed e key fs before t.board.history ∨
      CutShort e key fs before t.board.history := by
  refine h.onward (P := fun u => u.Underway e key fs before ∨ Completed e key fs before u.board.history ∨
      CutShort e key fs before u.board.history) quiet once begun (List.forall_mem_ne.2 unforced) (Or.inl hs)
    fun u v m hu => ?_
  rcases hu with hu | hc | hc
  · exact m.move.underway m.quiet m.once m.begun (List.forall_mem_ne.1 m.told) hu
  · exact Or.inr (Or.inl (hc.mono m.later))
  · exact Or.inr (Or.inr (hc.mono m.later))

/-- A pass that is told of after another one began is that one, or was told of before. -/
theorem Board.began_beginPass (hb : .passBegan e key fs :: before <:+ (b.beginPass e k ps).board.history) :
    .passBegan e key fs :: before <:+ b.history ∨
      k = key ∧ b.history = before ∧ b.scheduler.watchersOf key = fs := by
  unfold beginPass at hb
  rcases hw : b.scheduler.watchersOf k with _ | ⟨g, gs⟩ <;> rw [hw] at hb
  · rcases List.suffix_cons_iff.1 hb with he | hb
    · cases he
    · rcases List.suffix_cons_iff.1 hb with he | hb
      · cases he
        exact Or.inr ⟨rfl, rfl, hw⟩
      · exact Or.inl hb
  · rcases List.suffix_cons_iff.1 hb with he | hb
    · cases he
      exact Or.inr ⟨rfl, rfl, hw⟩
    · exact Or.inl hb

/-- While a key is running, what happens outside its passes says nothing about them. -/
theorem Steps.beside (h : Steps e s t) (quiet : ¬ s.board.scheduler.Loud)
    (once : t.board.setUps = s.board.setUps) (begun : s.Begun)
    (unforced : .notified e key ∉ since s.board.history t.board.history)
    (hu : key ∉ s.board.scheduler.pending) (hr : key ∈ s.board.scheduler.running)
    (hp : key ∉ s.passes.map OpenPass.key) :
    (∀ ev ∈ since s.board.history t.board.history, ev.Outside key) ∧
      key ∉ t.board.scheduler.pending ∧ key ∈ t.board.scheduler.running := by
  have hP : (∀ ev ∈ since s.board.history t.board.history, ev.Outside key) ∧
      key ∉ t.board.scheduler.pending ∧ key ∈ t.board.scheduler.running ∧ key ∉ t.passes.map OpenPass.key := by
    refine h.onward (P := fun u => (∀ ev ∈ since s.board.history u.board.history, ev.Outside key) ∧
        key ∉ u.board.scheduler.pending ∧ key ∈ u.board.scheduler.running ∧ key ∉ u.passes.map OpenPass.key)
      quiet once begun (List.forall_mem_ne.2 unforced) ⟨?_, hu, hr, hp⟩ fun u v m hu => ?_
    · rw [since_self]
      exact List.forall_mem_nil _
    obtain ⟨hout, hu, hr, hp⟩ := hu
    have absent : ∀ {r ps}, u.passes ≠ ⟨key, r⟩ :: ps := by
      intro r ps hp'
      rw [hp'] at hp
      exact hp List.mem_cons_self
    rcases m.move.running_cases m.quiet m.once m.begun (List.forall_mem_ne.1 m.told) hu hr with
      hb | ⟨_, _, _, hp', _⟩ | ⟨_, hp', _⟩ | ⟨_, _, _, hp', _⟩
    · obtain ⟨new, hh, hn⟩ := hb.told
      refine ⟨?_, hb.unmarked, hb.running, hb.stack.absent hp⟩
      rw [since_trans m.older m.later, hh, since_append]
      exact List.forall_mem_append.2 ⟨hn, hout⟩
    · exact absurd hp' absent
    · exact absurd hp' absent
    · exact absurd hp' absent
  obtain ⟨hout, hu, hr, _⟩ := hP
  exact ⟨hout, hu, hr⟩

/-- A pass of a key that is not notified directly begins from its pending mark, for the watchers registered
then. -/
theorem Step.began (h : Step e s t) (quiet : ¬ s.board.scheduler.Loud)
    (once : t.board.setUps = s.board.setUps) (begun : s.Begun)
    (unforced : .notified e key ∉ since s.board.history t.board.history)
    (hb : .passBegan e key fs :: before <:+ t.board.history) :
    .passBegan e key fs :: before <:+ s.board.history ∨
      t = (s.board.unmark key).beginPass e key s.passes ∧ s.board.history = before ∧
        s.board.scheduler.watchersOf key = fs := by
  -- a move that tells of no pass of the key
  have older : ∀ {new}, t.board.history = new ++ s.board.history → (∀ ev ∈ new, ev.Outside key) →
      .passBegan e key fs :: before <:+ s.board.history := by
    intro new hh hn
    rw [hh] at hb
    exact suffix_of_append hb fun hm => (hn _ hm).1 rfl
  cases h with
  | close | loops | door | take | aside | removeWatcher | drain | skip => exact Or.inl hb
  | create b ps s' q => exact absurd once (Nat.succ_ne_self _)
  | addWatcher | drop | pop | call => exact Or.inl ((List.suffix_cons_iff.1 hb).resolve_left nofun)
  | request b ps k =>
    obtain ⟨new, hh, hn⟩ := (b.note (.requested e k)).outside_enqueue e k key
    have hn' : ∀ ev ∈ new ++ [Event.requested e k], ev.Outside key :=
      List.forall_mem_append.2 ⟨hn, List.forall_mem_singleton.2 ⟨id, rfl⟩⟩
    exact Or.inl (older (hh.trans (List.append_cons ..)) hn')
  | post b ps f =>
    obtain ⟨new, hh, hn⟩ := b.outside_posting e f key
    exact Or.inl (older hh hn)
  | flush b ps k due hp =>
    rcases Board.began_beginPass (b := b.unmark k) hb with hb | ⟨rfl, hh, hw⟩
    · exact Or.inl hb
    · exact Or.inr ⟨rfl, hh, hw⟩
  | notify b ps k =>
    rcases Board.began_beginPass (b := b.note (.notified e k)) hb with hb | ⟨rfl, hh, hw⟩
    · exact Or.inl ((List.suffix_cons_iff.1 hb).resolve_left nofun)
    · have later := Board.suffix_beginPass (b.note (.notified e k)) e k ps
      rw [since_trans (List.suffix_cons _ _) later, List.mem_append, not_or] at unforced
      exact absurd (mem_since (List.suffix_refl _)) unforced.2
  | trace b ps k due h => exact absurd h quiet
  | traceNotified b ps k h => exact absurd h quiet
  | traced b ps k => exact absurd rfl (begun _ List.mem_cons_self)
  | traceFailed b ps k => exact absurd rfl (begun _ List.mem_cons_self)
  | finish b ps k =>
    obtain ⟨new, hh, hn⟩ := b.outside_finishPass e k key
    refine Or.inl ?_
    rw [show (b.finishPass e k).history = _ from hh] at hb
    have hb' := suffix_of_append hb fun hm => (hn _ hm).1 rfl
    exact (List.suffix_cons_iff.1 hb').resolve_left nofun
  | breakOff => exact Or.inl ((List.suffix_cons_iff.1 hb).resolve_left nofun)

/-- A pass of `key` begins from its mark in the scene `s`. -/
def Scene.Begins (s : Scene) (e : Nat) (key : Value) : Prop :=
  Step e s ((s.board.unmark key).beginPass e key s.passes)

/-- A pass that is told of began in a scene on the way, for the watchers registered there. -/
theorem Steps.began (h : Steps e s t) (quiet : ¬ s.board.scheduler.Loud)
    (once : t.board.setUps = s.board.setUps) (begun : s.Begun)
    (unforced : .notified e key ∉ since s.board.history t.board.history)
    (hb : .passBegan e key fs :: before <:+ t.board.history) (hs : s.board.history <:+ before) :
    ∃ u, Steps e s u ∧ u.Begins e key ∧ Steps e ((u.board.unmark key).beginPass e key u.passes) t ∧
      u.board.history = before ∧ u.board.scheduler.watchersOf key = fs := by
  have hp : .passBegan e key fs :: before <:+ t.board.history →
      ∃ x, Steps e s x ∧ x.Begins e key ∧ Steps e ((x.board.unmark key).beginPass e key x.passes) t ∧
        x.board.history = before ∧ x.board.scheduler.watchersOf key = fs := by
    refine h.onward (P := fun u => .passBegan e key fs :: before <:+ u.board.history →
        ∃ x, Steps e s x ∧ x.Begins e key ∧ Steps e ((x.board.unmark key).beginPass e key x.passes) u ∧
          x.board.history = before ∧ x.board.scheduler.watchersOf key = fs)
      quiet once begun (List.forall_mem_ne.2 unforced) (fun hb => ?_) fun u v m hu hb => ?_
    · exact absurd (hb.trans hs).length_le (Nat.not_succ_le_self _)
    rcases m.move.began m.quiet m.once m.begun (List.forall_mem_ne.1 m.told) hb with hb | ⟨rfl, hh, hw⟩
    · obtain ⟨x, hto, hbegin, hfrom, hh, hw⟩ := hu hb
      exact ⟨x, hto, hbegin, hfrom.tail m.move, hh, hw⟩
    · exact ⟨u, m.reached, m.move, .refl, hh, hw⟩
  exact hp hb

/-- A pass that is told of at a scene in which none of the key is in progress began on the way, for the
watchers registered where it did, and has called all of them or was broken off. -/
theorem Steps.ended (h : Steps e s t) (quiet : ¬ s.board.scheduler.Loud)
    (once : t.board.setUps = s.board.setUps) (sound : s.Sound)
    (unforced : .notified e key ∉ since s.board.history t.board.history)
    (hb : .passBegan e key fs :: before <:+ t.board.history) (hs : s.board.history <:+ before)
    (closed : key ∉ t.passes.map OpenPass.key) :
    ∃ u, Steps e s u ∧ u.Begins e key ∧ Steps e ((u.board.unmark key).beginPass e key u.passes) t ∧
      u.board.history = before ∧ u.board.scheduler.watchersOf key = fs ∧
      (Completed e key fs before t.board.history ∨ CutShort e key fs before t.board.history) := by
  obtain ⟨u, hto, hbegin, hfrom, hh, hw⟩ := h.began quiet once sound.begun unforced hb hs
  refine ⟨u, hto, hbegin, hfrom, hh, hw, ?_⟩
  subst hh hw
  have hbegun : Steps e s ((u.board.unmark key).beginPass e key u.passes) := hto.tail hbegin
  have lower := hbegun.setUps_le
  have upper := hfrom.setUps_le
  have once₁ : ((u.board.unmark key).beginPass e key u.passes).board.setUps = s.board.setUps := by omega
  have once₂ : t.board.setUps = ((u.board.unmark key).beginPass e key u.passes).board.setUps := by omega
  have older := hbegun.suffix once₁
  have later := hfrom.suffix once₂
  have quiet₁ : ¬ ((u.board.unmark key).beginPass e key u.passes).board.scheduler.Loud :=
    hbegun.quiet once₁ quiet
  rw [since_trans older later, List.mem_append, not_or] at unforced
  rcases Scene.underway_beginPass u.board e key u.passes with hc | hu
  · exact Or.inl (hc.mono later)
  · have sound₁ := (hbegun.turns quiet once₁ sound).2
    rcases hfrom.underway quiet₁ once₂ sound₁.begun unforced.1 hu with hu | hc
    · exact absurd hu.mem_passes closed
    · exact hc

end ReactiveScopes
