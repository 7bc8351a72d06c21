import ReactiveScopes.Proofs.PassStack

/-!
# Scopes that begin anew

A scope that is destroyed and set up again goes by the same key, while callbacks that were posted before, a
pass in progress and functions that remove watchers live on. Nothing of that reaches the new scope: its
watchers were registered and its writes reported since the key was dropped.
-/
namespace ReactiveScopes

open Eff History

variable {κ : Type} {e : Nat} {key k f : Value} {fs : List Value} {h : List Event} {ev x : Event}

/-- A pass that has begun: its key, the watchers that it is for, and what had happened before. -/
structure Pass where
  key : Value
  watchers : List Value
  before : List Event

namespace History

/-- The passes in progress as they began, innermost first. -/
def inProgress : List Event → List Pass
  | [] => []
  | .passBegan _ key fs :: h => ⟨key, fs, h⟩ :: inProgress h
  | .passEnded _ key _ :: h => (inProgress h).eraseP (·.key == key)
  | _ :: h => inProgress h

/-- The event has happened since the key was last dropped, if it ever was. -/
def Renewed (e : Nat) (key : Value) (ev : Event) (h : List Event) : Prop :=
  ∀ later earlier, h = later ++ .dropped e key :: earlier → ev ∈ later

/-- What may happen only for the sake of something that is not done away with. A pass begins for watchers that
were registered since the key was last dropped, because of a write that was reported since then; or the key
was notified directly. A watcher is called by the innermost pass, and is one of those that this pass began
with. -/
def Entitled (e : Nat) : Event → List Event → Prop
  | .passBegan _ key fs, h => (∀ f ∈ fs, Renewed e key (.watched e key f) h) ∧
      (Renewed e key (.requested e key) h ∨ Renewed e key (.notified e key) h)
  | .watcherCalled _ key f, h => ∃ p ps, inProgress h = p :: ps ∧ p.key = key ∧ f ∈ p.watchers
  | _, _ => True

/-- The same of everything that has happened. -/
def AllEntitled (e : Nat) (h : List Event) : Prop :=
  ∀ later ev earlier, h = later ++ ev :: earlier → Entitled e ev earlier

theorem renewed_cons (hx : x ≠ .dropped e key) :
    Renewed e key ev (x :: h) ↔ ev = x ∨ Renewed e key ev h := by
  constructor
  · intro hr
    refine or_iff_not_imp_left.2 fun hne later earlier hh => ?_
    exact (List.mem_cons.1 (hr (x :: later) earlier (congrArg _ hh))).resolve_left hne
  · rintro hr (_ | ⟨y, later⟩) earlier hh
    · cases hh
      exact absurd rfl hx
    · cases hh
      exact List.mem_cons.2 (hr.imp_right fun hr => hr later earlier rfl)

theorem Renewed.cons (hr : Renewed e key ev h) (hx : x ≠ .dropped e key) : Renewed e key ev (x :: h) :=
  (renewed_cons hx).2 (Or.inr hr)

theorem allEntitled_cons : AllEntitled e (ev :: h) ↔ Entitled e ev h ∧ AllEntitled e h := by
  constructor
  · exact fun ha => ⟨ha [] ev h rfl, fun later x earlier hh => ha (ev :: later) x earlier (congrArg _ hh)⟩
  · rintro ⟨hev, ha⟩ (_ | ⟨y, later⟩) x earlier hh
    · cases hh
      exact hev
    · cases hh
      exact ha later x earlier rfl

/-- A pass in progress is told of. -/
theorem began_of_inProgress {p : Pass} (hp : p ∈ inProgress h) :
    ∃ later y, h = later ++ .passBegan y p.key p.watchers :: p.before := by
  induction h with
  | nil => cases hp
  | cons x h ih =>
    have older (hp : p ∈ inProgress h) : ∃ later y, x :: h = later ++ .passBegan y p.key p.watchers :: p.before := by
      obtain ⟨later, y, hh⟩ := ih hp
      exact ⟨x :: later, y, congrArg _ hh⟩
    cases x with
    | passBegan y key fs =>
      rcases List.mem_cons.1 hp with rfl | hp
      · exact ⟨[], y, rfl⟩
      · exact older hp
    | passEnded y key fault => exact older (List.mem_of_mem_eraseP hp)
    | _ => exact older hp

/-- A pass in progress is for watchers that were registered since the key was last dropped before it. -/
theorem AllEntitled.renewed (ha : AllEntitled e h) {p : Pass} (hp : p ∈ inProgress h) (hf : f ∈ p.watchers) :
    Renewed e p.key (.watched e p.key f) p.before := by
  obtain ⟨later, y, hh⟩ := began_of_inProgress hp
  exact (ha later _ p.before hh).1 f hf

end History

namespace Board

/-- Nothing that is registered or marked outlives a drop of its key, and nothing has happened for the sake of
something that did not. -/
structure Anew (b : Board) (e : Nat) : Prop where
  watchers : ∀ {k f}, f ∈ b.scheduler.watchersOf k → Renewed e k (.watched e k f) b.history
  marks : ∀ {k}, k ∈ b.scheduler.pending ∨ k ∈ b.scheduler.deferred →
    Renewed e k (.requested e k) b.history
  told : AllEntitled e b.history

variable {b b' : Board}

/-- Watchers and marks that go, or stay. -/
theorem Anew.fewer (hb : b.Anew e) (hh : b'.history = b.history)
    (hw : ∀ k, b'.scheduler.watchersOf k ⊆ b.scheduler.watchersOf k)
    (hp : b'.scheduler.pending ⊆ b.scheduler.pending) (hd : b'.scheduler.deferred ⊆ b.scheduler.deferred) :
    b'.Anew e := by
  refine ⟨fun hf => ?_, fun hk => ?_, ?_⟩ <;> rw [hh]
  · exact hb.watchers (hw _ hf)
  · exact hb.marks (hk.imp (hp ·) (hd ·))
  · exact hb.told

/-- An event that is allowed to happen, and is no drop. -/
theorem Anew.note (hb : b.Anew e) (hx : ∀ k, ev ≠ .dropped e k) (he : Entitled e ev b.history) :
    (b.note ev).Anew e where
  watchers hf := (hb.watchers hf).cons (hx _)
  marks hk := (hb.marks hk).cons (hx _)
  told := allEntitled_cons.2 ⟨he, hb.told⟩

theorem Anew.posting (hb : b.Anew e) (f : Value) : (b.posting e f).Anew e := by
  have hn : (b.note (.posted e f)).Anew e := hb.note (by simp) trivial
  rcases b.handing_cases e f with h | ⟨n, h⟩
  · refine hn.fewer ?_ (fun _ => List.Subset.refl _) (List.Subset.refl _) (List.Subset.refl _)
    simp [h]
  · have hm : ((b.note (.posted e f)).note (.handed e f n)).Anew e := hn.note (by simp) trivial
    refine hm.fewer ?_ (fun _ => List.Subset.refl _) (List.Subset.refl _) (List.Subset.refl _)
    simp [h]

/-- A key is marked for the sake of a write that was reported. -/
theorem Anew.enqueue (hb : b.Anew e) (hr : Renewed e key (.requested e key) b.history) :
    (b.enqueue e key).Anew e := by
  rcases b.enqueue_cases e key with ⟨_, _, h⟩ | ⟨_, _, h⟩ | ⟨_, _, h⟩ | ⟨_, _, h⟩ <;> rw [h]
  · refine ⟨hb.watchers, fun hk => ?_, hb.told⟩
    simp only [Board.reschedule, mem_insertKey] at hk
    rcases hk with hp | rfl | hd
    · exact hb.marks (Or.inl hp)
    · exact hr
    · exact hb.marks (Or.inr hd)
  · exact hb
  · exact hb
  · have hm : ((b.reschedule fun s => { s with pending := insertKey key s.pending }).close
        (.pass e key)).Anew e := by
      refine ⟨hb.watchers, fun hk => ?_, hb.told⟩
      simp only [Board.close, Board.reschedule, mem_insertKey] at hk
      rcases hk with (rfl | hp) | hd
      · exact hr
      · exact hb.marks (Or.inl hp)
      · exact hb.marks (Or.inr hd)
    exact hm.posting _

end Board

/-- The passes in progress are those told of, and have still to call only watchers that they began with. -/
def OpenPass.Continues (p : Pass) (o : OpenPass) : Prop :=
  o.key = p.key ∧ ∃ rest, o.rest = some rest ∧ rest ⊆ p.watchers

structure Scene.Anew (s : Scene) (e : Nat) : Prop where
  board : s.board.Anew e
  stack : List.Forall₂ OpenPass.Continues (inProgress s.board.history) s.passes

variable {s t : Scene} {b b' : Board} {ps : List OpenPass} {due due' : Option Value}

namespace Scene.Anew

/-- A move that begins and ends no pass. -/
theorem same (hs : Scene.Anew ⟨b, ps, due⟩ e) (hb : b'.Anew e) (hp : inProgress b'.history = inProgress b.history) :
    Scene.Anew ⟨b', ps, due'⟩ e :=
  ⟨hb, by rw [show (Scene.mk b' ps due').board.history = b'.history from rfl, hp]; exact hs.stack⟩

/-- A pass that begins for those who watch now. -/
theorem beginPass (hs : Scene.Anew ⟨b, ps, due⟩ e)
    (hr : Renewed e key (.requested e key) b.history ∨ Renewed e key (.notified e key) b.history) :
    (b.beginPass e key ps).Anew e := by
  have hn (gs : List Value) (hg : gs ⊆ b.scheduler.watchersOf key) :
      (b.note (.passBegan e key gs)).Anew e :=
    hs.board.note (by simp) ⟨fun g hm => hs.board.watchers (hg hm), hr⟩
  rcases hw : b.scheduler.watchersOf key with _ | ⟨g, gs⟩ <;> simp only [Board.beginPass, hw]
  · refine hs.same ((hn [] (List.nil_subset _)).note (by simp) trivial) ?_
    simp [inProgress]
  · refine ⟨(hn _ (hw ▸ List.Subset.refl _)).fewer rfl (fun _ => List.Subset.refl _) (List.Subset.refl _)
      (List.Subset.refl _), .cons ⟨rfl, _, rfl, List.Subset.refl _⟩ hs.stack⟩

/-- The innermost pass is over. -/
theorem leavePass {r : Option (List Value)} (hs : Scene.Anew ⟨b, ⟨key, r⟩ :: ps, due⟩ e)
    (fault : Option Fault) : Scene.Anew ⟨b.leavePass e key fault, ps, due'⟩ e := by
  obtain ⟨board, stack⟩ := hs
  obtain ⟨p, rest, ⟨hk, _⟩, below, hp⟩ := List.forall₂_cons_right_iff.1 stack
  have hb : (b.note (.passEnded e key fault)).Anew e := board.note (by simp) trivial
  refine ⟨hb.fewer rfl (fun _ => List.Subset.refl _) (List.Subset.refl _) (List.Subset.refl _), ?_⟩
  have hl : inProgress (b.leavePass e key fault).history = rest := by
    change (inProgress b.history).eraseP (·.key == key) = rest
    rw [show inProgress b.history = p :: rest from hp]
    exact List.eraseP_cons_of_pos (by simpa using hk.symm)
  exact hl ▸ below

/-- A move that is not told of, and after which there are no more watchers and no more marks. -/
theorem silent (hs : Scene.Anew ⟨b, ps, due⟩ e) (told : b'.history = b.history)
    (watchers : ∀ k, b'.scheduler.watchersOf k ⊆ b.scheduler.watchersOf k)
    (pending : b'.scheduler.pending ⊆ b.scheduler.pending)
    (deferred : b'.scheduler.deferred ⊆ b.scheduler.deferred) : Scene.Anew ⟨b', ps, due'⟩ e :=
  hs.same (hs.board.fewer told watchers pending deferred) (congrArg inProgress told)

/-- No pass in progress is a trace. -/
theorem untraced : ¬ Scene.Anew ⟨b, ⟨key, none⟩ :: ps, due⟩ e := by
  intro hs
  obtain ⟨_, _, ⟨_, _, hr, _⟩, _⟩ := List.forall₂_cons_right_iff.1 hs.stack
  cases hr

/-- Who is registered is told of just before. -/
theorem addWatcher (hs : Scene.Anew ⟨b, ps, due⟩ e) (key f : Value) :
    Scene.Anew ⟨(b.note (.watched e key f)).reschedule fun r => r.addWatcher key f, ps, due'⟩ e := by
  have hn : (b.note (.watched e key f)).Anew e := hs.board.note (by simp) trivial
  refine hs.same ⟨fun {k g} hg => ?_, hn.marks, hn.told⟩ rfl
  rcases Scheduler.mem_watchersOf_addWatcher.1 hg with ⟨rfl, rfl⟩ | hg
  · exact (renewed_cons (by simp)).2 (Or.inl rfl)
  · exact hn.watchers hg

/-- A key that is dropped has neither watchers nor marks. -/
theorem drop (hs : Scene.Anew ⟨b, ps, due⟩ e) (key : Value) :
    Scene.Anew ⟨(b.note (.dropped e key)).reschedule fun r => r.drop key, ps, due'⟩ e := by
  have board := hs.board
  refine hs.same ⟨fun {k g} hg => ?_, fun {k} hk => ?_, allEntitled_cons.2 ⟨trivial, board.told⟩⟩ rfl
  · rw [Board.reschedule, Scheduler.watchersOf_drop] at hg
    split at hg
    · cases hg
    · next hk => exact (board.watchers hg).cons (by simpa using hk)
  · simp only [Board.reschedule, Board.note, Scheduler.drop, mem_eraseKey, ← or_and_right] at hk
    exact (board.marks hk.1).cons (by simpa using Ne.symm hk.2)

/-- The innermost pass calls the next of the watchers that it began with. -/
theorem call {f : Value} {rest : List Value} (hs : Scene.Anew ⟨b, ⟨key, some (f :: rest)⟩ :: ps, due⟩ e) :
    Scene.Anew ⟨b.note (.watcherCalled e key f), ⟨key, some rest⟩ :: ps, due'⟩ e := by
  obtain ⟨board, stack⟩ := hs
  obtain ⟨p, ps', ⟨hk, _, hr, hsub⟩, below, hp⟩ := List.forall₂_cons_right_iff.1 stack
  cases hr
  obtain ⟨hf, hrest⟩ := List.cons_subset.1 hsub
  refine ⟨board.note (by simp) ⟨p, ps', hp, hk.symm, hf⟩, ?_⟩
  change List.Forall₂ _ (inProgress b.history) _
  rw [show inProgress b.history = p :: ps' from hp]
  exact .cons ⟨hk, _, rfl, hrest⟩ below

end Scene.Anew

theorem Board.inProgress_posting (b : Board) (e : Nat) (f : Value) :
    inProgress (b.posting e f).history = inProgress b.history := by
  unfold posting
  rcases b.handing_cases e f with h | ⟨n, h⟩ <;> rw [h] <;> rfl

theorem Board.inProgress_enqueue (b : Board) (e : Nat) (key : Value) :
    inProgress (b.enqueue e key).history = inProgress b.history := by
  rcases b.enqueue_cases e key with ⟨_, _, h⟩ | ⟨_, _, h⟩ | ⟨_, _, h⟩ | ⟨_, _, h⟩ <;> rw [h]
  · rfl
  · exact inProgress_posting _ e _

/-- A pass that is over may leave its key pending again. -/
theorem Scene.Anew.finish {r : Option (List Value)} (hs : Scene.Anew ⟨b, ⟨key, r⟩ :: ps, due⟩ e) :
    Scene.Anew ⟨b.finishPass e key, ps, due'⟩ e := by
  have left : Scene.Anew ⟨b.leavePass e key none, ps, due'⟩ e := hs.leavePass none
  rcases b.finishPass_cases e key with ⟨hd, h⟩ | ⟨_, h⟩ <;> rw [h]
  · have taken : Scene.Anew ⟨b.giveWay e key, ps, due'⟩ e :=
      left.silent rfl (fun _ => List.Subset.refl _) (List.Subset.refl _) fun k hk => (mem_eraseKey.1 hk).1
    exact taken.same (taken.board.enqueue (left.board.marks (Or.inr hd))) (Board.inProgress_enqueue _ e key)
  · exact left

theorem Step.anew (h : Step e s t) (quiet : ¬ s.board.scheduler.Loud)
    (once : t.board.setUps = s.board.setUps) (hs : s.Anew e) : t.Anew e := by
  have board := hs.board
  cases h with
  | close | loops | door | take | aside | drain | skip =>
    exact hs.silent rfl (fun _ => List.Subset.refl _) (List.Subset.refl _) (List.Subset.refl _)
  | create b ps s' q => exact absurd once (Nat.succ_ne_self _)
  | addWatcher b ps key f => exact hs.addWatcher key f
  | removeWatcher b ps key f =>
    refine hs.silent rfl (fun _ => Scheduler.watchersOf_removeWatcher_subset) ?_ ?_
    · exact b.scheduler.pending_removeWatcher key f ▸ List.Subset.refl _
    · exact b.scheduler.deferred_removeWatcher key f ▸ List.Subset.refl _
  | drop b ps key => exact hs.drop key
  | request b ps key =>
    have hn : (b.note (.requested e key)).Anew e := board.note (by simp) trivial
    refine hs.same (hn.enqueue ((renewed_cons (by simp)).2 (Or.inl rfl))) ?_
    exact Board.inProgress_enqueue (b.note _) e key
  | post b ps f => exact hs.same (board.posting f) (b.inProgress_posting e f)
  | pop b ps f rest =>
    have hn : (b.note (.began e f)).Anew e := board.note (by simp) trivial
    exact hs.same ⟨hn.watchers, hn.marks, hn.told⟩ rfl
  | flush b ps key due hp =>
    have hu : Scene.Anew ⟨b.unmark key, ps, none⟩ e :=
      hs.silent rfl (fun _ => List.Subset.refl _) (fun k hk => (mem_eraseKey.1 hk).1) (List.Subset.refl _)
    exact hu.beginPass (Or.inl (board.marks (Or.inl hp)))
  | notify b ps key =>
    have hn : Scene.Anew ⟨b.note (.notified e key), ps, none⟩ e :=
      hs.same (board.note (by simp) trivial) rfl
    exact hn.beginPass (Or.inr ((renewed_cons (by simp)).2 (Or.inl rfl)))
  | trace b ps key due h => exact absurd h quiet
  | traceNotified b ps key h => exact absurd h quiet
  | traced b ps key => exact absurd hs Scene.Anew.untraced
  | traceFailed b ps key => exact absurd hs Scene.Anew.untraced
  | call b ps key f rest => exact hs.call
  | finish b ps key => exact hs.finish
  | breakOff b ps key rest f => exact hs.leavePass (some f)

theorem Steps.anew (h : Steps e s t) (quiet : ¬ s.board.scheduler.Loud)
    (once : t.board.setUps = s.board.setUps) (hs : s.Anew e) : t.Anew e :=
  h.invariant once hs fun _ _ hset huv hup hu =>
    huv.anew (fun hl => quiet ((Board.loud_of_settings hset).1 hl)) hup hu

namespace Session

variable {w₀ w : Session κ}

theorem Fresh.anew (fresh : w₀.Fresh e) : (w₀.scene e []).Anew e := by
  have hh : (w₀.board e).history = [] := fresh.history
  refine ⟨⟨fun _ => ?_, fun hk => ?_, ?_⟩, ?_⟩
  · change Renewed e _ _ (w₀.board e).history
    rw [hh]
    exact fun later earlier h => absurd h.symm (by simp)
  · change _ ∈ (w₀.engine e).scheduler.pending ∨ _ ∈ (w₀.engine e).scheduler.deferred at hk
    rw [fresh.pending, fresh.deferred] at hk
    exact absurd hk (by simp)
  · change AllEntitled e (w₀.board e).history
    rw [hh]
    exact fun later ev earlier h => absurd h.symm (by simp)
  · change List.Forall₂ _ (inProgress (w₀.board e).history) []
    rw [hh]
    exact .nil

end Session

/-- Destroying a scope that has a record is told as a drop of its key. -/
theorem Scope.destroy_tells {w : Session κ} {a record : Value}
    (held : (w.engine e).records.get? a = some record) (env : Env κ) :
    ∃ w', destroy e a env w = (.value (), w') ∧ w'.history e = .dropped e a :: w.history e := by
  unfold destroy
  rw [bind_engine, if_pos (by simp [Table.contains, held])]
  refine ⟨_, rfl, ?_⟩
  have hb : (w.logged (.dropped e a)).board e = (w.board e).note (.dropped e a) := Session.board_logged w rfl rfl
  exact congrArg Board.history hb

/-- Destroying a scope cuts off what came before, whatever is still queued or in progress. A pass that begins
after the key was dropped is for watchers that were registered since, and comes of a write that was reported
since, unless the key was notified directly. So a watcher that is called later by a pass that began after the
drop has been registered again. -/
theorem destroy_cuts_off {w₀ w : Session κ} (fresh : w₀.Fresh e)
    (quiet : ¬ (w₀.engine e).scheduler.Loud) (moment : Session.Moment w₀ w)
    (once : w.setUps e = w₀.setUps e) :
    (∀ later mid earlier fs,
      w.history e = later ++ .passBegan e key fs :: (mid ++ .dropped e key :: earlier) →
      (∀ f ∈ fs, .watched e key f ∈ mid) ∧ (.notified e key ∉ mid → .requested e key ∈ mid)) ∧
    ∀ later earlier f, w.history e = later ++ .watcherCalled e key f :: earlier →
      ∃ p ps, inProgress earlier = p :: ps ∧ p.key = key ∧ f ∈ p.watchers ∧
        ∀ mid before, p.before = mid ++ .dropped e key :: before → .watched e key f ∈ mid := by
  obtain ⟨ps, steps⟩ := moment.steps e
  have told : AllEntitled e (w.history e) := (steps.anew quiet once fresh.anew).board.told
  refine ⟨fun later mid earlier fs hh => ?_, fun later earlier f hh => ?_⟩
  · obtain ⟨watched, asked⟩ := told later _ _ hh
    refine ⟨fun f hf => watched f hf mid earlier rfl, fun unforced => ?_⟩
    exact (asked.imp (· mid earlier rfl) (· mid earlier rfl)).resolve_right unforced
  · obtain ⟨p, ps, hp, rfl, hf⟩ := told later _ _ hh
    have before : AllEntitled e earlier := fun later' ev earlier' he => by
      refine told (later ++ .watcherCalled e p.key f :: later') ev earlier' ?_
      rw [hh, he, List.append_assoc, List.cons_append]
    exact ⟨p, ps, hp, rfl, hf, before.renewed (hp ▸ List.mem_cons_self) hf⟩

-- A client with a watcher that destroys its scope in the middle of the pass, sets it up again with another
-- watcher and writes to it, while the pass has one more watcher to call.
namespace Phoenix

def old : Value := .fn (.client "old")

def calm : Value := .fn (.client "calm")

def new : Value := .fn (.client "new")

def renew : Act Unit Value := do
  let _ ← Act.ask (.engine 0 (.destroyScope Echo.scope))
  let _ ← Act.ask (.engine 0 (.initScope Echo.scope .none))
  let _ ← Act.ask (.engine 0 (.watch Echo.scope new))
  Echo.write 2

def host : Host Unit := fun name => { body := fun _ => if name = "old" then renew else return .none }

def main : Act Unit Value := do
  let _ ← Act.ask (.engine 0 (.initScope Echo.scope .none))
  let _ ← Act.ask (.engine 0 (.watch Echo.scope old))
  let _ ← Act.ask (.engine 0 (.watch Echo.scope calm))
  let _ ← Echo.write 1
  Act.ask (.engine 0 .tick)

def reached : Session Unit := (Session.run host 10 main Echo.start).2

theorem moment : Session.Moment Echo.start reached :=
  .plain host 10 main Prod.mk.eta.symm (by decide +kernel)

/-- The pass of the new scope. -/
def renews : Event → Bool
  | .passBegan 0 key fs => key == Echo.scope && fs == [new]
  | _ => false

def drops : Event → Bool
  | .dropped 0 key => key == Echo.scope
  | _ => false

theorem eq_of_renews (hr : renews ev = true) : ev = .passBegan 0 Echo.scope [new] := by
  unfold renews at hr
  split at hr
  · simpa using hr
  · cases hr

theorem eq_of_drops (hd : drops ev = true) : ev = .dropped 0 Echo.scope := by
  unfold drops at hd
  split at hd
  · simpa using hd
  · cases hd

theorem split {p : Event → Bool} {n : Nat} (hp : h[n]?.any p = true) :
    ∃ ev, p ev = true ∧ h = h.take n ++ ev :: h.drop (n + 1) := by
  obtain ⟨ev, hev, hp⟩ := (Option.any_eq_true _ _).1 hp
  obtain ⟨hn, rfl⟩ := List.getElem?_eq_some_iff.1 hev
  exact ⟨h[n], hp, by rw [← List.drop_eq_getElem_cons hn, List.take_append_drop]⟩

/-- The pass of the new scope begins after the drop. -/
theorem overlaps : ∃ later mid earlier, reached.history 0 =
    later ++ .passBegan 0 Echo.scope [new] :: (mid ++ .dropped 0 Echo.scope :: earlier) := by
  have pass : (reached.history 0)[2]?.any renews = true := by decide +kernel
  have drop : ((reached.history 0).drop 3)[6]?.any drops = true := by decide +kernel
  obtain ⟨ev, hr, hh⟩ := split pass
  obtain ⟨ev', hd, hh'⟩ := split drop
  rw [eq_of_renews hr, hh', eq_of_drops hd] at hh
  exact ⟨_, _, _, hh⟩

end Phoenix

theorem destroy_cuts_off_phoenix : ∃ later mid earlier, Phoenix.reached.history 0 =
      later ++ .passBegan 0 Echo.scope [Phoenix.new] :: (mid ++ .dropped 0 Echo.scope :: earlier) ∧
    .watched 0 Echo.scope Phoenix.new ∈ mid ∧ .requested 0 Echo.scope ∈ mid := by
  obtain ⟨later, mid, earlier, hh⟩ := Phoenix.overlaps
  have unforced : (Phoenix.reached.history 0).any Event.forces = false := by decide +kernel
  obtain ⟨watched, asked⟩ := (destroy_cuts_off Echo.fresh Echo.quiet Phoenix.moment
    (by decide +kernel)).1 later mid earlier _ hh
  refine ⟨later, mid, earlier, hh, watched _ List.mem_cons_self, asked fun hn => ?_⟩
  refine not_mem_of_any unforced rfl (?_ : .notified 0 Echo.scope ∈ _)
  rw [hh]
  exact List.mem_append_right _ (List.mem_cons_of_mem _ (List.mem_append_left _ hn))

end ReactiveScopes
