import ReactiveScopes.Proofs.OwnKeys
import ReactiveScopes.Proofs.PassCourse
import ReactiveScopes.Proofs.PassStack

/-!
# Watchers that call for no passes

A drain goes on as long as callbacks are posted. It comes to its end if watchers report no writes but those
that the policy ignores, and besides flush, tick, register and remove watchers: nothing is marked then while
the queue is drained, so every pass takes a mark away for good.
-/
namespace ReactiveScopes

open Eff History

variable {κ : Type} {e : Nat} {key k f : Value} {h h' : List Event} {ev : Event}

namespace Board

/-- What a machine has come to that called for no pass and began none. -/
structure Unmoved (e : Nat) (b b' : Board) : Prop where
  pending : b'.scheduler.pending = b.scheduler.pending
  running : b'.scheduler.running = b.scheduler.running
  deferred : b'.scheduler.deferred = b.scheduler.deferred
  posted : b'.queue.posted = b.queue.posted
  closures : ∀ {n : Nat} {c}, b.closures[n]? = some c → b'.closures[n]? = some c
  watchers : ∀ {k f}, f ∈ b'.scheduler.watchersOf k →
    f ∈ b.scheduler.watchersOf k ∨ .watched e k f ∈ since b.history b'.history

variable {b b' b'' : Board}

theorem Unmoved.refl (b : Board) : b.Unmoved e b := ⟨rfl, rfl, rfl, rfl, id, Or.inl⟩

theorem Unmoved.trans (h : b.Unmoved e b') (h' : b'.Unmoved e b'') (hs : b.history <:+ b'.history)
    (hs' : b'.history <:+ b''.history) : b.Unmoved e b'' where
  pending := h'.pending.trans h.pending
  running := h'.running.trans h.running
  deferred := h'.deferred.trans h.deferred
  posted := h'.posted.trans h.posted
  closures hc := h'.closures (h.closures hc)
  watchers hf := by
    rw [since_trans hs hs', List.mem_append]
    rcases h'.watchers hf with hf | hw
    · exact (h.watchers hf).imp_right Or.inr
    · exact Or.inr (Or.inl hw)

end Board

/-- What may happen where a pass of `key` is running and no other pass is called for: a write that is
ignored, or the registration of a watcher. -/
def Event.Idle (e : Nat) (key : Value) (policy : Reentrancy) (ev : Event) : Prop :=
  (ev = .requested e key ∧ policy = .skip) ∨ ∃ k f, ev = .watched e k f

theorem Event.Idle.begun {policy : Reentrancy} (h : ev.Idle e key policy) : ev.begun? = none := by
  rcases h with ⟨rfl, _⟩ | ⟨_, _, rfl⟩ <;> rfl

/-- What may happen while the queue is drained: no pass is called for directly, none is broken off, and a write that
is reported is one that the policy may ignore. -/
def Event.Tame (policy : Reentrancy) : Event → Prop
  | requested _ _ => policy = .skip
  | notified _ _ => False
  | passEnded _ _ fault => fault = none
  | _ => True

theorem Event.Idle.tame {policy : Reentrancy} (h : ev.Idle e key policy) : ev.Tame policy := by
  rcases h with ⟨rfl, skip⟩ | ⟨_, _, rfl⟩
  · exact skip
  · trivial

variable {s t : Scene}

theorem Step.unmoved (h : Step e s t) (quiet : ¬ s.board.scheduler.Loud)
    (once : t.board.setUps = s.board.setUps) (begun : s.Begun) (running : key ∈ s.board.scheduler.running)
    (idle : ∀ ev ∈ since s.board.history t.board.history, ev.Idle e key s.board.scheduler.policy) :
    s.board.Unmoved e t.board := by
  -- an event that is told of, and is neither a write nor a registration
  have told : ∀ {ev : Event}, ev :: s.board.history <:+ t.board.history →
      (∀ k, ev ≠ .requested e k) → (∀ k f, ev ≠ .watched e k f) → s.board.Unmoved e t.board := by
    intro ev hs hr hw
    rcases idle ev (mem_since hs) with ⟨he, _⟩ | ⟨k, f, he⟩
    · exact absurd he (hr _)
    · exact absurd he (hw _ _)
  cases h with
  | close b ps c => exact ⟨rfl, rfl, rfl, rfl, fun hc => by
      have hn := (Array.getElem?_eq_some_iff.1 hc).1
      simp only [Board.close]
      rw [Array.getElem?_push_lt hn, ← Array.getElem?_eq_getElem hn, hc], Or.inl⟩
  | loops | door | take | aside | drain | skip => exact ⟨rfl, rfl, rfl, rfl, id, Or.inl⟩
  | create b ps s' q => exact absurd once (Nat.succ_ne_self _)
  | addWatcher b ps k f =>
    refine ⟨rfl, rfl, rfl, rfl, id, fun {x g} hg => ?_⟩
    rcases Scheduler.mem_watchersOf_addWatcher.1 hg with ⟨rfl, rfl⟩ | hg
    · exact Or.inr (mem_since (List.suffix_refl _))
    · exact Or.inl hg
  | removeWatcher b ps k f =>
    exact ⟨b.scheduler.pending_removeWatcher k f, b.scheduler.running_removeWatcher k f,
      b.scheduler.deferred_removeWatcher k f, rfl, id, fun hg => Or.inl (Scheduler.watchersOf_removeWatcher_subset hg)⟩
  | drop | pop | call | breakOff => exact told (List.suffix_refl _) (by simp) (by simp)
  | post b ps f => exact told (b.suffix_posting e f) (by simp) (by simp)
  | request b ps k =>
    have hs : .requested e k :: b.history <:+ (b.request e k).history :=
      Board.suffix_enqueue (b.note (.requested e k)) e k
    rcases idle _ (mem_since hs) with ⟨he, hp⟩ | ⟨x, g, he⟩
    · cases he
      have ignored : b.request e key = b.note (.requested e key) := by
        rcases (b.note (.requested e key)).enqueue_cases e key with ⟨_, hd, _⟩ | ⟨_, _, h⟩ | ⟨hr, _⟩ | ⟨hr, _⟩
        · exact absurd (hp.symm.trans hd) (by simp)
        · exact h
        · exact absurd running hr
        · exact absurd running hr
      dsimp only
      rw [ignored]
      exact ⟨rfl, rfl, rfl, rfl, id, Or.inl⟩
    · cases he
  | flush b ps k due =>
    rcases (b.unmark k).beginPass_cases e k ps with h | ⟨fs, h⟩ <;> rw [h] at told ⊢
    · exact told (List.suffix_cons _ _) (by simp) (by simp)
    · exact told (List.suffix_refl _) (by simp) (by simp)
  | notify b ps k => exact told (Board.suffix_beginPass (b.note (.notified e k)) e k ps) (by simp) (by simp)
  | trace b ps k due h => exact absurd h quiet
  | traceNotified b ps k h => exact absurd h quiet
  | traced b ps k => exact absurd rfl (begun _ List.mem_cons_self)
  | traceFailed b ps k => exact absurd rfl (begun _ List.mem_cons_self)
  | finish b ps k =>
    obtain ⟨new, hh, _⟩ := b.outside_finishPass e k k
    exact told ⟨new, hh.symm⟩ (by simp) (by simp)

theorem Steps.unmoved (h : Steps e s t) (quiet : ¬ s.board.scheduler.Loud)
    (once : t.board.setUps = s.board.setUps) (begun : s.Begun) (running : key ∈ s.board.scheduler.running)
    (idle : ∀ ev ∈ since s.board.history t.board.history, ev.Idle e key s.board.scheduler.policy) :
    s.board.Unmoved e t.board := by
  refine h.onward (P := fun u => s.board.Unmoved e u.board) quiet once begun idle (.refl _) fun u v m before => ?_
  refine before.trans (m.move.unmoved m.quiet m.once m.begun (before.running ▸ running) fun ev hev => ?_) m.older m.later
  rw [show u.board.scheduler.policy = s.board.scheduler.policy from congrArg Prod.fst m.settings]
  exact m.told ev hev

/-- How a client deals with an engine while its queue is drained: the scopes that have passes, what may watch
which of them, and what is known of the session all the time. -/
structure Manners (κ : Type) where
  host : Host κ
  engine : Nat
  policy : Reentrancy
  keys : Value → Prop
  fit : Value → Value → Prop
  known : Session κ → Prop

namespace Manners

variable (M : Manners κ)

/-- Passes come for certain scopes only, whose watchers are fit. -/
structure Admits (w : Session κ) : Prop where
  watchers : ∀ {k f}, M.keys k → f ∈ (w.engine M.engine).scheduler.watchersOf k → M.fit k f
  marked : ∀ k ∈ (w.engine M.engine).scheduler.pending, M.keys k
  known : M.known w

/-- None comes for a scope that runs, or has one left to it that runs. -/
structure Ready (w : Session κ) : Prop extends M.Admits w where
  calm : ¬ (w.engine M.engine).scheduler.Loud
  policy : (w.engine M.engine).scheduler.policy = M.policy
  apart : ∀ k ∈ (w.engine M.engine).scheduler.pending,
    k ∉ (w.engine M.engine).scheduler.running ∧ k ∉ (w.engine M.engine).scheduler.deferred

/-- The same while the queue is being drained. -/
structure Steady (w : Session κ) : Prop extends M.Ready w where
  draining : (w.engine M.engine).queue.draining = true

/-- What has happened since is tame. -/
structure Tells (w w' : Session κ) : Prop where
  once : w'.setUps M.engine = w.setUps M.engine
  older : w.history M.engine <:+ w'.history M.engine
  tame : ∀ ev ∈ since (w.history M.engine) (w'.history M.engine), ev.Tame M.policy

/-- What has come of the session since: there may be fewer marks and more callables. No callback has been taken
from the queue. -/
structure Later (w w' : Session κ) : Prop extends M.Tells w w' where
  posted : (w'.engine M.engine).queue.posted = (w.engine M.engine).queue.posted
  running : (w'.engine M.engine).scheduler.running = (w.engine M.engine).scheduler.running
  deferred : (w'.engine M.engine).scheduler.deferred = (w.engine M.engine).scheduler.deferred
  pending : (w'.engine M.engine).scheduler.pending.Sublist (w.engine M.engine).scheduler.pending
  closures : ∀ {n : Nat} {c}, w.closures[n]? = some c → w'.closures[n]? = some c
  begun : w'.begun M.engine = w.begun M.engine

/-- What is told of an operation in a pass of `s` is no more than writes to `s`, which the policy ignores, and
registrations of watchers that are fit. -/
structure Proper (s : Value) (w w' : Session κ) : Prop where
  once : w'.setUps M.engine = w.setUps M.engine
  told : ∀ ev ∈ since (w.history M.engine) (w'.history M.engine),
    ev.Idle M.engine s M.policy
  watched : ∀ k f, .watched M.engine k f ∈ since (w.history M.engine) (w'.history M.engine) → M.keys k → M.fit k f
  draining : (w'.engine M.engine).queue.draining = (w.engine M.engine).queue.draining
  known : M.known w'

/-- What a watcher may ask for in a pass of `s`, and what the answer is: a tick, a flush, a write to keys of the
record of a scope, by an update or by an expression, and whatever else is proper and comes to its end. Unless it is
to `s` and the policy is to ignore it, such a write puts a value in the place of an equal one. -/
inductive Allows (s : Value) : Command → Session κ → Except Fault Value → Prop
  | tick (w : Session κ) : Allows s (.engine M.engine .tick) w (.ok (.int 0))
  | merge {w w' : Session κ} {x record u : Value} {data : Ref} {t : Mapping} {r : Except Fault Value} :
    w.Owns M.engine x record data → w.store.mapping? u = some t →
    Record.Plain (M.policy = .skip ∧ x = s) data u t.keys w.store →
    Ends M.host (perform (.engine M.engine (.setState x u))).attempt w (.value r, w') → M.known w' →
    Allows s (.engine M.engine (.setState x u)) w r
  | write {w w₁ w' : Session κ} {ev : Evaluation} {x record k v : Value} {data : Ref} {p : String}
    {r : Except Fault Value} :
    w.Owns M.engine x record data → ev.scope = x →
    Scope.Writes M.host M.engine (Session.Overwrites · (M.policy = .skip ∧ x = s) M.engine x data ·) record ev w k v
      w₁ →
    w₁.store.segmentsOf k = [p] → (Record.tells w₁.store data p v = true → M.policy = .skip ∧ x = s) →
    Ends M.host (perform (.engine M.engine (.evaluate ev))).attempt w (.value r, w') → M.known w' →
    Allows s (.engine M.engine (.evaluate ev)) w r
  | flush {x : Value} {w w' : Session κ} {found : Option (Value × Value)} :
    Ends M.host (Scope.find M.engine x) w (.value found, w') → M.Proper s w w' →
    Allows s (.engine M.engine (.flush x)) w (.ok .none)
  | proper {c : Command} {w w' : Session κ} {r : Except Fault Value} :
    Ends M.host (perform c).attempt w (.value r, w') → M.Proper s w w' → Allows s c w r

/-- A program, run in a pass of `s` from a given session on, asks for nothing else and does not end with
anything but an error. -/
def Behaves (s : Value) : Act κ Value → Session κ → Prop
  | .done _, _ => True
  | .raise f, _ => f.isError = true
  | .look k, w => Behaves s (k w.store) w
  | .recollect k, w => Behaves s (k w.memory) w
  | .remember m next, w => Behaves s next { w with memory := m }
  | .perform c k, w => ∃ r, M.Allows s c w r ∧
      ∀ w', Ends M.host (perform c).attempt w (.value r, w') → M.Steady w' →
        s ∈ (w'.engine M.engine).scheduler.running → Behaves s (k r) w'
  | .yield k, w => Behaves s (k (.error .misuse)) w
  | .await _ k, w => Behaves s (k (.error .misuse)) w
  | .quit, _ => False

/-- A watcher that is called in a pass of `s` is a function of the client that behaves, or whatever it does is
proper and comes to its end, with an error at worst. -/
inductive Obeys (s : Value) : Value → Session κ → Prop
  | program {name : String} {w : Session κ} : (M.host name).isAsync = false →
    M.Behaves s ((M.host name).body []) w → Obeys s (.fn (.client name)) w
  | proper {f : Value} {w w' : Session κ} {x : Except Fault Value} :
    Ends M.host (callValue f []).attempt w (.value x, w') → M.Proper s w w' →
    (∀ g, x = .error g → g.isError = true) → Obeys s f w

/-- The client keeps to its manners. -/
structure Sound : Prop where
  lasting : ∀ {w w'}, M.known w → w.Bides M.engine w' → M.known w'
  obeys : ∀ {f s w}, M.fit s f → M.keys s → M.Steady w → s ∈ (w.engine M.engine).scheduler.running →
    M.Obeys s f w

variable {M} {s : Value} {fs : List Value} {w w' w'' : Session κ} {n : Nat}

theorem Tells.trans (h : M.Tells w w') (h' : M.Tells w' w'') : M.Tells w w'' where
  once := h'.once.trans h.once
  older := h.older.trans h'.older
  tame := by
    rw [since_trans h.older h'.older]
    exact List.forall_mem_append.2 ⟨h'.tame, h.tame⟩

/-- Nothing has happened since. -/
theorem Tells.silent (once : w'.setUps M.engine = w.setUps M.engine) (same : w'.history M.engine = w.history M.engine) :
    M.Tells w w' where
  once := once
  older := same ▸ List.suffix_refl _
  tame := by
    rw [same]
    simp

theorem Tells.logged (w : Session κ) (ev : Event) (going : ev.sets M.engine = false) (tame : ev.Tame M.policy) :
    M.Tells w (w.logged ev) := by
  obtain ⟨new, told, only⟩ :
      ∃ new, (w.logged ev).history M.engine = new ++ w.history M.engine ∧ ∀ x ∈ new, x = ev := by
    unfold Session.history Session.logged
    rw [List.takeWhile_cons, going]
    by_cases about : ev.engine? = some M.engine
    · exact ⟨[ev], by simp [about], fun x hx => List.mem_singleton.1 hx⟩
    · exact ⟨[], by simp [about], List.forall_mem_nil _⟩
  refine ⟨by simp [Session.setUps, Session.logged, going], ⟨new, told.symm⟩, fun x hx => ?_⟩
  rw [told, since_append] at hx
  exact only x hx ▸ tame

theorem Tells.entering (w : Session κ) (s : Value) (fs : List Value) : M.Tells w (w.entering M.engine s fs) := by
  have began : M.Tells w (w.logged (.passBegan M.engine s fs)) := .logged w _ rfl trivial
  exact began.trans (.silent rfl rfl)

theorem Tells.leaving (w : Session κ) (s : Value) : M.Tells w (w.leaving M.engine s) := by
  let w₁ := w.reschedule M.engine fun r => { r with running := eraseKey s r.running }
  have left : M.Tells w w₁ := .silent rfl rfl
  exact left.trans (.logged w₁ (.passEnded M.engine s none) rfl rfl)

theorem Tells.taking (w : Session κ) (f : Value) (rest : List Value) : M.Tells w (w.taking M.engine f rest) := by
  let w₁ := w.requeue M.engine fun q => { q with posted := rest }
  have taken : M.Tells w w₁ := .silent rfl rfl
  exact taken.trans (.logged w₁ (.began M.engine f) rfl trivial)

theorem Later.refl (w : Session κ) : M.Later w w :=
  ⟨.silent rfl rfl, rfl, rfl, rfl, List.Sublist.refl _, id, rfl⟩

theorem Later.trans (h : M.Later w w') (h' : M.Later w' w'') : M.Later w w'' :=
  ⟨h.toTells.trans h'.toTells, h'.posted.trans h.posted, h'.running.trans h.running, h'.deferred.trans h.deferred,
    h'.pending.trans h.pending, fun hc => h'.closures (h.closures hc), h'.begun.trans h.begun⟩

theorem Later.logged (w : Session κ) (ev : Event) (going : ev.sets M.engine = false) (h : ev.begun? = none)
    (tame : ev.Tame M.policy) : M.Later w (w.logged ev) :=
  ⟨.logged w ev going tame, rfl, rfl, rfl, List.Sublist.refl _, id, w.begun_logged going h⟩

theorem Later.length_le (h : M.Later w w') (hn : (w.engine M.engine).scheduler.pending.length ≤ n) :
    (w'.engine M.engine).scheduler.pending.length ≤ n :=
  h.pending.length_le.trans hn

theorem Proper.of_overwrites {x : Value} {data : Ref} {loud : Prop}
    (overwrites : w.Overwrites loud M.engine x data w') (ignored : loud → M.policy = .skip ∧ x = s)
    (known : M.known w') : M.Proper s w w' := by
  obtain ⟨n, hh, quiet⟩ := overwrites.told
  refine ⟨overwrites.once, ?_, ?_, by rw [overwrites.engine], known⟩ <;> rw [hh, since_append]
  · intro ev hev
    obtain ⟨hn, rfl⟩ := List.mem_replicate.1 hev
    obtain ⟨skip, rfl⟩ := ignored (quiet hn)
    exact .inl ⟨rfl, skip⟩
  · intro k f hf
    exact absurd (List.mem_replicate.1 hf).2 nofun

theorem Proper.of_board (board : w'.board M.engine = w.board M.engine) (known : M.known w') :
    M.Proper s w w' := by
  have hh : w'.history M.engine = [] ++ w.history M.engine := congrArg Board.history board
  refine ⟨congrArg Board.setUps board, ?_, ?_, congrArg (fun b : Board => b.queue.draining) board, known⟩ <;>
    rw [hh, since_append]
  · exact List.forall_mem_nil _
  · exact fun _ _ h => absurd h List.not_mem_nil

/-- While a pass of `s` runs, writes to `s` are ignored if the policy is to ignore them. -/
theorem Steady.ignores {x : Value} (hw : M.Steady w) (running : s ∈ (w.engine M.engine).scheduler.running)
    (h : M.policy = .skip ∧ x = s) :
    (w.engine M.engine).scheduler.policy = .skip ∧ x ∈ (w.engine M.engine).scheduler.running :=
  ⟨hw.policy.trans h.1, h.2 ▸ running⟩

theorem Allows.make {t : Mapping} (known : M.known { w with store := (w.store.alloc (.dict t)).2 }) :
    M.Allows s (.make (.dict t)) w (.ok (.ref (w.store.alloc (.dict t)).1)) :=
  .proper (Client.make_ends t).attempt_value (.of_board rfl known)

/-- A watcher may merge what goes to keys of a record. -/
theorem Allows.setState {x record u : Value} {data : Ref} {t : Mapping} (hw : M.Steady w)
    (running : s ∈ (w.engine M.engine).scheduler.running) (own : w.Owns M.engine x record data)
    (updates : w.store.mapping? u = some t)
    (plain : Record.Plain (M.policy = .skip ∧ x = s) data u t.keys w.store)
    (known : ∀ r w', Ends M.host (perform (.engine M.engine (.setState x u))).attempt w (.value r, w') →
      w.Overwrites (M.policy = .skip ∧ x = s) M.engine x data w' → M.known w') :
    ∃ r, M.Allows s (.engine M.engine (.setState x u)) w r ∧ ∀ f, r = .error f → f = .misuse := by
  obtain ⟨r, w', ends, overwrites, misuse⟩ :=
    Scope.setState_ends M.host (hw.ignores running) own updates plain
  exact ⟨r, .merge own updates plain ends (known r w' ends overwrites), misuse⟩

/-- What is proper calls for no pass. -/
theorem Steady.proper (hw : M.Steady w) (hs : s ∈ (w.engine M.engine).scheduler.running)
    (hp : M.Proper s w w') (steps : Steps M.engine (w.scene M.engine []) (w'.scene M.engine [])) :
    M.Steady w' ∧ M.Later w w' := by
  have unmoved : (w.board M.engine).Unmoved M.engine (w'.board M.engine) :=
    steps.unmoved hw.calm hp.once (List.forall_mem_nil _) hs (hw.policy.symm ▸ hp.told)
  obtain ⟨pending, running, deferred, posted, closures, watchers⟩ := unmoved
  have settings := steps.settings hp.once
  have older : w.history M.engine <:+ w'.history M.engine := steps.suffix hp.once
  refine ⟨⟨⟨⟨fun {k f} hk hf => ?_, fun k hk => ?_, hp.known⟩,
    fun hl => hw.calm ((Board.loud_of_settings settings).1 hl), (congrArg Prod.fst settings).trans hw.policy,
    fun k hk => ?_⟩, hp.draining.trans hw.draining⟩, ⟨⟨hp.once, older, fun ev hev => (hp.told ev hev).tame⟩, posted,
    running, deferred, pending ▸ List.Sublist.refl _, closures, ?_⟩⟩
  · exact (watchers hf).elim (hw.watchers hk) fun hf => hp.watched k f hf hk
  · exact hw.marked k (pending ▸ hk)
  · change k ∉ (w'.board M.engine).scheduler.running ∧ k ∉ (w'.board M.engine).scheduler.deferred
    rw [running, deferred]
    exact hw.apart k (pending ▸ hk)
  · unfold Session.begun
    rw [← since_append_self older, List.filterMap_append,
      List.filterMap_eq_nil_iff.2 fun ev hev => (hp.told ev hev).begun]
    rfl

section Bookkeeping

variable (hM : M.Sound)

include hM

/-- What leaves the scheduler as it is. -/
theorem Ready.same (hw : M.Ready w) (hb : w.Bides M.engine w')
    (scheduler : (w'.engine M.engine).scheduler = (w.engine M.engine).scheduler) : M.Ready w' := by
  obtain ⟨⟨watchers, marked, known⟩, calm, policy, apart⟩ := hw
  rw [← scheduler] at calm policy watchers apart marked
  exact ⟨⟨watchers, marked, hM.lasting known hb⟩, calm, policy, apart⟩

theorem Steady.logged (hw : M.Steady w) (ev : Event) : M.Steady (w.logged ev) :=
  ⟨hw.toReady.same hM (w.bides_logged M.engine ev) rfl, hw.draining⟩

/-- A change of the marks and of the running keys. -/
theorem Steady.remark (hw : M.Steady w) {ps rs : List Value} {g : Scheduler → Scheduler}
    (hg : g (w.engine M.engine).scheduler =
      { (w.engine M.engine).scheduler with pending := ps, running := rs })
    (hp : ∀ k ∈ ps, k ∈ (w.engine M.engine).scheduler.pending) (apart : ∀ k ∈ ps, k ∉ rs) :
    M.Steady (w.reschedule M.engine g) := by
  have same : (w.reschedule M.engine g).engine M.engine =
      { w.engine M.engine with
        scheduler := { (w.engine M.engine).scheduler with pending := ps, running := rs } } := by
    simp [Session.reschedule, hg]
  refine ⟨⟨⟨?_, ?_, hM.lasting hw.known (w.bides_reschedule M.engine _)⟩, ?_, ?_, ?_⟩, ?_⟩ <;> rw [same]
  · exact hw.watchers
  · exact fun k hk => hw.marked k (hp k hk)
  · exact hw.calm
  · exact hw.policy
  · exact fun k hk => ⟨apart k hk, (hw.apart k (hp k hk)).2⟩
  · exact hw.draining

end Bookkeeping

variable (M) in
/-- The computation comes to its end, with an error at worst, in a session that is steady again. -/
def Comes (m : Eff κ Value) (w : Session κ) : Prop :=
  ∃ x w', Ends M.host m.attempt w (.value x, w') ∧ M.Steady w' ∧ M.Later w w' ∧
    ∀ f, x = .error f → f.isError = true

variable (M) in
/-- The computation comes to its end in a session that is steady again. -/
def Passes (m : Eff κ Unit) (w : Session κ) : Prop :=
  ∃ w', Ends M.host m w (.value (), w') ∧ M.Steady w' ∧ M.Later w w'

variable (M) in
/-- Flushing comes to its end while no more than `n` keys are pending. -/
def Flushes (n : Nat) : Prop :=
  ∀ w key, M.Steady w → (w.engine M.engine).scheduler.pending.length ≤ n →
    M.Passes (Scheduler.flush M.engine key) w

theorem Comes.of_value {m : Eff κ Value} {v : Value} (h : Ends M.host m w (.value v, w')) (hw : M.Steady w')
    (hl : M.Later w w') : M.Comes m w :=
  ⟨.ok v, w', h.attempt_value, hw, hl, nofun⟩

/-- Inside a drain a tick does nothing. -/
theorem tick_idle (hw : M.Steady w) : Ends M.host (perform (.engine M.engine .tick)) w (.value (.int 0), w) := by
  have none (env : Env κ) : Queue.runPending M.engine env w = (.value 0, w) := by
    unfold Queue.runPending
    rw [bind_engine, if_pos hw.draining]
    rfl
  refine .alone fun env => ?_
  rw [perform_engine]
  exact bind_value (none env) fun k => Pure.pure (Value.int k)

section Running

variable (hM : M.Sound) (flushes : M.Flushes n)

include flushes

theorem Allows.comes {c : Command} (hw : M.Steady w) (hs : s ∈ (w.engine M.engine).scheduler.running)
    (hn : (w.engine M.engine).scheduler.pending.length ≤ n) {r : Except Fault Value} (h : M.Allows s c w r) :
    ∃ w', Ends M.host (perform c).attempt w (.value r, w') ∧ M.Steady w' ∧ M.Later w w' := by
  cases h with
  | tick => exact ⟨w, (tick_idle hw).attempt_value, hw, .refl w⟩
  | merge own updates plain ends known =>
    obtain ⟨_, _, ends', overwrites, _⟩ := Scope.setState_ends M.host (hw.ignores hs) own updates plain
    cases ends.unique ends'
    obtain ⟨hw', later⟩ := hw.proper hs (.of_overwrites overwrites id known) ends.steps
    exact ⟨_, ends, hw', later⟩
  | write own scope writes hp quiet ends known =>
    obtain ⟨_, ends', overwrites⟩ := Scope.evaluate_ends M.host (hw.ignores hs) own scope writes hp quiet
    cases ends.unique ends'.attempt_value
    obtain ⟨hw', later⟩ := hw.proper hs (.of_overwrites overwrites id known) ends.steps
    exact ⟨_, ends, hw', later⟩
  | @flush x _ w₁ found finds proper =>
    obtain ⟨hw₁, later₁⟩ := hw.proper hs proper finds.attempt_value.steps
    have whole {w' : Session κ} (h : Ends M.host (Scope.flush M.engine x) w (.value (), w')) :
        Ends M.host (perform (.engine M.engine (.flush x))).attempt w (.value (.ok .none), w') := by
      refine Ends.attempt_value (Ends.congr (perform_engine M.engine (.flush x) · w) ?_)
      exact Ends.bind h (.pure Value.none w')
    cases found with
    | none => exact ⟨w₁, whole (finds.bind (.pure () w₁)), hw₁, later₁⟩
    | some owner =>
      obtain ⟨w₂, ends, hw₂, later₂⟩ := flushes w₁ owner.1 hw₁ (later₁.length_le hn)
      exact ⟨w₂, whole (finds.bind ends), hw₂, later₁.trans later₂⟩
  | proper ends proper =>
    obtain ⟨hw', later⟩ := hw.proper hs proper ends.steps
    exact ⟨_, ends, hw', later⟩

include hM

/-- A program that behaves comes to its end. -/
theorem run_comes (a : Act κ Value) (hw : M.Steady w) (hs : s ∈ (w.engine M.engine).scheduler.running)
    (hn : (w.engine M.engine).scheduler.pending.length ≤ n) (h : M.Behaves s a w) : M.Comes a.run w := by
  induction a generalizing w with
  | done v => exact .of_value (.pure v w) hw (.refl w)
  | raise f => exact ⟨.error f, w, .alone fun _ => rfl, hw, .refl w, fun g hg => by cases hg; exact h⟩
  | look k ih => exact ih w.store hw hs hn h
  | recollect k ih => exact ih w.memory hw hs hn h
  | remember m next ih =>
    have hm : M.Steady { w with memory := m } := ⟨hw.toReady.same hM ⟨⟨_, _, rfl⟩, id⟩ rfl, hw.draining⟩
    obtain ⟨x, w', ends, hw', later, hx⟩ := ih (w := { w with memory := m }) hm hs hn h
    exact ⟨x, w', ends, hw',
      ⟨⟨later.once, later.older, later.tame⟩, later.posted, later.running, later.deferred, later.pending,
        later.closures, later.begun⟩, hx⟩
  | perform c k ih =>
    obtain ⟨r, allowed, rest⟩ := h
    obtain ⟨w₁, ends, hw₁, later₁⟩ := allowed.comes flushes hw hs hn
    have hs₁ := later₁.running ▸ hs
    obtain ⟨x, w', ends', hw', later, hx⟩ := ih r hw₁ hs₁ (later₁.length_le hn) (rest w₁ ends hw₁ hs₁)
    exact ⟨x, w', ends.attempt_bind ends', hw', later₁.trans later, hx⟩
  | yield k ih => exact ih _ hw hs hn h
  | await v k ih => exact ih _ hw hs hn h
  | quit => exact h.elim

/-- So does a watcher. -/
theorem call_comes (hw : M.Steady w) (hk : M.keys s) (hs : s ∈ (w.engine M.engine).scheduler.running)
    (hn : (w.engine M.engine).scheduler.pending.length ≤ n) (hf : M.fit s f) :
    M.Comes (callValue f []) w := by
  cases hM.obeys hf hk hw hs with
  | @program name _ plain behaves =>
    obtain ⟨x, w', ends, rest⟩ := run_comes hM flushes _ hw hs hn behaves
    have applied : Ends M.host (applyValue M.host (.fn (.client name)) []).attempt w (.value x, w') := by
      change Ends M.host (if (M.host name).isAsync then _ else _ : Eff κ Value).attempt w _
      rwa [plain]
    exact ⟨x, w', Ends.attempt_iff.2 (.call rfl (Ends.attempt_iff.1 applied)), rest⟩
  | proper ends proper error =>
    obtain ⟨hw', later⟩ := hw.proper hs proper ends.steps
    exact ⟨_, _, ends, hw', later, error⟩

/-- Watchers are called one after the other, whatever errors there are. -/
theorem callWatchers_passes (hk : M.keys s) (fits : ∀ f ∈ fs, M.fit s f) (hw : M.Steady w)
    (hs : s ∈ (w.engine M.engine).scheduler.running)
    (hn : (w.engine M.engine).scheduler.pending.length ≤ n) :
    M.Passes (Scheduler.callWatchers M.engine s fs) w := by
  induction fs generalizing w with
  | nil => exact ⟨w, .pure () w, hw, .refl w⟩
  | cons f fs ih =>
    obtain ⟨fit, fits⟩ := List.forall_mem_cons.1 fits
    obtain ⟨x, w₁, called, hw₁, later, errors⟩ :=
      call_comes hM flushes (hw.logged hM (.watcherCalled M.engine s f)) hk hs hn fit
    have reported : M.Steady (w₁.reporting x) ∧ M.Later w₁ (w₁.reporting x) := by
      cases x with
      | ok v => exact ⟨hw₁, .refl w₁⟩
      | error fault => exact ⟨hw₁.logged hM _, .logged w₁ _ rfl rfl trivial⟩
    have told : M.Later w (w.logged (.watcherCalled M.engine s f)) := .logged w _ rfl rfl trivial
    have later : M.Later w (w₁.reporting x) := (told.trans later).trans reported.2
    obtain ⟨w', rest, hw', later'⟩ := ih fits reported.1 (later.running ▸ hs) (later.length_le hn)
    exact ⟨w', Scheduler.callWatchers_next called errors rest, hw', later.trans later'⟩

/-- A pass comes to its end, and its scope does not run any more. -/
theorem runPass_passes (hk : M.keys s) (fits : ∀ f ∈ fs, M.fit s f) (hw : M.Steady w)
    (idle : s ∉ (w.engine M.engine).scheduler.running) (undeferred : s ∉ (w.engine M.engine).scheduler.deferred)
    (unmarked : s ∉ (w.engine M.engine).scheduler.pending)
    (hn : (w.engine M.engine).scheduler.pending.length ≤ n) : M.Passes (Scheduler.runPass M.engine s fs) w := by
  have hw₁ : M.Steady (w.entering M.engine s fs) := by
    refine (hw.logged hM _).remark hM rfl (fun _ => id) fun k hk hr => ?_
    rcases mem_insertKey.1 hr with rfl | hr
    · exact unmarked hk
    · exact (hw.apart k hk).1 hr
  obtain ⟨w₂, called, hw₂, later⟩ := callWatchers_passes hM flushes hk fits hw₁ (by simp) (by simpa using hn)
  have hw' : M.Steady (w₂.leaving M.engine s) := by
    refine Steady.logged hM (hw₂.remark hM rfl (fun _ => id) fun k hk hr => ?_) _
    exact (hw₂.apart k hk).1 (mem_eraseKey.1 hr).1
  obtain ⟨told, posted, running, deferred, pending, closures, begun⟩ := later
  rw [Session.engine_entering] at posted running deferred pending
  refine ⟨w₂.leaving M.engine s, Scheduler.runPass_ends called (deferred ▸ undeferred), hw',
    ((Tells.entering w s fs).trans told).trans (.leaving w₂ s), ?_, ?_, ?_, ?_, closures, ?_⟩
  · rw [Session.engine_leaving]
    exact posted
  · rw [Session.engine_leaving, running]
    exact eraseKey_insertKey idle
  · rw [Session.engine_leaving]
    exact deferred
  · rw [Session.engine_leaving]
    exact pending
  · exact ((w₂.reschedule M.engine _).begun_logged rfl rfl).trans (begun.trans (w.begun_logged rfl rfl))

/-- A pass that is called for comes to its end. -/
theorem notify_passes (hk : M.keys s) (hw : M.Steady w) (idle : s ∉ (w.engine M.engine).scheduler.running)
    (undeferred : s ∉ (w.engine M.engine).scheduler.deferred)
    (unmarked : s ∉ (w.engine M.engine).scheduler.pending)
    (hn : (w.engine M.engine).scheduler.pending.length ≤ n) : M.Passes (Scheduler.notify M.engine s) w := by
  rcases hfs : (w.engine M.engine).scheduler.watchersOf s with _ | ⟨f, fs⟩
  · let w₁ := (w.logged (.passBegan M.engine s [])).logged (.passEnded M.engine s none)
    refine ⟨w₁, .alone fun env => ?_, (hw.logged hM _).logged hM _,
      (Later.logged w (.passBegan M.engine s []) rfl rfl trivial).trans (.logged _ _ rfl rfl rfl)⟩
    unfold Scheduler.notify
    rw [Scheduler.bind_scheduler, hfs]
    rfl
  · obtain ⟨w₁, ⟨hb, bides, -⟩, notified⟩ := Scheduler.notify_ends M.host hw.calm hfs
    have same : (w₁.engine M.engine).scheduler = (w.engine M.engine).scheduler := congrArg Board.scheduler hb
    have queue : (w₁.engine M.engine).queue = (w.engine M.engine).queue := congrArg Board.queue hb
    have closures : w₁.closures = w.closures := congrArg Board.closures hb
    have hw₁ : M.Steady w₁ := ⟨hw.toReady.same hM bides same, queue ▸ hw.draining⟩
    have later₁ : M.Later w w₁ :=
      ⟨.silent (congrArg Board.setUps hb) (congrArg Board.history hb), congrArg Queue.posted queue,
        congrArg Scheduler.running same, congrArg Scheduler.deferred same,
        by rw [same], fun hc => closures ▸ hc,
        congrArg (fun b : Board => b.history.filterMap Event.begun?) hb⟩
    have fits : ∀ g ∈ f :: fs, M.fit s g := fun g hg => hw.watchers hk (hfs ▸ hg)
    obtain ⟨w', ran, hw', later⟩ :=
      runPass_passes hM flushes hk fits hw₁ (same ▸ idle) (same ▸ undeferred) (same ▸ unmarked) (same ▸ hn)
    exact ⟨w', notified ran, hw', later₁.trans later⟩

/-- A scope that is marked is flushed. -/
theorem flush_marked (hn : (w.engine M.engine).scheduler.pending.length ≤ n + 1) (hw : M.Steady w)
    (marked : s ∈ (w.engine M.engine).scheduler.pending) : M.Passes (Scheduler.flush M.engine s) w := by
  let w₁ := w.reschedule M.engine fun r => { r with pending := eraseKey s r.pending }
  have hw₁ : M.Steady w₁ := hw.remark hM rfl (fun k hk => (mem_eraseKey.1 hk).1) fun k hk =>
    (hw.apart k (mem_eraseKey.1 hk).1).1
  have same₁ : w₁.engine M.engine = { w.engine M.engine with
      scheduler := { (w.engine M.engine).scheduler with
        pending := eraseKey s (w.engine M.engine).scheduler.pending } } := by
    simp [w₁]
  have later₁ : M.Later w w₁ := by
    refine ⟨.silent rfl rfl, ?_, ?_, ?_, ?_, id, rfl⟩ <;> rw [same₁]
    exact List.filter_sublist
  have shorter : (w₁.engine M.engine).scheduler.pending.length ≤ n := by
    rw [same₁]
    exact Nat.lt_succ_iff.1 ((length_eraseKey_lt marked).trans_le hn)
  have idle : s ∉ (w₁.engine M.engine).scheduler.running := by
    rw [same₁]
    exact (hw.apart s marked).1
  have undeferred : s ∉ (w₁.engine M.engine).scheduler.deferred := by
    rw [same₁]
    exact (hw.apart s marked).2
  have unmarked : s ∉ (w₁.engine M.engine).scheduler.pending := by
    rw [same₁]
    exact fun h => (mem_eraseKey.1 h).2 rfl
  obtain ⟨w', notified, hw', later⟩ :=
    notify_passes hM flushes (hw.marked s marked) hw₁ idle undeferred unmarked shorter
  exact ⟨w', Scheduler.flush_ends marked notified, hw', later₁.trans later⟩

end Running

/-- Every flush comes to its end, since none of those inside it has more keys pending. -/
theorem flushes (hM : M.Sound) : ∀ n, M.Flushes n
  | n, w, key, hw, hn => by
    by_cases marked : key ∈ (w.engine M.engine).scheduler.pending
    · cases n with
      | zero => exact absurd (List.length_pos_of_mem marked) (Nat.not_lt.2 hn)
      | succ n => exact flush_marked hM (flushes hM n) hn hw marked
    · refine ⟨w, .alone fun env => ?_, hw, .refl w⟩
      unfold Scheduler.flush
      rw [Scheduler.bind_scheduler, if_neg (by simpa using marked)]
      rfl

/-- What waits in the queue are callbacks for passes. -/
def Queued (M : Manners κ) (w : Session κ) : Prop :=
  ∀ f ∈ (w.engine M.engine).queue.posted, ∃ key, w.runsPass M.engine key f

/-- A callback for a pass flushes its scope. -/
theorem callback_passes (hM : M.Sound) (hw : M.Steady w) (runs : w.runsPass M.engine key f) :
    ∃ w', Ends M.host (callValue f []) w (.value .none, w') ∧ M.Steady w' ∧ M.Later w w' := by
  obtain ⟨w', flushed, hw', later⟩ := flushes hM _ w key hw (Nat.le_refl _)
  exact ⟨w', Scheduler.callback_ends runs flushed, hw', later⟩

theorem Queued.later (queued : M.Queued w) (closures : ∀ {n : Nat} {c}, w.closures[n]? = some c →
      w'.closures[n]? = some c)
    (posted : (w'.engine M.engine).queue.posted ⊆ (w.engine M.engine).queue.posted) : M.Queued w' := by
  intro f hf
  obtain ⟨key, runs⟩ := queued f (posted hf)
  obtain ⟨i, rfl, hi⟩ : (w.board M.engine).runsPass M.engine key f := Session.runsPass_iff.1 runs
  exact ⟨key, Session.runsPass_iff.2 ⟨i, rfl, closures hi⟩⟩

/-- The queue is drained, one callback after the other, as many as there were. -/
theorem drain_ends (hM : M.Sound) (ran : Nat) (hw : M.Steady w) (queued : M.Queued w) :
    ∃ w', Queue.Drains M.host M.engine ran w (.value (ran + (w.engine M.engine).queue.posted.length), w') ∧
      M.Steady w' ∧ M.Tells w w' ∧ (w'.engine M.engine).queue.posted = [] ∧
      w'.begun M.engine = (w.engine M.engine).queue.posted.reverse ++ w.begun M.engine := by
  induction hq : (w.engine M.engine).queue.posted generalizing w ran with
  | nil => exact ⟨w, .nil hq, hw, .silent rfl rfl, hq, rfl⟩
  | cons f rest ih =>
    let w₁ := w.taking M.engine f rest
    have same₁ : w₁.engine M.engine =
        { w.engine M.engine with queue := { (w.engine M.engine).queue with posted := rest } } :=
      w.engine_taking M.engine f rest
    have hw₁ : M.Steady w₁ :=
      ⟨hw.toReady.same hM (w.bides_taking M.engine f rest) (by rw [same₁]), by rw [same₁]; exact hw.draining⟩
    obtain ⟨key, runs⟩ := queued f (hq ▸ List.mem_cons_self)
    obtain ⟨w₂, called, hw₂, later⟩ := callback_passes hM hw₁ (w := w₁) runs
    have left : (w₂.engine M.engine).queue.posted = rest := by rw [later.posted, same₁]
    have queued₂ : M.Queued w₂ := by
      refine queued.later (fun hc => later.closures hc) ?_
      rw [left, hq]
      exact List.subset_cons_self f rest
    obtain ⟨w', drained, hw', told, empty, begun⟩ := ih (ran + 1) hw₂ queued₂ left
    rw [later.begun, Session.begun_taking, List.append_cons, ← List.reverse_cons] at begun
    refine ⟨w', ?_, hw', ((Tells.taking w f rest).trans later.toTells).trans told, empty, begun⟩
    rw [List.length_cons, Nat.add_comm rest.length, ← Nat.add_assoc]
    exact .cons hq called drained

/-- A drain that begins comes to its end with an empty queue, and has run what was queued and nothing more. -/
theorem runPending_ends (hM : M.Sound) (hw : M.Ready w) (queued : M.Queued w)
    (outside : (w.engine M.engine).queue.draining = false) :
    ∃ w', Ends M.host (Queue.runPending M.engine) w (.value (w.engine M.engine).queue.posted.length, w') ∧
      M.Ready w' ∧ M.Tells w w' ∧ (w'.engine M.engine).queue.posted = [] ∧
      (w'.engine M.engine).queue.draining = false ∧
      w'.begun M.engine = (w.engine M.engine).queue.posted.reverse ++ w.begun M.engine := by
  let w₁ := w.draining M.engine true
  have same₁ : w₁.engine M.engine =
      { w.engine M.engine with queue := { (w.engine M.engine).queue with draining := true } } :=
    w.engine_draining M.engine true
  have hw₁ : M.Steady w₁ := ⟨hw.same hM (w.bides_draining M.engine true) (by rw [same₁]), by rw [same₁]⟩
  have queued₁ : M.Queued w₁ := queued.later id (by rw [same₁]; exact List.Subset.refl _)
  obtain ⟨w₂, drained, hw₂, told, empty, begun⟩ := drain_ends hM 0 hw₁ queued₁
  have same' : (w₂.draining M.engine false).engine M.engine =
      { w₂.engine M.engine with queue := { (w₂.engine M.engine).queue with draining := false } } :=
    w₂.engine_draining M.engine false
  have ready : M.Ready (w₂.draining M.engine false) :=
    hw₂.toReady.same hM (w₂.bides_draining M.engine false) (by rw [same'])
  rw [same₁] at begun
  rw [same₁, Nat.zero_add] at drained
  have begins : M.Tells w w₁ := .silent rfl rfl
  have ends : M.Tells w₂ (w₂.draining M.engine false) := .silent rfl rfl
  exact ⟨w₂.draining M.engine false, Queue.runPending_ends outside drained, ready, (begins.trans told).trans ends,
    by rw [same']; exact empty, by rw [same'], begun⟩

/-- A tick that is not part of another one comes to its end, and what happens in it is tame. -/
theorem tick_tells (hM : M.Sound) (hw : M.Ready w) (queued : M.Queued w)
    (outside : (w.engine M.engine).queue.draining = false) :
    ∃ w', Ends M.host (perform (.engine M.engine .tick)) w
        (.value (.int (w.engine M.engine).queue.posted.length), w') ∧ M.Tells w w' ∧
      w'.begun M.engine = (w.engine M.engine).queue.posted.reverse ++ w.begun M.engine ∧
      (w'.engine M.engine).queue.posted = [] := by
  obtain ⟨w', ends, _, told, empty, _, begun⟩ := runPending_ends hM hw queued outside
  exact ⟨w', .congr (perform_engine M.engine .tick · w) (ends.bind (.pure _ w')), told, begun, empty⟩

/-- A tick that is not part of another one runs the callbacks that are queued, in their order, and none besides. -/
theorem tick_ends (hM : M.Sound) (hw : M.Ready w) (queued : M.Queued w)
    (outside : (w.engine M.engine).queue.draining = false) :
    ∃ w', Ends M.host (perform (.engine M.engine .tick)) w
        (.value (.int (w.engine M.engine).queue.posted.length), w') ∧
      w'.begun M.engine = (w.engine M.engine).queue.posted.reverse ++ w.begun M.engine ∧
      (w'.engine M.engine).queue.posted = [] := by
  obtain ⟨w', ends, _, rest⟩ := tick_tells hM hw queued outside
  exact ⟨w', ends, rest⟩

/-- After a run no scope is marked while a pass of it is in progress. -/
theorem Admits.ready_of_steps {w₀ : Session κ} {ps : List OpenPass} (admits : M.Admits w) (fresh : w₀.Fresh M.engine)
    (quiet : ¬ (w₀.engine M.engine).scheduler.Loud)
    (steps : Steps M.engine (w₀.scene M.engine []) (w.scene M.engine ps))
    (once : w.setUps M.engine = w₀.setUps M.engine) (policy : (w₀.engine M.engine).scheduler.policy = M.policy)
    (unforced : ∀ key, .notified M.engine key ∉ w.history M.engine)
    (undeferred : ∀ key ∈ (w.engine M.engine).scheduler.pending, key ∉ openPasses (w.history M.engine) →
      key ∉ (w.engine M.engine).scheduler.deferred) : M.Ready w := by
  have turns := (steps.turns quiet once fresh.sound).1
  rw [show (w₀.scene M.engine []).board.marks = _ from fresh.marks_eq] at turns
  have nested : (w.marks M.engine).Nested M.engine := turns.nested Marks.nested_none
  have single (key : Value) : (w.marks M.engine).Single key := turns.single (unforced key) Marks.single_none
  have settings := steps.settings once
  refine ⟨admits, fun hl => quiet ((Board.loud_of_settings settings).1 hl), (congrArg Prod.fst settings).trans policy,
    fun key marked => ?_⟩
  have closed : key ∉ openPasses (w.history M.engine) := (single key).pending_closed marked
  exact ⟨fun hr => closed (nested.running_open key hr), undeferred key marked closed⟩

/-- At a moment of a run no scope is marked while a pass of it is in progress. -/
theorem Admits.ready {w₀ : Session κ} (admits : M.Admits w) (fresh : w₀.Fresh M.engine)
    (quiet : ¬ (w₀.engine M.engine).scheduler.Loud) (moment : Session.Moment w₀ w)
    (once : w.setUps M.engine = w₀.setUps M.engine) (policy : (w₀.engine M.engine).scheduler.policy = M.policy)
    (unforced : ∀ key, .notified M.engine key ∉ w.history M.engine)
    (undeferred : ∀ key ∈ (w.engine M.engine).scheduler.pending, key ∉ openPasses (w.history M.engine) →
      key ∉ (w.engine M.engine).scheduler.deferred) : M.Ready w := by
  obtain ⟨ps, steps⟩ := moment.steps M.engine
  exact admits.ready_of_steps fresh quiet steps once policy unforced undeferred

end Manners

end ReactiveScopes
