import ReactiveScopes.Proofs.Conduct.Passes
import ReactiveScopes.Proofs.Contract
import ReactiveScopes.Proofs.Placement

/-!
# The data of a scope

The record of a scope whose data share no cell with each other. What the library does around a write leaves
them alone: it marks, posts and runs passes, and the client code that it calls for that does not write them.
-/
namespace ReactiveScopes

open Eff Datum

variable {κ α β : Type}

/-- What cannot be undone by changes that leave every cell as it is. -/
def Store.Lasting (P : Store → Prop) : Prop :=
  ∀ {s s' : Store}, P s → (∀ {r c}, s.cell? r = some c → s'.cell? r = some c) → P s'

/-- The data of a record that reports to a scope stand in the store, each list and each dictionary in one
place only. -/
structure Store.Bears (s : Store) (e : Nat) (a record : Value) (n : Placed) : Prop where
  root : ∃ data keys cs, n = .branch data (.dict keys) cs ∧ s.record? record = some (data, .schedule e a)
  stands : n.Stands s
  single : n.refs.Nodup

theorem Store.bears_lasting (e : Nat) (a record : Value) (n : Placed) :
    Store.Lasting fun s => s.Bears e a record n := by
  intro s s' ⟨⟨data, keys, cs, hn, hr⟩, stands, single⟩ kept
  refine ⟨⟨data, keys, cs, hn, ?_⟩, stands.lasts kept, single⟩
  obtain ⟨r, rfl, hc⟩ := Store.look_of_record? hr
  simp [Store.record?, Store.look, kept hc]

namespace Session

/-- A scope has a record whose data stand in the store. -/
structure Bears (w : Session κ) (e : Nat) (a record : Value) (n : Placed) : Prop where
  named : a.isNone = false
  held : (w.engine e).records.get? a = some record
  store : w.store.Bears e a record n

/-- Something is known of a session, a scope has its record, and something holds of the store. -/
structure Upholds (known : Session κ → Prop) (e : Nat) (a record : Value) (P : Store → Prop)
    (w : Session κ) : Prop where
  known : known w
  held : (w.engine e).records.get? a = some record
  store : P w.store

/-- The data of a scope are looked after. -/
abbrev Minds (known : Session κ → Prop) (e : Nat) (a record : Value) (n : Placed) : Session κ → Prop :=
  Upholds known e a record fun s => s.Bears e a record n

end Session

/-- What is decided about a scheduler when it is made, and who watches. -/
def Scheduler.fixed (s : Scheduler) :
    List Value × Reentrancy × Bool × Option (Option Fn) × Table Value (List Value) :=
  (s.names, s.policy, s.debug, s.describe, s.watchers)

/-- What is known of a session, and stays known whatever the library does as it stores, marks, posts and runs
passes of a scope: the watchers of the scope and the sink are callables of certain kinds. -/
structure Setting (e : Nat) (a : Value) (known : Session κ → Prop) (quiet posts : Value → Prop) : Prop where
  watchers : ∀ {w f}, known w → f ∈ (w.engine e).scheduler.watchersOf a → quiet f
  sink : ∀ {w p}, known w → (w.engine e).queue.sink = some p → posts (.fn p)
  calm : ∀ {w f}, known w → (w.engine e).scheduler.describe ≠ some (some f)
  having : ∀ {w} s, known w → known (w.having s)
  logged : ∀ {w} ev, known w → known (w.logged ev)
  closing : ∀ {w}, known w → known (w.closing (.pass e a))
  reschedule : ∀ {w f}, (∀ s, (f s).fixed = s.fixed) → known w → known (w.reschedule e f)
  requeue : ∀ {w} f, known w → known (w.requeue e fun q => { q with posted := q.posted ++ [f] })
  soon : ∀ {w} (entry : Ready), known w →
    known { w with loop := w.loop.map fun l => { l with ready := l.ready ++ [entry] } }

/-- Client code that does not write the data of a scope: quiet callables leave them where they are, and those
that posts go to change no data at all. -/
structure Env.Peaceful (env : Env κ) (e : Nat) (a record : Value) (known : Session κ → Prop)
    (quiet posts : Value → Prop) : Prop where
  quietly : ∀ {f w n} args, quiet f → known w → w.Bears e a record n →
    known (env.call f args w).2 ∧ (env.call f args w).2.Bears e a record n
  takesOver : ∀ {f w} args, posts f → known w → (w.engine e).records.get? a = some record →
    known (env.call f args w).2 ∧ ((env.call f args w).2.engine e).records.get? a = some record ∧
      ∀ {r c}, w.store.cell? r = some c → (env.call f args w).2.store.cell? r = some c

namespace Keeps

/-- Ending in any way. -/
abbrev loose : Terms := ⟨fun _ => True, True, False⟩

variable {I : Session κ → Prop} {env : Env κ}

theorem of_kept {m : Eff κ α} (h : ∀ w, I w → I (m env w).2) : Keeps I loose env m where
  meets w hw := by
    refine ⟨h w hw, ?_⟩
    cases (m env w).1 <;> trivial
  blind := False.elim

theorem kept (m : Eff κ α) [h : Keeps I loose env m] {w : Session κ} (hw : I w) : I (m env w).2 :=
  (h.meets w hw).kept

instance {m : Eff κ α} [h : Keeps I loose env m] : Keeps I loose env m.attempt := h.attempt id id

instance {m : Eff κ α} {p : Fault → Bool} {handle : Fault → Eff κ α} [h : Keeps I loose env m]
    [hh : ∀ f, Keeps I loose env (handle f)] : Keeps I loose env (Eff.contain m p handle) :=
  h.contain (fun _ _ _ => trivial) id id hh

instance (f : Fault) : Keeps I loose env (Eff.raise f : Eff κ α) := raise trivial

instance (r : Except Fault α) : Keeps I loose env (ofExcept r : Eff κ α) := by
  cases r with
  | ok a => exact inferInstanceAs (Keeps I loose env (pure a))
  | error f => exact inferInstanceAs (Keeps I loose env (Eff.raise f))

instance : Keeps I loose env (exhaust : Eff κ α) := of_kept fun _ hw => hw

instance (f : Session κ → α) : Keeps I loose env (Eff.read f) := of_kept fun _ hw => hw

instance (v : Value) : Keeps I loose env (truthy v : Eff κ Bool) := of_kept fun _ hw => hw

end Keeps

/-- A scope that has a record of its own is where looking for one ends. -/
theorem Scope.find_own {e : Nat} {a record : Value} {w : Session κ} (env : Env κ) (named : a.isNone = false)
    (held : (w.engine e).records.get? a = some record) :
    find e a env w = (.exhausted, w) ∨ find e a env w = (.value (some (a, record)), w) := by
  change findFrom e env.budget [] a env w = _ ∨ findFrom e env.budget [] a env w = _
  cases env.budget with
  | zero => exact .inl rfl
  | succ n =>
    refine .inr ?_
    unfold findFrom
    rw [if_neg (by simp [named]), bind_engine, held]
    rfl

namespace Setting

open Keeps

variable {env : Env κ} {known : Session κ → Prop} {e : Nat} {a record : Value} {P : Store → Prop}
  {quiet posts : Value → Prop}

section Bookkeeping

variable (env record P) (setting : Setting e a known quiet posts)

include setting

theorem keeps_log (ev : Event) : Keeps (Session.Upholds known e a record P) loose env (log ev) :=
  of_kept fun _ hw => ⟨setting.logged ev hw.known, hw.held, hw.store⟩

theorem keeps_modify {f : Scheduler → Scheduler} (hf : ∀ s, (f s).fixed = s.fixed) :
    Keeps (Session.Upholds known e a record P) loose env (Scheduler.modify e f) :=
  of_kept fun w hw => by
    refine ⟨setting.reschedule hf hw.known, ?_, hw.store⟩
    change ((w.reschedule e f).engine e).records.get? a = some record
    simp [Session.reschedule, hw.held]

theorem keeps_close : Keeps (Session.Upholds known e a record P) loose env (close (.pass e a)) :=
  of_kept fun _ hw => ⟨setting.closing hw.known, hw.held, hw.store⟩

theorem keeps_soon (entry : Ready) :
    Keeps (Session.Upholds known e a record P) loose env (Queue.soon entry) :=
  of_kept fun _ hw => ⟨setting.soon entry hw.known, hw.held, hw.store⟩

theorem keeps_queue (f : Value) : Keeps (Session.Upholds known e a record P) loose env
    (Queue.modify e fun q => { q with posted := q.posted ++ [f] }) :=
  of_kept fun w hw => by
    refine ⟨setting.requeue f hw.known, ?_, hw.store⟩
    have same : ((w.requeue e fun q => { q with posted := q.posted ++ [f] }).engine e).records =
        (w.engine e).records := by
      simp [Session.requeue]
    exact (congrArg (·.get? a) same).trans hw.held

variable {env record P} (lasting : Store.Lasting P)

include lasting

variable (env record) in
theorem keeps_alloc (c : Cell) : Keeps (Session.Upholds known e a record P) loose env (alloc c) :=
  of_kept fun w hw => by
    refine ⟨setting.having _ hw.known, hw.held, lasting hw.store fun {r d} hr => ?_⟩
    change (w.store.alloc c).2.cell? r = some d
    rw [Store.cell?_alloc_old (Array.getElem?_eq_some_iff.1 hr).1, hr]

variable (peaceful : env.Peaceful e a record known quiet posts)

include peaceful

theorem keeps_post (f : Value) :
    Keeps (Session.Upholds known e a record P) loose env (Queue.post e f) := by
  have := setting.keeps_log env record P
  have := setting.keeps_soon env record P
  have := setting.keeps_queue env record P
  unfold Queue.post
  refine bind fun _ => bind_engine fun w hw => bind fun l => ?_
  split
  · next p hp =>
    have : Keeps (Session.Upholds known e a record P) loose env (callFn p [f]) := of_kept fun w' hw' => by
      obtain ⟨hknown, hheld, hkept⟩ :=
        peaceful.takesOver [f] (setting.sink hw.known hp) hw'.known hw'.held
      exact ⟨hknown, hheld, lasting hw'.store hkept⟩
    infer_instance
  · infer_instance
  · infer_instance

theorem keeps_enqueue :
    Keeps (Session.Upholds known e a record P) loose env (Scheduler.enqueue e a) := by
  have := setting.keeps_close env record P
  have := setting.keeps_post lasting peaceful
  have := setting.keeps_modify env record P
    (f := fun s => { s with pending := insertKey a s.pending }) fun _ => rfl
  have := setting.keeps_modify env record P
    (f := fun s => { s with deferred := insertKey a s.deferred }) fun _ => rfl
  have : Keeps (Session.Upholds known e a record P) loose env (Scheduler.scheduler e) :=
    inferInstanceAs (Keeps _ _ _ (engine e >>= _))
  unfold Scheduler.enqueue
  infer_instance

/-- Reporting a write changes no cell. -/
theorem keeps_request :
    Keeps (Session.Upholds known e a record P) loose env (Scheduler.request e a) := by
  have := setting.keeps_log env record P
  have := setting.keeps_enqueue lasting peaceful
  unfold Scheduler.request
  infer_instance

end Bookkeeping

section Passes

variable {n : Placed} (setting : Setting e a known quiet posts)
  (peaceful : env.Peaceful e a record known quiet posts) (named : a.isNone = false)

include setting peaceful named

theorem keeps_callWatchers {fs : List Value} (hfs : ∀ f ∈ fs, quiet f) :
    Keeps (Session.Minds known e a record n) loose env
      (Scheduler.callWatchers e a fs) := by
  have := setting.keeps_log env record (·.Bears e a record n)
  have (x : Notice) : Keeps (Session.Minds known e a record n) loose env
      (notice x) :=
    setting.keeps_log _ _ _ (.notice x)
  induction fs with
  | nil => unfold Scheduler.callWatchers; infer_instance
  | cons f fs ih =>
    have := ih fun g hg => hfs g (List.mem_cons_of_mem f hg)
    have : Keeps (Session.Minds known e a record n) loose env
        (callValue f []) := of_kept fun w hw => by
      unfold callValue
      split
      · obtain ⟨hknown, hbears⟩ :=
          peaceful.quietly [] (hfs f List.mem_cons_self) hw.known ⟨named, hw.held, hw.store⟩
        exact ⟨hknown, hbears.held, hbears.store⟩
      · exact hw
    unfold Scheduler.callWatchers
    infer_instance

theorem keeps_runPass {fs : List Value} (hfs : ∀ f ∈ fs, quiet f) :
    Keeps (Session.Minds known e a record n) loose env
      (Scheduler.runPass e a fs) := by
  have := setting.keeps_log env record (·.Bears e a record n)
  have := setting.keeps_callWatchers (n := n) peaceful named hfs
  have := setting.keeps_enqueue (Store.bears_lasting e a record n) peaceful
  have := setting.keeps_modify env record (·.Bears e a record n)
    (f := fun s => { s with running := insertKey a s.running }) fun _ => rfl
  have := setting.keeps_modify env record (·.Bears e a record n)
    (f := fun s => { s with running := eraseKey a s.running }) fun _ => rfl
  have := setting.keeps_modify env record (·.Bears e a record n)
    (f := fun s => { s with deferred := eraseKey a s.deferred }) fun _ => rfl
  have : Keeps (Session.Minds known e a record n) loose env
      (Scheduler.scheduler e) :=
    inferInstanceAs (Keeps _ _ _ (engine e >>= _))
  unfold Scheduler.runPass
  refine bind fun _ => bind fun _ => bind fun _ => bind fun _ => ?_
  infer_instance

variable (env record n) in
omit peaceful named in
theorem keeps_trace :
    Keeps (Session.Minds known e a record n) loose env
      (Scheduler.trace e a) := by
  have (x : Notice) : Keeps (Session.Minds known e a record n) loose env
      (notice x) :=
    setting.keeps_log _ _ _ (.notice x)
  have := setting.keeps_modify env record (·.Bears e a record n)
    (f := fun s => { s with tracing := (a, none) :: s.tracing }) fun _ => rfl
  have := setting.keeps_modify env record (·.Bears e a record n)
    (f := fun s => { s with tracing := s.tracing.tail }) fun _ => rfl
  have := setting.keeps_alloc env record (Store.bears_lasting e a record n)
  have : Keeps (Session.Minds known e a record n) loose env
      (Scheduler.scheduler e) :=
    inferInstanceAs (Keeps _ _ _ (engine e >>= _))
  have : Keeps (Session.Minds known e a record n) loose env
      (Scheduler.shownState e a) := by
    unfold Scheduler.shownState
    refine bind_engine fun w hw => ?_
    split
    · next hd => exact absurd hd (setting.calm hw.known)
    · infer_instance
    · refine bind fun s => ?_
      split <;> infer_instance
  unfold Scheduler.trace
  refine bind fun s => ?_
  split
  · infer_instance
  · refine bind fun _ => bind fun shown => bind fun s => ?_
    infer_instance

theorem keeps_notify :
    Keeps (Session.Minds known e a record n) loose env
      (Scheduler.notify e a) := by
  have := setting.keeps_log env record (·.Bears e a record n)
  have := setting.keeps_trace env record n
  have : Keeps (Session.Minds known e a record n) loose env
      (Scheduler.scheduler e) :=
    inferInstanceAs (Keeps _ _ _ (engine e >>= _))
  unfold Scheduler.notify
  refine bind fun s => ?_
  split
  · infer_instance
  · refine bind_given fun fs hfs => ?_
    obtain ⟨w, hw, hfs⟩ := hfs
    have calm : ¬ (w.board e).scheduler.Loud := by
      rintro ⟨_, _, hd⟩
      exact setting.calm hw.known hd
    obtain ⟨w', traced, _⟩ := Follows.trace_quiet a calm
    rw [traced env] at hfs
    cases hfs
    exact setting.keeps_runPass peaceful named fun f hf => setting.watchers hw.known hf

theorem keeps_flush :
    Keeps (Session.Minds known e a record n) loose env
      (Scope.flush e a) := by
  have := setting.keeps_notify (n := n) peaceful named
  have := setting.keeps_modify env record (·.Bears e a record n)
    (f := fun s => { s with pending := eraseKey a s.pending }) fun _ => rfl
  have : Keeps (Session.Minds known e a record n) loose env
      (Scheduler.scheduler e) :=
    inferInstanceAs (Keeps _ _ _ (engine e >>= _))
  have flush : Keeps (Session.Minds known e a record n) loose env
      (Scheduler.flush e a) := by
    unfold Scheduler.flush
    infer_instance
  refine of_kept fun w hw => ?_
  unfold Scope.flush
  rcases Scope.find_own env named hw.held with found | found
  · rw [show (Scope.find e a >>= _) env w = (.exhausted, w) from by
      change Eff.bind _ _ env w = _
      unfold Eff.bind
      rw [found]]
    exact hw
  · rw [bind_value found]
    exact (flush.meets w hw).kept

end Passes

end Setting

end ReactiveScopes
