import ReactiveScopes.Queue
import ReactiveScopes.Store.Comparison

/-!
# Passes

A reported write marks its key pending and posts one callback; further writes find the mark and do
nothing. The callback, or a flush before it, runs one pass: every watcher of the key once, in the order
of registration. Requests for a key whose pass is running are ignored or deferred to one more pass,
and never start one inside it.
-/
namespace ReactiveScopes

/-- Adds a key to a set of keys. -/
def insertKey {α : Type} [BEq α] (k : α) (ks : List α) : List α :=
  if ks.contains k then ks else ks ++ [k]

/-- Removes a key from a set of keys. -/
def eraseKey {α : Type} [BEq α] (k : α) (ks : List α) : List α := ks.filter (· != k)

section Keys

variable {α : Type} [BEq α] [LawfulBEq α]

@[simp]
theorem mem_insertKey {k x : α} {ks : List α} : x ∈ insertKey k ks ↔ x = k ∨ x ∈ ks := by
  unfold insertKey
  split
  · next h =>
    have hk : k ∈ ks := List.contains_iff_mem.1 h
    exact ⟨Or.inr, fun hx => hx.elim (fun e => e ▸ hk) id⟩
  · simp [or_comm]

@[simp]
theorem mem_eraseKey {k x : α} {ks : List α} : x ∈ eraseKey k ks ↔ x ∈ ks ∧ x ≠ k := by
  simp [eraseKey]

theorem eraseKey_insertKey {k : α} {ks : List α} (h : k ∉ ks) : eraseKey k (insertKey k ks) = ks := by
  have kept : eraseKey k ks = ks := List.filter_eq_self.2 fun x hx => by
    simpa using fun he : x = k => h (he ▸ hx)
  unfold insertKey
  rw [if_neg (by simpa using h)]
  simpa [eraseKey] using kept

theorem length_eraseKey_lt {k : α} {ks : List α} (h : k ∈ ks) : (eraseKey k ks).length < ks.length :=
  List.length_filter_lt_length_iff_exists.2 ⟨k, h, by simp⟩

end Keys

namespace Scheduler

/-- The watchers of a key, in the order their registrations began. -/
def watchersOf (s : Scheduler) (key : Value) : List Value := (s.watchers.get? key).getD []

/-- Registers a watcher; one that is still registered keeps its place. -/
def addWatcher (s : Scheduler) (key : Value) (f : Value) : Scheduler :=
  { s with watchers := s.watchers.insert key (insertKey f (s.watchersOf key)) }

def removeWatcher (s : Scheduler) (key : Value) (f : Value) : Scheduler :=
  match s.watchers.get? key with
  | none => s
  | some fs => { s with watchers := s.watchers.insert key (eraseKey f fs) }

/-- Forgets everything about a key but a pass that is running or about to. -/
def drop (s : Scheduler) (key : Value) : Scheduler :=
  { s with watchers := s.watchers.erase key, pending := eraseKey key s.pending
           deferred := eraseKey key s.deferred
           tracing := s.tracing.map fun (k, fs) =>
            (k, if k = key then fs.or (some (s.watchersOf key)) else fs) }

section Watchers

variable {s : Scheduler} {key k f : Value}

theorem watchersOf_addWatcher (s : Scheduler) (key f k : Value) :
    (s.addWatcher key f).watchersOf k = if key = k then insertKey f (s.watchersOf k) else s.watchersOf k := by
  unfold addWatcher watchersOf
  rw [Table.get?_insert]
  split
  · next hk => simp [hk]
  · rfl

theorem mem_watchersOf_addWatcher {g : Value} :
    g ∈ (s.addWatcher key f).watchersOf k ↔ k = key ∧ g = f ∨ g ∈ s.watchersOf k := by
  rw [watchersOf_addWatcher]
  split
  · next hk => simp [hk]
  · next hk => simp [Ne.symm hk]

theorem watchersOf_removeWatcher (s : Scheduler) (key f k : Value) :
    (s.removeWatcher key f).watchersOf k = if k = key then eraseKey f (s.watchersOf k) else s.watchersOf k := by
  unfold removeWatcher watchersOf
  split
  · next hn =>
    split
    · next hk => simp [hk, hn, eraseKey]
    · rfl
  · next fs hs =>
    rw [Table.get?_insert]
    by_cases hk : key = k
    · subst hk
      simp [hs]
    · simp [hk, Ne.symm hk]

theorem watchersOf_removeWatcher_subset : (s.removeWatcher key f).watchersOf k ⊆ s.watchersOf k := by
  intro g hg
  rw [watchersOf_removeWatcher] at hg
  split at hg
  · exact (mem_eraseKey.1 hg).1
  · exact hg

/-- Taking out a watcher that is not registered changes nothing. -/
theorem removeWatcher_absent (h : f ∉ s.watchersOf key) : s.removeWatcher key f = s := by
  unfold removeWatcher
  split
  · rfl
  · next fs hs =>
    have habsent : f ∉ fs := by simpa [watchersOf, hs] using h
    have kept : eraseKey f fs = fs := by
      refine List.filter_eq_self.2 fun x hx => ?_
      simpa using fun he : x = f => habsent (he ▸ hx)
    rw [kept, Table.insert_self hs]

theorem watchersOf_drop : (s.drop key).watchersOf k = if key = k then [] else s.watchersOf k := by
  unfold drop watchersOf
  rw [Table.get?_erase]
  split <;> rfl

/-- Taking out a watcher changes nothing but who is registered. -/
theorem removeWatcher_eq (s : Scheduler) (key f : Value) :
    s.removeWatcher key f = { s with watchers := (s.removeWatcher key f).watchers } := by
  unfold removeWatcher
  split <;> rfl

@[simp]
theorem pending_removeWatcher (s : Scheduler) (key f : Value) : (s.removeWatcher key f).pending = s.pending := by
  rw [removeWatcher_eq]

@[simp]
theorem deferred_removeWatcher (s : Scheduler) (key f : Value) : (s.removeWatcher key f).deferred = s.deferred := by
  rw [removeWatcher_eq]

@[simp]
theorem running_removeWatcher (s : Scheduler) (key f : Value) : (s.removeWatcher key f).running = s.running := by
  rw [removeWatcher_eq]

end Watchers

open Eff

variable {κ : Type}

def modify (e : Nat) (f : Scheduler → Scheduler) : Eff κ Unit :=
  modifyEngine e fun x => { x with scheduler := f x.scheduler }

def scheduler (e : Nat) : Eff κ Scheduler := do return (← engine e).scheduler

theorem bind_scheduler {β : Type} {env : Env κ} {w : Session κ} (e : Nat) (k : Scheduler → Eff κ β) :
    (scheduler e >>= k) env w = k (w.engine e).scheduler env w := rfl

/-- Sees to it that a pass of `key` comes, or is left to the running one. -/
def enqueue (e : Nat) (key : Value) : Eff κ Unit := do
  let s ← scheduler e
  if s.running.contains key then
    if s.policy = .defer then modify e fun s => { s with deferred := insertKey key s.deferred }
  else if s.pending.contains key then return ()
  else
    modify e fun s => { s with pending := insertKey key s.pending }
    Queue.post e (.fn (← close (.pass e key)))

/-- A write to `key` is reported. -/
def request (e : Nat) (key : Value) : Eff κ Unit := do
  log (.requested e key)
  enqueue e key

/-- What a trace shows of a key. -/
def shownState (e : Nat) (key : Value) : Eff κ Value := do
  let x ← engine e
  match x.scheduler.describe with
  | some (some f) => callFn f [key]
  | some none => return .none
  | none =>
    match (x.records.get? key).bind (← store).mapping? with
    | some data => alloc (.dict data)
    | none => return .none

/-- With tracing on, reports a pass before it begins. Answers the watchers it is for. -/
def trace (e : Nat) (key : Value) : Eff κ (List Value) := do
  let s ← scheduler e
  if !s.debug then return s.watchersOf key
  else
    modify e fun s => { s with tracing := (key, none) :: s.tracing }
    let shown ← attempt (shownState e key)
    let s ← scheduler e
    let watchers := match s.tracing with
      | (_, some fs) :: _ => fs
      | _ => s.watchersOf key
    modify e fun s => { s with tracing := s.tracing.tail }
    let state ← ofExcept shown
    notice (.pass watchers.length state (← store))
    return watchers

/-- Calls watchers in order. What one of them raises is reported and does not reach the others. -/
def callWatchers (e : Nat) (key : Value) : List Value → Eff κ Unit
  | [] => return ()
  | f :: fs => do
    log (.watcherCalled e key f)
    contain (do let _ ← callValue f []) Fault.isError fun fault => notice (.watcherFailed fault)
    callWatchers e key fs

/-- Runs a pass of `key` for the given watchers, and afterwards sees to the one more that was deferred to
its end. -/
def runPass (e : Nat) (key : Value) (watchers : List Value) : Eff κ Unit := do
  log (.passBegan e key watchers)
  modify e fun s => { s with running := insertKey key s.running }
  let called ← attempt (callWatchers e key watchers)
  modify e fun s => { s with running := eraseKey key s.running }
  log (.passEnded e key (fault? called))
  ofExcept called
  if (← scheduler e).deferred.contains key then
    modify e fun s => { s with deferred := eraseKey key s.deferred }
    enqueue e key

/-- Runs a pass of `key` for the watchers registered now. -/
def notify (e : Nat) (key : Value) : Eff κ Unit := do
  match (← scheduler e).watchersOf key with
  | [] =>
    log (.passBegan e key [])
    log (.passEnded e key none)
  | _ => do runPass e key (← trace e key)

/-- Runs a pass of `key` whether or not one is pending. -/
def force (e : Nat) (key : Value) : Eff κ Unit := do
  log (.notified e key)
  notify e key

/-- Runs the pass of `key` if one is pending. -/
def flush (e : Nat) (key : Value) : Eff κ Unit := do
  if (← scheduler e).pending.contains key then
    modify e fun s => { s with pending := eraseKey key s.pending }
    notify e key

def register (e : Nat) (key : Value) (f : Value) : Eff κ Unit := do
  log (.watched e key f)
  modify e fun s => s.addWatcher key f

/-- Registers a watcher and answers the callable that removes it. -/
def watch (e : Nat) (key : Value) (f : Value) : Eff κ Fn := do
  let f := f.unmarked
  register e key f
  close (.unsubscribe e key f)

def forget (e : Nat) (key : Value) : Eff κ Unit := do
  log (.dropped e key)
  modify e fun s => s.drop key

/-- A key of client code, or the one equal to it that came first. -/
def named (e : Nat) (key : Value) : Eff κ Value := do
  let s ← store
  if !s.isKey key then raise .unsupported
  else
    match ← ofExcept (Store.findKey s.sameKey key (← scheduler e).names) with
    | some known => return known
    | none =>
      modify e fun s => { s with names := s.names ++ [key] }
      return key

/-- What client code can ask of a scheduler; `filed` says under which keys its own ones are filed. -/
def perform (e : Nat) (filed : Value → Value) : SchedulerOp → Eff κ Value
  | .addWatcher key f => do
    let key ← named e key
    if (← store).isKey f then return .fn (← watch e (filed key) f) else raise .unsupported
  | .request key => do request e (filed (← named e key)); return .none
  | .flush key => do flush e (filed (← named e key)); return .none
  | .notify key => do force e (filed (← named e key)); return .none
  | .drop key => do forget e (filed (← named e key)); return .none
  | .watcherCount key => do return .int ((← scheduler e).watchersOf (filed (← named e key))).length
  | .isPending key => do return .bool ((← scheduler e).pending.contains (filed (← named e key)))
  | .pendingCount => do return .int (← scheduler e).pending.length
  | .policy => do return .constant (← scheduler e).policy.constant

end Scheduler

end ReactiveScopes
