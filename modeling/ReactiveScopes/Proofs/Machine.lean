import Mathlib.Data.List.Forall2
import Mathlib.Data.List.ReduceOption
import Mathlib.Logic.Relation
import ReactiveScopes.Proofs.History

/-!
# The machine behind an engine

What one engine's scheduler and queue go through while anything at all runs, one move at a time. A
scene is the engine's side of a session together with the passes in progress and the callback that has
been taken from the queue and not yet run. The moves that matter are the scheduler's own; all the rest
of the library only makes callables, pauses apps, and switches threads and loops. A loop that runs is still to run
whatever was handed to it, unless it takes that up.
-/
namespace ReactiveScopes

/-- What concerns one engine, and what all of them share. -/
structure Board where
  scheduler : Scheduler
  queue : Queue
  closures : Array Closure
  /-- What happened since the engine was set up, and how many times it has been. -/
  history : List Event
  setUps : Nat
  /-- The loop that runs on this thread, those of the threads that wait for it, and how many have been
  started. -/
  loop : Option Loop
  outer : List (Option Loop)
  started : Nat
  /-- The apps that are paused, and the contexts entered and left so far. -/
  paused : List Value
  doors : List Door

/-- A pass in progress and the watchers it has still to call; `none` before it has begun, while client
code traces it. -/
structure OpenPass where
  key : Value
  rest : Option (List Value)

structure Scene where
  board : Board
  passes : List OpenPass
  due : Option Value

/-- The loop has still to call whatever it had to call. -/
structure Loop.Keeps (l l' : Loop) : Prop where
  number : l'.number = l.number
  calls : ∀ {f}, .call f ∈ l.ready → .call f ∈ l'.ready

theorem Loop.Keeps.refl (l : Loop) : l.Keeps l := ⟨rfl, id⟩

theorem Loop.Keeps.all (ls : List Loop) : List.Forall₂ Keeps ls ls :=
  List.forall₂_same.2 fun l _ => .refl l

/-- An entry that is added comes after the callbacks. -/
theorem Loop.Keeps.add (l : Loop) (entry : Ready) : l.Keeps { l with ready := l.ready ++ [entry] } :=
  ⟨rfl, List.mem_append_left _⟩

/-- The loops that run before a move and after it, with the number of those started so far: some may
have ended, and one may have begun. -/
inductive Shift (ls : List Loop) (n : Nat) : List Loop → Nat → Prop where
  | keep {ms ls'} (hm : ms.Sublist ls) (h : List.Forall₂ Loop.Keeps ms ls') : Shift ls n ls' n
  | start {ls'} (h : ls'.Sublist ls) : Shift ls n ({ number := n } :: ls') (n + 1)

theorem Shift.numbers {ls ls' : List Loop} {n n' : Nat} (h : Shift ls n ls' n') :
    (n' = n ∧ (ls'.map Loop.number).Sublist (ls.map Loop.number)) ∨
    (n' = n + 1 ∧ ∃ ns, ls'.map Loop.number = n :: ns ∧ ns.Sublist (ls.map Loop.number)) := by
  cases h with
  | @keep ms _ hm h =>
    have hn : ls'.map Loop.number = ms.map Loop.number := by
      clear hm
      induction h with
      | nil => rfl
      | cons h _ ih => rw [List.map_cons, List.map_cons, h.number, ih]
    exact .inl ⟨rfl, hn ▸ hm.map _⟩
  | start h => exact .inr ⟨rfl, _, rfl, h.map _⟩

/-- A loop that runs goes on from one that did, or it is new. -/
theorem Shift.known {ls ls' : List Loop} {n n' : Nat} (h : Shift ls n ls' n') {l : Loop}
    (hl : l ∈ ls') : (∃ x ∈ ls, x.Keeps l) ∨ l.number = n := by
  cases h with
  | @keep ms _ hm h =>
    refine .inl ?_
    have known : ∃ x ∈ ms, x.Keeps l := by
      clear hm
      induction h with
      | nil => cases hl
      | cons h _ ih =>
        rcases List.mem_cons.1 hl with rfl | hl
        · exact ⟨_, List.mem_cons_self, h⟩
        · obtain ⟨x, hx, hk⟩ := ih hl
          exact ⟨x, List.mem_cons_of_mem _ hx, hk⟩
    obtain ⟨x, hx, hk⟩ := known
    exact ⟨x, hm.subset hx, hk⟩
  | start h =>
    rcases List.mem_cons.1 hl with rfl | hl
    · exact .inr rfl
    · exact .inl ⟨l, h.subset hl, .refl l⟩

/-- The loop of this thread goes on. -/
theorem Shift.current {l : Option Loop} (o : List (Option Loop)) (n : Nat) {g : Loop → Loop}
    (hg : ∀ l : Loop, l.Keeps (g l)) :
    Shift (l :: o).reduceOption n (l.map g :: o).reduceOption n := by
  refine .keep (.refl _) ?_
  cases l with
  | none => exact Loop.Keeps.all _
  | some l => exact .cons (hg l) (Loop.Keeps.all _)

namespace Board

@[simp]
def note (b : Board) (ev : Event) : Board := { b with history := ev :: b.history }

@[simp]
def reschedule (b : Board) (f : Scheduler → Scheduler) : Board := { b with scheduler := f b.scheduler }

@[simp]
def close (b : Board) (c : Closure) : Board := { b with closures := b.closures.push c }

@[simp]
def through (b : Board) (d : Door) : Board :=
  { b with paused := d.pass b.paused, doors := d :: b.doors }

def runsPass (b : Board) (e : Nat) (key f : Value) : Prop :=
  ∃ n, f = .fn (.made n) ∧ b.closures[n]? = some (.pass e key)

/-- The same, decided. -/
def runs (b : Board) (e : Nat) (key f : Value) : Bool :=
  match f with
  | .fn (.made n) =>
    match b.closures[n]? with
    | some (.pass e' k) => e' == e && k == key
    | _ => false
  | _ => false

/-- All loops that run. -/
def live (b : Board) : List Loop := (b.loop :: b.outer).reduceOption

def numbers (b : Board) : List Nat := b.live.map Loop.number

def Loopless (b : Board) : Prop := b.numbers = []

/-- What is told of a callback that the running loop takes over. -/
def handing (b : Board) (e : Nat) (f : Value) : List Event :=
  if b.queue.sink.isNone then b.loop.toList.map fun l => .handed e f l.number else []

/-- After a post; a sink has still to be told. -/
@[simp]
def posting (b : Board) (e : Nat) (f : Value) : Board :=
  { b with
    history := b.handing e f ++ .posted e f :: b.history
    queue := if b.queue.sink.isNone && b.loop.isNone then
        { b.queue with posted := b.queue.posted ++ [f] }
      else b.queue
    loop := if b.queue.sink.isNone then
        b.loop.map fun l => { l with ready := l.ready ++ [.call f] }
      else b.loop }

/-- Marks a key and posts the callback for its pass. -/
@[simp]
def announce (b : Board) (e : Nat) (key : Value) : Board :=
  ((b.reschedule fun s => { s with pending := insertKey key s.pending }).close (.pass e key)).posting e
    (.fn (.made b.closures.size))

def enqueue (b : Board) (e : Nat) (key : Value) : Board :=
  if key ∈ b.scheduler.running then
    if b.scheduler.policy = .defer then
      b.reschedule fun s => { s with deferred := insertKey key s.deferred }
    else b
  else if key ∈ b.scheduler.pending then b
  else b.announce e key

def request (b : Board) (e : Nat) (key : Value) : Board := (b.note (.requested e key)).enqueue e key

@[simp]
def unmark (b : Board) (key : Value) : Board :=
  b.reschedule fun s => { s with pending := eraseKey key s.pending }

/-- A pass begins that is going to call the given watchers. -/
@[simp]
def openPass (b : Board) (e : Nat) (key : Value) (fs : List Value) (ps : List OpenPass) : Scene :=
  ⟨(b.note (.passBegan e key fs)).reschedule fun s => { s with running := insertKey key s.running },
    ⟨key, some fs⟩ :: ps, none⟩

/-- A pass begins for the watchers registered now. One that finds none is over at once. -/
def beginPass (b : Board) (e : Nat) (key : Value) (ps : List OpenPass) : Scene :=
  match b.scheduler.watchersOf key with
  | [] => ⟨(b.note (.passBegan e key [])).note (.passEnded e key none), ps, none⟩
  | fs => b.openPass e key fs ps

/-- A pass leaves the running ones. -/
@[simp]
def leavePass (b : Board) (e : Nat) (key : Value) (fault : Option Fault) : Board :=
  (b.reschedule fun s => { s with running := eraseKey key s.running }).note (.passEnded e key fault)

/-- A pass has called all its watchers. -/
def finishPass (b : Board) (e : Nat) (key : Value) : Board :=
  let b := b.leavePass e key none
  if key ∈ b.scheduler.deferred then
    (b.reschedule fun s => { s with deferred := eraseKey key s.deferred }).enqueue e key
  else b

end Board

/-- One move. Whether a pass is called for by a callback that is due, by a flush or directly is told
apart by what allows it to begin. -/
inductive Step (e : Nat) : Scene → Scene → Prop where
  | close (b ps c) (h : ∀ key, c ≠ .pass e key) : Step e ⟨b, ps, none⟩ ⟨b.close c, ps, none⟩
  | loops (b ps l o n) (h : Shift b.live b.started (l :: o).reduceOption n) :
      Step e ⟨b, ps, none⟩ ⟨{ b with loop := l, outer := o, started := n }, ps, none⟩
  /-- A context in which an app is paused is entered or left. -/
  | door (b ps d) : Step e ⟨b, ps, none⟩ ⟨b.through d, ps, none⟩
  /-- The running loop takes up a callback. -/
  | take (b ps l f rest) (hl : b.loop = some l) (h : l.ready = .call f :: rest) :
      Step e ⟨b, ps, none⟩ ⟨{ b with loop := some { l with ready := rest } }, ps, some f⟩
  | create (b ps s q) :
      Step e ⟨b, ps, none⟩
        ⟨{ b with scheduler := s, queue := q, history := [], setUps := b.setUps + 1 }, ps, none⟩
  | aside (b ps ns ts) :
      Step e ⟨b, ps, none⟩ ⟨b.reschedule fun s => { s with names := ns, tracing := ts }, ps, none⟩
  | addWatcher (b ps key f) :
      Step e ⟨b, ps, none⟩ ⟨(b.note (.watched e key f)).reschedule (·.addWatcher key f), ps, none⟩
  | removeWatcher (b ps key f) : Step e ⟨b, ps, none⟩ ⟨b.reschedule (·.removeWatcher key f), ps, none⟩
  | drop (b ps key) :
      Step e ⟨b, ps, none⟩ ⟨(b.note (.dropped e key)).reschedule (·.drop key), ps, none⟩
  | request (b ps key) : Step e ⟨b, ps, none⟩ ⟨b.request e key, ps, none⟩
  | post (b ps f) : Step e ⟨b, ps, none⟩ ⟨b.posting e f, ps, none⟩
  | drain (b ps d) : Step e ⟨b, ps, none⟩ ⟨{ b with queue := { b.queue with draining := d } }, ps, none⟩
  | pop (b ps f rest) (h : b.queue.posted = f :: rest) :
      Step e ⟨b, ps, none⟩
        ⟨{ b.note (.began e f) with queue := { b.queue with posted := rest } }, ps, some f⟩
  /-- The callback is none for a pass, or comes too late for it. -/
  | skip (b ps f) (h : ∀ key, b.runsPass e key f → key ∉ b.scheduler.pending) :
      Step e ⟨b, ps, some f⟩ ⟨b, ps, none⟩
  | flush (b ps key due) (h : key ∈ b.scheduler.pending) (hd : ∀ f ∈ due, b.runsPass e key f) :
      Step e ⟨b, ps, due⟩ ((b.unmark key).beginPass e key ps)
  | notify (b ps key) : Step e ⟨b, ps, none⟩ ((b.note (.notified e key)).beginPass e key ps)
  /-- Client code is going to run before the pass that is called for begins. -/
  | trace (b ps key due) (h : b.scheduler.Loud) (hd : ∀ f ∈ due, b.runsPass e key f) :
      Step e ⟨b, ps, due⟩ ⟨b.unmark key, ⟨key, none⟩ :: ps, none⟩
  | traceNotified (b ps key) (h : b.scheduler.Loud) :
      Step e ⟨b, ps, none⟩ ⟨b.note (.notified e key), ⟨key, none⟩ :: ps, none⟩
  | traced (b ps key fs) : Step e ⟨b, ⟨key, none⟩ :: ps, none⟩ (b.openPass e key fs ps)
  | traceFailed (b ps key) : Step e ⟨b, ⟨key, none⟩ :: ps, none⟩ ⟨b, ps, none⟩
  | call (b ps key f rest) :
      Step e ⟨b, ⟨key, some (f :: rest)⟩ :: ps, none⟩
        ⟨b.note (.watcherCalled e key f), ⟨key, some rest⟩ :: ps, none⟩
  | finish (b ps key) : Step e ⟨b, ⟨key, some []⟩ :: ps, none⟩ ⟨b.finishPass e key, ps, none⟩
  | breakOff (b ps key rest f) (h : f.isError = false) :
      Step e ⟨b, ⟨key, some rest⟩ :: ps, none⟩ ⟨b.leavePass e key (some f), ps, none⟩

abbrev Steps (e : Nat) : Scene → Scene → Prop := Relation.ReflTransGen (Step e)

variable {e : Nat} {b : Board} {key f : Value}

/-- What tells of a post, or of the loop that takes the callback over. -/
def Event.OfPost : Event → Prop
  | .posted _ _ | .handed _ _ _ => True
  | _ => False

namespace Board

theorem posting_queued (hs : b.queue.sink = none) (hl : b.loop = none) :
    b.posting e f =
      { b.note (.posted e f) with queue := { b.queue with posted := b.queue.posted ++ [f] } } := by
  simp [handing, hs, hl]

theorem posting_handed {l : Loop} (hs : b.queue.sink = none) (hl : b.loop = some l) :
    b.posting e f =
      { (b.note (.posted e f)).note (.handed e f l.number) with
        loop := some { l with ready := l.ready ++ [.call f] } } := by
  simp [handing, hs, hl]

theorem posting_told (h : b.queue.sink ≠ none) : b.posting e f = b.note (.posted e f) := by
  have hs : b.queue.sink.isNone = false := by
    rw [← Bool.not_eq_true, Option.isNone_iff_eq_none]
    exact h
  simp [handing, hs]

/-- What is told of a post: nothing more, or that a loop has the callback. -/
theorem handing_cases (b : Board) (e : Nat) (f : Value) :
    b.handing e f = [] ∨ ∃ n, b.handing e f = [.handed e f n] := by
  unfold handing
  split
  · cases b.loop with
    | none => exact .inl rfl
    | some l => exact .inr ⟨l.number, rfl⟩
  · exact .inl rfl

/-- A post tells of callbacks only. -/
theorem told_posting (b : Board) (e : Nat) (f : Value) :
    ∃ new, (b.posting e f).history = new ++ b.history ∧ ∀ ev ∈ new, ev.OfPost := by
  refine ⟨b.handing e f ++ [.posted e f], by simp, List.forall_mem_append.2 ⟨?_, by simp [Event.OfPost]⟩⟩
  rcases b.handing_cases e f with hh | ⟨n, hh⟩ <;> simp [hh, Event.OfPost]

/-- The loops of the threads that wait are among those that run. -/
theorem outer_sublist (b : Board) : b.outer.reduceOption.Sublist b.live := by
  unfold live
  cases b.loop with
  | none => exact .refl _
  | some l => exact List.sublist_cons_self ..

theorem Loopless.loop (h : b.Loopless) : b.loop = none := by
  unfold Loopless numbers live at h
  cases hl : b.loop with
  | none => rfl
  | some l => simp [hl] at h

theorem suffix_posting (b : Board) (e : Nat) (f : Value) :
    .posted e f :: b.history <:+ (b.posting e f).history := List.suffix_append ..

theorem suffix_announce (b : Board) (e : Nat) (key : Value) :
    .posted e (.fn (.made b.closures.size)) :: b.history <:+ (b.announce e key).history :=
  suffix_posting _ e _

theorem numbers_posting (b : Board) (e : Nat) (f : Value) : (b.posting e f).numbers = b.numbers := by
  unfold numbers live posting
  cases b.loop with
  | none => simp
  | some l => dsimp only; split <;> simp

/-- What becomes of a write: it is left to the running pass or ignored, a callback is there already, or
one is posted. -/
theorem enqueue_cases (b : Board) (e : Nat) (key : Value) :
    (key ∈ b.scheduler.running ∧ b.scheduler.policy = .defer ∧
      b.enqueue e key = b.reschedule fun s => { s with deferred := insertKey key s.deferred }) ∨
    (key ∈ b.scheduler.running ∧ b.scheduler.policy = .skip ∧ b.enqueue e key = b) ∨
    (key ∉ b.scheduler.running ∧ key ∈ b.scheduler.pending ∧ b.enqueue e key = b) ∨
    (key ∉ b.scheduler.running ∧ key ∉ b.scheduler.pending ∧ b.enqueue e key = b.announce e key) := by
  by_cases hr : key ∈ b.scheduler.running
  · cases hp : b.scheduler.policy with
    | defer => exact Or.inl ⟨hr, rfl, by simp [enqueue, hr, hp]⟩
    | skip => exact Or.inr (Or.inl ⟨hr, rfl, by simp [enqueue, hr, hp]⟩)
  · by_cases hp : key ∈ b.scheduler.pending
    · exact Or.inr (Or.inr (Or.inl ⟨hr, hp, by simp [enqueue, hr, hp]⟩))
    · exact Or.inr (Or.inr (Or.inr ⟨hr, hp, by simp [enqueue, hr, hp]⟩))

theorem told_enqueue (b : Board) (e : Nat) (key : Value) :
    ∃ new, (b.enqueue e key).history = new ++ b.history ∧ ∀ ev ∈ new, ev.OfPost := by
  rcases b.enqueue_cases e key with ⟨_, _, h⟩ | ⟨_, _, h⟩ | ⟨_, _, h⟩ | ⟨_, _, h⟩ <;> rw [h]
  · exact ⟨[], rfl, List.forall_mem_nil _⟩
  · exact ⟨[], rfl, List.forall_mem_nil _⟩
  · exact ⟨[], rfl, List.forall_mem_nil _⟩
  · exact told_posting _ e _

theorem running_enqueue (b : Board) (e : Nat) (key : Value) :
    (b.enqueue e key).scheduler.running = b.scheduler.running := by
  rcases b.enqueue_cases e key with ⟨_, _, h⟩ | ⟨_, _, h⟩ | ⟨_, _, h⟩ | ⟨_, _, h⟩ <;> rw [h] <;> rfl

theorem request_of_idle {b : Board} {key : Value} (hp : key ∉ b.scheduler.pending) (hr : key ∉ b.scheduler.running) :
    b.request e key = (b.note (.requested e key)).announce e key := by
  rcases (b.note (.requested e key)).enqueue_cases e key with
    ⟨h, _⟩ | ⟨h, _⟩ | ⟨_, h, _⟩ | ⟨_, _, h⟩
  · exact absurd h hr
  · exact absurd h hr
  · exact absurd h hp
  · exact h

/-- A pass that begins is over at once or open. -/
theorem beginPass_cases (b : Board) (e : Nat) (key : Value) (ps : List OpenPass) :
    b.beginPass e key ps = ⟨(b.note (.passBegan e key [])).note (.passEnded e key none), ps, none⟩ ∨
    ∃ fs, b.beginPass e key ps = b.openPass e key fs ps := by
  unfold beginPass
  split
  · exact Or.inl rfl
  · exact Or.inr ⟨_, rfl⟩

/-- A pass is over and gives way to the one that was put off until then. -/
def giveWay (b : Board) (e : Nat) (key : Value) : Board :=
  (b.leavePass e key none).reschedule fun s => { s with deferred := eraseKey key s.deferred }

/-- A pass to which nothing has been left is over. -/
theorem finishPass_idle {b : Board} (hd : key ∉ b.scheduler.deferred) : b.finishPass e key = b.leavePass e key none :=
  if_neg hd

/-- A pass that has called all its watchers gives way to another one or is over. -/
theorem finishPass_cases (b : Board) (e : Nat) (key : Value) :
    (key ∈ b.scheduler.deferred ∧ b.finishPass e key = (b.giveWay e key).enqueue e key) ∨
    (key ∉ b.scheduler.deferred ∧ b.finishPass e key = b.leavePass e key none) := by
  by_cases hd : key ∈ b.scheduler.deferred
  · exact Or.inl ⟨hd, if_pos hd⟩
  · exact Or.inr ⟨hd, finishPass_idle hd⟩

theorem told_finishPass (b : Board) (e : Nat) (key : Value) :
    ∃ new, (b.finishPass e key).history = new ++ .passEnded e key none :: b.history ∧ ∀ ev ∈ new, ev.OfPost := by
  rcases b.finishPass_cases e key with ⟨_, h⟩ | ⟨_, h⟩ <;> rw [h]
  · exact told_enqueue _ e key
  · exact ⟨[], rfl, List.forall_mem_nil _⟩

/-- What neither the history, the callbacks nor the marks have to do with. -/
structure Steady {α : Type} (read : Board → α) : Prop where
  note : ∀ b ev, read (note b ev) = read b
  close : ∀ b c, read (close b c) = read b
  posting : ∀ b e f, read (posting b e f) = read b
  marked : ∀ b pending running deferred,
    read (reschedule b fun s => { s with pending, running, deferred }) = read b

namespace Steady

variable {α : Type} {read : Board → α} (steady : Steady read)

include steady

theorem enqueue (b : Board) (e : Nat) (key : Value) : read (b.enqueue e key) = read b := by
  rcases b.enqueue_cases e key with ⟨_, _, h⟩ | ⟨_, _, h⟩ | ⟨_, _, h⟩ | ⟨_, _, h⟩ <;> rw [h]
  · exact steady.marked b ..
  · exact (steady.posting ..).trans ((steady.close ..).trans (steady.marked b ..))

theorem request (b : Board) (e : Nat) (key : Value) : read (b.request e key) = read b :=
  (steady.enqueue ..).trans (steady.note ..)

theorem beginPass (b : Board) (e : Nat) (key : Value) (ps : List OpenPass) :
    read (b.beginPass e key ps).board = read b := by
  rcases b.beginPass_cases e key ps with h | ⟨fs, h⟩ <;> rw [h]
  · exact (steady.note ..).trans (steady.note ..)
  · exact (steady.marked (b.note _) ..).trans (steady.note ..)

theorem leavePass (b : Board) (e : Nat) (key : Value) (fault : Option Fault) :
    read (b.leavePass e key fault) = read b :=
  (steady.note ..).trans (steady.marked b ..)

theorem finishPass (b : Board) (e : Nat) (key : Value) : read (b.finishPass e key) = read b := by
  rcases b.finishPass_cases e key with ⟨_, h⟩ | ⟨_, h⟩ <;> rw [h]
  · exact (steady.enqueue ..).trans ((steady.marked (b.leavePass e key none) ..).trans (steady.leavePass ..))
  · exact steady.leavePass ..

end Steady

theorem watchersOf_steady : Steady fun b => b.scheduler.watchersOf :=
  ⟨fun _ _ => rfl, fun _ _ => rfl, fun _ _ _ => rfl, fun _ _ _ _ => rfl⟩

theorem runs_iff : b.runs e key f = true ↔ b.runsPass e key f := by
  unfold runs runsPass
  constructor
  · intro h
    split at h
    · next n =>
      split at h
      · next x k hc =>
        simp only [Bool.and_eq_true, beq_iff_eq] at h
        obtain ⟨rfl, rfl⟩ := h
        exact ⟨n, rfl, hc⟩
      · cases h
    · cases h
  · rintro ⟨n, rfl, hn⟩
    simp [hn]

/-- A callback is for one key only. -/
theorem runsPass_unique {x : Value} (h : b.runsPass e key f) (h' : b.runsPass e x f) : key = x := by
  obtain ⟨n, rfl, hn⟩ := h
  obtain ⟨m, hm, hx⟩ := h'
  cases hm
  rw [hn] at hx
  cases hx
  rfl

theorem runsPass_push {c : Closure} (h : b.runsPass e key f) :
    (b.close c).runsPass e key f := by
  obtain ⟨n, rfl, hn⟩ := h
  have hlt : n < b.closures.size := (Array.getElem?_eq_some_iff.1 hn).1
  refine ⟨n, rfl, ?_⟩
  simp only [close]
  rw [Array.getElem?_push_lt hlt, ← Array.getElem?_eq_getElem hlt]
  exact hn

/-- What is fixed for an engine unless it is set up anew. -/
def settings (b : Board) : Reentrancy × Bool × Option (Option Fn) × Option Fn :=
  (b.scheduler.policy, b.scheduler.debug, b.scheduler.describe, b.queue.sink)

theorem settings_steady : Steady settings where
  note _ _ := rfl
  close _ _ := rfl
  posting b e f := by
    simp only [settings, posting]
    split <;> rfl
  marked _ _ _ _ := rfl

theorem suffix_enqueue (b : Board) (e : Nat) (key : Value) :
    b.history <:+ (b.enqueue e key).history := by
  obtain ⟨new, told, _⟩ := b.told_enqueue e key
  exact ⟨new, told.symm⟩

theorem suffix_finishPass (b : Board) (e : Nat) (key : Value) :
    b.history <:+ (b.finishPass e key).history := by
  obtain ⟨new, told, _⟩ := b.told_finishPass e key
  exact (List.suffix_cons _ _).trans ⟨new, told.symm⟩

theorem suffix_beginPass (b : Board) (e : Nat) (key : Value) (ps : List OpenPass) :
    b.history <:+ (b.beginPass e key ps).board.history := by
  rcases b.beginPass_cases e key ps with h | ⟨fs, h⟩ <;> rw [h]
  · exact (List.suffix_cons _ _).trans (List.suffix_cons _ _)
  · exact List.suffix_cons _ _

/-- What only setting up, loops and threads change. -/
def around (b : Board) : Nat × List Nat × Nat := (b.setUps, b.numbers, b.started)

/-- A running loop that goes on is the same loop. -/
theorem around_loop {l l' : Loop} (hl : b.loop = some l) (hn : l'.number = l.number) :
    ({ b with loop := some l' } : Board).around = b.around := by
  simp [around, numbers, live, hl, hn]

theorem around_steady : Steady around where
  note _ _ := rfl
  close _ _ := rfl
  posting b e f := by
    unfold around
    rw [numbers_posting]
    rfl
  marked _ _ _ _ := rfl

theorem around_enqueue (b : Board) (e : Nat) (key : Value) : (b.enqueue e key).around = b.around :=
  around_steady.enqueue b e key

end Board

variable {s t : Scene}

/-- A move that changes what is around an engine sets it up or starts, ends or leaves a loop. -/
theorem Step.around (h : Step e s t) :
    t.board.around = s.board.around ∨
    (t.board.setUps = s.board.setUps + 1 ∧ t.board.started = s.board.started ∧
      (s.board.Loopless → t.board.Loopless)) ∨
    (t.board.setUps = s.board.setUps ∧ s.board.started ≤ t.board.started ∧
      (t.board.started = s.board.started → s.board.Loopless → t.board.Loopless)) := by
  cases h with
  | create b => exact Or.inr (Or.inl ⟨rfl, rfl, id⟩)
  | loops b ps l o n h =>
    refine Or.inr (Or.inr ⟨rfl, ?_⟩)
    rcases h.numbers with ⟨rfl, hl⟩ | ⟨rfl, _⟩
    · exact ⟨Nat.le_refl _, fun _ hb => List.sublist_nil.1 (hb ▸ hl)⟩
    · exact ⟨Nat.le_succ _, fun h => absurd h (Nat.succ_ne_self _)⟩
  | take b ps l f rest hl => exact Or.inl (Board.around_loop hl rfl)
  | post b ps f => exact Or.inl (Board.around_steady.posting b e f)
  | request b ps key => exact Or.inl (Board.around_steady.request b e key)
  | flush b ps key => exact Or.inl (Board.around_steady.beginPass (b.unmark key) e key ps)
  | notify b ps key => exact Or.inl (Board.around_steady.beginPass (b.note _) e key ps)
  | finish b ps key => exact Or.inl (Board.around_steady.finishPass b e key)
  | _ => exact Or.inl rfl

theorem Step.setUps_le (h : Step e s t) : s.board.setUps ≤ t.board.setUps := by
  rcases h.around with ha | ⟨hs, _⟩ | ⟨hs, _⟩
  · exact Nat.le_of_eq (congrArg Prod.fst ha).symm
  · omega
  · omega

theorem Steps.setUps_le (h : Steps e s t) : s.board.setUps ≤ t.board.setUps := by
  induction h with
  | refl => exact Nat.le_refl _
  | tail _ h ih => exact Nat.le_trans ih h.setUps_le

/-- Nothing that happened is forgotten until the engine is set up anew. -/
theorem Step.suffix (h : Step e s t) (once : t.board.setUps = s.board.setUps) :
    s.board.history <:+ t.board.history := by
  cases h with
  | create b ps s' q => exact absurd once (Nat.succ_ne_self _)
  | addWatcher | drop | pop | traceNotified | traced | call | breakOff => exact List.suffix_cons _ _
  | post b ps f => exact (List.suffix_cons _ _).trans (Board.suffix_posting b e f)
  | request b ps key =>
    exact (List.suffix_cons _ _).trans (Board.suffix_enqueue (b.note (.requested e key)) e key)
  | flush b ps key => exact Board.suffix_beginPass (b.unmark key) e key ps
  | notify b ps key =>
    exact (List.suffix_cons _ _).trans (Board.suffix_beginPass (b.note (.notified e key)) e key ps)
  | finish b ps key => exact Board.suffix_finishPass b e key
  | _ => exact List.suffix_refl _

theorem Steps.suffix (h : Steps e s t) (once : t.board.setUps = s.board.setUps) :
    s.board.history <:+ t.board.history := by
  induction h with
  | refl => exact List.suffix_refl _
  | tail hu h ih =>
    have hle := Steps.setUps_le hu
    have hle' := h.setUps_le
    exact (ih (by omega)).trans (h.suffix (by omega))

/-- Without a new loop there is none unless there was one. -/
theorem Step.loopless (h : Step e s t) :
    s.board.started ≤ t.board.started ∧
      (t.board.started = s.board.started → s.board.Loopless → t.board.Loopless) := by
  rcases h.around with ha | ⟨_, hs, hl⟩ | ⟨_, hs, hl⟩
  · simp only [Board.around, Prod.mk.injEq] at ha
    obtain ⟨_, hl, hs⟩ := ha
    exact ⟨Nat.le_of_eq hs.symm, fun _ h => hl.trans h⟩
  · exact ⟨Nat.le_of_eq hs.symm, fun _ => hl⟩
  · exact ⟨hs, hl⟩

theorem Step.settings (h : Step e s t) (once : t.board.setUps = s.board.setUps) :
    t.board.settings = s.board.settings := by
  cases h with
  | create b ps s' q => exact absurd once (Nat.succ_ne_self _)
  | request b ps key => exact Board.settings_steady.request b e key
  | post b ps f => exact Board.settings_steady.posting b e f
  | flush b ps key => exact Board.settings_steady.beginPass (b.unmark key) e key ps
  | notify b ps key => exact Board.settings_steady.beginPass (b.note _) e key ps
  | finish b ps key => exact Board.settings_steady.finishPass b e key
  | removeWatcher b ps key f =>
    simp only [Board.settings, Board.reschedule]
    rw [Scheduler.removeWatcher_eq]
  | _ => rfl

theorem Board.loud_of_settings {b b' : Board} (h : b'.settings = b.settings) :
    b'.scheduler.Loud ↔ b.scheduler.Loud := by
  simp only [Board.settings, Prod.mk.injEq] at h
  simp [Scheduler.Loud, h.2.1, h.2.2.1]

theorem Board.sink_of_settings {b b' : Board} (h : b'.settings = b.settings) : b'.queue.sink = b.queue.sink := by
  simp only [Board.settings, Prod.mk.injEq] at h
  exact h.2.2.2

/-- What holds at the beginning and is kept by every move of a machine that is not set up anew and whose
settings are the given ones holds at the end. -/
theorem Steps.invariant {P : Scene → Prop} (h : Steps e s t) (once : t.board.setUps = s.board.setUps)
    (hs : P s)
    (keep : ∀ u v, u.board.settings = s.board.settings → Step e u v →
      v.board.setUps = u.board.setUps → P u → P v) :
    P t := by
  suffices hp : t.board.settings = s.board.settings ∧ P t from hp.2
  induction h with
  | refl => exact ⟨rfl, hs⟩
  | @tail u v hu huv ih =>
    have hle := Steps.setUps_le hu
    have hle' := huv.setUps_le
    have ho : u.board.setUps = s.board.setUps := by omega
    obtain ⟨hset, hp⟩ := ih ho
    exact ⟨(huv.settings (by omega)).trans hset, keep u v hset huv (by omega) hp⟩

theorem Steps.settings (h : Steps e s t) (once : t.board.setUps = s.board.setUps) :
    t.board.settings = s.board.settings :=
  h.invariant (P := fun u => u.board.settings = s.board.settings) once rfl
    fun _ _ _ huv hup hu => (huv.settings hup).trans hu

theorem Steps.quiet (h : Steps e s t) (once : t.board.setUps = s.board.setUps)
    (quiet : ¬ s.board.scheduler.Loud) : ¬ t.board.scheduler.Loud :=
  fun loud => quiet ((Board.loud_of_settings (h.settings once)).1 loud)

/-- What holds at the beginning and is kept by every move while no loop runs holds at the end, if no loop was started:
one that had been would have left its number. -/
theorem Steps.loopless_invariant {P : Scene → Prop} (h : Steps e s t) (once : t.board.setUps = s.board.setUps)
    (loopless : s.board.Loopless) (still : t.board.started = s.board.started) (hs : P s)
    (keep : ∀ u v, u.board.settings = s.board.settings → u.board.Loopless → Step e u v →
      v.board.setUps = u.board.setUps → P u → P v) :
    t.board.Loopless ∧ P t := by
  let R (u : Scene) : Prop := s.board.started ≤ u.board.started ∧
    (u.board.started = s.board.started → u.board.Loopless ∧ P u)
  have hr : R t := by
    refine h.invariant once ⟨Nat.le_refl _, fun _ => ⟨loopless, hs⟩⟩ fun u v settings move once hu => ?_
    obtain ⟨before, hu⟩ := hu
    obtain ⟨starts, stays⟩ := move.loopless
    refine ⟨before.trans starts, fun still => ?_⟩
    obtain ⟨loopless, hp⟩ := hu (by omega)
    exact ⟨stays (by omega) loopless, keep u v settings loopless move once hp⟩
  exact hr.2 still

end ReactiveScopes
