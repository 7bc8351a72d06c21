import ReactiveScopes.Client
import ReactiveScopes.Notice

/-!
# Sessions

Everything that changes while engines and their client run: the object graph, the engines, the
callables made so far, the coroutines and tasks, and the client's memory. The journal records what
happened, newest first; the library writes it and never reads it.
-/
namespace ReactiveScopes

/-- A directive: the expression is evaluated again at each pass and its value goes to the update. -/
structure Directive where
  engine : Nat
  evaluation : Evaluation
  update : Update

/-- A callback that evaluates an expression for an event and flushes. With an app it answers only
while the app is safe. -/
structure Reaction where
  engine : Nat
  evaluation : Evaluation
  el : Value
  app : Option Value

/-- What a callable made by the library does. -/
inductive Closure where
  | idle
  /-- Runs the scope's pass if it is still pending. -/
  | pass (engine : Nat) (scope : Value)
  | unsubscribe (engine : Nat) (scope : Value) (watcher : Value)
  | unregister (engine : Nat) (name : String) (handler : Value)
  | detach (engine : Nat) (pub : Value)
  | refresh (d : Directive)
  /-- An update for which a missing widget is no error. -/
  | lenient (u : Update)
  | react (r : Reaction)

/-- Callbacks for the end of the turn. A `sink` of the client takes them instead; so does a running
event loop. -/
structure Queue where
  posted : List Value := []
  draining : Bool := false
  sink : Option Fn := none

structure Scheduler where
  /-- The keys that client code has named so far; equal keys go by the first of them. -/
  names : List Value := []
  policy : Reentrancy := .skip
  debug : Bool := false
  describe : Option (Option Fn) := none
  /-- The keys whose pass is traced before it begins, innermost first, each with the watchers it had if
  it was dropped meanwhile. -/
  tracing : List (Value × Option (List Value)) := []
  watchers : Table Value (List Value) := .empty
  pending : List Value := []
  running : List Value := []
  deferred : List Value := []

structure Engine where
  config : Config := {}
  /-- The engine as client code sees it. -/
  face : Value := .none
  settings : Value := .none
  parentOf : Option Fn := none
  initializer : Option Fn := none
  pub : Value := .none
  queue : Queue := {}
  scheduler : Scheduler := {}
  handlers : Table String Value := .empty
  /-- The record of each scope that has one. -/
  records : Table Value Value := .empty

instance : Inhabited Engine := ⟨{}⟩

/-- What follows once an asynchronous handler's result has been written back. -/
inductive Afterwards where
  | nothing
  | call (f : Value)
  /-- Flushes the scope whose state the handler works on. -/
  | flush (engine : Nat) (scope : Value)

/-- An asynchronous handler's result that is to be written back when it settles. -/
structure Settlement where
  state : Value
  path : Value
  afterwards : Afterwards

/-- Code that waits for a value: the client's own, or the library's. -/
inductive Frame (κ : Type) where
  | resume (k : Except Fault Value → Act κ Value)
  | settle (job : Settlement)
  | flush (engine : Nat) (scope : Value)
  /-- Here the coroutine of that number ends. -/
  | leave (coroutine : Nat)

/-- A coroutine that has not begun. -/
inductive Routine (κ : Type) where
  | client (body : Act κ Value)
  | settle (awaited : Value) (job : Settlement)
  | dispatch (engine : Nat) (e : Evaluation)
  /-- Awaits a value and gives its outcome. -/
  | relay (awaited : Value)

/-- An entry of the event loop: a callback, a task to go on with, or the end of the loop. -/
inductive Ready where
  | call (f : Value)
  | step (task : Nat)
  /-- Tells a callable that a task has finished. -/
  | tell (f : Value) (task : Nat)
  /-- One of the tasks that `loopEnd` waits for has finished. -/
  | joined
  | stop
  deriving DecidableEq

inductive Progress (κ : Type) where
  | unstarted (r : Routine κ)
  /-- Let others run, and is told an outcome when it goes on. -/
  | suspended (told : Except Fault Value) (frames : List (Frame κ))
  | waiting (frames : List (Frame κ)) (task : Nat)
  /-- Runs, or is part of what a task runs. -/
  | running
  | finished (outcome : Except Fault Value)

/-- A coroutine driven by the event loop of the given number. `onDone` are entries for the loop when
it finishes, and `requests` counts how often it was to be cancelled. A task is `held` once something has
begun to await it that could not go through with it; until it finishes nothing else can begin to. -/
structure Task (κ : Type) where
  progress : Progress κ
  loop : Nat
  cancelling : Bool := false
  held : Bool := false
  requests : Nat := 0
  onDone : List Ready := []

inductive Promise (κ : Type) where
  | coroutine (p : Progress κ)
  | task (t : Task κ)

/-- A running event loop: the entries that are ready, in order, the tasks it started, and how many of
them its end still waits for. -/
structure Loop where
  number : Nat
  ready : List Ready := []
  stopping : Bool := false
  tasks : List Nat := []
  joining : Nat := 0

inductive Event where
  | notice (n : Notice)
  /-- The engine was set up. -/
  | created (engine : Nat)
  /-- A write to a scope was reported to its scheduler. -/
  | requested (engine : Nat) (scope : Value)
  | posted (engine : Nat) (f : Value)
  /-- A posted callback went to the running event loop of that number. -/
  | handed (engine : Nat) (f : Value) (loop : Nat)
  /-- A queued callback begins. -/
  | began (engine : Nat) (f : Value)
  /-- A pass is asked for, whether or not one is pending. -/
  | notified (engine : Nat) (scope : Value)
  /-- A watcher was registered. -/
  | watched (engine : Nat) (scope : Value) (watcher : Value)
  | passBegan (engine : Nat) (scope : Value) (watchers : List Value)
  | watcherCalled (engine : Nat) (scope : Value) (watcher : Value)
  /-- The pass is over, broken off by the fault if there is one. -/
  | passEnded (engine : Nat) (scope : Value) (fault : Option Fault)
  | dropped (engine : Nat) (scope : Value)
  /-- A context was entered in which an app is paused. -/
  | paused (app : Value)
  /-- Such a context was left. -/
  | resumed (app : Value)

structure Session (κ : Type) where
  memory : κ
  store : Store := {}
  engines : Table Nat Engine := .empty
  closures : Array Closure := #[]
  promises : Array (Promise κ) := #[]
  /-- The loop that runs on the current thread. -/
  loop : Option Loop := none
  /-- How many loops have been started so far. -/
  loops : Nat := 0
  /-- Loops of the threads that wait for the current one, innermost first. -/
  outer : List (Option Loop) := []
  paused : List Value := []
  /-- Source texts compiled so far; `none` for a text that is no expression. -/
  compiled : Table String (Option Expr) := .empty
  journal : List Event := []

namespace Session

variable {κ : Type}

def engine (w : Session κ) (e : Nat) : Engine := (w.engines.get? e).getD {}

def modifyEngine (e : Nat) (f : Engine → Engine) (w : Session κ) : Session κ :=
  { w with engines := w.engines.insert e (f (w.engine e)) }

/-- The current thread, by how many others wait for it. -/
def thread (w : Session κ) : Nat := w.outer.length

theorem engine_of_engines {w w' : Session κ} (h : w'.engines = w.engines) (e : Nat) : w'.engine e = w.engine e := by
  rw [engine, h, engine]

@[simp]
theorem engine_modifyEngine (w : Session κ) (e x : Nat) (f : Engine → Engine) :
    (w.modifyEngine e f).engine x = if e = x then f (w.engine x) else w.engine x := by
  simp only [engine, modifyEngine, Table.get?_insert]
  split
  · next h => simp [h]
  · rfl

end Session

end ReactiveScopes
