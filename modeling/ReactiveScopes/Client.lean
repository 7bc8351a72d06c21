import ReactiveScopes.Config

/-!
# Client code

The host around the library: watchers, handlers, publishers, whole scripts. Client code is a program
that reads the store, keeps a memory of its own, and asks the library for operations one at a time; so
a statement about every client is a statement about every `Act`, and a client that quits shows the
session as it is at that moment.
-/
namespace ReactiveScopes

/-- Read-only context of an evaluation, reachable as `$name`: the element, the event, the fetch
function, and a mapping of whatever else there is. -/
structure Capabilities where
  el : Value := .none
  event : Value := .none
  fetch : Value := .none
  extra : Option Value := none

/-- Capabilities as they are handed in: ready made, or as a mapping of `$`-names. -/
inductive Extras where
  | capabilities (c : Capabilities)
  | mapping (v : Value)

/-- An expression together with the scope and the context it is evaluated in. -/
structure Evaluation where
  scope : Value
  source : Value
  extras : Extras := .mapping .none
  path : Value := .none

/-- What a directive does with the value of its expression. -/
inductive Update where
  | call (f : Value)
  | display (target : Value)
  | cssClass (target : Value) (name : Value)
  | attribute (target : Value) (name : String)
  /-- Skipped while the app is not safe; on another thread than `thread` it goes through the app.
  `apply` is the inner update as a callable. -/
  | guarded (app : Value) (thread : Nat) (apply : Fn)

inductive RecordOp where
  | setItem (key : Value) (v : Value)
  | getItem (key : Value)
  | delItem (key : Value)
  | contains (key : Value)
  | size
  | keys
  | values
  | items
  | get (key : Value) (default : Value)
  | pop (key : Value) (default : Option Value)
  | popItem
  | setDefault (key : Value) (default : Value)
  | update (other : Value)
  | clear
  | setPath (path : Value) (v : Value)
  | getPath (path : Value)
  | touch (key : Value)
  | snapshot

inductive SchedulerOp where
  | addWatcher (key : Value) (watcher : Value)
  | request (key : Value)
  | flush (key : Value)
  | notify (key : Value)
  | drop (key : Value)
  | watcherCount (key : Value)
  | isPending (key : Value)
  | pendingCount
  | policy

inductive QueueOp where
  | post (f : Value)
  | runPending
  | size

inductive RegistryOp where
  | register (name : Value) (handler : Value)
  | get (name : String)
  | contains (name : String)
  | size
  | invoke (name : String) (state : Value) (context : HandlerContext)
      (onSettled : Value)

inductive EngineOp where
  | initScope (scope : Value) (initial : Value)
  | destroyScope (scope : Value)
  | hasScope (scope : Value)
  | getState (scope : Value)
  | setState (scope : Value) (updates : Value)
  | watch (scope : Value) (callback : Value)
  | flush (scope : Value)
  | tick
  | attachPub (pub : Value)
  | invokeHandler (name : String) (scope : Value) (event : Value) (path : Value)
  | evaluate (e : Evaluation)
  | handle (e : Evaluation)
  /-- A coroutine that evaluates, awaits and flushes. -/
  | dispatch (e : Evaluation)
  | bind (scope : Value) (source : Value) (extras : Extras) (update : Update)
  | guard (app : Value) (scope : Value) (source : Value) (extras : Extras) (update : Update)
  | on (scope : Value) (source : Value) (el : Value) (path : Value) (app : Option Value)

/-- How an engine is set up: its settings, and functions of the client. -/
structure Setup where
  config : Config := {}
  parentOf : Option Fn := none
  initializer : Option Fn := none
  pub : Value := .none
  post : Option Fn := none
  /-- What to show of a key in traces, where it is not the state of the scope. -/
  describe : Option (Option Fn) := none

/-- An operation that client code may ask for. Engines are numbered by the client. -/
inductive Command where
  | make (c : Cell)
  | wrap (initial : Value) (hook : Option Fn)
  | compile (raw : Value)
  | reduce (raw : Value) (state : Value) (context : Extras) (pub : Value)
  | append (list : Value) (v : Value)
  | setEntry (container : Value) (key : Value) (v : Value)
  | add (a b : Value)
  | setPath (v : Value) (path : Value) (x : Value)
  | setAttribute (v : Value) (name : String) (x : Value)
  | applyAttribute (target : Value) (name : String) (v : Value)
  | call (f : Value) (args : List Value)
  | record (r : Value) (op : RecordOp)
  | create (engine : Nat) (setup : Setup)
  | engine (engine : Nat) (op : EngineOp)
  | scheduler (engine : Nat) (op : SchedulerOp)
  | queue (engine : Nat) (op : QueueOp)
  | registry (engine : Nat) (op : RegistryOp)
  | pause (app : Value)
  | resume (app : Value)
  | isSafe (app : Value)
  | enterThread
  | leaveThread
  | runLoop (awaitable : Value)
  | cancel (awaitable : Value)
  | noticeCount

/-- A client program with memory `κ`. What it awaits, it awaits on the event loop it runs in. -/
inductive Act (κ α : Type) where
  | done (a : α)
  | raise (f : Fault)
  | look (k : Store → Act κ α)
  | recollect (k : κ → Act κ α)
  | remember (m : κ) (next : Act κ α)
  | perform (c : Command) (k : Except Fault Value → Act κ α)
  /-- Lets everything else that is ready run first. -/
  | yield (k : Except Fault Value → Act κ α)
  | await (v : Value) (k : Except Fault Value → Act κ α)
  | quit

namespace Act

variable {κ α β : Type}

def bind : Act κ α → (α → Act κ β) → Act κ β
  | done a, f => f a
  | raise e, _ => raise e
  | look k, f => look fun s => (k s).bind f
  | recollect k, f => recollect fun m => (k m).bind f
  | remember m next, f => remember m (next.bind f)
  | perform c k, f => perform c fun r => (k r).bind f
  | yield k, f => yield fun r => (k r).bind f
  | await v k, f => await v fun r => (k r).bind f
  | quit, _ => quit

/-- Runs to the end and reports a fault as a value. -/
def attempt : Act κ α → Act κ (Except Fault α)
  | done a => done (.ok a)
  | raise e => done (.error e)
  | look k => look fun s => (k s).attempt
  | recollect k => recollect fun m => (k m).attempt
  | remember m next => remember m next.attempt
  | perform c k => perform c fun r => (k r).attempt
  | yield k => yield fun r => (k r).attempt
  | await v k => await v fun r => (k r).attempt
  | quit => quit

instance : Monad (Act κ) where
  pure := done
  bind := bind

def ofExcept : Except Fault α → Act κ α
  | .ok a => done a
  | .error e => raise e

/-- Asks for an operation; a fault of it is a fault of the program. -/
def ask (c : Command) : Act κ Value := perform c ofExcept

def store : Act κ Store := look done

def memory : Act κ κ := recollect done

def modifyMemory (f : κ → κ) : Act κ Unit := recollect fun m => remember (f m) (done ())

def sleep : Act κ Value := yield ofExcept

def wait (v : Value) : Act κ Value := await v ofExcept

end Act

/-- A function of the client. An asynchronous one only makes a coroutine when it is called. -/
structure ClientFn (κ : Type) where
  isAsync : Bool := false
  body : List Value → Act κ Value

/-- All functions of a client, by name. -/
abbrev Host (κ : Type) := String → ClientFn κ

end ReactiveScopes
