import ReactiveScopes.Task

/-!
# Coroutines and tasks by hand

What client code can do with a coroutine or a task besides awaiting it. A coroutine that is driven by
hand stops wherever it would let others run; its end is a fault, since there is nothing to go on with.
-/
namespace ReactiveScopes.Method

open Eff ReactiveScopes.Task

variable {κ : Type}

/-- Drives a coroutine to its next stop. -/
def resume (perform : Command → Eff κ Value) (n : Nat) (focus : Focus κ) (frames : List (Frame κ)) :
    Eff κ Value := do
  setCoroutine n .running .running
  showFrames .running frames
  match ← drive perform (← budget) focus frames with
  | .finished r =>
    setCoroutine n (.finished (.ok .none)) .ended
    match leaving r with
    | .ok _ => raise .ended
    | .error f => raise f
  | .yielded frames =>
    setCoroutine n (.suspended (.ok .none) frames) .suspended
    showFrames .suspended frames
    return .none
  | .waiting frames m =>
    hold m
    setCoroutine n (.waiting frames m) .suspended
    showFrames .suspended frames
    return .promise m

/-- Interrupts a coroutine that is suspended. It must not go on. -/
def interrupt (perform : Command → Eff κ Value) (n : Nat) (frames : List (Frame κ)) :
    Eff κ Value := do
  setCoroutine n .running .running
  match ← drive perform (← budget) (.outcome (.error .cancelled)) frames with
  | .finished r =>
    setCoroutine n (.finished (.ok .none)) .ended
    match leaving r with
    | .error f => if f.kind = .cancelled then return .none else raise f
    | .ok _ => return .none
  | .yielded frames =>
    setCoroutine n (.suspended (.ok .none) frames) .suspended
    raise .misuse
  | .waiting frames m =>
    hold m
    setCoroutine n (.waiting frames m) .suspended
    raise .misuse

/-- A coroutine that runs, or is part of what a task runs. -/
def busy (n : Nat) : Eff κ Value := do
  if (← store).awaitables[n]? = some (.coroutine .running) then raise .invalid else raise .misuse

/-- Has a fault occur where a coroutine stands. What is no fault is one of its kind, and reaches only
what has been begun. -/
def throwInto (perform : Command → Eff κ Value) (n : Nat) (p : Progress κ) (v : Value) :
    Eff κ Value := do
  let (proper, f) := match (← store).look v with
    | some (.fault f) => (true, f)
    | _ => (false, Fault.unsupported)
  match p with
  | .suspended _ frames => resume perform n (.outcome (.error f)) frames
  | .waiting frames _ => resume perform n (.outcome (.error f)) frames
  | .running => busy n
  | .unstarted _ => do
    if proper then setCoroutine n (.finished (.ok .none)) .ended
    raise f
  | .finished _ => if proper then raise .misuse else raise f

def onCoroutine (perform : Command → Eff κ Value) (n : Nat) (p : Progress κ) :
    String → List Value → Eff κ Value
  | "send", [v] =>
    match p with
    | .unstarted r => if v.isNone then resume perform n (.routine r) [] else raise .unsupported
    | .suspended _ frames => do resume perform n (.outcome (← told p)) frames
    | .waiting frames _ => do resume perform n (.outcome (← told p)) frames
    | .running => busy n
    | .finished _ => raise .misuse
  | "close", [] =>
    match p with
    | .unstarted _ => do
      setCoroutine n (.finished (.ok .none)) .ended
      return .none
    | .suspended _ frames => interrupt perform n frames
    | .waiting frames _ => interrupt perform n frames
    | .running => busy n
    | .finished _ => return .none
  | "throw", [v] => throwInto perform n p v
  | "throw", [v, _] => throwInto perform n p v
  | "throw", [v, _, _] => throwInto perform n p v
  | _, _ => raise .unsupported

/-- Appends an entry to the loop of a given number, on whichever thread it runs. -/
def soonOn (loop : Nat) (entry : Ready) : Eff κ Unit := do
  let isIt (l : Option Loop) : Bool := l.any (·.number == loop)
  let add (l : Option Loop) : Option Loop :=
    if isIt l then l.map fun l => { l with ready := l.ready ++ [entry] } else l
  let w ← read id
  if isIt w.loop || w.outer.any isIt then
    update fun w => { w with loop := add w.loop, outer := w.outer.map add }
  else raise .misuse

/-- The outcome of a task; it is a fault to ask for one that has not come. -/
def settled (t : Task κ) : Eff κ (Except Fault Value) :=
  match t.progress with
  | .finished (.error f) => if f.isError then return .error f else raise f
  | .finished r => return r
  | _ => raise .unsettled

def isDone (t : Task κ) : Bool :=
  match t.progress with
  | .finished _ => true
  | _ => false

def isCancelled (t : Task κ) : Bool :=
  match t.progress with
  | .finished (.error f) => !f.isError
  | _ => false

def onTask (n : Nat) (t : Task κ) : String → List Value → Eff κ Value
  | "done", [] => return .bool (isDone t)
  | "cancelled", [] => return .bool (isCancelled t)
  | "result", [] => do ofExcept (← settled t)
  | "exception", [] => do
    match ← settled t with
    | .ok _ => return .none
    | .error f => alloc (.fault f)
  | "cancel", [] => do return .bool (← cancel (← budget) n)
  | "cancel", [_] => do return .bool (← cancel (← budget) n)
  | "cancelling", [] => return .int t.requests
  | "uncancel", [] => do
    modifyTask n fun t => { t with requests := t.requests - 1 }
    return .int ((t.requests - 1 : Nat) : Int)
  | "get_coro", [] => return .sealed "coroutine" n
  | "get_loop", [] => return .sealed "_UnixSelectorEventLoop" t.loop
  | "get_name", [] => return .text s!"Task-{n + 1}"
  | "set_name", [_] => return .none
  | "get_stack", [] => alloc (.list (if isDone t then [] else [.sealed "frame" n]))
  | "print_stack", [] => return .none
  | "set_result", [_] => raise .misuse
  | "set_exception", [_] => raise .misuse
  | "add_done_callback", [f] => do
    if isDone t then soonOn t.loop (.tell f n)
    else modifyTask n fun t => { t with onDone := t.onDone ++ [.tell f n] }
    return .none
  | "remove_done_callback", [f] => do
    let isIt (r : Ready) : Bool := r == .tell f n
    modifyTask n fun t => { t with onDone := t.onDone.filter fun r => !isIt r }
    return .int (t.onDone.countP isIt)
  | _, _ => raise .unsupported

/-- Calls a method of a coroutine or a task. -/
def onPromise (perform : Command → Eff κ Value) (n : Nat) (name : String) (args : List Value) :
    Eff κ Value := do
  match ← promise? n with
  | some (.coroutine p) => onCoroutine perform n p name args
  | some (.task t) => onTask n t name args
  | none => raise .unsupported

end ReactiveScopes.Method
