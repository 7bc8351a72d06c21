import ReactiveScopes.Record.Mapping

/-!
# Named handlers

A handler is a callable invoked by name. It gets the value at its state path and the circumstances of
the invocation; what it returns is written back to that path, unless it is `none`. An awaitable is
written back when it settles: by a task if an event loop runs, otherwise by a coroutine that the caller
has to await.
-/
namespace ReactiveScopes.Handler

open Eff

variable {κ : Type}

/-- Registers a handler in place of any previous one of that name, and answers the callable that
removes it. -/
def register (e : Nat) (name handler : Value) : Eff κ Fn := do
  match name.text? with
  | none => raise .unnamedHandler
  | some n =>
    if n = "" then raise .unnamedHandler
    else if !handler.isCallable then raise (.handlerNotCallable ((← store).shown name))
    else
      modifyEngine e fun x => { x with handlers := x.handlers.insert n handler }
      close (.unregister e n handler)

/-- Removes a handler, unless the name has passed to another one. -/
def unregister (e : Nat) (name : String) (f : Value) : Eff κ Unit :=
  modifyEngine e fun x =>
    if x.handlers.get? name = some f then { x with handlers := x.handlers.erase name } else x

/-- Writes along a path of a state in the state's own way. -/
def writeInto (state path v : Value) : Eff κ Unit := do
  let s ← store
  match s.record? state with
  | some (data, hook) => Record.setPath data hook path v
  | none =>
    match ← ofExcept (s.attribute? state "set_path") with
    | some f => do let _ ← callValue f [path, v]
    | none => raise .noAttribute

def writeBack (state path v : Value) : Eff κ Unit := do
  if !v.isNone && (← truthy path) then
    contain (writeInto state path v) Fault.isWriteFault fun _ => notice .resultNotWritten

def newPromise (p : Promise κ) (shown : Awaitable) : Eff κ Nat := do
  let n ← read fun w => w.promises.size
  update fun w =>
    { w with promises := w.promises.push p
             store := { w.store with awaitables := w.store.awaitables.push shown } }
  return n

def newCoroutine (r : Routine κ) : Eff κ Value := do
  return .promise (← newPromise (.coroutine (.unstarted r)) (.coroutine .fresh))

/-- Adds a task to the running loop. -/
def newTask (loop : Nat) (r : Routine κ) : Eff κ Nat := do
  let n ← newPromise (.task { progress := .unstarted r, loop := loop }) .task
  update fun w => { w with loop := w.loop.map fun l =>
    { l with ready := l.ready ++ [.step n], tasks := l.tasks ++ [n] } }
  return n

/-- Starts a coroutine as a task of the running loop, or answers it as it is when there is none. -/
def start (r : Routine κ) : Eff κ Value := do
  match ← read (·.loop) with
  | none => newCoroutine r
  | some l => return .promise (← newTask l.number r)

/-- Invokes a handler. A handler that fails is reported and gives `none`. -/
def invoke (e : Nat) (name : String) (state : Value) (context : HandlerContext)
    (afterwards : Afterwards) : Eff κ Value := do
  match (← engine e).handlers.get? name with
  | none => return .none
  | some f =>
    let s ← store
    let current ←
      if s.truthy context.path then build (Build.getPath state context.path) else pure .none
    let told ← alloc (.context context)
    match ← attempt (callValue f [current, told]) with
    | .error fault =>
      if fault.isError then
        notice (.handlerFailed fault)
        return .none
      else raise fault
    | .ok v =>
      if v.isAwaitable then start (.settle v ⟨state, context.path, afterwards⟩)
      else
        writeBack state context.path v
        return v

end ReactiveScopes.Handler
