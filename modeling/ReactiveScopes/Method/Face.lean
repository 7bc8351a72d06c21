import ReactiveScopes.Engine

/-!
# Engines in the hands of client code

A handler is told which engine invoked it, so client code can reach the engine's operations as methods.
-/
namespace ReactiveScopes.Method

open Eff

variable {κ : Type}

def onEngine (e : Nat) (name : String) (args : List Value) : Eff κ Value := do
  let on (op : EngineOp) : Eff κ Value := Scope.perform e op
  match name, args with
  | "get_config", [] => return (← engine e).settings
  | "has_scope", [scope] => on (.hasScope scope)
  | "init_scope", [scope] => on (.initScope scope .none)
  | "init_scope", [scope, initial] => on (.initScope scope initial)
  | "destroy_scope", [scope] => on (.destroyScope scope)
  | "get_state", [scope] => on (.getState scope)
  | "set_state", [scope, updates] => on (.setState scope updates)
  | "watch", [scope, callback] => on (.watch scope callback)
  | "flush", [scope] => on (.flush scope)
  | "tick", [] => on .tick
  | "register_handler", [name, handler] => Handler.perform e (.register name handler)
  | "attach_pub", [pub] => on (.attachPub pub)
  | "invoke_handler", [name, scope] =>
    match name.text? with
    | some name => on (.invokeHandler name scope .none .none)
    | none =>
      if (← Scope.find e scope).isSome && !(← store).isKey name then raise .unsupported
      else return .none
  | "evaluate", [source, scope] => on (.evaluate { scope, source })
  | "evaluate", [source, scope, extras] => on (.evaluate { scope, source, extras := .mapping extras })
  | "handle", [source, scope] => on (.handle { scope, source })
  | "handle", [source, scope, extras] => on (.handle { scope, source, extras := .mapping extras })
  | "dispatch", [source, scope] => on (.dispatch { scope, source })
  | "dispatch", [source, scope, extras] => on (.dispatch { scope, source, extras := .mapping extras })
  | _, _ => raise .unsupported

/-- Where the scheduler of an engine files a key of client code: apart from the scopes of the engine. -/
def foreignKey (key : Value) : Value := .method key "key" 0

def onScheduler (e : Nat) (name : String) (args : List Value) : Eff κ Value := do
  let on (op : SchedulerOp) : Eff κ Value := Scheduler.perform e foreignKey op
  match name, args with
  | "add_watcher", [key, watcher] => on (.addWatcher key watcher)
  | "drop", [key] => on (.drop key)
  | "flush", [key] => on (.flush key)
  | "is_pending", [key] => on (.isPending key)
  | "notify", [key] => on (.notify key)
  | "pending_count", [] => on .pendingCount
  | "request", [key] => on (.request key)
  | "watcher_count", [key] => on (.watcherCount key)
  | _, _ => raise .unsupported

def onQueue (e : Nat) : String → List Value → Eff κ Value
  | "post", [f] => Queue.perform e (.post f)
  | "run_pending", [] => Queue.perform e .runPending
  | _, _ => raise .unsupported

/-- Calls a method of a part of an engine. -/
def onFace (part : Part) (e : Nat) (name : String) (args : List Value) : Eff κ Value :=
  match part with
  | .engine => onEngine e name args
  | .scheduler => onScheduler e name args
  | .queue => onQueue e name args
  | .config => raise .unsupported

end ReactiveScopes.Method
