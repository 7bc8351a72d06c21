import ReactiveScopes.Directive

/-!
# Engines

How an engine is set up, and what it does on request.
-/
namespace ReactiveScopes

open Eff

variable {κ : Type}

namespace Queue

def perform (e : Nat) : QueueOp → Eff κ Value
  | .post f => do post e f; return .none
  | .runPending => do return .int (← runPending e)
  | .size => do return .int (← engine e).queue.posted.length

end Queue

namespace Handler

def perform (e : Nat) : RegistryOp → Eff κ Value
  | .register name handler => do return .fn (← register e name handler)
  | .get name => do return ((← engine e).handlers.get? name).getD .none
  | .contains name => do return .bool ((← engine e).handlers.contains name)
  | .size => do return .int (← engine e).handlers.size
  | .invoke name state context onSettled =>
    invoke e name state context (if onSettled.isNone then .nothing else .call onSettled)

end Handler

namespace Scope

def perform (e : Nat) : EngineOp → Eff κ Value
  | .initScope scope initial => init e scope initial
  | .destroyScope scope => do destroy e scope; return .none
  | .hasScope scope => do return .bool ((← engine e).records.contains scope)
  | .getState scope => state e scope
  | .setState scope updates => do setState e scope updates; return .none
  | .watch scope callback => do return .fn (← watch e scope callback)
  | .flush scope => do flush e scope; return .none
  | .tick => do return .int (← Queue.runPending e)
  | .attachPub pub => do return .fn (← attachPub e pub)
  | .invokeHandler name scope event path => invokeHandler e name scope event path
  | .evaluate ev => evaluate e ev
  | .handle ev => handle e ev
  | .dispatch ev => Handler.newCoroutine (.dispatch e ev)
  | .bind scope source given update => do
    return .fn (← Directive.bind ⟨e, { scope, source, extras := update.context given }, update⟩)
  | .guard app scope source given update => do
    let extras := update.context given
    return .fn (← Directive.bind ⟨e, { scope, source, extras }, ← update.guard app⟩)
  | .on scope source el path app => do
    return .fn (← close (.react ⟨e, { scope, source, path }, el, app⟩))

/-- Makes what client code can see of an engine: its scheduler with its queue, and its settings. -/
def makeFaces (e : Nat) (config : Config) : Eff κ (Value × Value) := do
  let face (part : Part) (members : List (String × Value)) : Eff κ Value :=
    alloc (.face part e (Table.ofList members))
  let s ← store
  let policy := Value.constant config.reentrancy.constant
  let queue ← face .queue []
  let scheduler ← face .scheduler [("policy", policy), ("queue", queue)]
  let settings ← face .config
    [("reentrancy", policy), ("debug", config.debug), ("attribute_prefix", config.stem),
      ("path_attribute", .text (config.pathAttribute s)),
      ("var_attribute", .text (config.varAttribute s))]
  return (← face .engine [("scheduler", scheduler)], settings)

/-- Sets up an engine. -/
def create (e : Nat) (setup : Setup) : Eff κ Unit := do
  let debug ← truthy setup.config.debug
  let (face, settings) ← makeFaces e setup.config
  log (.created e)
  modifyEngine e fun _ =>
    { config := setup.config, face := face, settings := settings, parentOf := setup.parentOf
      initializer := setup.initializer, pub := setup.pub, queue := { sink := setup.post }
      scheduler :=
        { policy := setup.config.reentrancy, debug := debug, describe := setup.describe } }

end Scope

end ReactiveScopes
