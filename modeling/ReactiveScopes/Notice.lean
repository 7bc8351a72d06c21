import ReactiveScopes.Store.Basic

/-!
# Notices

What the library reports without failing. Each notice has a level, the part of the library it comes
from, a fixed wording, and the fault that was contained, if any.
-/
namespace ReactiveScopes

inductive Level where
  | debug
  | warning
  | error
  deriving DecidableEq, Repr

def Level.name : Level → String
  | debug => "DEBUG"
  | warning => "WARNING"
  | error => "ERROR"

inductive Notice where
  | badArity
  | unsupportedNode
  | operatorFailed
  | hasClassFailed (f : Fault)
  | pubFailed (f : Fault)
  | fetchFailed (f : Fault)
  | handlerFailed (f : Fault)
  | handlerRejected (f : Fault)
  | resultNotWritten
  | parentFailed (f : Fault)
  | notInitialized
  /-- The scope, its data, and the store at that moment. -/
  | initialized (scope data : Value) (store : Store)
  | noStateToSet
  | updatesNotMapping
  | keyNotWritten
  | setupFailed (f : Fault)
  | noStateToEvaluate
  | badSource
  | evaluationFailed (f : Fault)
  /-- The number of watchers, what there is to show of the key, and the store at that moment. -/
  | pass (watchers : Nat) (state : Value) (store : Store)
  | watcherFailed (f : Fault)
  | directiveFailed (f : Fault)

namespace Notice

def level : Notice → Level
  | badArity | unsupportedNode => .warning
  | operatorFailed | hasClassFailed _ | pubFailed _ | fetchFailed _ | parentFailed _
  | initialized _ _ _ | noStateToSet | setupFailed _ | noStateToEvaluate | pass _ _ _ => .debug
  | handlerFailed _ | handlerRejected _ | resultNotWritten | notInitialized | updatesNotMapping
  | keyNotWritten | badSource | evaluationFailed _ | watcherFailed _ | directiveFailed _ => .error

/-- The part of the library that reports. -/
def channel : Notice → String
  | badArity | unsupportedNode => "nodes"
  | operatorFailed | hasClassFailed _ | pubFailed _ | fetchFailed _ => "evaluator"
  | handlerFailed _ | handlerRejected _ | resultNotWritten => "handlers"
  | parentFailed _ | notInitialized | initialized _ _ _ | noStateToSet | updatesNotMapping
  | keyNotWritten | setupFailed _ | noStateToEvaluate | badSource | evaluationFailed _ => "engine"
  | pass _ _ _ | watcherFailed _ => "scheduler"
  | directiveFailed _ => "directives"

def wording : Notice → String
  | badArity => "Invalid arity for %r: got %d operand(s)"
  | unsupportedNode => "Unsupported expression node type: %s"
  | operatorFailed => "%s evaluated to None: %s"
  | hasClassFailed _ => "hasClass failed on %r"
  | pubFailed _ => "pub(%r) failed"
  | fetchFailed _ => "fetch(%r) failed"
  | handlerFailed _ => "Handler %r failed"
  | handlerRejected _ => "Handler %r rejected"
  | resultNotWritten => "Cannot write handler result to %r: %s"
  | parentFailed _ => "parent_of(%r) failed"
  | notInitialized => "Failed to initialize state for scope %r: %s"
  | initialized _ _ _ => "Initialized scope %r with %r"
  | noStateToSet => "set_state on scope %r without state"
  | updatesNotMapping => "set_state expects a mapping, got %s"
  | keyNotWritten => "Cannot write %r on scope %r: %s"
  | setupFailed _ => "Lazy initialization of %r failed"
  | noStateToEvaluate => "evaluate on scope %r without state"
  | badSource => "Invalid DSL JSON expression %r: %s"
  | evaluationFailed _ => "Failed to evaluate expression %r"
  | pass _ _ _ => "notify %r: %d watcher(s), state=%r"
  | watcherFailed _ => "Watcher %r failed for scope %r"
  | directiveFailed _ => "Initial directive evaluation failed for %r"

/-- The contained fault, where the notice carries it. -/
def fault? : Notice → Option Fault
  | hasClassFailed f | pubFailed f | fetchFailed f | handlerFailed f | handlerRejected f
  | parentFailed f | setupFailed f | evaluationFailed f | watcherFailed f | directiveFailed f =>
    some f
  | _ => none

end Notice

end ReactiveScopes
