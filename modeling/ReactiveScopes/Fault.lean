/-!
# Faults

Why an operation did not give a value. The first group arises from operating on values, the second
from using the library wrongly, the last from client code.
-/
namespace ReactiveScopes

/-- What a fault is an instance of, for whoever decides which faults to contain. -/
inductive FaultKind where
  | type
  | value
  | key
  | index
  | lookup
  | attribute
  | overflow
  | zeroDivision
  | memory
  | malformed
  | runtime
  | noMatch
  | cancelled
  /-- An attribute of something that is fixed once and for all. -/
  | frozen
  /-- An outcome that is not there yet. -/
  | unsettled
  /-- The end of a coroutine that is driven by hand. -/
  | ended
  | encoding
  | decoding
  deriving DecidableEq, Repr

inductive Fault where
  /-- The operation is not defined on these kinds of values. -/
  | unsupported
  /-- A value of the right kind that is not acceptable. -/
  | invalid
  | missingKey
  | outOfRange
  | noAttribute
  | frozen
  /-- Something that is not known by its name. -/
  | unknownName
  /-- A character that an encoding has no bytes for. -/
  | notEncodable
  /-- Bytes that are no characters of an encoding. -/
  | notDecodable
  /-- A number beyond what doubles or sizes can hold. -/
  | overflow
  | zeroDivision
  | outOfMemory
  /-- A structure that contains itself was to be compared item by item. -/
  | tooDeep
  /-- Text that is not the JSON it was taken for. -/
  | malformed
  /-- An operation that the present state of its object rules out. -/
  | misuse
  | cancelled
  | unsettled
  | ended
  | unnamedHandler
  | handlerNotCallable (shown : String)
  | unknownPolicy (shown : String)
  | unreadableState
  | stateNotObject (kind : String)
  /-- Raised by client code. -/
  | client (kind : FaultKind) (text : String)
  deriving DecidableEq, Repr

namespace Fault

def kind : Fault → FaultKind
  | unsupported => .type
  | invalid => .value
  | missingKey => .key
  | outOfRange => .index
  | noAttribute => .attribute
  | frozen => .frozen
  | unknownName => .lookup
  | notEncodable => .encoding
  | notDecodable => .decoding
  | overflow => .overflow
  | zeroDivision => .zeroDivision
  | outOfMemory => .memory
  | tooDeep => .runtime
  | malformed => .malformed
  | misuse => .runtime
  | cancelled => .cancelled
  | unsettled => .unsettled
  | ended => .ended
  | unnamedHandler => .value
  | handlerNotCallable _ => .type
  | unknownPolicy _ => .value
  | unreadableState => .value
  | stateNotObject _ => .value
  | client k _ => k

/-- The explanation that goes with a fault of this library. -/
def message? : Fault → Option String
  | unnamedHandler => some "register_handler requires a non-empty name"
  | handlerNotCallable shown => some s!"handler {shown} must be callable"
  | unknownPolicy shown => some s!"{shown} is not a valid Reentrancy"
  | unreadableState => some "Failed to parse state as JSON"
  | stateNotObject kind => some s!"State must be a JSON object, got {kind}"
  | client k text => if k = .key then none else some text
  | _ => none

/-- Cancelling a task is not an error of the code it interrupts, so nothing that contains errors
contains it. -/
def isError (f : Fault) : Bool := f.kind ≠ .cancelled

/-- Values that do not suit the operation: malformed documents and texts included. -/
def isValueFault (f : Fault) : Bool :=
  f.kind = .value || f.kind = .malformed || f.kind = .encoding || f.kind = .decoding

/-- Keys, indices and whatever else was looked up in vain. -/
def isLookupFault (f : Fault) : Bool := f.kind = .key || f.kind = .index || f.kind = .lookup

/-- What an operator application contains: the faults of the operations on values. -/
def isOperatorFault (f : Fault) : Bool :=
  f.isValueFault || f.isLookupFault || f.kind = .type || f.kind = .attribute || f.kind = .frozen ||
    f.kind = .overflow || f.kind = .zeroDivision

/-- What a write along a path contains. -/
def isWriteFault (f : Fault) : Bool := f.isValueFault || f.isLookupFault

end Fault

end ReactiveScopes
