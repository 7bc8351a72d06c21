import ReactiveScopes.Method.Awaitable
import ReactiveScopes.Method.Face
import ReactiveScopes.Method.Number
import ReactiveScopes.Method.Set

/-!
# Methods

Calling what was read from a value as a method of it.
-/
namespace ReactiveScopes.Method

open Eff

variable {κ : Type}

/-- Methods that belong to all values of a kind. -/
def onKind (kind : String) (name : String) (args : List Value) : Build Value :=
  if kind == "float" then onDoubleKind name args
  else if kind == "bytes" then onBytes [] name args
  else if kind == "str" then onText "" name args
  else onWholeKind kind name args

/-- Calls the method of a value. `perform` is what the code of a coroutine may ask for. -/
def call (perform : Command → Eff κ Value) (owner : Value) (name : String) (args : List Value) :
    Eff κ Value := do
  match owner with
  | .text t => build (onText t name args)
  | .constant c => build (onText c.text name args)
  | .bool b => build (onWhole (if b then 1 else 0) name args)
  | .int i => build (onWhole i name args)
  | .float x => build (onDouble owner x name args)
  | .nan _ => build (onDouble owner (0.0 / 0.0) name args)
  | .sealed kind _ => build (onKind kind name args)
  | .promise n => onPromise perform n name args
  | .ref r =>
    match (← store).cell? r with
    | some (.bytes b) => build (onBytes b name args)
    | some (.set _) => onSet r name args
    | some (.object o) => callValue ((o.methods.get? name).getD .none) args
    | some (.face part e _) => onFace part e name args
    | _ => raise .unsupported
  | _ => raise .unsupported

end ReactiveScopes.Method
