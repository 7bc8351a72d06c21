import ReactiveScopes.Expr.Evaluation
import ReactiveScopes.Handler
import ReactiveScopes.Json.Relaxed

/-!
# Scopes

An engine gives each scope at most one record. Nesting only matters for lookup: an operation issued
from a scope works on the nearest record up the chain of parents. Scopes never share storage.
-/
namespace ReactiveScopes

mutual

/-- Puts a JSON value into the store. -/
def Build.ofJson : Json → Build Value
  | .null => pure .none
  | .bool b => pure (.bool b)
  | .int i => pure (.int i)
  | .float x => pure (.ofFloat x)
  | .str s => pure (.text s)
  | .arr items => do Build.list (← Build.ofItems items)
  | .obj fields => do Build.dict (Mapping.ofFields (← Build.ofFields fields))

def Build.ofItems : List Json → Build (List Value)
  | [] => pure []
  | j :: js => do
    let v ← Build.ofJson j
    return v :: (← Build.ofItems js)

def Build.ofFields : List (String × Json) → Build (List (String × Value))
  | [] => pure []
  | (k, j) :: fs => do
    let v ← Build.ofJson j
    return (k, v) :: (← Build.ofFields fs)

end

namespace Scope

open Eff

variable {κ : Type}

/-- Walks up from `current` to the first scope that has a record. A chain that comes back to a scope
it has passed ends there, and so does one whose parent function fails. -/
def findFrom (e : Nat) : (fuel : Nat) → (passed : List Value) → (current : Value) →
    Eff κ (Option (Value × Value))
  | 0, _, _ => exhaust
  | fuel + 1, passed, current => do
    if current.isNone || passed.contains current then return none
    else
      let x ← engine e
      match x.records.get? current, x.parentOf with
      | some record, _ => return some (current, record)
      | none, none => return none
      | none, some parent =>
        match ← attempt (callFn parent [current]) with
        | .ok next => findFrom e fuel (current :: passed) next
        | .error f =>
          if f.isError then
            notice (.parentFailed f)
            return none
          else raise f

/-- The nearest scope with a record, and the record. -/
def find (e : Nat) (scope : Value) : Eff κ (Option (Value × Value)) := do
  findFrom e (← budget) [] scope

/-- The data that a declaration of an initial state gives: a mapping, or text or bytes to be read;
nothing for anything else. -/
def initialData (initial : Value) : Eff κ (Except Fault Mapping) := do
  let parse (src : Json.Source) : Eff κ (Except Fault Mapping) := do
    match src.stateFields with
    | .error f => return .error f
    | .ok fields => return .ok (Mapping.ofFields (← build (Build.ofFields fields)))
  let s ← store
  match initial.text?, s.look initial with
  | some t, _ => parse (.text t)
  | _, some (.bytes b) => parse (.bytes b)
  | _, _ =>
    if initial.isNone then return .ok .empty
    else match s.mapping? initial with
    | some t => return .ok t
    | none => return .error .invalid

/-- Gives a scope its record, or answers the one it has. A declaration that cannot be used is reported
and gives none. -/
def init (e : Nat) (scope initial : Value) : Eff κ Value := do
  match (← engine e).records.get? scope with
  | some record => return record
  | none =>
    match ← initialData initial with
    | .error _ =>
      notice .notInitialized
      return .none
    | .ok data =>
      let record ← Record.make data (.schedule e scope)
      modifyEngine e fun x => { x with records := x.records.insert scope record }
      if ← truthy (← engine e).config.debug then
        let shown ← alloc (.dict data)
        notice (.initialized scope shown (← store))
      return record

/-- Drops a scope's record, its watchers and its pending mark. -/
def destroy (e : Nat) (scope : Value) : Eff κ Unit := do
  if (← engine e).records.contains scope then
    Scheduler.forget e scope
    modifyEngine e fun x => { x with records := x.records.erase scope }

def state (e : Nat) (scope : Value) : Eff κ Value := do
  match ← find e scope with
  | some (_, record) => return record
  | none => return .none

/-- Writes the entries of a mapping one by one; one that cannot be written is reported and skipped. The
mapping must not grow or shrink meanwhile. -/
def setEach (data : Ref) (hook : Hook) (updates : Value) (size : Nat) : List Value → Eff κ Unit
  | [] => do
    if (((← store).mapping? updates).getD .empty).size ≠ size then raise .misuse
  | k :: ks => do
    let t := ((← store).mapping? updates).getD .empty
    if t.size ≠ size then raise .misuse
    else
      contain (Record.setPath data hook k ((t.get? k).getD .none)) Fault.isWriteFault
        fun _ => notice .keyNotWritten
      setEach data hook updates size ks

/-- Merges a mapping into the nearest record; dotted keys write below it. -/
def setState (e : Nat) (scope updates : Value) : Eff κ Unit := do
  match ← find e scope with
  | none => notice .noStateToSet
  | some (_, record) =>
    let s ← store
    match s.mapping? updates, s.record? record with
    | some t, some (data, hook) => setEach data hook updates t.size t.keys
    | _, _ => notice .updatesNotMapping

def flush (e : Nat) (scope : Value) : Eff κ Unit := do
  match ← find e scope with
  | some (owner, _) => Scheduler.flush e owner
  | none => return ()

/-- Has a callable called after every pass of the nearest record. If there is none, the initializer
may set the scope up. Answers the callable that ends the watch. -/
def watch (e : Nat) (scope callback : Value) : Eff κ Fn := do
  if scope.isNone || !callback.isCallable then close .idle
  else
    let found ← find e scope
    let found ← match found, (← engine e).initializer with
      | none, some setup =>
        contain (do let _ ← callFn setup [scope]) Fault.isError fun fault =>
          notice (.setupFailed fault)
        find e scope
      | _, _ => pure found
    match found with
    | some (owner, _) => Scheduler.watch e owner callback
    | none => close .idle

/-- Makes `pub` the publish function, if it can be called. Answers the callable that withdraws it. -/
def attachPub (e : Nat) (pub : Value) : Eff κ Fn := do
  if pub.isCallable then modifyEngine e fun x => { x with pub := pub }
  close (.detach e pub)

/-- Withdraws a publish function, unless another one has taken its place. -/
def detachPub (e : Nat) (pub : Value) : Eff κ Unit :=
  modifyEngine e fun x => if x.pub = pub then { x with pub := .none } else x

/-- The state path that an element declares for its handlers. -/
def statePathOf (e : Nat) (el : Value) : Eff κ Value := do
  let s ← store
  let config := (← engine e).config
  match ← ofExcept (s.attribute? el "attributes") with
  | none => return .none
  | some attributes =>
    match s.mapping? attributes with
    | none => return .none
    | some t =>
      let declared := (t.at? (config.pathAttribute s)).getD .none
      if s.truthy declared then return declared
      else return (t.at? (config.varAttribute s)).getD .none

def invokeHandler (e : Nat) (name : String) (scope event path : Value) : Eff κ Value := do
  match ← find e scope with
  | none => return .none
  | some (owner, record) =>
    Handler.invoke e name record ⟨scope, event, path, (← engine e).face⟩ (.flush e owner)

/-- The compiled expression of a text; each text is compiled once. -/
def compileText (text : String) : Eff κ (Option Expr) := do
  match (← read fun w => w.compiled.get? text) with
  | some known => return known
  | none =>
    match ← ofExcept (Source.compile? text) with
    | none =>
      update fun w => { w with compiled := w.compiled.insert text none }
      return none
    | some (expr, notices) =>
      notices.forM notice
      update fun w => { w with compiled := w.compiled.insert text (some expr) }
      return some expr

/-- Compiles a value as a raw expression, reporting what is malformed in it. -/
def compileValue (raw : Value) : Eff κ Expr := do
  let (expr, notices) := (Raw.ofValue (← store) raw).compile
  notices.forM notice
  return expr

/-- Evaluates a source against a record. A text is a shorthand or JSON expression, the name of a
handler, or a state path, in this order. -/
def resolve (e : Nat) (ev : Evaluation) (record : Value) (c : Capabilities) : Eff κ Value := do
  let context : Context := ⟨record, c, (← engine e).pub⟩
  match ev.source.text? with
  | some source =>
    let text := Text.trim source.toList
    let name := String.ofList text
    match ← attempt (compileText name) with
    | .error fault =>
      if fault.isValueFault then
        notice .badSource
        return .bool false
      else raise fault
    | .ok (some expr) => Evaluation.eval context expr
    | .ok none =>
      if Comparison.isName text && (← engine e).handlers.contains name then
        let path ← if ev.path.isNone && !c.el.isNone then statePathOf e c.el else pure ev.path
        invokeHandler e name ev.scope c.event path
      else
        let s ← store
        match s.record? record with
        | some (data, _) => build (Build.getPath (.ref data) (.text name))
        | none => return .none
  | none => do Evaluation.eval context (← compileValue ev.source)

/-- Evaluates a source from a scope. What goes wrong in it is reported and gives false. -/
def evaluate (e : Nat) (ev : Evaluation) : Eff κ Value := do
  match ← find e ev.scope with
  | none =>
    notice .noStateToEvaluate
    return .none
  | some (_, record) =>
    let c ← Capabilities.ofExtras ev.extras
    contain (resolve e ev record c) Fault.isError fun fault => do
      notice (.evaluationFailed fault)
      return .bool false

/-- Evaluates as a reaction to an event: unless the result is still to come, its effects are flushed
before it is answered. -/
def handle (e : Nat) (ev : Evaluation) : Eff κ Value := do
  let v ← evaluate e ev
  if !v.isAwaitable then flush e ev.scope
  return v

end Scope

end ReactiveScopes
