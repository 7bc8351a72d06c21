import ReactiveScopes.Scope

/-!
# Directives

A directive evaluates an expression now and after every pass and hands the value to an update; a
reaction evaluates one when an event arrives. Bound through an app, both stand still while the app is
paused or not running, a missing widget is no error, and an update that comes up on another thread than
the one it was bound on is passed through the app.
-/
namespace ReactiveScopes

namespace App

open Eff

variable {κ : Type}

/-- A context is entered in which the app is paused. -/
def pause (app : Value) : Eff κ Unit := do
  log (.paused app)
  update fun w => { w with paused := insertKey app w.paused }

/-- Such a context is left. -/
def resume (app : Value) : Eff κ Unit := do
  log (.resumed app)
  update fun w => { w with paused := eraseKey app w.paused }

def member (v : Value) (name : String) : Eff κ Value := do
  match ← ofExcept ((← store).attribute? v name) with
  | some x => return x
  | none => raise .noAttribute

/-- Whether the widgets of an app can be touched: it runs and is not paused. If it does not run, what
it says about that is the answer. -/
def isSafe (app : Value) : Eff κ Value := do
  let running ← member app "is_running"
  if !(← truthy running) then return running
  else return .bool !((← read (·.paused)).contains app)

end App

namespace Update

open Eff

variable {κ : Type}

def setAttribute (target : Value) (name : String) (v : Value) : Eff κ Unit := do
  setStore (← ofExcept ((← store).setAttribute target name v))

/-- What an attribute that holds `current` becomes: a truth value stays one; false and `none` clear
any other. -/
def attributeValue (s : Store) (current v : Value) : Value :=
  match current, v with
  | .bool _, _ => .bool (s.truthy v)
  | _, .bool false => .none
  | _, _ => v

def applyAttribute (target : Value) (name : String) (v : Value) : Eff κ Unit := do
  let s ← store
  let current := (← ofExcept (s.attribute? target name)).getD .none
  setAttribute target name (attributeValue s current v)

def apply (v : Value) : Update → Eff κ Unit
  | .call f => do let _ ← callValue f [v]
  | .display target => do setAttribute target "display" (.bool (← truthy v))
  | .cssClass target name => do
    let setClass ← App.member target "set_class"
    let _ ← callValue setClass [.bool (← truthy v), name]
  | .attribute target name => applyAttribute target name v
  | .guarded app thread inner => do
    if ← truthy (← App.isSafe app) then
      if (← read Session.thread) ≠ thread then
        let marshal ← App.member app "call_from_thread"
        let _ ← callValue marshal [.fn inner, v]
      else
        let _ ← callFn inner [v]

/-- An update in which a missing widget is no error. -/
def applyLenient (v : Value) (u : Update) : Eff κ Unit :=
  contain (u.apply v) (fun f => f.kind = .noMatch) fun _ => return ()

/-- The element that an update changes. -/
def element? : Update → Option Value
  | .display target | .cssClass target _ | .attribute target _ => some target
  | .call _ | .guarded _ _ _ => none

/-- An expression that drives an element sees that element and nothing else. -/
def context (u : Update) (given : Extras) : Extras :=
  match u.element? with
  | some el => .capabilities { el := el }
  | none => given

/-- The update as it is bound through an app on the current thread. -/
def guard (app : Value) (u : Update) : Eff κ Update := do
  return .guarded app (← read Session.thread) (← close (.lenient u))

end Update

namespace Directive

open Eff

variable {κ : Type}

def refresh (d : Directive) : Eff κ Unit := do
  d.update.apply (← Scope.evaluate d.engine d.evaluation)

/-- Binds an update to an expression and answers the callable that ends it. -/
def bind (d : Directive) : Eff κ Fn := do
  let again ← close (.refresh d)
  let unsubscribe ← Scope.watch d.engine d.evaluation.scope (.fn again)
  contain d.refresh Fault.isError fun f => notice (.directiveFailed f)
  return unsubscribe

end Directive

namespace Reaction

open Eff

variable {κ : Type}

def handle (r : Reaction) (event : Value) : Eff κ Value :=
  Scope.handle r.engine
    { r.evaluation with extras := .capabilities { el := r.el, event := event } }

def react (r : Reaction) (event : Value) : Eff κ Value := do
  match r.app with
  | none => r.handle event
  | some app =>
    if ← truthy (← App.isSafe app) then
      contain (r.handle event) (fun f => f.kind = .noMatch) fun _ => return .none
    else return .none

end Reaction

end ReactiveScopes
