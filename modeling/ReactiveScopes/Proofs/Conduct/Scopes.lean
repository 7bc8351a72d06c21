import ReactiveScopes.Method.Face
import ReactiveScopes.Method.Set
import ReactiveScopes.Proofs.Conduct.Evaluation

/-!
# Engines keep a discipline

Handlers, scopes, directives and whatever else client code can ask of an engine. Only setting an engine
up touches its scheduler other than through the scheduler's operations.
-/
namespace ReactiveScopes.Obeys

open Eff

variable {κ α : Type} {D : Discipline κ} [D.Furnished]

set_option synthInstance.maxSize 400

section Handlers

open Handler

instance (x : Nat) (name handler : Value) : Obeys D (register x name handler : Eff κ Fn) := by
  have := fun n => modifyEngine_rest (D := D) (x := x)
    (f := fun y => { y with handlers := y.handlers.insert n handler }) (fun _ => rfl) fun _ => rfl
  unfold register
  split <;> infer_instance

instance (x : Nat) (name : String) (f : Value) : Obeys D (unregister x name f : Eff κ Unit) := by
  unfold unregister
  refine modifyEngine_rest (fun y => ?_) fun y => ?_
  all_goals split <;> rfl

instance (state path v : Value) : Obeys D (writeInto state path v : Eff κ Unit) := by
  unfold writeInto
  refine bind fun s => ?_
  split
  · infer_instance
  · refine bind fun f => ?_
    split <;> infer_instance

instance (state path v : Value) : Obeys D (writeBack state path v : Eff κ Unit) := by
  unfold writeBack
  infer_instance

instance (p : Promise κ) (shown : Awaitable) : Obeys D (newPromise p shown : Eff κ Nat) := by
  have : Obeys D (update fun w : Session κ =>
      { w with promises := w.promises.push p
               store := { w.store with awaitables := w.store.awaitables.push shown } }) :=
    aside fun _ _ => rfl
  unfold newPromise
  infer_instance

instance (r : Routine κ) : Obeys D (newCoroutine r : Eff κ Value) := by
  unfold newCoroutine
  infer_instance

instance (loop : Nat) (r : Routine κ) : Obeys D (newTask loop r : Eff κ Nat) := by
  have keeps (n : Nat) (l : Loop) :
      l.Keeps { l with ready := l.ready ++ [.step n], tasks := l.tasks ++ [n] } :=
    ⟨rfl, List.mem_append_left _⟩
  have := fun n => update_loop (D := D) (keeps n)
  unfold newTask
  infer_instance

instance (r : Routine κ) : Obeys D (start r : Eff κ Value) := by
  unfold start
  refine bind fun l => ?_
  split <;> infer_instance

instance (x : Nat) (name : String) (state : Value) (context : HandlerContext)
    (afterwards : Afterwards) : Obeys D (invoke x name state context afterwards : Eff κ Value) := by
  unfold invoke
  refine bind fun y => ?_
  split
  · infer_instance
  · refine bind fun s => ?_
    have rest : ∀ f current, Obeys D (do
        let told ← alloc (.context context)
        match ← attempt (callValue f [current, told]) with
        | .error fault =>
          if fault.isError then
            notice (.handlerFailed fault)
            return .none
          else raise fault
        | .ok v =>
          if v.isAwaitable then start (.settle v ⟨state, context.path, afterwards⟩)
          else
            writeBack state context.path v
            return v : Eff κ Value) := by
      intro f current
      refine bind fun told => bind fun r => ?_
      split <;> infer_instance
    have := rest
    infer_instance

instance (x : Nat) (op : RegistryOp) : Obeys D (Handler.perform x op : Eff κ Value) := by
  unfold Handler.perform
  cases op <;> infer_instance

end Handlers

section Scopes

open Scope

instance (x fuel : Nat) (passed : List Value) (current : Value) :
    Obeys D (findFrom x fuel passed current : Eff κ (Option (Value × Value))) := by
  induction fuel generalizing passed current with
  | zero => unfold findFrom; infer_instance
  | succ fuel ih =>
    unfold findFrom
    split
    · infer_instance
    · refine bind fun y => ?_
      split
      · infer_instance
      · infer_instance
      · refine bind fun next => ?_
        split <;> infer_instance

instance (x : Nat) (scope : Value) :
    Obeys D (find x scope : Eff κ (Option (Value × Value))) := by
  unfold find
  infer_instance

instance (initial : Value) : Obeys D (initialData initial : Eff κ (Except Fault Mapping)) := by
  have parse : ∀ src : Json.Source, Obeys D (match src.stateFields with
      | .error f => return .error f
      | .ok fields => return .ok (Mapping.ofFields (← build (Build.ofFields fields))) :
      Eff κ (Except Fault Mapping)) := by
    intro src
    split <;> infer_instance
  unfold initialData
  refine bind fun s => ?_
  split
  · exact parse _
  · exact parse _
  · split
    · infer_instance
    · split <;> infer_instance

instance (x : Nat) (scope initial : Value) : Obeys D (init x scope initial : Eff κ Value) := by
  have := fun record => modifyEngine_rest (D := D) (x := x)
    (f := fun y => { y with records := y.records.insert scope record }) (fun _ => rfl) fun _ => rfl
  unfold init
  refine bind fun y => ?_
  split
  · infer_instance
  · refine bind fun r => ?_
    split <;> infer_instance

instance (x : Nat) (scope : Value) : Obeys D (destroy x scope : Eff κ Unit) := by
  have := modifyEngine_rest (D := D) (x := x)
    (f := fun y => { y with records := y.records.erase scope }) (fun _ => rfl) fun _ => rfl
  unfold destroy
  infer_instance

instance (x : Nat) (scope : Value) : Obeys D (state x scope : Eff κ Value) := by
  unfold state
  refine bind fun found => ?_
  split <;> infer_instance

instance (data : Ref) (hook : Hook) (updates : Value) (size : Nat) (keys : List Value) :
    Obeys D (setEach data hook updates size keys : Eff κ Unit) := by
  induction keys with
  | nil => unfold setEach; infer_instance
  | cons k ks ih =>
    unfold setEach
    dsimp only
    infer_instance

instance (x : Nat) (scope updates : Value) : Obeys D (setState x scope updates : Eff κ Unit) := by
  unfold setState
  refine bind fun found => ?_
  split
  · infer_instance
  · refine bind fun s => ?_
    split <;> infer_instance

instance (x : Nat) (scope : Value) : Obeys D (Scope.flush x scope : Eff κ Unit) := by
  unfold Scope.flush
  refine bind fun found => ?_
  split <;> infer_instance

instance (x : Nat) (scope callback : Value) : Obeys D (Scope.watch x scope callback : Eff κ Fn) := by
  have last : ∀ found : Option (Value × Value), Obeys D (match found with
      | some (owner, _) => Scheduler.watch x owner callback
      | none => close .idle : Eff κ Fn) := by
    intro found
    split <;> infer_instance
  unfold Scope.watch
  split
  · infer_instance
  · refine bind fun found => bind fun y => ?_
    split <;> infer_instance

instance (x : Nat) (pub : Value) : Obeys D (attachPub x pub : Eff κ Fn) := by
  have := modifyEngine_rest (D := D) (x := x) (f := fun y => { y with pub := pub })
    (fun _ => rfl) fun _ => rfl
  unfold attachPub
  infer_instance

instance (x : Nat) (pub : Value) : Obeys D (detachPub x pub : Eff κ Unit) := by
  unfold detachPub
  refine modifyEngine_rest (fun y => ?_) fun y => ?_
  all_goals split <;> rfl

instance (x : Nat) (el : Value) : Obeys D (statePathOf x el : Eff κ Value) := by
  unfold statePathOf
  refine bind fun s => bind fun y => bind fun found => ?_
  split
  · infer_instance
  · split <;> infer_instance

instance (x : Nat) (name : String) (scope event path : Value) :
    Obeys D (invokeHandler x name scope event path : Eff κ Value) := by
  unfold invokeHandler
  refine bind fun found => ?_
  split <;> infer_instance

instance (text : String) : Obeys D (compileText text : Eff κ (Option Expr)) := by
  have := fun known => aside (D := D)
    (f := fun w => { w with compiled := w.compiled.insert text known }) fun _ _ => rfl
  unfold compileText
  refine bind fun known => ?_
  split
  · infer_instance
  · refine bind fun r => ?_
    split <;> infer_instance

instance (raw : Value) : Obeys D (compileValue raw : Eff κ Expr) := by
  unfold compileValue
  infer_instance

instance (x : Nat) (ev : Evaluation) (record : Value) (c : Capabilities) :
    Obeys D (resolve x ev record c : Eff κ Value) := by
  unfold resolve
  refine bind fun y => ?_
  dsimp only
  split
  · refine bind fun r => ?_
    split
    · infer_instance
    · infer_instance
    · refine bind fun z => ?_
      split
      · infer_instance
      · refine bind fun s => ?_
        split <;> infer_instance
  · infer_instance

instance (x : Nat) (ev : Evaluation) : Obeys D (evaluate x ev : Eff κ Value) := by
  unfold evaluate
  refine bind fun found => ?_
  split <;> infer_instance

instance (x : Nat) (ev : Evaluation) : Obeys D (Scope.handle x ev : Eff κ Value) := by
  unfold Scope.handle
  infer_instance

end Scopes

section Directives

instance (app : Value) : Obeys D (App.pause app : Eff κ Unit) := ⟨Discipline.Furnished.pause app⟩

instance (app : Value) : Obeys D (App.resume app : Eff κ Unit) := ⟨Discipline.Furnished.resume app⟩

instance (v : Value) (name : String) : Obeys D (App.member v name : Eff κ Value) := by
  unfold App.member
  refine bind fun s => bind fun found => ?_
  split <;> infer_instance

instance (app : Value) : Obeys D (App.isSafe app : Eff κ Value) := by
  unfold App.isSafe
  infer_instance

instance (target : Value) (name : String) (v : Value) :
    Obeys D (Update.setAttribute target name v : Eff κ Unit) := by
  unfold Update.setAttribute
  infer_instance

instance (target : Value) (name : String) (v : Value) :
    Obeys D (Update.applyAttribute target name v : Eff κ Unit) := by
  unfold Update.applyAttribute
  infer_instance

instance (u : Update) (v : Value) : Obeys D (u.apply v : Eff κ Unit) := by
  cases u <;> (unfold Update.apply; infer_instance)

instance (u : Update) (v : Value) : Obeys D (Update.applyLenient v u : Eff κ Unit) := by
  unfold Update.applyLenient
  infer_instance

instance (app : Value) (u : Update) : Obeys D (Update.guard app u : Eff κ Update) := by
  unfold Update.guard
  infer_instance

instance (d : Directive) : Obeys D (d.refresh : Eff κ Unit) := by
  unfold Directive.refresh
  infer_instance

instance (d : Directive) : Obeys D (d.bind : Eff κ Fn) := by
  unfold Directive.bind
  infer_instance

instance (r : Reaction) (event : Value) : Obeys D (r.handle event : Eff κ Value) := by
  unfold Reaction.handle
  infer_instance

instance (r : Reaction) (event : Value) : Obeys D (r.react event : Eff κ Value) := by
  unfold Reaction.react
  split <;> infer_instance

end Directives

section Engines

open Scope

instance (x : Nat) (config : Config) : Obeys D (makeFaces x config : Eff κ (Value × Value)) := by
  unfold makeFaces
  infer_instance

instance (x : Nat) (setup : Setup) : Obeys D (create x setup : Eff κ Unit) := by
  unfold create
  exact bind fun debug => bind fun faces => ⟨Discipline.Furnished.create x _⟩

instance (x : Nat) (op : EngineOp) : Obeys D (Scope.perform x op : Eff κ Value) := by
  unfold Scope.perform
  cases op <;> infer_instance

end Engines

section Faces

open Method

instance (x : Nat) (name : String) (args : List Value) :
    Obeys D (onEngine x name args : Eff κ Value) := by
  unfold onEngine
  split
  case h_13 => split <;> infer_instance
  all_goals infer_instance

instance (x : Nat) (name : String) (args : List Value) :
    Obeys D (onScheduler x name args : Eff κ Value) := by
  unfold onScheduler
  split <;> infer_instance

instance (x : Nat) (name : String) (args : List Value) :
    Obeys D (onQueue x name args : Eff κ Value) := by
  unfold onQueue
  split <;> infer_instance

instance (part : Part) (x : Nat) (name : String) (args : List Value) :
    Obeys D (onFace part x name args : Eff κ Value) := by
  unfold onFace
  split <;> infer_instance

end Faces

end ReactiveScopes.Obeys
