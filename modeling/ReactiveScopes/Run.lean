import ReactiveScopes.Expr.Value
import ReactiveScopes.Method

/-!
# Running client code

What every command does, what calling every callable does, and how the two are tied together: a call
made with a budget gives the calls inside it a smaller one, so a run that ends does so for every larger
budget in the same way.
-/
namespace ReactiveScopes

open Eff

variable {κ : Type}

namespace Client

/-- In-place changes that client code makes to its own containers. -/
def append (v x : Value) : Eff κ Value := do
  let s ← store
  match v, s.look v with
  | .ref r, some (.list xs) => setStore (s.put r (.list (xs ++ [x]))); return .none
  | _, _ => raise .noAttribute

def setEntry (container key v : Value) : Eff κ Value := do
  let s ← store
  match container, s.look container, key with
  | .ref r, some (.list xs), .int i =>
    let i := if i < 0 then i + xs.length else i
    if 0 ≤ i && i < xs.length then
      setStore (s.put r (.list (xs.set i.toNat v)))
      return .none
    else raise .outOfRange
  | _, some (.dict _), .text k => do Path.assign container k v; return .none
  | _, some (.record _ _), .text k => do Path.assign container k v; return .none
  | _, _, _ => raise .unsupported

/-- Records are made by wrapping only. -/
def make : Cell → Eff κ Value
  | .record _ _ => raise .unsupported
  | c => alloc c

/-- The data that a record begins with: a mapping, or pairs; nothing for whatever is empty. -/
def wrap (initial : Value) (hook : Option Fn) : Eff κ Value := do
  let hook := (hook.map Hook.fn).getD .none
  let s ← store
  if !s.truthy initial then Record.make .empty hook
  else match s.mapping? initial with
    | some t => Record.make t hook
    | none =>
      let pairs ← ofExcept ((← ofExcept (s.iterate initial)).mapM (Record.pair? s))
      Record.make (← ofExcept (s.mappingOf pairs)) hook

end Client

/-- Evaluates a raw expression on its own. -/
def reduce (raw state : Value) (extras : Extras) (pub : Value) : Eff κ Value := do
  let c ← Capabilities.ofExtras extras
  Evaluation.eval ⟨state, c, pub⟩ (← Scope.compileValue raw)

def enterThread : Eff κ Unit := update fun w => { w with loop := none, outer := w.loop :: w.outer }

def leaveThread : Eff κ Unit := update fun w =>
  match w.outer with
  | [] => w
  | l :: outer => { w with loop := l, outer := outer }

/-- The commands that do not run an event loop. -/
def performPlain : Command → Eff κ Value
  | .make c => Client.make c
  | .wrap initial hook => Client.wrap initial hook
  | .compile raw => do build (Build.expr (← Scope.compileValue raw))
  | .reduce raw state extras pub => reduce raw state extras pub
  | .append v x => Client.append v x
  | .setEntry container key v => Client.setEntry container key v
  | .add a b => build (Arithmetic.add a b)
  | .setPath v path x => do Path.set v path x; return .none
  | .setAttribute v name x => do Update.setAttribute v name x; return .none
  | .applyAttribute target name v => do Update.applyAttribute target name v; return .none
  | .call f args => callValue f args
  | .record r op => do
    match (← store).record? r with
    | some (data, hook) => Record.perform data hook op
    | none => raise .noAttribute
  | .create e setup => do Scope.create e setup; return .none
  | .engine e op => Scope.perform e op
  | .scheduler e op => Scheduler.perform e id op
  | .queue e op => Queue.perform e op
  | .registry e op => Handler.perform e op
  | .pause app => do App.pause app; return .none
  | .resume app => do App.resume app; return .none
  | .isSafe app => App.isSafe app
  | .enterThread => do enterThread; return .none
  | .leaveThread => do leaveThread; return .none
  | .cancel v => do
    match ← ofExcept ((← store).attribute? v "cancel") with
    | some f => callValue f []
    | none => raise .noAttribute
  | .noticeCount => do
    return .int (← read fun w => w.journal.countP fun
      | .notice _ => true
      | _ => false)
  | .runLoop _ => raise .misuse

/-- Every command. A loop that code on a loop runs, on another thread, is one level deeper. -/
def performWithin : (levels : Nat) → Command → Eff κ Value
  | n + 1, .runLoop v => Task.runLoop (performWithin n) (.relay v)
  | 0, .runLoop _ => exhaust
  | _, c => performPlain c

def perform (c : Command) : Eff κ Value := do performWithin (← budget) c

/-- Runs client code that is not a coroutine: there is nothing it could wait for. -/
def Act.run : Act κ Value → Eff κ Value
  | .done v => return v
  | .raise f => Eff.raise f
  | .look k => do
    let s ← Eff.store
    (k s).run
  | .recollect k => do
    let m ← Eff.read (·.memory)
    (k m).run
  | .remember m next => do
    Eff.update fun w => { w with memory := m }
    next.run
  | .perform c k => do
    let r ← Eff.attempt (ReactiveScopes.perform c)
    (k r).run
  | .yield k => (k (.error .misuse)).run
  | .await _ k => (k (.error .misuse)).run
  | .quit => Eff.stop

/-- What a callable of the library does. Most take no argument. -/
def Closure.run : Closure → List Value → Eff κ Value
  | .idle, [] => return .none
  | .pass e scope, [] => do Scheduler.flush e scope; return .none
  | .unsubscribe e scope f, [] => do
    Scheduler.modify e fun s => s.removeWatcher scope f
    return .none
  | .unregister e name f, [] => do Handler.unregister e name f; return .none
  | .detach e pub, [] => do Scope.detachPub e pub; return .none
  | .refresh d, [] => do d.refresh; return .none
  | .lenient u, [v] => do Update.applyLenient v u; return .none
  | .react r, [] => r.react .none
  | .react r, [event] => r.react event
  | _, _ => raise .unsupported

/-- Calls a callable. -/
def applyValue (host : Host κ) (f : Value) (args : List Value) : Eff κ Value := do
  match f with
  | .fn (.client name) =>
    let code := host name
    if code.isAsync then Handler.newCoroutine (.client (code.body args))
    else (code.body args).run
  | .fn (.made n) =>
    match ← read fun w => w.closures[n]? with
    | some c => c.run args
    | none => raise .unsupported
  | .method owner name _ => Method.call perform owner name args
  | _ => raise .unsupported

/-- Calling with a budget of nested calls. -/
def callWithin (host : Host κ) : (budget : Nat) → Value → List Value → Session κ →
    Outcome Value × Session κ
  | 0, _, _ => fun w => (.exhausted, w)
  | n + 1, f, args => applyValue host f args ⟨callWithin host n, n⟩

def Env.within (host : Host κ) (budget : Nat) : Env κ := ⟨callWithin host budget, budget⟩

namespace Session

/-- Runs client code outside any event loop. -/
def run (host : Host κ) (budget : Nat) (a : Act κ Value) (w : Session κ) :
    Outcome Value × Session κ :=
  a.run (Env.within host budget) w

/-- Runs client code as the main coroutine of an event loop. -/
def runAsync (host : Host κ) (budget : Nat) (a : Act κ Value) (w : Session κ) :
    Outcome Value × Session κ :=
  Task.runLoop perform (.client a) (Env.within host budget) w

end Session

end ReactiveScopes
