import ReactiveScopes.Scope

/-!
# Tasks

Coroutines and the event loop that drives them. The loop is a list of ready entries; one round runs
those that are ready at its start, and whatever they make ready waits for the next round. A task goes
on until it lets others run, waits for another task, or finishes.
-/
namespace ReactiveScopes.Task

open Eff

variable {κ : Type}

/-- Where a coroutine stands once it stops running. -/
inductive Paused (κ : Type) where
  | finished (outcome : Except Fault Value)
  | yielded (frames : List (Frame κ))
  | waiting (frames : List (Frame κ)) (task : Nat)

/-- What a coroutine does next: run client code, await a value, or hand an outcome to the code that
waits for it. -/
inductive Focus (κ : Type) where
  | act (a : Act κ Value)
  | await (v : Value)
  | routine (r : Routine κ)
  | outcome (r : Except Fault Value)

/-- Where client code stops. -/
inductive Stop (κ : Type) where
  | finished (outcome : Except Fault Value)
  | yielded (k : Except Fault Value → Act κ Value)
  | awaiting (v : Value) (k : Except Fault Value → Act κ Value)

/-- Runs client code up to where it stops. -/
def advance (perform : Command → Eff κ Value) : Act κ Value → Eff κ (Stop κ)
  | .done v => return .finished (.ok v)
  | .raise f => return .finished (.error f)
  | .look k => do
    let s ← store
    advance perform (k s)
  | .recollect k => do
    let m ← read (·.memory)
    advance perform (k m)
  | .remember m next => do
    update fun w => { w with memory := m }
    advance perform next
  | .perform c k => do
    let r ← attempt (perform c)
    advance perform (k r)
  | .yield k => return .yielded k
  | .await v k => return .awaiting v k
  | .quit => stop

/-- Writes a settled result back and does what follows. -/
def settle (job : Settlement) : Except Fault Value → Eff κ Value
  | .error f =>
    if f.isError then do
      notice (.handlerRejected f)
      return .none
    else raise f
  | .ok v => do
    Handler.writeBack job.state job.path v
    match job.afterwards with
    | .nothing => pure ()
    | .call f => do let _ ← callValue f []
    | .flush e scope => Scope.flush e scope
    return v

def promise? (n : Nat) : Eff κ (Option (Promise κ)) := read fun w => w.promises[n]?

def setPromise (n : Nat) (p : Promise κ) : Eff κ Unit :=
  update fun w => { w with promises := w.promises.setIfInBounds n p }

def modifyTask (n : Nat) (f : Task κ → Task κ) : Eff κ Unit := do
  match ← promise? n with
  | some (.task t) => setPromise n (.task (f t))
  | _ => return ()

/-- Marks a task that something begins to await in vain. -/
def hold (n : Nat) : Eff κ Unit := modifyTask n fun t => { t with held := true }

/-- Shows how far a coroutine has come. -/
def present (stage : Stage) (n : Nat) : Eff κ Unit :=
  update fun w =>
    { w with store :=
      { w.store with awaitables := w.store.awaitables.setIfInBounds n (.coroutine stage) } }

def setCoroutine (n : Nat) (p : Progress κ) (stage : Stage) : Eff κ Unit := do
  setPromise n (.coroutine p)
  present stage n

/-- Shows how far the coroutines have come that some frames belong to. -/
def showFrames (stage : Stage) (frames : List (Frame κ)) : Eff κ Unit :=
  (frames.filterMap fun
    | .leave n => some n
    | _ => none).forM (present stage)

/-- The outcome of a task that has finished. -/
def outcome? (n : Nat) : Eff κ (Option (Except Fault Value)) := do
  match ← promise? n with
  | some (.task t) =>
    match t.progress with
    | .finished r => return some r
    | _ => return none
  | _ => return none

/-- What a coroutine that is resumed by hand is told: the outcome of what it waited for, which must
have come. -/
def told : Progress κ → Eff κ (Except Fault Value)
  | .suspended r _ => return r
  | .waiting _ m => do return ((← outcome? m).getD (.error .misuse))
  | _ => return .ok .none

/-- What a coroutine leaves to the code that awaits it. It cannot end the driving of another one. -/
def leaving : Except Fault Value → Except Fault Value
  | .error f => .error (if f.kind = .ended then .misuse else f)
  | r => r

/-- Drives a coroutine until it stops; `fuel` bounds the steps between its parts. -/
def drive (perform : Command → Eff κ Value) :
    (fuel : Nat) → Focus κ → List (Frame κ) → Eff κ (Paused κ)
  | 0, _, _ => exhaust
  | fuel + 1, focus, frames => do
    match focus with
    | .act a =>
      match ← advance perform a with
      | .finished r => drive perform fuel (.outcome r) frames
      | .yielded k => return .yielded (.resume k :: frames)
      | .awaiting v k => drive perform fuel (.await v) (.resume k :: frames)
    | .await v =>
      match v with
      | .promise n =>
        match ← promise? n with
        | some (.coroutine p) =>
          match p with
          | .unstarted r =>
            setCoroutine n .running .running
            drive perform fuel (.routine r) (.leave n :: frames)
          | .suspended _ inner =>
            let r ← told p
            setCoroutine n .running .running
            drive perform fuel (.outcome r) (inner ++ .leave n :: frames)
          | .waiting inner _ =>
            let r ← told p
            setCoroutine n .running .running
            drive perform fuel (.outcome r) (inner ++ .leave n :: frames)
          | _ => drive perform fuel (.outcome (.error .misuse)) frames
        | some (.task t) =>
          match t.progress with
          | .finished r => drive perform fuel (.outcome r) frames
          | _ =>
            if t.held then drive perform fuel (.outcome (.error .misuse)) frames
            else return .waiting frames n
        | none => drive perform fuel (.outcome (.error .misuse)) frames
      | _ =>
        let f : Fault := if v.isAwaitable then .misuse else .unsupported
        drive perform fuel (.outcome (.error f)) frames
    | .routine (.client body) => drive perform fuel (.act body) frames
    | .routine (.settle v job) => drive perform fuel (.await v) (.settle job :: frames)
    | .routine (.relay v) => drive perform fuel (.await v) frames
    | .routine (.dispatch e ev) =>
      match ← attempt (Scope.evaluate e ev) with
      | .error f => drive perform fuel (.outcome (.error f)) frames
      | .ok v =>
        let frames := .flush e ev.scope :: frames
        if v.isAwaitable then drive perform fuel (.await v) frames
        else drive perform fuel (.outcome (.ok v)) frames
    | .outcome r =>
      match frames with
      | [] => return .finished r
      | .resume k :: frames => drive perform fuel (.act (k r)) frames
      | .settle job :: frames => do
        let r ← attempt (settle job r)
        drive perform fuel (.outcome r) frames
      | .flush e scope :: frames =>
        match r with
        | .error f => drive perform fuel (.outcome (.error f)) frames
        | .ok v =>
          let done ← attempt (Scope.flush e scope)
          drive perform fuel (.outcome (done.map fun _ => v)) frames
      | .leave n :: frames => do
        setCoroutine n (.finished (.ok .none)) .ended
        drive perform fuel (.outcome (leaving r)) frames

/-- What a task that is resumed is told: the outcome of what it waited for, or that it is cancelled. -/
def wakeUp (t : Task κ) : Eff κ (Option (Focus κ × List (Frame κ))) := do
  let told (r : Except Fault Value) : Except Fault Value :=
    if t.cancelling then .error .cancelled else r
  match t.progress with
  | .unstarted r =>
    if t.cancelling then return some (.outcome (.error .cancelled), [])
    else return some (.routine r, [])
  | .suspended r frames => return some (.outcome (told r), frames)
  | .waiting frames n => return some (.outcome (told ((← outcome? n).getD (.ok .none))), frames)
  | _ => return none

/-- Cancels a task: it is told so when it next runs, unless it waits for another one that can be
cancelled in its stead. Answers whether there was something to cancel. -/
def cancel : (fuel : Nat) → Nat → Eff κ Bool
  | 0, _ => exhaust
  | fuel + 1, n => do
    match ← promise? n with
    | some (.task t) =>
      let demand (t : Task κ) : Task κ := { t with requests := t.requests + 1 }
      match t.progress with
      | .finished _ => return false
      | .waiting _ m => do
        modifyTask n demand
        if !(← cancel fuel m) then modifyTask n fun t => { t with cancelling := true }
        return true
      | _ =>
        modifyTask n fun t => { demand t with cancelling := true }
        return true
    | _ => return false

/-- Whether a task of the given loop can wait for another one: not for itself, and not for one of
another loop. -/
def canWait (n loop m : Nat) : Eff κ Bool := do
  match ← promise? m with
  | some (.task t) => return n != m && t.loop == loop
  | _ => return false

/-- Runs a task until it stops, and files it where it stops. One that was cancelled meanwhile and has
finished all the same is cancelled. -/
def step (perform : Command → Eff κ Value) (n : Nat) : Eff κ Unit := do
  match ← promise? n with
  | some (.task t) =>
    match ← wakeUp t with
    | none => return ()
    | some (focus, frames) =>
      setPromise n (.task { t with progress := .running, cancelling := false })
      showFrames .running frames
      match ← drive perform (← budget) focus frames with
      | .yielded frames =>
        showFrames .suspended frames
        modifyTask n fun t => { t with progress := .suspended (.ok .none) frames }
        Queue.soon (.step n)
      | .waiting frames m =>
        showFrames .suspended frames
        if ← canWait n t.loop m then
          let cancelling := match ← promise? n with
            | some (.task t) => t.cancelling
            | _ => false
          modifyTask n fun t => { t with progress := .waiting frames m }
          modifyTask m fun t => { t with onDone := t.onDone ++ [.step n] }
          if cancelling then
            if ← cancel (← budget) m then modifyTask n fun t => { t with cancelling := false }
        else
          hold m
          modifyTask n fun t => { t with progress := .suspended (.error .misuse) frames }
          Queue.soon (.step n)
      | .finished r =>
        let (waiting, cancelling) := match ← promise? n with
          | some (.task t) => (t.onDone, t.cancelling)
          | _ => ([], false)
        let r := if cancelling && r.toBool then .error .cancelled else r
        modifyTask n fun t => { t with progress := .finished r, onDone := [] }
        waiting.forM Queue.soon
  | _ => return ()

def modifyLoop (f : Loop → Loop) : Eff κ Unit := update fun w => { w with loop := w.loop.map f }

/-- Runs one entry. A callback that fails does not disturb the loop. -/
def runEntry (perform : Command → Eff κ Value) : Ready → Eff κ Unit
  | .call f => do let _ ← attempt (callValue f [])
  | .tell f n => do let _ ← attempt (callValue f [.promise n])
  | .step n => step perform n
  | .joined => do
    modifyLoop fun l =>
      if l.joining ≤ 1 then { l with joining := 0, ready := l.ready ++ [.stop] }
      else { l with joining := l.joining - 1 }
  | .stop => modifyLoop fun l => { l with stopping := true }

/-- Runs a number of entries from the front. -/
def runEntries (perform : Command → Eff κ Value) : (count : Nat) → Eff κ Unit
  | 0 => return ()
  | count + 1 => do
    match ← read fun w => (w.loop.map Loop.ready).getD [] with
    | [] => return ()
    | entry :: rest =>
      modifyLoop fun l => { l with ready := rest }
      runEntry perform entry
      runEntries perform count

/-- Runs rounds until the loop is told to stop. With nothing ready it would wait for ever. -/
def runRounds (perform : Command → Eff κ Value) : (fuel : Nat) → Eff κ Unit
  | 0 => exhaust
  | fuel + 1 => do
    let ready := (← read fun w => (w.loop.map Loop.ready).getD []).length
    if ready = 0 then exhaust
    else
      runEntries perform ready
      if (← read fun w => (w.loop.map Loop.stopping).getD true) then
        modifyLoop fun l => { l with stopping := false }
      else runRounds perform fuel

/-- Runs the loop until a task has finished. -/
def runUntil (perform : Command → Eff κ Value) (n : Nat) : Eff κ Unit := do
  modifyTask n fun t => { t with onDone := t.onDone ++ [.stop] }
  runRounds perform (← budget)

def isUnfinished (n : Nat) : Eff κ Bool := do
  match ← promise? n with
  | some (.task _) => return (← outcome? n).isNone
  | _ => return false

/-- Cancels the tasks that are left and runs the loop until they have all finished. -/
def cancelRemaining (perform : Command → Eff κ Value) : Eff κ Unit := do
  let tasks ← (← read fun w => (w.loop.map Loop.tasks).getD []).filterM isUnfinished
  if !tasks.isEmpty then
    tasks.forM fun n => do let _ ← cancel (← budget) n
    modifyLoop fun l => { l with joining := tasks.length }
    tasks.forM fun n => modifyTask n fun t => { t with onDone := t.onDone ++ [.joined] }
    runRounds perform (← budget)

/-- Runs a new event loop for a coroutine and answers its outcome. Before the loop closes, tasks that
are left are cancelled, and two more coroutines that do nothing run to their end, each of which gives
callbacks that are still ready two rounds. -/
def runLoop (perform : Command → Eff κ Value) (r : Routine κ) : Eff κ Value := do
  if (← read (·.loop)).isSome then raise .misuse
  else
    let number ← read (·.loops)
    update fun w => { w with loops := number + 1, loop := some { number := number } }
    let main ← Handler.newTask number r
    runUntil perform main
    cancelRemaining perform
    runUntil perform (← Handler.newTask number (.client (.done .none)))
    runUntil perform (← Handler.newTask number (.client (.done .none)))
    update fun w => { w with loop := none }
    ofExcept ((← outcome? main).getD (.error .misuse))

end ReactiveScopes.Task
