import ReactiveScopes.Effect

/-!
# The end-of-turn queue

Callbacks posted to an engine run in posting order. A sink of the client takes them over; while an
event loop runs on this thread they go to its ready entries; otherwise they wait for the queue to be
drained.
-/
namespace ReactiveScopes.Queue

open Eff

variable {κ : Type}

def modify (e : Nat) (f : Queue → Queue) : Eff κ Unit :=
  modifyEngine e fun x => { x with queue := f x.queue }

/-- Appends an entry to the running loop. -/
def soon (entry : Ready) : Eff κ Unit :=
  update fun w => { w with loop := w.loop.map fun l => { l with ready := l.ready ++ [entry] } }

def post (e : Nat) (f : Value) : Eff κ Unit := do
  log (.posted e f)
  match (← engine e).queue.sink, ← read (·.loop) with
  | some p, _ => do let _ ← callFn p [f]
  | none, some l =>
    log (.handed e f l.number)
    soon (.call f)
  | none, none => modify e fun q => { q with posted := q.posted ++ [f] }

/-- Runs callbacks until none is left, those posted meanwhile included; answers how many. -/
def drain (e : Nat) : (fuel ran : Nat) → Eff κ Nat
  | 0, _ => exhaust
  | fuel + 1, ran => do
    match (← engine e).queue.posted with
    | [] => return ran
    | f :: rest =>
      modify e fun q => { q with posted := rest }
      log (.began e f)
      let _ ← callValue f []
      drain e fuel (ran + 1)

/-- Drains the queue. Inside a drain it does nothing: the outer one gets to whatever is left. -/
def runPending (e : Nat) : Eff κ Nat := do
  if (← engine e).queue.draining then return 0
  else
    modify e fun q => { q with draining := true }
    andFinally (do drain e (← budget) 0) (modify e fun q => { q with draining := false })

end ReactiveScopes.Queue
