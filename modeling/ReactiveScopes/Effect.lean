import ReactiveScopes.Session

/-!
# Effects

Operations on a session. They end with a value or a fault, or do not end: the client quit, or the
budget of nested calls ran out. Whatever happens, the session they leave is part of the result. Calls
of other callables go through the environment, which fixes what calling means.
-/
namespace ReactiveScopes

inductive Outcome (α : Type) where
  | value (a : α)
  | fault (f : Fault)
  /-- The client stopped the run. -/
  | stopped
  /-- The budget ran out; a larger one gets further. -/
  | exhausted
  deriving DecidableEq

/-- The outcome of what has ended with a value or a fault. -/
def Outcome.ofExcept {α : Type} : Except Fault α → Outcome α
  | .ok a => .value a
  | .error f => .fault f

/-- What calling a callable does, and the budget for loops. -/
structure Env (κ : Type) where
  call : Value → List Value → Session κ → Outcome Value × Session κ
  budget : Nat

def Eff (κ α : Type) : Type := Env κ → Session κ → Outcome α × Session κ

namespace Eff

variable {κ α β : Type}

def bind (m : Eff κ α) (f : α → Eff κ β) : Eff κ β := fun env w =>
  match m env w with
  | (.value a, w) => f a env w
  | (.fault e, w) => (.fault e, w)
  | (.stopped, w) => (.stopped, w)
  | (.exhausted, w) => (.exhausted, w)

instance : Monad (Eff κ) where
  pure a := fun _ w => (.value a, w)
  bind := bind

def raise (f : Fault) : Eff κ α := fun _ w => (.fault f, w)

def stop : Eff κ α := fun _ w => (.stopped, w)

def exhaust : Eff κ α := fun _ w => (.exhausted, w)

/-- What went wrong, if anything did. -/
def fault? : Except Fault α → Option Fault
  | .ok _ => none
  | .error f => some f

/-- Turns a fault into a value; a run that does not end stays so. -/
def attempt (m : Eff κ α) : Eff κ (Except Fault α) := fun env w =>
  match m env w with
  | (.value a, w) => (.value (.ok a), w)
  | (.fault e, w) => (.value (.error e), w)
  | (.stopped, w) => (.stopped, w)
  | (.exhausted, w) => (.exhausted, w)

def ofExcept : Except Fault α → Eff κ α
  | .ok a => pure a
  | .error e => raise e

def read (f : Session κ → α) : Eff κ α := fun _ w => (.value (f w), w)

def update (f : Session κ → Session κ) : Eff κ Unit := fun _ w => (.value (), f w)

def budget : Eff κ Nat := fun env w => (.value env.budget, w)

def store : Eff κ Store := read Session.store

def setStore (s : Store) : Eff κ Unit := update fun w => { w with store := s }

/-- Runs a building operation on the store. -/
def build (m : Build α) : Eff κ α := fun _ w =>
  match m w.store with
  | .ok (a, s) => (.value a, { w with store := s })
  | .error e => (.fault e, w)

def alloc (c : Cell) : Eff κ Value := build (Build.alloc c)

def log (e : Event) : Eff κ Unit := update fun w => { w with journal := e :: w.journal }

def notice (n : Notice) : Eff κ Unit := log (.notice n)

def engine (e : Nat) : Eff κ Engine := read fun w => w.engine e

def modifyEngine (e : Nat) (f : Engine → Engine) : Eff κ Unit := update (Session.modifyEngine e f)

/-- Calls a value; only callables can be called. -/
def callValue (v : Value) (args : List Value) : Eff κ Value := fun env w =>
  if v.isCallable then env.call v args w else (.fault .unsupported, w)

def callFn (f : Fn) (args : List Value) : Eff κ Value := callValue (.fn f) args

/-- Makes a callable. -/
def close (c : Closure) : Eff κ Fn := do
  let n ← read fun w => w.closures.size
  update fun w => { w with closures := w.closures.push c }
  return .made n

def truthy (v : Value) : Eff κ Bool := do return (← store).truthy v

/-- Runs `m`, then `after` whether or not `m` failed. -/
def andFinally (m : Eff κ α) (after : Eff κ Unit) : Eff κ α := do
  let r ← m.attempt
  after
  ofExcept r

/-- Runs `m`; an error that `contains` admits is handed to `handle`, any other goes on. -/
def contain (m : Eff κ α) (contains : Fault → Bool) (handle : Fault → Eff κ α) : Eff κ α := do
  match ← m.attempt with
  | .ok a => return a
  | .error f => if contains f then handle f else raise f

section Steps

variable {env : Env κ} {w : Session κ}

theorem bind_value {m : Eff κ α} {a : α} {w' : Session κ} (h : m env w = (.value a, w'))
    (k : α → Eff κ β) : (m >>= k) env w = k a env w' := by
  change bind m k env w = _
  rw [bind, h]

theorem bind_fault {m : Eff κ α} {f : Fault} {w' : Session κ} (h : m env w = (.fault f, w'))
    (k : α → Eff κ β) : (m >>= k) env w = (.fault f, w') := by
  change bind m k env w = _
  rw [bind, h]

theorem value_of_bind {m : Eff κ α} {k : α → Eff κ β} {b : β} {w' : Session κ}
    (h : (m >>= k) env w = (.value b, w')) :
    ∃ a w₁, m env w = (.value a, w₁) ∧ k a env w₁ = (.value b, w') := by
  change bind m k env w = _ at h
  unfold bind at h
  split at h
  · next a w₁ hm => exact ⟨a, w₁, hm, h⟩
  all_goals cases h

/-- A computation goes on by what an attempted one comes to. -/
theorem bind_attempt (m : Eff κ α) (k : Except Fault α → Eff κ β) :
    (m.attempt >>= k) env w =
      match m env w with
      | (.value a, w) => k (.ok a) env w
      | (.fault f, w) => k (.error f) env w
      | (.stopped, w) => (.stopped, w)
      | (.exhausted, w) => (.exhausted, w) := by
  change bind m.attempt k env w = _
  unfold bind attempt
  rcases m env w with ⟨_ | _ | _ | _, w'⟩ <;> rfl

theorem attempt_ofExcept {m : Eff κ α} {r : Except Fault α} {w' : Session κ} (h : m env w = (.ofExcept r, w')) :
    m.attempt env w = (.value r, w') := by
  unfold attempt
  rw [h]
  cases r <;> rfl

section Contain

variable {m : Eff κ α} {contains : Fault → Bool} {handle : Fault → Eff κ α} {w' : Session κ}

theorem contain_value {a : α} (h : m env w = (.value a, w')) :
    contain m contains handle env w = (.value a, w') := by
  unfold contain
  rw [bind_attempt, h]
  rfl

theorem contain_caught {f : Fault} (h : m env w = (.fault f, w')) (caught : contains f) :
    contain m contains handle env w = handle f env w' := by
  unfold contain
  rw [bind_attempt, h]
  dsimp only
  rw [if_pos caught]

end Contain

theorem bind_read (f : Session κ → α) (k : α → Eff κ β) : (read f >>= k) env w = k (f w) env w := rfl

theorem bind_store (k : Store → Eff κ β) : (store >>= k) env w = k w.store env w := rfl

theorem bind_engine (e : Nat) (k : Engine → Eff κ β) :
    (engine e >>= k) env w = k (w.engine e) env w := rfl

theorem bind_ofExcept_ok (a : α) (k : α → Eff κ β) :
    (ofExcept (.ok a) >>= k) env w = k a env w := rfl

theorem bind_ofExcept_error (f : Fault) (k : α → Eff κ β) :
    (ofExcept (.error f) >>= k) env w = (.fault f, w) := rfl

end Steps

end Eff

end ReactiveScopes
