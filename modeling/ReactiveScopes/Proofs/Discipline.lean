import ReactiveScopes.Run

/-!
# Disciplines

A discipline is a property of computations that whatever is put together from computations which have it has again.
What it comes down to is then to be shown of the few operations that touch a session themselves, and instance search
goes through the rest of the library.
-/
namespace ReactiveScopes

open Eff

variable {κ α β : Type}

/-- A property of computations, whatever their results are. -/
structure Discipline (κ : Type) where
  Holds : {α : Type} → Eff κ α → Prop

class Obeys (D : Discipline κ) (m : Eff κ α) : Prop where
  kept : D.Holds m

namespace Discipline

/-- What does not touch the session has the property, and so has what is put together from computations that have. -/
class Composes (D : Discipline κ) : Prop where
  pure {α : Type} (a : α) : D.Holds (Pure.pure a : Eff κ α)
  raise {α : Type} (f : Fault) : D.Holds (Eff.raise f : Eff κ α)
  stop {α : Type} : D.Holds (Eff.stop : Eff κ α)
  exhaust {α : Type} : D.Holds (Eff.exhaust : Eff κ α)
  read {α : Type} (f : Session κ → α) : D.Holds (Eff.read f)
  budget : D.Holds (Eff.budget : Eff κ Nat)
  bind {α β : Type} {m : Eff κ α} {f : α → Eff κ β} (hm : D.Holds m) (hf : ∀ a, D.Holds (f a)) :
    D.Holds (m >>= f)
  attempt {α : Type} {m : Eff κ α} (hm : D.Holds m) : D.Holds m.attempt

end Discipline

namespace Obeys

variable {D : Discipline κ} [D.Composes]

theorem bind {m : Eff κ α} {f : α → Eff κ β} [hm : Obeys D m] (hf : ∀ a, Obeys D (f a)) : Obeys D (m >>= f) :=
  ⟨Discipline.Composes.bind hm.kept fun a => (hf a).kept⟩

instance {m : Eff κ α} {f : α → Eff κ β} [Obeys D m] [∀ a, Obeys D (f a)] : Obeys D (m >>= f) :=
  bind fun _ => inferInstance

instance (a : α) : Obeys D (pure a : Eff κ α) := ⟨Discipline.Composes.pure a⟩

instance (f : Fault) : Obeys D (raise f : Eff κ α) := ⟨Discipline.Composes.raise f⟩

instance : Obeys D (stop : Eff κ α) := ⟨Discipline.Composes.stop⟩

instance : Obeys D (exhaust : Eff κ α) := ⟨Discipline.Composes.exhaust⟩

instance (f : Session κ → α) : Obeys D (read f) := ⟨Discipline.Composes.read f⟩

instance : Obeys D (budget : Eff κ Nat) := ⟨Discipline.Composes.budget⟩

instance {m : Eff κ α} [hm : Obeys D m] : Obeys D m.attempt := ⟨Discipline.Composes.attempt hm.kept⟩

instance : Obeys D (store : Eff κ Store) := inferInstanceAs (Obeys D (read _))

instance (x : Nat) : Obeys D (engine x : Eff κ Engine) := inferInstanceAs (Obeys D (read _))

instance (r : Except Fault α) : Obeys D (ofExcept r : Eff κ α) := by
  unfold Eff.ofExcept
  split <;> infer_instance

instance {c : Prop} [Decidable c] {a b : Eff κ α} [Obeys D a] [Obeys D b] : Obeys D (if c then a else b) := by
  split <;> infer_instance

instance {m : Eff κ α} {after : Eff κ Unit} [Obeys D m] [Obeys D after] : Obeys D (andFinally m after) := by
  unfold andFinally
  infer_instance

instance {m : Eff κ α} {p : Fault → Bool} {handle : Fault → Eff κ α} [Obeys D m] [∀ f, Obeys D (handle f)] :
    Obeys D (contain m p handle) := by
  unfold contain
  refine bind fun r => ?_
  split <;> infer_instance

instance {γ : Type} {f : γ → Eff κ PUnit} [∀ a, Obeys D (f a)] (xs : List γ) : Obeys D (xs.forM f) := by
  induction xs with
  | nil => unfold List.forM; infer_instance
  | cons x xs ih => unfold List.forM; infer_instance

instance {γ : Type} {f : γ → Eff κ α} [∀ a, Obeys D (f a)] (xs : List γ) : Obeys D (xs.mapM f) := by
  suffices h : ∀ ys, Obeys D (List.mapM.loop f xs ys) from h []
  induction xs with
  | nil => intro ys; unfold List.mapM.loop; infer_instance
  | cons x xs ih => intro ys; unfold List.mapM.loop; infer_instance

instance {γ : Type} {f : γ → Eff κ Bool} [∀ a, Obeys D (f a)] (xs : List γ) : Obeys D (xs.filterM f) := by
  have h : ∀ ys, Obeys D (List.filterAuxM f xs ys) := by
    induction xs with
    | nil => intro ys; unfold List.filterAuxM; infer_instance
    | cons x xs ih => intro ys; unfold List.filterAuxM; infer_instance
  unfold List.filterM
  infer_instance

instance {γ : Type} {f : α → γ → Eff κ α} [∀ a x, Obeys D (f a x)] (a : α) (xs : List γ) :
    Obeys D (xs.foldlM f a) := by
  induction xs generalizing a with
  | nil => unfold List.foldlM; infer_instance
  | cons x xs ih => unfold List.foldlM; infer_instance

instance (v : Value) : Obeys D (truthy v : Eff κ Bool) := by
  unfold truthy
  infer_instance

-- What a queue and a scheduler do has the property if what they tell of has it, with the changes they make and the
-- calls.
section Engines

variable {x : Nat} {key : Value}

theorem post {f : Value} [∀ g args, Obeys D (callFn g args : Eff κ Value)] [Obeys D (Queue.soon (.call f) : Eff κ Unit)]
    (posted : Obeys D (log (.posted x f) : Eff κ Unit)) (handed : ∀ n, Obeys D (log (.handed x f n) : Eff κ Unit))
    (modify : ∀ g : List Value → List Value,
      Obeys D (Queue.modify x fun q => { q with posted := g q.posted } : Eff κ Unit)) :
    Obeys D (Queue.post x f : Eff κ Unit) := by
  have := modify (· ++ [f])
  unfold Queue.post
  refine bind fun _ => bind fun _ => bind fun _ => ?_
  split <;> infer_instance

theorem drain [∀ v args, Obeys D (callValue v args : Eff κ Value)]
    (began : ∀ f, Obeys D (log (.began x f) : Eff κ Unit))
    (modify : ∀ g : List Value → List Value,
      Obeys D (Queue.modify x fun q => { q with posted := g q.posted } : Eff κ Unit))
    (fuel ran : Nat) : Obeys D (Queue.drain x fuel ran : Eff κ Nat) := by
  induction fuel generalizing ran with
  | zero => unfold Queue.drain; infer_instance
  | succ fuel ih =>
    have := fun rest => modify fun _ => rest
    unfold Queue.drain
    refine bind fun _ => ?_
    split <;> infer_instance

theorem trace [∀ f args, Obeys D (callFn f args : Eff κ Value)] [∀ c, Obeys D (alloc c : Eff κ Value)]
    [∀ n, Obeys D (notice n : Eff κ Unit)]
    (modify : ∀ g : List (Value × Option (List Value)) → List (Value × Option (List Value)),
      Obeys D (Scheduler.modify x fun s => { s with tracing := g s.tracing } : Eff κ Unit)) :
    Obeys D (Scheduler.trace x key : Eff κ (List Value)) := by
  have := modify ((key, none) :: ·)
  have := modify List.tail
  have : Obeys D (Scheduler.shownState x key : Eff κ Value) := by
    unfold Scheduler.shownState
    refine bind fun y => ?_
    split
    · infer_instance
    · infer_instance
    · refine bind fun s => ?_
      split <;> infer_instance
  unfold Scheduler.trace Scheduler.scheduler
  dsimp only
  refine bind fun s => ?_
  split
  · infer_instance
  · refine bind fun _ => bind fun _ => bind fun _ => bind fun _ => ?_
    infer_instance

theorem callWatchers [∀ v args, Obeys D (callValue v args : Eff κ Value)] [∀ n, Obeys D (notice n : Eff κ Unit)]
    (called : ∀ f, Obeys D (log (.watcherCalled x key f) : Eff κ Unit)) (fs : List Value) :
    Obeys D (Scheduler.callWatchers x key fs : Eff κ Unit) := by
  induction fs with
  | nil => unfold Scheduler.callWatchers; infer_instance
  | cons f fs ih => unfold Scheduler.callWatchers; infer_instance

theorem notify [Obeys D (Scheduler.trace x key : Eff κ (List Value))] [Obeys D (Scheduler.enqueue x key : Eff κ Unit)]
    [∀ fs, Obeys D (Scheduler.callWatchers x key fs : Eff κ Unit)]
    (modify : ∀ g, Obeys D (Scheduler.modify x g : Eff κ Unit))
    (began : ∀ fs, Obeys D (log (.passBegan x key fs) : Eff κ Unit))
    (ended : ∀ fault, Obeys D (log (.passEnded x key fault) : Eff κ Unit)) :
    Obeys D (Scheduler.notify x key : Eff κ Unit) := by
  have (fs : List Value) : Obeys D (Scheduler.runPass x key fs : Eff κ Unit) := by
    unfold Scheduler.runPass Scheduler.scheduler
    refine bind fun _ => bind fun _ => bind fun called => bind fun _ => bind fun _ => ?_
    infer_instance
  unfold Scheduler.notify Scheduler.scheduler
  refine bind fun s => ?_
  split <;> infer_instance

theorem named (modify : ∀ g : List Value → List Value,
      Obeys D (Scheduler.modify x fun s => { s with names := g s.names } : Eff κ Unit)) :
    Obeys D (Scheduler.named x key : Eff κ Value) := by
  have := modify (· ++ [key])
  unfold Scheduler.named Scheduler.scheduler
  refine bind fun s => ?_
  split
  · infer_instance
  · refine bind fun y => bind fun known => ?_
    split <;> infer_instance

end Engines

end Obeys

end ReactiveScopes
