import ReactiveScopes.Method
import ReactiveScopes.Proofs.Conduct.Scopes

/-!
# Tasks and methods keep a discipline

Whatever an event loop runs, provided that the commands of client code keep it.
-/
namespace ReactiveScopes.Obeys

open Eff

variable {κ α : Type} {D : Discipline κ} [D.Furnished]

set_option synthInstance.maxSize 400

section Tasks

open ReactiveScopes.Task

instance (n : Nat) : Obeys D (promise? n : Eff κ (Option (Promise κ))) :=
  inferInstanceAs (Obeys D (read _))

instance (n : Nat) (p : Promise κ) : Obeys D (setPromise n p : Eff κ Unit) := aside fun _ _ => rfl

instance (n : Nat) (f : Task κ → Task κ) : Obeys D (modifyTask n f : Eff κ Unit) := by
  unfold modifyTask
  refine bind fun p => ?_
  split <;> infer_instance

instance (n : Nat) : Obeys D (hold n : Eff κ Unit) := by
  unfold hold
  infer_instance

instance (stage : Stage) (n : Nat) : Obeys D (present stage n : Eff κ Unit) := aside fun _ _ => rfl

instance (n : Nat) (p : Progress κ) (stage : Stage) :
    Obeys D (setCoroutine n p stage : Eff κ Unit) := by
  unfold setCoroutine
  infer_instance

instance (stage : Stage) (frames : List (Frame κ)) :
    Obeys D (showFrames stage frames : Eff κ Unit) := by
  unfold showFrames
  infer_instance

instance (n : Nat) : Obeys D (outcome? n : Eff κ (Option (Except Fault Value))) := by
  unfold outcome?
  refine bind fun p => ?_
  split
  · split <;> infer_instance
  · infer_instance

instance (p : Progress κ) : Obeys D (told p : Eff κ (Except Fault Value)) := by
  unfold told
  split <;> infer_instance

instance (job : Settlement) (r : Except Fault Value) : Obeys D (settle job r : Eff κ Value) := by
  unfold settle
  split
  · infer_instance
  · refine bind fun _ => ?_
    split <;> infer_instance

instance (t : Task κ) : Obeys D (wakeUp t : Eff κ (Option (Focus κ × List (Frame κ)))) := by
  unfold wakeUp
  dsimp only
  split <;> infer_instance

instance (fuel n : Nat) : Obeys D (cancel fuel n : Eff κ Bool) := by
  induction fuel generalizing n with
  | zero => unfold cancel; infer_instance
  | succ fuel ih =>
    unfold cancel
    refine bind fun p => ?_
    split
    · dsimp only
      split <;> infer_instance
    · infer_instance

instance (n loop m : Nat) : Obeys D (canWait n loop m : Eff κ Bool) := by
  unfold canWait
  refine bind fun p => ?_
  split <;> infer_instance

theorem obeys_modifyLoop {g : Loop → Loop} (hg : ∀ l : Loop, l.Keeps (g l)) :
    Obeys D (modifyLoop g : Eff κ Unit) := update_loop hg

instance (n : Nat) : Obeys D (isUnfinished n : Eff κ Bool) := by
  unfold isUnfinished
  refine bind fun p => ?_
  split <;> infer_instance

variable {p : Command → Eff κ Value} [∀ c, Obeys D (p c)]

instance (a : Act κ Value) : Obeys D (advance p a : Eff κ (Stop κ)) := by
  induction a with
  | done v => unfold advance; infer_instance
  | raise f => unfold advance; infer_instance
  | look k ih => unfold advance; infer_instance
  | recollect k ih => unfold advance; infer_instance
  | remember m next ih =>
    have : Obeys D (update fun w : Session κ => { w with memory := m }) := aside fun _ _ => rfl
    unfold advance
    infer_instance
  | perform c k ih => unfold advance; infer_instance
  | yield k ih => unfold advance; infer_instance
  | await v k ih => unfold advance; infer_instance
  | quit => unfold advance; infer_instance

instance (fuel : Nat) (focus : Focus κ) (frames : List (Frame κ)) :
    Obeys D (drive p fuel focus frames : Eff κ (Paused κ)) := by
  induction fuel generalizing focus frames with
  | zero => unfold drive; infer_instance
  | succ fuel ih =>
    unfold drive
    cases focus with
    | act a =>
      refine bind fun stop => ?_
      split <;> infer_instance
    | await v =>
      dsimp only
      split
      · refine bind fun q => ?_
        split
        · split <;> infer_instance
        · split <;> infer_instance
        · infer_instance
      · infer_instance
    | routine r =>
      cases r with
      | dispatch x ev =>
        refine bind fun r => ?_
        split <;> infer_instance
      | _ => infer_instance
    | outcome r =>
      rcases frames with _ | ⟨frame, frames⟩
      · infer_instance
      · cases frame with
        | flush x scope =>
          dsimp only
          split <;> infer_instance
        | _ => infer_instance

instance (n : Nat) : Obeys D (step p n : Eff κ Unit) := by
  unfold step
  refine bind fun q => ?_
  split
  · refine bind fun woken => ?_
    split
    · infer_instance
    · refine bind fun _ => bind fun _ => bind fun fuel => bind fun paused => ?_
      split
      · infer_instance
      · refine bind fun _ => bind fun b => ?_
        split
        · refine bind fun q => ?_
          infer_instance
        · infer_instance
      · refine bind fun q => ?_
        infer_instance
  · infer_instance

instance (entry : Ready) : Obeys D (runEntry p entry : Eff κ Unit) := by
  cases entry with
  | joined =>
    refine obeys_modifyLoop fun l => ?_
    split
    · exact ⟨rfl, List.mem_append_left _⟩
    · exact ⟨rfl, id⟩
  | stop => exact obeys_modifyLoop fun _ => ⟨rfl, id⟩
  | _ => unfold runEntry; infer_instance

instance (count : Nat) : Obeys D (runEntries p count : Eff κ Unit) :=
  ⟨Discipline.Furnished.runEntries (fun entry => Obeys.kept (D := D) (m := runEntry p entry)) count⟩

instance (fuel : Nat) : Obeys D (runRounds p fuel : Eff κ Unit) := by
  have : Obeys D (modifyLoop fun l => { l with stopping := false } : Eff κ Unit) :=
    obeys_modifyLoop fun _ => ⟨rfl, id⟩
  induction fuel with
  | zero => unfold runRounds; infer_instance
  | succ fuel ih => unfold runRounds; infer_instance

instance (n : Nat) : Obeys D (runUntil p n : Eff κ Unit) := by
  unfold runUntil
  infer_instance

instance : Obeys D (cancelRemaining p : Eff κ Unit) := by
  have := fun n => obeys_modifyLoop (D := D) (g := fun l => { l with joining := n })
    fun _ => ⟨rfl, id⟩
  unfold cancelRemaining
  refine bind fun all => bind fun tasks => ?_
  infer_instance

instance (r : Routine κ) : Obeys D (runLoop p r : Eff κ Value) := by
  have := endLoop (D := D)
  unfold runLoop
  refine bind fun running => ?_
  split
  · infer_instance
  · refine startLoop fun number => ?_
    refine bind fun main => bind fun _ => bind fun _ => bind fun _ => bind fun _ => ?_
    infer_instance

end Tasks

section Sets

open Method

instance (r : Ref) : Obeys D (itemsIn r : Eff κ (List Value)) := by
  unfold itemsIn
  refine bind fun s => ?_
  split <;> infer_instance

instance (r : Ref) (xs : List Value) : Obeys D (putItems r xs : Eff κ Unit) := by
  unfold putItems
  infer_instance

instance (xs : List Value) (v : Value) : Obeys D (holds xs v : Eff κ Bool) := by
  unfold holds
  infer_instance

instance (xs : List Value) (v : Value) : Obeys D (holdsKey xs v : Eff κ Bool) := by
  unfold holdsKey
  infer_instance

instance (v : Value) : Obeys D (Method.iterate v : Eff κ (List Value)) := by
  unfold Method.iterate
  infer_instance

instance (r : Ref) (v : Value) : Obeys D (addItem r v : Eff κ Unit) := by
  unfold addItem
  infer_instance

instance (r : Ref) (v : Value) : Obeys D (dropItem r v : Eff κ Unit) := by
  unfold dropItem
  infer_instance

instance (xs others : List Value) : Obeys D (without xs others : Eff κ (List Value)) := by
  unfold without
  infer_instance

instance (xs found vs : List Value) : Obeys D (foundIn xs found vs : Eff κ (List Value)) := by
  induction vs generalizing found with
  | nil => unfold foundIn; infer_instance
  | cons v vs ih => unfold foundIn; infer_instance

instance (xs : List Value) (v : Value) : Obeys D (common xs v : Eff κ (List Value)) := by
  unfold common
  refine bind fun s => ?_
  split <;> infer_instance

instance (held : Bool) (xs vs : List Value) : Obeys D (allAre held xs vs : Eff κ Bool) := by
  induction vs with
  | nil => unfold allAre; infer_instance
  | cons v vs ih => unfold allAre; infer_instance

instance (v : Value) : Obeys D (keysIn v : Eff κ (List Value)) := by
  unfold keysIn
  infer_instance

instance (xs : List Value) : Obeys D (Method.make xs : Eff κ Value) := by
  unfold Method.make
  refine bind fun v => ?_
  split <;> infer_instance

instance (r : Ref) (name : String) (args : List Value) :
    Obeys D (onSet r name args : Eff κ Value) := by
  unfold onSet
  refine bind fun xs => ?_
  split
  case h_6 => split <;> infer_instance
  all_goals infer_instance

end Sets

section Methods

open Method ReactiveScopes.Task

variable {p : Command → Eff κ Value} [∀ c, Obeys D (p c)]

instance (n : Nat) (focus : Focus κ) (frames : List (Frame κ)) :
    Obeys D (resume p n focus frames : Eff κ Value) := by
  unfold resume
  refine bind fun _ => bind fun _ => bind fun fuel => bind fun paused => ?_
  split
  · refine bind fun _ => ?_
    split <;> infer_instance
  · infer_instance
  · infer_instance

instance (n : Nat) (frames : List (Frame κ)) : Obeys D (interrupt p n frames : Eff κ Value) := by
  unfold interrupt
  refine bind fun _ => bind fun fuel => bind fun paused => ?_
  split
  · refine bind fun _ => ?_
    split <;> infer_instance
  · infer_instance
  · infer_instance

instance (n : Nat) : Obeys D (busy n : Eff κ Value) := by
  unfold busy
  infer_instance

instance (n : Nat) (q : Progress κ) (v : Value) : Obeys D (throwInto p n q v : Eff κ Value) := by
  unfold throwInto
  refine bind fun s => ?_
  cases q <;> infer_instance

instance (n : Nat) (q : Progress κ) (name : String) (args : List Value) :
    Obeys D (onCoroutine p n q name args : Eff κ Value) := by
  unfold onCoroutine
  split
  · cases q <;> infer_instance
  · cases q <;> infer_instance
  all_goals infer_instance

instance (t : Task κ) : Obeys D (settled t : Eff κ (Except Fault Value)) := by
  unfold settled
  split <;> infer_instance

instance (n : Nat) (t : Task κ) (name : String) (args : List Value) :
    Obeys D (onTask n t name args : Eff κ Value) := by
  unfold onTask
  split
  case h_4 =>
    refine bind fun r => ?_
    split <;> infer_instance
  all_goals infer_instance

instance (n : Nat) (name : String) (args : List Value) :
    Obeys D (onPromise p n name args : Eff κ Value) := by
  unfold onPromise
  refine bind fun q => ?_
  split <;> infer_instance

instance (owner : Value) (name : String) (args : List Value) :
    Obeys D (Method.call p owner name args : Eff κ Value) := by
  unfold Method.call
  split
  case h_9 =>
    refine bind fun s => ?_
    split <;> infer_instance
  all_goals infer_instance

end Methods

end ReactiveScopes.Obeys
