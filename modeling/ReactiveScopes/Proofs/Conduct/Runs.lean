import ReactiveScopes.Proofs.Conduct.Tasks

/-!
# Runs follow the machine

All that client code can ask for keeps a discipline, so client code itself does, whatever it is. As for following the
machine, calling does so then, with any budget. What is left to say about a run is said by the machine: a moment of it
is where moves from its beginning lead.
-/
namespace ReactiveScopes

open Eff

variable {κ α : Type} {e : Nat}

namespace Obeys

variable {D : Discipline κ} [D.Furnished]

section Commands

open Client

instance (v x : Value) : Obeys D (append v x : Eff κ Value) := by
  unfold append
  refine bind fun s => ?_
  split <;> infer_instance

instance (container key v : Value) : Obeys D (setEntry container key v : Eff κ Value) := by
  unfold setEntry
  refine bind fun s => ?_
  split <;> infer_instance

instance (c : Cell) : Obeys D (Client.make c : Eff κ Value) := by
  unfold Client.make
  split <;> infer_instance

instance (initial : Value) (hook : Option Fn) : Obeys D (wrap initial hook : Eff κ Value) := by
  unfold wrap
  refine bind fun s => ?_
  split
  · infer_instance
  · split <;> infer_instance

instance (raw state : Value) (extras : Extras) (pub : Value) :
    Obeys D (reduce raw state extras pub : Eff κ Value) := by
  unfold reduce
  infer_instance

instance (c : Command) : Obeys D (performPlain c : Eff κ Value) := by
  unfold performPlain
  cases c with
  | record r op =>
    refine bind fun s => ?_
    split <;> infer_instance
  | cancel v =>
    refine bind fun s => bind fun f => ?_
    split <;> infer_instance
  | _ => infer_instance

instance (levels : Nat) (c : Command) : Obeys D (performWithin levels c : Eff κ Value) := by
  induction levels generalizing c with
  | zero => cases c <;> (unfold performWithin; infer_instance)
  | succ n ih => cases c <;> (unfold performWithin; infer_instance)

instance (c : Command) : Obeys D (perform c : Eff κ Value) := by
  unfold perform
  infer_instance

end Commands

/-- Client code keeps a discipline, whatever it does. -/
instance (a : Act κ Value) : Obeys D a.run := by
  induction a with
  | done v => unfold Act.run; infer_instance
  | raise f => unfold Act.run; infer_instance
  | look k ih => unfold Act.run; infer_instance
  | recollect k ih => unfold Act.run; infer_instance
  | remember m next ih =>
    have : Obeys D (update fun w : Session κ => { w with memory := m }) := aside fun _ _ => rfl
    unfold Act.run
    infer_instance
  | perform c k ih => unfold Act.run; infer_instance
  | yield k ih => exact ih _
  | await v k ih => exact ih _
  | quit => unfold Act.run; infer_instance

instance (c : Closure) (args : List Value) : Obeys D (c.run args : Eff κ Value) := by
  have := fun x key f => Obeys.mk (Discipline.Furnished.removeWatcher (D := D) x key f)
  unfold Closure.run
  split <;> infer_instance

instance (host : Host κ) (f : Value) (args : List Value) :
    Obeys D (applyValue host f args : Eff κ Value) := by
  unfold applyValue
  split
  · infer_instance
  · refine bind fun c => ?_
    split <;> infer_instance
  · infer_instance
  · infer_instance

end Obeys

namespace Follows

/-- A callback that is due is the first thing that is run. -/
theorem leads_applyValue {env : Env κ} (henv : env.Follows e) (host : Host κ) (f : Value)
    (w : Session κ) (ps : List OpenPass) :
    Leads e ⟨w.board e, ps, some f⟩ (applyValue host f [] env w) ps := by
  by_cases h : ∃ key, (w.board e).runsPass e key f
  · obtain ⟨key, hk⟩ := h
    obtain ⟨n, rfl, hn⟩ := hk
    have hc : w.closures[n]? = some (.pass e key) := hn
    unfold applyValue
    dsimp only
    rw [bind_read, hc]
    change Leads e _ ((Scheduler.flush e key >>= fun _ => pure Value.none : Eff κ Value) env w) ps
    refine leads_bind (leads_flush henv fun g hg => ?_) fun _ _ _ => .refl
    cases hg
    exact ⟨n, rfl, hn⟩
  · refine lead _ henv (.single (.skip _ ps f fun key hk => ?_))
    exact absurd ⟨key, hk⟩ h

end Follows

open Follows

theorem Env.follows_within (host : Host κ) (n : Nat) (e : Nat) : (Env.within host n).Follows e := by
  -- by induction on the budget, since what calling means inside a call has a smaller one
  suffices h : ∀ b, Env.Follows ⟨callWithin host n, b⟩ e from h n
  induction n with
  | zero => exact fun _ => ⟨fun _ _ _ _ => trivial, fun _ _ _ => trivial⟩
  | succ n ih =>
    intro b
    exact ⟨fun v args w ps => leads (m := applyValue host v args) _ w ps (ih n),
      fun f w ps => leads_applyValue (ih n) host f w ps⟩

namespace Session

/-- `w` is what a run of client code that began with `w₀` left when it ended in a certain way. -/
inductive Ran (w₀ : Session κ) : Outcome Value → Session κ → Prop where
  | plain (host : Host κ) (budget : Nat) (a : Act κ Value) {o : Outcome Value} {w : Session κ}
      (h : run host budget a w₀ = (o, w)) : Ran w₀ o w
  | async (host : Host κ) (budget : Nat) (a : Act κ Value) {o : Outcome Value} {w : Session κ}
      (h : runAsync host budget a w₀ = (o, w)) : Ran w₀ o w

variable {w₀ w : Session κ} {o : Outcome Value}

theorem Moment.ran (h : Moment w₀ w) : ∃ o, o ≠ .exhausted ∧ w₀.Ran o w := by
  cases h with
  | plain host budget a h ho => exact ⟨_, ho, .plain host budget a h⟩
  | async host budget a h ho => exact ⟨_, ho, .async host budget a h⟩

/-- A run is a computation, and it keeps every discipline. -/
theorem Ran.kept (ran : w₀.Ran o w) : ∃ (host : Host κ) (budget : Nat) (m : Eff κ Value),
    m (Env.within host budget) w₀ = (o, w) ∧ ∀ (D : Discipline κ) [D.Furnished], D.Holds m := by
  cases ran with
  | plain host budget a h => exact ⟨host, budget, a.run, h, fun _ _ => Obeys.kept⟩
  | async host budget a h => exact ⟨host, budget, Task.runLoop perform (.client a), h, fun _ _ => Obeys.kept⟩

/-- Moves of its machine lead an engine from where it began to where the run ended. Unless the client quit, no pass is
in progress there. -/
theorem Ran.steps (ran : w₀.Ran o w) (ho : o ≠ .exhausted) (e : Nat) :
    ∃ ps, Steps e (w₀.scene e []) (w.scene e ps) ∧ (o ≠ .stopped → ps = []) := by
  obtain ⟨host, budget, m, h, kept⟩ := ran.kept
  have follows : Follows e m := kept (Follows.discipline e)
  have leads := follows.leads _ w₀ [] (Env.follows_within host budget e)
  rw [h] at leads
  cases o with
  | value v => exact ⟨[], leads, fun _ => rfl⟩
  | fault f => exact ⟨[], leads, fun _ => rfl⟩
  | stopped =>
    obtain ⟨ps, steps⟩ := leads
    exact ⟨ps, steps, fun h => absurd rfl h⟩
  | exhausted => exact absurd rfl ho

/-- So it is at every moment of a run. -/
theorem Moment.steps (h : Moment w₀ w) (e : Nat) : ∃ ps, Steps e (w₀.scene e []) (w.scene e ps) := by
  obtain ⟨o, ho, ran⟩ := h.ran
  obtain ⟨ps, steps, -⟩ := ran.steps ho e
  exact ⟨ps, steps⟩

end Session

end ReactiveScopes
