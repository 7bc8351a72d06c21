import ReactiveScopes.Proofs.Discipline
import ReactiveScopes.Proofs.Machine

/-!
# Following the machine

Every operation of the library, whatever client code it calls, takes an engine through moves of its
machine; one that comes back leaves the passes in progress as it found them. The class says so of one
operation, so that what is put together from operations that follow the machine is seen to follow it by
instance search.
-/
namespace ReactiveScopes

open Eff

variable {κ α β : Type} {e : Nat}

/-- The engine's side of a session. -/
def Session.board (w : Session κ) (e : Nat) : Board where
  scheduler := (w.engine e).scheduler
  queue := (w.engine e).queue
  closures := w.closures
  history := w.history e
  setUps := w.setUps e
  loop := w.loop
  outer := w.outer
  started := w.loops
  paused := w.paused
  doors := w.doors

/-- The scene of a session in which nothing is due. -/
def Session.scene (w : Session κ) (e : Nat) (ps : List OpenPass) : Scene := ⟨w.board e, ps, none⟩

theorem Session.Loopless.board {w : Session κ} (h : w.Loopless) : (w.board e).Loopless := by
  obtain ⟨hl, ho⟩ := h
  unfold Board.Loopless Board.numbers
  rw [List.map_eq_nil_iff, List.eq_nil_iff_forall_not_mem]
  intro l hm
  rcases List.mem_cons.1 (List.reduceOption_mem_iff.1 hm) with h | h
  · exact absurd (h.trans hl) nofun
  · exact absurd (ho _ h) nofun

/-- Moves lead from a scene to where a computation ends, with the given passes in progress; where the
client quit, with any. -/
def Leads (e : Nat) (s : Scene) (r : Outcome α × Session κ) (ps : List OpenPass) : Prop :=
  match r with
  | (.value _, w) => Steps e s (w.scene e ps)
  | (.fault _, w) => Steps e s (w.scene e ps)
  | (.stopped, w) => ∃ ps', Steps e s (w.scene e ps')
  | (.exhausted, _) => True

theorem Leads.head {s t : Scene} {r : Outcome α × Session κ} {ps : List OpenPass} (h : Steps e s t)
    (ht : Leads e t r ps) : Leads e s r ps := by
  obtain ⟨o, w⟩ := r
  cases o with
  | value a => exact h.trans ht
  | fault f => exact h.trans ht
  | stopped =>
    obtain ⟨ps', ht⟩ := ht
    exact ⟨ps', h.trans ht⟩
  | exhausted => trivial

theorem Leads.steps {s : Scene} {o : Outcome α} {w : Session κ} {ps : List OpenPass}
    (h : Leads e s (o, w) ps) (ho : o ≠ .exhausted) : ∃ ps', Steps e s (w.scene e ps') := by
  cases o with
  | value a => exact ⟨ps, h⟩
  | fault f => exact ⟨ps, h⟩
  | stopped => exact h
  | exhausted => exact absurd rfl ho

/-- What calling means takes the engine through moves, a callback that is due as its first. -/
structure Env.Follows (env : Env κ) (e : Nat) : Prop where
  call : ∀ v args w ps, Leads e (w.scene e ps) (env.call v args w) ps
  due : ∀ f w ps, Leads e ⟨w.board e, ps, some f⟩ (env.call f [] w) ps

class Follows (e : Nat) (m : Eff κ α) : Prop where
  leads : ∀ env w ps, env.Follows e → Leads e (w.scene e ps) (m env w) ps

namespace Follows

/-- Code that comes back has taken the engine on by some steps, whatever passes are in progress. -/
theorem steps {m : Eff κ α} [Follows e m] {env : Env κ} {w w' : Session κ} {a : α} (henv : env.Follows e)
    (h : m env w = (.value a, w')) (ps : List OpenPass) : Steps e (w.scene e ps) (w'.scene e ps) := by
  have led := leads (m := m) env w ps henv
  rwa [h] at led

theorem lead (m : Eff κ α) [Follows e m] {env : Env κ} {w : Session κ} {s : Scene}
    {ps : List OpenPass} (henv : env.Follows e) (h : Steps e s (w.scene e ps)) :
    Leads e s (m env w) ps :=
  Leads.head h (leads env w ps henv)

/-- A computation that leads on after the first one. -/
theorem leads_bind {m : Eff κ α} {f : α → Eff κ β} {env : Env κ} {w : Session κ} {s : Scene}
    {ps : List OpenPass} (hm : Leads e s (m env w) ps)
    (hf : ∀ a w', m env w = (.value a, w') → Leads e (w'.scene e ps) (f a env w') ps) :
    Leads e s ((m >>= f) env w) ps := by
  change Leads e s (Eff.bind m f env w) ps
  unfold Eff.bind
  rcases h : m env w with ⟨_ | _ | _ | _, w'⟩
  · rw [h] at hm
    exact Leads.head hm (hf _ w' h)
  · rw [h] at hm
    exact hm
  · rw [h] at hm
    exact hm
  · trivial

theorem bind {m : Eff κ α} {f : α → Eff κ β} [Follows e m] (hf : ∀ a, Follows e (f a)) :
    Follows e (m >>= f) where
  leads env w ps henv := leads_bind (leads env w ps henv) fun a w' _ => (hf a).leads env w' ps henv

/-- What is attempted leads where it would have led. -/
theorem leads_attempt {m : Eff κ α} {env : Env κ} {w : Session κ} {s : Scene} {ps : List OpenPass}
    (h : Leads e s (m env w) ps) : Leads e s (m.attempt env w) ps := by
  unfold attempt
  split
  · next h' => rwa [h'] at h
  · next h' => rwa [h'] at h
  · next h' => rwa [h'] at h
  · trivial

/-- To follow the machine is a discipline. -/
def discipline (e : Nat) : Discipline κ := ⟨fun m => Follows e m⟩

instance : (discipline e : Discipline κ).Composes where
  pure _ := ⟨fun _ _ _ _ => .refl⟩
  raise _ := ⟨fun _ _ _ _ => .refl⟩
  stop := ⟨fun _ _ ps _ => ⟨ps, .refl⟩⟩
  exhaust := ⟨fun _ _ _ _ => trivial⟩
  read _ := ⟨fun _ _ _ _ => .refl⟩
  budget := ⟨fun _ _ _ _ => .refl⟩
  bind hm hf := @bind _ _ _ _ _ _ hm hf
  attempt hm := ⟨fun env w ps henv => leads_attempt (hm.leads env w ps henv)⟩

instance {m : Eff κ α} [follows : Follows e m] : Obeys (discipline e) m := ⟨follows⟩

instance (priority := low) {m : Eff κ α} [obeys : Obeys (discipline e) m] : Follows e m := obeys.kept

/-- A change that leaves the engine's side alone. -/
theorem aside {f : Session κ → Session κ} (h : ∀ w, (f w).board e = w.board e) :
    Follows e (update f) where
  leads env w ps _ := by
    change Steps e (w.scene e ps) ((f w).scene e ps)
    rw [Session.scene, Session.scene, h]

instance (m : Build α) : Follows e (build m : Eff κ α) where
  leads env w ps _ := by
    unfold build
    split <;> exact .refl

instance (c : Cell) : Follows e (alloc c : Eff κ Value) := inferInstanceAs (Follows e (build _))

/-- An event of another engine. -/
theorem log_other {x : Nat} (ev : Event) (about : ev.engine? = some x) (hx : x ≠ e) :
    Follows e (log ev : Eff κ Unit) :=
  aside fun w => by
    have h : ev.engine? ≠ some e := by simpa [about] using hx
    have hs : ev.sets e = false := Event.sets_of_ne h
    have hd : ev.door? = none := Event.door?_of_engine? about
    simp [Session.board, Session.history, Session.setUps, Session.engine, Session.doors, h, hs, hd]

instance (n : Notice) : Follows e (notice n : Eff κ Unit) := aside fun _ => rfl

/-- A change of another engine. -/
theorem modifyEngine_other {x : Nat} (h : x ≠ e) (f : Engine → Engine) :
    Follows e (modifyEngine x f : Eff κ Unit) :=
  aside fun w => by
    have hx : (w.modifyEngine x f).engine e = w.engine e := by simp [h]
    unfold Session.board
    rw [hx]
    rfl

/-- One move. -/
theorem move {f : Session κ → Session κ} (h : ∀ w ps, Step e (w.scene e ps) ((f w).scene e ps)) :
    Follows e (update f) :=
  ⟨fun _ w ps _ => .single (h w ps)⟩

/-- A change of the loops that run. -/
theorem move_loops {f : Session κ → Session κ}
    (h : ∀ w, ∃ l o n, (f w).board e = { w.board e with loop := l, outer := o, started := n } ∧
      Shift (w.board e).live w.loops (l :: o).reduceOption n) : Follows e (update f) :=
  move fun w ps => by
    obtain ⟨l, o, n, hb, hs⟩ := h w
    rw [Session.scene, Session.scene, hb]
    exact .loops _ ps l o n hs

/-- The loop of this thread goes on. -/
theorem move_loop {g : Loop → Loop} (hg : ∀ l : Loop, l.Keeps (g l)) :
    Follows e (update fun w : Session κ => { w with loop := w.loop.map g }) :=
  move_loops fun w => ⟨w.loop.map g, w.outer, w.loops, rfl, .current w.outer w.loops hg⟩

/-- A callable is made that is no callback for a pass of the engine. -/
theorem follows_close {c : Closure} (h : ∀ key, c ≠ .pass e key) :
    Follows e (Eff.close c : Eff κ Fn) := by
  have hc : Follows e (update fun w : Session κ => { w with closures := w.closures.push c }) :=
    move fun w ps => Step.close (w.board e) ps c h
  unfold Eff.close
  infer_instance

instance (v : Value) (args : List Value) : Follows e (callValue v args : Eff κ Value) where
  leads env w ps henv := by
    unfold callValue
    split
    · exact henv.call v args w ps
    · exact .refl

/-- A callback that is due is called. -/
theorem leads_due {env : Env κ} (henv : env.Follows e) (f : Value) (w : Session κ)
    (ps : List OpenPass) : Leads e ⟨w.board e, ps, some f⟩ (callValue f [] env w) ps := by
  unfold callValue
  split
  · exact henv.due f w ps
  · next hc =>
    refine .single (.skip _ ps f fun key hk => ?_)
    obtain ⟨n, rfl, _⟩ := hk
    exact absurd rfl hc

instance (f : Fn) (args : List Value) : Follows e (callFn f args : Eff κ Value) :=
  inferInstanceAs (Follows e (callValue _ _))

end Follows

end ReactiveScopes
