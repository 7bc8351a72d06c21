import ReactiveScopes.Proofs.Conduct.Runs

/-!
# Paused apps

Contexts pause an app from where they are entered to where they are left, whether or not their body fails. Leaving one
ends the pause: an app is paused if the last that was done about it was to enter a context. So as long as no context of
an app is entered inside of another one of the same app, it stands still in all of them, and only there.
-/
namespace ReactiveScopes

open Eff

variable {κ α : Type} {e : Nat} {w w' w₀ : Session κ} {app running : Value} {active : List Value} {ds : List Door}
  {env : Env κ}

namespace Door

/-- The app that it is about. -/
def about : Door → Value
  | enter app | leave app => app

/-- The apps that are paused after contexts were entered and left, the last one first. -/
def after (paused : List Value) (ds : List Door) : List Value := ds.foldr (fun d paused => d.pass paused) paused

/-- An app is paused if the last that was done about it was to enter a context. -/
theorem mem_after (ds : List Door) (app : Value) :
    app ∈ after [] ds ↔ ds.find? (·.about = app) = some (.enter app) := by
  induction ds with
  | nil => simp [after]
  | cons d ds ih =>
    rw [List.find?_cons]
    cases d with
    | enter a =>
      rw [show after [] (.enter a :: ds) = insertKey a (after [] ds) from rfl, mem_insertKey, ih]
      by_cases same : a = app
      · simp [about, same]
      · simp [about, same, Ne.symm same]
    | leave a =>
      rw [show after [] (.leave a :: ds) = eraseKey a (after [] ds) from rfl, mem_eraseKey, ih]
      by_cases same : a = app
      · simp [about, same]
      · simp [about, same, Ne.symm same]

/-- Contexts are left after they were entered, and none is entered inside of another one of the same app. The second
list has the apps whose contexts have still to be left, the innermost first as long as they are nested. -/
inductive Contexts : List Door → List Value → Prop
  | none : Contexts [] []
  | enter {ds : List Door} {active : List Value} {app : Value} (before : Contexts ds active) (new : app ∉ active) :
      Contexts (.enter app :: ds) (app :: active)
  | leave {ds : List Door} {active : List Value} {app : Value} (before : Contexts ds active) (inside : app ∈ active) :
      Contexts (.leave app :: ds) (active.erase app)

theorem Contexts.nodup (h : Contexts ds active) : active.Nodup := by
  induction h with
  | none => exact List.nodup_nil
  | enter _ new ih => exact List.nodup_cons.2 ⟨new, ih⟩
  | leave _ _ ih => exact ih.erase _

/-- The apps with a context that has still to be left are those that are paused. -/
theorem Contexts.mem_after (h : Contexts ds active) (app : Value) : app ∈ after [] ds ↔ app ∈ active := by
  induction h with
  | none => exact Iff.rfl
  | enter before new ih => exact mem_insertKey.trans ((or_congr_right ih).trans List.mem_cons.symm)
  | leave before inside ih =>
    rw [before.nodup.mem_erase_iff]
    exact mem_eraseKey.trans ((and_congr_left' ih).trans and_comm)

end Door

namespace Board

/-- The apps that are paused, and the contexts that were entered and left. -/
def apps (b : Board) : List Value × List Door := (b.paused, b.doors)

theorem apps_steady : Steady apps := ⟨fun _ _ => rfl, fun _ _ => rfl, fun _ _ _ => rfl, fun _ _ _ _ => rfl⟩

end Board

/-- A move enters or leaves a context, or it has nothing to do with apps. -/
theorem Step.apps {s t : Scene} (h : Step e s t) :
    t.board.apps = s.board.apps ∨ ∃ d : Door, t.board.apps = (d.pass s.board.paused, d :: s.board.doors) := by
  cases h with
  | door b ps d => exact .inr ⟨d, rfl⟩
  | request b ps key => exact .inl (Board.apps_steady.request b e key)
  | flush b ps key => exact .inl (Board.apps_steady.beginPass (b.unmark key) e key ps)
  | notify b ps key => exact .inl (Board.apps_steady.beginPass (b.note _) e key ps)
  | finish b ps key => exact .inl (Board.apps_steady.finishPass b e key)
  | _ => exact .inl rfl

/-- The apps that are paused are what the contexts that were entered and left have made of them. -/
def Board.Tallied (b : Board) : Prop := b.paused = Door.after [] b.doors

theorem Steps.tallied {s t : Scene} (h : Steps e s t) (hs : s.board.Tallied) : t.board.Tallied := by
  induction h with
  | refl => exact hs
  | @tail s t _ step ih =>
    unfold Board.Tallied at ih ⊢
    rcases step.apps with same | ⟨d, passed⟩
    · obtain ⟨paused, doors⟩ := Prod.mk.inj same
      rw [paused, doors, ih]
    · obtain ⟨paused, doors⟩ := Prod.mk.inj passed
      rw [paused, doors, ih]
      rfl

namespace Door

def event : Door → Event
  | enter app => .paused app
  | leave app => .resumed app

def command : Door → Command
  | enter app => .pause app
  | leave app => .resume app

end Door

namespace Session

/-- A context is entered or left. -/
def through (w : Session κ) (d : Door) : Session κ :=
  { w with journal := d.event :: w.journal, paused := d.pass w.paused }

theorem doors_through (w : Session κ) (d : Door) : (w.through d).doors = d :: w.doors := by
  cases d <;> rfl

/-- The apps that are paused are what the contexts that were entered and left have made of them. -/
def Tallied (w : Session κ) : Prop := w.paused = Door.after [] w.doors

theorem Tallied.steps {ps ps' : List OpenPass} (h : w.Tallied) (steps : Steps e (w.scene e ps) (w'.scene e ps')) :
    w'.Tallied :=
  steps.tallied h

/-- A session of a run: the one at a moment of it, or one that anything which the library does then, one thing after
another, leads to. -/
inductive Amid (w₀ : Session κ) : Session κ → Prop where
  | moment {w : Session κ} (h : Moment w₀ w) : Amid w₀ w
  | next {α : Type} {w w' : Session κ} {o : Outcome α} (before : Amid w₀ w) (m : Eff κ α) (follows : Follows 0 m)
      (host : Host κ) (budget : Nat) (run : m (Env.within host budget) w = (o, w')) (ends : o ≠ .exhausted) :
      Amid w₀ w'

theorem Amid.tallied (amid : w₀.Amid w) (start : w₀.Tallied) : w.Tallied := by
  induction amid with
  | moment h =>
    obtain ⟨ps, steps⟩ := h.steps 0
    exact start.steps steps
  | @next _ w w' o before m follows host budget run ends ih =>
    have leads : Leads 0 (w.scene 0 []) (m (Env.within host budget) w) [] :=
      follows.leads _ w [] (Env.follows_within host budget 0)
    rw [run] at leads
    obtain ⟨ps, steps⟩ := leads.steps ends
    exact ih.steps steps

theorem Amid.mem_paused (amid : w₀.Amid w) (start : w₀.Tallied) (app : Value) :
    app ∈ w.paused ↔ w.doors.find? (·.about = app) = some (.enter app) := by
  rw [amid.tallied start]
  exact Door.mem_after _ app

end Session

namespace App

/-- An app that is paused stands still: it is not safe, what is bound through it does not call its update, and its
reactions answer nothing. All of this leaves the session as it is. -/
structure StandsStill (app : Value) (env : Env κ) (w : Session κ) : Prop where
  guard : ∃ x, isSafe app env w = (.value x, w) ∧ w.store.truthy x = false
  update : ∀ thread inner v, Update.apply v (.guarded app thread inner) env w = (.value (), w)
  directive : ∀ (d : Directive) thread inner w₁ v, d.update = .guarded app thread inner →
    Scope.evaluate d.engine d.evaluation env w₁ = (.value v, w) → d.refresh env w₁ = (.value (), w)
  reaction : ∀ (r : Reaction) event, r.app = some app → r.react event env w = (.value .none, w)

theorem isSafe_ends (runs : w.store.attribute? app "is_running" = .ok (some running)) (env : Env κ) :
    isSafe app env w =
      (.value (if w.store.truthy running then .bool !w.paused.contains app else running), w) := by
  have member : member app "is_running" env w = (.value running, w) := by
    unfold App.member
    rw [bind_store, runs]
    rfl
  have truth : truthy running env w = (.value (w.store.truthy running), w) := rfl
  unfold isSafe
  rw [bind_value member, bind_value truth]
  cases w.store.truthy running <;> rfl

/-- What is done only if the app is safe is not done. -/
theorem unguarded {x : Value} {m m' : Eff κ α} (safe : isSafe app env w = (.value x, w))
    (no : w.store.truthy x = false) :
    (do if ← truthy (← isSafe app) then m else m') env w = m' env w := by
  have truth : truthy x env w = (.value false, w) := by rw [← no]; rfl
  exact (bind_value safe _).trans (bind_value truth _)

theorem standsStill (runs : w.store.attribute? app "is_running" = .ok (some running)) (paused : app ∈ w.paused)
    (env : Env κ) : StandsStill app env w := by
  have safe := isSafe_ends runs env
  have no : w.store.truthy (if w.store.truthy running then .bool !w.paused.contains app else running) = false := by
    cases h : w.store.truthy running with
    | true => simp [Store.truthy, paused]
    | false => simpa using h
  have update (thread : Nat) (inner : Fn) (v : Value) :
      Update.apply v (.guarded app thread inner) env w = (.value (), w) := unguarded safe no
  refine ⟨⟨_, safe, no⟩, update, fun d thread inner w₁ v bound evaluated => ?_, fun r event bound => ?_⟩
  · unfold Directive.refresh
    rw [bind_value evaluated, bound]
    exact update thread inner v
  · unfold Reaction.react
    rw [bound]
    exact unguarded safe no

/-- An app that is not paused is safe if it runs. -/
theorem isSafe_running (runs : w.store.attribute? app "is_running" = .ok (some running)) (unpaused : app ∉ w.paused)
    (env : Env κ) : ∃ x, isSafe app env w = (.value x, w) ∧ w.store.truthy x = w.store.truthy running := by
  refine ⟨_, isSafe_ends runs env, ?_⟩
  cases h : w.store.truthy running with
  | true => simp [Store.truthy, unpaused]
  | false => simpa using h

end App

namespace Act

/-- Runs code in a context in which an app is paused. The context is left whether or not the code fails. -/
def pausing (app : Value) (body : Act κ Value) : Act κ Value := do
  let _ ← ask (.pause app)
  let r ← body.attempt
  let _ ← ask (.resume app)
  ofExcept r

/-- What is attempted is run, and then what follows upon its outcome. -/
theorem run_attempt (body : Act κ Value) (k : Except Fault Value → Act κ Value) (env : Env κ) (w : Session κ) :
    (body.attempt >>= k).run env w = (body.run.attempt >>= fun r => (k r).run) env w := by
  induction body generalizing w with
  | done v => rfl
  | raise f => rfl
  | look k' ih => exact ih w.store w
  | recollect k' ih => exact ih w.memory w
  | remember m next ih => exact ih { w with memory := m }
  | perform c k' ih =>
    change Eff.bind (ReactiveScopes.perform c).attempt (fun r => ((k' r).attempt >>= k).run) env w =
      Eff.bind (Eff.attempt (Eff.bind (ReactiveScopes.perform c).attempt fun r => (k' r).run))
        (fun r => (k r).run) env w
    have on (r : Except Fault Value) (w : Session κ) :
        ((k' r).attempt >>= k).run env w = Eff.bind (k' r).run.attempt (fun r => (k r).run) env w := ih r w
    unfold Eff.bind Eff.attempt at on ⊢
    dsimp only
    rcases ReactiveScopes.perform c env w with ⟨_ | _ | _ | _, w₁⟩
    · exact on _ w₁
    · exact on _ w₁
    · rfl
    · rfl
  | yield k' ih => exact ih _ w
  | await v k' ih => exact ih _ w
  | quit => rfl

/-- Entering and leaving contexts takes effect at once. -/
theorem perform_through (d : Door) (env : Env κ) (w : Session κ) :
    (ReactiveScopes.perform d.command).attempt env w = (.value (.ok .none), w.through d) := by
  have done (levels : Nat) : performWithin levels d.command env w = (.value .none, w.through d) := by
    cases d <;> cases levels <;> rfl
  change Eff.attempt (performWithin env.budget d.command) env w = _
  unfold Eff.attempt
  rw [done]

/-- The context is left when the code has returned, or has raised what is then raised on. -/
theorem pausing_ends {body : Act κ Value} {r : Except Fault Value}
    (ends : body.run env (w.through (.enter app)) = (.ofExcept r, w')) :
    (pausing app body).run env w = (.ofExcept r, w'.through (.leave app)) := by
  have attempted : body.run.attempt env (w.through (.enter app)) = (.value r, w') := by
    unfold Eff.attempt
    rw [ends]
    cases r <;> rfl
  change Eff.bind (ReactiveScopes.perform (Door.enter app).command).attempt _ env w = _
  refine (bind_value (perform_through _ env w) _).trans ((run_attempt body _ env _).trans ?_)
  refine (bind_value attempted _).trans ((bind_value (perform_through (.leave app) env w') _).trans ?_)
  cases r <;> rfl

end Act

/-- Two apps that run, and an update that is given to a function of the client. -/
def twoApps : Session (List Value) where
  memory := []
  store := { cells := #[.object { name := "p", attributes := Table.ofList [("is_running", .bool true)] },
    .object { name := "q", attributes := Table.ofList [("is_running", .bool true)] }] }
  closures := #[.lenient (.call (.fn (.client "show")))]

/-- The function makes a note of what it is given. -/
def showing : Host (List Value) := fun _ =>
  { body := fun args => Act.modifyMemory (args ++ ·) >>= fun _ => .done .none }

end ReactiveScopes
