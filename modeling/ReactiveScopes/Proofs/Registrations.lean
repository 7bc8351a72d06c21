import ReactiveScopes.Proofs.PassStack

/-!
# What ends a registration

Registering a watcher gives a callable that ends the registration. It knows the key and the watcher, and not which
registration it came with: once that one has ended, calling it changes nothing, until the same watcher is registered
under the same key again. Then it ends that registration.
-/
namespace ReactiveScopes

open Eff

variable {κ : Type} {e : Nat} {key k f g : Value} {u r : Fn}

namespace Roster

/-- Something that registrations of watchers undergo. -/
inductive Move where
  /-- A watcher is registered under a key, which gives the callable. -/
  | watch (key f : Value) (u : Fn)
  /-- A callable that a registration gave is called. -/
  | leave (u : Fn)
  | drop (key : Value)
  deriving DecidableEq

/-- The callable that the registration gave by which a watcher stands under a key now. A watcher that is registered
while it stands keeps its registration. The moves are those so far, the latest first. -/
def standing (key f : Value) : List Move → Option Fn
  | [] => none
  | .watch k g u :: h => if k = key ∧ g = f then (standing key f h).or (some u) else standing key f h
  | .leave u :: h => if .watch key f u ∈ h then none else standing key f h
  | .drop k :: h => if k = key then none else standing key f h

/-- A move after which a watcher does not stand under a key. -/
def Ending (key f : Value) (h : List Move) : Move → Prop
  | .watch _ _ _ => False
  | .leave u => .watch key f u ∈ h
  | .drop k => k = key

/-- Whatever else happens, it registers no watchers of the engine and takes none out. -/
structure Apart (e : Nat) (w w' : Session κ) : Prop where
  made : ∀ {n : Nat} {c : Closure}, w.closures[n]? = some c → w'.closures[n]? = some c
  engine : (w.engines.get? e).isSome → (w'.engines.get? e).isSome
  watchers : ∀ k, (w'.engine e).scheduler.watchersOf k = (w.engine e).scheduler.watchersOf k

/-- A run and the moves that it made, the latest first. -/
inductive Course (host : Host κ) (e : Nat) : List Move → Session κ → Prop where
  | start (w : Session κ) : Course host e [] w
  | watch {h : List Move} {w w' : Session κ} {env : Env κ} {key f : Value} {u : Fn} (course : Course host e h w)
      (ran : Scheduler.watch e key f env w = (.value u, w')) : Course host e (.watch key f.unmarked u :: h) w'
  | leave {h : List Move} {w w' : Session κ} {budget : Nat} {key f v : Value} {u : Fn} (course : Course host e h w)
      (given : .watch key f u ∈ h) (ran : callFn u [] (Env.within host budget) w = (.value v, w')) :
      Course host e (.leave u :: h) w'
  | drop {h : List Move} {w w' : Session κ} {env : Env κ} {key : Value} (course : Course host e h w)
      (ran : Scheduler.forget e key env w = (.value (), w')) : Course host e (.drop key :: h) w'
  | meanwhile {h : List Move} {w w' : Session κ} (course : Course host e h w) (apart : Apart e w w') :
      Course host e h w'

variable {h : List Move} {host : Host κ} {w w' : Session κ}

/-- A watcher that has not been registered since its registration ended does not stand. -/
theorem standing_ended {later earlier : List Move} {m : Move} (ending : Ending key f earlier m)
    (quiet : ∀ r, .watch key f r ∉ later) : standing key f (later ++ m :: earlier) = none := by
  induction later with
  | nil =>
    cases m with
    | watch k g u => cases ending
    | leave u => exact if_pos ending
    | drop k => exact if_pos ending
  | cons m' later ih =>
    have ih := ih fun r hr => quiet r (List.mem_cons_of_mem _ hr)
    rw [List.cons_append]
    cases m' with
    | watch k g u =>
      have other : ¬ (k = key ∧ g = f) := by
        rintro ⟨rfl, rfl⟩
        exact quiet u List.mem_cons_self
      rw [standing, if_neg other, ih]
    | leave u => rw [standing, ih, ite_self]
    | drop k => rw [standing, ih, ite_self]

/-- Calling what a registration gave. -/
theorem callFn_unsubscribe {n : Nat} (made : w.closures[n]? = some (.unsubscribe e key f)) (budget : Nat) :
    callFn (.made n) [] (Env.within host (budget + 1)) w =
      (.value .none, w.reschedule e (·.removeWatcher key f)) := by
  change applyValue host (.fn (.made n)) [] ⟨callWithin host budget, budget⟩ w = _
  unfold applyValue
  dsimp only
  rw [bind_read, made]
  rfl

/-- What the moves so far say of a session. -/
structure Kept (e : Nat) (h : List Move) (w : Session κ) : Prop where
  made : ∀ {key f u}, .watch key f u ∈ h → ∃ n, u = .made n ∧ w.closures[n]? = some (.unsubscribe e key f)
  engine : ∀ {key f u}, .watch key f u ∈ h → (w.engines.get? e).isSome
  stands : ∀ {key f u}, .watch key f u ∈ h →
    (f ∈ (w.engine e).scheduler.watchersOf key ↔ (standing key f h).isSome)

namespace Kept

/-- No two registrations that differ give the same callable. -/
theorem unique (kept : Kept e h w) (hu : .watch key f u ∈ h) (hu' : .watch k g u ∈ h) : k = key ∧ g = f := by
  obtain ⟨n, rfl, hn⟩ := kept.made hu
  obtain ⟨m, hm, hn'⟩ := kept.made hu'
  cases hm
  rw [hn] at hn'
  cases hn'
  exact ⟨rfl, rfl⟩

theorem watch (kept : Kept e h w) (key f : Value) :
    Kept e (.watch key f (.made w.closures.size) :: h)
      (((w.logged (.watched e key f)).reschedule e (·.addWatcher key f)).closing (.unsubscribe e key f)) := by
  have scheduler : ((((w.logged (.watched e key f)).reschedule e (·.addWatcher key f)).closing
      (.unsubscribe e key f)).engine e).scheduler = (w.engine e).scheduler.addWatcher key f :=
    congrArg Engine.scheduler (Session.engine_reschedule (w.logged (.watched e key f)) e (·.addWatcher key f))
  refine ⟨?_, ?_, ?_⟩
  · intro k g u hu
    rcases List.mem_cons.1 hu with hnew | hold
    · cases hnew
      exact ⟨_, rfl, Array.getElem?_push_size⟩
    · obtain ⟨n, rfl, hn⟩ := kept.made hold
      have bound : n < w.closures.size := (Array.getElem?_eq_some_iff.1 hn).1
      refine ⟨n, rfl, ?_⟩
      rw [← hn]
      exact (Array.getElem?_push_lt bound).trans (Array.getElem?_eq_getElem bound).symm
  · intro k g u hu
    simp [Session.closing, Session.reschedule, Session.modifyEngine, Table.get?_insert]
  · intro k g u hu
    rw [scheduler, Scheduler.mem_watchersOf_addWatcher, standing]
    by_cases same : key = k ∧ f = g
    · obtain ⟨rfl, rfl⟩ := same
      simp
    · have hold : .watch k g u ∈ h := by
        rcases List.mem_cons.1 hu with hnew | hold
        · cases hnew
          exact absurd ⟨rfl, rfl⟩ same
        · exact hold
      rw [if_neg same, ← kept.stands hold]
      constructor
      · rintro (⟨rfl, rfl⟩ | hg)
        · exact absurd ⟨rfl, rfl⟩ same
        · exact hg
      · exact Or.inr

/-- A move that registers no watcher and comes to a change of the scheduler. -/
theorem rescheduled (kept : Kept e h w) {m : Move} (other : ∀ k g u, m ≠ .watch k g u) (change : Scheduler → Scheduler)
    (stands : ∀ {k g r}, .watch k g r ∈ h →
      (g ∈ (change (w.engine e).scheduler).watchersOf k ↔ (standing k g (m :: h)).isSome)) :
    Kept e (m :: h) (w.reschedule e change) := by
  have before {k g : Value} {r : Fn} (hr : .watch k g r ∈ m :: h) : .watch k g r ∈ h :=
    (List.mem_cons.1 hr).resolve_left fun same => other k g r same.symm
  refine ⟨fun hr => kept.made (before hr), fun _ => ?_, fun hr => ?_⟩
  · simp [Session.reschedule, Session.modifyEngine, Table.get?_insert]
  · rw [Session.engine_reschedule]
    exact stands (before hr)

theorem leave (kept : Kept e h w) (given : .watch key f u ∈ h) :
    Kept e (.leave u :: h) (w.reschedule e (·.removeWatcher key f)) := by
  refine kept.rescheduled (fun _ _ _ => by simp) _ fun {k g r} hr => ?_
  rw [Scheduler.watchersOf_removeWatcher, standing]
  by_cases same : k = key ∧ g = f
  · obtain ⟨rfl, rfl⟩ := same
    simp [given]
  · have other : .watch k g u ∉ h := fun hu => same (kept.unique given hu)
    rw [if_neg other, ← kept.stands hr]
    split
    · next hk =>
      have hg : g ≠ f := fun hg => same ⟨hk, hg⟩
      simp [hg]
    · rfl

theorem drop (kept : Kept e h w) (key : Value) :
    Kept e (.drop key :: h) ((w.logged (.dropped e key)).reschedule e (·.drop key)) := by
  have logged : Kept e h (w.logged (.dropped e key)) := ⟨kept.made, kept.engine, kept.stands⟩
  refine logged.rescheduled (fun _ _ _ => by simp) _ fun {k g r} hr => ?_
  rw [Session.engine_logged, Scheduler.watchersOf_drop, standing]
  split
  · simp
  · exact kept.stands hr

theorem apart (kept : Kept e h w) (apart : Apart e w w') : Kept e h w' := by
  refine ⟨?_, ?_, ?_⟩
  · intro k g r hr
    obtain ⟨n, rfl, hn⟩ := kept.made hr
    exact ⟨n, rfl, apart.made hn⟩
  · intro k g r hr
    exact apart.engine (kept.engine hr)
  · intro k g r hr
    rw [apart.watchers]
    exact kept.stands hr

end Kept

theorem Course.kept (course : Course host e h w) : Kept e h w := by
  induction course with
  | start w => constructor <;> (intro _ _ _ hu; cases hu)
  | @watch h w w' env key f u _ ran ih =>
    cases ran
    exact ih.watch key f.unmarked
  | @leave h w w' budget key f v u _ given ran ih =>
    obtain ⟨n, rfl, hn⟩ := ih.made given
    cases budget with
    | zero => cases ran
    | succ budget =>
      rw [callFn_unsubscribe hn] at ran
      cases ran
      exact ih.leave given
  | @drop h w w' env key _ ran ih =>
    cases ran
    exact ih.drop key
  | meanwhile _ apart ih => exact ih.apart apart

end Roster

open Roster

/-- At any time of any run, calling what a registration gave takes its watcher out of its key and does nothing else. So
it changes nothing if the watcher does not stand there: if it has not been registered under the key since it was last
taken out of it or the key was dropped. But it takes the watcher out by whichever registration it stands there. -/
theorem unsubscribe_ends_whatever_stands {h : List Move} {host : Host κ} {w : Session κ}
    (course : Course host e h w) (given : .watch key f u ∈ h) (budget : Nat) :
    ∃ w', callFn u [] (Env.within host (budget + 1)) w = (.value .none, w') ∧
      w' = w.reschedule e (·.removeWatcher key f) ∧
      (∀ k, (w'.engine e).scheduler.watchersOf k =
        if k = key then eraseKey f ((w.engine e).scheduler.watchersOf k)
        else (w.engine e).scheduler.watchersOf k) ∧
      (f ∈ (w.engine e).scheduler.watchersOf key ↔ (standing key f h).isSome) ∧
      (standing key f h = none → w' = w) ∧
      ∀ later m earlier, h = later ++ m :: earlier → Ending key f earlier m →
        (∀ r, .watch key f r ∉ later) → w' = w := by
  obtain ⟨n, rfl, hn⟩ := course.kept.made given
  have stands := course.kept.stands given
  have idle (absent : standing key f h = none) : w.reschedule e (·.removeWatcher key f) = w := by
    have hf : f ∉ (w.engine e).scheduler.watchersOf key := by simp [stands, absent]
    obtain ⟨x, hx⟩ := Option.isSome_iff_exists.1 (course.kept.engine given)
    have hx' : w.engines.get? e = some (w.engine e) := by simp [Session.engine, hx]
    rw [Session.reschedule, Session.modifyEngine, Scheduler.removeWatcher_absent hf, Table.insert_self hx']
  refine ⟨_, callFn_unsubscribe hn budget, rfl, ?_, stands, idle, ?_⟩
  · intro k
    rw [Session.engine_reschedule]
    exact Scheduler.watchersOf_removeWatcher _ key f k
  · rintro later m earlier rfl ending quiet
    exact idle (standing_ended ending quiet)

-- A client that registers a watcher, ends the registration, and registers the watcher again.
namespace Roster.Comeback

def topic : Value := .text "k"

def watcher : Value := .fn (.client "watcher")

def host : Host Unit := fun _ => { body := fun _ => return .none }

def watched (w : Session Unit) : Session Unit := (Scheduler.watch 0 topic watcher (Env.within host 10) w).2

/-- The registration is over. -/
def left : Session Unit := (callFn (.made 0) [] (Env.within host 10) (watched (.opened .skip ()))).2

def back : Session Unit := watched left

def moves : List Move := [.watch topic watcher (.made 1), .leave (.made 0), .watch topic watcher (.made 0)]

theorem course : Course host 0 moves back := by
  have first : Scheduler.watch 0 topic watcher (Env.within host 10) (.opened .skip ()) =
    (.value (.made 0), watched (.opened .skip ())) := rfl
  have ended : callFn (.made 0) [] (Env.within host 10) (watched (.opened .skip ())) = (.value .none, left) := rfl
  have second : Scheduler.watch 0 topic watcher (Env.within host 10) left = (.value (.made 1), back) := rfl
  exact .watch (.leave (.watch (.start _) first) List.mem_cons_self ended) second

/-- How many watchers there are in the end, if the first registration is ended once or twice. -/
def count (twice : Bool) : Act Unit Value := do
  let u ← Act.ask (.scheduler 0 (.addWatcher topic watcher))
  let _ ← Act.ask (.call u [])
  let _ ← Act.ask (.scheduler 0 (.addWatcher topic watcher))
  if twice then
    let _ ← Act.ask (.call u [])
  Act.ask (.scheduler 0 (.watcherCount topic))

end Roster.Comeback

theorem unsubscribe_ends_whatever_stands_comeback :
    (Comeback.back.engine 0).scheduler.watchersOf Comeback.topic = [Comeback.watcher] ∧
    ∃ w', callFn (.made 0) [] (Env.within Comeback.host 10) Comeback.back = (.value .none, w') ∧
      (w'.engine 0).scheduler.watchersOf Comeback.topic = [] := by
  have before : (Comeback.back.engine 0).scheduler.watchersOf Comeback.topic = [Comeback.watcher] := by decide +kernel
  have given : .watch Comeback.topic Comeback.watcher (.made 0) ∈ Comeback.moves := by decide
  obtain ⟨w', called, -, watchers, -⟩ := unsubscribe_ends_whatever_stands Comeback.course given 9
  refine ⟨before, w', called, ?_⟩
  rw [watchers, before]
  decide

/-- What ended the first registration ends the second one, too. -/
theorem stale_unsubscribe_ends_successor :
    (Session.run Comeback.host 10 (Comeback.count false) (.opened .skip ())).1 = .value (.int 1) ∧
    (Session.run Comeback.host 10 (Comeback.count true) (.opened .skip ())).1 = .value (.int 0) := by
  decide +kernel

end ReactiveScopes
