import Mathlib.Logic.Function.Basic
import ReactiveScopes.Proofs.Registrations

/-!
# Whom a pass calls

A registration begins when a watcher is registered that does not stand under the key, and ends when it is taken out or
the key is dropped. A pass is for those who stand under its key when it begins, by the age of their registrations. It
calls each of them once, in that order, whatever becomes of their registrations and whatever other passes run inside it;
nothing but a fault that is no error keeps it from the rest. Only where tracing calls a client's function before the
pass begins can that function change whom the pass is for.
-/
namespace ReactiveScopes

open Eff History

variable {κ : Type} {e : Nat} {key k f g : Value} {fs : List Value} {ev : Event}

/-- Something that is told of an engine, or that a watcher was taken out of a key, which is not told. -/
inductive Entry where
  | told (ev : Event)
  | left (key f : Value)

def Entry.told? : Entry → Option Event
  | told ev => some ev
  | left _ _ => none

/-- What the moves from one scene to another enter, the latest first. A watcher stops standing under a key only by an
entry that says so, or by a drop of the key. -/
inductive Chronicle (e : Nat) (s₀ : Scene) : List Entry → Scene → Prop where
  | start : Chronicle e s₀ [] s₀
  | leave {c : List Entry} {b : Board} {ps : List OpenPass} (key f : Value)
      (so : Chronicle e s₀ c ⟨b, ps, none⟩) :
      Chronicle e s₀ (.left key f :: c) ⟨b.reschedule (·.removeWatcher key f), ps, none⟩
  | move {c : List Entry} {s t : Scene} {new : List Event} (so : Chronicle e s₀ c s) (step : Step e s t)
      (told : t.board.history = new ++ s.board.history)
      (stay : ∀ key f, f ∈ s.board.scheduler.watchersOf key →
        f ∈ t.board.scheduler.watchersOf key ∨ .dropped e key ∈ new) :
      Chronicle e s₀ (new.map .told ++ c) t

/-- How far a pass is: it has called these watchers itself, while so many others are in progress inside it; or it is
over. -/
inductive Headway where
  | going (called : List Value) (inside : Nat)
  | done (called : List Value) (fault : Option Fault)
  deriving DecidableEq

def Headway.after : Headway → Event → Headway
  | going fs n, .passBegan _ _ _ => going fs (n + 1)
  | going fs (n + 1), .passEnded _ _ _ => going fs n
  | going fs 0, .watcherCalled _ _ f => going (fs ++ [f]) 0
  | going fs 0, .passEnded _ _ fault => done fs fault
  | st, _ => st

/-- How far a pass is when this is what has been told since it began. -/
def headway : List Event → Headway
  | [] => .going [] 0
  | ev :: h => (headway h).after ev

namespace Roll

/-- When the registration began by which a watcher stands under a key, by how many entries there were before. A
watcher that is registered while it stands keeps its registration. -/
def joined (key f : Value) : List Entry → Option Nat
  | [] => none
  | .told (.watched _ k g) :: c => if k = key ∧ g = f then (joined key f c).or (some c.length) else joined key f c
  | .told (.dropped _ k) :: c => if k = key then none else joined key f c
  | .left k g :: c => if k = key ∧ g = f then none else joined key f c
  | .told _ :: c => joined key f c

/-- Two watchers stand under a key, the first one for longer. -/
def Before (key : Value) (c : List Entry) (f g : Value) : Prop :=
  ∃ m n, joined key f c = some m ∧ joined key g c = some n ∧ m < n

end Roll

/-- Who stands under each key, and whom the passes in progress have still to call, innermost first. -/
structure Roll where
  watchers : Value → List Value
  owed : List (List Value)

def Scene.roll (s : Scene) : Roll := ⟨s.board.scheduler.watchersOf, s.passes.filterMap OpenPass.rest⟩

/-- Neither registrations nor passes have to do with this. -/
def Event.OffRoll : Event → Prop
  | watched _ _ _ | dropped _ _ | passBegan _ _ _ | watcherCalled _ _ _ | passEnded _ _ _ => False
  | _ => True

theorem Event.OfPost.offRoll {ev : Event} (h : ev.OfPost) : ev.OffRoll := by
  cases ev with
  | posted | handed => trivial
  | _ => exact h.elim

namespace Roll

/-- The same, with other watchers under one key. -/
def set (r : Roll) (key : Value) (fs : List Value) : Roll := { r with watchers := Function.update r.watchers key fs }

@[simp]
theorem set_self (r : Roll) (key : Value) (fs : List Value) : (r.set key fs).watchers key = fs :=
  Function.update_self ..

@[simp]
theorem set_of_ne (r : Roll) (h : k ≠ key) (fs : List Value) : (r.set key fs).watchers k = r.watchers k :=
  Function.update_of_ne h ..

/-- What an entry does. -/
inductive Turn (e : Nat) (loud : Prop) : Entry → Roll → Roll → Prop where
  | idle (r ev) (h : ev.OffRoll) : Turn e loud (.told ev) r r
  | joins (r key f) : Turn e loud (.told (.watched e key f)) r (r.set key (insertKey f (r.watchers key)))
  | leaves (r key f) : Turn e loud (.left key f) r (r.set key (eraseKey f (r.watchers key)))
  | drops (r key) : Turn e loud (.told (.dropped e key)) r (r.set key [])
  | begins (r key fs) (h : fs = r.watchers key ∨ loud) :
      Turn e loud (.told (.passBegan e key fs)) r { r with owed := fs :: r.owed }
  | calls (ws key f rest owed) :
      Turn e loud (.told (.watcherCalled e key f)) ⟨ws, (f :: rest) :: owed⟩ ⟨ws, rest :: owed⟩
  | ends (ws key owed) : Turn e loud (.told (.passEnded e key none)) ⟨ws, [] :: owed⟩ ⟨ws, owed⟩
  | breaksOff (ws key rest fault owed) (h : fault.isError = false) :
      Turn e loud (.told (.passEnded e key (some fault))) ⟨ws, rest :: owed⟩ ⟨ws, owed⟩

/-- What a list of them does, the latest first. -/
inductive Turns (e : Nat) (loud : Prop) : List Entry → Roll → Roll → Prop where
  | nil (r) : Turns e loud [] r r
  | cons {c : List Entry} {x : Entry} {r r₁ r' : Roll} (turns : Turns e loud c r r₁)
      (turn : Turn e loud x r₁ r') : Turns e loud (x :: c) r r'

variable {loud : Prop} {c c' : List Entry} {x : Entry} {r r₁ r' : Roll}

namespace Turns

theorem single (turn : Turn e loud x r r') : Turns e loud [x] r r' := .cons (.nil r) turn

theorem append (earlier : Turns e loud c r r₁) (later : Turns e loud c' r₁ r') : Turns e loud (c' ++ c) r r' := by
  induction later with
  | nil => exact earlier
  | cons _ turn ih => exact .cons (ih earlier) turn

/-- A list of entries does what its parts do. -/
theorem split (turns : Turns e loud (c' ++ c) r r') : ∃ r₁, Turns e loud c r r₁ ∧ Turns e loud c' r₁ r' := by
  induction c' generalizing r' with
  | nil => exact ⟨r', turns, .nil r'⟩
  | cons x c' ih =>
    cases turns with
    | cons turns turn =>
      obtain ⟨r₁, earlier, later⟩ := ih turns
      exact ⟨r₁, earlier, .cons later turn⟩

theorem idle {new : List Event} (h : ∀ ev ∈ new, ev.OffRoll) : Turns e loud (new.map .told) r r := by
  induction new with
  | nil => exact .nil r
  | cons ev new ih =>
    obtain ⟨hev, hnew⟩ := List.forall_mem_cons.1 h
    exact .cons (ih hnew) (.idle r ev hev)

/-- Nobody stops standing under a key by what is told, but by a drop of the key. -/
theorem stay {new : List Event} (turns : Turns e loud (new.map .told) r r') (hf : f ∈ r.watchers key) :
    f ∈ r'.watchers key ∨ .dropped e key ∈ new := by
  induction new generalizing r' with
  | nil =>
    cases turns
    exact .inl hf
  | cons ev new ih =>
    cases turns with
    | @cons _ _ _ r₁ _ turns turn =>
      rcases ih turns with hf | hd
      · cases turn with
        | joins _ k g =>
          by_cases hk : key = k
          · subst hk
            simp [hf]
          · simp [hk, hf]
        | drops _ k =>
          by_cases hk : key = k
          · exact .inr (hk ▸ List.mem_cons_self)
          · simp [hk, hf]
        | _ => exact .inl hf
      · exact .inr (List.mem_cons_of_mem _ hd)

end Turns

/-- Watchers stand under a key by their registrations, the oldest one first. -/
structure Registered (c : List Entry) (r : Roll) : Prop where
  stands : ∀ key f, f ∈ r.watchers key ↔ (joined key f c).isSome
  sorted : ∀ key, (r.watchers key).Pairwise (Before key c)

/-- An entry has nothing to do with a registration, ends it, or begins it unless it stands. -/
theorem joined_cons (key f : Value) (x : Entry) (c : List Entry) :
    joined key f (x :: c) = joined key f c ∨ joined key f (x :: c) = none ∨
      joined key f (x :: c) = (joined key f c).or (some c.length) := by
  cases x with
  | left k g =>
    by_cases hk : k = key ∧ g = f
    · exact .inr (.inl (if_pos hk))
    · exact .inl (if_neg hk)
  | told ev =>
    cases ev with
    | watched y k g =>
      by_cases hk : k = key ∧ g = f
      · exact .inr (.inr (if_pos hk))
      · exact .inl (if_neg hk)
    | dropped y k =>
      by_cases hk : k = key
      · exact .inr (.inl (if_pos hk))
      · exact .inl (if_neg hk)
    | _ => exact .inl rfl

theorem joined_lt {n : Nat} (h : joined key f c = some n) : n < c.length := by
  induction c with
  | nil => cases h
  | cons x c ih =>
    have older (h : joined key f c = some n) : n < (x :: c).length := Nat.lt_succ_of_lt (ih h)
    rcases joined_cons key f x c with same | gone | anew
    · exact older (same ▸ h)
    · rw [gone] at h
      cases h
    · rw [anew, Option.or_eq_some_iff] at h
      rcases h with h | ⟨_, h⟩
      · exact older h
      · cases h
        exact Nat.lt_succ_self _

theorem joined_offRoll (h : ev.OffRoll) : joined key f (.told ev :: c) = joined key f c := by
  cases ev with
  | watched | dropped | passBegan | watcherCalled | passEnded => exact h.elim
  | _ => rfl

namespace Registered

/-- An entry that has nothing to do with registrations. -/
theorem same (reg : Registered c r) (hw : r'.watchers = r.watchers)
    (hj : ∀ key f, joined key f (x :: c) = joined key f c) : Registered (x :: c) r' := by
  refine ⟨fun key f => ?_, fun key => ?_⟩
  · rw [hw, hj]
    exact reg.stands key f
  · rw [hw]
    exact (reg.sorted key).imp fun ⟨m, n, hm, hn, hmn⟩ => ⟨m, n, (hj ..).trans hm, (hj ..).trans hn, hmn⟩

/-- What becomes of the order under one key, if those left there have kept their registrations. -/
theorem sorted_of_kept {fs : List Value} (reg : Registered c r) (hs : fs.Sublist (r.watchers key))
    (hj : ∀ f ∈ fs, joined key f (x :: c) = joined key f c) : fs.Pairwise (Before key (x :: c)) := by
  refine ((reg.sorted key).sublist hs).imp_of_mem ?_
  rintro f g hf hg ⟨m, n, hm, hn, hmn⟩
  exact ⟨m, n, (hj f hf).trans hm, (hj g hg).trans hn, hmn⟩

/-- An entry that has to do with one key only. -/
theorem set (reg : Registered c r) (apart : ∀ k, k ≠ key → ∀ g, joined k g (x :: c) = joined k g c)
    (stands : ∀ g, g ∈ fs ↔ (joined key g (x :: c)).isSome) (sorted : fs.Pairwise (Before key (x :: c))) :
    Registered (x :: c) (r.set key fs) := by
  refine ⟨fun k g => ?_, fun k => ?_⟩
  · by_cases hk : k = key
    · subst hk
      rw [set_self]
      exact stands g
    · rw [set_of_ne r hk, apart k hk]
      exact reg.stands k g
  · by_cases hk : k = key
    · subst hk
      rwa [set_self]
    · rw [set_of_ne r hk]
      exact reg.sorted_of_kept (.refl _) fun g _ => apart k hk g

theorem joins (reg : Registered c r) (y : Nat) (key f : Value) :
    Registered (.told (.watched y key f) :: c) (r.set key (insertKey f (r.watchers key))) := by
  have own : joined key f (.told (.watched y key f) :: c) = (joined key f c).or (some c.length) := if_pos ⟨rfl, rfl⟩
  have others {g : Value} (h : g ≠ f) : joined key g (.told (.watched y key f) :: c) = joined key g c :=
    if_neg fun hk => h hk.2.symm
  refine reg.set (fun k hk g => if_neg fun h => hk h.1.symm) (fun g => ?_) ?_
  · by_cases hg : g = f
    · subst hg
      simp [own]
    · simp [others hg, hg, reg.stands]
  · by_cases hf : f ∈ r.watchers key
    · -- it keeps its place, and its registration
      have kept : insertKey f (r.watchers key) = r.watchers key := if_pos (List.contains_iff_mem.2 hf)
      rw [kept]
      refine reg.sorted_of_kept (.refl _) fun g _ => ?_
      by_cases hg : g = f
      · subst hg
        rw [own, Option.or_of_isSome ((reg.stands key g).1 hf)]
      · exact others hg
    · have added : insertKey f (r.watchers key) = r.watchers key ++ [f] := if_neg (by simpa using hf)
      have unjoined : joined key f c = none := by simpa [reg.stands] using hf
      have kept : ∀ g ∈ r.watchers key, joined key g (.told (.watched y key f) :: c) = joined key g c :=
        fun g hg => others fun h => hf (h ▸ hg)
      rw [added, List.pairwise_append]
      refine ⟨reg.sorted_of_kept (.refl _) kept, List.pairwise_singleton .., fun g hg x hx => ?_⟩
      cases List.mem_singleton.1 hx
      obtain ⟨m, hm⟩ := Option.isSome_iff_exists.1 ((reg.stands key g).1 hg)
      exact ⟨m, c.length, (kept g hg).trans hm, by rw [own, unjoined]; rfl, joined_lt hm⟩

theorem leaves (reg : Registered c r) (key f : Value) :
    Registered (.left key f :: c) (r.set key (eraseKey f (r.watchers key))) := by
  have own : joined key f (.left key f :: c) = none := if_pos ⟨rfl, rfl⟩
  have others {g : Value} (h : g ≠ f) : joined key g (.left key f :: c) = joined key g c :=
    if_neg fun hk => h hk.2.symm
  refine reg.set (fun k hk g => if_neg fun h => hk h.1.symm) (fun g => ?_) ?_
  · by_cases hg : g = f
    · subst hg
      simp [own]
    · simp [others hg, hg, reg.stands]
  · exact reg.sorted_of_kept List.filter_sublist fun g hg => others (mem_eraseKey.1 hg).2

theorem drops (reg : Registered c r) (y : Nat) (key : Value) :
    Registered (.told (.dropped y key) :: c) (r.set key []) := by
  have own (g : Value) : joined key g (.told (.dropped y key) :: c) = none := if_pos rfl
  exact reg.set (fun k hk g => if_neg (Ne.symm hk)) (fun g => by simp [own]) .nil

theorem turn (reg : Registered c r) (turn : Turn e loud x r r') : Registered (x :: c) r' := by
  cases turn with
  | idle _ ev h => exact reg.same rfl fun _ _ => joined_offRoll h
  | joins _ k f => exact reg.joins e k f
  | leaves _ k f => exact reg.leaves k f
  | drops _ k => exact reg.drops e k
  | begins | calls | ends | breaksOff => exact reg.same rfl fun _ _ => rfl

end Registered

theorem Turns.registered (turns : Turns e loud c r r') (none : ∀ key, r.watchers key = []) : Registered c r' := by
  induction turns with
  | nil => exact ⟨fun key f => by simp [none, joined], fun key => by simp [none]⟩
  | cons _ turn ih => exact (ih none).turn turn

/-- What is known of a pass for certain watchers, while others have still some to call: it has called the first ones of
them and has still to call the rest, or it is over and has called them all, unless something that is no error broke it
off. -/
def Course (fs : List Value) (owed : List (List Value)) : Headway → Prop
  | .going called inside => ∃ rest, owed[inside]? = some rest ∧ called ++ rest = fs
  | .done called none => called = fs
  | .done called (some fault) => called <+: fs ∧ fault.isError = false

theorem Course.done {owed : List (List Value)} {called : List Value} {fault : Option Fault}
    (course : Course fs owed (.done called fault)) (owed' : List (List Value)) :
    Course fs owed' (.done called fault) := by
  cases fault <;> exact course

/-- A pass that is in progress stays on course. -/
theorem Course.turn {st : Headway} (course : Course fs r.owed st) (turn : Turn e loud (.told ev) r r') :
    Course fs r'.owed (st.after ev) := by
  cases st with
  | done called fault => exact course.done r'.owed
  | going called inside =>
    obtain ⟨rest, hrest, hall⟩ := course
    cases turn with
    | idle _ _ h =>
      cases ev with
      | watched | dropped | passBegan | watcherCalled | passEnded => exact h.elim
      | _ => exact ⟨rest, hrest, hall⟩
    | joins | drops => exact ⟨rest, hrest, hall⟩
    | begins => exact ⟨rest, hrest, hall⟩
    | calls ws key f more owed =>
      cases inside with
      | zero =>
        cases hrest
        exact ⟨more, rfl, by rw [← hall, List.append_assoc]; rfl⟩
      | succ n => exact ⟨rest, hrest, hall⟩
    | ends ws key owed =>
      cases inside with
      | zero =>
        cases hrest
        exact (List.append_nil called).symm.trans hall
      | succ n => exact ⟨rest, hrest, hall⟩
    | breaksOff ws key more fault owed h =>
      cases inside with
      | zero => exact ⟨⟨rest, hall⟩, h⟩
      | succ n => exact ⟨rest, hrest, hall⟩

/-- Its course is told of, whatever registrations end meanwhile. -/
theorem Turns.course (turns : Turns e loud c r r') (began : r.owed[0]? = some fs) :
    Course fs r'.owed (headway (c.filterMap Entry.told?)) := by
  induction turns with
  | nil => exact ⟨fs, began, rfl⟩
  | @cons c x _ _ _ _ turn ih =>
    cases x with
    | told ev => exact (ih began).turn turn
    | left k f =>
      cases turn
      exact ih began

end Roll

open Roll

variable {loud : Prop} {s t s₀ : Scene} {b b' : Board} {c : List Entry} {ps : List OpenPass}

namespace Scheduler

variable (r : Scheduler) (key f : Value)

theorem addWatcher_updates :
    (r.addWatcher key f).watchersOf = Function.update r.watchersOf key (insertKey f (r.watchersOf key)) := by
  funext k
  rw [watchersOf_addWatcher, Function.update_apply]
  by_cases hk : k = key
  · subst hk
    simp
  · simp [hk, Ne.symm hk]

theorem removeWatcher_updates :
    (r.removeWatcher key f).watchersOf = Function.update r.watchersOf key (eraseKey f (r.watchersOf key)) := by
  funext k
  rw [watchersOf_removeWatcher, Function.update_apply]
  by_cases hk : k = key
  · subst hk
    simp
  · simp [hk]

theorem drop_updates : (r.drop key).watchersOf = Function.update r.watchersOf key [] := by
  funext k
  rw [watchersOf_drop, Function.update_apply]
  by_cases hk : k = key
  · subst hk
    simp
  · simp [hk, Ne.symm hk]

end Scheduler

/-- What is entered of a change of the watchers under one key. -/
theorem Scene.roll_reschedule {change : Scheduler → Scheduler}
    (h : (change b.scheduler).watchersOf = Function.update b.scheduler.watchersOf key fs) :
    (Scene.mk (b.reschedule change) ps none).roll = (Scene.mk b ps none).roll.set key fs :=
  congrArg (Roll.mk · _) h

/-- What a move tells does what the move does. -/
def Scene.Tells (s : Scene) (e : Nat) (loud : Prop) (t : Scene) : Prop :=
  ∃ new, t.board.history = new ++ s.board.history ∧ Roll.Turns e loud (new.map .told) s.roll t.roll

namespace Scene.Tells

/-- Nothing happens to registrations and passes. -/
theorem offRoll (told : ∃ new, t.board.history = new ++ s.board.history ∧ ∀ ev ∈ new, ev.OffRoll)
    (same : t.roll = s.roll) : s.Tells e loud t := by
  obtain ⟨new, hh, hnew⟩ := told
  exact ⟨new, hh, same ▸ .idle hnew⟩

/-- A pass begins for those who stand under its key. -/
theorem beginPass (told : ∃ new, b'.history = new ++ b.history ∧ ∀ ev ∈ new, ev.OffRoll)
    (same : b'.scheduler.watchersOf = b.scheduler.watchersOf) (due : Option Value) :
    Scene.Tells ⟨b, ps, due⟩ e loud (b'.beginPass e key ps) := by
  obtain ⟨new, hh, hnew⟩ := told
  let r : Roll := (Scene.mk b' ps none).roll
  have before : Roll.Turns e loud (new.map .told) (Scene.mk b ps due).roll r := by
    have hr : r = (Scene.mk b ps due).roll := by simp [r, Scene.roll, same]
    exact hr ▸ .idle hnew
  have begun : Roll.Turns e loud (Entry.told (.passBegan e key (b'.scheduler.watchersOf key)) :: new.map .told)
      (Scene.mk b ps due).roll { r with owed := b'.scheduler.watchersOf key :: r.owed } :=
    before.cons (.begins r key _ (.inl rfl))
  unfold Board.beginPass
  rcases hw : b'.scheduler.watchersOf key with _ | ⟨g, gs⟩ <;> rw [hw] at begun
  · refine ⟨.passEnded e key none :: .passBegan e key [] :: new, ?_, begun.cons (.ends r.watchers key r.owed)⟩
    simp [hh]
  · refine ⟨.passBegan e key (g :: gs) :: new, ?_, begun⟩
    simp [hh]

end Scene.Tells

/-- A move takes a watcher out, or all that it does to registrations and passes is told. -/
theorem Step.tells (h : Step e s t) (once : t.board.setUps = s.board.setUps) (begun : s.Begun ∨ loud) :
    (∃ b ps key f, s = ⟨b, ps, none⟩ ∧ t = ⟨b.reschedule (·.removeWatcher key f), ps, none⟩) ∨
      s.Tells e loud t := by
  have nothing {b : Board} : ∃ new, b.history = new ++ b.history ∧ ∀ ev ∈ new, ev.OffRoll :=
    ⟨[], rfl, List.forall_mem_nil _⟩
  have only {b : Board} (ev : Event) (h : ev.OffRoll) :
      ∃ new, (b.note ev).history = new ++ b.history ∧ ∀ ev ∈ new, ev.OffRoll :=
    ⟨[ev], rfl, List.forall_mem_singleton.2 h⟩
  cases h with
  | close | loops | door | take | aside | drain | skip => exact .inr (.offRoll nothing rfl)
  | create b ps s' q => exact absurd once (Nat.succ_ne_self _)
  | removeWatcher b ps k f => exact .inl ⟨b, ps, k, f, rfl, rfl⟩
  | addWatcher b ps k f =>
    refine .inr ⟨[.watched e k f], rfl, ?_⟩
    rw [Scene.roll_reschedule (b := b.note _) (b.scheduler.addWatcher_updates k f)]
    exact .single (.joins (Scene.mk b ps none).roll k f)
  | drop b ps k =>
    refine .inr ⟨[.dropped e k], rfl, ?_⟩
    rw [Scene.roll_reschedule (b := b.note _) (b.scheduler.drop_updates k)]
    exact .single (.drops (Scene.mk b ps none).roll k)
  | request b ps k =>
    obtain ⟨new, hh, hnew⟩ := (b.note (.requested e k)).told_enqueue e k
    have same : (b.request e k).scheduler.watchersOf = b.scheduler.watchersOf :=
      Board.watchersOf_steady.request b e k
    refine .inr (.offRoll ⟨new ++ [.requested e k], hh.trans (List.append_cons ..), ?_⟩
      (congrArg (Roll.mk · _) same))
    exact List.forall_mem_append.2 ⟨fun ev hev => (hnew ev hev).offRoll, List.forall_mem_singleton.2 trivial⟩
  | post b ps f =>
    obtain ⟨new, hh, hnew⟩ := b.told_posting e f
    exact .inr (.offRoll ⟨new, hh, fun ev hev => (hnew ev hev).offRoll⟩ rfl)
  | pop b ps f rest => exact .inr (.offRoll (only (.began e f) trivial) rfl)
  | flush b ps k due => exact .inr (.beginPass nothing rfl due)
  | notify b ps k => exact .inr (.beginPass (only (.notified e k) trivial) rfl none)
  | trace b ps k due => exact .inr (.offRoll nothing rfl)
  | traceNotified b ps k => exact .inr (.offRoll (only (.notified e k) trivial) rfl)
  | traced b ps k fs =>
    have hl : loud := begun.resolve_left fun h => h _ List.mem_cons_self rfl
    exact .inr ⟨[.passBegan e k fs], rfl, .single (.begins _ k fs (.inr hl))⟩
  | traceFailed b ps k => exact .inr (.offRoll nothing rfl)
  | call b ps k f rest => exact .inr ⟨[.watcherCalled e k f], rfl, .single (.calls _ k f rest _)⟩
  | finish b ps k =>
    obtain ⟨new, hh, hnew⟩ := b.told_finishPass e k
    have same : (b.finishPass e k).scheduler.watchersOf = b.scheduler.watchersOf :=
      Board.watchersOf_steady.finishPass b e k
    have ended : Roll.Turns e loud [.told (.passEnded e k none)] (Scene.mk b (⟨k, some []⟩ :: ps) none).roll
        (Scene.mk (b.finishPass e k) ps none).roll := by
      rw [show (Scene.mk (b.finishPass e k) ps none).roll = _ from congrArg (Roll.mk · _) same]
      exact .single (.ends _ k _)
    refine .inr ⟨new ++ [.passEnded e k none], hh.trans (List.append_cons ..), ?_⟩
    rw [List.map_append]
    exact ended.append (.idle fun ev hev => (hnew ev hev).offRoll)
  | breakOff b ps k rest f hf => exact .inr ⟨[.passEnded e k (some f)], rfl, .single (.breaksOff _ k rest f _ hf)⟩

/-- A run has a chronicle, and its entries do what the run does. -/
theorem Steps.chronicle (h : Steps e s t) (once : t.board.setUps = s.board.setUps) (begun : s.Begun) :
    ∃ c, Chronicle e s c t ∧ Roll.Turns e s.board.scheduler.Loud c s.roll t.roll := by
  let P (u : Scene) : Prop := (u.Begun ∨ s.board.scheduler.Loud) ∧
    ∃ c, Chronicle e s c u ∧ Roll.Turns e s.board.scheduler.Loud c s.roll u.roll
  suffices hp : P t from hp.2
  refine h.invariant once ⟨.inl begun, [], .start, .nil _⟩ fun u v hset huv hup hu => ?_
  obtain ⟨hb, c, so, turns⟩ := hu
  have hb' : v.Begun ∨ s.board.scheduler.Loud := by
    by_cases hl : s.board.scheduler.Loud
    · exact .inr hl
    · exact .inl (huv.begun (fun h => hl ((Board.loud_of_settings hset).1 h)) (hb.resolve_right hl))
  refine ⟨hb', ?_⟩
  rcases huv.tells hup hb with ⟨b, ps, k, f, rfl, rfl⟩ | ⟨new, hh, turns'⟩
  · refine ⟨.left k f :: c, .leave k f so, turns.cons ?_⟩
    rw [Scene.roll_reschedule (b.scheduler.removeWatcher_updates k f)]
    exact .leaves (Scene.mk b ps none).roll k f
  · exact ⟨new.map .told ++ c, .move so huv hh fun _ _ hf => turns'.stay hf, turns.append turns'⟩

/-- What is told is what has happened. -/
theorem Chronicle.told (so : Chronicle e s₀ c s) :
    s.board.history = c.filterMap Entry.told? ++ s₀.board.history := by
  induction so with
  | start => rfl
  | leave k f _ ih => exact ih
  | @move c _ _ new _ _ hh _ ih =>
    have all : (new.map Entry.told).filterMap Entry.told? = new := by
      rw [List.filterMap_map]
      exact List.filterMap_some
    rw [hh, ih, List.filterMap_append, all, List.append_assoc]

/-- What is told is among the entries. -/
theorem Entry.split_told {h h' : List Event} (hc : c.filterMap told? = h ++ ev :: h') :
    ∃ later earlier, c = later ++ .told ev :: earlier ∧ later.filterMap told? = h := by
  obtain ⟨c₁, c₂, rfl, h₁, h₂⟩ := List.filterMap_eq_append_iff.1 hc
  obtain ⟨silent, x, earlier, rfl, hsilent, hx, -⟩ := List.filterMap_eq_cons_iff.1 h₂
  have hx : x = .told ev := by
    cases x with
    | told _ => exact congrArg told (Option.some.inj hx)
    | left => cases hx
  refine ⟨c₁ ++ silent, earlier, by rw [hx, List.append_assoc], ?_⟩
  rw [List.filterMap_append, h₁, List.filterMap_eq_nil_iff.2 hsilent, List.append_nil]

/-- Calling what a registration gave is entered. -/
theorem Chronicle.unsubscribe {host : Host κ} {budget n : Nat} {w : Session κ}
    (so : Chronicle e s₀ c (w.scene e ps)) (made : w.closures[n]? = some (.unsubscribe e key f)) :
    ∃ w', callFn (.made n) [] (Env.within host (budget + 1)) w = (.value .none, w') ∧
      Chronicle e s₀ (.left key f :: c) (w'.scene e ps) := by
  refine ⟨_, Roster.callFn_unsubscribe made budget, ?_⟩
  rw [Session.scene, Session.board_reschedule]
  exact .leave key f so

/-- In the course of a run, whatever its client does, a pass is for exactly those who stand under its key when it
begins, the oldest registration first, unless the client has a function called before passes begin. It calls them in
this order, each of them once, and others only in passes that run inside it; if it is over, it has called all of them or
was broken off by a fault that is no error, and it is over if the run has ended and the client did not quit. -/
theorem pass_calls_whoever_stands {w₀ w : Session κ} {o : Outcome Value}
    (unwatched : ∀ key, (w₀.engine e).scheduler.watchersOf key = []) (ran : w₀.Ran o w) (ended : o ≠ .exhausted)
    (once : w.setUps e = w₀.setUps e) :
    ∃ c ps, Chronicle e (w₀.scene e []) c (w.scene e ps) ∧ (o ≠ .stopped → ps = []) ∧
      w.history e = c.filterMap Entry.told? ++ w₀.history e ∧
      (∀ {host : Host κ} {budget n : Nat} {key f : Value}, w.closures[n]? = some (.unsubscribe e key f) →
        ∃ w', callFn (.made n) [] (Env.within host (budget + 1)) w = (.value .none, w') ∧
          Chronicle e (w₀.scene e []) (.left key f :: c) (w'.scene e ps)) ∧
      ∀ later key fs earlier, c = later ++ .told (.passBegan e key fs) :: earlier →
        (¬ (w₀.engine e).scheduler.Loud →
          (∀ f, f ∈ fs ↔ (joined key f earlier).isSome) ∧ fs.Pairwise (Before key earlier)) ∧
        Course fs (ps.filterMap OpenPass.rest) (headway (later.filterMap Entry.told?)) := by
  obtain ⟨ps, steps, closed⟩ := ran.steps ended e
  obtain ⟨c, so, turns⟩ := steps.chronicle once (List.forall_mem_nil _)
  refine ⟨c, ps, so, closed, so.told, fun made => so.unsubscribe made, fun later key fs earlier hc => ?_⟩
  subst hc
  obtain ⟨r, before, after⟩ := Roll.Turns.split (c := .told (.passBegan e key fs) :: earlier) turns
  cases before with
  | @cons _ _ _ r₀ _ before turn =>
    have reg : Registered earlier r₀ := before.registered unwatched
    cases turn with
    | idle _ _ h => exact h.elim
    | begins _ _ _ h =>
      refine ⟨fun quiet => ?_, after.course rfl⟩
      obtain rfl := h.resolve_right quiet
      exact ⟨reg.stands key, reg.sorted key⟩

-- A client with two watchers. The older one has been taken out and has come back; when it is called it drops the key
-- and registers a third one. The other one fails.
namespace Return

def topic : Value := .text "k"

def older : Value := .fn (.client "older")

def failing : Value := .fn (.client "failing")

def late : Value := .fn (.client "late")

def host : Host Unit := fun name =>
  { body := fun _ =>
      if name = "older" then do
        let _ ← Act.ask (.scheduler 0 (.drop topic))
        Act.ask (.scheduler 0 (.addWatcher topic late))
      else if name = "failing" then .raise .invalid
      else return .none }

def main : Act Unit Value := do
  let u ← Act.ask (.scheduler 0 (.addWatcher topic older))
  let _ ← Act.ask (.scheduler 0 (.addWatcher topic failing))
  let _ ← Act.ask (.call u [])
  let _ ← Act.ask (.scheduler 0 (.addWatcher topic older))
  let _ ← Act.ask (.scheduler 0 (.addWatcher topic failing))
  Act.ask (.scheduler 0 (.notify topic))

def reached : Session Unit := (Session.run host 10 main Echo.start).2

theorem ran : Echo.start.Ran (.value .none) reached := by
  have ends : (Session.run host 10 main Echo.start).1 = .value .none := by decide +kernel
  exact .plain host 10 main (Prod.ext ends rfl)

theorem history_eq : reached.history 0 =
    [.passEnded 0 topic none, .watched 0 topic late, .dropped 0 topic, .watcherCalled 0 topic older,
        .watcherCalled 0 topic failing] ++
      .passBegan 0 topic [failing, older] ::
        [.notified 0 topic, .watched 0 topic failing, .watched 0 topic older, .watched 0 topic failing,
          .watched 0 topic older] := by
  rfl

end Return

/-- The pass is for the one that has stood under the key all along and then for the one that has come back. It calls
both, though the first one fails and the second one drops the key. -/
theorem pass_calls_whoever_stands_return : ∃ c later earlier,
    Chronicle 0 (Echo.start.scene 0 []) c (Return.reached.scene 0 []) ∧
    c = later ++ .told (.passBegan 0 Return.topic [Return.failing, Return.older]) :: earlier ∧
    (∀ f, f ∈ [Return.failing, Return.older] ↔ (joined Return.topic f earlier).isSome) ∧
    Before Return.topic earlier Return.failing Return.older ∧
    headway (later.filterMap Entry.told?) = .done [Return.failing, Return.older] none := by
  obtain ⟨c, ps, so, closed, told, -, passes⟩ := pass_calls_whoever_stands (e := 0) (fun _ => rfl) Return.ran
    (by decide) (by decide +kernel)
  obtain rfl := closed (by decide)
  rw [show Echo.start.history 0 = [] from Echo.fresh.history, List.append_nil, Return.history_eq] at told
  obtain ⟨later, earlier, hc, hl⟩ := Entry.split_told told.symm
  obtain ⟨registered, -⟩ := passes later _ _ earlier hc
  obtain ⟨stands, sorted⟩ := registered Echo.quiet
  refine ⟨c, later, earlier, so, hc, stands, ?_, ?_⟩
  · exact List.rel_of_pairwise_cons sorted List.mem_cons_self
  · rw [hl]
    rfl

-- A client with one watcher, whose function for traces registers another one and drops the key.
namespace Return

def meddling : Host Unit := fun name =>
  { body := fun _ =>
      if name = "describe" then do
        let _ ← Act.ask (.scheduler 0 (.addWatcher topic late))
        Act.ask (.scheduler 0 (.drop topic))
      else return .none }

def prepare : Act Unit Value := do
  let _ ← Act.ask (.create 0 { config := { debug := .bool true }, describe := some (some (.client "describe")) })
  Act.ask (.scheduler 0 (.addWatcher topic older))

def ready : Session Unit := (Session.run meddling 10 prepare { memory := () }).2

def notified : Session Unit := (Session.run meddling 10 (Act.ask (.scheduler 0 (.notify topic))) ready).2

end Return

/-- One watcher stands under the key when the pass is asked for, and none when it begins. It calls two. -/
theorem traced_pass_calls_others :
    (Return.ready.engine 0).scheduler.watchersOf Return.topic = [Return.older] ∧
    (Return.notified.engine 0).scheduler.watchersOf Return.topic = [] ∧
    Return.notified.history 0 =
      [.passEnded 0 Return.topic none, .watcherCalled 0 Return.topic Return.late,
        .watcherCalled 0 Return.topic Return.older, .passBegan 0 Return.topic [Return.older, Return.late],
        .dropped 0 Return.topic, .watched 0 Return.topic Return.late, .notified 0 Return.topic] ++
      Return.ready.history 0 := by
  refine ⟨by decide +kernel, by decide +kernel, ?_⟩
  rfl

end ReactiveScopes
