import Mathlib.Data.Finset.Filter
import Mathlib.Data.Finset.Dedup
import ReactiveScopes.Run

/-!
# Histories

What the journal tells about one engine, and the moments of a run at which it is read. The journal is
never consulted by the library, so a statement about it is one about the order of what was done.
-/
namespace ReactiveScopes

variable {κ : Type}

/-- A context in which an app is paused was entered or left. -/
inductive Door where
  | enter (app : Value)
  | leave (app : Value)
  deriving DecidableEq

/-- The apps that are paused then. -/
def Door.pass (paused : List Value) : Door → List Value
  | enter app => insertKey app paused
  | leave app => eraseKey app paused

namespace Event

def door? : Event → Option Door
  | paused app => some (.enter app)
  | resumed app => some (.leave app)
  | _ => none

/-- The engine that an event is about. -/
def engine? : Event → Option Nat
  | notice _ => none
  | created e => some e
  | requested e _ => some e
  | posted e _ => some e
  | handed e _ _ => some e
  | began e _ => some e
  | notified e _ => some e
  | watched e _ _ => some e
  | passBegan e _ _ => some e
  | watcherCalled e _ _ => some e
  | passEnded e _ _ => some e
  | dropped e _ => some e
  | paused _ => none
  | resumed _ => none

/-- Whether writes to `key` that were reported before are done with: its pass begins, or it is dropped. -/
def Answers (key : Value) : Event → Prop
  | passBegan _ k _ => k = key
  | dropped _ k => k = key
  | _ => False

/-- Whether the engine is set up by this. -/
def sets (e : Nat) : Event → Bool
  | created x => x == e
  | _ => false

def startsPass (key : Value) : Event → Bool
  | passBegan _ k _ => k == key
  | _ => false

/-- Whether a pass is asked for that need not be pending. -/
def forces : Event → Bool
  | notified _ _ => true
  | _ => false

/-- Whether a pass is broken off. -/
def breaksOff : Event → Bool
  | passEnded _ _ fault => fault.isSome
  | _ => false

/-- The callback that is posted. -/
def callback? : Event → Option Value
  | posted _ f => some f
  | _ => none

/-- The callback from the queue that begins. -/
def begun? : Event → Option Value
  | began _ f => some f
  | _ => none

/-- Whether this says nothing about writes and passes. -/
def Aside : Event → Prop
  | requested _ _ | passBegan _ _ _ | passEnded _ _ _ | dropped _ _ => False
  | _ => True

theorem sets_of_ne {ev : Event} {e : Nat} (h : ev.engine? ≠ some e) : ev.sets e = false := by
  cases ev with
  | created x => simpa [engine?, sets] using h
  | _ => rfl

theorem door?_of_engine? {ev : Event} {e : Nat} (h : ev.engine? = some e) : ev.door? = none := by
  cases ev with
  | paused app => cases h
  | resumed app => cases h
  | _ => rfl

end Event

namespace History

/-- The passes in progress, innermost first. -/
def openPasses : List Event → List Value
  | [] => []
  | .passBegan _ key _ :: h => key :: openPasses h
  | .passEnded _ key _ :: h => (openPasses h).erase key
  | _ :: h => openPasses h

/-- A write to `key` was reported, and neither has a pass of it begun nor was it dropped since. -/
def Unanswered (key : Value) (h : List Event) : Prop :=
  ∃ later earlier e, h = later ++ .requested e key :: earlier ∧ ∀ ev ∈ later, ¬ ev.Answers key

/-- The same of a write that was reported while no pass of `key` was in progress. -/
def UnansweredAtRest (key : Value) (h : List Event) : Prop :=
  ∃ later earlier e, h = later ++ .requested e key :: earlier ∧ key ∉ openPasses earlier ∧
    ∀ ev ∈ later, ¬ ev.Answers key

/-- Every pass of `key` was called for by a write that no earlier pass or drop is done with. -/
def Coalesced (key : Value) (h : List Event) : Prop :=
  ∀ later earlier e fs, h = later ++ .passBegan e key fs :: earlier → Unanswered key earlier

/-- Writes to `key` have been done with since the history was `h₀`. -/
def AnsweredSince (key : Value) (h₀ h : List Event) : Prop :=
  ∃ since, h = since ++ h₀ ∧ ∃ ev ∈ since, ev.Answers key

/-- What has happened since the history was `h₀`. -/
def since (h₀ h : List Event) : List Event := h.take (h.length - h₀.length)

/-- A pass of `key` was broken off, by something that is no error. -/
def BrokenOff (e : Nat) (key : Value) (h : List Event) : Prop :=
  ∃ f, .passEnded e key (some f) ∈ h ∧ f.isError = false

/-- A write to `key` waits for a pass that is not left to one in progress. -/
def Owed (policy : Reentrancy) (key : Value) (h : List Event) : Prop :=
  match policy with
  | .skip => UnansweredAtRest key h
  | .defer => Unanswered key h ∧ key ∉ openPasses h

variable {key k : Value} {e : Nat} {ev : Event} {h : List Event}

theorem not_mem_of_any {p : Event → Bool} (hp : h.any p = false) (hev : p ev = true) : ev ∉ h := by
  intro hm
  rw [List.any_eq_false] at hp
  exact hp ev hm hev

theorem BrokenOff.mono {h' : List Event} (hb : BrokenOff e key h) (hs : h ⊆ h') :
    BrokenOff e key h' := by
  obtain ⟨f, hf, hne⟩ := hb
  exact ⟨f, hs hf, hne⟩

theorem BrokenOff.cons (hb : BrokenOff e key h) : BrokenOff e key (ev :: h) :=
  hb.mono (List.subset_cons_self ev h)

theorem openPasses_aside (ha : ev.Aside) : openPasses (ev :: h) = openPasses h := by
  cases ev with
  | requested | passBegan | passEnded | dropped => exact ha.elim
  | _ => rfl

theorem openPasses_passEnded {ks : List Value} (ho : openPasses h = key :: ks)
    (fault : Option Fault) : openPasses (.passEnded e key fault :: h) = ks := by
  simp [openPasses, ho]

theorem unanswered_cons :
    Unanswered key (ev :: h) ↔
      (∃ e, ev = .requested e key) ∨ ¬ ev.Answers key ∧ Unanswered key h := by
  constructor
  · rintro ⟨_ | ⟨x, later⟩, earlier, e, hh, ha⟩
    · cases hh
      exact Or.inl ⟨e, rfl⟩
    · cases hh
      have hlater := fun y hy => ha y (List.mem_cons_of_mem ev hy)
      exact Or.inr ⟨ha ev List.mem_cons_self, later, earlier, e, rfl, hlater⟩
  · rintro (⟨e, rfl⟩ | ⟨hx, later, earlier, e, rfl, ha⟩)
    · exact ⟨[], h, e, rfl, fun _ hx => by cases hx⟩
    · exact ⟨ev :: later, earlier, e, rfl, List.forall_mem_cons.2 ⟨hx, ha⟩⟩

theorem unanswered_aside (ha : ev.Aside) : Unanswered key (ev :: h) ↔ Unanswered key h := by
  rw [unanswered_cons]
  cases ev with
  | requested | passBegan | passEnded | dropped => exact ha.elim
  | _ => simp [Event.Answers]

@[simp]
theorem unanswered_requested :
    Unanswered key (.requested e k :: h) ↔ k = key ∨ Unanswered key h := by
  simp [unanswered_cons, Event.Answers]

@[simp]
theorem unanswered_passBegan {fs : List Value} :
    Unanswered key (.passBegan e k fs :: h) ↔ k ≠ key ∧ Unanswered key h := by
  simp [unanswered_cons, Event.Answers]

@[simp]
theorem unanswered_passEnded {fault : Option Fault} :
    Unanswered key (.passEnded e k fault :: h) ↔ Unanswered key h := by
  simp [unanswered_cons, Event.Answers]

@[simp]
theorem unanswered_dropped :
    Unanswered key (.dropped e k :: h) ↔ k ≠ key ∧ Unanswered key h := by
  simp [unanswered_cons, Event.Answers]

theorem unansweredAtRest_cons :
    UnansweredAtRest key (ev :: h) ↔
      (∃ e, ev = .requested e key ∧ key ∉ openPasses h) ∨
        ¬ ev.Answers key ∧ UnansweredAtRest key h := by
  constructor
  · rintro ⟨_ | ⟨x, later⟩, earlier, e, hh, ho, ha⟩
    · cases hh
      exact Or.inl ⟨e, rfl, ho⟩
    · cases hh
      have hlater := fun y hy => ha y (List.mem_cons_of_mem ev hy)
      exact Or.inr ⟨ha ev List.mem_cons_self, later, earlier, e, rfl, ho, hlater⟩
  · rintro (⟨e, rfl, ho⟩ | ⟨hx, later, earlier, e, rfl, ho, ha⟩)
    · exact ⟨[], h, e, rfl, ho, fun _ hx => by cases hx⟩
    · exact ⟨ev :: later, earlier, e, rfl, ho, List.forall_mem_cons.2 ⟨hx, ha⟩⟩

theorem unansweredAtRest_aside (ha : ev.Aside) :
    UnansweredAtRest key (ev :: h) ↔ UnansweredAtRest key h := by
  rw [unansweredAtRest_cons]
  cases ev with
  | requested | passBegan | passEnded | dropped => exact ha.elim
  | _ => simp [Event.Answers]

@[simp]
theorem unansweredAtRest_requested :
    UnansweredAtRest key (.requested e k :: h) ↔
      k = key ∧ key ∉ openPasses h ∨ UnansweredAtRest key h := by
  simp [unansweredAtRest_cons, Event.Answers]

@[simp]
theorem unansweredAtRest_passBegan {fs : List Value} :
    UnansweredAtRest key (.passBegan e k fs :: h) ↔ k ≠ key ∧ UnansweredAtRest key h := by
  simp [unansweredAtRest_cons, Event.Answers]

@[simp]
theorem unansweredAtRest_passEnded {fault : Option Fault} :
    UnansweredAtRest key (.passEnded e k fault :: h) ↔ UnansweredAtRest key h := by
  simp [unansweredAtRest_cons, Event.Answers]

@[simp]
theorem unansweredAtRest_dropped :
    UnansweredAtRest key (.dropped e k :: h) ↔ k ≠ key ∧ UnansweredAtRest key h := by
  simp [unansweredAtRest_cons, Event.Answers]

theorem coalesced_cons :
    Coalesced key (ev :: h) ↔
      (∀ e fs, ev = .passBegan e key fs → Unanswered key h) ∧ Coalesced key h := by
  constructor
  · intro hc
    refine ⟨?_, ?_⟩
    · rintro e fs rfl
      exact hc [] h e fs rfl
    · rintro later earlier e fs rfl
      exact hc (ev :: later) earlier e fs rfl
  · rintro ⟨hev, hc⟩ (_ | ⟨x, later⟩) earlier e fs hh
    · cases hh
      exact hev e fs rfl
    · cases hh
      exact hc later earlier e fs rfl

theorem AnsweredSince.mono {h₀ h' : List Event} (ha : AnsweredSince key h₀ h) (hs : h <:+ h') :
    AnsweredSince key h₀ h' := by
  obtain ⟨since, rfl, ev, hev, hk⟩ := ha
  obtain ⟨later, rfl⟩ := hs
  exact ⟨later ++ since, (List.append_assoc ..).symm, ev, List.mem_append_right _ hev, hk⟩

theorem AnsweredSince.of_suffix {h₀ h₁ : List Event} (ha : AnsweredSince key h₁ h) (hs : h₀ <:+ h₁) :
    AnsweredSince key h₀ h := by
  obtain ⟨since, rfl, ev, hev, hk⟩ := ha
  obtain ⟨later, rfl⟩ := hs
  exact ⟨since ++ later, (List.append_assoc ..).symm, ev, List.mem_append_left _ hev, hk⟩

section Since

variable {h₀ h₁ : List Event}

@[simp]
theorem since_append (new : List Event) : since h₀ (new ++ h₀) = new := by
  simp [since]

theorem since_append_self (hs : h₀ <:+ h) : since h₀ h ++ h₀ = h := by
  obtain ⟨new, rfl⟩ := hs
  rw [since_append]

theorem since_trans (hs : h₀ <:+ h₁) (hs' : h₁ <:+ h) : since h₀ h = since h₁ h ++ since h₀ h₁ := by
  obtain ⟨old, rfl⟩ := hs
  obtain ⟨new, rfl⟩ := hs'
  rw [since_append, since_append, ← List.append_assoc, since_append]

/-- What happened since is told of. -/
theorem mem_since (hs : ev :: h₀ <:+ h) : ev ∈ since h₀ h := by
  obtain ⟨new, rfl⟩ := hs
  rw [List.append_cons, since_append]
  exact List.mem_append_right _ List.mem_cons_self

@[simp]
theorem since_self (h : List Event) : since h h = [] := since_append []

end Since

theorem Coalesced.cons (hc : Coalesced key h) (hev : ∀ e fs, ev ≠ .passBegan e key fs) :
    Coalesced key (ev :: h) :=
  coalesced_cons.2 ⟨fun e fs he => absurd he (hev e fs), hc⟩

end History

/-- Tracing a pass runs client code. -/
def Scheduler.Loud (s : Scheduler) : Prop := s.debug = true ∧ ∃ f, s.describe = some (some f)

namespace Session

/-- What happened to an engine since it was set up, newest first. -/
def history (w : Session κ) (e : Nat) : List Event :=
  (w.journal.takeWhile fun ev => !ev.sets e).filter fun ev => ev.engine? = some e

/-- The contexts of apps that were entered and left, the last one first. -/
def doors (w : Session κ) : List Door := w.journal.filterMap Event.door?

/-- How many times an engine of that number has been set up. -/
def setUps (w : Session κ) (e : Nat) : Nat := w.journal.countP (Event.sets e)

/-- Whether a callable is a callback for a pass of `key`. -/
def runsPass (w : Session κ) (e : Nat) (key f : Value) : Bool :=
  match f with
  | .fn (.made n) =>
    match w.closures[n]? with
    | some (.pass e' k) => e' == e && k == key
    | _ => false
  | _ => false

/-- The different callbacks for passes of `key` that have been posted. -/
def callbacks (w : Session κ) (e : Nat) (key : Value) : Finset Value :=
  ((w.history e).filterMap Event.callback?).toFinset.filter fun f => w.runsPass e key f

/-- The callbacks from the queue of an engine that have begun, newest first. -/
def begun (w : Session κ) (e : Nat) : List Value := (w.history e).filterMap Event.begun?

/-- No event loop runs, on this thread or on one that waits for it. -/
def Loopless (w : Session κ) : Prop := w.loop = none ∧ ∀ l ∈ w.outer, l = none

/-- Nothing has happened to the engine since it was set up. -/
structure Fresh (w : Session κ) (e : Nat) : Prop where
  pending : (w.engine e).scheduler.pending = []
  running : (w.engine e).scheduler.running = []
  deferred : (w.engine e).scheduler.deferred = []
  history : w.history e = []

/-- `w` is the session at a moment of a run of client code that began with `w₀`: at the end of the run,
or where the client quit, however deep in the calls it was. A run that is cut short by its budget has
no such moment. -/
inductive Moment (w₀ : Session κ) : Session κ → Prop where
  | plain (host : Host κ) (budget : Nat) (a : Act κ Value) {o : Outcome Value} {w : Session κ}
      (h : run host budget a w₀ = (o, w)) (ho : o ≠ .exhausted) : Moment w₀ w
  | async (host : Host κ) (budget : Nat) (a : Act κ Value) {o : Outcome Value} {w : Session κ}
      (h : runAsync host budget a w₀ = (o, w)) (ho : o ≠ .exhausted) : Moment w₀ w

end Session

/-- Setting up an engine succeeds, and then nothing has happened to it yet. Its callbacks go where the
client wants them, and only a function of the client that shows keys makes it loud. -/
theorem Scope.create_fresh (e : Nat) (setup : Setup) (env : Env κ) (w : Session κ) :
    ∃ w', create e setup env w = (.value (), w') ∧ w'.Fresh e ∧
      (w'.engine e).queue.sink = setup.post ∧
      ((w'.engine e).scheduler.Loud → ∃ f, setup.describe = some (some f)) := by
  refine ⟨_, rfl, ⟨?_, ?_, ?_, ?_⟩, ?_, ?_⟩
  · rw [Session.engine_modifyEngine, if_pos rfl]
  · rw [Session.engine_modifyEngine, if_pos rfl]
  · rw [Session.engine_modifyEngine, if_pos rfl]
  · simp [Session.history, Session.modifyEngine, Event.sets]
  · rw [Session.engine_modifyEngine, if_pos rfl]
  · rw [Session.engine_modifyEngine, if_pos rfl]
    exact And.right

end ReactiveScopes
