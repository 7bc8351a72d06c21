import Mathlib.Tactic.SplitIfs
import ReactiveScopes.Proofs.Conduct.Runs

/-!
# The marks of a scheduler

Which keys are pending, running or deferred changes at few occasions only. The turns of the marks are
all of them; whatever the machine of a scheduler does, unless tracing a pass runs client code, is made
up of turns.
-/
namespace ReactiveScopes

open History

variable {κ : Type} {e : Nat}

/-- What a scheduler remembers of its keys, and what happened to it. -/
structure Marks where
  policy : Reentrancy
  pending : List Value := []
  running : List Value := []
  deferred : List Value := []
  history : List Event := []

namespace Marks

@[simp]
def note (m : Marks) (ev : Event) : Marks := { m with history := ev :: m.history }

/-- A key is marked for a pass to come, or left to the running one. -/
def enqueue (m : Marks) (key : Value) : Marks :=
  if key ∈ m.running then
    if m.policy = .defer then { m with deferred := insertKey key m.deferred } else m
  else { m with pending := insertKey key m.pending }

@[simp]
def unmark (m : Marks) (key : Value) : Marks := { m with pending := eraseKey key m.pending }

/-- A pass begins. One without watchers is over at once and never among the running ones. -/
def enter (m : Marks) (e : Nat) (key : Value) : List Value → Marks
  | [] => (m.note (.passBegan e key [])).note (.passEnded e key none)
  | fs => { m.note (.passBegan e key fs) with running := insertKey key m.running }

@[simp]
def leave (m : Marks) (e : Nat) (key : Value) (fault : Option Fault) : Marks :=
  { m.note (.passEnded e key fault) with running := eraseKey key m.running }

def finish (m : Marks) (e : Nat) (key : Value) : Marks :=
  let m := m.leave e key none
  if key ∈ m.deferred then { m with deferred := eraseKey key m.deferred }.enqueue key else m

section Fields

variable (m : Marks) (key : Value)

@[simp]
theorem enqueue_policy : (m.enqueue key).policy = m.policy := by
  unfold enqueue
  split_ifs <;> rfl

@[simp]
theorem enqueue_running : (m.enqueue key).running = m.running := by
  unfold enqueue
  split_ifs <;> rfl

@[simp]
theorem enqueue_history : (m.enqueue key).history = m.history := by
  unfold enqueue
  split_ifs <;> rfl

@[simp]
theorem mem_enqueue_pending {k : Value} :
    k ∈ (m.enqueue key).pending ↔ k ∈ m.pending ∨ k = key ∧ key ∉ m.running := by
  unfold enqueue
  split_ifs with hr hd
  · simp [hr]
  · simp [hr]
  · simp [hr, or_comm]

@[simp]
theorem mem_enqueue_deferred {k : Value} :
    k ∈ (m.enqueue key).deferred ↔
      k ∈ m.deferred ∨ k = key ∧ key ∈ m.running ∧ m.policy = .defer := by
  unfold enqueue
  split_ifs with hr hd
  · simp [hr, hd, or_comm]
  · simp [hd]
  · simp [hr]

variable (e : Nat)

@[simp]
theorem finish_policy : (m.finish e key).policy = m.policy := by
  unfold finish
  dsimp only
  split_ifs <;> simp

@[simp]
theorem finish_running : (m.finish e key).running = eraseKey key m.running := by
  unfold finish
  dsimp only
  split_ifs <;> simp

@[simp]
theorem finish_history : (m.finish e key).history = .passEnded e key none :: m.history := by
  unfold finish
  dsimp only
  split_ifs <;> simp

/-- What was deferred to a pass is pending after it. -/
@[simp]
theorem mem_finish_pending {k : Value} :
    k ∈ (m.finish e key).pending ↔ k ∈ m.pending ∨ k = key ∧ key ∈ m.deferred := by
  unfold finish
  dsimp only
  split_ifs with hd <;> simp at hd <;> simp [hd]

@[simp]
theorem mem_finish_deferred {k : Value} :
    k ∈ (m.finish e key).deferred ↔ k ∈ m.deferred ∧ k ≠ key := by
  unfold finish
  dsimp only
  split_ifs with hd
  · simp
  · simp at hd
    simp only [leave, note]
    exact ⟨fun h => ⟨h, fun he => hd (he ▸ h)⟩, And.left⟩

end Fields

end Marks

/-- One occasion. -/
inductive Turn (e : Nat) : Marks → Marks → Prop where
  | aside (m ev) (h : ev.Aside) : Turn e m (m.note ev)
  | request (m key) : Turn e m ((m.note (.requested e key)).enqueue key)
  | drop (m key) :
      Turn e m
        { m.note (.dropped e key) with
          pending := eraseKey key m.pending, deferred := eraseKey key m.deferred }
  | flush (m key fs) (h : key ∈ m.pending) : Turn e m ((m.unmark key).enter e key fs)
  | force (m key fs) (h : .notified e key ∈ m.history) : Turn e m (m.enter e key fs)
  | finish (m key ks) (h : openPasses m.history = key :: ks) : Turn e m (m.finish e key)
  | breakOff (m key ks f) (h : openPasses m.history = key :: ks) (hf : f.isError = false) :
      Turn e m (m.leave e key (some f))

abbrev Turns (e : Nat) : Marks → Marks → Prop := Relation.ReflTransGen (Turn e)

theorem Turn.suffix {m m' : Marks} (h : Turn e m m') : m.history <:+ m'.history := by
  have enter : ∀ (m : Marks) key fs, m.history <:+ (m.enter e key fs).history := by
    intro m key fs
    cases fs with
    | nil => exact (List.suffix_cons _ _).trans (List.suffix_cons _ _)
    | cons f fs => exact List.suffix_cons _ _
  cases h with
  | request key => simp
  | flush key fs => exact enter (m.unmark key) key fs
  | force key fs => exact enter m key fs
  | finish key => simp
  | _ => exact List.suffix_cons _ _

theorem Turns.suffix {m m' : Marks} (h : Turns e m m') : m.history <:+ m'.history := by
  induction h with
  | refl => exact List.suffix_refl _
  | tail _ h ih => exact ih.trans h.suffix

theorem Turn.policy {m m' : Marks} (h : Turn e m m') : m'.policy = m.policy := by
  cases h with
  | request key => simp
  | finish key => simp
  | flush key fs => cases fs <;> rfl
  | force key fs => cases fs <;> rfl
  | _ => rfl

/-- What holds of the first marks and is kept by every turn holds of the last ones. A turn may be used
with what is known of the history at the end, since nothing is forgotten. -/
theorem Turns.invariant {m₀ m : Marks} {P : Marks → Prop} (h : Turns e m₀ m) (h₀ : P m₀)
    (keep : ∀ u v, v.history <:+ m.history → u.policy = m₀.policy → Turn e u v → P u → P v) : P m := by
  suffices hp : ∀ v, Turns e m₀ v → v.history <:+ m.history → v.policy = m₀.policy ∧ P v from
    (hp m h (List.suffix_refl _)).2
  intro v hv
  induction hv with
  | refl => exact fun _ => ⟨rfl, h₀⟩
  | @tail u v _ huv ih =>
    intro hs
    obtain ⟨hpol, hu⟩ := ih (huv.suffix.trans hs)
    exact ⟨huv.policy.trans hpol, keep u v hs hpol huv hu⟩

def Board.marks (b : Board) : Marks where
  policy := b.scheduler.policy
  pending := b.scheduler.pending
  running := b.scheduler.running
  deferred := b.scheduler.deferred
  history := b.history

namespace Scene

/-- No pass is being traced. -/
def Begun (s : Scene) : Prop := ∀ p ∈ s.passes, p.rest ≠ none

/-- The passes in progress are those that the history tells of. -/
structure Sound (s : Scene) : Prop where
  begun : s.Begun
  told : openPasses s.board.history = s.passes.map OpenPass.key

end Scene

variable {s t : Scene} {b : Board} {key : Value} {ps : List OpenPass} {due : Option Value}

namespace Board

theorem openPasses_posting (b : Board) (e : Nat) (f : Value) :
    openPasses (b.posting e f).history = openPasses b.history := by
  unfold posting
  rcases b.handing_cases e f with h | ⟨n, h⟩ <;> rw [h] <;> rfl

theorem openPasses_enqueue (b : Board) (e : Nat) (key : Value) :
    openPasses (b.enqueue e key).history = openPasses b.history := by
  rcases b.enqueue_cases e key with ⟨_, _, h⟩ | ⟨_, _, h⟩ | ⟨_, _, h⟩ | ⟨_, _, h⟩ <;> rw [h]
  · rfl
  · exact openPasses_posting _ e _

theorem openPasses_finishPass (b : Board) (e : Nat) (key : Value) :
    openPasses (b.finishPass e key).history = (openPasses b.history).erase key := by
  rcases b.finishPass_cases e key with ⟨_, h⟩ | ⟨_, h⟩ <;> rw [h]
  · rw [openPasses_enqueue]
    rfl
  · rfl

theorem marks_removeWatcher (b : Board) (key f : Value) :
    (b.reschedule (·.removeWatcher key f)).marks = b.marks := by
  simp only [marks, reschedule]
  rw [Scheduler.removeWatcher_eq]

end Board

namespace Turns

theorem posting (b : Board) (e : Nat) (f : Value) : Turns e b.marks (b.posting e f).marks := by
  have h : Turn e b.marks (b.marks.note (.posted e f)) := .aside _ _ trivial
  have hm : (b.posting e f).marks = { b.marks with history := b.handing e f ++ .posted e f :: b.history } := rfl
  rw [hm]
  rcases b.handing_cases e f with hh | ⟨n, hh⟩ <;> rw [hh]
  · exact .single h
  · have hn : Turn e (b.marks.note (.posted e f)) ((b.marks.note (.posted e f)).note (.handed e f n)) :=
      .aside _ _ trivial
    exact .tail (.single h) hn

/-- Marking a key is one turn with what comes before it; telling of the callback is another. -/
theorem enqueue {m : Marks} (b : Board) (key : Value) (h : Turn e m (b.marks.enqueue key)) :
    Turns e m (b.enqueue e key).marks := by
  rcases b.enqueue_cases e key with ⟨hr, hd, he⟩ | ⟨hr, hd, he⟩ | ⟨hr, hp, he⟩ | ⟨hr, hp, he⟩ <;> rw [he]
  · have hm : b.marks.enqueue key =
        (b.reschedule fun s => { s with deferred := insertKey key s.deferred }).marks := by
      simp [Marks.enqueue, Board.marks, hr, hd]
    exact .single (hm ▸ h)
  · have hm : b.marks.enqueue key = b.marks := by
      simp [Marks.enqueue, Board.marks, hr, hd]
    exact .single (hm ▸ h)
  · have hm : b.marks.enqueue key = b.marks := by
      simp [Marks.enqueue, Board.marks, hr, insertKey, hp]
    exact .single (hm ▸ h)
  · let b' := (b.reschedule fun s => { s with pending := insertKey key s.pending }).close (.pass e key)
    have hm : b.marks.enqueue key = b'.marks := by
      simp [b', Marks.enqueue, Board.marks, hr]
    rw [hm] at h
    exact Relation.ReflTransGen.head h (posting b' e _)

theorem beginPass {m : Marks} (b : Board) (key : Value) (ps : List OpenPass)
    (h : ∀ fs, Turn e m (b.marks.enter e key fs)) : Turns e m (b.beginPass e key ps).board.marks := by
  unfold Board.beginPass
  rcases b.scheduler.watchersOf key with _ | ⟨f, fs⟩
  · exact .single (h [])
  · exact .single (h (f :: fs))

theorem finishPass (b : Board) (key : Value) (ks : List Value)
    (h : openPasses b.history = key :: ks) : Turns e b.marks (b.finishPass e key).marks := by
  have ht : Turn e b.marks (b.marks.finish e key) := .finish b.marks key ks h
  unfold Marks.finish at ht
  dsimp only at ht
  rcases b.finishPass_cases e key with ⟨hd, hb⟩ | ⟨hd, hb⟩ <;> rw [hb]
  · rw [if_pos (show key ∈ (b.marks.leave e key none).deferred from hd)] at ht
    exact Turns.enqueue _ key ht
  · rw [if_neg (show key ∉ (b.marks.leave e key none).deferred from hd)] at ht
    exact .single ht

end Turns

theorem Scene.Begun.cons {fs : List Value} (hs : Scene.Begun ⟨b, ps, due⟩) (b' : Board) (key : Value)
    (due' : Option Value) : Scene.Begun ⟨b', ⟨key, some fs⟩ :: ps, due'⟩ := by
  intro p hp
  rcases List.mem_cons.1 hp with rfl | hp
  · exact Option.some_ne_none fs
  · exact hs p hp

theorem Scene.Begun.beginPass (hs : Scene.Begun ⟨b, ps, due⟩) (b' : Board) (e : Nat) (key : Value) :
    (b'.beginPass e key ps).Begun := by
  rcases b'.beginPass_cases e key ps with h | ⟨fs, h⟩ <;> rw [h]
  · exact hs
  · exact hs.cons _ key none

/-- Unless tracing runs client code, passes begin when they are called for. -/
theorem Step.begun (h : Step e s t) (quiet : ¬ s.board.scheduler.Loud) (hs : s.Begun) : t.Begun := by
  have tail : ∀ {b b' : Board} {p : OpenPass} {ps : List OpenPass},
      Scene.Begun ⟨b, p :: ps, none⟩ → Scene.Begun ⟨b', ps, none⟩ :=
    fun hs p hp => hs p (List.mem_cons_of_mem _ hp)
  cases h with
  | flush b ps key due => exact hs.beginPass (b.unmark key) e key
  | notify b ps key => exact hs.beginPass (b.note (.notified e key)) e key
  | trace b ps key due h => exact absurd h quiet
  | traceNotified b ps key h => exact absurd h quiet
  | traced b ps key => exact absurd rfl (hs _ List.mem_cons_self)
  | call b ps key f rest =>
    have hp : Scene.Begun ⟨b, ps, none⟩ := tail hs
    exact hp.cons _ key none
  | traceFailed | finish | breakOff => exact tail hs
  | _ => exact hs

/-- A move on the way from the scene `s`, of a machine that is not set up anew and traces nothing. What is told of is
such that `Q` holds of it. -/
structure Scene.Onward (s : Scene) (e : Nat) (Q : Event → Prop) (u v : Scene) : Prop where
  reached : Steps e s u
  move : Step e u v
  settings : u.board.settings = s.board.settings
  once : v.board.setUps = u.board.setUps
  quiet : ¬ u.board.scheduler.Loud
  begun : u.Begun
  older : s.board.history <:+ u.board.history
  told : ∀ ev ∈ since u.board.history v.board.history, Q ev

theorem Scene.Onward.later {Q : Event → Prop} {u v : Scene} (h : s.Onward e Q u v) :
    u.board.history <:+ v.board.history :=
  h.move.suffix h.once

/-- What holds at the beginning and is kept by every move on the way holds at the end. Since nothing is forgotten, what
is known of all the events that are told of at the end may be used on the way. -/
theorem Steps.onward {P : Scene → Prop} {Q : Event → Prop} (h : Steps e s t) (quiet : ¬ s.board.scheduler.Loud)
    (once : t.board.setUps = s.board.setUps) (begun : s.Begun)
    (told : ∀ ev ∈ since s.board.history t.board.history, Q ev) (hs : P s)
    (keep : ∀ u v, s.Onward e Q u v → P u → P v) : P t := by
  let R (u : Scene) : Prop := u.Begun ∧ Steps e s u ∧ s.board.history <:+ u.board.history ∧
    ((∀ ev ∈ since s.board.history u.board.history, Q ev) → P u)
  have hr : R t := by
    refine h.invariant once ⟨begun, .refl, List.suffix_refl _, fun _ => hs⟩ fun u v settings move once hu => ?_
    obtain ⟨begun, reached, older, hu⟩ := hu
    have hq : ¬ u.board.scheduler.Loud := fun hl => quiet ((Board.loud_of_settings settings).1 hl)
    have later := move.suffix once
    refine ⟨move.begun hq begun, reached.tail move, older.trans later, fun told => ?_⟩
    rw [since_trans older later, List.forall_mem_append] at told
    exact keep u v ⟨reached, move, settings, once, hq, begun, older, told.1⟩ (hu told.2)
  obtain ⟨-, -, -, hp⟩ := hr
  exact hp told

theorem Board.told_beginPass (b : Board) (e : Nat) (key : Value) {ps : List OpenPass}
    (hs : openPasses b.history = ps.map OpenPass.key) :
    openPasses (b.beginPass e key ps).board.history = (b.beginPass e key ps).passes.map OpenPass.key := by
  rcases b.beginPass_cases e key ps with h | ⟨fs, h⟩ <;> rw [h]
  · change (key :: openPasses b.history).erase key = _
    rw [List.erase_cons_head]
    exact hs
  · exact congrArg (key :: ·) hs

/-- The refinement: every move is made up of turns. -/
theorem Step.turns (h : Step e s t) (quiet : ¬ s.board.scheduler.Loud)
    (once : t.board.setUps = s.board.setUps) (hs : s.Sound) :
    Turns e s.board.marks t.board.marks ∧ t.Sound := by
  have begun := h.begun quiet hs.begun
  have told := hs.told
  cases h with
  | close | loops | door | take | aside | drain | skip => exact ⟨.refl, begun, told⟩
  | addWatcher b ps key f => exact ⟨.single (.aside b.marks (.watched e key f) trivial), begun, told⟩
  | create b ps s' q => exact absurd once (Nat.succ_ne_self _)
  | removeWatcher b ps key f =>
    rw [Board.marks_removeWatcher]
    exact ⟨.refl, begun, told⟩
  | drop b ps key => exact ⟨.single (.drop b.marks key), begun, told⟩
  | request b ps key =>
    refine ⟨Turns.enqueue (b.note _) key (.request b.marks key), begun, ?_⟩
    exact (Board.openPasses_enqueue (b.note _) e key).trans told
  | post b ps f => exact ⟨Turns.posting b e f, begun, (Board.openPasses_posting b e f).trans told⟩
  | pop b ps f rest => exact ⟨.single (.aside b.marks (.began e f) trivial), begun, told⟩
  | flush b ps key due hp =>
    refine ⟨?_, begun, Board.told_beginPass (b.unmark key) e key told⟩
    exact Turns.beginPass _ key ps fun fs => .flush b.marks key fs hp
  | notify b ps key =>
    have ha : Turn e b.marks (b.note (.notified e key)).marks := .aside _ _ trivial
    have hb := Turns.beginPass (e := e) (b.note (.notified e key)) key ps fun fs =>
      .force _ key fs List.mem_cons_self
    exact ⟨Relation.ReflTransGen.head ha hb, begun, Board.told_beginPass (b.note _) e key told⟩
  | trace b ps key due h => exact absurd h quiet
  | traceNotified b ps key h => exact absurd h quiet
  | traced b ps key => exact absurd rfl (hs.begun _ List.mem_cons_self)
  | traceFailed b ps key => exact absurd rfl (hs.begun _ List.mem_cons_self)
  | call b ps key f rest =>
    exact ⟨.single (.aside b.marks (.watcherCalled e key f) trivial), begun, told⟩
  | finish b ps key =>
    refine ⟨Turns.finishPass b key _ told, begun, ?_⟩
    change openPasses (b.finishPass e key).history = _
    rw [Board.openPasses_finishPass, told]
    exact List.erase_cons_head _ _
  | breakOff b ps key rest f hf =>
    refine ⟨.single (.breakOff b.marks key _ f told hf), begun, ?_⟩
    change (openPasses b.history).erase key = _
    rw [told]
    exact List.erase_cons_head _ _

theorem Steps.turns (h : Steps e s t) (quiet : ¬ s.board.scheduler.Loud)
    (once : t.board.setUps = s.board.setUps) (hs : s.Sound) :
    Turns e s.board.marks t.board.marks ∧ t.Sound := by
  refine h.invariant (P := fun u => Turns e s.board.marks u.board.marks ∧ u.Sound) once ⟨.refl, hs⟩ ?_
  intro u v hset huv hup ⟨hu, hsound⟩
  have hq : ¬ u.board.scheduler.Loud := fun hl => quiet ((Board.loud_of_settings hset).1 hl)
  obtain ⟨hv, hsound'⟩ := huv.turns hq hup hsound
  exact ⟨hu.trans hv, hsound'⟩

namespace Session

def marks (w : Session κ) (e : Nat) : Marks := (w.board e).marks

theorem runsPass_eq (w : Session κ) (e : Nat) : w.runsPass e = (w.board e).runs e := rfl

theorem runsPass_iff {w : Session κ} {f : Value} :
    w.runsPass e key f = true ↔ (w.board e).runsPass e key f := by
  rw [runsPass_eq, Board.runs_iff]

theorem Fresh.sound {w : Session κ} (h : w.Fresh e) : (w.scene e []).Sound := by
  refine ⟨List.forall_mem_nil _, ?_⟩
  change openPasses (w.history e) = []
  rw [h.history]
  rfl

theorem Fresh.marks_eq {w : Session κ} (h : w.Fresh e) :
    w.marks e = { policy := (w.engine e).scheduler.policy } := by
  simp [marks, board, Board.marks, h.pending, h.running, h.deferred, h.history]

/-- At every moment the marks are where turns lead from none at all. -/
theorem Moment.turns {w₀ w : Session κ} (moment : Moment w₀ w) (fresh : w₀.Fresh e)
    (quiet : ¬ (w₀.engine e).scheduler.Loud) (once : w.setUps e = w₀.setUps e) :
    Turns e { policy := (w₀.engine e).scheduler.policy } (w.marks e) := by
  obtain ⟨ps, h⟩ := moment.steps e
  have ht := (Steps.turns h quiet once fresh.sound).1
  rw [← fresh.marks_eq]
  exact ht

end Session

end ReactiveScopes
