import ReactiveScopes.Proofs.PassStack
import ReactiveScopes.Proofs.Storing

/-!
# Destroyed records

A record knows its scope by name only. Destroying the scope forgets its watchers and its marks, but a
write through the record that is gone is reported under the same name as before, and so acts on whatever
scope of that name there is by then.
-/
namespace ReactiveScopes

open Eff History

variable {κ : Type} {e : Nat} {key : Value} {b : Board}

namespace Board

/-- A reported write marks its own key, unless that is running. -/
theorem mem_pending_request (b : Board) (e : Nat) (key k : Value) :
    k ∈ (b.request e key).scheduler.pending ↔
      k ∈ b.scheduler.pending ∨ k = key ∧ key ∉ b.scheduler.running := by
  rcases (b.note (.requested e key)).enqueue_cases e key with
    ⟨hr, _, h⟩ | ⟨hr, _, h⟩ | ⟨hr, hp, h⟩ | ⟨hr, hp, h⟩ <;> unfold request <;> rw [h]
  · have hr : key ∈ b.scheduler.running := hr
    simp [hr]
  · have hr : key ∈ b.scheduler.running := hr
    simp [hr]
  · have hp : key ∈ b.scheduler.pending := hp
    exact ⟨Or.inl, Or.rec id fun h => h.1 ▸ hp⟩
  · have hr : key ∉ b.scheduler.running := hr
    simp [hr, or_comm]

theorem request_of_busy (h : key ∈ b.scheduler.pending ∨ key ∈ b.scheduler.running) :
    (b.request e key).history = .requested e key :: b.history := by
  rcases (b.note (.requested e key)).enqueue_cases e key with
    ⟨_, _, hb⟩ | ⟨_, _, hb⟩ | ⟨_, _, hb⟩ | ⟨hr, hp, _⟩
  · exact congrArg Board.history hb
  · exact congrArg Board.history hb
  · exact congrArg Board.history hb
  · exact absurd h (not_or.2 ⟨hp, hr⟩)

/-- The callback for the pass of a key is posted right after a write to it, if and only if the key is neither
pending nor running. -/
theorem request_posts_iff (b : Board) (e : Nat) (key : Value) :
    (∃ f, (b.request e key).runsPass e key f ∧
      .posted e f :: .requested e key :: b.history <:+ (b.request e key).history) ↔
      key ∉ b.scheduler.pending ∧ key ∉ b.scheduler.running := by
  constructor
  · rintro ⟨f, _, posted⟩
    rw [← not_or]
    intro busy
    have longer := posted.length_le
    rw [request_of_busy busy] at longer
    simp only [List.length_cons] at longer
    omega
  · rintro ⟨hp, hr⟩
    rw [request_of_idle hp hr]
    refine ⟨.fn (.made b.closures.size), ⟨b.closures.size, rfl, ?_⟩,
      suffix_announce (b.note (.requested e key)) e key⟩
    simp

end Board

/-- The engine knows a scope no longer: it has no record, no watcher and no mark. -/
structure Session.Forgot (w : Session κ) (e : Nat) (s : Value) : Prop where
  recordless : (w.engine e).records.get? s = none
  unwatched : (w.engine e).scheduler.watchersOf s = []
  unmarked : s ∉ (w.engine e).scheduler.pending
  undeferred : s ∉ (w.engine e).scheduler.deferred

/-- What a reported write to `s` does to the engine on the way from `w` to `w'`: it marks `s` unless that is
running, and posts the callback for its pass if it was not marked either. A flush then begins a pass for
the watchers that `s` has by now. -/
structure Session.Reports (w w' : Session κ) (e : Nat) (s : Value) : Prop where
  marks : ∀ k, k ∈ (w'.engine e).scheduler.pending ↔
    k ∈ (w.engine e).scheduler.pending ∨ k = s ∧ s ∉ (w.engine e).scheduler.running
  posts : (∃ f, (w'.board e).runsPass e s f ∧
      .posted e f :: .requested e s :: w.history e <:+ w'.history e) ↔
    s ∉ (w.engine e).scheduler.pending ∧ s ∉ (w.engine e).scheduler.running
  wakes : ∀ (env : Env κ) w'', env.Follows e → ¬ (w.engine e).scheduler.Loud →
    s ∈ (w'.engine e).scheduler.pending → Scheduler.flush e s env w' = (.value (), w'') →
    w''.setUps e = w'.setUps e →
    .passBegan e s ((w.engine e).scheduler.watchersOf s) :: w'.history e <:+ w''.history e

theorem Board.began_suffix (b : Board) (e : Nat) (key : Value) (ps : List OpenPass) :
    .passBegan e key (b.scheduler.watchersOf key) :: b.history <:+
      (b.beginPass e key ps).board.history := by
  unfold beginPass
  split
  · next h =>
    rw [h]
    exact List.suffix_cons _ _
  · exact List.suffix_refl _

theorem Session.reports_of_board {w w' : Session κ} {s : Value}
    (h : w'.board e = (w.board e).request e s) : w.Reports w' e s := by
  have hs : (w'.engine e).scheduler = ((w.board e).request e s).scheduler := congrArg Board.scheduler h
  refine ⟨fun k => ?_, ?_, fun env w'' henv quiet marked flushed once => ?_⟩
  · rw [hs]
    exact (w.board e).mem_pending_request e s k
  · rw [h, show w'.history e = ((w.board e).request e s).history from congrArg Board.history h]
    exact (w.board e).request_posts_iff e s
  · have settings : (w'.board e).settings = (w.board e).settings := by
      rw [h]
      exact Board.settings_steady.request (w.board e) e s
    have quiet' : ¬ (w'.board e).scheduler.Loud := fun hl => quiet ((Board.loud_of_settings settings).1 hl)
    have watchers : ((w'.board e).unmark s).scheduler.watchersOf s =
        (w.engine e).scheduler.watchersOf s := by
      rw [h]
      exact congrFun (Board.watchersOf_steady.request (w.board e) e s) s
    have began := ((w'.board e).unmark s).began_suffix e s []
    rw [watchers] at began
    have rest := Scheduler.steps_of_flush henv flushed marked quiet' []
    refine began.trans (rest.suffix (once.trans ?_))
    exact congrArg Prod.fst (Board.around_steady.beginPass ((w'.board e).unmark s) e s []).symm

section Writing

variable {w : Session κ} {s record : Value} {data : Ref}

/-- Destroying a scope that has a record makes the engine forget it and leaves the object graph alone. -/
theorem Scope.destroy_forgets (held : (w.engine e).records.get? s = some record) (env : Env κ) :
    ∃ w', destroy e s env w = (.value (), w') ∧ w'.Forgot e s ∧ w'.store = w.store := by
  unfold destroy
  rw [bind_engine, if_pos (by simp [Table.contains, held])]
  refine ⟨_, rfl, ⟨?_, ?_, ?_, ?_⟩, rfl⟩ <;>
    simp [Scheduler.watchersOf, Scheduler.drop, Table.get?_erase]

/-- A write under a text of a record that reports to `s` comes to its end by itself. -/
theorem Record.setPath_own {path : Value} {p : String} (hp : w.store.segmentsOf path = [p])
    (sink : (w.engine e).queue.sink = none) (env : Env κ) (data : Ref) (s v : Value) :
    ∃ w', setPath data (.schedule e s) path v env w = (.value (), w') ∧
      (tells w.store data p v = true → w.Reports w' e s) ∧
      (tells w.store data p v = false → w'.board e = w.board e) := by
  let stored : Session κ :=
    { w with store := w.store.put data (.dict ((fields w.store data).insert (.text p) v)) }
  unfold setPath
  rw [bind_store, hp]
  change ∃ w', (if tells w.store data p v then Scheduler.request e s else pure ()) env stored = _ ∧ _
  cases ht : tells w.store data p v with
  | true =>
    obtain ⟨w', requested, hb⟩ := Follows.request_own (w := stored) env s sink
    exact ⟨w', requested, fun _ => Session.reports_of_board hb, fun h => absurd h (by simp)⟩
  | false => exact ⟨stored, rfl, fun h => absurd h (by simp), fun _ => rfl⟩

/-- A result is written back by the state it belongs to, and then what follows is done. -/
theorem Task.settle_of_write {path v : Value} {hook : Hook} {env : Env κ} {w' : Session κ}
    (cell : w.store.record? record = some (data, hook)) (some : v.isNone = false)
    (placed : w.store.truthy path = true)
    (written : Record.setPath data hook path v env w = (.value (), w')) :
    settle ⟨record, path, .flush e s⟩ (.ok v) env w = (do Scope.flush e s; return v) env w' := by
  have into : Handler.writeInto record path v env w = (.value (), w') := by
    unfold Handler.writeInto
    rw [bind_store, cell]
    exact written
  have back : Handler.writeBack record path v env w = (.value (), w') := by
    have asked : truthy path env w = (.value true, w) := congrArg (fun b => (Outcome.value b, w)) placed
    unfold Handler.writeBack contain
    rw [bind_value asked, some]
    change (attempt (Handler.writeInto record path v) >>= _) env w = _
    rw [bind_attempt, into]
    rfl
  exact bind_value back _

/-- Destroying a scope makes the engine forget it, but leaves its record the way to report. Whenever it is
written later, unless the value is the same as before, the write is reported to the scope of that name: it
marks the scope, posts the callback for its pass and so wakes the watchers that it has by now. So does the
result of a handler that was started before. -/
theorem destroyed_record_still_reports (held : (w.engine e).records.get? s = some record)
    (cell : w.store.record? record = some (data, .schedule e s)) (env : Env κ) :
    ∃ w₁, Scope.destroy e s env w = (.value (), w₁) ∧ w₁.Forgot e s ∧
      w₁.store.record? record = some (data, .schedule e s) ∧
      ∀ w₂ : Session κ, w₂.store.record? record = some (data, .schedule e s) →
        (w₂.engine e).queue.sink = none →
        ∀ (env : Env κ) path p v, w₂.store.segmentsOf path = [p] →
          ∃ w₃, Record.setPath data (.schedule e s) path v env w₂ = (.value (), w₃) ∧
            (Record.tells w₂.store data p v = true → w₂.Reports w₃ e s) ∧
            (Record.tells w₂.store data p v = false → w₃.board e = w₂.board e) ∧
            (v.isNone = false → w₂.store.truthy path = true →
              Task.settle ⟨record, path, .flush e s⟩ (.ok v) env w₂ =
                (do Scope.flush e s; return v) env w₃) := by
  obtain ⟨w₁, destroyed, forgot, same⟩ := Scope.destroy_forgets held env
  refine ⟨w₁, destroyed, forgot, same ▸ cell, fun w₂ cell₂ sink env path p v hp => ?_⟩
  obtain ⟨w₃, written, told, untold⟩ := Record.setPath_own hp sink env data s v
  exact ⟨w₃, written, told, untold, fun some placed => Task.settle_of_write cell₂ some placed written⟩

end Writing

-- A client that keeps the record of a scope it has destroyed and sets up the scope anew, with a watcher.
namespace Revenant

def host : Host Unit := fun _ => { body := fun _ => return .none }

def env : Env Unit := Env.within host 10

def setUp : Act Unit Value := do
  let _ ← Act.ask (.create 0 {})
  Act.ask (.engine 0 (.initScope Echo.scope .none))

def started : Session Unit := (Session.run host 10 setUp { memory := () }).2

/-- The record of the scope that is going to be destroyed. -/
def old : Value := ((started.engine 0).records.get? Echo.scope).getD .none

/-- Its data. -/
def oldData : Ref := ((started.store.record? old).map Prod.fst).getD ⟨0⟩

def destroyed : Session Unit := (Scope.destroy 0 Echo.scope env started).2

def main : Act Unit Value := do
  let _ ← Act.ask (.engine 0 (.initScope Echo.scope .none))
  Act.ask (.engine 0 (.watch Echo.scope (.fn (.client "watcher"))))

def revived : Session Unit := (Session.run host 10 main destroyed).2

def written : Session Unit :=
  (Record.setPath oldData (.schedule 0 Echo.scope) (.text "n") (.int 1) env revived).2

/-- The result of a handler that was started before the scope was destroyed. -/
def settled : Session Unit :=
  (Task.settle ⟨old, .text "n", .flush 0 Echo.scope⟩ (.ok (.int 1)) env revived).2

theorem known : revived.store.record? old = some (oldData, .schedule 0 Echo.scope) := by decide +kernel

def wakes : Event → Bool
  | .watcherCalled 0 scope f => scope == Echo.scope && f == .fn (.client "watcher")
  | _ => false

end Revenant

theorem destroyed_record_still_reports_revenant :
    Revenant.destroyed.Forgot 0 Echo.scope ∧ Revenant.revived.Reports Revenant.written 0 Echo.scope := by
  have held : (Revenant.started.engine 0).records.get? Echo.scope = some Revenant.old := by decide +kernel
  have cell : Revenant.started.store.record? Revenant.old = some (Revenant.oldData, .schedule 0 Echo.scope) := by
    decide +kernel
  have accepts : (Revenant.revived.engine 0).queue.sink = none := by decide +kernel
  have segment : Revenant.revived.store.segmentsOf (.text "n") = ["n"] := by decide +kernel
  have tells : Record.tells Revenant.revived.store Revenant.oldData "n" (.int 1) = true := by decide +kernel
  obtain ⟨w₁, destroyed, forgot, _, later⟩ := destroyed_record_still_reports held cell Revenant.env
  obtain ⟨w₃, written, told, _⟩ := later Revenant.revived Revenant.known accepts Revenant.env (.text "n") "n" (.int 1)
    segment
  have same : Revenant.destroyed = w₁ := congrArg Prod.snd destroyed
  have same' : Revenant.written = w₃ := congrArg Prod.snd written
  rw [same, same']
  exact ⟨forgot, told tells⟩

/-- A write through the record that is gone marks the scope that has taken its place, posts a callback for it and
wakes its watcher; and so does a result that comes late. -/
theorem destroyed_record_wakes_successor :
    Echo.scope ∉ (Revenant.started.engine 0).scheduler.running ∧
    Revenant.revived.store.record? Revenant.old = some (Revenant.oldData, .schedule 0 Echo.scope) ∧
    (Revenant.revived.engine 0).records.get? Echo.scope ≠ some Revenant.old ∧
    (Revenant.revived.engine 0).scheduler.pending = [] ∧
    (Revenant.revived.engine 0).queue.posted = [] ∧
    (Revenant.written.engine 0).scheduler.pending = [Echo.scope] ∧
    (Revenant.written.engine 0).queue.posted.length = 1 ∧
    (Revenant.revived.history 0).any Revenant.wakes = false ∧
    (Revenant.settled.history 0).any Revenant.wakes = true := by
  refine ⟨?_, Revenant.known, ?_, ?_, List.isEmpty_iff.1 ?_, ?_, ?_, ?_, ?_⟩ <;> decide +kernel

end ReactiveScopes
