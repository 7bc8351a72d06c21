import ReactiveScopes.Proofs.OwnKeys

/-!
# A scope with one watcher

Under a policy that defers, what is written to a scope while its pass runs calls for one more. With one watcher,
and nothing else marked or queued, what a pass leaves is therefore settled by whether the watcher has asked again:
if it never does, the drain is over with the pass, and if it always does, the drain goes on for ever.
-/
namespace ReactiveScopes

open Eff

variable {κ : Type} {e : Nat} {host : Host κ} {key v f : Value} {data : Ref} {p : String} {w w' w₁ : Session κ}

namespace Session

/-- A pass is called for: its key is marked, and a callback for it is posted. -/
def announcing (w : Session κ) (e : Nat) (key : Value) : Session κ :=
  (((w.reschedule e fun s => { s with pending := insertKey key s.pending }).closing (.pass e key)).logged
    (.posted e (.fn (.made w.closures.size)))).requeue e
      fun q => { q with posted := q.posted ++ [.fn (.made w.closures.size)] }

@[simp]
theorem engine_announcing (w : Session κ) (e : Nat) (key : Value) :
    (w.announcing e key).engine e = { w.engine e with
      scheduler := { (w.engine e).scheduler with pending := insertKey key (w.engine e).scheduler.pending }
      queue := { (w.engine e).queue with
        posted := (w.engine e).queue.posted ++ [.fn (.made w.closures.size)] } } := by
  have same : (((w.reschedule e fun s => { s with pending := insertKey key s.pending }).closing (.pass e key)).logged
      (.posted e (.fn (.made w.closures.size)))).engine e =
      (w.reschedule e fun s => { s with pending := insertKey key s.pending }).engine e := rfl
  unfold announcing
  rw [engine_requeue, same, engine_reschedule]

theorem bides_announcing (w : Session κ) (e : Nat) (key : Value) : w.Bides e (w.announcing e key) :=
  ⟨⟨_, _, w.engine_announcing e key⟩, id⟩

theorem runsPass_announcing (w : Session κ) (e : Nat) (key : Value) :
    (w.announcing e key).runsPass e key (.fn (.made w.closures.size)) :=
  runsPass_iff.2 ⟨w.closures.size, rfl, Array.getElem?_push_size⟩

end Session

namespace Scheduler

theorem enqueue_posts (idle : key ∉ (w.engine e).scheduler.running) (unmarked : key ∉ (w.engine e).scheduler.pending)
    (sink : (w.engine e).queue.sink = none) (loop : w.loop = none) (env : Env κ) :
    enqueue e key env w = (.value (), w.announcing e key) := by
  let w₁ := (w.reschedule e fun s => { s with pending := insertKey key s.pending }).closing (.pass e key)
  have same : w₁.engine e = (w.reschedule e fun s => { s with pending := insertKey key s.pending }).engine e := rfl
  unfold enqueue
  rw [bind_scheduler, if_neg (by simpa using idle), if_neg (by simpa using unmarked), bind_modify, bind_close]
  unfold Queue.post
  rw [bind_log, bind_engine, bind_read, Session.engine_logged, same, Session.engine_reschedule]
  dsimp only
  rw [sink, show (w₁.logged _).loop = none from loop]
  rfl

end Scheduler

/-- A scope that has one watcher, a function of the client. -/
structure Solo (κ : Type) where
  host : Host κ
  engine : Nat
  scope : Value
  record : Value
  data : Ref
  watcher : String
  program : Act κ Value
  code : host watcher = { body := fun _ => program }

namespace Solo

variable (S : Solo κ)

/-- The scope has its record and no other watcher. Its engine defers what is written while a pass runs, and has a
queue of its own. -/
structure Watched (w : Session κ) : Prop where
  own : w.Owns S.engine S.scope S.record S.data
  watchers : (w.engine S.engine).scheduler.watchersOf S.scope = [.fn (.client S.watcher)]
  policy : (w.engine S.engine).scheduler.policy = .defer
  calm : ¬ (w.engine S.engine).scheduler.Loud
  sink : (w.engine S.engine).queue.sink = none
  loop : w.loop = none

/-- Where the engine stands: what is marked and queued, and whether a pass of the scope is running and has one left
to it. -/
structure Stands (w : Session κ) (pending posted : List Value) (running deferred : Prop) : Prop
    extends S.Watched w where
  pending : (w.engine S.engine).scheduler.pending = pending
  posted : (w.engine S.engine).queue.posted = posted
  running : S.scope ∈ (w.engine S.engine).scheduler.running ↔ running
  deferred : S.scope ∈ (w.engine S.engine).scheduler.deferred ↔ deferred

/-- The scope is marked, and the callback for its pass is all that is queued. -/
structure Due (w : Session κ) (f : Value) : Prop extends S.Stands w [S.scope] [f] False False where
  runs : w.runsPass S.engine S.scope f

/-- What comes after a pass: one more if the watcher has asked `again`, and otherwise nothing. -/
structure After (w : Session κ) (again : Prop) : Prop where
  ended : ¬ again → S.Stands w [] [] False False
  more : again → ∃ f, S.Due w f

variable {S} {ps qs ps' qs' : List Value} {a b a' b' again : Prop} {Q : Session κ → Prop}

/-- What leaves the cells of the store as they were, and of the engine all but marks and callbacks. -/
theorem Stands.move (h : S.Stands w ps qs a b) (bides : w.Bides S.engine w') (loop : w'.loop = w.loop)
    (settings : (w'.board S.engine).settings = (w.board S.engine).settings)
    (watchers : (w'.engine S.engine).scheduler.watchers = (w.engine S.engine).scheduler.watchers)
    (pending : (w'.engine S.engine).scheduler.pending = ps') (posted : (w'.engine S.engine).queue.posted = qs')
    (running : S.scope ∈ (w'.engine S.engine).scheduler.running ↔ a')
    (deferred : S.scope ∈ (w'.engine S.engine).scheduler.deferred ↔ b') : S.Stands w' ps' qs' a' b' := by
  refine ⟨⟨h.own.bides bides, ?_, (congrArg Prod.fst settings).trans h.policy,
    fun hl => h.calm ((Board.loud_of_settings settings).1 hl), ?_, loop.trans h.loop⟩, pending, posted, running,
    deferred⟩
  · rw [Scheduler.watchersOf, watchers]
    exact h.watchers
  · exact (congrArg (fun z => z.2.2.2) settings).trans h.sink

theorem Stands.still (h : S.Stands w ps qs a b) (still : w.Still S.engine w') : S.Stands w' ps qs a b := by
  have same := still.bides.engine_eq still.board
  refine h.move still.bides (congrArg Board.loop still.board) (congrArg Board.settings still.board) ?_ ?_ ?_ ?_ ?_ <;>
    rw [same]
  exacts [h.pending, h.posted, h.running, h.deferred]

theorem Stands.logged (h : S.Stands w ps qs a b) (ev : Event) : S.Stands (w.logged ev) ps qs a b :=
  ⟨⟨h.own.bides (w.bides_logged S.engine ev), h.watchers, h.policy, h.calm, h.sink, h.loop⟩, h.pending, h.posted,
    h.running, h.deferred⟩

theorem Stands.storing (h : S.Stands w ps qs a b) (p : String) (v : Value) :
    S.Stands (w.storing S.data p v) ps qs a b := by
  have overwrites : w.Overwrites False S.engine S.scope S.data (w.storing S.data p v) := .storing w _ _ _
  exact ⟨⟨overwrites.owns h.own h.own, h.watchers, h.policy, h.calm, h.sink, h.loop⟩, h.pending, h.posted, h.running,
    h.deferred⟩

theorem Stands.deferring (h : S.Stands w ps qs a b) : S.Stands (w.deferring S.engine S.scope) ps qs a True := by
  refine h.move (w.bides_reschedule S.engine _) rfl ?_ ?_ ?_ ?_ ?_ ?_ <;>
    simp [Session.deferring, h.pending, h.posted, h.running, Board.settings, Session.board]

theorem Stands.announcing (h : S.Stands w [] [] False False) :
    S.Due (w.announcing S.engine S.scope) (.fn (.made w.closures.size)) := by
  refine ⟨h.move (w.bides_announcing S.engine S.scope) rfl ?_ ?_ ?_ ?_ ?_ ?_,
    Session.runsPass_announcing w S.engine S.scope⟩ <;>
    simp [h.pending, h.posted, h.running, h.deferred, Board.settings, Session.board, insertKey]

theorem Stands.draining (h : S.Stands w ps qs a b) (d : Bool) : S.Stands (w.draining S.engine d) ps qs a b := by
  refine h.move (w.bides_draining S.engine d) rfl ?_ ?_ ?_ ?_ ?_ ?_ <;>
    simp [h.pending, h.posted, h.running, h.deferred, Board.settings, Session.board]

theorem Due.draining (h : S.Due w f) (d : Bool) : S.Due (w.draining S.engine d) f :=
  ⟨h.toStands.draining d, h.runs⟩

/-- A write at rest calls for a pass. -/
theorem Stands.asks (h : S.Stands w [] [] False False) (env : Env κ) :
    Scheduler.request S.engine S.scope env w =
      (.value (), (w.logged (.requested S.engine S.scope)).announcing S.engine S.scope) :=
  Scheduler.enqueue_posts (w := w.logged _) h.running.1 (h.pending ▸ List.not_mem_nil) h.sink h.loop env

/-- A write in a pass leaves one more to it. -/
theorem Stands.asks_again (h : S.Stands w ps qs True b) (env : Env κ) :
    Scheduler.request S.engine S.scope env w =
      (.value (), (w.logged (.requested S.engine S.scope)).deferring S.engine S.scope) :=
  Scheduler.enqueue_defers (w := w.logged _) (h.running.2 trivial) h.policy env

section Passes

variable (lasting : ∀ {w w' : Session κ}, Q w → w.Bides S.engine w' → w'.memory = w.memory → Q w')
  (ran : ∀ {w₁}, w.Bides S.engine w₁ → w₁.memory = w.memory → S.Stands w₁ [] [] True False →
    ∃ v w₂, Ends S.host S.program.run w₁ (.value v, w₂) ∧ S.Stands w₂ [] [] True again ∧ Q w₂)

include lasting ran

/-- A pass runs the program of the watcher. -/
theorem Stands.notified (h : S.Stands w [] [] False False) :
    ∃ w', Ends S.host (Scheduler.notify S.engine S.scope) w (.value (), w') ∧ Q w' ∧ S.After w' again := by
  let f : Value := .fn (.client S.watcher)
  obtain ⟨w₁, still, notified⟩ := Scheduler.notify_ends S.host h.calm h.watchers
  let w₂ := (w₁.entering S.engine S.scope [f]).logged (.watcherCalled S.engine S.scope f)
  have bides : w₁.Bides S.engine w₂ := (w₁.bides_entering S.engine S.scope [f]).trans (Session.bides_logged _ _ _)
  have entered : S.Stands w₂ [] [] True False := by
    have h := h.still still
    refine h.move bides rfl ?_ ?_ ?_ ?_ ?_ ?_ <;>
      simp [w₂, h.pending, h.posted, h.deferred, Board.settings, Session.board]
  obtain ⟨v, w₃, done, stands, hq⟩ := ran (still.bides.trans bides) still.memory entered
  have called : Ends S.host (Scheduler.callWatchers S.engine S.scope [f]) (w₁.entering S.engine S.scope [f])
      (.value (), w₃) :=
    Scheduler.callWatchers_next (Ends.client S.code done).attempt_value (by simp) (.pure () w₃)
  have left : S.Stands (w₃.leaving S.engine S.scope) [] [] False again := by
    refine stands.move (w₃.bides_leaving S.engine _) rfl ?_ ?_ ?_ ?_ ?_ ?_ <;>
      simp [stands.pending, stands.posted, stands.deferred, Board.settings, Session.board]
  have hq : Q (w₃.leaving S.engine S.scope) := lasting hq (w₃.bides_leaving S.engine _) rfl
  by_cases asked : again
  · let w₄ := (w₃.leaving S.engine S.scope).reschedule S.engine
      fun r => { r with deferred := eraseKey S.scope r.deferred }
    have taken : S.Stands w₄ [] [] False False := by
      refine left.move (Session.bides_reschedule _ S.engine _) rfl ?_ ?_ ?_ ?_ ?_ ?_ <;>
        simp [w₄, stands.pending, stands.posted, Board.settings, Session.board]
    have more := Scheduler.enqueue_posts taken.running.1 (taken.pending ▸ List.not_mem_nil) taken.sink taken.loop
    exact ⟨_, notified (Scheduler.runPass_again called (stands.deferred.2 asked) (.alone more)),
      lasting (lasting hq (Session.bides_reschedule _ S.engine _) rfl) (w₄.bides_announcing S.engine S.scope) rfl,
      absurd asked, fun _ => ⟨_, taken.announcing⟩⟩
  · have undeferred : S.scope ∉ (w₃.engine S.engine).scheduler.deferred := fun hd => asked (stands.deferred.1 hd)
    exact ⟨_, notified (Scheduler.runPass_ends called undeferred), hq, fun _ => by simpa [asked] using left,
      (absurd · asked)⟩

/-- So does the callback for it. -/
theorem Due.called (h : S.Due w f) :
    ∃ w', Ends S.host (callValue f []) (w.taking S.engine f []) (.value .none, w') ∧ Q w' ∧ S.After w' again := by
  let w₁ := w.taking S.engine f []
  let w₂ := w₁.reschedule S.engine fun r => { r with pending := eraseKey S.scope r.pending }
  have bides : w.Bides S.engine w₂ := (w.bides_taking S.engine f []).trans (w₁.bides_reschedule S.engine _)
  have taken : S.Stands w₁ [S.scope] [] False False := by
    refine h.move (w.bides_taking S.engine f []) rfl ?_ ?_ ?_ ?_ ?_ ?_ <;>
      simp [w₁, h.pending, h.running, h.deferred, Board.settings, Session.board]
  have unmarked : S.Stands w₂ [] [] False False := by
    refine taken.move (w₁.bides_reschedule S.engine _) rfl ?_ ?_ ?_ ?_ ?_ ?_ <;>
      simp [w₂, taken.pending, taken.posted, taken.running, taken.deferred, eraseKey, Board.settings, Session.board]
  obtain ⟨w', notified, after⟩ :=
    unmarked.notified lasting fun {w₁} hb memory => ran (bides.trans hb) memory
  have marked : S.scope ∈ (w₁.engine S.engine).scheduler.pending := taken.pending ▸ List.mem_singleton.2 rfl
  exact ⟨w', Scheduler.callback_ends (w := w₁) h.runs (Scheduler.flush_ends marked notified), after⟩

end Passes

/-- While the watcher asks again in every pass, a tick comes to no end. -/
theorem Due.endless (h : S.Due w f) (outside : (w.engine S.engine).queue.draining = false)
    (lasting : ∀ {w w' : Session κ}, Q w → w.Bides S.engine w' → w'.memory = w.memory → Q w')
    (asks : ∀ {w}, Q w → S.Stands w [] [] True False →
      ∃ v w₂, Ends S.host S.program.run w (.value v, w₂) ∧ S.Stands w₂ [] [] True True ∧ Q w₂)
    (hq : Q w) (r : Value) (w' : Session κ) :
    ¬ Ends S.host (perform (.engine S.engine .tick)) w (.value r, w') := by
  rintro ⟨N, ticked⟩
  have drained (n : Nat) (hn : N ≤ n) : ∃ m : Nat, r = .int m ∧
      Queue.runPending S.engine (Env.within S.host n) w = (.value m, w') := by
    have ticked := ticked n hn
    rw [perform_engine] at ticked
    obtain ⟨m, w₁, drained, rest⟩ := value_of_bind ticked
    cases rest
    exact ⟨m, rfl, drained⟩
  obtain ⟨m, rfl, -⟩ := drained N (Nat.le_refl N)
  have ended : Ends S.host (Queue.runPending S.engine) w (.value m, w') := by
    refine ⟨N, fun n hn => ?_⟩
    obtain ⟨m', same, drained⟩ := drained n hn
    rw [drained, Int.natCast_inj.1 (Value.int.inj same)]
  let P (w : Session κ) : Prop := Q w ∧ ∃ f, S.Due w f
  refine Queue.runPending_endless (P := P) ?_ outside
    ⟨lasting hq (w.bides_draining S.engine true) rfl, f, h.draining true⟩ ended
  rintro w ⟨hq, f, due⟩
  obtain ⟨w', called, hq', after⟩ : ∃ w', Ends S.host (callValue f []) (w.taking S.engine f []) (.value .none, w') ∧
      Q w' ∧ S.After w' True :=
    due.called lasting fun bides memory stands => asks (lasting hq bides memory) stands
  exact ⟨f, [], _, w', due.posted, called, hq', after.more trivial⟩

end Solo

end ReactiveScopes
