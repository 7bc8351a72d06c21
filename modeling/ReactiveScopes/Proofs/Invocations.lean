import ReactiveScopes.Proofs.Answers
import ReactiveScopes.Proofs.Audience

/-!
# Invocations in a row

Evaluating the name of a handler that does nothing but compute several times over, outside of any pass, is applying a
function several times to what is at the path. A tick after it calls each watcher once if a write was reported since the
last pass, and none otherwise.
-/
namespace ReactiveScopes

open Eff History Datum

variable {κ : Type} {w : Session κ} {n y : Placed} {I : Invocation κ}

/-- Where a path of JSON data can be written and JSON data are read there, evaluating the name is answered by what is
read. -/
theorem Invocation.Holds.of_json (bears : w.Bears I.engine I.scope I.record n) (json : n.IsJson)
    {u : Value} {env : Env κ} (writable : (Path.set n.value (.text I.path) u env w).1 = .value ())
    (found : w.store.getPath I.record (.text I.path) = .ok y.value) (stands : y.Stands w.store) (data : y.IsJson) :
    I.Holds w n y where
  bears := bears
  takes m x := by
    rw [Option.isSome_iff_ne_none]
    intro none
    have fails : n.write Ref.mk w.store.cells.size (segments I.path) x = Option.none := by
      rw [← Option.isNone_iff_eq_none, ← Option.not_isSome, isSome_write, ← isSome_write n x m, none]
      rfl
    have branch : n.isBranch := by
      obtain ⟨data, keys, cs, rfl, -⟩ := bears.store.root
      rfl
    obtain ⟨f, s', run, -⟩ := write_fails bears.store.stands branch (segments_ne_nil I.path) fails u env
    have ran : Path.set n.value (.text I.path) u env w = (.fault f, w.having s') := run
    rw [ran] at writable
    cases writable
  reads kept := (bears.store.getPath_lasts json kept I.path).trans found
  stands := stands
  json := data

/-- Evaluations in a row of the name of a handler that computes answer what it makes of what is at the path, each of
what the one before has left there, and no other key of the data changes. The scheduler is told of some writes and of
nothing else. In a run without loops, of an engine with a queue of its own that is at rest, a tick that follows comes to
its end if the watchers keep to their manners. Unless writes are reported in it, it calls each watcher once if a write
to its scope was reported since the last pass, and otherwise not at all. -/
theorem invocations_compose (sound : I.Sound) (serves : I.Serves w) (bears : w.Bears I.engine I.scope I.record n)
    (json : n.IsJson) {u : Value} {env : Env κ} (writable : (Path.set n.value (.text I.path) u env w).1 = .value ())
    (found : w.store.getPath I.record (.text I.path) = .ok y.value) (stands : y.Stands w.store) (data : y.IsJson)
    (k : Nat) :
    ∃ (w₁ : Session κ) (n₁ y₁ : Placed),
      Ends I.host (I.evaluations k) w (.value ((List.iterate I.next y.plain k).map I.answer), w₁) ∧
      w₁.Bears I.engine I.scope I.record n₁ ∧
      (w₁.store.getPath I.record (.text I.path) = .ok y₁.value ∧ y₁.Stands w₁.store ∧
        y₁.plain = I.next^[k] y.plain) ∧
      (∀ key, key ≠ rootOf I.path → n₁.plain.get? key = n.plain.get? key) ∧
      (∃ m, w₁.board I.engine = (·.request I.engine I.scope)^[m] (w.board I.engine)) ∧
      ∀ {w₀ : Session κ} {M : Manners κ}, M.engine = I.engine → M.Sound → M.Begins w₀ → Session.Moment w₀ w →
        w.setUps I.engine = w₀.setUps I.engine → w.loops = w₀.loops → M.Rests (w.board I.engine) → M.keys I.scope →
        M.known w₁ →
        ∃ w₂, Ends M.host (perform (.engine I.engine .tick)) w₁
            (.value (.int (w₁.engine I.engine).queue.posted.length), w₂) ∧
          ((∀ key, .requested I.engine key ∉ since (w₁.history I.engine) (w₂.history I.engine)) →
            w₁.PaysUp I.engine M.policy w₂) := by
  obtain ⟨w₁, n₁, y₁, run, moves⟩ :=
    Invocation.answers sound serves (.of_json bears json writable found stands data) k
  refine ⟨w₁, n₁, y₁, run, moves.holds.bears, ⟨moves.holds.reads id, moves.holds.stands, moves.next⟩, moves.others,
    moves.board, ?_⟩
  intro w₀ M same hM begins moment once still rests may known
  obtain ⟨m, board⟩ := moves.board
  rw [← same] at board once rests ⊢
  obtain ⟨ps, steps⟩ := moment.steps M.engine
  -- each write that was reported is a move of the scheduler after which it is still at rest
  let Told (b : Board) : Prop :=
    Steps M.engine (w₀.scene M.engine []) ⟨b, ps, none⟩ ∧ b.around = (w.board M.engine).around ∧ M.Rests b
  have told : Told (w₁.board M.engine) := by
    rw [board]
    refine Function.Iterate.rec Told ⟨steps, rfl, rests⟩ (fun b ⟨steps, around, rests⟩ => ?_) m
    exact ⟨steps.tail (.request b ps I.scope), (Board.around_enqueue _ M.engine I.scope).trans around,
      rests.request may⟩
  obtain ⟨steps, around, rests⟩ := told
  have once₁ : w₁.setUps M.engine = w₀.setUps M.engine := (congrArg (·.1) around).trans once
  have still₁ : w₁.loops = w₀.loops := (congrArg (·.2.2) around).trans still
  exact Manners.tick_calls begins steps once₁ rests hM still₁ known

-- A client with a handler that adds one to integers. A watcher counts how often it is called, ends with something that
-- is no error, has the scope notified, or writes and breaks off the first pass it is called in. What is left of the
-- client writes and ticks while the queue is drained, and doubles the count.
namespace Tally

def bump : Value → Value
  | .int i => .int (i + 1)
  | _ => .none

def count : Act Nat Value := do
  Act.modifyMemory (· + 1)
  return .none

def evaluate (scope : Value) (name : String) : Act Nat Value :=
  Act.ask (.engine 0 (.evaluate { scope, source := .text name, path := .text "n" }))

def write : Act Nat Value := evaluate Echo.scope "increment"

def tick : Act Nat Value := Act.ask (.engine 0 .tick)

def notify : Act Nat Value := Act.ask (.scheduler 0 (.notify Echo.scope))

def host : Host Nat := fun name =>
  { body := fun args =>
      if name = "increment" then return bump (args.headD .none)
      else if name = "watcher" then count
      else if name = "collect" then return .none
      else if name = "stop" then .raise (.client .cancelled "")
      else if name = "again" then do
        if (← Act.memory) < 2 then notify else return .none
      else if name = "restart" then do
        let _ ← count
        if (← Act.memory) = 1 then do
          let _ ← write
          .raise (.client .cancelled "")
        else return .none
      else do
        let _ ← write
        let _ ← tick
        Act.modifyMemory (· * 2)
        return .none }

def watch : List String → Act Nat Value
  | [] => return .none
  | name :: names => do
    let _ ← Act.ask (.engine 0 (.watch Echo.scope (.fn (.client name))))
    watch names

/-- Sets up a scope with watchers, and registers the handler under a name. -/
def prepare (watchers : List String) (scope : Value) (name : String) : Act Nat Value := do
  let initial ← Act.ask (.make (.dict (Table.ofList [(.text "n", .int 1)])))
  let _ ← Act.ask (.engine 0 (.initScope scope initial))
  let _ ← watch watchers
  Act.ask (.registry 0 (.register (.text name) (.fn (.client "increment"))))

/-- Where the handler has been registered. -/
def ready : Session Nat := (Session.run host 10 (prepare ["watcher"] Echo.scope "increment") (.opened .skip 0)).2

/-- What evaluating the name answers. -/
def answer (scope : Value) (name : String) : Act Nat Value := do
  let _ ← Act.ask (.create 0 {})
  let _ ← prepare [] scope name
  evaluate scope name

/-- How often watchers have been called when a tick has followed. -/
def calls (setup : Setup) (watchers : List String) (writes : Act Nat Value) : Act Nat Value := do
  let _ ← Act.ask (.create 0 setup)
  let _ ← prepare watchers Echo.scope "increment"
  let _ ← writes
  let _ ← tick.attempt
  return .int (← Act.memory)

def outcome (a : Act Nat Value) : Outcome Value := (Session.run host 20 a { memory := 0 }).1

def record : Value := ((ready.engine 0).records.get? Echo.scope).getD .none

def data : Ref := ((ready.store.record? record).map Prod.fst).getD ⟨0⟩

def invocation : Invocation Nat where
  host := host
  engine := 0
  scope := Echo.scope
  record := record
  name := "increment"
  handler := .fn (.client "increment")
  path := "n"
  answer
    | .leaf v => bump v
    | .branch _ _ _ => .none

def held : Placed := .branch data (.dict [.text "n"]) [.leaf (.int 1)]

def manners : Manners Nat where
  host := host
  engine := 0
  policy := .skip
  keys s := s = Echo.scope
  fit _ f := f = .fn (.client "watcher")
  known _ := True

theorem answer_value (y : Placed) : invocation.answer y.plain = bump y.value := by
  cases y <;> rw [plain, Datum.map] <;> rfl

theorem sound : invocation.Sound where
  named := by decide +kernel
  given := by decide +kernel
  scalar x := by
    cases x with
    | leaf v => cases v <;> rfl
    | branch a shape cs => rfl
  computes {w y} told _ _ := by
    have called (v : Value) : Ends host (callValue (.fn (.client "increment")) [v, told]) w (.value (bump v), w) :=
      .call rfl (.alone fun _ => rfl)
    rw [answer_value]
    exact ⟨w.store, called y.value, id⟩

theorem serves : invocation.Serves ready where
  registered := by decide +kernel
  own := by decide +kernel
  recalls x hx := by
    have none : ready.compiled.get? "increment" = none := by decide +kernel
    cases none.symm.trans hx

theorem bears : ready.Bears 0 Echo.scope record held := by
  refine ⟨rfl, by decide +kernel, ⟨⟨data, _, _, rfl, by decide +kernel⟩, ?_, ?_⟩⟩
  · have fields : ready.store.mapping? (.ref data) = some (Table.ofList [(.text "n", .int 1)]) := by decide +kernel
    have plain : ready.store.record? (.ref data) = none := by decide +kernel
    refine .branch (Store.cell?_of_mapping? fields plain) ⟨by decide +kernel, by decide +kernel⟩ ?_
    exact List.forall_mem_singleton.2 (.leaf rfl)
  · rw [held, refs]
    simp [refs]

theorem manners_sound : manners.Sound where
  lasting _ _ := trivial
  obeys := by
    rintro _ _ w rfl rfl _ _
    exact .program rfl trivial

theorem begins : manners.Begins (.opened .skip 0) where
  fresh := Session.opened_fresh .skip 0
  quiet := Session.opened_quiet .skip 0
  distinct _ := List.nodup_nil
  own := rfl
  loopless := ⟨rfl, List.forall_mem_nil _⟩
  policy := rfl

theorem rests : manners.Rests (ready.board 0) where
  outside := by decide +kernel
  idle := by decide +kernel
  unforced key := not_mem_of_any (p := Event.forces) (by decide +kernel) rfl
  whole := .inl rfl
  watchers := by
    rintro _ f rfl hf
    have watching : (ready.board 0).scheduler.watchersOf Echo.scope = [.fn (.client "watcher")] := by decide +kernel
    exact List.mem_singleton.1 (watching ▸ hf)
  marked k hk := by
    have none : (ready.board 0).scheduler.pending = [] := by decide +kernel
    rw [none] at hk
    cases hk
  queued f hf := by
    have none : (ready.board 0).queue.posted = [] := by decide +kernel
    rw [none] at hf
    cases hf

theorem moment : Session.Moment (.opened .skip 0) ready :=
  .plain host 10 (prepare ["watcher"] Echo.scope "increment") Prod.mk.eta.symm (by decide +kernel)

end Tally

/-- Two evaluations add two, and a tick after them comes to its end. -/
theorem invocations_compose_tally :
    ∃ w₁ w₂ n, Ends Tally.host (Tally.invocation.evaluations 2) Tally.ready (.value [.int 2, .int 3], w₁) ∧
      w₁.store.getPath Tally.record (.text "n") = .ok (.int 3) ∧
      Ends Tally.host (perform (.engine 0 .tick)) w₁ (.value (.int n), w₂) := by
  have json : Tally.held.IsJson := .branch (by simp [Shape.Keyed]) (List.forall_mem_singleton.2 (.leaf rfl))
  have writable : (Path.set Tally.held.value (.text "n") (.int 0) (Env.within Tally.host 0) Tally.ready).1 =
      .value () := by decide +kernel
  obtain ⟨w₁, n₁, y₁, run, -, ⟨reads, -, last⟩, -, -, ticks⟩ :=
    invocations_compose (y := .leaf (.int 1)) Tally.sound Tally.serves Tally.bears json writable (by decide +kernel)
      (.leaf rfl) (.leaf rfl) 2
  obtain ⟨w₂, ticked, -⟩ := ticks rfl Tally.manners_sound Tally.begins Tally.moment (by decide +kernel)
    (by decide +kernel) Tally.rests rfl trivial
  have one : plain (.leaf (.int 1)) = .leaf (.int 1) := by rw [plain, Datum.map]
  rw [one] at run last
  have three : y₁ = .leaf (.int 3) := by
    cases y₁ <;> rw [plain, Datum.map] at last <;> cases last
    rfl
  subst three
  exact ⟨w₁, w₂, _, run, reads, ticked⟩

/-- A handler is not invoked by a name that is not a bare one, nor for the scope `none`. Watchers are not called by the
tick after a write where the client takes callbacks itself, in a loop, inside of another tick, or after a watcher that
ends with something that is no error. They are called twice where a pass has been forced before the tick, is forced by a
callable in the queue or by a watcher, or where one that had been written in was broken off. -/
theorem invocations_do_not_compose :
    Tally.outcome (Tally.answer Echo.scope "add-one") = .value .none ∧
    Tally.outcome (Tally.answer .none "increment") = .value .none ∧
    Tally.outcome (Tally.calls { post := some (.client "collect") } ["watcher"] Tally.write) = .value (.int 0) ∧
    (Session.runAsync Tally.host 20 (Tally.calls {} ["watcher"] Tally.write) { memory := 0 }).1 = .value (.int 0) ∧
    Tally.outcome (Tally.calls {} ["watcher"] (Act.ask (.queue 0 (.post (.fn (.client "inside")))))) =
      .value (.int 1) ∧
    Tally.outcome (Tally.calls {} ["stop", "watcher"] Tally.write) = .value (.int 0) ∧
    Tally.outcome (Tally.calls {} ["watcher"] (do let _ ← Tally.write; Tally.notify)) = .value (.int 2) ∧
    Tally.outcome (Tally.calls {} ["watcher"] (do
      let _ ← Tally.write
      Act.ask (.queue 0 (.post (.fn (.client "again")))))) = .value (.int 2) ∧
    Tally.outcome (Tally.calls {} ["watcher", "again"] Tally.write) = .value (.int 2) ∧
    Tally.outcome (Tally.calls { config := { reentrancy := .defer } } ["restart"] (do
      let _ ← Tally.write
      let _ ← Tally.tick.attempt
      Tally.write)) = .value (.int 3) := by
  decide +kernel

end ReactiveScopes
