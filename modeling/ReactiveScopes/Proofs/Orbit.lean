import Mathlib.Data.List.Iterate
import Mathlib.Data.Nat.Find
import ReactiveScopes.Proofs.PassStack
import ReactiveScopes.Proofs.Solo

/-!
# Watching an integer settle

A watcher reads an integer of its scope and stores what a function makes of it. Under a policy that leaves what is
written meanwhile to one more pass, it is called again as long as that changes the integer. So a write from outside
sends the integer along its orbit under the function, up to the first fixpoint if there is one.
-/
namespace ReactiveScopes

open Eff

variable {κ : Type}

section Watching

variable {e : Nat} {host : Host κ} {s record v k f : Value} {data r : Ref} {p : String} {t : Mapping}
  {w w' w₁ : Session κ}

namespace Session

/-- No cell of the store has changed but that of the data of a record, nor has the memory of the client. -/
structure Touches (w : Session κ) (data : Ref) (w' : Session κ) : Prop where
  cells : ∀ {r c}, r ≠ data → w.store.cell? r = some c → w'.store.cell? r = some c
  memory : w'.memory = w.memory

theorem Touches.storing (w : Session κ) (data : Ref) (p : String) (v : Value) : w.Touches data (w.storing data p v) :=
  have overwrites : w.Overwrites False 0 .none data (w.storing data p v) := .storing w data p v
  ⟨overwrites.cells, rfl⟩

end Session

theorem Record.getItem_ends (own : w.Owns e s record data)
    (held : (fields w.store data).get? (.text p) = some v) :
    Ends host (ReactiveScopes.perform (.record record (.getItem (.text p)))) w (.value v, w) := by
  have found : lookup? w.store data (.text p) = .ok (some v) := by
    simp [lookup?, Store.keyOf_text, held, Bind.bind, Except.bind, Pure.pure, Except.pure]
  refine .alone fun env => ((perform_record own env).trans (bind_store _)).trans ?_
  rw [found]
  rfl

/-- What a watcher does that reads an integer of its scope, makes a note of it, and stores what a function makes of
it. -/
def Orbit.advance (e : Nat) (scope : Value) (key : String) (note : κ → Int → κ) (next : Int → Int) :
    Act κ Value := do
  let record ← Act.ask (.engine e (.getState scope))
  let seen ← Act.ask (.record record (.getItem (.text key)))
  match seen with
  | .int x =>
    Act.modifyMemory fun m => note m x
    let updates ← Act.ask (.make (.dict (Table.ofList [(.text key, .int (next x))])))
    Act.ask (.engine e (.setState scope updates))
  | _ => return .none

/-- A scope with an integer in its state, under a key of the record, and such a watcher. -/
structure Orbit (κ : Type) extends Solo κ where
  key : String
  note : κ → Int → κ
  next : Int → Int
  plain : segments key = [key]
  does : program = Orbit.advance engine scope key note next

namespace Orbit

variable (O : Orbit κ)

/-- The integer is `x`. -/
def Has (w : Session κ) (x : Int) : Prop := (Record.fields w.store O.data).get? (.text O.key) = some (.int x)

/-- The ways to write `x` in the place of the integer: by an update, to the record, by an expression, and whatever
else comes to the end that storing does. -/
inductive Writes (x : Int) (w : Session κ) : Command → Prop
  | update {r : Ref} {t : Mapping} {k : Value} : w.store.cell? r = some (.dict t) → r ≠ O.data →
    t.entries = [(k, .int x)] → w.store.segmentsOf k = [O.key] →
    Writes x w (.engine O.engine (.setState O.scope (.ref r)))
  | item : Writes x w (.record O.record (.setItem (.text O.key) (.int x)))
  | path {k : Value} : w.store.segmentsOf k = [O.key] → Writes x w (.record O.record (.setPath k (.int x)))
  | expression {ev : Evaluation} {k : Value} {w₁ : Session κ} : ev.scope = O.scope →
    Scope.Writes O.host O.engine (Session.Still · O.engine ·) O.record ev w k (.int x) w₁ →
    w₁.store.segmentsOf k = [O.key] → Writes x w (.engine O.engine (.evaluate ev))
  | other {c : Command} {v : Value} {w₁ w₂ : Session κ} : w.Still O.engine w₁ →
    Ends O.host (Record.setItem O.data (.schedule O.engine O.scope) (.text O.key) (.int x)) w₁ (.value (), w₂) →
    Ends O.host (perform c) w (.value v, w₂) → Writes x w c

variable {O} {x y : Int}

theorem Has.bides (h : O.Has w x) (own : w.Owns O.engine O.scope O.record O.data) (hb : w.Bides O.engine w') :
    O.Has w' x := by
  unfold Has
  rw [own.fields_bides hb]
  exact h

/-- In a pass of the scope another integer is left to one more. -/
theorem stores_running (h : O.Stands w [] [] True False) (held : O.Has w x) (y : Int) :
    ∃ w', Ends O.host (Record.setItem O.data (.schedule O.engine O.scope) (.text O.key) (.int y)) w
        (.value (), w') ∧
      O.Stands w' [] [] True (x ≠ y) ∧ O.Has w' y ∧ w.Touches O.data w' := by
  have stores (env : Env κ) :
      Record.setItem O.data (.schedule O.engine O.scope) (.text O.key) (.int y) env w = _ :=
    Record.setItem_text _ env
  have stored := h.storing O.key (.int y)
  have touches := Session.Touches.storing w O.data O.key (.int y)
  have has : O.Has (w.storing O.data O.key (.int y)) y := Record.get?_stored h.own.fields
  rw [Record.tells_int held] at stores
  by_cases same : x = y
  · rw [decide_eq_false (not_not_intro same)] at stores
    exact ⟨_, .alone stores, by simpa [same] using stored, has, touches⟩
  · rw [decide_eq_true same] at stores
    have told := stored.logged (.requested O.engine O.scope)
    exact ⟨_, .alone fun env => (stores env).trans (stored.asks_again env), by simpa [same] using told.deferring, has,
      touches.cells, rfl⟩

/-- At rest another integer calls for a pass. -/
theorem stores_rest (h : O.Stands w [] [] False False) (held : O.Has w x) (other : x ≠ y) :
    ∃ f w', Ends O.host (Record.setItem O.data (.schedule O.engine O.scope) (.text O.key) (.int y)) w
        (.value (), w') ∧
      O.Due w' f ∧ O.Has w' y ∧ w.Touches O.data w' ∧
      (w'.engine O.engine).queue.draining = (w.engine O.engine).queue.draining := by
  have stores (env : Env κ) :
      Record.setItem O.data (.schedule O.engine O.scope) (.text O.key) (.int y) env w = _ :=
    Record.setItem_text _ env
  have stored := h.storing O.key (.int y)
  have told := stored.logged (.requested O.engine O.scope)
  have touches := Session.Touches.storing w O.data O.key (.int y)
  have has : O.Has (w.storing O.data O.key (.int y)) y := Record.get?_stored h.own.fields
  rw [Record.tells_int held, decide_eq_true other] at stores
  exact ⟨_, _, .alone fun env => (stores env).trans (stored.asks env), told.announcing, has, ⟨touches.cells, rfl⟩,
    by rw [Session.engine_announcing]; rfl⟩

/-- The watcher sees the integer, and stores what comes of it. -/
theorem watches (h : O.Stands w [] [] True False) (held : O.Has w x) :
    ∃ w', Ends O.host O.program.run w (.value .none, w') ∧ O.Stands w' [] [] True (x ≠ O.next x) ∧
      O.Has w' (O.next x) ∧ w'.memory = O.note w.memory x := by
  let w₁ : Session κ := { w with memory := O.note w.memory x }
  let t : Mapping := Table.ofList [(.text O.key, .int (O.next x))]
  let w₂ : Session κ := { w₁ with store := (w₁.store.alloc (.dict t)).2 }
  have bides : w.Bides O.engine w₂ :=
    ⟨(w.bides_alloc O.engine (.dict t)).engine, (w.bides_alloc O.engine (.dict t)).cells⟩
  have h₂ : O.Stands w₂ [] [] True False :=
    h.move bides rfl rfl rfl h.pending h.posted h.running h.deferred
  obtain ⟨w', stores, stands, has, cells, memory⟩ := stores_running h₂ (held.bides h.own bides) (O.next x)
  have new : w₂.store.cell? (w₁.store.alloc (.dict t)).1 = some (.dict t) := Store.cell?_alloc_new
  have apart : (w₁.store.alloc (.dict t)).1 ≠ O.data := h.own.apart_alloc (.dict t)
  have updated := Scope.setState_single h₂.own new (k := .text O.key) (v := .int (O.next x)) rfl
    (O.plain : segments O.key = [O.key]) stores (cells apart new)
  refine ⟨w', ?_, stands, has, memory⟩
  rw [O.does]
  refine .ask (Scope.getState_ends h.own) (.ask (Record.getItem_ends h.own held) ?_)
  exact .noted (.ask (Client.make_ends t) (updated.attempt_value.bind (.pure Value.none w')))

/-- A pass that is due shows the watcher the integer once. -/
theorem shown (h : O.Due w f) (held : O.Has w x) :
    ∃ w', Ends O.host (callValue f []) (w.taking O.engine f []) (.value .none, w') ∧
      O.After w' (x ≠ O.next x) ∧ O.Has w' (O.next x) ∧ w'.memory = O.note w.memory x := by
  let Q (w' : Session κ) : Prop :=
    w'.Owns O.engine O.scope O.record O.data ∧ O.Has w' (O.next x) ∧ w'.memory = O.note w.memory x
  have lasting {a b : Session κ} : Q a → a.Bides O.engine b → b.memory = a.memory → Q b :=
    fun ⟨own, has, noted⟩ hb memory => ⟨own.bides hb, has.bides own hb, memory.trans noted⟩
  obtain ⟨w', called, ⟨_, has, noted⟩, after⟩ := h.called (Q := Q) lasting fun {w₁} bides memory stands => by
    obtain ⟨w₂, ran, stands, has, noted⟩ := watches stands (held.bides h.own bides)
    exact ⟨_, w₂, ran, stands, stands.own, has, noted.trans (congrArg (O.note · x) memory)⟩
  exact ⟨w', called, after, has, noted⟩

/-- Draining the queue shows the watcher the orbit up to its first fixpoint. -/
theorem drains {k : Nat} (h : O.Due w f) (held : O.Has w x) (fixed : O.next (O.next^[k] x) = O.next^[k] x)
    (first : ∀ j < k, O.next (O.next^[j] x) ≠ O.next^[j] x) (ran : Nat) :
    ∃ w', Queue.Drains O.host O.engine ran w (.value (ran + (k + 1)), w') ∧ O.Stands w' [] [] False False ∧
      O.Has w' (O.next^[k] x) ∧ w'.memory = (List.iterate O.next x (k + 1)).foldl O.note w.memory := by
  induction k generalizing w x f ran with
  | zero =>
    obtain ⟨w₁, called, after, has, noted⟩ := shown h held
    have ended := after.ended (not_not_intro fixed.symm)
    exact ⟨w₁, .cons h.posted called (.nil ended.posted), ended, fixed ▸ has, noted⟩
  | succ k ih =>
    obtain ⟨w₁, called, after, has, noted⟩ := shown h held
    obtain ⟨g, due⟩ := after.more (first 0 (Nat.succ_pos k)).symm
    obtain ⟨w', drained, ended, has, seen⟩ :=
      ih due has fixed (fun j hj => first (j + 1) (Nat.succ_lt_succ hj)) (ran + 1)
    refine ⟨w', .cons h.posted called ?_, ended, has, ?_⟩
    · rwa [Nat.add_right_comm, Nat.add_assoc] at drained
    · rw [seen, noted]
      rfl

/-- Up to its first fixpoint an orbit comes to no integer twice. -/
theorem nodup_iterate {next : Int → Int} {k : Nat} (fixed : next (next^[k] x) = next^[k] x)
    (first : ∀ j < k, next (next^[j] x) ≠ next^[j] x) : (List.iterate next x (k + 1)).Nodup := by
  -- where it comes back to, it would have come to the fixpoint before
  have apart {i j : Nat} (hij : i < j) (hj : j ≤ k) : next^[i] x ≠ next^[j] x := by
    intro same
    have later : next^[k - j + i] x = next^[k] x := by
      rw [Function.iterate_add_apply, same, ← Function.iterate_add_apply, Nat.sub_add_cancel hj]
    refine first (k - j + i) (by omega) ?_
    rw [later, fixed]
  rw [← List.range_map_iterate]
  refine List.nodup_range.map_on fun i hi j hj same => ?_
  rw [List.mem_range] at hi hj
  rcases Nat.lt_trichotomy i j with hij | hij | hij
  · exact absurd same (apart hij (by omega))
  · exact hij
  · exact absurd same.symm (apart hij (by omega))

/-- A tick shows the watcher the orbit. -/
theorem ticks {k : Nat} (h : O.Due w f) (held : O.Has w x) (outside : (w.engine O.engine).queue.draining = false)
    (fixed : O.next (O.next^[k] x) = O.next^[k] x) (first : ∀ j < k, O.next (O.next^[j] x) ≠ O.next^[j] x) :
    ∃ w', Ends O.host (perform (.engine O.engine .tick)) w (.value (.int (k + 1)), w') ∧
      O.Stands w' [] [] False False ∧ O.Has w' (O.next^[k] x) ∧
      w'.memory = (List.iterate O.next x (k + 1)).foldl O.note w.memory := by
  have begun := held.bides h.own (w.bides_draining O.engine true)
  obtain ⟨w₁, drained, stands, has, seen⟩ := drains (h.draining true) begun fixed first 0
  rw [Nat.zero_add] at drained
  refine ⟨_, .congr (perform_engine O.engine .tick · w) ?_, stands.draining false,
    has.bides stands.own (w₁.bides_draining O.engine false), seen⟩
  exact (Queue.runPending_ends outside drained).bind (.pure _ _)

/-- However another integer is written, at rest that calls for a pass. -/
theorem Writes.ends {c : Command} (hw : O.Writes y w c) (h : O.Stands w [] [] False False) (held : O.Has w x)
    (other : x ≠ y) :
    ∃ v f w', Ends O.host (perform c) w (.value v, w') ∧ O.Due w' f ∧ O.Has w' y ∧ w'.memory = w.memory ∧
      (w'.engine O.engine).queue.draining = (w.engine O.engine).queue.draining := by
  have later {w₁ : Session κ} (still : w.Still O.engine w₁) :=
    stores_rest (h.still still) (held.bides h.own still.bides) other
  obtain ⟨f, w', stores, due, has, touches, draining⟩ := later (.refl w O.engine)
  cases hw with
  | @update r t k updates apart single hp =>
    exact ⟨_, f, w', Scope.setState_single h.own updates single hp stores (touches.cells apart updates), due, has,
      touches.memory, draining⟩
  | item =>
    have stored : Ends O.host (Record.storeKey O.data (.schedule O.engine O.scope) (.text O.key) (.int y)) w
        (.value (), w') := by
      refine .congr (fun env => ?_) stores
      unfold Record.storeKey
      rw [bind_store, Store.keyOf_text]
      rfl
    exact ⟨_, f, w', .congr (perform_record h.own) (stored.bind (.pure Value.none w')), due, has, touches.memory,
      draining⟩
  | path hp =>
    have stored := Ends.congr (Record.setPath_item hp _) stores
    exact ⟨_, f, w', .congr (perform_record h.own) (stored.bind (.pure Value.none w')), due, has, touches.memory,
      draining⟩
  | @expression ev k w₁ scope writes hp =>
    have still := writes.related fun h h' => h.trans h'
    obtain ⟨f, w', stores, due, has, touches, draining⟩ := later still
    have pub {a b : Session κ} (h : a.Still O.engine b) : (b.engine O.engine).pub = (a.engine O.engine).pub := by
      rw [h.bides.engine_eq h.board]
    exact ⟨_, f, w', Scope.evaluate_writes pub (scope ▸ h.own) writes (h.own.bides still.bides).cell
      (.congr (Record.setPath_item hp _) stores), due, has, touches.memory.trans still.memory,
      draining.trans (by rw [still.bides.engine_eq still.board])⟩
  | @other _ v w₁ w₂ still stores ends =>
    obtain ⟨f, w', stores', due, has, touches, draining⟩ := later still
    cases stores.unique stores'
    exact ⟨v, f, _, ends, due, has, touches.memory.trans still.memory,
      draining.trans (by rw [still.bides.engine_eq still.board])⟩

end Orbit

end Watching

open History

-- A client whose watcher counts on up to three and keeps what it has seen.
namespace Climb

def next (x : Int) : Int := min (x + 1) 3

def host : Host (List Int) := fun _ => { body := fun _ => Orbit.advance 0 Echo.scope "n" (fun m x => m ++ [x]) next }

def main : Act (List Int) Value := do
  let initial ← Act.ask (.make (.dict (Table.ofList [(.text "n", .int 0)])))
  let _ ← Act.ask (.engine 0 (.initScope Echo.scope initial))
  Act.ask (.engine 0 (.watch Echo.scope (.fn (.client "watcher"))))

/-- Where the scope is watched. -/
def watched : Session (List Int) := (Session.run host 10 main (.opened .defer [])).2

def record : Value := ((watched.engine 0).records.get? Echo.scope).getD .none

def data : Ref := ((watched.store.record? record).map Prod.fst).getD ⟨0⟩

def orbit : Orbit (List Int) where
  host := host
  engine := 0
  scope := Echo.scope
  record := record
  data := data
  key := "n"
  watcher := "watcher"
  program := _
  code := rfl
  note m x := m ++ [x]
  next := next
  plain := by decide +kernel
  does := rfl

theorem watched_alone : orbit.Watched watched where
  own := by
    have fields : watched.store.mapping? (.ref data) = some (Table.ofList [(.text "n", .int 0)]) := by decide +kernel
    have plain : watched.store.record? (.ref data) = none := by decide +kernel
    exact ⟨rfl, by decide +kernel, by decide +kernel, _, Store.cell?_of_mapping? fields plain⟩
  watchers := by decide +kernel
  policy := by decide +kernel
  calm := by
    rintro ⟨debug, _⟩
    exact absurd debug (by decide +kernel)
  sink := by decide +kernel
  loop := Option.isNone_iff_eq_none.1 (by decide +kernel)

end Climb

end ReactiveScopes
