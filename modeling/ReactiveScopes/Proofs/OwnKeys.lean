import ReactiveScopes.Proofs.Ends
import ReactiveScopes.Proofs.Storing
import ReactiveScopes.Proofs.Upkeep

/-!
# Writes to a record's own keys

Storing under a key of the record itself, not below one, is reported only if the value there changes. While a
pass of the record's scope is running and the policy ignores what is reported, such a write comes to its end
and calls for nothing. So does one that changes nothing, wherever and whatever the policy.
-/
namespace ReactiveScopes

open Eff

variable {κ : Type} {e : Nat} {host : Host κ} {s record u k v : Value} {ks : List Value} {data : Ref} {t : Mapping}
  {p : String} {loud : Prop} {w w' w'' w₁ : Session κ}

/-- A scope has a record of its own, which reports to it. -/
structure Session.Owns (w : Session κ) (e : Nat) (s record : Value) (data : Ref) : Prop where
  named : s.isNone = false
  held : (w.engine e).records.get? s = some record
  cell : w.store.record? record = some (data, .schedule e s)
  fields : ∃ t, w.store.cell? data = some (.dict t)

theorem Session.Owns.bides (h : w.Owns e s record data) (hb : w.Bides e w') : w'.Owns e s record data where
  named := h.named
  held := by
    obtain ⟨_, _, he⟩ := hb.engine
    rw [he]
    exact h.held
  cell := by
    obtain ⟨r, rfl, hr⟩ := Store.look_of_record? h.cell
    simp [Store.record?, Store.look, hb.cells hr]
  fields := by
    obtain ⟨t, ht⟩ := h.fields
    exact ⟨t, hb.cells ht⟩

theorem Session.Owns.fields_bides (h : w.Owns e s record data) (hb : w.Bides e w') :
    Record.fields w'.store data = Record.fields w.store data := by
  obtain ⟨t, ht⟩ := h.fields
  simp [Record.fields, Store.mapping?, Store.look, ht, hb.cells ht]

/-- What is new is not the data of the record. -/
theorem Session.Owns.apart_alloc (h : w.Owns e s record data) (c : Cell) : (w.store.alloc c).1 ≠ data := by
  obtain ⟨_, ht⟩ := h.fields
  intro same
  have bound := (Array.getElem?_eq_some_iff.1 ht).1
  rw [← same] at bound
  exact absurd bound (Nat.lt_irrefl _)

theorem perform_engine (x : Nat) (op : EngineOp) (env : Env κ) (w : Session κ) :
    perform (.engine x op) env w = Scope.perform x op env w := by
  change performWithin env.budget (.engine x op) env w = _
  cases env.budget <;> rfl

/-- A scope that has a record of its own is found. -/
theorem Scope.find_value {env : Env κ} (own : w.Owns e s record data) (budget : env.budget ≠ 0) :
    Scope.find e s env w = (.value (some (s, record)), w) := by
  refine (Scope.find_own env own.named own.held).resolve_left fun exhausted => ?_
  obtain ⟨n, hn⟩ := Nat.exists_eq_succ_of_ne_zero budget
  change Scope.findFrom e env.budget [] s env w = _ at exhausted
  unfold Scope.findFrom at exhausted
  rw [hn] at exhausted
  dsimp only at exhausted
  rw [if_neg (by simp [own.named]), bind_engine, own.held] at exhausted
  cases exhausted

theorem Scope.find_ends (own : w.Owns e s record data) :
    Ends host (Scope.find e s) w (.value (some (s, record)), w) :=
  ⟨1, fun _ hn => Scope.find_value own (Nat.ne_zero_of_lt hn)⟩

namespace Record

/-- What an update holds for one of its keys. -/
def entry (s : Store) (u k : Value) : Value := (((s.mapping? u).getD .empty).get? k).getD .none

/-- The entries go one by one to keys of the record itself. If it is not to be `loud`, each stores a value equal
to the one that is there. -/
def Plain (loud : Prop) (data : Ref) (u : Value) : List Value → Store → Prop
  | [], _ => True
  | k :: ks, s => ∃ p, s.segmentsOf k = [p] ∧ (tells s data p (entry s u k) = true → loud) ∧
    Plain loud data u ks (stored s data p (entry s u k))

end Record

/-- Of an engine nothing has changed, and of what was in the store nothing but the data of a record. At most, and
only if it may be `loud`, writes to its scope have been reported. -/
structure Session.Overwrites (w : Session κ) (loud : Prop) (e : Nat) (s : Value) (data : Ref) (w' : Session κ) :
    Prop where
  engine : w'.engine e = w.engine e
  cells : ∀ {r c}, r ≠ data → w.store.cell? r = some c → w'.store.cell? r = some c
  fields : ∀ {t}, w.store.cell? data = some (.dict t) → ∃ t', w'.store.cell? data = some (.dict t')
  told : ∃ n, w'.history e = List.replicate n (.requested e s) ++ w.history e ∧ (n ≠ 0 → loud)
  once : w'.setUps e = w.setUps e

namespace Session.Overwrites

theorem trans (h : w.Overwrites loud e s data w') (h' : w'.Overwrites loud e s data w'') :
    w.Overwrites loud e s data w'' where
  engine := h'.engine.trans h.engine
  cells hr hc := h'.cells hr (h.cells hr hc)
  fields ht := by
    obtain ⟨_, ht⟩ := h.fields ht
    exact h'.fields ht
  told := by
    obtain ⟨n, hn, quiet⟩ := h.told
    obtain ⟨n', hn', quiet'⟩ := h'.told
    refine ⟨n' + n, ?_, fun hne => ?_⟩
    · rw [hn', hn, ← List.append_assoc, List.replicate_append_replicate]
    · by_cases h0 : n = 0
      · exact quiet' (by omega)
      · exact quiet h0
  once := h'.once.trans h.once

/-- What nothing is told of, and what leaves the store as it was. -/
theorem of_bides (hb : w.Bides e w') (board : w'.board e = w.board e) : w.Overwrites loud e s data w' where
  engine := hb.engine_eq board
  cells _ hc := hb.cells hc
  fields ht := ⟨_, hb.cells ht⟩
  told := ⟨0, congrArg Board.history board, absurd rfl⟩
  once := congrArg Board.setUps board

theorem refl (w : Session κ) : w.Overwrites loud e s data w := of_bides (.refl w e) rfl

theorem storing (w : Session κ) (data : Ref) (p : String) (v : Value) :
    w.Overwrites loud e s data (w.storing data p v) := by
  refine ⟨rfl, fun {r c} hr hc => ?_, fun {t} ht => ?_, ⟨0, rfl, absurd rfl⟩, rfl⟩
  · have hne : data.index ≠ r.index := fun h => hr (by cases r; cases data; simp_all)
    rw [← hc]
    simp [Session.storing, Record.stored, Store.put, Store.cell?, hne]
  · exact ⟨_, (Store.cell?_put (Array.getElem?_eq_some_iff.1 ht).1).trans (if_pos rfl)⟩

theorem logged (hl : loud) (w : Session κ) : w.Overwrites loud e s data (w.logged (.requested e s)) := by
  have hb : (w.logged (.requested e s)).board e = _ := w.board_logged rfl rfl
  exact ⟨rfl, fun _ hc => hc, fun ht => ⟨_, ht⟩, ⟨1, congrArg Board.history hb, fun _ => hl⟩,
    congrArg Board.setUps hb⟩

theorem owns {x k : Value} {d : Ref} (h : w.Overwrites loud e s data w') (own : w.Owns e s record data)
    (other : w.Owns e k x d) : w'.Owns e k x d where
  named := other.named
  held := by
    rw [h.engine]
    exact other.held
  cell := by
    obtain ⟨r, rfl, hr⟩ := Store.look_of_record? other.cell
    have apart : r ≠ data := by
      rintro rfl
      obtain ⟨_, hd⟩ := own.fields
      exact absurd (hr.symm.trans hd) nofun
    simp [Store.record?, Store.look, h.cells apart hr]
  fields := by
    obtain ⟨t, ht⟩ := other.fields
    by_cases same : d = data
    · subst same
      exact h.fields ht
    · exact ⟨t, h.cells same ht⟩

end Session.Overwrites

/-- The source of an evaluation stands for an expression. -/
def Scope.Compiles (host : Host κ) (source : Value) (x : Expr) (w w' : Session κ) : Prop :=
  match source.text? with
  | some text => Ends host (Scope.compileText (String.ofList (Text.trim text.toList))) w (.value (some x), w')
  | none => Ends host (Scope.compileValue source) w (.value x, w')

/-- An evaluation is of a write, whose operands come to a key and a value. What happens until then is no more than
`R` says. -/
inductive Scope.Writes (host : Host κ) (e : Nat) (R : Session κ → Session κ → Prop) (record : Value)
    (ev : Evaluation) (w : Session κ) : (k v : Value) → Session κ → Prop
  | intro {c : Capabilities} {a b : Expr} {k v : Value} {w₁ w₂ w₃ w₄ : Session κ} :
    Ends host (Capabilities.ofExtras ev.extras) w (.value c, w₁) → R w w₁ →
    Scope.Compiles host ev.source (.apply .set [a, b]) w₁ w₂ → R w₁ w₂ →
    Ends host (Evaluation.eval ⟨record, c, (w.engine e).pub⟩ a) w₂ (.value k, w₃) → R w₂ w₃ →
    Ends host (Evaluation.eval ⟨record, c, (w.engine e).pub⟩ b) w₃ (.value v, w₄) → R w₃ w₄ →
    Scope.Writes host e R record ev w k v w₄

theorem Scope.Writes.related {R : Session κ → Session κ → Prop} {ev : Evaluation}
    (trans : ∀ {a b c}, R a b → R b c → R a c) (h : Scope.Writes host e R record ev w k v w₁) : R w w₁ := by
  cases h with
  | intro _ h₁ _ h₂ _ h₃ _ h₄ => exact trans (trans (trans h₁ h₂) h₃) h₄

/-- The operands are evaluated, and then the state is written. -/
theorem Evaluation.set_ends {c : Context} {a b : Expr} {w₂ w₃ : Session κ}
    (cell : w₃.store.record? c.state = some (data, .schedule e s)) (evalKey : Ends host (eval c a) w (.value k, w₂))
    (evalValue : Ends host (eval c b) w₂ (.value v, w₃))
    (stores : Ends host (Record.setPath data (.schedule e s) k v) w₃ (.value (), w')) :
    Ends host (eval c (.apply .set [a, b])) w (.value v, w') := by
  have state (env : Env κ) : writeState c.state k v env w₃ = Record.setPath data (.schedule e s) k v env w₃ := by
    unfold writeState
    rw [bind_store, cell]
  have set : Ends host (Evaluation.set c k v) w₃ (.value v, w') := .bind (.congr state stores) (.pure v w')
  have applied : Ends host (Evaluation.apply c .set [a, b]) w (.value v, w') := by
    rw [Evaluation.apply]
    exact evalKey.bind (evalValue.bind set)
  rw [Evaluation.eval]
  exact .contain applied.attempt_value (fun _ h => by cases h; rfl) nofun

theorem Scope.resolve_ends {ev : Evaluation} {c : Capabilities} {x : Expr}
    (source : Scope.Compiles host ev.source x w w₁)
    (value : Ends host (Evaluation.eval ⟨record, c, (w.engine e).pub⟩ x) w₁ (.value v, w')) :
    Ends host (Scope.resolve e ev record c) w (.value v, w') := by
  refine .bind (a := w.engine e) (.alone fun _ => rfl) ?_
  unfold Scope.Compiles at source
  cases text : ev.source.text? with
  | some name =>
    rw [text] at source
    exact source.attempt_value.bind value
  | none =>
    rw [text] at source
    exact source.bind value

/-- The evaluation of a write comes to the end that writing its value does. -/
theorem Scope.evaluate_writes {R : Session κ → Session κ → Prop} {ev : Evaluation}
    (pub : ∀ {a b}, R a b → (b.engine e).pub = (a.engine e).pub) (own : w.Owns e ev.scope record data)
    (writes : Scope.Writes host e R record ev w k v w₁)
    (cell : w₁.store.record? record = some (data, .schedule e s))
    (stores : Ends host (Record.setPath data (.schedule e s) k v) w₁ (.value (), w')) :
    Ends host (ReactiveScopes.perform (.engine e (.evaluate ev))) w (.value v, w') := by
  cases writes with
  | intro caps h₁ source _ evalKey _ evalValue _ =>
  rw [← pub h₁] at evalKey evalValue
  have value := Evaluation.set_ends (c := ⟨record, _, _⟩) cell evalKey evalValue stores
  have resolved := Scope.resolve_ends source value
  refine .congr (perform_engine e (.evaluate ev) · w) ((Scope.find_ends own).bind (caps.bind ?_))
  exact .contain resolved.attempt_value (fun _ h => by cases h; rfl) nofun

section Merging

variable {hook : Hook} {size : Nat}

/-- The entries have been stored. -/
theorem Scope.setEach_done (same : ((w.store.mapping? u).getD .empty).size = size) :
    Ends host (Scope.setEach data hook u size []) w (.value (), w) := by
  refine .alone fun env => ?_
  unfold Scope.setEach
  rw [bind_store, if_neg (not_not_intro same)]
  rfl

/-- The first entry is stored, and then the others are. -/
theorem Scope.setEach_next {q : Outcome (Except Fault Unit) × Session κ}
    (same : ((w.store.mapping? u).getD .empty).size = size)
    (stores : Ends host (Record.setPath data hook k (Record.entry w.store u k)) w (.value (), w₁))
    (rest : Ends host (Scope.setEach data hook u size ks).attempt w₁ q) :
    Ends host (Scope.setEach data hook u size (k :: ks)).attempt w q := by
  have first : Ends host (contain (Record.setPath data hook k (Record.entry w.store u k))
      Fault.isWriteFault fun _ => notice .keyNotWritten) w (.value (), w₁) :=
    .contain stores.attempt_value (fun _ h => by cases h; rfl) nofun
  refine .attempt_congr (fun env => ?_) (first.attempt_bind (k := fun _ => Scope.setEach data hook u size ks) rest)
  rw [Scope.setEach, bind_store, if_neg (not_not_intro same)]
  rfl

/-- The update has got or lost entries meanwhile. -/
theorem Scope.setEach_resized (other : ((w.store.mapping? u).getD .empty).size ≠ size) :
    Ends host (Scope.setEach data hook u size ks) w (.fault .misuse, w) := by
  refine .alone fun env => ?_
  cases ks <;> unfold Scope.setEach <;> rw [bind_store, if_pos other] <;> rfl

/-- Merging into the record of a scope comes to the end that storing the entries does. -/
theorem Scope.setState_each {x : Except Fault Unit} (own : w.Owns e s record data)
    (updates : w.store.mapping? u = some t)
    (each : Ends host (Scope.setEach data (.schedule e s) u t.size t.keys).attempt w (.value x, w')) :
    Ends host (ReactiveScopes.perform (.engine e (.setState s u))).attempt w
      (.value (x.map fun _ => Value.none), w') := by
  have set : Ends host (Scope.setState e s u).attempt w (.value x, w') := by
    refine (Scope.find_ends own).attempt_bind (.attempt_congr (fun env => ?_) each)
    dsimp only
    rw [bind_store, updates, own.cell]
  refine .attempt_congr (perform_engine e (.setState s u) · w) ?_
  cases x with
  | ok => exact Ends.attempt_value (.bind (Ends.attempt_iff.1 set) (.pure Value.none w'))
  | error f => exact Ends.attempt_fault (Ends.bind_fault (Ends.attempt_iff.1 set))

/-- Merging an update of a single entry comes to the end that storing it does. -/
theorem Scope.setState_single (own : w.Owns e s record data) (updates : w.store.cell? r = some (.dict t))
    (single : t.entries = [(k, v)]) (hp : w.store.segmentsOf k = [p])
    (stores : Ends host (Record.setItem data (.schedule e s) (.text p) v) w (.value (), w'))
    (kept : w'.store.cell? r = some (.dict t)) :
    Ends host (ReactiveScopes.perform (.engine e (.setState s (.ref r)))) w (.value .none, w') := by
  have mapping {z : Store} (h : z.cell? r = some (.dict t)) : z.mapping? (.ref r) = some t := by
    simp [Store.mapping?, Store.look, h]
  have size {z : Store} (h : z.cell? r = some (.dict t)) : ((z.mapping? (.ref r)).getD .empty).size = t.size := by
    rw [mapping h, Option.getD_some]
  have entry : Record.entry w.store (.ref r) k = v := by
    simp [Record.entry, mapping updates, Table.get?, single, Table.lookIn]
  have path : Ends host (Record.setPath data (.schedule e s) k (Record.entry w.store (.ref r) k)) w (.value (), w') :=
    .congr (Record.setPath_item hp _) (entry ▸ stores)
  have keys : t.keys = [k] := by simp [Table.keys, single]
  have each : Ends host (setEach data (.schedule e s) (.ref r) t.size t.keys).attempt w (.value (.ok ()), w') := by
    rw [keys]
    exact setEach_next (size updates) path (setEach_done (size kept)).attempt_value
  exact Ends.attempt_iff.1 (setState_each own (mapping updates) each)

/-- The record of a scope is what client code gets for its state. -/
theorem Scope.getState_ends (own : w.Owns e s record data) :
    Ends host (ReactiveScopes.perform (.engine e (.getState s))) w (.value record, w) :=
  .congr (perform_engine e _ · w) ((find_ends own).bind (.pure record w))

theorem perform_record {op : RecordOp} (own : w.Owns e s record data) (env : Env κ) :
    perform (.record record op) env w = Record.perform data (.schedule e s) op env w := by
  have opened : perform (.record record op) env w = performPlain (.record record op) env w := by
    change performWithin env.budget (.record record op) env w = _
    cases env.budget <;> rfl
  refine (opened.trans (bind_store _)).trans ?_
  rw [own.cell]

end Merging

section Storing

/-- A write to a scope whose pass is running is ignored, if the policy is to ignore it. -/
theorem Scheduler.request_ignored (running : s ∈ (w.engine e).scheduler.running)
    (skip : (w.engine e).scheduler.policy = .skip) (env : Env κ) :
    Scheduler.request e s env w = (.value (), w.logged (.requested e s)) := by
  unfold Scheduler.request Scheduler.enqueue
  rw [bind_log, bind_scheduler, Session.engine_logged, if_pos (by simpa using running), skip]
  rfl

variable (host) (ignored : loud → (w.engine e).scheduler.policy = .skip ∧ s ∈ (w.engine e).scheduler.running)

include ignored

theorem Record.setPath_ends {path : Value} (hp : w.store.segmentsOf path = [p])
    (quiet : tells w.store data p v = true → loud) :
    ∃ w', Ends host (setPath data (.schedule e s) path v) w (.value (), w') ∧
      w'.store = stored w.store data p v ∧ w.Overwrites loud e s data w' := by
  have stores (env : Env κ) : setPath data (.schedule e s) path v env w = _ :=
    (setPath_item hp _ env).trans (setItem_text _ env)
  have overwrites : w.Overwrites loud e s data (w.storing data p v) := .storing w data p v
  rcases ht : tells w.store data p v with _ | _ <;> rw [ht] at stores
  · exact ⟨_, .alone stores, rfl, overwrites⟩
  · have loud := quiet ht
    obtain ⟨skip, running⟩ := ignored loud
    refine ⟨(w.storing data p v).logged (.requested e s), .alone fun env => ?_, rfl, overwrites.trans (.logged loud _)⟩
    exact (stores env).trans (Scheduler.request_ignored (w := w.storing data p v) running skip env)

/-- One after the other the entries are stored. -/
theorem Scope.setEach_ends (size : Nat) (plain : Record.Plain loud data u ks w.store) :
    ∃ x w', Ends host (Scope.setEach data (.schedule e s) u size ks).attempt w (.value x, w') ∧
      w.Overwrites loud e s data w' ∧ ∀ f, x = .error f → f = .misuse := by
  induction ks generalizing w with
  | nil =>
    by_cases same : ((w.store.mapping? u).getD .empty).size = size
    · exact ⟨.ok (), w, (Scope.setEach_done same).attempt_value, .refl w, nofun⟩
    · exact ⟨.error .misuse, w, (Scope.setEach_resized same).attempt_fault, .refl w, fun f hf => by cases hf; rfl⟩
  | cons k ks ih =>
    obtain ⟨p, hp, quiet, rest⟩ := plain
    by_cases same : ((w.store.mapping? u).getD .empty).size = size
    · obtain ⟨w₁, stores, hs, overwrites⟩ := Record.setPath_ends host ignored hp quiet
      have engine := overwrites.engine
      obtain ⟨x, w', ends, overwrites', hx⟩ := ih (w := w₁) (by rwa [engine]) (by rwa [hs])
      exact ⟨x, w', Scope.setEach_next same stores ends, overwrites.trans overwrites', hx⟩
    · exact ⟨.error .misuse, w, (Scope.setEach_resized same).attempt_fault, .refl w, fun f hf => by cases hf; rfl⟩

/-- Merging such a mapping into the record of the scope comes to its end and calls for nothing. -/
theorem Scope.setState_ends (own : w.Owns e s record data) (updates : w.store.mapping? u = some t)
    (plain : Record.Plain loud data u t.keys w.store) :
    ∃ x w', Ends host (ReactiveScopes.perform (.engine e (.setState s u))).attempt w (.value x, w') ∧
      w.Overwrites loud e s data w' ∧ ∀ f, x = .error f → f = .misuse := by
  obtain ⟨x, w', ends, overwrites, hx⟩ := Scope.setEach_ends host ignored t.size plain
  refine ⟨x.map fun _ => Value.none, w', Scope.setState_each own updates ends, overwrites, fun f hf => ?_⟩
  cases x with
  | ok => cases hf
  | error g =>
    cases hf
    exact hx _ rfl

/-- So does the evaluation of a write to a key of the record. -/
theorem Scope.evaluate_ends {ev : Evaluation} (own : w.Owns e s record data) (scope : ev.scope = s)
    (writes : Scope.Writes host e (Session.Overwrites · loud e s data ·) record ev w k v w₁)
    (hp : w₁.store.segmentsOf k = [p]) (quiet : Record.tells w₁.store data p v = true → loud) :
    ∃ w', Ends host (ReactiveScopes.perform (.engine e (.evaluate ev))) w (.value v, w') ∧
      w.Overwrites loud e s data w' := by
  subst scope
  have overwrites := writes.related fun h h' => h.trans h'
  have engine := overwrites.engine
  obtain ⟨w', stores, _, overwrites'⟩ := Record.setPath_ends (w := w₁) host (by rwa [engine]) hp quiet
  exact ⟨w', Scope.evaluate_writes (fun h => by rw [h.engine]) own writes (overwrites.owns own own).cell stores,
    overwrites.trans overwrites'⟩

end Storing

/-- Making a dictionary comes to its end. -/
theorem Client.make_ends (t : Mapping) :
    Ends host (perform (.make (.dict t))) w
      (.value (.ref (w.store.alloc (.dict t)).1), { w with store := (w.store.alloc (.dict t)).2 }) := by
  refine .alone fun env => ?_
  change performWithin env.budget (.make (.dict t)) env w = _
  cases env.budget <;> rfl

end ReactiveScopes
