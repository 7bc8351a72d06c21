import ReactiveScopes.Proofs.Conduct.Passes
import ReactiveScopes.Proofs.PlainDict
import ReactiveScopes.Proofs.ReadBack

/-!
# Expressions read what they wrote

Writing, reading and toggling each go to the state in their own way: a write to a record goes to its data and is
reported, and reading a record is reading its data. On states of JSON data they agree about every path that does not
name a capability.
-/
namespace ReactiveScopes

open Eff

variable {κ : Type} {env : Env κ} {w w' : Session κ} {s s' : Store} {r data : Ref} {t : Mapping} {hook : Hook}
  {v x : Value} {p : String} {ps : List String}

/-- Whoever is told of a write to a record leaves the record and its data alone. -/
def Hook.Respects (hook : Hook) (r data : Ref) (env : Env κ) (w : Session κ) : Prop :=
  ∀ key s, s.Spares (.ref data) (Record.report hook key env (w.having s)).2.store ∧
    (Record.report hook key env (w.having s)).2.store.cell? r = s.cell? r

theorem Hook.none_respects (r data : Ref) (env : Env κ) (w : Session κ) : Hook.none.Respects r data env w :=
  fun _ _ => ⟨fun _ _ => rfl, rfl⟩

/-- Unless the client takes callbacks itself, a request changes no cell. -/
theorem Scheduler.request_store {e : Nat} (sink : (w.engine e).queue.sink = none) (a : Value) (env : Env κ) :
    (request e a env w).2.store = w.store := by
  have posted {w : Session κ} (sink : (w.engine e).queue.sink = none) (f : Value) :
      (Queue.post e f env w).2.store = w.store := by
    unfold Queue.post
    rw [bind_log, bind_engine, bind_read, Session.engine_logged, sink]
    cases (w.logged (.posted e f)).loop <;> rfl
  unfold request enqueue
  rw [bind_log, bind_scheduler, Session.engine_logged]
  split
  · split <;> rfl
  · split
    · rfl
    · rw [bind_modify, bind_close]
      let mark (s : Scheduler) : Scheduler := { s with pending := insertKey a s.pending }
      refine posted ?_ _
      change (((w.logged (.requested e a)).reschedule e mark).engine e).queue.sink = none
      rw [Session.engine_reschedule]
      exact sink

theorem Hook.schedule_respects {e : Nat} (sink : (w.engine e).queue.sink = Option.none) (a : Value)
    (r data : Ref) (env : Env κ) : (Hook.schedule e a).Respects r data env w := by
  intro key s
  have same : (Scheduler.request e a env (w.having s)).2.store = s :=
    Scheduler.request_store (w := w.having s) sink a env
  constructor
  · intro u _
    rw [Record.report, same]
  · rw [Record.report, same]

namespace Evaluation

/-- A state of JSON data that nowhere leads back into itself: a scalar, a list or a dictionary, or a record whose data
whoever is told of its writes leaves alone. -/
inductive PlainState (env : Env κ) (w : Session κ) : Value → Prop
  | scalar {v : Value} (scalar : v.json?.isSome) : PlainState env w v
  | branch {r : Ref} {c : Cell} (cell : w.store.cell? r = some c) (branch : c.isBranch)
      (plain : ∀ {v}, w.store.Below (.ref r) v → w.store.record? v = none) (acyclic : w.store.Acyclic (.ref r)) :
      PlainState env w (.ref r)
  | record {r data : Ref} {hook : Hook} (cell : w.store.cell? r = some (.record data hook))
      (graph : w.store.Graph data) (acyclic : w.store.Acyclic (.ref data)) (respects : hook.Respects r data env w) :
      PlainState env w (.ref r)

end Evaluation

namespace Store

/-- Reading below a record is reading below its data. -/
theorem readAlong_record (cell : s.cell? r = some (.record data hook)) (dict : s.cell? data = some (.dict t))
    (hps : ps ≠ []) : s.readAlong (.ref r) ps = s.readAlong (.ref data) ps := by
  cases ps with
  | nil => exact absurd rfl hps
  | cons p ps =>
    have child : s.child (.ref r) p = s.child (.ref data) p := by
      simp [Store.child, Store.mapping?, Store.look, cell, dict]
    rw [Store.readAlong, Store.readAlong, child] <;> simp

/-- No record is written itself. -/
theorem Wrote.record (h : s.Wrote v x ps s') (cell : s.cell? r = some (.record data hook)) :
    s'.cell? r = some (.record data hook) := by
  cases h with
  | nothing => exact cell
  | @slot way rest p a c d head s' leads cell' stores stored others chain size beside =>
    refine (others r ?_ (Array.getElem?_eq_some_iff.1 cell).1).trans cell
    rintro rfl
    cases cell.symm.trans cell'
    cases stores

/-- The scalars of JSON have nothing to write with. -/
theorem attribute?_scalar (scalar : v.json?.isSome) : s.attribute? v "set_path" = .ok none := by
  cases v <;> first | rfl | cases scalar

end Store

/-- Nothing can be written below a scalar; an empty dictionary may have been made for it by then. -/
theorem Path.write_scalar (scalar : v.json?.isSome) (p : String) (ps : List String) (x : Value) :
    ∃ s', s.Extends s' ∧ s.Gives (write v (p :: ps) x : Eff κ Unit) (.fault .unsupported) s' := by
  have refused (s : Store) (p : String) (x : Value) : s.Gives (assign v p x : Eff κ Unit) (.fault .unsupported) s := by
    rintro env w rfl
    cases v <;> first | rfl | cases scalar
  cases ps with
  | nil => exact ⟨s, .refl, refused s p x⟩
  | cons q qs =>
    have below : below? s v p = none := by
      cases v <;> first | rfl | cases scalar
    refine ⟨_, .alloc (c := .dict .empty) rfl, ?_⟩
    unfold write
    refine .read ?_
    rw [below]
    exact .bind (s.gives_alloc _) ((refused _ p _).raised _)

namespace Evaluation

/-- What is neither a record nor brings its own way of writing is written along the path. -/
theorem writeState_path (record : w.store.record? v = none) (own : w.store.attribute? v "set_path" = .ok none)
    (path x : Value) (env : Env κ) : writeState v path x env w = Path.set v path x env w := by
  unfold writeState
  rw [bind_store, record]
  dsimp only
  rw [own]
  rfl

/-- What has been written to a state of JSON data is found there. -/
theorem PlainState.reads (state : PlainState env w v) (p : String) (x : Value)
    (wrote : writeState v (.text p) x env w = (.value (), w')) : w'.store.getPath v (.text p) = .ok x := by
  obtain ⟨q, qs, names⟩ : ∃ q qs, segments p = q :: qs := List.exists_cons_of_ne_nil (segments_ne_nil p)
  cases state with
  | scalar scalar =>
    have record : w.store.record? v = none := by
      cases v <;> first | rfl | cases scalar
    rw [writeState_path record (Store.attribute?_scalar scalar)] at wrote
    obtain ⟨s', -, refused⟩ := Path.write_scalar (κ := κ) scalar q qs x
    rw [← names] at refused
    cases (refused env w rfl).symm.trans wrote
  | @branch r c cell branch plain acyclic =>
    have own : w.store.attribute? (.ref r) "set_path" = .ok none := by
      unfold Store.attribute?
      dsimp only
      rw [cell]
      cases c <;> first | rfl | cases branch
    rw [writeState_path (plain .refl) own] at wrote
    rcases Path.write_slot (κ := κ) (segments p) cell branch plain x with ⟨f, s', -, -, run⟩ | ⟨s', written, run⟩
    · cases (run env w rfl).symm.trans wrote
    · cases (run env w rfl).symm.trans wrote
      exact (written.way acyclic (segments_ne_nil p)).readAlong
  | @record r data hook cell graph acyclic respects =>
    have told : writeState (.ref r) (.text p) x env w = Record.setPath data hook (.text p) x env w := by
      unfold writeState
      rw [bind_store, show w.store.record? (.ref r) = some (data, hook) by simp [Store.record?, Store.look, cell]]
    rw [told] at wrote
    rcases Record.setPath_slot (κ := κ) graph (.text p) x with ⟨f, s', -, run⟩ | ⟨s', q, qs, names, written, ends⟩
    · cases (run hook env w rfl).symm.trans wrote
    · have way : s'.Way (.ref data) (q :: qs) x := written.way acyclic (List.cons_ne_nil q qs)
      have alone : s'.Spares (.ref data) w'.store ∧ w'.store.cell? r = s'.cell? r := by
        rcases ends hook env w rfl with reported | ⟨-, silent⟩
        · have respects := respects (.text q) s'
          rwa [← reported, wrote] at respects
        · cases silent.symm.trans wrote
          exact ⟨fun _ _ => rfl, rfl⟩
      obtain ⟨t, dict⟩ := graph.dict
      obtain ⟨t', dict'⟩ := written.dict dict
      have below : w'.store.readAlong (.ref r) (q :: qs) = w'.store.readAlong (.ref data) (q :: qs) :=
        Store.readAlong_record (alone.2.trans (written.record cell)) ((alone.1 _ .refl).trans dict')
        (List.cons_ne_nil q qs)
      change w'.store.readAlong (.ref r) (segments p) = .ok x
      rw [show segments p = q :: qs from names, below]
      exact (way.spared alone.1).readAlong

/-- A path that does not begin with a dollar sign is read from the state. -/
theorem get_bare (c : Context) (bare : p.toList.head? ≠ some '$') (env : Env κ) (w : Session κ) :
    get c (.text p) env w = build (Build.getPath c.state (.text p)) env w := by
  have plain : (p.toList.head? == some '$') = false := by simpa using bare
  unfold get
  rw [bind_store]
  dsimp only [Value.text?]
  rw [plain]
  rfl

/-- Reading gives what is found, but for the mark of a method. -/
theorem eval_get {c : Context} (bare : p.toList.head? ≠ some '$') (found : w.store.getPath c.state (.text p) = .ok x)
    (env : Env κ) :
    ∃ y w₁, eval c (.apply .get [.literal (.text p)]) env w = (.value y, w₁) ∧ w.store.truthy y = w.store.truthy x ∧
      (x.json?.isSome → y = x ∧ w₁ = w) := by
  obtain ⟨y, s', read, truthy, same⟩ : ∃ y s', Build.getPath c.state (.text p) w.store = .ok (y, s') ∧
      w.store.truthy y = w.store.truthy x ∧ (x.json?.isSome → y = x ∧ s' = w.store) := by
    rw [Build.getPath_fresh found]
    unfold Build.fresh
    split
    · split
      · exact ⟨_, _, rfl, rfl, fun scalar => by cases scalar⟩
      · exact ⟨_, _, rfl, rfl, fun scalar => by cases scalar⟩
    · exact ⟨_, _, rfl, rfl, fun _ => ⟨rfl, rfl⟩⟩
  have built : build (Build.getPath c.state (.text p)) env w = (.value y, w.having s') := by
    unfold build
    rw [read]
    rfl
  refine ⟨y, w.having s', ?_, truthy, fun scalar => ⟨(same scalar).1, by rw [(same scalar).2]; rfl⟩⟩
  rw [eval]
  refine contain_value ?_
  rw [apply, eval]
  exact (get_bare c bare env w).trans built

end Evaluation

open Evaluation

/-- On a state of JSON data and for a path that names no capability, what a write has stored is what reading the path
comes to next, with or without an intermediate container on the way. Toggling stores the opposite of what reading comes
to before, and reading comes to that next. -/
theorem expressions_read_their_writes {c : Context} (state : PlainState env w c.state)
    (bare : p.toList.head? ≠ some '$') :
    (∀ v x w', v.json?.isSome → Evaluation.apply c .set [.literal (.text p), .literal v] env w = (.value x, w') →
      eval c (.apply .set [.literal (.text p), .literal v]) env w = (.value v, w') ∧
      ∀ env', eval c (.apply .get [.literal (.text p)]) env' w' = (.value v, w')) ∧
    ∀ x w', Evaluation.apply c .toggle [.literal (.text p)] env w = (.value x, w') →
      eval c (.apply .toggle [.literal (.text p)]) env w = (.value x, w') ∧
      (∀ env', ∃ u w₁, eval c (.apply .get [.literal (.text p)]) env' w = (.value u, w₁) ∧
        x = .bool !(w.store.truthy u)) ∧
      ∀ env', eval c (.apply .get [.literal (.text p)]) env' w' = (.value x, w') := by
  have reads {x : Value} {w' : Session κ} (scalar : x.json?.isSome)
      (wrote : writeState c.state (.text p) x env w = (.value (), w')) (env' : Env κ) :
      eval c (.apply .get [.literal (.text p)]) env' w' = (.value x, w') := by
    obtain ⟨y, w₁, read, -, same⟩ := eval_get bare (state.reads p x wrote) env'
    obtain ⟨rfl, rfl⟩ := same scalar
    exact read
  constructor
  · intro v x w' scalar applied
    have evaluated : Evaluation.apply c .set [.literal (.text p), .literal v] env w =
        Evaluation.set c (.text p) v env w := by
      rw [Evaluation.apply, eval, eval]
      rfl
    obtain ⟨⟨⟩, w₁, wrote, done⟩ := value_of_bind (evaluated.symm.trans applied)
    cases done
    refine ⟨?_, reads scalar wrote⟩
    rw [eval]
    exact contain_value applied
  · intro x w' applied
    have evaluated : Evaluation.apply c .toggle [.literal (.text p)] env w = toggle c (.text p) env w := by
      rw [Evaluation.apply, eval]
      rfl
    have toggled := evaluated.symm.trans applied
    unfold toggle at toggled
    rw [bind_store] at toggled
    cases found : w.store.getPath c.state (.text p) with
    | error f =>
      rw [found, bind_ofExcept_error] at toggled
      cases toggled
    | ok u =>
      rw [found, bind_ofExcept_ok] at toggled
      obtain ⟨⟨⟩, w₁, wrote, done⟩ := value_of_bind toggled
      cases done
      refine ⟨?_, fun env' => ?_, reads rfl wrote⟩
      · rw [eval]
        exact contain_value applied
      · obtain ⟨y, w₁, read, truthy, -⟩ := eval_get bare found env'
        exact ⟨y, w₁, read, by rw [truthy]⟩

/-- A scope's record, which holds an empty list. -/
def Session.jotting : Session Unit where
  memory := ()
  store := { cells := #[.dict (Mapping.ofFields [("a", .ref ⟨2⟩)]), .record ⟨0⟩ (.schedule 0 (.int 7)), .list []] }
  engines := Table.empty.insert 0 {}

theorem Session.jotting_plain : PlainState Env.unused jotting (.ref ⟨1⟩) := by
  have tame : jotting.store.Tame (fun _ => False) (.ref ⟨0⟩) := by
    refine .of_cells [⟨0⟩, ⟨2⟩] (fun r hr => ?_) fun r hr => by simp_all
    simp only [List.mem_cons, List.not_mem_nil, or_false] at hr
    rcases hr with rfl | rfl
    · refine ⟨id, .dict (Mapping.ofFields [("a", .ref ⟨2⟩)]), rfl, rfl, fun a ha => ?_⟩
      have values : (Mapping.ofFields [("a", .ref ⟨2⟩)]).values = [.ref ⟨2⟩] := by decide +kernel
      rw [Cell.inside, values] at ha
      have third : a = ⟨2⟩ := by simpa using ha
      simp [third]
    · exact ⟨id, _, rfl, rfl, fun a ha => by cases ha⟩
  exact .record rfl (tame.graph rfl) (Store.Forward.acyclic (by decide +kernel) _) (Hook.schedule_respects rfl _ _ _ _)

theorem expressions_read_their_writes_jotting :
    let c : Context := { state := .ref ⟨1⟩ }
    let written := (Evaluation.apply c .set [.literal (.text "a.0.b"), .literal (.int 5)] Env.unused Session.jotting).2
    let toggled := (Evaluation.apply c .toggle [.literal (.text "a")] Env.unused Session.jotting).2
    eval c (.apply .get [.literal (.text "a.0.b")]) Env.unused written = (.value (.int 5), written) ∧
    eval c (.apply .get [.literal (.text "a")]) Env.unused toggled = (.value (.bool true), toggled) := by
  intro c written toggled
  have state : PlainState Env.unused Session.jotting c.state := Session.jotting_plain
  have set : (Evaluation.apply c .set [.literal (.text "a.0.b"), .literal (.int 5)] Env.unused Session.jotting).1 =
      .value (.int 5) := by decide +kernel
  have toggle : (Evaluation.apply c .toggle [.literal (.text "a")] Env.unused Session.jotting).1 =
      .value (.bool true) := by decide +kernel
  constructor
  · exact ((expressions_read_their_writes state (p := "a.0.b") (by decide)).1 (.int 5) _ _ rfl (Prod.ext set rfl)).2 _
  · exact ((expressions_read_their_writes state (p := "a") (by decide)).2 _ _ (Prod.ext toggle rfl)).2.2 _

/-- A path with a dollar sign is written in the state and read from the capabilities, and whoever is told of a write
may take out what was written. -/
theorem own_write_unread :
    let bare : Session Unit := { memory := (), store := { cells := #[.dict .empty] } }
    let watched : Session Unit :=
      { memory := (), store := { cells := #[.dict .empty, .record ⟨0⟩ (.fn (.client "clear"))] } }
    let clearing : Env Unit := .within (fun _ => { body := fun _ => Act.ask (.record (.ref ⟨1⟩) .clear) }) 10
    let set (c : Context) (p : String) (env : Env Unit) (w : Session Unit) :=
      Evaluation.apply c .set [.literal (.text p), .literal (.int 1)] env w
    let toggle (c : Context) (p : String) (env : Env Unit) (w : Session Unit) :=
      Evaluation.apply c .toggle [.literal (.text p)] env w
    let get (c : Context) (p : String) (env : Env Unit) (w : Session Unit) :=
      (eval c (.apply .get [.literal (.text p)]) env w).1
    let c : Context := { state := .ref ⟨0⟩, capabilities := { event := .int 7 } }
    PlainState Env.unused bare c.state ∧
    (set c "$event" Env.unused bare).1 = .value (.int 1) ∧
      get c "$event" Env.unused (set c "$event" Env.unused bare).2 = .value (.int 7) ∧
    get c "$event" Env.unused bare = .value (.int 7) ∧
      (toggle c "$event" Env.unused bare).1 = .value (.bool true) ∧
    (set { state := .ref ⟨1⟩ } "a" clearing watched).1 = .value (.int 1) ∧
      get { state := .ref ⟨1⟩ } "a" clearing (set { state := .ref ⟨1⟩ } "a" clearing watched).2 = .value .none := by
  refine ⟨.branch (c := .dict .empty) rfl rfl (fun below => ?_) (Store.Forward.acyclic (by decide +kernel) _), ?_⟩
  · exact (Store.Graph.of_isPlain (t := .empty) rfl (by decide +kernel)).plain below
  · decide +kernel

end ReactiveScopes
