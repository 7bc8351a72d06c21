import ReactiveScopes.Proofs.OwnKeys
import ReactiveScopes.Proofs.SourceKinds
import ReactiveScopes.Proofs.WriteBacks

/-!
# Handlers that compute

Evaluating the name of a handler reads what is at a path, calls the handler, and stores the answer there unless it is
`none`. If the handler does nothing but compute, evaluations in a row compose: each starts from what the one before it
has left, no other key of the data changes, and the scheduler is told of some writes and of nothing else.
-/
namespace ReactiveScopes

open Eff Datum

variable {κ : Type} {e : Nat} {w w' : Session κ} {s s' : Store} {v : Value}

section Reading

/-- Values with nothing of a store about them: scalars of JSON, and methods. -/
def Value.isLoose : Value → Bool
  | .none | .bool _ | .int _ | .float _ | .nan _ | .text _ | .method _ _ _ => true
  | _ => false

theorem Value.isLoose_of_json? (h : v.json?.isSome) : v.isLoose := by
  cases v <;> first | rfl | cases h

/-- The attributes of a loose value are loose values, in every store the same. -/
theorem Store.attribute?_loose (h : v.isLoose) (name : String) :
    ∃ m : Option Value, m.all Value.isLoose ∧ ∀ s : Store, s.attribute? v name = .ok m := by
  have method (names : List String) (kind : String) (v : Value) :
      (methodIn names kind v name).all Value.isLoose := by
    unfold methodIn
    split <;> rfl
  have whole (kind : String) (v : Value) (i : Int) : (wholeMember kind v i name).all Value.isLoose := by
    unfold wholeMember
    split_ifs
    exacts [rfl, rfl, rfl, method _ _ _]
  have double (h : v.isLoose) : (doubleMember v name).all Value.isLoose := by
    unfold doubleMember
    split_ifs
    exacts [h, rfl, method _ _ _]
  cases v with
  | none => exact ⟨_, rfl, fun _ => rfl⟩
  | bool b => exact ⟨_, whole _ _ _, fun _ => rfl⟩
  | int i => exact ⟨_, whole _ _ _, fun _ => rfl⟩
  | float x => exact ⟨_, double rfl, fun _ => rfl⟩
  | nan mark => exact ⟨_, double rfl, fun _ => rfl⟩
  | text t => exact ⟨_, method _ _ _, fun _ => rfl⟩
  | method owner name mark => exact ⟨_, rfl, fun _ => rfl⟩
  | _ => cases h

theorem Store.readAlong_loose (h : v.isLoose) (ps : List String) :
    ∃ u : Value, ∀ s : Store, s.readAlong v ps = .ok u := by
  induction ps generalizing v with
  | nil => exact ⟨v, fun s => by unfold Store.readAlong; rfl⟩
  | cons p ps ih =>
    obtain ⟨m, loose, found⟩ := Store.attribute?_loose h p
    have child : ∃ u : Value, u.isLoose ∧ ∀ s : Store, s.child v p = .ok u := by
      have bare (s : Store) : s.look v = Option.none := by
        cases v <;> first | rfl | cases h
      have below (s : Store) : s.child v p = if isPrivate p then .ok .none else .ok (m.getD .none) := by
        simp only [Store.child, mapping?, sequence?, bare, found]
        rfl
      by_cases hidden : isPrivate p
      · exact ⟨.none, rfl, fun s => by rw [below, if_pos hidden]⟩
      · refine ⟨m.getD .none, ?_, fun s => by rw [below, if_neg hidden]⟩
        cases m with
        | none => rfl
        | some u => exact loose
    obtain ⟨u, loose, found⟩ := child
    by_cases none : v = .none
    · subst none
      exact ⟨.none, fun s => by unfold Store.readAlong; rfl⟩
    · obtain ⟨x, reads⟩ := ih loose
      refine ⟨x, fun s => ?_⟩
      rw [Store.readAlong, found]
      · exact reads s
      · exact none

/-- What is read along a path of JSON data stays the same as long as their cells do. -/
theorem Datum.Stands.readAlong_lasts {t : Placed} (h : t.Stands s) (json : t.IsJson)
    (kept : ∀ {r c}, s.cell? r = some c → s'.cell? r = some c) (ps : List String) :
    s'.readAlong t.value ps = s.readAlong t.value ps := by
  induction ps generalizing t with
  | nil => unfold Store.readAlong; rfl
  | cons p ps ih =>
    cases h with
    | @leaf v bare =>
      cases json with
      | leaf scalar =>
        obtain ⟨u, reads⟩ := Store.readAlong_loose (Value.isLoose_of_json? scalar) (p :: ps)
        exact (reads s').trans (reads s).symm
    | @branch r shape cs c cell shows below =>
      cases json with
      | branch keyed inner =>
        -- the child is part of the data, or there is none
        obtain ⟨x, stands, json, hx⟩ : ∃ x : Placed, x.Stands s ∧ x.IsJson ∧
            ((shape.slot (cs.map value).length p).bind ((cs.map value)[·]?)).getD .none = x.value := by
          rcases hc : (shape.slot (cs.map value).length p).bind ((cs.map value)[·]?) with _ | u
          · exact ⟨.leaf .none, .leaf rfl, .leaf rfl, rfl⟩
          · obtain ⟨i, _, hi⟩ := Option.bind_eq_some_iff.1 hc
            rw [List.getElem?_map] at hi
            obtain ⟨x, hx, rfl⟩ := Option.map_eq_some_iff.1 hi
            have member := List.mem_of_getElem? hx
            exact ⟨x, below x member, inner x member, rfl⟩
        have child := Shape.child cell shows p
        have child' := Shape.child (kept cell) shows p
        rw [hx] at child child'
        rw [value, Store.readAlong, Store.readAlong, child, child']
        · exact ih stands json
        all_goals
          intro h
          cases h

/-- Reading gives what is found, unless that is a method. -/
theorem Build.getPath_found {x path : Value} (found : w.store.getPath v path = .ok x)
    (unbound : ∀ owner name mark, x ≠ .method owner name mark) (env : Env κ) :
    build (Build.getPath v path) env w = (.value x, w) := by
  have same : Build.fresh x w.store = .ok (x, w.store) := by
    unfold Build.fresh
    split
    · exact absurd rfl (unbound _ _ _)
    · rfl
  unfold build
  rw [Build.getPath_fresh found, same]

variable {a record : Value} {n y : Placed} {path : String}

/-- So it does in the record of a scope. -/
theorem Store.Bears.getPath_lasts (h : s.Bears e a record n) (json : n.IsJson)
    (kept : ∀ {r c}, s.cell? r = some c → s'.cell? r = some c) (path : String) :
    s'.getPath record (.text path) = s.getPath record (.text path) := by
  have after : s'.Bears e a record n := Store.bears_lasting e a record n h kept
  rw [after.getPath_along, h.getPath_along]
  exact h.stands.readAlong_lasts json kept _

end Reading

section Requests

/-- Unless the client takes callbacks itself, a post comes to its end. -/
theorem Queue.post_ends (own : (w.engine e).queue.sink = none) (f : Value) :
    ∃ w', (∀ env, post e f env w = (.value (), w')) ∧ w.Bides e w' ∧ w'.compiled = w.compiled := by
  let w₁ := w.logged (.posted e f)
  have logged : w.Bides e w₁ := w.bides_logged e _
  have sink : (w₁.engine e).queue.sink = none := own
  cases loop : w₁.loop with
  | none =>
    let add (q : Queue) : Queue := { q with posted := q.posted ++ [f] }
    refine ⟨w₁.requeue e add, fun env => ?_, logged.trans (w₁.bides_requeue e add), rfl⟩
    unfold post
    rw [bind_log, bind_engine, bind_read, sink, loop]
    rfl
  | some l =>
    let w₂ := w₁.logged (.handed e f l.number)
    let add (l : Loop) : Loop := { l with ready := l.ready ++ [.call f] }
    have bides : w₁.Bides e { w₂ with loop := w₂.loop.map add } := ⟨⟨_, _, rfl⟩, id⟩
    refine ⟨{ w₂ with loop := w₂.loop.map add }, fun env => ?_, logged.trans bides, rfl⟩
    unfold post
    rw [bind_log, bind_engine, bind_read, sink, loop]
    rfl

/-- Unless the client takes callbacks itself, reporting a write comes to its end. It marks the scope, if need be with a
callback, and changes nothing else. -/
theorem Scheduler.request_ends (own : (w.engine e).queue.sink = none) (a : Value) :
    ∃ w', (∀ env, request e a env w = (.value (), w')) ∧ w'.board e = (w.board e).request e a ∧ w.Bides e w' ∧
      w'.compiled = w.compiled := by
  let w₁ := w.logged (.requested e a)
  suffices h : ∃ w', (∀ env, enqueue e a env w₁ = (.value (), w')) ∧ w₁.Bides e w' ∧ w'.compiled = w.compiled by
    obtain ⟨w', run, bides, compiled⟩ := h
    obtain ⟨w'', run', board⟩ := Follows.request_own ⟨fun _ _ w => (.stopped, w), 0⟩ a own
    cases (run _).symm.trans run'
    exact ⟨w', run, board, (w.bides_logged e _).trans bides, compiled⟩
  by_cases running : a ∈ (w.engine e).scheduler.running
  · cases policy : (w.engine e).scheduler.policy with
    | skip =>
      refine ⟨w₁, fun env => ?_, .refl w₁ e, rfl⟩
      unfold enqueue
      rw [bind_scheduler, Session.engine_logged, if_pos (by simpa using running), policy]
      rfl
    | defer =>
      exact ⟨w₁.deferring e a, enqueue_defers (w := w₁) running policy, w₁.bides_reschedule e _, rfl⟩
  · by_cases marked : a ∈ (w.engine e).scheduler.pending
    · refine ⟨w₁, fun env => ?_, .refl w₁ e, rfl⟩
      unfold enqueue
      rw [bind_scheduler, Session.engine_logged, if_neg (by simpa using running), if_pos (by simpa using marked)]
      rfl
    · let mark (r : Scheduler) : Scheduler := { r with pending := insertKey a r.pending }
      let w₂ := (w₁.reschedule e mark).closing (.pass e a)
      have sink : (w₂.engine e).queue.sink = none := by
        change ((w₁.reschedule e mark).engine e).queue.sink = none
        rw [Session.engine_reschedule]
        exact own
      obtain ⟨w', run, bides, compiled⟩ := Queue.post_ends sink (.fn (.made w₁.closures.size))
      have marking : w₁.Bides e w₂ := ⟨⟨_, _, w₁.engine_reschedule e mark⟩, id⟩
      refine ⟨w', fun env => ?_, marking.trans bides, compiled⟩
      unfold enqueue
      rw [bind_scheduler, Session.engine_logged, if_neg (by simpa using running), if_neg (by simpa using marked),
        bind_modify, bind_close]
      exact run env

/-- Reporting a key of a record of the engine, if at all, asks for no more than a pass of its scope. -/
theorem Record.report_ends (own : (w.engine e).queue.sink = none) (a key : Value) (b : Bool) :
    ∃ w', (∀ env, (if b then Record.report (.schedule e a) key else pure ()) env w = (.value (), w')) ∧
      w.Bides e w' ∧ w'.compiled = w.compiled ∧ (w'.board e).settings = (w.board e).settings ∧
      ∃ m, w'.board e = (·.request e a)^[m] (w.board e) := by
  cases b with
  | false => exact ⟨w, fun _ => rfl, .refl w e, rfl, rfl, 0, rfl⟩
  | true =>
    obtain ⟨w', run, board, bides, compiled⟩ := Scheduler.request_ends own a
    refine ⟨w', run, bides, compiled, ?_, 1, board⟩
    rw [board]
    exact Board.settings_steady.request (w.board e) e a

end Requests

variable {n y : Placed}

/-- A scope whose record bears data owns it. -/
theorem Session.Bears.owns {a record : Value} (h : w.Bears e a record n) : ∃ data, w.Owns e a record data := by
  obtain ⟨data, keys, cs, rfl, hr⟩ := h.store.root
  refine ⟨data, h.named, h.held, hr, ?_⟩
  cases h.store.stands with
  | branch cell shows below =>
    obtain ⟨t, _, rfl, _⟩ := shows.cases.resolve_left fun h => nomatch h.1
    exact ⟨t, cell⟩

/-- A handler that is evaluated by its name for a path. By what it finds there it is to give an answer. -/
structure Invocation (κ : Type) where
  host : Host κ
  engine : Nat
  scope : Value
  record : Value
  name : String
  handler : Value
  path : String
  answer : Plain → Value

namespace Invocation

variable (I : Invocation κ)

def evaluation : Evaluation := { scope := I.scope, source := .text I.name, path := .text I.path }

/-- What is at the path after an answer. -/
def next (x : Plain) : Plain := if (I.answer x).isNone then x else .leaf (I.answer x)

/-- Evaluates the name so many times. -/
def evaluations : Nat → Eff κ (List Value)
  | 0 => pure []
  | k + 1 => do
    let v ← perform (.engine I.engine (.evaluate I.evaluation))
    return v :: (← evaluations k)

/-- The name is a bare one, and the handler a function from JSON data to scalars. All that it may do besides is to
make objects. -/
structure Sound : Prop where
  named : Comparison.isName I.name.toList
  given : I.path ≠ ""
  scalar : ∀ x, (I.answer x).json?.isSome
  computes : ∀ {w : Session κ} {y : Placed} (told : Value), y.Stands w.store → y.IsJson →
    ∃ s', Ends I.host (callValue I.handler [y.value, told]) w (.value (I.answer y.plain), w.having s') ∧
      ∀ {r c}, w.store.cell? r = some c → s'.cell? r = some c

/-- The handler is registered, and the engine has a queue of its own. -/
structure Serves (w : Session κ) : Prop where
  registered : (w.engine I.engine).handlers.get? I.name = some I.handler
  own : (w.engine I.engine).queue.sink = none
  recalls : w.Recalls I.name

/-- The data of the scope are `n`. What is read at the path is `y`, and everything can be written there. -/
structure Holds (w : Session κ) (n y : Placed) : Prop where
  bears : w.Bears I.engine I.scope I.record n
  takes : ∀ m x, (n.write Ref.mk m (segments I.path) x).isSome
  reads : ∀ {s' : Store}, (∀ {r c}, w.store.cell? r = some c → s'.cell? r = some c) →
    s'.getPath I.record (.text I.path) = .ok y.value
  stands : y.Stands w.store
  json : y.IsJson

variable {I}

theorem Holds.lasts (h : I.Holds w n y) (same : (w'.engine I.engine).records = (w.engine I.engine).records)
    (kept : ∀ {r c}, w.store.cell? r = some c → w'.store.cell? r = some c) : I.Holds w' n y where
  bears := ⟨h.bears.named, same ▸ h.bears.held, Store.bears_lasting _ _ _ n h.bears.store kept⟩
  takes := h.takes
  reads later := h.reads fun hr => later (kept hr)
  stands := h.stands.lasts kept
  json := h.json

/-- Evaluating the name comes to invoking the handler. -/
theorem resolves (sound : I.Sound) (serves : I.Serves w) :
    ∃ cache, (w.caching cache).Recalls I.name ∧ ∀ c env,
      Scope.resolve I.engine I.evaluation I.record c env w =
        Scope.invokeHandler I.engine I.name I.scope c.event (.text I.path) env (w.caching cache) := by
  have path := Comparison.isPath_of_isName sound.named
  have known : (w.engine I.engine).handlers.contains I.name := by
    change ((w.engine I.engine).handlers.get? I.name).isSome = true
    rw [serves.registered]
    rfl
  have text : I.evaluation.source = .text I.name := rfl
  obtain ⟨cache, recalls, run⟩ := Scope.resolve_path (e := I.engine) path serves.recalls text path.trim
  refine ⟨cache, recalls, fun c env => ?_⟩
  rw [(run I.record c env).1 sound.named known]
  rfl

/-- What answers have made of the data: at the path is what came next, and other keys are as they were. The scheduler
has been told of some writes and of nothing else. -/
structure Moves (I : Invocation κ) (b : Board) (n : Placed) (x : Plain) (w' : Session κ) (n' y' : Placed) : Prop where
  serves : I.Serves w'
  holds : I.Holds w' n' y'
  next : y'.plain = x
  others : ∀ k, k ≠ rootOf I.path → n'.plain.get? k = n.plain.get? k
  board : ∃ m, w'.board I.engine = (·.request I.engine I.scope)^[m] b

theorem Moves.refl (serves : I.Serves w) (holds : I.Holds w n y) : I.Moves (w.board I.engine) n y.plain w n y :=
  ⟨serves, holds, rfl, fun _ _ => rfl, 0, rfl⟩

theorem Moves.trans {b : Board} {x x' : Plain} {w'' : Session κ} {n' n'' y' y'' : Placed} (h : I.Moves b n x w' n' y')
    (h' : I.Moves (w'.board I.engine) n' x' w'' n'' y'') : I.Moves b n x' w'' n'' y'' where
  serves := h'.serves
  holds := h'.holds
  next := h'.next
  others k hk := (h'.others k hk).trans (h.others k hk)
  board := by
    obtain ⟨m, hm⟩ := h.board
    obtain ⟨m', hm'⟩ := h'.board
    exact ⟨m' + m, by rw [hm', hm, Function.iterate_add_apply]⟩

/-- An answer other than `none` is stored at the path. -/
theorem stores (given : I.path ≠ "") (serves : I.Serves w) (holds : I.Holds w n y) (scalar : v.json?.isSome)
    (full : v.isNone = false) :
    ∃ w' n', (∀ env, Handler.writeBack I.record (.text I.path) v env w = (.value (), w')) ∧
      I.Moves (w.board I.engine) n (.leaf v) w' n' (.leaf v) := by
  have bare : v.ref? = none := by
    cases v <;> first | rfl | cases scalar
  have offers : w.store.Offers n (.leaf v) :=
    ⟨.leaf bare, by rw [refs]; exact List.nodup_nil, fun _ _ h => by rw [refs] at h; cases h⟩
  obtain ⟨n', hn'⟩ := Option.isSome_iff_exists.1 (holds.takes w.store.cells.size (.leaf v))
  have stored : n.stored Ref.mk w.store.cells.size I.path (.leaf v) = n' := by
    unfold Datum.stored
    rw [hn', Option.getD_some]
  have sound := holds.bears.store.stands.sound
  have others (k : Value) (hk : k ≠ rootOf I.path) : n'.plain.get? k = n.plain.get? k := by
    rw [← stored, plain_stored]
    exact put_elsewhere holds.bears.store.isDict hk _
  obtain ⟨data, keys, cs, rfl, hr⟩ := holds.bears.store.root
  obtain ⟨s', b, written, run⟩ :=
    Record.setPath_stores (κ := κ) holds.bears.store.stands holds.bears.store.single offers hn'
  let w₁ := w.having s'
  obtain ⟨w', told, bides, compiled, settings, board⟩ :=
    Record.report_ends (w := w₁) serves.own I.scope (rootOf I.path) b
  have bears : s'.Bears I.engine I.scope I.record n' := by
    rw [← stored] at written ⊢
    exact holds.bears.store.written written
  have holds₁ : I.Holds w₁ n' (.leaf v) := by
    refine ⟨⟨holds.bears.named, holds.bears.held, bears⟩, write_again sound hn', fun kept => ?_, .leaf bare,
      .leaf scalar⟩
    have later := Store.bears_lasting _ _ _ n' bears kept
    exact (later.getPath (read?_write sound (segments_ne_nil I.path) hn')).1
  obtain ⟨_, _, engine⟩ := bides.engine
  have serves' : I.Serves w' := by
    refine ⟨?_, (congrArg (fun z => z.2.2.2) settings).trans serves.own, fun x hx => ?_⟩
    · rw [engine]
      exact serves.registered
    · rw [compiled] at hx
      exact serves.recalls x hx
  have holds' : I.Holds w' n' (.leaf v) := holds₁.lasts (by rw [engine]) bides.cells
  refine ⟨w', n', fun env => ?_, serves', holds', by rw [plain, Datum.map], others, board⟩
  have asked : truthy (.text I.path) env w = (.value (I.path != ""), w) := rfl
  have wrote : Handler.writeInto I.record (.text I.path) v env w = (.value (), w') := by
    unfold Handler.writeInto
    rw [bind_store, hr]
    exact (run _ env).trans (told env)
  unfold Handler.writeBack
  rw [bind_value asked, if_pos (by simp [full, given])]
  exact contain_value wrote

/-- An answer is stored at the path unless it is `none`. -/
theorem writesBack (sound : I.Sound) (serves : I.Serves w) (holds : I.Holds w n y) :
    ∃ w' n' y', (∀ env, Handler.writeBack I.record (.text I.path) (I.answer y.plain) env w = (.value (), w')) ∧
      I.Moves (w.board I.engine) n (I.next y.plain) w' n' y' := by
  unfold next
  cases none : (I.answer y.plain).isNone with
  | false =>
    obtain ⟨w', n', run, moves⟩ := stores sound.given serves holds (sound.scalar y.plain) none
    exact ⟨w', n', _, run, moves⟩
  | true =>
    refine ⟨w, n, y, fun env => ?_, .refl serves holds⟩
    have asked : truthy (.text I.path) env w = (.value (I.path != ""), w) := rfl
    unfold Handler.writeBack
    rw [bind_value asked, none]
    rfl

/-- Invoking the handler for the path calls it with what is read there, and stores the answer. -/
theorem invokes (sound : I.Sound) (serves : I.Serves w) (holds : I.Holds w n y) (told : HandlerContext)
    (given : told.path = .text I.path) (afterwards : Afterwards) :
    ∃ w' n' y', Ends I.host (Handler.invoke I.engine I.name I.record told afterwards) w
        (.value (I.answer y.plain), w') ∧ I.Moves (w.board I.engine) n (I.next y.plain) w' n' y' := by
  -- the handler is told of its invocation by an object that is made for it
  let w₁ := w.having (w.store.alloc (.context told)).2
  have grown : w.Bides I.engine w₁ := w.bides_alloc I.engine _
  have holds₁ : I.Holds w₁ n y := holds.lasts rfl grown.cells
  obtain ⟨s₂, called, kept⟩ := sound.computes (.ref (w.store.alloc (.context told)).1) holds₁.stands holds.json
  let w₂ := w₁.having s₂
  have holds₂ : I.Holds w₂ n y := holds₁.lasts rfl kept
  have serves₂ : I.Serves w₂ := ⟨serves.registered, serves.own, serves.recalls⟩
  obtain ⟨w', n', y', stored, moves⟩ := writesBack sound serves₂ holds₂
  refine ⟨w', n', y', ?_, moves⟩
  have unbound (owner : Value) (name : String) (mark : Nat) : y.value ≠ .method owner name mark := by
    intro method
    cases holds.json with
    | branch keyed below => cases method
    | @leaf v scalar =>
      rw [show v = .method owner name mark from method] at scalar
      cases scalar
  have current := Build.getPath_found (holds.reads id) unbound
  have waits : (I.answer y.plain).isAwaitable = false := by
    have scalar := sound.scalar y.plain
    cases h : I.answer y.plain <;> rw [h] at scalar <;> first | rfl | cases scalar
  have asked : w.store.truthy (.text I.path) = true := by simpa [Store.truthy] using sound.given
  unfold Handler.invoke
  refine .bind (a := w.engine I.engine) (.alone fun _ => rfl) ?_
  rw [show (w.engine I.engine).handlers.get? I.name = some I.handler from serves.registered, given]
  refine .bind (a := w.store) (.alone fun _ => rfl) ?_
  dsimp only
  rw [if_pos asked]
  refine .bind (.alone current) (.bind (show Ends I.host _ w (_, w₁) from .alone fun _ => rfl) ?_)
  refine .bind called.attempt_value ?_
  dsimp only
  rw [waits]
  exact .bind (.alone stored) (.pure _ w')

/-- Evaluating the name once invokes the handler, and answers by what it found. -/
theorem evaluates (sound : I.Sound) (serves : I.Serves w) (holds : I.Holds w n y) :
    ∃ w' n' y', Ends I.host (perform (.engine I.engine (.evaluate I.evaluation))) w
        (.value (I.answer y.plain), w') ∧ I.Moves (w.board I.engine) n (I.next y.plain) w' n' y' := by
  obtain ⟨cache, recalls, resolved⟩ := resolves sound serves
  let w₁ := w.caching cache
  have holds₁ : I.Holds w₁ n y := holds.lasts rfl id
  have serves₁ : I.Serves w₁ := ⟨serves.registered, serves.own, recalls⟩
  obtain ⟨data, own⟩ := holds.bears.owns
  obtain ⟨data₁, own₁⟩ := holds₁.bears.owns
  let told : HandlerContext := ⟨I.scope, .none, .text I.path, (w₁.engine I.engine).face⟩
  obtain ⟨w', n', y', invoked, moves⟩ := invokes sound serves₁ holds₁ told rfl (.flush I.engine I.scope)
  refine ⟨w', n', y', ?_, moves⟩
  have resolvedTo : Ends I.host (Scope.resolve I.engine I.evaluation I.record {}) w
      (.value (I.answer y.plain), w') := by
    refine .congr (resolved {}) ?_
    exact (Scope.find_ends own₁).bind invoked
  refine .congr (perform_engine I.engine (.evaluate I.evaluation) · w) ((Scope.find_ends own).bind ?_)
  refine .bind (a := {}) (.alone fun _ => rfl) ?_
  exact .contain resolvedTo.attempt_value (fun _ h => by cases h; rfl) fun _ h => by cases h

/-- Evaluating it several times answers by what came next each time. -/
theorem answers (sound : I.Sound) (serves : I.Serves w) (holds : I.Holds w n y) (k : Nat) :
    ∃ w' n' y', Ends I.host (I.evaluations k) w (.value ((List.iterate I.next y.plain k).map I.answer), w') ∧
      I.Moves (w.board I.engine) n (I.next^[k] y.plain) w' n' y' := by
  induction k generalizing w n y with
  | zero => exact ⟨w, n, y, .pure [] w, .refl serves holds⟩
  | succ k ih =>
    obtain ⟨w₁, n₁, y₁, first, moves⟩ := evaluates sound serves holds
    obtain ⟨w', n', y', rest, moves'⟩ := ih moves.serves moves.holds
    rw [moves.next] at rest moves'
    exact ⟨w', n', y', first.bind (rest.bind (.pure _ w')), moves.trans moves'⟩

end Invocation

end ReactiveScopes
