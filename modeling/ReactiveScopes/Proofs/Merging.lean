import ReactiveScopes.Proofs.OwnKeys
import ReactiveScopes.Proofs.RecordCalls

/-!
# Merging updates

The entries of an update go to the data of a record one after another. One whose path meets a list without such a
slot leaves the data as they were and is noted; it does not keep the others from being written. What is written is
reported to the scheduler, which marks the scope and has a callback posted. That may be to a function of the client,
and then it matters that the function leaves the data, the update and the mark alone.
-/
namespace ReactiveScopes

open Eff

variable {κ : Type} {e : Nat} {scope record u k v x path : Value} {data d r : Ref} {c : Cell} {t : Mapping}
  {H : Ref → Prop} {ready : Session κ → Prop} {hook : Hook} {env : Env κ} {sink : Option Fn} {w w' : Session κ}
  {s s' : Store} {p : String} {ps : List String} {es : List (Value × Value)}

/-- The engine posts to that sink, and the client is ready for it. -/
structure Session.Posts (w : Session κ) (e : Nat) (sink : Option Fn) (ready : Session κ → Prop) : Prop where
  sink : (w.engine e).queue.sink = sink
  ready : ready w

/-- A callback was posted: no cells have been written but those of `H`, and the scope is marked. -/
structure Session.Announced (w : Session κ) (e : Nat) (scope : Value) (sink : Option Fn) (ready : Session κ → Prop)
    (H : Ref → Prop) (w' : Session κ) : Prop where
  keeps : w.store.Keeps H w'.store
  posts : w'.Posts e sink ready
  marked : scope ∈ (w'.engine e).scheduler.pending

/-- A sink that takes callbacks over for later: when it is given one for the scope it returns, and all is as if the
callback had been queued. Whether the client is ready for that is a matter of its memory and of the cells of `H`. -/
structure Queue.TakesOver (sink : Option Fn) (e : Nat) (scope : Value) (ready : Session κ → Prop) (H : Ref → Prop)
    (env : Env κ) : Prop where
  returns : ∀ {p w} (f : Value), sink = some p → w.Posts e sink ready → scope ∈ (w.engine e).scheduler.pending →
    ∃ a w', env.call (.fn p) [f] w = (.value a, w') ∧ w.Announced e scope sink ready H w'
  lasting : ∀ {w w'}, ready w → w'.memory = w.memory →
    (∀ r c, H r → w.store.cell? r = some c → w'.store.cell? r = some c) → ready w'

section Posting

variable (takes : Queue.TakesOver sink e scope ready H env) (posts : w.Posts e sink ready)

include takes posts

/-- Nothing has happened that concerns the sink. -/
theorem Session.Posts.aside (engine : (w'.engine e).queue.sink = (w.engine e).queue.sink)
    (memory : w'.memory = w.memory) (cells : ∀ r c, H r → w.store.cell? r = some c → w'.store.cell? r = some c) :
    w'.Posts e sink ready :=
  ⟨engine.trans posts.sink, takes.lasting posts.ready memory cells⟩

theorem Queue.post_taken (marked : scope ∈ (w.engine e).scheduler.pending) (f : Value) :
    ∃ w', post e f env w = (.value (), w') ∧ w.Announced e scope sink ready H w' := by
  let w₁ := w.logged (.posted e f)
  unfold post
  rw [bind_log, bind_engine, bind_read, Session.engine_logged, posts.sink]
  cases sink with
  | some p =>
    have before : w₁.Posts e (some p) ready := posts.aside takes rfl rfl fun _ _ _ h => h
    obtain ⟨a, w', call, announced⟩ := takes.returns f rfl before marked
    exact ⟨w', bind_value (m := callFn p [f]) call _, announced.keeps, announced.posts, announced.marked⟩
  | none =>
    cases loop : w.loop with
    | some l =>
      rw [show w₁.loop = some l from loop]
      exact ⟨_, rfl, .refl H _, posts.aside takes rfl rfl fun _ _ _ h => h, marked⟩
    | none =>
      rw [show w₁.loop = none from loop]
      let w' := w₁.requeue e fun q => { q with posted := q.posted ++ [f] }
      have same : w'.engine e = _ := w₁.engine_requeue e _
      refine ⟨w', rfl, .refl H _, posts.aside takes ?_ rfl fun _ _ _ h => h, ?_⟩
      · rw [same]
        rfl
      · rwa [same]

/-- A request marks its scope, unless a pass of it is running, and never takes the mark away. -/
theorem Scheduler.request_taken :
    ∃ w', request e scope env w = (.value (), w') ∧ w.store.Keeps H w'.store ∧ w'.Posts e sink ready ∧
      (scope ∈ (w.engine e).scheduler.pending ∨ scope ∉ (w.engine e).scheduler.running →
        scope ∈ (w'.engine e).scheduler.pending) := by
  let w₁ := w.logged (.requested e scope)
  have before : w₁.Posts e sink ready := posts.aside takes rfl rfl fun _ _ _ h => h
  unfold request
  rw [bind_log]
  unfold enqueue
  rw [bind_scheduler, Session.engine_logged]
  by_cases running : scope ∈ (w.engine e).scheduler.running
  · rw [if_pos (by simpa using running)]
    have marked (h : scope ∈ (w.engine e).scheduler.pending ∨ scope ∉ (w.engine e).scheduler.running) :
        scope ∈ (w.engine e).scheduler.pending := h.resolve_right (absurd running)
    by_cases defer : (w.engine e).scheduler.policy = .defer
    · rw [if_pos defer]
      have same : (w₁.deferring e scope).engine e = _ := w₁.engine_reschedule e _
      refine ⟨w₁.deferring e scope, rfl, .refl H _, before.aside takes ?_ rfl fun _ _ _ h => h, fun h => ?_⟩
      · rw [same]
      · rw [same]
        exact marked h
    · rw [if_neg defer]
      exact ⟨w₁, rfl, .refl H _, before, marked⟩
  · rw [if_neg (by simpa using running)]
    by_cases pending : scope ∈ (w.engine e).scheduler.pending
    · rw [if_pos (by simpa using pending)]
      exact ⟨w₁, rfl, .refl H _, before, fun _ => pending⟩
    · rw [if_neg (by simpa using pending), bind_modify, bind_close]
      let mark (s : Scheduler) : Scheduler := { s with pending := insertKey scope s.pending }
      let w₂ := (w₁.reschedule e mark).closing (.pass e scope)
      have same : w₂.engine e = _ := w₁.engine_reschedule e mark
      have after : w₂.Posts e sink ready := by
        refine before.aside takes ?_ rfl fun _ _ _ h => h
        rw [same]
      have marked : scope ∈ (w₂.engine e).scheduler.pending := by
        rw [same]
        exact mem_insertKey.2 (.inl rfl)
      obtain ⟨w', post, announced⟩ := Queue.post_taken takes after marked (.fn (.made w₁.closures.size))
      exact ⟨w', post, announced.keeps, announced.posts, fun _ => announced.marked⟩

end Posting

namespace Store

/-- Cells that others write while an update is merged, and the one with its entries. -/
abbrev Besides (H : Ref → Prop) (d : Ref) : Ref → Prop := fun r => H r ∨ r = d

/-- What a value leads to is all that is written below it. -/
theorem Wrote.apart (h : s.Wrote v x ps s') (tame : s.Tame H v) (hr : H r) (cell : s.cell? r = some c) :
    s'.cell? r = some c := by
  cases h with
  | nothing => exact cell
  | slot leads cell' stores stored others chain size beside =>
    refine (others r ?_ (Array.getElem?_eq_some_iff.1 cell).1).trans cell
    rintro rfl
    exact (tame r leads.leads).1 hr

/-- An update that can be merged: its keys are texts, and neither the data nor its values lead to the cell with its
entries, to any of `H` or to a record. -/
structure Mergeable (H : Ref → Prop) (data d : Ref) (u : Value) (t : Mapping) (s : Store) : Prop where
  own : ∀ r, H r → r.index < s.cells.size
  dict : ∃ t, s.cell? data = some (.dict t)
  source : s.Source (Besides H d) d u
  apart : ¬ H d
  given : s.cell? d = some (.dict t)
  keys : ∀ k ∈ t.keys, ∃ p, k = .text p
  tame : s.Tame (Besides H d) (.ref data)
  values : ∀ v ∈ t.values, s.Tame (Besides H d) v

namespace Mergeable

theorem evolves (h : s.Mergeable H data d u t) (e : s.Evolves (Besides H d) s') (given : s'.cell? d = some (.dict t)) :
    s'.Mergeable H data d u t where
  own r hr := Nat.lt_of_lt_of_le (h.own r hr) e.size
  dict := by
    obtain ⟨t, dict⟩ := h.dict
    obtain ⟨c, cell, becomes⟩ := e.cells (h.tame data .refl).1 dict
    cases becomes with
    | same => exact ⟨t, cell⟩
    | @dict _ t' keys => exact ⟨t', cell⟩
  source := h.source.evolves e
  apart := h.apart
  given := given
  keys := h.keys
  tame := e.tame h.tame
  values v hv := e.tame (h.values v hv)

theorem keeps (h : s.Mergeable H data d u t) (keeps : s.Keeps H s') : s'.Mergeable H data d u t := by
  refine h.evolves (.of_keeps ⟨keeps.size, fun hr hc => keeps.cells (fun hh => hr (.inl hh)) hc⟩) ?_
  exact keeps.cells h.apart h.given

theorem wrote (h : s.Mergeable H data d u t) (hx : x ∈ t.values) (wrote : s.Wrote (.ref data) x ps s') :
    s'.Mergeable H data d u t := by
  have own (r : Ref) (hr : Besides H d r) : r.index < s.cells.size := by
    rcases hr with hr | rfl
    · exact h.own r hr
    · exact (Array.getElem?_eq_some_iff.1 h.given).1
  exact h.evolves (.of_wrote own (h.values x hx) wrote) (wrote.apart h.tame (.inr rfl) h.given)

theorem graph (h : s.Mergeable H data d u t) : s.Graph data := by
  obtain ⟨t, dict⟩ := h.dict
  exact h.tame.graph dict

end Mergeable

end Store

namespace Record

/-- The entries of an update have gone to the data one after another, and these keys have been reported. If the path is
blocked, the data are as they were and one notice has been added. Otherwise the value has been written in full, and
then it has been reported if it was to be; meanwhile no cells have been written but those of `H`. -/
inductive Merges (data : Ref) (hook : Hook) (H : Ref → Prop) (env : Env κ) :
    Session κ → List (Value × Value) → List String → Session κ → Prop
  | done (w : Session κ) : Merges data hook H env w [] [] w
  | blocked {w w' : Session κ} {k v : Value} {es : List (Value × Value)} {told : List String} {s : Store}
      (blocked : w.store.blocks (.ref data) (w.store.segmentsOf k)) (kept : w.store.Extends s)
      (on : Merges data hook H env ((w.having s).logged (.notice .keyNotWritten)) es told w') :
      Merges data hook H env w ((k, v) :: es) told w'
  | silent {w w' : Session κ} {k v : Value} {es : List (Value × Value)} {p : String} {ps told : List String} {s : Store}
      (names : w.store.segmentsOf k = p :: ps) (free : w.store.blocks (.ref data) (p :: ps) = false)
      (fills : w.store.Fills (.ref data) v (p :: ps) s) (quiet : reports w.store data p ps v = false)
      (on : Merges data hook H env (w.having s) es told w') : Merges data hook H env w ((k, v) :: es) told w'
  | reported {w w₁ w' : Session κ} {k v : Value} {es : List (Value × Value)} {p : String} {ps told : List String}
      {s : Store} (names : w.store.segmentsOf k = p :: ps) (free : w.store.blocks (.ref data) (p :: ps) = false)
      (fills : w.store.Fills (.ref data) v (p :: ps) s) (loud : reports w.store data p ps v = true)
      (tells : report hook (.text p) env (w.having s) = (.value (), w₁)) (keeps : s.Keeps H w₁.store)
      (on : Merges data hook H env w₁ es told w') : Merges data hook H env w ((k, v) :: es) (p :: told) w'

end Record

/-- An entry has been written or its fault has been noted, and then the others are merged. -/
theorem Scope.setEach_entry {w₁ : Session κ} (updates : w.store.mapping? u = some t) (entry : t.get? k = some v)
    (first : contain (Record.setPath data hook k v) Fault.isWriteFault (fun _ => notice .keyNotWritten) env w =
      (.value (), w₁)) (ks : List Value) :
    Scope.setEach data hook u t.size (k :: ks) env w = Scope.setEach data hook u t.size ks env w₁ := by
  rw [Scope.setEach, bind_store, updates, Option.getD_some, if_neg (not_not_intro rfl), entry]
  exact bind_value first _

/-- The entries of an update are merged to the end. The scope keeps its mark, and gets it with the first report unless
a pass of it is running. -/
theorem Scope.setEach_merges (takes : Queue.TakesOver sink e scope ready H env) (posts : w.Posts e sink ready)
    (fit : w.store.Mergeable H data d u t) (entries : ∀ x ∈ es, x ∈ t.entries) :
    ∃ told w', Scope.setEach data (.schedule e scope) u t.size (es.map Prod.fst) env w = (.value (), w') ∧
      Record.Merges data (.schedule e scope) H env w es told w' ∧
      (scope ∈ (w.engine e).scheduler.pending ∨ told ≠ [] ∧ scope ∉ (w.engine e).scheduler.running →
        scope ∈ (w'.engine e).scheduler.pending) := by
  induction es generalizing w with
  | nil =>
    refine ⟨[], w, ?_, .done w, fun h => h.resolve_right fun h => h.1 rfl⟩
    rw [List.map_nil, Scope.setEach, bind_store, fit.source.mapping? fit.given, Option.getD_some,
      if_neg (not_not_intro rfl)]
    rfl
  | cons x es ih =>
    obtain ⟨k, v⟩ := x
    have entry : (k, v) ∈ t.entries := entries _ List.mem_cons_self
    have rest : ∀ x ∈ es, x ∈ t.entries := fun x hx => entries x (List.mem_cons_of_mem _ hx)
    have updates := fit.source.mapping? fit.given
    have held := t.get?_of_mem entry
    obtain ⟨p, ps, names⟩ : ∃ p ps, w.store.segmentsOf k = p :: ps := by
      obtain ⟨q, rfl⟩ := fit.keys k (List.mem_map_of_mem entry)
      exact List.exists_cons_of_ne_nil (segments_ne_nil _)
    rcases Record.setPath_fills fit.graph names v with ⟨blocked, f, s, hf, kept, run⟩ | ⟨free, s, fills, run⟩
    · -- the fault comes before anything is reported, so that all that is new to the engine is the notice
      let w₁ := (w.having s).logged (.notice .keyNotWritten)
      have noted := setEach_entry updates held (contain_caught (run (.schedule e scope) env w rfl) hf) (es.map Prod.fst)
      have posts₁ : w₁.Posts e sink ready := posts.aside takes rfl rfl fun _ _ _ cell => kept.kept cell
      obtain ⟨told, w', ran, merges, marked⟩ := ih posts₁ (fit.keeps (.of_extends H kept)) rest
      exact ⟨told, w', noted.trans ran, .blocked (names ▸ blocked) kept merges, marked⟩
    · have run := run (.schedule e scope) env w rfl
      have fit₁ := fit.wrote (List.mem_map_of_mem entry) fills.wrote
      have posts₁ : (w.having s).Posts e sink ready :=
        posts.aside takes rfl rfl fun _ _ hr cell => fills.wrote.apart fit.tame (.inl hr) cell
      by_cases loud : Record.reports w.store data p ps v
      · rw [if_pos loud] at run
        obtain ⟨w₁, report, keeps, posts₂, marks⟩ := Scheduler.request_taken takes posts₁
        obtain ⟨told, w', ran, merges, marked⟩ := ih posts₂ (fit₁.keeps keeps) rest
        have first := setEach_entry updates held (contain_value (run.trans report)) (es.map Prod.fst)
        refine ⟨p :: told, w', first.trans ran, .reported names free fills loud report keeps merges, fun h => ?_⟩
        exact marked (.inl (marks (h.imp_right And.right)))
      · rw [if_neg loud] at run
        obtain ⟨told, w', ran, merges, marked⟩ := ih posts₁ fit₁ rest
        have first := setEach_entry updates held (contain_value run) (es.map Prod.fst)
        exact ⟨told, w', first.trans ran, .silent names free fills (Bool.eq_false_iff.2 loud) merges, marked⟩

/-- Merging an update into the record of a scope returns, if what the engine posts to takes callbacks over. One after
another its entries have been written in full, but for those whose path meets a list without such a slot: they have
left the data as they were, and each has been noted once. If anything has been reported and no pass of the scope is
running, the scope is marked. -/
theorem merging_isolates_failing_keys (own : w.Owns e scope record data) (budget : env.budget ≠ 0)
    (takes : Queue.TakesOver (w.engine e).queue.sink e scope ready H env) (prepared : ready w)
    (fit : w.store.Mergeable H data d u t) :
    ∃ told w', perform (.engine e (.setState scope u)) env w = (.value .none, w') ∧
      Record.Merges data (.schedule e scope) H env w t.entries told w' ∧
      (told ≠ [] → scope ∉ (w.engine e).scheduler.running → scope ∈ (w'.engine e).scheduler.pending) := by
  obtain ⟨told, w', ran, merges, marked⟩ := Scope.setEach_merges takes ⟨rfl, prepared⟩ fit fun _ h => h
  refine ⟨told, w', ?_, merges, fun some idle => marked (.inr ⟨some, idle⟩)⟩
  have set : Scope.setState e scope u env w = (.value (), w') := by
    refine (bind_value (Scope.find_value own budget) _).trans ?_
    dsimp only
    rw [bind_store, fit.source.mapping? fit.given, own.cell]
    exact ran
  rw [perform_engine]
  exact bind_value set _

/-- A function of the client that keeps the callbacks that it is given, the last one first. -/
def collecting : Env (List Value) := { Record.noting with budget := 1 }

/-- Some data with a record, and an update in the third cell. The engine posts to a function of the client. -/
def Session.holding (scope : Value) (data update : Mapping) (others : List Cell) : Session (List Value) where
  memory := []
  store := { cells := (.dict data :: .record ⟨0⟩ (.schedule 0 scope) :: .dict update :: others).toArray }
  engines := Table.empty.insert 0
    { queue := { sink := some (.client "post") }, records := Table.empty.insert scope (.ref ⟨1⟩) }

def Mapping.tasks : Mapping := Mapping.ofFields [("todos", .ref ⟨3⟩), ("n", .int 1)]

/-- An empty list has no fourth place, but a first one. The number is there already. -/
def Mapping.additions : Mapping :=
  Mapping.ofFields [("todos.3", .text "x"), ("todos.0.done", .bool true), ("n", .int 1), ("other", .ref ⟨3⟩)]

def Session.listing : Session (List Value) := .holding (.int 7) .tasks .additions [.list []]

theorem merging_isolates_failing_keys_listing :
    ∃ told w', perform (.engine 0 (.setState (.int 7) (.ref ⟨2⟩))) collecting Session.listing = (.value .none, w') ∧
      Record.Merges ⟨0⟩ (.schedule 0 (.int 7)) (fun _ => False) collecting Session.listing
        Mapping.additions.entries told w' ∧
      Record.fields w'.store ⟨0⟩ = Mapping.ofFields [("todos", .ref ⟨3⟩), ("n", .int 1), ("other", .ref ⟨3⟩)] ∧
      w'.store.sequence? (.ref ⟨3⟩) = some [.ref ⟨4⟩] ∧ (w'.engine 0).scheduler.pending = [.int 7] ∧
      w'.memory = [.fn (.made 0)] := by
  let G : Ref → Prop := Store.Besides (fun _ => False) ⟨2⟩
  have own : Session.listing.Owns 0 (.int 7) (.ref ⟨1⟩) ⟨0⟩ := ⟨rfl, rfl, rfl, _, rfl⟩
  have takes : Queue.TakesOver (some (.client "post")) 0 (.int 7) (fun _ => True) (fun _ => False) collecting :=
    ⟨fun f _ posts marked => ⟨_, _, rfl, .refl _ _, ⟨posts.sink, trivial⟩, marked⟩, fun _ _ _ => trivial⟩
  have tame {v : Value} (hv : ∀ r, v = .ref r → r ∈ [⟨0⟩, ⟨3⟩]) : Session.listing.store.Tame G v := by
    refine .of_cells [⟨0⟩, ⟨3⟩] (fun r hr => ?_) hv
    simp only [List.mem_cons, List.not_mem_nil, or_false] at hr
    rcases hr with rfl | rfl
    · have values : Mapping.tasks.values = [.ref ⟨3⟩, .int 1] := by decide +kernel
      refine ⟨by simp [G], .dict .tasks, rfl, rfl, fun a ha => ?_⟩
      change .ref a ∈ Mapping.tasks.values at ha
      rw [values] at ha
      have third : a = ⟨3⟩ := by simpa using ha
      simp [third]
    · exact ⟨by simp [G], _, rfl, rfl, fun a ha => by cases ha⟩
  have keys : Mapping.additions.keys = ["todos.3", "todos.0.done", "n", "other"].map .text := by decide +kernel
  have values : Mapping.additions.values = [.text "x", .bool true, .int 1, .ref ⟨3⟩] := by decide +kernel
  have fit : Session.listing.store.Mergeable (fun _ => False) ⟨0⟩ ⟨2⟩ (.ref ⟨2⟩) .additions :=
    { own := fun _ h => h.elim
      dict := ⟨_, rfl⟩
      source := .dict
      apart := id
      given := rfl
      keys := fun k hk => by
        obtain ⟨p, -, rfl⟩ := List.mem_map.1 (keys ▸ hk)
        exact ⟨p, rfl⟩
      tame := tame fun r hr => by
        cases hr
        simp
      values := fun v hv => tame fun r hr => by
        rw [values, hr] at hv
        have third : r = ⟨3⟩ := by simpa using hv
        simp [third] }
  obtain ⟨told, w', run, merges, -⟩ := merging_isolates_failing_keys own (by decide) takes trivial fit
  have left : (perform (.engine 0 (.setState (.int 7) (.ref ⟨2⟩))) collecting Session.listing).2 = w' := by rw [run]
  have data : Record.fields w'.store ⟨0⟩ =
      Mapping.ofFields [("todos", .ref ⟨3⟩), ("n", .int 1), ("other", .ref ⟨3⟩)] := by
    rw [← left]
    decide +kernel
  have list : w'.store.sequence? (.ref ⟨3⟩) = some [.ref ⟨4⟩] := by
    rw [← left]
    decide +kernel
  have marked : (w'.engine 0).scheduler.pending = [.int 7] := by
    rw [← left]
    decide +kernel
  have kept : w'.memory = [.fn (.made 0)] := by
    rw [← left]
    decide +kernel
  exact ⟨told, w', run, merges, data, list, marked, kept⟩

/-- What comes of merging such an update if the function of the client does one thing whenever it gets a callback. -/
def merging (scope : Value) (w : Session (List Value)) (posts : Command) : Outcome Value × Session (List Value) :=
  perform (.engine 0 (.setState scope (.ref ⟨2⟩))) (.within (fun _ => { body := fun _ => Act.ask posts }) 9) w

/-- A sink that clears the record takes out what was written, and one that flushes the scope takes its mark. The record
of a scope that is none is not found. An update that is a part of the data may grow meanwhile, and then merging it
raises. -/
theorem update_not_merged :
    let update := Mapping.ofFields [("a", .int 1)]
    let cleared := merging (.int 7) (.holding (.int 7) .empty update []) (.record (.ref ⟨1⟩) .clear)
    let flushed := merging (.int 7) (.holding (.int 7) .empty update []) (.engine 0 (.flush (.int 7)))
    let nobody := merging .none (.holding .none .empty update []) .noticeCount
    let inside := merging (.int 7)
      (.holding (.int 7) (Mapping.ofFields [("a", .ref ⟨2⟩)]) (Mapping.ofFields [("a.b", .int 1)]) []) .noticeCount
    cleared.1 = .value .none ∧ Record.fields cleared.2.store ⟨0⟩ = .empty ∧
    flushed.1 = .value .none ∧ Record.fields flushed.2.store ⟨0⟩ = update ∧
      (flushed.2.engine 0).scheduler.pending = [] ∧ (flushed.2.engine 0).scheduler.running = [] ∧
    nobody.1 = .value .none ∧ Record.fields nobody.2.store ⟨0⟩ = .empty ∧
    inside.1 = .fault .misuse := by
  decide +kernel

end ReactiveScopes
