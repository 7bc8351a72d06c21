import Mathlib.Logic.Relation
import ReactiveScopes.Proofs.Fence
import ReactiveScopes.Run

/-!
# Isolated scopes

Writing to the state of one scope leaves that of another as it is, provided that reading from the first
comes to no list or dictionary that belongs to the second as well. Initialising sees to that as far as
the declarations do: it copies one level of a mapping and no more, so a container further down that two
declarations have in common is shared by the scopes ever after.
-/
namespace ReactiveScopes

open Eff

variable {κ α β : Type}

/-- Reading from `v` comes to no container that reading from `u` comes to as well. All that it comes to is
there, and the records among it are dictionaries that tell at most schedulers, about other scopes. -/
structure Store.Apart (s : Store) (e : Nat) (scope v u : Value) : Prop where
  there : ∀ r, s.Reaches v r → ∃ c, s.cell? r = some c
  shared : ∀ {r c}, s.Reaches v r → s.Reaches u r → s.cell? r = some c → c.isContainer = false
  record : ∀ {r data hook}, s.Reaches v r → s.cell? r = some (.record data hook) →
    (∃ t, s.cell? data = some (.dict t)) ∧ hook.Spares e scope

/-- The same for a region instead of `v`, and fixed cells. -/
structure Store.Separates (s : Store) (e : Nat) (scope : Value) (R F : Ref → Prop) : Prop where
  closed : s.Closed R
  shared : ∀ {r c}, R r → F r → s.cell? r = some c → c.isContainer = false
  record : ∀ {r data hook}, R r → s.cell? r = some (.record data hook) →
    (∃ t, s.cell? data = some (.dict t)) ∧ hook.Spares e scope

/-- The expression that a source is in a session. -/
def Session.Reads (w : Session κ) (source : Value) (x : Expr) : Prop :=
  match source.text? with
  | some t =>
    let name := String.ofList (Text.trim t.toList)
    w.compiled.get? name = some (some x) ∨
      w.compiled.get? name = none ∧ ∃ notices, Source.compile? name = .ok (some (x, notices))
  | none => (Raw.ofValue w.store source).compile.1 = x

/-- No capabilities, or a mapping without any. -/
def Extras.IsEmpty (s : Store) : Extras → Prop
  | .capabilities c => c = {}
  | .mapping v => s.truthy v = false

/-- What is done to the scope `a`: merging values into its state that have no container in common with
the state of `b`, scalars above all, and evaluating expressions that write. -/
inductive Deed (env : Env κ) (e : Nat) (a b rb : Value) : Session κ → Session κ → Prop
  | setState {w : Session κ} (updates : Value) :
    (∀ t, w.store.mapping? updates = some t → ∀ x ∈ t.values, w.store.Apart e b x rb) →
    Deed env e a b rb w (Scope.setState e a updates env w).2
  | evaluate {w : Session κ} (ev : Evaluation) (x : Expr) : ev.scope = a → ev.extras.IsEmpty w.store →
    w.Reads ev.source x → x.IsSelfContained →
    Deed env e a b rb w (Scope.evaluate e ev env w).2

abbrev Deeds (env : Env κ) (e : Nat) (a b rb : Value) : Session κ → Session κ → Prop :=
  Relation.ReflTransGen (Deed env e a b rb)

section Isolating

variable {env : Env κ} {e : Nat} {a b ra rb : Value} {w w' : Session κ} {R R' F : Ref → Prop}

namespace Store

variable {s : Store} {v u : Value} {scope : Value}

theorem Apart.separates (h : s.Apart e scope v u) (hF : ∀ {r}, F r → s.Reaches u r) :
    s.Separates e scope (s.Reaches v) F :=
  ⟨Reaches.closed h.there, fun hr hf => h.shared hr (hF hf), h.record⟩

theorem Separates.union (h : s.Separates e scope R F) (h' : s.Separates e scope R' F) :
    s.Separates e scope (fun r => R r ∨ R' r) F where
  closed := h.closed.union h'.closed
  shared hr := hr.elim h.shared h'.shared
  record hr := hr.elim h.record h'.record

/-- A region takes in everything that some values lead to. -/
theorem Separates.add (xs : List Value) (h : s.Separates e scope R F)
    (hxs : ∀ x ∈ xs, s.Apart e scope x u) (hF : ∀ {r}, F r → s.Reaches u r) :
    ∃ R', s.Separates e scope R' F ∧ (∀ {r}, R r → R' r) ∧ ∀ x ∈ xs, x.In R' := by
  induction xs with
  | nil => exact ⟨R, h, id, fun _ hx => by cases hx⟩
  | cons x xs ih =>
    obtain ⟨R', h', hR, hin⟩ := ih fun y hy => hxs y (List.mem_cons_of_mem x hy)
    refine ⟨_, h'.union ((hxs x List.mem_cons_self).separates hF), fun hr => .inl (hR hr), ?_⟩
    intro y hy
    rcases List.mem_cons.1 hy with rfl | hy
    · exact fun r hr => .inr (.here hr)
    · exact (hin y hy).mono .inl

end Store

namespace Fence

/-- The fence around a region at the beginning of a deed. -/
theorem kept_start (h : w.store.Separates e b R F) : (Fence.mk w R e b).Kept R w :=
  ⟨h.closed, .inl, fun hr => absurd rfl hr, h.record, rfl, fun _ => rfl, fun _ => rfl, fun _ => rfl, .rfl, .rfl⟩

variable {f : Fence κ} {S : List Value}

section

variable (hs : f.before.store.Separates f.engine f.scope f.inside F)
  (hF : ∀ {r}, F r → ∃ c, f.before.store.cell? r = some c)

include hs hF

/-- The fixed cells are as they were. -/
theorem Kept.untouched (h : f.Kept R w) {r : Ref} (hr : F r) :
    w.store.cell? r = f.before.store.cell? r := by
  refine Classical.byContradiction fun hne => ?_
  obtain ⟨hR, hc⟩ := h.changed hne
  obtain ⟨c, hb⟩ := hF hr
  rcases h.inside hR with hi | hn
  · have := hs.shared hi hr hb
    rw [hc c hb] at this
    cases this
  · rw [hn] at hb
    cases hb

/-- And still apart from the region. -/
theorem Kept.separates (h : f.Kept R w) : w.store.Separates f.engine f.scope R F where
  closed := h.closed
  record := h.record
  shared {r c} hr hf hc := by
    rw [h.untouched hs hF hf] at hc
    rcases h.inside hr with hi | hn
    · exact hs.shared hi hf hc
    · rw [hn] at hc
      cases hc

end

namespace StaysAt

variable [Carries α] {S : List Value}

/-- A scope that has a record is found at once. -/
theorem bind_find {k : Option (Value × Value) → Eff κ α} (ha : (w.engine e).records.get? a = some ra)
    (hk : ∀ found, found = none ∨ found = some (a, ra) → f.StaysAt env S w (k found)) :
    f.StaysAt env S w (Scope.find e a >>= k) := by
  have hfind : Scope.find e a env w = (.exhausted, w) ∨ ∃ found, (found = none ∨ found = some (a, ra)) ∧
      Scope.find e a env w = (.value found, w) := by
    change Scope.findFrom e env.budget [] a env w = _ ∨ ∃ found, _ ∧ Scope.findFrom e env.budget [] a env w = _
    cases env.budget with
    | zero => exact .inl rfl
    | succ n =>
      refine .inr ?_
      unfold Scope.findFrom
      split
      · exact ⟨none, .inl rfl, rfl⟩
      · refine ⟨some (a, ra), .inr rfl, ?_⟩
        rw [bind_engine, ha]
        rfl
  rcases hfind with hf | ⟨found, hfound, hf⟩
  · refine ⟨fun h => ?_⟩
    change f.Holds (given (Eff.bind _ k env w).1 ++ S) (Eff.bind _ k env w).2
    unfold Eff.bind
    rw [hf]
    exact h
  · exact bind_known hf rfl (fun _ => rfl) (hk found hfound)

end StaysAt

section Deeds

variable (henv : f.TakesOver env)

/-- What a mapping holds later on is in the region, if what it held before is. -/
theorem Kept.mapping_in (h : f.Kept R w) (hS : ∀ v ∈ S, v.In R) {updates : Value} {t : Mapping}
    (hu : ∀ t, f.before.store.mapping? updates = some t → ∀ x ∈ t.values, x ∈ S)
    (ht : w.store.mapping? updates = some t) : ∀ x ∈ t.values, x.In R := by
  intro x hx
  have hsame {r : Ref} (hr : ¬ R r) : w.store.cell? r = f.before.store.cell? r :=
    Classical.byContradiction fun hne => hr (h.changed hne).1
  have hread {v : Value} (hv : v.In R) (ht : w.store.mapping? v = some t) : x.In R :=
    (Store.Leads.head (S := [])).mapping ht (.inr hx) R h.closed
      fun u hu => List.mem_singleton.1 hu ▸ hv
  by_cases hin : updates.In R
  · exact hread hin ht
  · obtain ⟨r, rfl⟩ : ∃ r, updates = .ref r := by
      cases updates <;> simp only [Store.mapping?, Store.look, reduceCtorEq] at ht
      exact ⟨_, rfl⟩
    have hr : ¬ R r := fun hr => hin fun r' hr' => by cases hr'; exact hr
    cases hc : w.store.cell? r with
    | none => simp [Store.mapping?, Store.look, hc] at ht
    | some c =>
      have hb : f.before.store.cell? r = some c := (hsame hr).symm.trans hc
      cases c with
      | dict u =>
        simp only [Store.mapping?, Store.look, hc, Option.some.injEq] at ht
        subst ht
        exact hS x (hu u (by simp [Store.mapping?, Store.look, hb]) x hx)
      | record data hook =>
        by_cases hd : R data
        · refine hread (v := .ref data) (fun r' hr' => by cases hr'; exact hd) ?_
          simp only [Store.mapping?, Store.look, hc] at ht ⊢
          split at ht <;> cases ht
          next hdict => rw [hdict]
        · have hm : f.before.store.mapping? (.ref r) = some t := by
            simpa [Store.mapping?, Store.look, hc, hb, hsame hd] using ht
          exact hS x (hu t hm x hx)
      | _ => simp [Store.mapping?, Store.look, hc] at ht

include henv in
theorem Stays.setEach {v updates : Value} {data : Ref} {hook : Hook} [hv : Covers S v]
    (hr : f.before.store.look v = some (.record data hook))
    (hu : ∀ t, f.before.store.mapping? updates = some t → ∀ x ∈ t.values, x ∈ S) (size : Nat)
    (ks : List Value) : f.Stays env S (Scope.setEach data hook updates size ks : Eff κ Unit) := by
  induction ks with
  | nil =>
    unfold Scope.setEach
    refine Stays.bind_store fun w => ?_
    exact Stays.at_ (f := f) w
  | cons k ks ih =>
    unfold Scope.setEach
    refine Stays.bind_store fun w => .assume fun ⟨R, hR, hS⟩ => ?_
    dsimp only
    split
    · exact .raise
    · refine .bind (.contain ?_ fun _ w' => Stays.at_ (f := f) w') fun _ w' _ => ih.at_ w'
      have hrec : w.store.look v = some (.record data hook) := by
        cases v <;> simp only [Store.look, reduceCtorEq] at hr
        exact hR.same hr rfl
      refine .also (v := (((w.store.mapping? updates).getD .empty).get? k).getD .none) ?_ ?_
      · intro R' hR' hS'
        cases ht : w.store.mapping? updates with
        | none => exact Value.in_of_ref?_eq_none rfl
        | some t =>
          cases hx : t.get? k with
          | none => simpa [hx] using Value.in_of_ref?_eq_none rfl
          | some x =>
            simpa [hx] using hR'.mapping_in hS' hu ht x (Table.mem_values_of_get? hx)
      · exact .setPath henv hrec ((hv.leads _).mono fun _ => List.mem_cons_of_mem _) .head

include henv in
theorem StaysAt.setState {updates : Value}
    (ha : (w.engine e).records.get? a = some ra) (hw : w = f.before) (hra : ra ∈ S)
    (hu : ∀ t, f.before.store.mapping? updates = some t → ∀ x ∈ t.values, x ∈ S) :
    f.StaysAt env S w (Scope.setState e a updates : Eff κ Unit) := by
  refine .bind_find ha fun found hfound => ?_
  rcases hfound with rfl | rfl
  · exact Stays.at_ (f := f) w
  · refine .bind_store ?_
    have : Covers S ra := ⟨fun _ => .mem hra⟩
    split
    · next t data hook _ hr =>
      have hlook : f.before.store.look ra = some (.record data hook) := by
        rw [hw, Store.record?] at hr
        split at hr <;> cases hr
        next hl => exact hl
      exact (Stays.setEach henv hlook hu t.size t.keys).at_ w
    · exact Stays.at_ (f := f) w

theorem forM_notice (ns : List Notice) (env : Env κ) (w : Session κ) :
    ∃ j, (ns.forM notice : Eff κ PUnit) env w = (.value (), { w with journal := j }) := by
  induction ns generalizing w with
  | nil => exact ⟨w.journal, rfl⟩
  | cons n ns ih =>
    obtain ⟨j, hj⟩ := ih { w with journal := .notice n :: w.journal }
    exact ⟨j, hj⟩

theorem compileText_of_reads (env : Env κ) {name : String} {x : Expr}
    (h : w.compiled.get? name = some (some x) ∨
      w.compiled.get? name = none ∧ ∃ notices, Source.compile? name = .ok (some (x, notices))) :
    ∃ w', (Scope.compileText name : Eff κ (Option Expr)).attempt env w = (.value (.ok (some x)), w') ∧
      w'.store = w.store ∧ ∀ e, w'.engine e = w.engine e := by
  unfold Scope.compileText Eff.attempt
  rcases h with h | ⟨hn, notices, hc⟩
  · refine ⟨w, ?_, rfl, fun _ => rfl⟩
    rw [bind_read, h]
    rfl
  · obtain ⟨j, hj⟩ := forM_notice notices env w
    refine ⟨{ w with journal := j, compiled := w.compiled.insert name (some x) }, ?_, rfl, fun _ => rfl⟩
    rw [bind_read, hn]
    dsimp only
    rw [hc, bind_ofExcept_ok]
    dsimp only
    rw [bind_value hj]
    rfl

theorem compileValue_eq (raw : Value) (env : Env κ) (w : Session κ) :
    ∃ j, Scope.compileValue raw env w = (.value (Raw.ofValue w.store raw).compile.1, { w with journal := j }) := by
  obtain ⟨j, hj⟩ := forM_notice (Raw.ofValue w.store raw).compile.2 env w
  refine ⟨j, ?_⟩
  unfold Scope.compileValue
  rw [bind_store]
  dsimp only
  rw [bind_value hj]
  rfl

include henv in
/-- Evaluating without capabilities, against a record that was there from the beginning. -/
theorem StaysAt.evaluate {ev : Evaluation} {x : Expr} (hk : f.Knows ra)
    (ha : (w.engine e).records.get? ev.scope = some ra) (hra : ra ∈ S)
    (hempty : ev.extras.IsEmpty w.store) (hreads : w.Reads ev.source x) (hx : x.IsSelfContained) :
    f.StaysAt env S w (Scope.evaluate e ev : Eff κ Value) := by
  have : Covers S ra := ⟨fun _ => .mem hra⟩
  refine .bind_find ha fun found hfound => ?_
  rcases hfound with rfl | rfl
  · exact Stays.at_ (f := f) w
  · have hcap : Capabilities.ofExtras ev.extras env w = (.value {}, w) := by
      cases hex : ev.extras with
      | capabilities c =>
        rw [hex] at hempty
        cases hempty
        rfl
      | mapping v =>
        rw [hex] at hempty
        have hv : (truthy v : Eff κ Bool) env w = (.value false, w) :=
          congrArg (fun b => (Outcome.value b, w)) hempty
        unfold Capabilities.ofExtras
        dsimp only
        rw [bind_value hv]
        rfl
    refine .bind_known hcap rfl (fun _ => rfl) (.contain ?_ fun _ w' => Stays.at_ (f := f) w')
    refine .bind_read ?_
    have heval (pub : Value) (w' : Session κ) :
        f.StaysAt env S w' (Evaluation.eval ⟨ra, {}, pub⟩ x : Eff κ Value) :=
      have := evaluates (c := ⟨ra, {}, pub⟩) henv hk rfl hx
      Stays.at_ (f := f) w'
    unfold Session.Reads at hreads
    dsimp only
    split
    · next t ht =>
      rw [ht] at hreads
      obtain ⟨w', hw', hs, he⟩ := compileText_of_reads env hreads
      exact .bind_known hw' hs he (heval _ w')
    · next ht =>
      rw [ht] at hreads
      obtain ⟨j, hj⟩ := compileValue_eq ev.source env w
      rw [hreads] at hj
      exact .bind_known hj rfl (fun _ => rfl) (heval _ _)

end Deeds

end Fence

/-- A deed stays within a fence around a region that the state of `a` is in. -/
theorem Deed.fenced (h : Deed env e a b rb w w') (ha : (w.engine e).records.get? a = some ra)
    (hrec : ∃ r data hook, ra = .ref r ∧ w.store.cell? r = some (.record data hook)) (hra : ra.In R)
    (hs : w.store.Separates e b R F) (hF : ∀ {r}, F r → w.store.Reaches rb r)
    (henv : ∀ {e p}, (w.engine e).queue.sink = some p → ∀ args v,
      (env.call (.fn p) args v).2.store = v.store ∧ (env.call (.fn p) args v).2.engines = v.engines) :
    ∃ R₁ R₂, w.store.Separates e b R₁ F ∧ (Fence.mk w R₁ e b).Kept R₂ w' ∧ ra.In R₂ := by
  cases h with
  | setState updates hu =>
    obtain ⟨R₁, hs₁, hR, hin⟩ := hs.add (((w.store.mapping? updates).map Table.values).getD [])
      (fun x hx => by
        cases ht : w.store.mapping? updates with
        | none => simp [ht] at hx
        | some t =>
          rw [ht] at hx
          exact hu t ht x hx) hF
    have hstays : (Fence.mk w R₁ e b).StaysAt env
        (ra :: ((w.store.mapping? updates).map Table.values).getD []) w (Scope.setState e a updates) :=
      .setState henv ha rfl List.mem_cons_self fun t ht x hx => List.mem_cons_of_mem _ (by rw [ht]; exact hx)
    obtain ⟨R₂, hR₂, hS⟩ := hstays.stays ⟨R₁, Fence.kept_start hs₁, fun v hv =>
      (List.mem_cons.1 hv).elim (fun hv => hv ▸ hra.mono hR) (hin v)⟩
    exact ⟨R₁, R₂, hs₁, hR₂, hS ra (List.mem_append_right _ List.mem_cons_self)⟩
  | evaluate ev x hev hempty hreads hx =>
    have hstays : (Fence.mk w R e b).StaysAt env [ra] w (Scope.evaluate e ev) :=
      .evaluate henv hrec (hev ▸ ha) List.mem_cons_self hempty hreads hx
    obtain ⟨R₂, hR₂, hS⟩ := hstays.stays ⟨R, Fence.kept_start hs, fun v hv =>
      List.mem_singleton.1 hv ▸ hra⟩
    exact ⟨R, R₂, hs, hR₂, hS ra (List.mem_append_right _ List.mem_cons_self)⟩

/-- Cells are as they were, and so are the records of all scopes and the marks of one. -/
structure Session.Spares (w₀ w : Session κ) (e : Nat) (b : Value) (F : Ref → Prop) : Prop where
  cell : ∀ {r}, F r → w.store.cell? r = w₀.store.cell? r
  attached : w.store.attached = w₀.store.attached
  records : ∀ e, (w.engine e).records = (w₀.engine e).records
  sink : ∀ e, (w.engine e).queue.sink = (w₀.engine e).queue.sink
  pending : b ∈ (w.engine e).scheduler.pending ↔ b ∈ (w₀.engine e).scheduler.pending
  deferred : b ∈ (w.engine e).scheduler.deferred ↔ b ∈ (w₀.engine e).scheduler.deferred

/-- What all deeds keep: the state of `a` is in a region apart from that of `b`, which is left alone. -/
theorem Deeds.spares (h : Deeds env e a b rb w w') (ha : (w.engine e).records.get? a = some ra)
    (hrec : ∃ r data hook, ra = .ref r ∧ w.store.cell? r = some (.record data hook))
    (hapart : w.store.Apart e b ra rb) (hthere : ∀ {r}, w.store.Reaches rb r → ∃ c, w.store.cell? r = some c)
    (henv : ∀ {e p}, (w.engine e).queue.sink = some p → ∀ args v,
      (env.call (.fn p) args v).2.store = v.store ∧ (env.call (.fn p) args v).2.engines = v.engines) :
    w.Spares w' e b (w.store.Reaches rb) ∧
      ∃ R, w'.store.Separates e b R (w.store.Reaches rb) ∧ ra.In R ∧
        ∃ r data hook, ra = .ref r ∧ w'.store.cell? r = some (.record data hook) := by
  induction h with
  | refl =>
    exact ⟨⟨fun _ => rfl, rfl, fun _ => rfl, fun _ => rfl, .rfl, .rfl⟩, _, hapart.separates id,
      fun _ hr => .here hr, hrec⟩
  | tail _ hd ih =>
    obtain ⟨hsp, R, hs, hin, hrec'⟩ := ih
    have hF {r : Ref} (hr : w.store.Reaches rb r) := hr.congr hsp.attached fun _ => hsp.cell
    have hF' {r : Ref} (hr : w.store.Reaches rb r) := (hthere hr).imp fun _ hc => (hsp.cell hr).trans hc
    obtain ⟨R₁, R₂, hs₁, hk, hin₂⟩ := hd.fenced (by rw [hsp.records]; exact ha) hrec' hin hs hF
      fun hp => henv ((hsp.sink _).symm.trans hp)
    refine ⟨⟨fun hr => (hk.untouched hs₁ hF' hr).trans (hsp.cell hr), hk.attached.trans hsp.attached,
      fun x => (hk.records x).trans (hsp.records x), fun x => (hk.sink x).trans (hsp.sink x),
      hk.pending.trans hsp.pending, hk.deferred.trans hsp.deferred⟩, R₂, hk.separates hs₁ hF', hin₂, ?_⟩
    obtain ⟨r, data, hook, hr, hc⟩ := hrec'
    exact ⟨r, data, hook, hr, hk.same hc rfl⟩

section Initialising

namespace Build.Within

variable {S : List Value}

mutual

/-- Building from a text takes nothing from the store. -/
theorem ofJson (S : List Value) : ∀ j : Json, Within S (Build.ofJson j)
  | .null => by unfold Build.ofJson; infer_instance
  | .bool b => by unfold Build.ofJson; infer_instance
  | .int i => by unfold Build.ofJson; infer_instance
  | .float x => by
    unfold Build.ofJson
    refine ⟨fun s => .value (.bare ?_)⟩
    unfold Value.ofFloat
    split <;> rfl
  | .str t => by unfold Build.ofJson; infer_instance
  | .arr items => by
    unfold Build.ofJson
    exact ⟨fun s => .bind ((ofItems S items).at_ s) fun vs s' _ =>
      .alloc rfl fun u hu => .mem (List.mem_append_left S hu)⟩
  | .obj fields => by
    unfold Build.ofJson
    refine ⟨fun s => .bind ((ofFields S fields).at_ s) fun fs s' _ => .alloc rfl fun u hu => ?_⟩
    exact (Fence.parts_ofFields hu).elim .bare fun hu => .mem (List.mem_append_left S hu)

theorem ofItems (S : List Value) : ∀ js : List Json, Within S (Build.ofItems js)
  | [] => by
    unfold Build.ofItems
    exact ⟨fun s => .pure fun _ hu => by cases hu⟩
  | j :: js => by
    unfold Build.ofItems
    refine ⟨fun s => .bind ((ofJson S j).at_ s) fun v s' _ =>
      .bind ((ofItems _ js).at_ s') fun vs s'' _ => .pure fun u hu => .mem ?_⟩
    rcases List.mem_cons.1 hu with rfl | hu
    · exact List.mem_append_right _ List.mem_cons_self
    · exact List.mem_append_left _ hu

theorem ofFields (S : List Value) : ∀ fs : List (String × Json), Within S (Build.ofFields fs)
  | [] => by
    unfold Build.ofFields
    exact ⟨fun s => .pure fun _ hu => by cases hu⟩
  | (k, j) :: fs => by
    unfold Build.ofFields
    refine ⟨fun s => .bind ((ofJson S j).at_ s) fun v s' _ =>
      .bind ((ofFields _ fs).at_ s') fun vs s'' _ => .pure fun u hu => .mem ?_⟩
    rcases List.mem_cons.1 hu with rfl | hu
    · exact List.mem_append_right _ List.mem_cons_self
    · exact List.mem_append_left _ hu

end

end Build.Within

variable {initial record : Value} {scope : Value}

/-- The same store with more in it: plain data, and records that are told to one hook. The larger
region names what was there before only where the smaller one does. -/
structure Store.Gains (s s' : Store) (R R' : Ref → Prop) (hook : Hook) : Prop where
  closed : s'.Closed R'
  kept : ∀ {r}, R r → R' r
  fresh : ∀ {r}, R' r → R r ∨ s.cell? r = none
  old : ∀ {r c}, s.cell? r = some c → s'.cell? r = some c
  attached : s'.attached = s.attached
  record : ∀ {r data h}, s'.cell? r = some (.record data h) → s.cell? r = some (.record data h) ∨
    h = hook ∧ ∃ t, s'.cell? data = some (.dict t)

namespace Store.Gains

variable {s s' s'' : Store} {R'' : Ref → Prop} {hook : Hook}

theorem of_grows (h : s.Grows s' R R') : s.Gains s' R R' hook :=
  ⟨h.closed, h.kept, h.fresh, h.more.kept, h.more.attached, fun hc => .inl (h.more.object hc rfl)⟩

theorem trans (h : s.Gains s' R R' hook) (h' : s'.Gains s'' R' R'' hook) : s.Gains s'' R R'' hook where
  closed := h'.closed
  kept hr := h'.kept (h.kept hr)
  fresh hr := (h'.fresh hr).elim h.fresh fun hn => .inr (none_of_kept h.old hn)
  old hc := h'.old (h.old hc)
  attached := h'.attached.trans h.attached
  record hc := by
    rcases h'.record hc with hc | hc
    · rcases h.record hc with hc | ⟨rfl, t, ht⟩
      · exact .inl hc
      · exact .inr ⟨rfl, t, h'.old ht⟩
    · exact .inr hc

/-- A new record for a dictionary of the region. -/
theorem record_of {data : Ref} {t : Mapping} (h : s.Closed R) (hd : R data)
    (hc : s.cell? data = some (.dict t)) :
    s.Gains (s.alloc (.record data hook)).2 R (fun r => R r ∨ r = (s.alloc (.record data hook)).1)
      hook where
  closed := h.alloc fun v hv => by
    cases List.mem_singleton.1 hv
    exact fun r hr => by cases hr; exact hd
  kept := .inl
  fresh hr := hr.imp_right fun hr => by rw [hr]; simp [Store.alloc, cell?]
  old hc := by rwa [cell?_alloc_old (Array.getElem?_eq_some_iff.1 hc).1]
  attached := rfl
  record {r d h} hr := by
    by_cases hnew : r = (s.alloc (.record data hook)).1
    · rw [hnew, cell?_alloc_new] at hr
      cases hr
      exact .inr ⟨rfl, t, by rwa [cell?_alloc_old (Array.getElem?_eq_some_iff.1 hc).1]⟩
    · rw [cell?_alloc_ne hnew] at hr
      exact .inl hr

end Store.Gains

/-- What a text declares is made of new cells. -/
theorem Scope.built_in {fields : List (String × Json)} {t : Mapping}
    (h : (do return .ok (Mapping.ofFields (← build (Build.ofFields fields))) :
      Eff κ (Except Fault Mapping)) env w = (.value (.ok t), w')) (hR : w.store.Closed R) :
    ∃ R', w.store.Grows w'.store R R' ∧ (∀ x ∈ (Cell.dict t).parts, x.In R') ∧
      ∀ e, w'.engine e = w.engine e := by
  change Eff.bind (build (Build.ofFields fields)) _ env w = _ at h
  unfold Eff.bind build at h
  cases hb : Build.ofFields fields w.store with
  | error f => simp [hb] at h
  | ok p =>
    simp only [hb] at h
    cases h
    obtain ⟨R', hg, hin⟩ := ((Build.Within.ofFields [] fields).at_ w.store).keeps hR (fun _ hv => by cases hv) hb
    exact ⟨R', hg, fun x hx => (Fence.parts_ofFields hx).elim Value.in_of_ref?_eq_none (hin x), fun _ => rfl⟩

theorem Scope.parsed_in {fields : Except Fault (List (String × Json))} {t : Mapping}
    (h : (match fields with
      | .error f => return .error f
      | .ok fields => do return .ok (Mapping.ofFields (← build (Build.ofFields fields))) :
        Eff κ (Except Fault Mapping)) env w = (.value (.ok t), w')) (hR : w.store.Closed R) :
    ∃ R', w.store.Grows w'.store R R' ∧ (∀ x ∈ (Cell.dict t).parts, x.In R') ∧
      ∀ e, w'.engine e = w.engine e := by
  cases fields with
  | error f => cases h
  | ok fields => exact built_in h hR

/-- What a mapping declares is what it leads to. -/
theorem Scope.copied_in {t : Mapping}
    (h : (if initial.isNone then return .ok .empty
      else match w.store.mapping? initial with
        | some t => return .ok t
        | none => return .error .invalid : Eff κ (Except Fault Mapping)) env w = (.value (.ok t), w'))
    (hR : w.store.Closed R) (hi : initial.In R) :
    ∃ R', w.store.Grows w'.store R R' ∧ (∀ x ∈ (Cell.dict t).parts, x.In R') ∧
      ∀ e, w'.engine e = w.engine e := by
  cases hn : initial.isNone with
  | true =>
    simp only [hn, if_true] at h
    cases h
    exact ⟨R, .refl hR, fun _ hx => (by cases hx), fun _ => rfl⟩
  | false =>
    cases ht : w.store.mapping? initial with
    | none =>
      simp only [hn, ht] at h
      cases h
    | some u =>
      simp only [hn, ht] at h
      cases h
      refine ⟨R, .refl hR, fun x hx => ?_, fun _ => rfl⟩
      exact (Store.Leads.head (S := [])).mapping ht (List.mem_append.1 hx) R hR
        fun u hu => List.mem_singleton.1 hu ▸ hi

/-- The data of a declaration name what the declaration leads to, and new cells. -/
theorem Scope.initialData_in {t : Mapping} (h : initialData initial env w = (.value (.ok t), w'))
    (hR : w.store.Closed R) (hi : initial.In R) :
    ∃ R', w.store.Grows w'.store R R' ∧ (∀ x ∈ (Cell.dict t).parts, x.In R') ∧
      ∀ e, w'.engine e = w.engine e := by
  unfold initialData at h
  rw [bind_store] at h
  dsimp only at h
  cases ht : initial.text? with
  | some text => simp only [ht] at h; exact parsed_in h hR
  | none =>
    cases hl : w.store.look initial with
    | none => simp only [ht, hl] at h; exact copied_in h hR hi
    | some c =>
      cases c with
      | bytes b => simp only [ht, hl] at h; exact parsed_in h hR
      | _ => simp only [ht, hl] at h; exact copied_in h hR hi

/-- A record with its data. -/
theorem Scope.make_in {t : Mapping} {hook : Hook} (h : Record.make t hook env w = (.value record, w'))
    (hR : w.store.Closed R) (ht : ∀ x ∈ (Cell.dict t).parts, x.In R) :
    ∃ R', w.store.Gains w'.store R R' hook ∧ record.In R' ∧ ∀ e, w'.engine e = w.engine e := by
  change (alloc (.dict t) >>= _) env w = _ at h
  have ha : (alloc (.dict t) : Eff κ Value) env w =
      (.value (.ref (w.store.alloc (.dict t)).1), { w with store := (w.store.alloc (.dict t)).2 }) := rfl
  rw [bind_value ha] at h
  cases h
  refine ⟨_, (Store.Gains.of_grows (.alloc hR (c := .dict t) rfl ht)).trans
    (.record_of (hR.alloc ht) (.inr rfl) Store.cell?_alloc_new), fun r hr => ?_, fun _ => rfl⟩
  cases hr
  exact .inr rfl

/-- Initialising makes a record out of new cells and of what the declaration leads to. -/
theorem Scope.init_in (hn : (w.engine e).records.get? scope = none)
    (h : init e scope initial env w = (.value record, w')) (hr : record ≠ .none)
    (hthere : ∀ r, w.store.Reaches initial r → ∃ c, w.store.cell? r = some c) :
    ∃ R', w.store.Gains w'.store (w.store.Reaches initial) R' (.schedule e scope) ∧ record.In R' := by
  unfold init at h
  rw [bind_engine, hn] at h
  obtain ⟨declared, w₁, hdata, h⟩ := value_of_bind h
  cases declared with
  | error f =>
    obtain ⟨_, _, -, h⟩ := value_of_bind h
    cases h
    exact absurd rfl hr
  | ok t =>
    obtain ⟨R₁, hg₁, ht, -⟩ := initialData_in hdata (Store.Reaches.closed hthere)
      fun r hr => .here hr
    obtain ⟨made, w₂, hmake, h⟩ := value_of_bind h
    obtain ⟨R₂, hg₂, hmade, -⟩ := make_in hmake hg₁.closed ht
    have hg := (Store.Gains.of_grows hg₁).trans hg₂
    have hparts : ∀ x ∈ (Cell.dict t).parts, x.In R₂ := fun x hx => (ht x hx).mono hg₂.kept
    obtain ⟨_, w₃, hinsert, h⟩ := value_of_bind h
    have hs : w₃.store = w₂.store := by cases hinsert; rfl
    rw [bind_engine] at h
    obtain ⟨debug, w₄, htruthy, h⟩ := value_of_bind h
    have hs' : w₄.store = w₂.store := by cases htruthy; exact hs
    cases debug with
    | false =>
      cases h
      exact ⟨R₂, hs' ▸ hg, hmade⟩
    | true =>
      have hshown : w'.store = (w₄.store.alloc (.dict t)).2 ∧ made = record := by
        cases h
        exact ⟨rfl, rfl⟩
      obtain ⟨hw', rfl⟩ := hshown
      have hg₃ := (hs' ▸ hg).trans (.of_grows (.alloc (c := .dict t) (hs' ▸ hg).closed rfl hparts))
      exact ⟨_, hw' ▸ hg₃, hmade.mono .inl⟩

variable {e' : Nat} {v u : Value}

/-- The record of a scope is apart from whatever its declaration is apart from. -/
theorem Scope.init_apart (hn : (w.engine e').records.get? scope = none)
    (h : init e' scope initial env w = (.value record, w')) (hr : record ≠ .none)
    (hother : ¬ (e' = e ∧ scope = b)) (hapart : w.store.Apart e b initial u)
    (hthere : ∀ r, w.store.Reaches u r → ∃ c, w.store.cell? r = some c) :
    w'.store.Apart e b record u := by
  obtain ⟨R', hg, hin⟩ := init_in hn h hr hapart.there
  have hreach {r : Ref} {c : Cell} (hr : w'.store.Reaches record r) (hc : w.store.cell? r = some c) :
      w.store.Reaches initial r :=
    (hg.fresh (hr.inside hg.closed hin)).resolve_right fun hn => by rw [hn] at hc; cases hc
  refine ⟨fun r hr => ?_, fun {r c} hr hu hc => ?_, fun {r data hook} hr hc => ?_⟩
  · exact ⟨_, Array.getElem?_eq_getElem (hg.closed.bound (hr.inside hg.closed hin))⟩
  · have hu := hu.of_kept hthere hg.old hg.attached
    obtain ⟨d, hd⟩ := hthere r hu
    rw [hg.old hd] at hc
    cases hc
    exact hapart.shared (hreach hr hd) hu hd
  · rcases hg.record hc with hc | ⟨rfl, hdict⟩
    · exact (hapart.record (hreach hr hc) hc).imp_left fun ⟨t, ht⟩ => ⟨t, hg.old ht⟩
    · exact ⟨hdict, .inr ⟨e', scope, rfl, hother⟩⟩

/-- What is apart from a declaration is apart from the record that is made of it. -/
theorem Scope.apart_init (hn : (w.engine e').records.get? scope = none)
    (h : init e' scope initial env w = (.value record, w')) (hr : record ≠ .none)
    (hapart : w.store.Apart e b v initial)
    (hthere : ∀ r, w.store.Reaches initial r → ∃ c, w.store.cell? r = some c) :
    w'.store.Apart e b v record := by
  obtain ⟨R', hg, hin⟩ := init_in hn h hr hthere
  have hreach {r : Ref} (hr : w'.store.Reaches v r) : w.store.Reaches v r :=
    hr.of_kept hapart.there hg.old hg.attached
  have hcell {r : Ref} {c : Cell} (hr : w'.store.Reaches v r) (hc : w'.store.cell? r = some c) :
      w.store.cell? r = some c := by
    obtain ⟨d, hd⟩ := hapart.there r (hreach hr)
    rwa [← hc, hg.old hd]
  refine ⟨fun r hr => (hapart.there r (hreach hr)).imp fun _ => hg.old, fun {r c} hr hu hc => ?_,
    fun {r data hook} hr hc => ?_⟩
  · have hold := hcell hr hc
    refine hapart.shared (hreach hr) ?_ hold
    exact (hg.fresh (hu.inside hg.closed hin)).resolve_right fun hn => by rw [hn] at hold; cases hold
  · exact (hapart.record (hreach hr) (hcell hr hc)).imp_left fun ⟨t, ht⟩ => ⟨t, hg.old ht⟩

end Initialising

/-- A scope whose declaration has no list or dictionary in common with what another scope leads to, or the
other way round, has none in common with it when it is initialised. As long as it is so, nothing that
is done to the one scope changes what the other one leads to, or marks it. -/
theorem scopes_are_isolated (env : Env κ) (e : Nat) (b : Value) :
    (∀ (w w' : Session κ) (e' : Nat) (scope initial record : Value),
      (w.engine e').records.get? scope = none →
      Scope.init e' scope initial env w = (.value record, w') → record ≠ .none →
      (∀ r, w.store.Reaches initial r → ∃ c, w.store.cell? r = some c) →
        (¬ (e' = e ∧ scope = b) → ∀ u, w.store.Apart e b initial u →
          (∀ r, w.store.Reaches u r → ∃ c, w.store.cell? r = some c) →
          w'.store.Apart e b record u) ∧
        ∀ v, w.store.Apart e b v initial → w'.store.Apart e b v record) ∧
    ∀ (w w' : Session κ) (a ra rb : Value),
      (w.engine e).records.get? a = some ra → (w.engine e).records.get? b = some rb →
      (w.store.record? ra).isSome → w.store.Apart e b ra rb →
      (∀ r, w.store.Reaches rb r → ∃ c, w.store.cell? r = some c) →
      (∀ e p, (w.engine e).queue.sink = some p → ∀ args v,
        (env.call (.fn p) args v).2.store = v.store ∧
          (env.call (.fn p) args v).2.engines = v.engines) →
      Deeds env e a b rb w w' →
        (∀ r, w.store.Reaches rb r → w'.store.cell? r = w.store.cell? r) ∧
        (w'.engine e).records.get? b = some rb ∧
        (b ∈ (w'.engine e).scheduler.pending ↔ b ∈ (w.engine e).scheduler.pending) ∧
        (b ∈ (w'.engine e).scheduler.deferred ↔ b ∈ (w.engine e).scheduler.deferred) := by
  refine ⟨fun w w' e' scope initial record hn h hr hthere =>
    ⟨fun hother u hapart hu => Scope.init_apart hn h hr hother hapart hu,
      fun v hapart => Scope.apart_init hn h hr hapart hthere⟩, ?_⟩
  intro w w' a ra rb ha hb hrec hapart hthere henv h
  have hrec' : ∃ r data hook, ra = .ref r ∧ w.store.cell? r = some (.record data hook) := by
    unfold Store.record? at hrec
    split at hrec
    · next data hook hl =>
      cases ra <;> simp only [Store.look, reduceCtorEq] at hl
      exact ⟨_, data, hook, rfl, hl⟩
    · cases hrec
  obtain ⟨hsp, -⟩ := h.spares ha hrec' hapart (hthere _) (henv _ _)
  exact ⟨fun r hr => hsp.cell hr, by rw [hsp.records]; exact hb, hsp.pending, hsp.deferred⟩

end Isolating

-- Two scopes with the same declaration: as a text, and as a mapping with a dictionary in it.
namespace Twins

def a : Value := .scope "a"

def b : Value := .scope "b"

def env : Env Unit := Env.within (fun _ => { body := fun _ => .done .none }) 5

/-- What is merged, an expression that writes, and the mapping with the dictionary in it. -/
def start : Session Unit where
  memory := ()
  store := { cells := #[.dict (.ofFields [("user.name", .text "y")]),
    .list [.text "toggle", .text "user.new"], .dict (.ofFields [("name", .text "x")]),
    .dict (.ofFields [("user", .ref ⟨2⟩)])] }

def text : Value := .text "\x7b\"user\": \x7b\"name\": \"x\"\x7d\x7d"

def mapping : Value := .ref ⟨3⟩

def one (declaration : Value) : Session Unit := (Scope.init 0 a declaration env start).2

def both (declaration : Value) : Session Unit := (Scope.init 0 b declaration env (one declaration)).2

def merged (declaration : Value) : Session Unit :=
  (Scope.setState 0 a (.ref ⟨0⟩) env (both declaration)).2

def toggled (declaration : Value) : Session Unit :=
  (Scope.evaluate 0 { scope := a, source := .ref ⟨1⟩ } env (merged declaration)).2

theorem apart_bare {s : Store} {v u : Value} (hv : v.ref? = none) (hs : s.attached = .empty) :
    s.Apart 0 b v u :=
  ⟨fun _ h => absurd h (Store.Reaches.nowhere hv hs), fun h => absurd h (Store.Reaches.nowhere hv hs),
    fun h => absurd h (Store.Reaches.nowhere hv hs)⟩

theorem attached : (one text).store.attached = .empty ∧ (both text).store.attached = .empty := by
  decide +kernel

theorem reads {s : Store} (h : s.sequence? (.ref ⟨1⟩) = some [.text "toggle", .text "user.new"]) :
    (Raw.ofValue s (.ref ⟨1⟩)).compile.1 = .apply .toggle [.literal (.text "user.new")] := by
  obtain ⟨n, hn⟩ : ∃ n, s.cells.size = n + 1 := by
    cases hs : s.cells.size with
    | zero => simp [Store.sequence?, Store.look, Store.cell?, hs] at h
    | succ n => exact ⟨n, rfl⟩
  unfold Store.sequence? at h
  split at h <;> cases h
  all_goals
    next hl =>
    simp only [Raw.ofValue, Store.depth, hn, Raw.ofValueWithin, hl]
    rfl

theorem deeds : Deeds env 0 a b (.ref ⟨9⟩) (both text) (toggled text) := by
  have bare : ∀ t, (both text).store.mapping? (.ref ⟨0⟩) = some t → ∀ x ∈ t.values,
      (both text).store.Apart 0 b x (.ref ⟨9⟩) := by
    intro t ht x hx
    have hb : ((both text).store.mapping? (.ref ⟨0⟩)).all fun t => t.values.all (·.ref? = none) := by
      decide +kernel
    rw [ht] at hb
    exact apart_bare (by simpa using List.all_eq_true.1 hb x hx) attached.2
  refine .tail (.single (.setState (.ref ⟨0⟩) bare)) (.evaluate
    { scope := a, source := .ref ⟨1⟩ } (.apply .toggle [.literal (.text "user.new")]) rfl rfl
    (reads (by decide +kernel)) ?_)
  exact .apply (.inr (.inr rfl)) fun e he => List.mem_singleton.1 he ▸ .literal rfl

/-- No engine has a post function. -/
theorem unposted (e : Nat) (p : Fn) : ((both text).engine e).queue.sink ≠ some p := by
  have hkeys : (both text).engines.keys = [0] := by decide +kernel
  have hsink : ((both text).engine 0).queue.sink = none := by decide +kernel
  cases hx : (both text).engines.get? e with
  | none => simp [Session.engine, hx]
  | some x =>
    have he : e ∈ (both text).engines.keys := List.mem_map_of_mem (Table.mem_of_lookIn hx)
    rw [hkeys] at he
    cases List.mem_singleton.1 he
    simp [hsink]

end Twins

theorem scopes_are_isolated_twins :
    (∀ r, (Twins.both Twins.text).store.Reaches (.ref ⟨9⟩) r →
      (Twins.toggled Twins.text).store.cell? r = (Twins.both Twins.text).store.cell? r) ∧
    Twins.b ∉ ((Twins.toggled Twins.text).engine 0).scheduler.pending ∧
    (Twins.toggled Twins.text).store.mapping? (.ref ⟨4⟩) ≠ (Twins.both Twins.text).store.mapping? (.ref ⟨4⟩) := by
  have isolated := scopes_are_isolated Twins.env 0 Twins.b
  have hfst : (Scope.init 0 Twins.a Twins.text Twins.env Twins.start).1 = .value (.ref ⟨6⟩) ∧
      (Scope.init 0 Twins.b Twins.text Twins.env (Twins.one Twins.text)).1 = .value (.ref ⟨9⟩) := by
    decide +kernel
  have hone : Scope.init 0 Twins.a Twins.text Twins.env Twins.start =
      (.value (.ref ⟨6⟩), Twins.one Twins.text) := by
    rw [Twins.one, ← hfst.1]
  have hboth : Scope.init 0 Twins.b Twins.text Twins.env (Twins.one Twins.text) =
      (.value (.ref ⟨9⟩), Twins.both Twins.text) := by
    rw [Twins.both, ← hfst.2]
  have nowhere {s : Store} (hs : s.attached = .empty) :
      ∀ r, s.Reaches Twins.text r → ∃ c, s.cell? r = some c :=
    fun r hr => absurd hr (Store.Reaches.nowhere rfl hs)
  have hfirst := (isolated.1 _ _ 0 Twins.a Twins.text _ rfl hone (by decide) (nowhere rfl)).1 (by decide)
    Twins.text (Twins.apart_bare rfl rfl) (nowhere rfl)
  have hsecond := (isolated.1 _ _ 0 Twins.b Twins.text _ (by decide +kernel) hboth (by decide)
    (nowhere Twins.attached.1)).2 _ hfirst
  have hwhole : (Twins.both Twins.text).store.isWhole := by decide +kernel
  have hthere : ∀ r, (Twins.both Twins.text).store.Reaches (.ref ⟨9⟩) r →
      ∃ c, (Twins.both Twins.text).store.cell? r = some c := fun r hr =>
    ⟨_, Array.getElem?_eq_getElem (hr.inside (Store.closed_of_isWhole hwhole) fun r hr => by
      cases hr
      decide +kernel)⟩
  obtain ⟨hcells, -, hpending, -⟩ := isolated.2 _ _ Twins.a (.ref ⟨6⟩) (.ref ⟨9⟩) (by decide +kernel)
    (by decide +kernel) (by decide +kernel) hsecond hthere
    (fun e p hp => absurd hp (Twins.unposted e p)) Twins.deeds
  have hasleep : Twins.b ∉ ((Twins.both Twins.text).engine 0).scheduler.pending := by decide +kernel
  exact ⟨hcells, fun h => hasleep (hpending.1 h), by decide +kernel⟩

/-- A dictionary inside of the mapping that both scopes are initialised from: merging a text into the
state of `a` changes that of `b`, and nobody is told. -/
theorem shared_declaration_leaks :
    (Scope.init 0 Twins.a Twins.mapping Twins.env Twins.start).1 = .value (.ref ⟨5⟩) ∧
    (Scope.init 0 Twins.b Twins.mapping Twins.env (Twins.one Twins.mapping)).1 = .value (.ref ⟨7⟩) ∧
    ((Twins.both Twins.mapping).store.getPath (.ref ⟨7⟩) (.text "user.name")).toOption =
      some (.text "x") ∧
    ((Twins.merged Twins.mapping).store.getPath (.ref ⟨7⟩) (.text "user.name")).toOption =
      some (.text "y") ∧
    Twins.b ∉ ((Twins.merged Twins.mapping).engine 0).scheduler.pending := by
  decide +kernel

end ReactiveScopes
