import ReactiveScopes.Expr.Evaluation
import ReactiveScopes.Proofs.Parallel

/-!
# Writing in parallel

Records, lists and dictionaries are written in step in two sessions that differ in their stores only, and
these resemble each other; so are the reports of the writes. Client code that is called goes in step if it
cannot tell such sessions apart.
-/
namespace ReactiveScopes

variable {A : Ref → Ref → Prop}

theorem forall₂_set {α β : Type} {P : α → β → Prop} {xs : List α} {ys : List β}
    (h : List.Forall₂ P xs ys) (i : Nat) {a : α} {b : β} (hp : P a b) :
    List.Forall₂ P (xs.set i a) (ys.set i b) := by
  induction h generalizing i with
  | nil => exact .nil
  | cons hx hxs ih =>
    cases i with
    | zero => exact .cons hp hxs
    | succ i => exact .cons hx (ih i)

namespace Store.Resembles

variable {s s' : Store} {a a' : Value} (h : s.Resembles A s')

include h

theorem lt_iff {r r' : Ref} (hr : A r r') : r.index < s.cells.size ↔ r'.index < s'.cells.size := by
  rw [h.size]
  by_cases hl : r.index < s.cells.size
  · refine ⟨fun _ => by_contra fun hl' => ?_, fun _ => hl⟩
    exact absurd (h.unique.1 hr (h.fresh (Nat.le_of_not_lt hl'))) fun he => hl' (he ▸ hl)
  · rw [h.unique.2 hr (h.fresh (Nat.le_of_not_lt hl))]

/-- Plain data take the place of related cells. -/
theorem put {r r' : Ref} {c d : Cell} (hr : A r r') (hd : c.isData) (hc : c.Resembles A d) :
    (s.put r c).Resembles A (s'.put r' d) := by
  have hsize (t : Store) (x : Ref) (e : Cell) : (t.put x e).cells.size = t.cells.size := by
    simp [Store.put]
  have hout {t : Store} {x : Ref} {e : Cell} (hx : ¬ x.index < t.cells.size) : t.put x e = t := by
    simp only [Store.put, Array.setIfInBounds, dif_neg hx]
  by_cases hl : r.index < s.cells.size
  · refine ⟨h.unique, fun {x} hx => h.fresh (hsize s r c ▸ hx), by rw [hsize, hsize, h.size],
      fun {x x'} hx => ?_, fun {v v' name} hn hv hk => h.attached hn hv (hk.imp_right ?_), h.awaitables,
      h.marks⟩
    · rw [Store.cell?_put hl, Store.cell?_put ((h.lt_iff hr).1 hl)]
      by_cases he : r = x
      · subst he
        rw [if_pos rfl, if_pos (h.unique.2 hr hx)]
        exact .some hc
      · have he' : r' ≠ x' := fun he' => he (h.unique.1 hr (he'.symm ▸ hx))
        rw [if_neg he, if_neg he']
        exact h.cell hx
    · rintro ⟨part, e, members, hv⟩
      cases v <;> simp only [Store.look, reduceCtorEq] at hv
      next x =>
      rw [Store.cell?_put hl] at hv
      split at hv
      · cases hv
        cases hd
      · exact ⟨part, e, members, hv⟩
  · rw [hout hl, hout fun hl' => hl ((h.lt_iff hr).2 hl')]
    exact h

theorem record? (ha : a.Resembles A a') :
    Option.Rel (fun p q => A p.1 q.1 ∧ q.2 = p.2) (s.record? a) (s'.record? a') := by
  have hl := h.look ha
  unfold Store.record?
  generalize s.look a = x, s'.look a' = y at hl ⊢
  cases hl with
  | none => exact .none
  | some hc =>
    cases hc with
    | record hook hd => exact .some ⟨hd, rfl⟩
    | _ => exact .none

theorem fields {data data' : Ref} (hd : A data data') :
    Mapping.Resembles A (Record.fields s data) (Record.fields s' data') := by
  have hm := h.mapping? (.ref hd)
  unfold Record.fields
  generalize s.mapping? (.ref data) = x, s'.mapping? (.ref data') = y at hm ⊢
  cases hm with
  | none => exact .nil
  | some ht => exact ht

theorem changed {old old' : Option Value} {v v' : Value} (ho : Option.Rel (Value.Resembles A) old old')
    (hv : v.Resembles A v') : Record.changed s' old' v' = Record.changed s old v := by
  cases ho with
  | none => rfl
  | some ho => simp only [Record.changed, h.identical ho hv, h.equal ho hv]

omit h in
theorem storeItem {xs xs' : List Value} (hx : List.Forall₂ (Value.Resembles A) xs xs') (segment : String)
    {v v' : Value} (hv : v.Resembles A v') :
    Matched (List.Forall₂ (Value.Resembles A)) (Path.storeItem xs segment v)
      (Path.storeItem xs' segment v') := by
  unfold Path.storeItem
  rw [hx.length_eq]
  split
  · exact .error _
  · split
    · exact .ok (List.rel_append hx (.cons hv .nil))
    · dsimp only
      repeat' split
      all_goals first | exact .ok (forall₂_set hx _ hv) | exact .error _

theorem isContainer (ha : a.Resembles A a') : Path.isContainer s' a' = Path.isContainer s a := by
  have hl := h.look ha
  unfold Path.isContainer
  generalize s.look a = x, s'.look a' = y at hl ⊢
  cases hl with
  | none => rfl
  | some hc => cases hc <;> rfl

theorem below? (ha : a.Resembles A a') (segment : String) :
    Option.Rel (Value.Resembles A) (Path.below? s a segment) (Path.below? s' a' segment) := by
  have hc := h.child ha segment
  unfold Path.below?
  rw [h.isContainer ha]
  split
  · generalize s.child a segment = x, s'.child a' segment = y at hc ⊢
    cases hc with
    | error f => exact .none
    | ok hv =>
      dsimp only
      rw [h.isContainer hv]
      split
      · exact .some hv
      · exact .none
  · exact .none

end Store.Resembles

/-- Client code cannot tell apart sessions that resemble each other: calls go in step. -/
def Env.Agrees {κ : Type} (A : Ref → Ref → Prop) (env : Env κ) : Prop :=
  ∀ ⦃f f' args args' w w'⦄, f.Resembles A f' → List.Forall₂ (Value.Resembles A) args args' →
    w.Resembles A w' → Outcome.Agrees A (Value.Resembles A) (env.call f args w) (env.call f' args' w')

namespace Eff

variable {κ : Type} {env : Env κ} {w w' : Session κ}

namespace AgreeAt

theorem raise {α β : Type} {P : α → β → Prop} (hw : w.Resembles A w') (f : Fault) :
    AgreeAt A P env w w' (raise f) (Eff.raise f) := ⟨.fault f hw⟩

theorem setStore {s s' : Store} (hw : w.Resembles A w') (hs : s.Resembles A s') :
    AgreeAt A Eq env w w' (setStore s) (Eff.setStore s') :=
  ⟨.value rfl ⟨hs, by rw [hw.beside]⟩⟩

/-- Changing what is beside the store. -/
theorem update {f : Session κ → Session κ} (hw : w.Resembles A w')
    (hf : ∀ v s, f { v with store := s } = { f v with store := s }) :
    AgreeAt A Eq env w w' (update f) (Eff.update f) := by
  have hstore (v : Session κ) : (f v).store = v.store := by
    rw [show f v = { f v with store := v.store } from hf v v.store]
  refine ⟨.value rfl ⟨?_, ?_⟩⟩
  · rw [hstore, hstore]
    exact hw.store
  · rw [hw.beside, hf]

/-- Reading what is beside the store. -/
theorem bind_read {α γ : Type} {f : Session κ → α} {k l : α → Eff κ γ} {R : γ → γ → Prop}
    (hw : w.Resembles A w') (hf : ∀ v s, f { v with store := s } = f v)
    (hk : ∀ a, AgreeAt A R env w w' (k a) (l a)) : AgreeAt A R env w w' (read f >>= k) (read f >>= l) := by
  have hsame : f w' = f w := by rw [hw.beside, hf]
  refine ⟨?_⟩
  change Outcome.Agrees A R (k (f w) env w) (l (f w') env w')
  rw [hsame]
  exact (hk (f w)).agrees

theorem callValue {f f' : Value} {args args' : List Value} (henv : env.Agrees A) (hw : w.Resembles A w')
    (hf : f.Resembles A f') (hargs : List.Forall₂ (Value.Resembles A) args args') :
    AgreeAt A (Value.Resembles A) env w w' (callValue f args) (Eff.callValue f' args') := by
  refine ⟨?_⟩
  unfold Eff.callValue
  rw [hf.isCallable]
  split
  · exact henv hf hargs hw
  · exact .fault _ hw

/-- Calling for what the call does. -/
theorem call {f f' : Value} {args args' : List Value} (henv : env.Agrees A) (hw : w.Resembles A w')
    (hf : f.Resembles A f') (hargs : List.Forall₂ (Value.Resembles A) args args') :
    AgreeAt A Eq env w w' (do let _ ← Eff.callValue f args : Eff κ Unit)
      (do let _ ← Eff.callValue f' args') :=
  (callValue henv hw hf hargs).bind fun _ _ _ _ _ hw => .pure hw rfl

end AgreeAt

end Eff

section Reporting

open Eff

variable {κ : Type} {env : Env κ} (henv : env.Agrees A)

include henv

theorem Queue.post_agree (e : Nat) (f : Fn) :
    Agree A Eq env (Queue.post e (.fn f)) (Queue.post e (.fn f) : Eff κ Unit) := by
  intro w w' hw
  refine (AgreeAt.update hw fun _ _ => rfl).bind fun _ _ _ w w' hw => ?_
  refine .bind_read hw (fun _ _ => rfl) fun x => .bind_read hw (fun _ _ => rfl) fun l => ?_
  split
  · exact .call henv hw (.bare rfl) (.cons (.bare rfl) .nil)
  · exact (AgreeAt.update hw fun _ _ => rfl).bind fun _ _ _ _ _ hw => .update hw fun _ _ => rfl
  · exact .update hw fun _ _ => rfl

theorem Scheduler.request_agree (e : Nat) (key : Value) :
    Agree A Eq env (Scheduler.request e key) (Scheduler.request e key : Eff κ Unit) := by
  intro w w' hw
  refine (AgreeAt.update hw fun _ _ => rfl).bind fun _ _ _ w w' hw => ?_
  refine .bind_read hw (fun _ _ => rfl) fun x => ?_
  have hmark (f : Engine → Engine) :
      AgreeAt A Eq env w w' (modifyEngine e f) (modifyEngine e f : Eff κ Unit) :=
    .update hw fun _ _ => rfl
  change AgreeAt A Eq env w w' (if x.running.contains key then _ else _)
    (if x.running.contains key then _ else _)
  split
  · split
    · exact hmark _
    · exact .pure hw rfl
  · split
    · exact .pure hw rfl
    · refine (hmark _).bind fun _ _ _ w w' hw => ?_
      have hclose : AgreeAt A Eq env w w' (close (.pass e key)) (close (.pass e key) : Eff κ Fn) :=
        .bind_read hw (fun _ _ => rfl) fun n =>
          (AgreeAt.update hw fun _ _ => rfl).bind fun _ _ _ _ _ hw => .pure hw rfl
      refine hclose.bind fun f f' hf => ?_
      subst hf
      exact Queue.post_agree henv e f

theorem Record.report_agree (hook : Hook) {key key' : Value} (hk : key.Resembles A key') :
    Agree A Eq env (Record.report hook key) (Record.report hook key' : Eff κ Unit) := by
  intro w w' hw
  cases hook with
  | none => exact .pure hw rfl
  | fn f => exact .call henv hw (.bare rfl) (.cons hk .nil)
  | schedule e scope => exact Scheduler.request_agree henv e scope hw

variable {data data' : Ref} (hd : A data data') (hook : Hook) {v v' x x' : Value}
  (hv : v.Resembles A v') (hx : x.Resembles A x')

include hd hx

theorem Record.setItem_agree (key : String) :
    Agree A Eq env (Record.setItem data hook (.text key) x)
      (Record.setItem data' hook (.text key) x' : Eff κ Unit) := by
  intro w w' hw
  have hf := hw.store.fields hd
  have hput := hw.store.put hd (c := .dict ((Record.fields w.store data).insert (.text key) x)) rfl
    (.dict (hf.insert hw.store.unique (.bare rfl) hx))
  refine .bind_store ((AgreeAt.setStore hw hput).bind fun _ _ _ w w' hw => ?_)
  rw [hput.changed (hf.get? hput.unique (.bare rfl)) hx]
  split
  · exact Record.report_agree henv hook (.bare rfl) hw
  · exact .pure hw rfl

omit hd
include hv

theorem Path.assign_agree (segment : String) :
    Agree A Eq env (Path.assign v segment x) (Path.assign v' segment x' : Eff κ Unit) := by
  intro w w' hw
  refine .bind_store ?_
  have hl := hw.store.look hv
  cases hv with
  | bare hb =>
    cases v with
    | ref => cases hb
    | _ => exact .raise hw _
  | method => exact .raise hw _
  | @ref r r' hr =>
    generalize w.store.look (.ref r) = c, w'.store.look (.ref r') = d at hl ⊢
    cases hl with
    | none => exact .raise hw _
    | some hc =>
      cases hc with
      | list hxs =>
        refine .bind_ofExcept hw (Store.Resembles.storeItem hxs segment hx) fun ys ys' hys => ?_
        exact .setStore hw (hw.store.put hr rfl (.list hys))
      | dict ht => exact .setStore hw (hw.store.put hr rfl (.dict (ht.insert hw.store.unique (.bare rfl) hx)))
      | record hook hd => exact Record.setItem_agree henv hd hook hx segment hw
      | _ => exact .raise hw _

theorem Path.write_agree (ps : List String) :
    Agree A Eq env (Path.write v ps x) (Path.write v' ps x' : Eff κ Unit) := by
  induction ps generalizing v v' with
  | nil =>
    unfold Path.write
    exact fun _ _ hw => .pure hw rfl
  | cons p ps ih =>
    cases ps with
    | nil =>
      unfold Path.write
      exact Path.assign_agree henv hv hx p
    | cons q ps =>
      intro w w' hw
      unfold Path.write
      refine .bind_store ?_
      have hb := hw.store.below? hv p
      generalize Path.below? w.store v p = a, Path.below? w'.store v' p = b at hb ⊢
      cases hb with
      | some hn => exact ih hn hw
      | none =>
        have hnew : AgreeAt A (Value.Resembles A) env w w' (alloc (.dict .empty))
            (alloc (.dict .empty) : Eff κ Value) :=
          .build hw fun _ _ h => .alloc h rfl (.dict .nil)
        exact hnew.bind fun n n' hn _ _ hw => (Path.assign_agree henv hv hn p hw).bind fun _ _ _ =>
          ih hn

theorem Path.set_agree {path path' : Value} (hp : path.Resembles A path') :
    Agree A Eq env (Path.set v path x) (Path.set v' path' x' : Eff κ Unit) := by
  intro w w' hw
  refine .bind_store ?_
  rw [hw.store.segmentsOf hp]
  exact Path.write_agree henv hv hx _ hw

omit hv
include hd

theorem Record.setPath_agree {path path' : Value} (hp : path.Resembles A path') :
    Agree A Eq env (Record.setPath data hook path x)
      (Record.setPath data' hook path' x' : Eff κ Unit) := by
  intro w w' hw
  have hwrite (ps : List String) : Agree A Eq env (Path.write (.ref data) ps x)
      (Path.write (.ref data') ps x' : Eff κ Unit) :=
    Path.write_agree henv (.ref hd) hx ps
  refine .bind_store ?_
  rw [hw.store.segmentsOf hp]
  -- One segment is stored; more are written, and the first one is reported.
  rcases w.store.segmentsOf path with _ | ⟨p, _ | ⟨q, ps⟩⟩
  · exact (hwrite _ hw).bind fun _ _ _ _ _ hw => .raise hw _
  · exact Record.setItem_agree henv hd hook hx p hw
  · exact (hwrite _ hw).bind fun _ _ _ => Record.report_agree henv hook (.bare rfl)

omit hd
include hv

/-- Whatever serves as state is written in step. -/
theorem Evaluation.writeState_agree {path path' : Value} (hp : path.Resembles A path') :
    Agree A Eq env (Evaluation.writeState v path x)
      (Evaluation.writeState v' path' x' : Eff κ Unit) := by
  intro w w' hw
  refine .bind_store ?_
  have hr := hw.store.record? hv
  generalize w.store.record? v = a, w'.store.record? v' = b at hr ⊢
  cases hr with
  | some hr =>
    obtain ⟨hd, hhook⟩ := hr
    dsimp only
    rw [hhook]
    exact Record.setPath_agree henv hd _ hx hp hw
  | none =>
    refine .bind_ofExcept hw (hw.store.attribute? hv rfl) fun f f' hf => ?_
    cases hf with
    | none => exact Path.set_agree henv hv hx hp hw
    | some hf =>
      dsimp only
      rw [hf.isNone]
      split
      · exact Path.set_agree henv hv hx hp hw
      · exact .call henv hw hf (.cons hp (.cons hx .nil))

end Reporting

end ReactiveScopes
