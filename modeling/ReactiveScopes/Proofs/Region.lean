import ReactiveScopes.Json.Basic
import ReactiveScopes.Proofs.Building

/-!
# Regions of the store

A region is a part of the store that reading does not lead out of. Operations on values stay within
one: what they give names cells of the region, or new cells that are made of such values again.
-/
namespace ReactiveScopes

/-- The cell that a value names: a method names that of its owner. -/
def Value.ref? : Value → Option Ref
  | .ref r => some r
  | .method owner _ _ => owner.ref?
  | _ => Option.none

/-- The JSON scalar that a value is, if it is one. -/
def Value.json? : Value → Option Json
  | .none => some .null
  | .bool b => some (.bool b)
  | .int i => some (.int i)
  | .float x => some (.float x)
  | .nan _ => some (.float (0.0 / 0.0))
  | .text t => some (.str t)
  | _ => Option.none

/-- Names cells of the region only. -/
def Value.In (R : Ref → Prop) (v : Value) : Prop := ∀ r, v.ref? = some r → R r

/-- The values that a cell is made of. -/
def Cell.parts : Cell → List Value
  | .list xs | .tuple xs | .set xs => xs
  | .dict t => t.keys ++ t.values
  | .bytes _ | .fault _ => []
  | .record data _ => [.ref data]
  | .object o => o.attributes.values
  | .context c => [c.scope, c.event, c.path, c.engine]
  | .expr _ parts => parts
  | .face _ _ members => members.values

theorem Value.in_of_ref?_eq_none {R : Ref → Prop} {v : Value} (h : v.ref? = Option.none) : v.In R :=
  fun r hr => by rw [h] at hr; cases hr

theorem Value.In.mono {R R' : Ref → Prop} {v : Value} (h : v.In R) (hR : ∀ {r}, R r → R' r) : v.In R' :=
  fun r hr => hR (h r hr)

namespace Table

variable {κ α : Type} [DecidableEq κ]

theorem mem_storeIn {k : κ} {a : α} {es : List (κ × α)} {e : κ × α} (h : e ∈ storeIn k a es) :
    e = (k, a) ∨ e ∈ es := by
  induction es with
  | nil => exact .inl (by simpa [storeIn] using h)
  | cons d ds ih =>
    simp only [storeIn] at h
    split at h
    · exact (List.mem_cons.1 h).imp_right (List.mem_cons_of_mem d)
    · rcases List.mem_cons.1 h with rfl | h
      · exact .inr List.mem_cons_self
      · exact (ih h).imp_right (List.mem_cons_of_mem d)

theorem mem_keys_insert {t : Table κ α} {k x : κ} {a : α} (h : x ∈ (t.insert k a).keys) :
    x = k ∨ x ∈ t.keys :=
  mem_keys_storeIn.1 h

theorem mem_values_insert {t : Table κ α} {k : κ} {a b : α} (h : b ∈ (t.insert k a).values) :
    b = a ∨ b ∈ t.values := by
  obtain ⟨e, he, rfl⟩ := List.mem_map.1 h
  exact (mem_storeIn he).imp (fun h => by rw [h]) List.mem_map_of_mem

theorem mem_ofList (es : List (κ × α)) (t : Table κ α) :
    (∀ k ∈ (es.foldl (fun t e => t.insert e.1 e.2) t).keys, k ∈ es.map Prod.fst ∨ k ∈ t.keys) ∧
      ∀ a ∈ (es.foldl (fun t e => t.insert e.1 e.2) t).values, a ∈ es.map Prod.snd ∨ a ∈ t.values := by
  induction es generalizing t with
  | nil => exact ⟨fun _ => .inr, fun _ => .inr⟩
  | cons e es ih =>
    obtain ⟨keys, values⟩ := ih (t := t.insert e.1 e.2)
    refine ⟨fun k hk => ?_, fun a ha => ?_⟩
    · rcases keys k hk with h | h
      · exact .inl (List.mem_cons_of_mem _ h)
      · exact (mem_keys_insert h).imp_left fun hk => by simp [hk]
    · rcases values a ha with h | h
      · exact .inl (List.mem_cons_of_mem _ h)
      · exact (mem_values_insert h).imp_left fun ha => by simp [ha]

end Table

namespace Store

/-- A part of the store that reading does not lead out of. -/
structure Closed (s : Store) (R : Ref → Prop) : Prop where
  bound : ∀ {r}, R r → r.index < s.cells.size
  part : ∀ {r c}, R r → s.cell? r = some c → ∀ v ∈ c.parts, v.In R
  attached : ∀ {v name x}, s.attachedTo v name = some x → x.In R

/-- Reading from some values comes to nothing but what is in every region that they are in. -/
def Leads (s : Store) (S : List Value) (v : Value) : Prop :=
  ∀ R, s.Closed R → (∀ u ∈ S, u.In R) → v.In R

variable {s s' s'' : Store} {S T : List Value} {u v x : Value} {R R' R'' : Ref → Prop}

namespace Leads

theorem mem (h : v ∈ S) : s.Leads S v := fun _ _ hS => hS v h

theorem bare (h : v.ref? = none) : s.Leads S v := fun _ _ _ => Value.in_of_ref?_eq_none h

theorem head : s.Leads (v :: S) v := mem List.mem_cons_self

theorem mono (h : s.Leads S v) (hST : ∀ u ∈ S, u ∈ T) : s.Leads T v :=
  fun R hR hT => h R hR fun u hu => hT u (hST u hu)

/-- What is part of a cell that a value names. -/
theorem part (h : s.Leads S v) {r : Ref} {c : Cell} (hv : v.ref? = some r) (hc : s.cell? r = some c)
    (hx : x ∈ c.parts) : s.Leads S x :=
  fun R hR hS => hR.part (h R hR hS r hv) hc x hx

theorem look (h : s.Leads S v) {c : Cell} (hc : s.look v = some c) (hx : x ∈ c.parts) : s.Leads S x := by
  cases v <;> simp only [Store.look, reduceCtorEq] at hc
  exact h.part rfl hc hx

theorem attached {name : String} (h : s.attachedTo v name = some x) : s.Leads S x :=
  fun _ hR _ => hR.attached h

/-- What names the same cell. -/
theorem named (h : s.Leads S v) (hx : x.ref? = v.ref? ∨ x.ref? = none) : s.Leads S x :=
  fun R hR hS r hr => by
    rcases hx with hx | hx
    · exact h R hR hS r (hx ▸ hr)
    · rw [hx] at hr
      cases hr

theorem mapping (h : s.Leads S v) {t : Mapping} (ht : s.mapping? v = some t) {x : Value}
    (hx : x ∈ t.keys ∨ x ∈ t.values) : s.Leads S x := by
  have hp : x ∈ (Cell.dict t).parts := List.mem_append.2 hx
  unfold Store.mapping? at ht
  split at ht
  · next hl => cases ht; exact h.look hl hp
  · next data hook hl =>
    split at ht
    · next hd =>
      cases ht
      exact (h.look hl (x := .ref data) List.mem_cons_self).part rfl hd hp
    · cases ht
  · cases ht

theorem sequence (h : s.Leads S v) {xs : List Value} (hxs : s.sequence? v = some xs) (hx : x ∈ xs) :
    s.Leads S x := by
  unfold Store.sequence? at hxs
  split at hxs <;> cases hxs
  · next hl => exact h.look hl hx
  · next hl => exact h.look hl hx

theorem methodIn {names : List String} {kind name : String} {f : Value} (h : s.Leads S v)
    (hf : methodIn names kind v name = some f) : s.Leads S f := by
  refine h.named ?_
  unfold ReactiveScopes.methodIn at hf
  split at hf
  · cases hf
  · cases hf
    split
    · exact .inr rfl
    · exact .inl rfl

theorem or {a b : Option Value} (ha : ∀ x, a = some x → s.Leads S x) (hb : ∀ x, b = some x → s.Leads S x)
    (h : a.or b = some x) : s.Leads S x :=
  (Option.or_eq_some_iff.1 h).elim (ha x) fun h => hb x h.2

/-- What attributes hold. -/
theorem attr (h : s.Leads S v) {name : String} (hx : s.attribute? v name = .ok (some x)) :
    s.Leads S x := by
  have hm {names : List String} {kind : String} (f : Value)
      (hf : ReactiveScopes.methodIn names kind v name = some f) : s.Leads S f :=
    h.methodIn hf
  cases v with
  | bool b | int i =>
    simp only [Store.attribute?, wholeMember, Except.ok.injEq] at hx
    repeat' split at hx
    all_goals first | exact hm _ hx | (cases hx; exact bare rfl)
  | float y | nan m =>
    simp only [Store.attribute?, doubleMember, Except.ok.injEq] at hx
    repeat' split at hx
    all_goals first | exact hm _ hx | (cases hx; exact bare rfl)
  | text t =>
    simp only [Store.attribute?, Except.ok.injEq] at hx
    exact hm _ hx
  | constant c =>
    simp only [Store.attribute?, Except.ok.injEq] at hx
    refine or (fun y hy => ?_) (fun _ => or (fun _ => attached) fun _ => or (fun y hy => ?_) hm) hx
    · unfold Constant.member at hy
      repeat' split at hy
      all_goals cases hy
      all_goals exact bare rfl
    · obtain ⟨d, -, rfl⟩ := Option.map_eq_some_iff.1 hy
      exact bare rfl
  | fn f | scope n =>
    simp only [Store.attribute?, Except.ok.injEq] at hx
    exact attached hx
  | none | method | sealed => cases hx
  | promise n =>
    simp only [Store.attribute?] at hx
    split at hx
    · unfold coroutineMember at hx
      simp only [Except.ok.injEq] at hx
      repeat' split at hx
      all_goals first | exact hm _ hx | (cases hx; exact bare rfl)
    · simp only [Except.ok.injEq] at hx
      exact or (fun y => attached) hm hx
    · cases hx
  | ref r =>
    simp only [Store.attribute?] at hx
    split at hx
    · simp only [Except.ok.injEq] at hx
      exact hm _ hx
    · simp only [Except.ok.injEq] at hx
      exact hm _ hx
    · next o ho =>
      unfold Object.read? at hx
      split at hx
      · split at hx <;> cases hx
      · simp only [Except.ok.injEq] at hx
        exact or (fun y hy => h.look ho (Table.mem_values_of_get? hy)) hm hx
    · next c hc =>
      simp only [Except.ok.injEq, HandlerContext.member] at hx
      have hp {y : Value} (hy : y ∈ [c.scope, c.event, c.path, c.engine]) : s.Leads S y := h.look hc hy
      repeat' split at hx
      all_goals cases hx
      all_goals exact hp (by simp)
    · next e parts he =>
      simp only [Except.ok.injEq, Expr.part?] at hx
      obtain ⟨before, after, hz, -⟩ := List.lookup_eq_some_iff.1 hx
      have hm : (name, x) ∈ e.form.2.zip parts := hz ▸ List.mem_append_right _ List.mem_cons_self
      exact h.look he (List.of_mem_zip hm).2
    · next part e members hf =>
      simp only [Except.ok.injEq] at hx
      exact or (fun y hy => h.look hf (Table.mem_values_of_get? hy)) (fun _ => or (fun _ => attached) hm) hx
    · cases hx

theorem child (h : s.Leads S v) {segment : String} (hx : s.child v segment = .ok x) : s.Leads S x := by
  unfold Store.child at hx
  split at hx
  · next t ht =>
    simp only [Except.ok.injEq] at hx
    subst hx
    cases hg : t.at? segment with
    | none => exact bare rfl
    | some y => exact h.mapping ht (.inr (Table.mem_values_of_get? hg))
  · next xs _ hxs =>
    simp only [Except.ok.injEq] at hx
    subst hx
    cases hg : (position? xs.length segment).bind (xs[·]?) with
    | none => exact bare rfl
    | some y =>
      obtain ⟨i, -, hi⟩ := Option.bind_eq_some_iff.1 hg
      exact h.sequence hxs (List.mem_of_getElem? hi)
  · split at hx
    · cases hx
      exact bare rfl
    · cases ha : s.attribute? v segment with
      | error f => rw [ha] at hx; cases hx
      | ok found =>
        rw [ha] at hx
        cases hx
        cases found with
        | none => exact bare rfl
        | some y => exact h.attr ha

theorem readAlong (h : s.Leads S v) {ps : List String} (hx : s.readAlong v ps = .ok x) :
    s.Leads S x := by
  induction ps generalizing v with
  | nil =>
    simp only [Store.readAlong, Except.ok.injEq] at hx
    exact hx ▸ h
  | cons p ps ih =>
    by_cases hv : v = .none
    · subst hv
      cases hx
      exact bare rfl
    · rw [Store.readAlong] at hx
      · cases hc : s.child v p with
        | error f => rw [hc] at hx; cases hx
        | ok y =>
          rw [hc] at hx
          exact ih (h.child hc) hx
      · exact hv

theorem getPath (h : s.Leads S v) {path : Value} (hx : s.getPath v path = .ok x) : s.Leads S x := by
  unfold Store.getPath at hx
  split at hx
  · cases hx
    exact bare rfl
  · exact h.readAlong hx

end Leads

theorem cell?_alloc_ne {c : Cell} {r : Ref} (h : r ≠ (s.alloc c).1) :
    (s.alloc c).2.cell? r = s.cell? r := by
  have hr : r.index ≠ s.cells.size := fun hi => h (by cases r; cases hi; rfl)
  simp only [Store.alloc, cell?, Array.getElem?_push, hr, if_false]

theorem Closed.alloc (h : s.Closed R) {c : Cell} (hc : ∀ v ∈ c.parts, v.In R) :
    (s.alloc c).2.Closed fun r => R r ∨ r = (s.alloc c).1 where
  bound hr := by
    rw [show (s.alloc c).2.cells.size = s.cells.size + 1 by simp [Store.alloc]]
    rcases hr with hr | rfl
    · exact Nat.lt_succ_of_lt (h.bound hr)
    · exact Nat.lt_succ_self _
  part {r d} hr hrd v hv := by
    by_cases hn : r = (s.alloc c).1
    · subst hn
      rw [cell?_alloc_new] at hrd
      cases hrd
      exact (hc v hv).mono .inl
    · rw [cell?_alloc_ne hn] at hrd
      exact (h.part (hr.resolve_right hn) hrd v hv).mono .inl
  attached ha := (h.attached ha).mono .inl

theorem Closed.union (h : s.Closed R) (h' : s.Closed R') : s.Closed fun r => R r ∨ R' r where
  bound hr := hr.elim h.bound h'.bound
  part hr hc v hv := hr.elim (fun hr => (h.part hr hc v hv).mono .inl)
    fun hr => (h'.part hr hc v hv).mono .inr
  attached ha := (h.attached ha).mono .inl

/-- The cells that reading from a value can come to. What is attached to values that are no objects can
be read from everywhere. -/
inductive Reaches (s : Store) (v : Value) : Ref → Prop
  | here {r : Ref} : v.ref? = some r → Reaches s v r
  | attached {u x : Value} {name : String} {r : Ref} : s.attachedTo u name = some x →
    x.ref? = some r → Reaches s v r
  | part {r r' : Ref} {c : Cell} {x : Value} : Reaches s v r → s.cell? r = some c → x ∈ c.parts →
    x.ref? = some r' → Reaches s v r'

namespace Reaches

theorem inside {r : Ref} (h : s.Reaches v r) (hR : s.Closed R) (hv : v.In R) : R r := by
  induction h with
  | here hr => exact hv _ hr
  | attached ha hr => exact hR.attached ha _ hr
  | part _ hc hx hr ih => exact hR.part ih hc _ hx _ hr

/-- If everything that is come to is there, it is a region. -/
theorem closed (h : ∀ r, s.Reaches v r → ∃ c, s.cell? r = some c) : s.Closed (s.Reaches v) where
  bound hr := by
    obtain ⟨c, hc⟩ := h _ hr
    exact (Array.getElem?_eq_some_iff.1 hc).1
  part hr hc x hx r' hr' := .part hr hc hx hr'
  attached ha r hr := .attached ha hr

/-- What is come to is the same as long as it stays as it is. -/
theorem congr {r : Ref} (h : s.Reaches v r) (ha : s'.attached = s.attached)
    (hs : ∀ r, s.Reaches v r → s'.cell? r = s.cell? r) : s'.Reaches v r := by
  induction h with
  | here hr => exact .here hr
  | @attached u x name r hx hr =>
    have hx' : s'.attachedTo u name = some x := by rwa [attachedTo, ha]
    exact .attached hx' hr
  | part h hc hx hr ih => exact .part ih ((hs _ h).trans hc) hx hr

/-- What was there before leads to the same in a larger store. -/
theorem of_kept {r : Ref} (h : s'.Reaches v r) (hthere : ∀ r, s.Reaches v r → ∃ c, s.cell? r = some c)
    (hkept : ∀ {r c}, s.cell? r = some c → s'.cell? r = some c) (ha : s'.attached = s.attached) :
    s.Reaches v r := by
  induction h with
  | here hr => exact .here hr
  | @attached u x name r hx hr =>
    have hx' : s.attachedTo u name = some x := by rwa [attachedTo, ← ha]
    exact .attached hx' hr
  | part _ hc hx hr ih =>
    obtain ⟨d, hd⟩ := hthere _ ih
    rw [hkept hd] at hc
    cases hc
    exact .part ih hd hx hr

/-- As long as nothing is attached, what names no cell leads nowhere. -/
theorem nowhere {r : Ref} (hv : v.ref? = none) (ha : s.attached = .empty) : ¬ s.Reaches v r := by
  intro h
  induction h with
  | here hr => rw [hv] at hr; cases hr
  | attached hx => rw [attachedTo, ha] at hx; cases hx
  | part _ _ _ _ ih => exact ih

end Reaches

/-- Whether every value in the store names a cell that is there. -/
def isWhole (s : Store) : Bool :=
  s.attached.isEmpty && s.cells.all fun c => c.parts.all fun v => v.ref?.all (·.index < s.cells.size)

theorem closed_of_isWhole (h : s.isWhole) : s.Closed fun r => r.index < s.cells.size := by
  obtain ⟨ha, hc⟩ := Bool.and_eq_true_iff.1 h
  refine ⟨id, fun {r c} _ hrc v hv r' hr' => ?_, fun {v name x} hx => ?_⟩
  · have hp := Array.all_eq_true_iff_forall_mem.1 hc c (Array.mem_of_getElem? hrc)
    have hb := List.all_eq_true.1 hp v hv
    rw [hr'] at hb
    simpa using hb
  · have hn : s.attached.get? v = none := by
      rw [Table.get?, List.isEmpty_iff.1 ha]
      rfl
    rw [attachedTo, hn] at hx
    cases hx

/-- A cell that is not there later was not there before. -/
theorem none_of_kept (kept : ∀ {r c}, s.cell? r = some c → s'.cell? r = some c) {r : Ref} (h : s'.cell? r = none) :
    s.cell? r = none := by
  cases hc : s.cell? r with
  | none => rfl
  | some c =>
    rw [kept hc] at h
    cases h

/-- The same store with more plain data in it, all of it in the larger region. -/
structure Grows (s s' : Store) (R R' : Ref → Prop) : Prop where
  more : s.Extends s'
  closed : s'.Closed R'
  kept : ∀ {r}, R r → R' r
  taken : ∀ {r}, s.cell? r = none → s'.cell? r ≠ none → R' r
  fresh : ∀ {r}, R' r → R r ∨ s.cell? r = none

namespace Grows

theorem refl (h : s.Closed R) : s.Grows s R R :=
  ⟨.refl, h, id, fun hn h => absurd hn h, .inl⟩

theorem trans (h : s.Grows s' R R') (h' : s'.Grows s'' R' R'') : s.Grows s'' R R'' where
  more := h.more.trans h'.more
  closed := h'.closed
  kept hr := h'.kept (h.kept hr)
  taken {r} hn hs := by
    cases hc : s'.cell? r with
    | none => exact h'.taken hc hs
    | some c => exact h'.kept (h.taken hn (by simp [hc]))
  fresh hr := (h'.fresh hr).elim h.fresh fun hn => .inr (none_of_kept h.more.kept hn)

theorem marks (h : s.Closed R) (n : Nat) : s.Grows { s with marks := n } R R :=
  ⟨.marks n, ⟨h.bound, h.part, h.attached⟩, id, fun hn h => absurd hn h, .inl⟩

theorem alloc (h : s.Closed R) {c : Cell} (hd : c.isData) (hc : ∀ v ∈ c.parts, v.In R) :
    s.Grows (s.alloc c).2 R fun r => R r ∨ r = (s.alloc c).1 where
  more := .alloc hd
  closed := h.alloc hc
  kept := .inl
  taken {r} hr hs := .inr (Decidable.byContradiction fun hne => hs ((cell?_alloc_ne hne).trans hr))
  fresh hr := hr.imp_right fun hr => by rw [hr]; simp [Store.alloc, cell?]

end Grows

end Store

/-- The values that are in a result. -/
class Carries (α : Type) where
  values : α → List Value

instance : Carries Value := ⟨fun v => [v]⟩

instance : Carries (List Value) := ⟨id⟩

instance : Carries (List (String × Value)) := ⟨List.map Prod.snd⟩

instance : Carries Unit := ⟨fun _ => []⟩

instance : Carries Bool := ⟨fun _ => []⟩

instance : Carries Nat := ⟨fun _ => []⟩

instance : Carries Number := ⟨fun _ => []⟩

instance : Carries Store := ⟨fun _ => []⟩

/-- Some values lead to another whatever the store. -/
class Covers (S : List Value) (v : Value) : Prop where
  leads : ∀ s : Store, s.Leads S v

namespace Covers

variable {S : List Value}

theorem bare {v : Value} (h : v.ref? = none) : Covers S v := ⟨fun _ => .bare h⟩

instance : Covers S .none := bare rfl

instance (b : Bool) : Covers S (.bool b) := bare rfl

instance (i : Int) : Covers S (.int i) := bare rfl

instance (x : Float) : Covers S (.float x) := bare rfl

instance (m : Nat) : Covers S (.nan m) := bare rfl

instance (t : String) : Covers S (.text t) := bare rfl

instance (v : Value) : Covers (Carries.values v ++ S) v := ⟨fun _ => .head⟩

instance {v : Value} {T : List Value} [h : Covers S v] : Covers (T ++ S) v :=
  ⟨fun s => (h.leads s).mono fun _ => List.mem_append_right T⟩

end Covers

namespace Build

variable {α β : Type} [Carries α] [Carries β] {S : List Value} {s : Store}

/-- From this store on, the operation keeps within every region that the given values are in. -/
structure WithinAt (S : List Value) (s : Store) (m : Build α) : Prop where
  keeps : ∀ {R a s'}, s.Closed R → (∀ v ∈ S, v.In R) → m s = .ok (a, s') →
    ∃ R', s.Grows s' R R' ∧ ∀ v ∈ Carries.values a, v.In R'

/-- Keeps within every region that the given values are in. -/
class Within (S : List Value) (m : Build α) : Prop where
  at_ : ∀ s, WithinAt S s m

namespace WithinAt

theorem pure {a : α} (h : ∀ v ∈ Carries.values a, s.Leads S v) : WithinAt S s (pure a) := by
  refine ⟨fun {R b s'} hR hS he => ?_⟩
  cases he
  exact ⟨R, .refl hR, fun v hv => h v hv R hR hS⟩

theorem value {v : Value} (h : s.Leads S v) : WithinAt S s (Pure.pure v) :=
  pure fun _ hu => List.mem_singleton.1 hu ▸ h

theorem alloc {c : Cell} (hd : c.isData) (h : ∀ v ∈ c.parts, s.Leads S v) :
    WithinAt S s (Build.alloc c) := by
  refine ⟨fun {R b s'} hR hS he => ?_⟩
  cases he
  refine ⟨_, .alloc hR hd fun v hv => h v hv R hR hS, fun v hv r hr => ?_⟩
  cases List.mem_singleton.1 hv
  cases hr
  exact .inr rfl

theorem fail {f : Fault} : WithinAt S s (fail f : Build α) :=
  ⟨fun _ _ he => by cases he⟩

theorem bind_store {k : Store → Build α} (h : WithinAt S s (k s)) : WithinAt S s (store >>= k) :=
  ⟨h.keeps⟩

theorem bind_lift {γ : Type} {r : Except Fault γ} {k : γ → Build α}
    (h : ∀ a, r = .ok a → WithinAt S s (k a)) : WithinAt S s (lift r >>= k) := by
  cases r with
  | error f => exact ⟨fun _ _ he => by cases he⟩
  | ok a => exact ⟨(h a rfl).keeps⟩

theorem bind {m : Build α} {k : α → Build β} (hm : WithinAt S s m)
    (hk : ∀ a s', m s = .ok (a, s') → WithinAt (Carries.values a ++ S) s' (k a)) :
    WithinAt S s (m >>= k) := by
  refine ⟨fun {R b s''} hR hS he => ?_⟩
  change (m s >>= fun p => k p.1 p.2) = _ at he
  cases hr : m s with
  | error f => rw [hr] at he; cases he
  | ok p =>
    obtain ⟨a, s'⟩ := p
    rw [hr] at he
    obtain ⟨R', hg, ha⟩ := hm.keeps hR hS hr
    have hS' : ∀ v ∈ Carries.values a ++ S, v.In R' := fun v hv =>
      (List.mem_append.1 hv).elim (ha v) fun hv => (hS v hv).mono hg.kept
    obtain ⟨R'', hg', hb⟩ := (hk a s' hr).keeps hg.closed hS' he
    exact ⟨R'', hg.trans hg', hb⟩

end WithinAt

namespace Within

theorem of_leads {v : Value} (h : ∀ s : Store, s.Leads S v) : Within S (pure v : Build Value) :=
  ⟨fun s => .value (h s)⟩

instance (v : Value) [h : Covers S v] : Within S (pure v : Build Value) := of_leads h.leads

instance (x : Float) : Within S (Build.float x) where
  at_ s := by
    refine ⟨fun {R a s'} hR _ he => ?_⟩
    have bare : ∀ v ∈ Carries.values a, v.ref? = none := by
      unfold Build.float at he
      split at he <;> cases he <;> exact fun v hv => List.mem_singleton.1 hv ▸ rfl
    have hs : s.Grows s' R R := by
      unfold Build.float at he
      split at he <;> cases he
      · exact .marks hR _
      · exact .refl hR
    exact ⟨R, hs, fun v hv => Value.in_of_ref?_eq_none (bare v hv)⟩

instance (x : Number) : Within S (Build.number x) := by
  cases x <;> (unfold Build.number; infer_instance)

theorem lift_number (r : Except Fault Number) : WithinAt S s (lift r >>= Build.number) :=
  .bind_lift fun _ _ => Within.at_ s

theorem fresh {v : Value} (h : s.Leads S v) : WithinAt S s (fresh v) := by
  refine ⟨fun {R a s'} hR hS he => ?_⟩
  have hv := h R hR hS
  unfold Build.fresh at he
  split at he
  · split at he <;> cases he
    · exact ⟨R, .refl hR, fun u hu => List.mem_singleton.1 hu ▸ hv⟩
    · exact ⟨R, .marks hR _, fun u hu => List.mem_singleton.1 hu ▸ hv⟩
  · cases he
    exact ⟨R, .refl hR, fun u hu => List.mem_singleton.1 hu ▸ hv⟩

instance (v path : Value) [h : Covers S v] : Within S (Build.getPath v path) :=
  ⟨fun s => .bind_store (.bind_lift fun _ hx => fresh ((h.leads s).getPath hx))⟩

open Arithmetic

theorem mem_repeatList {x : Value} {xs : List Value} {n : Nat} (h : x ∈ repeatList xs n) : x ∈ xs := by
  simp only [repeatList, List.mem_flatten, List.mem_replicate] at h
  obtain ⟨ys, ⟨-, rfl⟩, hx⟩ := h
  exact hx

instance (v : Value) (n : Int) [h : Covers S v] : Within S (repeated v n) where
  at_ s := by
    have hv := h.leads s
    refine .bind_store ?_
    split
    · exact .bind_lift fun _ _ => .value (.bare rfl)
    · next hl _ => exact .bind_lift fun _ _ => .alloc rfl fun u hu => hv.look hl (mem_repeatList hu)
    · next hl _ =>
      refine .bind_lift fun k _ => ?_
      split
      · exact .value hv
      · exact .alloc rfl fun u hu => hv.look hl (mem_repeatList hu)
    · refine .bind_lift fun k _ => ?_
      split
      · exact .value hv
      · exact .alloc rfl fun u hu => by cases hu
    · exact .fail

instance (a b : Value) [ha : Covers S a] [hb : Covers S b] : Within S (Arithmetic.add a b) where
  at_ s := by
    have ha := ha.leads s
    have hb := hb.leads s
    unfold Arithmetic.add
    split
    · exact lift_number _
    · refine .bind_store ?_
      split
      · exact .value (.bare rfl)
      · next hx hy _ =>
        exact .alloc rfl fun u hu => (List.mem_append.1 hu).elim (ha.look hx) (hb.look hy)
      · next hx hy _ =>
        split
        · exact .value hb
        · split
          · exact .value ha
          · exact .alloc rfl fun u hu => (List.mem_append.1 hu).elim (ha.look hx) (hb.look hy)
      · split
        · exact .value hb
        · split
          · exact .value ha
          · exact .alloc rfl fun u hu => by cases hu
      · exact .fail

/-- Filtering leaves the store as it is and adds no item. -/
theorem filterAuxM_lift {g : Value → Except Fault Bool} {xs ys zs : List Value} {s s' : Store}
    (h : List.filterAuxM (m := Build) (fun x => return !(← lift (g x))) xs ys s = .ok (zs, s')) :
    s' = s ∧ ∀ z ∈ zs, z ∈ xs ∨ z ∈ ys := by
  induction xs generalizing ys with
  | nil =>
    cases h
    exact ⟨rfl, fun _ => .inr⟩
  | cons x xs ih =>
    unfold List.filterAuxM at h
    cases hg : g x with
    | error f =>
      simp only [hg] at h
      cases h
    | ok b =>
      simp only [hg] at h
      obtain ⟨hs, hz⟩ := ih h
      refine ⟨hs, fun z hzs => ?_⟩
      have := hz z hzs
      cases b <;> grind

theorem bind_filter {g : Value → Except Fault Bool} {xs : List Value} {k : List Value → Build α}
    (h : ∀ ys, (∀ y ∈ ys, y ∈ xs) → WithinAt S s (k ys)) :
    WithinAt S s (xs.filterM (fun x => return !(← lift (g x))) >>= k) := by
  cases hf : List.filterAuxM (m := Build) (fun x => return !(← lift (g x))) xs [] s with
  | error f =>
    have hr : (xs.filterM (fun x => return !(← lift (g x))) >>= k) s = .error f := by
      change (List.filterAuxM (m := Build) _ xs [] s >>= _) >>= _ = _
      rw [hf]
      rfl
    exact ⟨fun _ _ he => by rw [hr] at he; cases he⟩
  | ok p =>
    obtain ⟨ys, s'⟩ := p
    obtain ⟨rfl, hys⟩ := filterAuxM_lift hf
    have hr : (xs.filterM (fun x => return !(← lift (g x))) >>= k) s' = k ys.reverse s' := by
      change (List.filterAuxM (m := Build) _ xs [] s' >>= _) >>= _ = _
      rw [hf]
      rfl
    have hk := h ys.reverse fun y hy => (hys y (List.mem_reverse.1 hy)).resolve_right List.not_mem_nil
    exact ⟨fun hR hS he => hk.keeps hR hS (hr ▸ he)⟩

instance (a b : Value) [ha : Covers S a] : Within S (Arithmetic.sub a b) where
  at_ s := by
    unfold Arithmetic.sub
    split
    · exact lift_number _
    · refine .bind_store ?_
      split
      · next hx _ =>
        exact bind_filter fun ys hys => .alloc rfl fun u hu => (ha.leads s).look hx (hys u hu)
      · exact .fail

instance (a b : Value) [ha : Covers S a] [hb : Covers S b] : Within S (Arithmetic.mul a b) := by
  unfold Arithmetic.mul
  split
  · exact ⟨fun s => lift_number _⟩
  · infer_instance
  · infer_instance
  · exact ⟨fun s => .fail⟩

instance (a b : Value) : Within S (Arithmetic.div a b) := by
  unfold Arithmetic.div
  split
  · exact ⟨fun s => lift_number _⟩
  · exact ⟨fun s => .fail⟩

instance (a b : Value) : Within S (Arithmetic.mod a b) where
  at_ s := by
    unfold Arithmetic.mod
    refine .bind_store ?_
    split
    · split
      · exact .value (.bare rfl)
      · exact .fail
    · split
      · exact .alloc rfl fun u hu => by cases hu
      · exact .fail
    · exact lift_number _
    · exact .fail

instance (a : Value) : Within S (Arithmetic.neg a) := by
  unfold Arithmetic.neg
  split
  · infer_instance
  · exact ⟨fun s => .fail⟩

end Within

end Build

end ReactiveScopes
