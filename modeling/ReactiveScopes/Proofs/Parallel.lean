import ReactiveScopes.Proofs.Resemblance

/-!
# Computing in parallel

Building values in two stores that resemble each other goes in step: the same faults, related results, and
stores that still resemble each other. Two computations go in step if they do so from any sessions that
differ in such stores only.
-/
namespace ReactiveScopes

variable {A : Ref → Ref → Prop}

section Options

variable {α β γ δ : Type} {P : α → β → Prop} {Q : γ → δ → Prop}

theorem optionRel_bind {x : Option α} {y : Option β} {k : α → Option γ} {l : β → Option δ}
    (h : Option.Rel P x y) (hk : ∀ a b, P a b → Option.Rel Q (k a) (l b)) :
    Option.Rel Q (x >>= k) (y >>= l) := by
  cases h with
  | none => exact .none
  | some hp => exact hk _ _ hp

theorem optionRel_eq {x y : Option α} (h : Option.Rel Eq x y) : x = y := by
  cases h with
  | none => rfl
  | some h => rw [h]

theorem optionRel_of_eq {x y : Option α} (h : x = y) : Option.Rel Eq x y := by
  subst h
  cases x with
  | none => exact .none
  | some a => exact .some rfl

end Options

namespace Template

variable {s s' : Store} (h : s.Resembles A s') {v v' : Value} (hv : v.Resembles A v')

/-- The same arguments up to the cells that they name. -/
structure Arguments.Resembles (A : Ref → Ref → Prop) (a a' : Arguments) : Prop where
  items : List.Forall₂ (Value.Resembles A) a.items a'.items
  mapping : Option.Rel (Value.Resembles A) a.mapping a'.mapping
  lenient : a'.lenient = a.lenient

section

variable {a a' : Arguments} (ha : a.Resembles A a')

include ha

theorem Arguments.Resembles.next? : Option.Rel (fun p q => p.1.Resembles A q.1 ∧ p.2.Resembles A q.2)
    a.next? a'.next? := by
  obtain ⟨xs, m, b⟩ := a
  obtain ⟨xs', m', b'⟩ := a'
  obtain ⟨hx, hm, hb⟩ := ha
  cases hx with
  | nil => exact .none
  | cons hv hx => exact .some ⟨hv, hx, hm, hb⟩

theorem readSize_rel (cs : List Char) :
    Option.Rel (fun p q => p.1 = q.1 ∧ p.2.1 = q.2.1 ∧ p.2.2.Resembles A q.2.2)
      (readSize cs a) (readSize cs a') := by
  unfold readSize
  split
  · refine optionRel_bind ha.next? fun p q hpq => ?_
    dsimp only
    rw [hpq.1.number?]
    split
    · split
      · exact .none
      · exact .some ⟨rfl, rfl, hpq.2⟩
    · exact .none
  · dsimp only
    split
    · exact .none
    · exact .some ⟨rfl, rfl, ha⟩

end

include h hv

theorem plainForm?_eq (m : Medium) (letter : Char) :
    plainForm? s' m letter v' = plainForm? s m letter v := by
  have hl := h.look hv
  unfold plainForm?
  rw [h.shown hv, h.textOf hv]
  generalize s.look v = x, s'.look v' = x' at hl ⊢
  cases hl with
  | none => rfl
  | some hc => cases hc <;> rfl

theorem byte?_eq : byte? s' v' = byte? s v := by
  have hl := h.look hv
  unfold byte?
  rw [hv.number?]
  generalize s.look v = x, s'.look v' = x' at hl ⊢
  cases hl with
  | none => rfl
  | some hc => cases hc <;> rfl

theorem format?_eq (m : Medium) (f : Flags) (width : Nat) (precision : Option Nat) (letter : Char) :
    format? s' m f width precision letter v' = format? s m f width precision letter v := by
  unfold format? whole? double? character?
  rw [hv.number?, hv.text?, byte?_eq h hv, plainForm?_eq h hv]

theorem arguments_rel (m : Medium) : (arguments s m v).Resembles A (arguments s' m v') := by
  have hl := h.look hv
  unfold arguments
  generalize s.look v = x, s'.look v' = x' at hl ⊢
  cases hl with
  | none => exact ⟨.cons hv .nil, .none, rfl⟩
  | some hc =>
    cases hc with
    | tuple hx => exact ⟨hx, .none, rfl⟩
    | dict | record => exact ⟨.cons hv .nil, .some hv, rfl⟩
    | _ => exact ⟨.cons hv .nil, .none, rfl⟩

omit hv

theorem keyed?_rel (m : Medium) {x x' : Option Value} (hx : Option.Rel (Value.Resembles A) x x')
    (key : String) : Option.Rel (Value.Resembles A) (keyed? s m x key) (keyed? s' m x' key) := by
  unfold keyed?
  split
  · exact optionRel_bind hx fun v v' hv => optionRel_bind (h.mapping? hv) fun t u ht =>
      ht.get? h.unique (.bare rfl)
  · exact .none

theorem takeKey_rel (m : Medium) (cs : List Char) {a a' : Arguments} (ha : a.Resembles A a') :
    Option.Rel (fun p q => p.1 = q.1 ∧ p.2.Resembles A q.2) (takeKey s m cs a) (takeKey s' m cs a') := by
  unfold takeKey
  split
  · cases readKey? 0 _ with
    | none => exact .none
    | some p =>
      change Option.Rel _ (keyed? s m a.mapping _ >>= _) (keyed? s' m a'.mapping _ >>= _)
      refine optionRel_bind (keyed?_rel h m ha.mapping _) fun v v' hv => ?_
      exact .some ⟨rfl, .cons hv .nil, ha.mapping, rfl⟩
  · exact .some ⟨rfl, ha⟩

omit h in
theorem readPrecision_rel (cs : List Char) {a a' : Arguments} (ha : a.Resembles A a') :
    Option.Rel (fun p q => p.1 = q.1 ∧ p.2.1 = q.2.1 ∧ p.2.2.Resembles A q.2.2)
      (readPrecision cs a) (readPrecision cs a') := by
  unfold readPrecision
  split
  · refine optionRel_bind (readSize_rel ha _) fun p q hpq => ?_
    exact .some ⟨congrArg (fun x => some (Option.getD x 0).toNat) hpq.1, hpq.2⟩
  · exact .some ⟨rfl, rfl, ha⟩

theorem applyWithin_eq (m : Medium) (n : Nat) (cs : List Char) {a a' : Arguments}
    (ha : a.Resembles A a') : applyWithin s' m n cs a' = applyWithin s m n cs a := by
  induction n generalizing cs a a' with
  | zero => rfl
  | succ n ih =>
    unfold applyWithin
    dsimp only
    split
    · rw [isEmpty_of_forall₂ ha.items, ha.lenient]
    · rw [ih _ ha]
    · refine (optionRel_eq (optionRel_bind (takeKey_rel h m _ ha) ?_)).symm
      rintro ⟨cs, a⟩ ⟨_, a'⟩ ⟨rfl, ha⟩
      refine optionRel_bind (readSize_rel ha _) ?_
      rintro ⟨width, cs, a⟩ ⟨_, _, a'⟩ ⟨rfl, rfl, ha⟩
      refine optionRel_bind (readPrecision_rel _ ha) ?_
      rintro ⟨precision, cs, a⟩ ⟨_, _, a'⟩ ⟨rfl, rfl, ha⟩
      dsimp only
      split
      · exact .none
      · refine optionRel_bind ha.next? ?_
        rintro ⟨v, a⟩ ⟨v', a'⟩ ⟨hv, ha⟩
        dsimp only
        rw [format?_eq h hv, ih _ ha]
        exact optionRel_of_eq rfl

theorem applied?_eq (m : Medium) (cs : List Char) (hv : v.Resembles A v') :
    applied? s' m cs v' = applied? s m cs v :=
  applyWithin_eq h m _ cs (arguments_rel h hv m)

end Template

namespace Store.Resembles

variable {s s' : Store} (h : s.Resembles A s')

include h

/-- Both stores take in plain data. -/
theorem alloc {c d : Cell} (hd : c.isData) (hc : c.Resembles A d) :
    (s.alloc c).2.Resembles A (s'.alloc d).2 ∧ A (s.alloc c).1 (s'.alloc d).1 := by
  have hn : A (s.alloc c).1 (s'.alloc d).1 := by
    rw [Store.alloc, Store.alloc, h.size]
    exact h.fresh (Nat.le_refl _)
  have hpush (t : Store) (e : Cell) : (t.alloc e).2.cells.size = t.cells.size + 1 := by
    simp [Store.alloc]
  refine ⟨⟨h.unique, fun hr => h.fresh ?_, ?_, fun {r r'} hr => ?_,
    fun {v _ _} hn hv hk => h.attached hn hv (hk.imp_right ?_), h.awaitables, h.marks⟩, hn⟩
  · rw [hpush] at hr
    exact Nat.le_of_succ_le hr
  · rw [hpush, hpush, h.size]
  · by_cases hnew : r = (s.alloc c).1
    · subst hnew
      rw [← h.unique.2 hn hr, Store.cell?_alloc_new, Store.cell?_alloc_new]
      exact .some hc
    · have hnew' : r' ≠ (s'.alloc d).1 := fun hx => hnew (h.unique.1 (hx ▸ hr) hn)
      rw [Store.cell?_alloc_ne hnew, Store.cell?_alloc_ne hnew']
      exact h.cell hr
  · rintro ⟨part, e, members, hl⟩
    cases v <;> simp only [Store.look, reduceCtorEq] at hl
    next r =>
    by_cases hnew : r = (s.alloc c).1
    · rw [hnew, Store.cell?_alloc_new] at hl
      cases hl
      cases hd
    · exact ⟨part, e, members, (Store.cell?_alloc_ne hnew).symm.trans hl⟩

theorem marked : { s with marks := s.marks + 1 }.Resembles A { s' with marks := s'.marks + 1 } :=
  ⟨h.unique, h.fresh, h.size, h.cell, h.attached, h.awaitables, congrArg (· + 1) h.marks⟩

end Store.Resembles

namespace Build

variable {α β γ δ : Type} {P : α → β → Prop} {Q : γ → δ → Prop} {s s' : Store}

/-- From these stores on, two operations go in step. -/
structure AgreeAt (A : Ref → Ref → Prop) (P : α → β → Prop) (s s' : Store) (m : Build α)
    (m' : Build β) : Prop where
  agrees : Matched (fun p q => P p.1 q.1 ∧ p.2.Resembles A q.2) (m s) (m' s')

/-- From stores that resemble each other on, two operations go in step. -/
def Agree (A : Ref → Ref → Prop) (P : α → β → Prop) (m : Build α) (m' : Build β) : Prop :=
  ∀ ⦃s s'⦄, s.Resembles A s' → AgreeAt A P s s' m m'

namespace AgreeAt

theorem fail (f : Fault) : AgreeAt A P s s' (fail f) (Build.fail f) := ⟨.error f⟩

theorem bind_store {k : Store → Build γ} {l : Store → Build δ} (h : AgreeAt A Q s s' (k s) (l s')) :
    AgreeAt A Q s s' (store >>= k) (store >>= l) := ⟨h.agrees⟩

theorem bind_lift {x : Except Fault α} {y : Except Fault β} {k : α → Build γ} {l : β → Build δ}
    (hx : Matched P x y) (hk : ∀ a b, P a b → AgreeAt A Q s s' (k a) (l b)) :
    AgreeAt A Q s s' (lift x >>= k) (lift y >>= l) := by
  cases hx with
  | ok hp => exact ⟨(hk _ _ hp).agrees⟩
  | error f => exact ⟨.error f⟩

/-- A check that has the same outcome in both stores. -/
theorem bind_same {x : Except Fault α} {k : α → Build γ} {l : α → Build δ}
    (hk : ∀ a, AgreeAt A Q s s' (k a) (l a)) : AgreeAt A Q s s' (lift x >>= k) (lift x >>= l) :=
  bind_lift (.of_eq rfl) fun a _ hb => hb ▸ hk a

variable (h : s.Resembles A s')

include h

theorem pure {a : α} {b : β} (hp : P a b) : AgreeAt A P s s' (Pure.pure a) (Pure.pure b) :=
  ⟨.ok ⟨hp, h⟩⟩

theorem alloc {c d : Cell} (hd : c.isData) (hc : c.Resembles A d) :
    AgreeAt A (Value.Resembles A) s s' (Build.alloc c) (Build.alloc d) :=
  ⟨.ok ⟨.ref (h.alloc hd hc).2, (h.alloc hd hc).1⟩⟩

theorem fresh {v v' : Value} (hv : v.Resembles A v') :
    AgreeAt A (Value.Resembles A) s s' (Build.fresh v) (Build.fresh v') := by
  refine ⟨?_⟩
  cases v with
  | method owner name mark =>
    obtain ⟨owner', rfl, ho⟩ := hv.of_method
    unfold Build.fresh
    cases mark with
    | zero =>
      change Matched _ (if name == "maketrans" then _ else _) (if name == "maketrans" then _ else _)
      split
      · exact .ok ⟨hv, h⟩
      · exact .ok ⟨h.marks ▸ .method name _ ho, h.marked⟩
    | succ n => exact .ok ⟨hv, h⟩
  | _ => cases hv <;> exact .ok ⟨by first | exact .bare ‹_› | exact .ref ‹_›, h⟩

theorem float (x : Float) : AgreeAt A (Value.Resembles A) s s' (Build.float x) (Build.float x) := by
  refine ⟨?_⟩
  unfold Build.float
  split
  · exact .ok ⟨h.marks ▸ .bare rfl, h.marked⟩
  · exact .ok ⟨.bare rfl, h⟩

theorem number (x : Number) : AgreeAt A (Value.Resembles A) s s' (Build.number x) (Build.number x) := by
  cases x with
  | int i => exact .pure h (.bare rfl)
  | float x => exact .float h x

end AgreeAt

/-- Filtering leaves the stores as they are. -/
theorem filterAuxM_matched {g g' : Value → Except Fault Bool} {xs xs' ys ys' : List Value}
    (hg : ∀ {v v'}, v.Resembles A v' → g' v' = g v) (hx : List.Forall₂ (Value.Resembles A) xs xs')
    (hy : List.Forall₂ (Value.Resembles A) ys ys') :
    Matched (fun p q => List.Forall₂ (Value.Resembles A) p.1 q.1 ∧ p.2 = s ∧ q.2 = s')
      (List.filterAuxM (m := Build) (fun x => return !(← lift (g x))) xs ys s)
      (List.filterAuxM (m := Build) (fun x => return !(← lift (g' x))) xs' ys' s') := by
  induction hx generalizing ys ys' with
  | nil => exact .ok ⟨hy, rfl, rfl⟩
  | @cons v v' xs xs' hv _ ih =>
    unfold List.filterAuxM
    cases hr : g v with
    | error f =>
      simp only [hg hv, hr]
      exact .error f
    | ok b =>
      simp only [hg hv, hr]
      refine ih ?_
      cases b with
      | true => exact hy
      | false => exact .cons hv hy

theorem AgreeAt.bind_filter {g g' : Value → Except Fault Bool} {xs xs' : List Value}
    (hg : ∀ {v v'}, v.Resembles A v' → g' v' = g v) (hx : List.Forall₂ (Value.Resembles A) xs xs')
    {k : List Value → Build γ} {l : List Value → Build δ}
    (hk : ∀ ys ys', List.Forall₂ (Value.Resembles A) ys ys' → AgreeAt A Q s s' (k ys) (l ys')) :
    AgreeAt A Q s s' (xs.filterM (fun x => return !(← lift (g x))) >>= k)
      (xs'.filterM (fun x => return !(← lift (g' x))) >>= l) := by
  have hf := @filterAuxM_matched A s s' g g' xs xs' [] [] hg hx .nil
  refine ⟨?_⟩
  change Matched _ ((List.filterAuxM (m := Build) _ xs [] s >>= _) >>= _)
    ((List.filterAuxM (m := Build) _ xs' [] s' >>= _) >>= _)
  refine Matched.bind (Matched.bind (Q := fun p q => List.Forall₂ (Value.Resembles A) p.1 q.1 ∧
    p.2 = s ∧ q.2 = s') hf ?_) ?_
  · rintro ⟨ys, _⟩ ⟨ys', _⟩ ⟨hy, rfl, rfl⟩
    exact .ok ⟨List.rel_reverse hy, rfl, rfl⟩
  · rintro ⟨ys, _⟩ ⟨ys', _⟩ ⟨hy, rfl, rfl⟩
    exact (hk ys ys' hy).agrees

namespace Agree

open Arithmetic

variable {a a' b b' : Value} (ha : a.Resembles A a')

include ha

theorem getPath (hb : b.Resembles A b') :
    Agree A (Value.Resembles A) (Build.getPath a b) (Build.getPath a' b') := by
  intro s s' h
  exact .bind_store (.bind_lift (h.getPath ha hb) fun _ _ => .fresh h)

theorem neg : Agree A (Value.Resembles A) (Arithmetic.neg a) (Arithmetic.neg a') := by
  intro s s' h
  unfold Arithmetic.neg
  rw [ha.number?]
  split
  · exact .number h _
  · exact .fail _

theorem repeated (n : Int) : Agree A (Value.Resembles A) (repeated a n) (Arithmetic.repeated a' n) := by
  intro s s' h
  refine .bind_store ?_
  have hl := h.look ha
  have hrepeat {xs ys : List Value} (hx : List.Forall₂ (Value.Resembles A) xs ys) (k : Nat) :
      List.Forall₂ (Value.Resembles A) (repeatList xs k) (repeatList ys k) := by
    unfold repeatList
    refine List.rel_flatten ?_
    induction k with
    | zero => exact .nil
    | succ k ih => exact .cons hx ih
  rw [ha.text?]
  generalize s.look a = x, s'.look a' = x' at hl ⊢
  cases a.text? with
  | some t => exact .bind_same fun _ => .pure h (.bare rfl)
  | none =>
    cases hl with
    | none => exact .fail _
    | some hc =>
      cases hc with
      | list hx =>
        dsimp only
        rw [hx.length_eq]
        exact .bind_same fun k => .alloc h rfl (.list (hrepeat hx k))
      | tuple hx =>
        dsimp only
        rw [hx.length_eq]
        refine .bind_same fun k => ?_
        split
        · exact .pure h ha
        · exact .alloc h rfl (.tuple (hrepeat hx k))
      | bytes x =>
        refine .bind_same fun k => ?_
        split
        · exact .pure h ha
        · exact .alloc h rfl (.bytes _)
      | _ => exact .fail _

variable (hb : b.Resembles A b')

include hb

theorem add : Agree A (Value.Resembles A) (add a b) (Arithmetic.add a' b') := by
  intro s s' h
  unfold Arithmetic.add
  rw [ha.number?, hb.number?, ha.text?, hb.text?]
  split
  · exact .bind_same fun _ => .number h _
  · refine .bind_store ?_
    have hla := h.look ha
    have hlb := h.look hb
    generalize s.look a = x, s'.look a' = x' at hla ⊢
    generalize s.look b = y, s'.look b' = y' at hlb ⊢
    cases a.text? <;> cases b.text?
    case some.some => exact .pure h (.bare rfl)
    all_goals
      cases hla with
      | none => exact .fail _
      | some hc =>
        cases hlb with
        | none => cases hc <;> exact .fail _
        | some hd =>
          cases hc with
          | list hx =>
            cases hd with
            | list hy => exact .alloc h rfl (.list (List.rel_append hx hy))
            | _ => exact .fail _
          | tuple hx =>
            cases hd with
            | tuple hy =>
              dsimp only
              rw [isEmpty_of_forall₂ hx, isEmpty_of_forall₂ hy]
              split
              · exact .pure h hb
              · split
                · exact .pure h ha
                · exact .alloc h rfl (.tuple (List.rel_append hx hy))
            | _ => exact .fail _
          | bytes x =>
            cases hd with
            | bytes y =>
              dsimp only
              split
              · exact .pure h hb
              · split
                · exact .pure h ha
                · exact .alloc h rfl (.bytes _)
            | _ => exact .fail _
          | _ => cases hd <;> exact .fail _

theorem sub : Agree A (Value.Resembles A) (sub a b) (Arithmetic.sub a' b') := by
  intro s s' h
  unfold Arithmetic.sub
  rw [ha.number?, hb.number?]
  split
  · exact .bind_same fun _ => .number h _
  · refine .bind_store ?_
    have hla := h.look ha
    have hlb := h.look hb
    generalize s.look a = x, s'.look a' = x' at hla ⊢
    generalize s.look b = y, s'.look b' = y' at hlb ⊢
    cases hla with
    | none => exact .fail _
    | some hc =>
      cases hlb with
      | none => cases hc <;> exact .fail _
      | some hd =>
        cases hc with
        | set hx =>
          cases hd with
          | set hy =>
            exact .bind_filter (fun hv => Store.Resembles.memberOf h.sameKey hv hy) hx
              fun _ _ hkept => .alloc h rfl (.set hkept)
          | _ => exact .fail _
        | _ => cases hd <;> exact .fail _

theorem mul : Agree A (Value.Resembles A) (mul a b) (Arithmetic.mul a' b') := by
  intro s s' h
  unfold Arithmetic.mul
  rw [ha.number?, hb.number?]
  split
  · exact .bind_same fun _ => .number h _
  · exact repeated ha _ h
  · exact repeated hb _ h
  · exact .fail _

theorem div : Agree A (Value.Resembles A) (div a b) (Arithmetic.div a' b') := by
  intro s s' h
  unfold Arithmetic.div
  rw [ha.number?, hb.number?]
  split
  · exact .bind_same fun _ => .number h _
  · exact .fail _

theorem mod : Agree A (Value.Resembles A) (mod a b) (Arithmetic.mod a' b') := by
  intro s s' h
  refine .bind_store ?_
  have hl := h.look ha
  have htext (t : String) : Template.fill? s' t b' = Template.fill? s t b := by
    rw [Template.fill?, Template.applied?_eq h _ _ hb, Template.fill?]
  have hbytes (t : List UInt8) : Template.fillBytes? s' t b' = Template.fillBytes? s t b := by
    rw [Template.fillBytes?, Template.applied?_eq h _ _ hb, Template.fillBytes?]
  rw [ha.text?, ha.number?, hb.number?]
  generalize s.look a = x, s'.look a' = x' at hl ⊢
  cases a.text? with
  | some t =>
    dsimp only
    rw [htext]
    split
    · exact .pure h (.bare rfl)
    · exact .fail _
  | none =>
    cases a.number? <;> cases b.number?
    all_goals
      cases hl with
      | none => first | exact .fail _ | exact .bind_same fun _ => .number h _
      | some hc =>
        cases hc with
        | bytes t =>
          dsimp only
          rw [hbytes]
          split
          · exact .alloc h rfl (.bytes _)
          · exact .fail _
        | _ => first | exact .fail _ | exact .bind_same fun _ => .number h _

end Agree

end Build

theorem Mapping.Resembles.insert {t u : Mapping} (h : Mapping.Resembles A t u) (hA : Relator.BiUnique A)
    {k k' v v' : Value} (hk : k.Resembles A k') (hv : v.Resembles A v') :
    Mapping.Resembles A (t.insert k v) (u.insert k' v') := by
  obtain ⟨es, hes⟩ := t
  obtain ⟨fs, hfs⟩ := u
  change List.Forall₂ _ (Table.storeIn k v es) (Table.storeIn k' v' fs)
  replace h : List.Forall₂ (fun e f => e.1.Resembles A f.1 ∧ e.2.Resembles A f.2) es fs := h
  clear hes hfs
  induction h with
  | nil => exact .cons ⟨hk, hv⟩ .nil
  | cons he hes ih =>
    simp only [Table.storeIn, ← he.1.eq_iff hA hk]
    split
    · exact .cons ⟨hk, hv⟩ hes
    · exact .cons he ih

/-- Fields with the same names and related values. -/
abbrev FieldsResemble (A : Ref → Ref → Prop) : List (String × Value) → List (String × Value) → Prop :=
  List.Forall₂ fun e f => e.1 = f.1 ∧ e.2.Resembles A f.2

theorem FieldsResemble.mapping {fs gs : List (String × Value)} (h : FieldsResemble A fs gs)
    (hA : Relator.BiUnique A) : Mapping.Resembles A (.ofFields fs) (.ofFields gs) := by
  have hkeyed : List.Forall₂ (fun e f => e.1.Resembles A f.1 ∧ e.2.Resembles A f.2)
      (fs.map fun e => (Value.text e.1, e.2)) (gs.map fun e => (Value.text e.1, e.2)) :=
    List.rel_map (fun _ _ he => ⟨he.1 ▸ .bare rfl, he.2⟩) h
  exact List.rel_foldl (P := Mapping.Resembles A) (fun _ _ ht _ _ he => ht.insert hA he.1 he.2) .nil hkeyed

/-- Sessions that differ in their stores only, and these resemble each other. -/
structure Session.Resembles {κ : Type} (A : Ref → Ref → Prop) (w w' : Session κ) : Prop where
  store : w.store.Resembles A w'.store
  beside : w' = { w with store := w'.store }

/-- The same end: the same fault or related values, in sessions that resemble each other. -/
inductive Outcome.Agrees {α β κ : Type} (A : Ref → Ref → Prop) (P : α → β → Prop) :
    Outcome α × Session κ → Outcome β × Session κ → Prop
  | value {a b w w'} : P a b → w.Resembles A w' → Agrees A P (.value a, w) (.value b, w')
  | fault (f) {w w'} : w.Resembles A w' → Agrees A P (.fault f, w) (.fault f, w')
  | stopped {w w'} : w.Resembles A w' → Agrees A P (.stopped, w) (.stopped, w')
  | exhausted {w w'} : w.Resembles A w' → Agrees A P (.exhausted, w) (.exhausted, w')

namespace Eff

variable {κ α β γ δ : Type} {P : α → β → Prop} {Q : γ → δ → Prop} {env : Env κ} {w w' : Session κ}

/-- From these sessions on, two computations go in step. -/
structure AgreeAt (A : Ref → Ref → Prop) (P : α → β → Prop) (env : Env κ) (w w' : Session κ)
    (m : Eff κ α) (m' : Eff κ β) : Prop where
  agrees : Outcome.Agrees A P (m env w) (m' env w')

/-- From sessions that resemble each other on, two computations go in step. -/
def Agree (A : Ref → Ref → Prop) (P : α → β → Prop) (env : Env κ) (m : Eff κ α) (m' : Eff κ β) : Prop :=
  ∀ ⦃w w'⦄, w.Resembles A w' → AgreeAt A P env w w' m m'

namespace AgreeAt

theorem bind {m : Eff κ α} {m' : Eff κ β} {k : α → Eff κ γ} {l : β → Eff κ δ}
    (hm : AgreeAt A P env w w' m m') (hk : ∀ a b, P a b → Agree A Q env (k a) (l b)) :
    AgreeAt A Q env w w' (m >>= k) (m' >>= l) := by
  refine ⟨?_⟩
  have h := hm.agrees
  change Outcome.Agrees A Q (Eff.bind m k env w) (Eff.bind m' l env w')
  unfold Eff.bind
  generalize m env w = x, m' env w' = y at h ⊢
  cases h with
  | value hp hw => exact (hk _ _ hp hw).agrees
  | fault f hw => exact .fault f hw
  | stopped hw => exact .stopped hw
  | exhausted hw => exact .exhausted hw

/-- Containing faults. -/
theorem contain {m m' : Eff κ α} {R : α → α → Prop} {p : Fault → Bool} {handle : Fault → Eff κ α}
    (hm : AgreeAt A R env w w' m m') (hh : ∀ f, Agree A R env (handle f) (handle f)) :
    AgreeAt A R env w w' (contain m p handle) (Eff.contain m' p handle) := by
  refine ⟨?_⟩
  have h := hm.agrees
  change Outcome.Agrees A R (Eff.bind m.attempt _ env w) (Eff.bind m'.attempt _ env w')
  unfold Eff.bind Eff.attempt
  generalize m env w = x, m' env w' = y at h ⊢
  cases h with
  | value hr hw => exact .value hr hw
  | stopped hw => exact .stopped hw
  | exhausted hw => exact .exhausted hw
  | fault f hw =>
    dsimp only
    split
    · exact (hh f hw).agrees
    · exact .fault f hw

theorem bind_store {k l : Store → Eff κ γ} {R : γ → γ → Prop}
    (h : AgreeAt A R env w w' (k w.store) (l w'.store)) :
    AgreeAt A R env w w' (store >>= k) (store >>= l) := ⟨h.agrees⟩

theorem bind_ofExcept {x : Except Fault α} {y : Except Fault β} {k : α → Eff κ γ} {l : β → Eff κ δ}
    (hw : w.Resembles A w') (hx : Matched P x y) (hk : ∀ a b, P a b → AgreeAt A Q env w w' (k a) (l b)) :
    AgreeAt A Q env w w' (ofExcept x >>= k) (ofExcept y >>= l) := by
  cases hx with
  | ok hp => exact ⟨(hk _ _ hp).agrees⟩
  | error f => exact ⟨.fault f hw⟩

theorem pure {a : α} {b : β} (hw : w.Resembles A w') (hp : P a b) :
    AgreeAt A P env w w' (Pure.pure a) (Pure.pure b) := ⟨.value hp hw⟩

theorem build {m : Build α} {m' : Build β} (hw : w.Resembles A w') (hm : Build.Agree A P m m') :
    AgreeAt A P env w w' (build m) (Eff.build m') := by
  refine ⟨?_⟩
  have h := (hm hw.store).agrees
  unfold Eff.build
  generalize m w.store = x, m' w'.store = y at h ⊢
  cases h with
  | ok h => exact .value h.1 ⟨h.2, by rw [hw.beside]⟩
  | error f => exact .fault f hw

theorem notice (n : Notice) (hw : w.Resembles A w') :
    AgreeAt A Eq env w w' (notice n) (Eff.notice n) :=
  ⟨.value rfl ⟨hw.store, by rw [hw.beside]⟩⟩

theorem truthy {v v' : Value} (hw : w.Resembles A w') (hv : v.Resembles A v') :
    AgreeAt A Eq env w w' (truthy v) (Eff.truthy v') :=
  ⟨.value (hw.store.truthy hv).symm hw⟩

end AgreeAt

end Eff

end ReactiveScopes
