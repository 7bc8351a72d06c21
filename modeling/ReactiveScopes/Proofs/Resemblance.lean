import Mathlib.Data.List.Forall2
import ReactiveScopes.Expr.Evaluation
import ReactiveScopes.Proofs.Region

/-!
# Stores that resemble each other

Two stores resemble each other along a one-to-one relation of their references if the cells that it
relates are made of the same things, up to the references in them. Reading, comparing and showing cannot
tell such stores apart: whatever is asked of related values has the same answer in both, or related ones.
Attributes whose names start with an underscore may differ.
-/
namespace ReactiveScopes

/-- The same fault, or results in a relation. -/
inductive Matched {α β : Type} (P : α → β → Prop) : Except Fault α → Except Fault β → Prop
  | ok {a : α} {b : β} : P a b → Matched P (.ok a) (.ok b)
  | error (f : Fault) : Matched P (.error f) (.error f)

namespace Matched

variable {α β γ δ : Type} {P : α → β → Prop} {Q : γ → δ → Prop}

theorem bind {x : Except Fault α} {y : Except Fault β} {k : α → Except Fault γ}
    {l : β → Except Fault δ} (h : Matched P x y) (hk : ∀ a b, P a b → Matched Q (k a) (l b)) :
    Matched Q (x >>= k) (y >>= l) := by
  cases h with
  | ok hp => exact hk _ _ hp
  | error f => exact .error f

theorem of_eq {x y : Except Fault α} (h : x = y) : Matched Eq x y := by
  subst h
  cases x with
  | ok a => exact .ok rfl
  | error f => exact .error f

theorem eq {x y : Except Fault α} (h : Matched Eq x y) : x = y := by
  cases h with
  | ok h => rw [h]
  | error f => rfl

theorem map {x : Except Fault α} {y : Except Fault β} {f : α → γ} {g : β → δ} (h : Matched P x y)
    (hfg : ∀ a b, P a b → Q (f a) (g b)) : Matched Q (x.map f) (y.map g) := by
  cases h with
  | ok hp => exact .ok (hfg _ _ hp)
  | error f => exact .error f

end Matched

variable {A : Ref → Ref → Prop}

/-- The same value up to the cells that it names. -/
inductive Value.Resembles (A : Ref → Ref → Prop) : Value → Value → Prop
  | bare {v : Value} : v.ref? = Option.none → Resembles A v v
  | ref {r r' : Ref} : A r r' → Resembles A (.ref r) (.ref r')
  | method {v v' : Value} (name : String) (mark : Nat) : Resembles A v v' →
    Resembles A (.method v name mark) (.method v' name mark)

namespace Value.Resembles

variable {v v' u u' : Value}

theorem number? (h : v.Resembles A v') : v'.number? = v.number? := by cases h <;> rfl

theorem text? (h : v.Resembles A v') : v'.text? = v.text? := by cases h <;> rfl

theorem isNone (h : v.Resembles A v') : v'.isNone = v.isNone := by cases h <;> rfl

theorem isCallable (h : v.Resembles A v') : v'.isCallable = v.isCallable := by cases h <;> rfl

theorem strictKind (h : v.Resembles A v') : v'.strictKind = v.strictKind := by cases h <;> rfl

theorem eq_of_right (h : v.Resembles A v') (hv : v'.ref? = Option.none) : v = v' := by
  induction h with
  | bare => rfl
  | ref h => cases hv
  | method name mark _ ih => rw [ih hv]

theorem eq_of_left (h : v.Resembles A v') (hv : v.ref? = Option.none) : v = v' := by
  induction h with
  | bare => rfl
  | ref h => cases hv
  | method name mark _ ih => rw [ih hv]

theorem of_method {name : String} {mark : Nat} (h : (Value.method v name mark).Resembles A u) :
    ∃ v', u = .method v' name mark ∧ v.Resembles A v' := by
  cases h with
  | bare hv => exact ⟨v, rfl, .bare hv⟩
  | method _ _ hv => exact ⟨_, rfl, hv⟩

theorem left_unique (hA : Relator.LeftUnique A) : Relator.LeftUnique (Value.Resembles A) := by
  intro a b c hac hbc
  induction hac generalizing b with
  | bare hc => exact (hbc.eq_of_right hc).symm
  | ref h =>
    cases hbc with
    | bare hc => cases hc
    | ref h' => rw [hA h h']
  | method name mark h ih =>
    cases hbc with
    | bare hc => rw [h.eq_of_right hc]
    | method _ _ h' => rw [ih h']

theorem right_unique (hA : Relator.RightUnique A) : Relator.RightUnique (Value.Resembles A) := by
  intro a b c hab hac
  induction hab generalizing c with
  | bare hb => exact hac.eq_of_left hb
  | ref h =>
    cases hac with
    | bare hb => cases hb
    | ref h' => rw [hA h h']
  | method name mark h ih =>
    cases hac with
    | bare hb => rw [h.eq_of_left hb]
    | method _ _ h' => rw [ih h']

/-- Related values are told apart alike. -/
theorem eq_iff (hA : Relator.BiUnique A) (h : v.Resembles A v') (hu : u.Resembles A u') :
    v = u ↔ v' = u' :=
  Relator.rel_eq ⟨left_unique hA.1, right_unique hA.2⟩ h hu

theorem beq (hA : Relator.BiUnique A) (h : v.Resembles A v') (hu : u.Resembles A u') :
    (v' == u') = (v == u) := by
  rw [Bool.eq_iff_iff, beq_iff_eq, beq_iff_eq, h.eq_iff hA hu]

end Value.Resembles

theorem getD_none {x y : Option Value} (h : Option.Rel (Value.Resembles A) x y) :
    (x.getD .none).Resembles A (y.getD .none) := by
  cases h with
  | none => exact .bare rfl
  | some hv => exact hv

/-- What is found under keys that are told apart alike. -/
theorem lookIn_of_forall₂ {κ α : Type} [DecidableEq κ] {P : κ → κ → Prop} {Q : α → α → Prop} {k k' : κ}
    (hk : ∀ {x y}, P x y → (x = k ↔ y = k')) {es fs : List (κ × α)}
    (h : List.Forall₂ (fun e f => P e.1 f.1 ∧ Q e.2 f.2) es fs) :
    Option.Rel Q (Table.lookIn k es) (Table.lookIn k' fs) := by
  induction h with
  | nil => exact .none
  | cons he _ ih =>
    simp only [Table.lookIn, ← hk he.1]
    split
    · exact .some he.2
    · exact ih

/-- Related keys with related values, in the same order. -/
abbrev Mapping.Resembles (A : Ref → Ref → Prop) (t u : Mapping) : Prop :=
  List.Forall₂ (fun e f => e.1.Resembles A f.1 ∧ e.2.Resembles A f.2) t.entries u.entries

/-- What an object shows is the same. -/
structure Object.Resembles (A : Ref → Ref → Prop) (o o' : Object) : Prop where
  name : o'.name = o.name
  kind : o'.kind = o.kind
  methods : o'.methods = o.methods
  comparison : o'.comparison = o.comparison
  raising : ∀ {n}, Store.isPrivate n = false → o'.raising.get? n = o.raising.get? n
  attributes : ∀ {n}, Store.isPrivate n = false →
    Option.Rel (Value.Resembles A) (o.attributes.get? n) (o'.attributes.get? n)

/-- The same cell up to the cells that its parts name. -/
inductive Cell.Resembles (A : Ref → Ref → Prop) : Cell → Cell → Prop
  | list {xs ys} : List.Forall₂ (Value.Resembles A) xs ys → Resembles A (.list xs) (.list ys)
  | dict {t u} : Mapping.Resembles A t u → Resembles A (.dict t) (.dict u)
  | tuple {xs ys} : List.Forall₂ (Value.Resembles A) xs ys → Resembles A (.tuple xs) (.tuple ys)
  | set {xs ys} : List.Forall₂ (Value.Resembles A) xs ys → Resembles A (.set xs) (.set ys)
  | bytes (b) : Resembles A (.bytes b) (.bytes b)
  | record {data data'} (hook) : A data data' → Resembles A (.record data hook) (.record data' hook)
  | object {o o'} : o.Resembles A o' → Resembles A (.object o) (.object o')
  | context {c d} : c.scope.Resembles A d.scope → c.event.Resembles A d.event →
    c.path.Resembles A d.path → c.engine.Resembles A d.engine →
    Resembles A (.context c) (.context d)
  | expr (e) {xs ys} : List.Forall₂ (Value.Resembles A) xs ys → Resembles A (.expr e xs) (.expr e ys)
  | face (part engine) {t u} :
    List.Forall₂ (fun e f => e.1 = f.1 ∧ e.2.Resembles A f.2) t.entries u.entries →
    Resembles A (.face part engine t) (.face part engine u)
  | fault (f) : Resembles A (.fault f) (.fault f)

/-- A value resembles itself if the cell that it names does. -/
theorem Value.resembles_self {v : Value} (h : v.In fun r => A r r) : v.Resembles A v := by
  induction v with
  | ref r => exact .ref (h r rfl)
  | method owner name mark ih => exact .method name mark (ih h)
  | _ => exact .bare rfl

/-- A cell resembles itself if its parts do. -/
theorem Cell.resembles_self {c : Cell} (h : ∀ v ∈ c.parts, v.Resembles A v) : c.Resembles A c := by
  cases c with
  | list xs => exact .list (List.forall₂_same.2 h)
  | tuple xs => exact .tuple (List.forall₂_same.2 h)
  | set xs => exact .set (List.forall₂_same.2 h)
  | dict t =>
    refine .dict (List.forall₂_same.2 fun e he => ⟨h _ ?_, h _ ?_⟩)
    · exact List.mem_append_left _ (List.mem_map_of_mem he)
    · exact List.mem_append_right _ (List.mem_map_of_mem he)
  | bytes b => exact .bytes b
  | record data hook =>
    refine .record hook ?_
    cases h (.ref data) List.mem_cons_self with
    | bare hn => cases hn
    | ref ha => exact ha
  | object o =>
    refine .object ⟨rfl, rfl, rfl, rfl, fun _ => rfl, fun {n} _ => ?_⟩
    cases hx : o.attributes.get? n with
    | none => exact .none
    | some v => exact .some (h v (Table.mem_values_of_get? hx))
  | context c =>
    exact .context (h _ (.head _)) (h _ (.tail _ (.head _))) (h _ (.tail _ (.tail _ (.head _))))
      (h _ (.tail _ (.tail _ (.tail _ (.head _)))))
  | expr e parts => exact .expr e (List.forall₂_same.2 h)
  | face part engine t =>
    exact .face part engine (List.forall₂_same.2 fun e he => ⟨rfl, h _ (List.mem_map_of_mem he)⟩)
  | fault f => exact .fault f

/-- Attributes may be attached to a value: it names no cell, or a part of an engine. -/
def Store.KeepsAttached (s : Store) (v : Value) : Prop :=
  v.ref? = none ∨ ∃ part e members, s.look v = some (.face part e members)

/-- Whatever is in reach of related values is the same in both stores, up to a one-to-one relation of the
references. Cells that are not there yet are related to themselves, so that both stores grow alike. -/
structure Store.Resembles (A : Ref → Ref → Prop) (s s' : Store) : Prop where
  unique : Relator.BiUnique A
  fresh : ∀ {r : Ref}, s.cells.size ≤ r.index → A r r
  size : s'.cells.size = s.cells.size
  cell : ∀ {r r'}, A r r' → Option.Rel (Cell.Resembles A) (s.cell? r) (s'.cell? r')
  attached : ∀ {v v' name}, Store.isPrivate name = false → v.Resembles A v' → s.KeepsAttached v →
    Option.Rel (Value.Resembles A) (s.attachedTo v name) (s'.attachedTo v' name)
  awaitables : s'.awaitables = s.awaitables
  marks : s'.marks = s.marks

namespace Mapping.Resembles

variable {t u : Mapping}

theorem keys (h : Mapping.Resembles A t u) : List.Forall₂ (Value.Resembles A) t.keys u.keys :=
  List.rel_map (fun _ _ h => h.1) h

theorem values (h : Mapping.Resembles A t u) : List.Forall₂ (Value.Resembles A) t.values u.values :=
  List.rel_map (fun _ _ h => h.2) h

theorem get? (h : Mapping.Resembles A t u) (hA : Relator.BiUnique A) {k k' : Value}
    (hk : k.Resembles A k') : Option.Rel (Value.Resembles A) (t.get? k) (u.get? k') :=
  lookIn_of_forall₂ (fun hx => hx.eq_iff hA hk) h

theorem at_getD (h : Mapping.Resembles A t u) (hA : Relator.BiUnique A) (key : String) :
    ((t.at? key).getD .none).Resembles A ((u.at? key).getD .none) :=
  getD_none (h.get? hA (.bare rfl))

theorem size (h : Mapping.Resembles A t u) : u.size = t.size := h.length_eq.symm

end Mapping.Resembles

theorem isEmpty_of_forall₂ {α β : Type} {P : α → β → Prop} {xs : List α} {ys : List β}
    (h : List.Forall₂ P xs ys) : ys.isEmpty = xs.isEmpty := by
  cases h <;> rfl

theorem getElem?_of_forall₂ {α β : Type} {P : α → β → Prop} {xs : List α} {ys : List β}
    (h : List.Forall₂ P xs ys) (i : Nat) : Option.Rel P xs[i]? ys[i]? := by
  induction h generalizing i with
  | nil => exact .none
  | cons hp _ ih =>
    cases i with
    | zero => exact .some hp
    | succ i => exact ih i

theorem map_of_forall₂ {α β γ : Type} {P : α → β → Prop} {f : α → γ} {g : β → γ} {xs : List α}
    {ys : List β} (h : List.Forall₂ P xs ys) (hfg : ∀ {x y}, P x y → g y = f x) :
    ys.map g = xs.map f := by
  induction h with
  | nil => rfl
  | cons hp _ ih => rw [List.map_cons, List.map_cons, hfg hp, ih]

namespace Store.Resembles

variable {s s' : Store} {a a' b b' : Value} (h : s.Resembles A s')

section Reading

include h

theorem depth : s'.depth = s.depth := by rw [Store.depth, h.size, Store.depth]

theorem look (ha : a.Resembles A a') : Option.Rel (Cell.Resembles A) (s.look a) (s'.look a') := by
  cases ha with
  | bare hn =>
    cases a with
    | ref => cases hn
    | _ => exact .none
  | ref hr => exact h.cell hr
  | method => exact .none

theorem mapping? (ha : a.Resembles A a') :
    Option.Rel (Mapping.Resembles A) (s.mapping? a) (s'.mapping? a') := by
  unfold Store.mapping?
  have hl := h.look ha
  generalize s.look a = x, s'.look a' = y at hl ⊢
  cases hl with
  | none => exact .none
  | some hc =>
    cases hc with
    | dict ht => exact .some ht
    | @record data data' _ hd =>
      have hl := h.cell hd
      dsimp only
      generalize s.cell? data = x, s'.cell? data' = y at hl ⊢
      cases hl with
      | none => exact .none
      | some hc =>
        cases hc with
        | dict ht => exact .some ht
        | _ => exact .none
    | _ => exact .none

theorem sequence? (ha : a.Resembles A a') :
    Option.Rel (List.Forall₂ (Value.Resembles A)) (s.sequence? a) (s'.sequence? a') := by
  unfold Store.sequence?
  have hl := h.look ha
  generalize s.look a = x, s'.look a' = y at hl ⊢
  cases hl with
  | none => exact .none
  | some hc =>
    cases hc with
    | list hxs | tuple hxs => exact .some hxs
    | _ => exact .none

theorem truthy (ha : a.Resembles A a') : s'.truthy a' = s.truthy a := by
  cases ha with
  | bare hn =>
    cases a with
    | ref => cases hn
    | _ => rfl
  | @ref r r' hr =>
    have hm := h.mapping? (.ref hr)
    have hl := h.look (.ref hr)
    simp only [Store.truthy]
    generalize s.look (.ref r) = x, s'.look (.ref r') = y at hl ⊢
    cases hl with
    | none => rfl
    | some hc =>
      cases hc with
      | list hxs | tuple hxs | set hxs => simp only [isEmpty_of_forall₂ hxs]
      | dict ht => simp only [Table.isEmpty, isEmpty_of_forall₂ ht]
      | record =>
        dsimp only
        generalize s.mapping? (.ref r) = x, s'.mapping? (.ref r') = y at hm ⊢
        cases hm with
        | none => rfl
        | some ht => simp only [Option.any, Table.isEmpty, isEmpty_of_forall₂ ht]
      | _ => rfl
  | method => rfl

end Reading

section Comparing

include h

theorem identical (ha : a.Resembles A a') (hb : b.Resembles A b') :
    s'.identical a' b' = s.identical a b := by
  have hbeq := ha.beq h.unique hb
  cases ha with
  | bare hn =>
    cases a with
    | ref => cases hn
    | _ => exact hbeq
  | method => exact hbeq
  | ref hr =>
    cases hb with
    | bare hn =>
      cases b with
      | ref => cases hn
      | _ => exact hbeq
    | method => exact hbeq
    | @ref x x' hr' =>
      have hla := h.look (.ref hr)
      have hlb := h.look (.ref hr')
      simp only [Store.identical, hbeq]
      congr 1
      generalize s.look (.ref x) = c, s'.look (.ref x') = c' at hlb ⊢
      generalize s.look _ = d, s'.look _ = d' at hla ⊢
      cases hla with
      | none => cases hlb <;> rfl
      | some hc =>
        cases hlb with
        | none =>
          cases hc with
          | tuple hxs => cases hxs <;> rfl
          | _ => rfl
        | some hd =>
          cases hc with
          | tuple hxs =>
            cases hxs with
            | cons => cases hd <;> rfl
            | nil =>
              cases hd with
              | tuple hys => cases hys <;> rfl
              | _ => rfl
          | _ => cases hd <;> rfl

theorem sameMethod (ha : a.Resembles A a') (hb : b.Resembles A b') :
    s'.sameMethod a' b' = s.sameMethod a b := by
  have hbeq := ha.beq h.unique hb
  cases a with
  | method o n m =>
    obtain ⟨o', rfl, ho⟩ := ha.of_method
    cases b with
    | method p k l =>
      obtain ⟨p', rfl, hp⟩ := hb.of_method
      simp only [Store.sameMethod, h.identical ho hp]
    | _ => cases hb <;> exact hbeq
  | _ => cases ha <;> exact hbeq

/-- Related objects refuse to be compared alike. -/
theorem comparison (ha : a.Resembles A a') :
    (match s'.look a' with | some (.object o) => o.comparison | _ => none) =
      match s.look a with | some (.object o) => o.comparison | _ => none := by
  have hl := h.look ha
  generalize s.look a = x, s'.look a' = y at hl ⊢
  cases hl with
  | none => rfl
  | some hc =>
    cases hc with
    | object ho => exact ho.comparison
    | _ => rfl

theorem refusal? (ha : a.Resembles A a') (hb : b.Resembles A b') :
    s'.refusal? a' b' = s.refusal? a b :=
  congrArg₂ Option.or (h.comparison ha) (h.comparison hb)

end Comparing

/-- Two ways to compare values that answer alike about related ones. -/
def AnswerAlike (A : Ref → Ref → Prop) (same same' : Value → Value → Except Fault Bool) : Prop :=
  ∀ ⦃a a' b b'⦄, a.Resembles A a' → b.Resembles A b' → same' a' b' = same a b

section Searching

variable {same same' sameKey sameKey' : Value → Value → Except Fault Bool}
  (hsame : AnswerAlike A same same')

include hsame

theorem skipEqual {as as' bs bs' : List Value} (ha : List.Forall₂ (Value.Resembles A) as as')
    (hb : List.Forall₂ (Value.Resembles A) bs bs') :
    Matched (fun p q => List.Forall₂ (Value.Resembles A) p.1 q.1 ∧
      List.Forall₂ (Value.Resembles A) p.2 q.2)
      (Store.skipEqual same as bs) (Store.skipEqual same' as' bs') := by
  induction ha generalizing bs bs' with
  | nil => exact .ok ⟨.nil, hb⟩
  | cons ha has ih =>
    cases hb with
    | nil => exact .ok ⟨.cons ha has, .nil⟩
    | cons hb hbs =>
      refine (Matched.of_eq (hsame ha hb).symm).bind fun x y hxy => ?_
      subst hxy
      split
      · exact ih hbs
      · exact .ok ⟨.cons ha has, .cons hb hbs⟩

theorem findKey {x x' : Value} (hx : x.Resembles A x') {ks ks' : List Value}
    (hks : List.Forall₂ (Value.Resembles A) ks ks') :
    Matched (Option.Rel (Value.Resembles A)) (Store.findKey same x ks) (Store.findKey same' x' ks') := by
  induction hks with
  | nil => exact .ok .none
  | cons hk _ ih =>
    refine (Matched.of_eq (hsame hk hx).symm).bind fun x y hxy => ?_
    subst hxy
    split
    · exact .ok (.some hk)
    · exact ih

theorem keyWithin {t u : Mapping} (ht : Mapping.Resembles A t u) {x x' : Value}
    (hx : x.Resembles A x') :
    Matched (Value.Resembles A) (Store.keyWithin same t x) (Store.keyWithin same' u x') := by
  unfold Store.keyWithin
  rw [hx.text?]
  split
  · exact .ok (.bare rfl)
  · refine (findKey hsame hx ht.keys).bind fun k k' hk => ?_
    cases hk with
    | none => exact .ok hx
    | some hk => exact .ok hk

theorem memberOf {x x' : Value} (hx : x.Resembles A x') {ys ys' : List Value}
    (hys : List.Forall₂ (Value.Resembles A) ys ys') :
    Store.memberOf same' x' ys' = Store.memberOf same x ys := by
  induction hys with
  | nil => rfl
  | cons hy _ ih => simp only [Store.memberOf, hsame hy hx, ih]

theorem allMembers {xs xs' ys ys' : List Value} (hxs : List.Forall₂ (Value.Resembles A) xs xs')
    (hys : List.Forall₂ (Value.Resembles A) ys ys') :
    Store.allMembers same' ys' xs' = Store.allMembers same ys xs := by
  induction hxs with
  | nil => rfl
  | cons hx _ ih => simp only [Store.allMembers, memberOf hsame hx hys, ih]

end Searching

theorem fieldsAgree {same same' sameKey sameKey' : Value → Value → Except Fault Bool}
    (hA : Relator.BiUnique A) (hkey : AnswerAlike A sameKey sameKey') (hsame : AnswerAlike A same same')
    {t u : Mapping} (ht : Mapping.Resembles A t u) {es fs : List (Value × Value)}
    (he : List.Forall₂ (fun e f => e.1.Resembles A f.1 ∧ e.2.Resembles A f.2) es fs) :
    Store.fieldsAgree sameKey' same' u fs = Store.fieldsAgree sameKey same t es := by
  induction he with
  | nil => rfl
  | @cons e f es fs he _ ih =>
    obtain ⟨k, v⟩ := e
    obtain ⟨k', v'⟩ := f
    refine (Matched.eq (Matched.bind (keyWithin hkey ht he.1) fun x x' hx => .of_eq ?_)).symm
    have hg := ht.get? hA hx
    generalize t.get? x = a, u.get? x' = b at hg ⊢
    cases hg with
    | none => rfl
    | some hw => simp only [hsame he.2 hw, ih]

section Equality

include h

theorem sameItem {eq eq' : Value → Value → Except Fault Bool} (he : AnswerAlike A eq eq') :
    AnswerAlike A (s.sameItem eq) (s'.sameItem eq') := by
  intro a a' b b' ha hb
  simp only [Store.sameItem, h.identical ha hb, he ha hb]

omit h in
/-- Sequences agree to their ends. -/
theorem agree_to_end {same same' : Value → Value → Except Fault Bool} (hsame : AnswerAlike A same same')
    {xs xs' ys ys' : List Value} (hx : List.Forall₂ (Value.Resembles A) xs xs')
    (hy : List.Forall₂ (Value.Resembles A) ys ys') :
    (Store.skipEqual same' xs' ys' >>= fun p => .ok (p.1.isEmpty && p.2.isEmpty)) =
      Store.skipEqual same xs ys >>= fun p => .ok (p.1.isEmpty && p.2.isEmpty) := by
  refine (Matched.eq ((skipEqual hsame hx hy).bind fun p q hpq => .of_eq ?_)).symm
  simp only [isEmpty_of_forall₂ hpq.1, isEmpty_of_forall₂ hpq.2]

/-- Mappings are compared by their entries, all else by identity. -/
theorem equalOther {same same' sameKey sameKey' : Value → Value → Except Fault Bool}
    (hsame : AnswerAlike A same same') (hkey : AnswerAlike A sameKey sameKey')
    (ha : a.Resembles A a') (hb : b.Resembles A b') :
    (match s'.mapping? a', s'.mapping? b' with
      | some t, some u => if t.size != u.size then .ok false
        else Store.fieldsAgree sameKey' same' u t.entries
      | _, _ => .ok (s'.sameMethod a' b')) =
    (match s.mapping? a, s.mapping? b with
      | some t, some u => if t.size != u.size then .ok false
        else Store.fieldsAgree sameKey same u t.entries
      | _, _ => .ok (s.sameMethod a b) : Except Fault Bool) := by
  have hma := h.mapping? ha
  have hmb := h.mapping? hb
  rw [h.sameMethod ha hb]
  generalize s.mapping? a = x, s'.mapping? a' = x' at hma ⊢
  generalize s.mapping? b = y, s'.mapping? b' = y' at hmb ⊢
  cases hma with
  | none => rfl
  | some ht =>
    cases hmb with
    | none => rfl
    | some hu => simp only [ht.size, hu.size, fieldsAgree h.unique hkey hsame hu ht]

theorem equalWithin (n : Nat) (purpose : Purpose) :
    AnswerAlike A (s.equalWithin n purpose) (s'.equalWithin n purpose) := by
  induction n generalizing purpose with
  | zero => exact fun _ _ _ _ _ _ => rfl
  | succ n ih =>
    intro a a' b b' ha hb
    have hsame := h.sameItem (ih purpose)
    have hkey := h.sameItem (ih .keys)
    have hother := h.equalOther hsame hkey ha hb
    unfold Store.equalWithin
    rw [h.refusal? ha hb, ha.number?, hb.number?, ha.text?, hb.text?]
    dsimp only
    split
    · rfl
    · split
      · rfl
      · rfl
      · have hla := h.look ha
        have hlb := h.look hb
        generalize s.look a = x, s'.look a' = x' at hla ⊢
        generalize s.look b = y, s'.look b' = y' at hlb ⊢
        cases hla with
        | none => exact hother
        | some hc =>
          cases hlb with
          | none => cases hc <;> exact hother
          | some hd =>
            cases hc with
            | list hx =>
              cases hd with
              | list hy =>
                simp only [← hx.length_eq, ← hy.length_eq]
                exact congrArg _ (agree_to_end hsame hx hy)
              | _ => exact hother
            | tuple hx =>
              cases hd with
              | tuple hy => exact agree_to_end hsame hx hy
              | _ => exact hother
            | set hx =>
              cases hd with
              | set hy => simp only [← hx.length_eq, ← hy.length_eq, allMembers hkey hx hy]
              | _ => exact hother
            | bytes =>
              cases hd with
              | bytes => rfl
              | _ => exact hother
            | context h₁ h₂ h₃ h₄ =>
              cases hd with
              | context k₁ k₂ k₃ k₄ =>
                exact agree_to_end hsame (.cons h₁ (.cons h₂ (.cons h₃ (.cons h₄ .nil))))
                  (.cons k₁ (.cons k₂ (.cons k₃ (.cons k₄ .nil))))
              | _ => exact hother
            | expr e hx =>
              cases hd with
              | expr d hy =>
                dsimp only
                exact congrArg _ (agree_to_end hsame hx hy)
              | _ => exact hother
            | _ => cases hd <;> exact hother

theorem equal : AnswerAlike A s.equal s'.equal := by
  intro a a' b b' ha hb
  rw [Store.equal, h.depth]
  exact h.equalWithin s.depth .values ha hb

theorem sameKey : AnswerAlike A s.sameKey s'.sameKey := by
  unfold Store.sameKey
  rw [h.depth]
  exact h.sameItem (h.equalWithin s.depth .keys)

theorem strictEqual : AnswerAlike A s.strictEqual s'.strictEqual := by
  intro a a' b b' ha hb
  simp only [Store.strictEqual, ha.strictKind, hb.strictKind, h.identical ha hb, h.equal ha hb]

/-- Sequences are ordered by the first items that differ. -/
theorem relateItems {rel : Relation} {less less' : Value → Value → Except Fault Bool}
    (hless : AnswerAlike A less less') {xs xs' ys ys' : List Value}
    (hx : List.Forall₂ (Value.Resembles A) xs xs') (hy : List.Forall₂ (Value.Resembles A) ys ys') :
    (do match ← Store.skipEqual (s'.sameItem s'.equal) xs' ys' with
        | (x :: _, y :: _) => less' x y
        | (l, r) => .ok (rel.holds (compare l.length r.length))) =
      (do match ← Store.skipEqual (s.sameItem s.equal) xs ys with
        | (x :: _, y :: _) => less x y
        | (l, r) => .ok (rel.holds (compare l.length r.length)) : Except Fault Bool) := by
  refine (Matched.eq ((skipEqual (h.sameItem h.equal) hx hy).bind fun p q hpq => .of_eq ?_)).symm
  obtain ⟨l, r⟩ := p
  obtain ⟨l', r'⟩ := q
  obtain ⟨hl, hr⟩ : List.Forall₂ _ l l' ∧ List.Forall₂ _ r r' := hpq
  cases hl with
  | nil => cases hr with
    | nil => rfl
    | cons _ hr => simp only [List.length_cons, hr.length_eq]
  | cons ha hl => cases hr with
    | nil => simp only [List.length_cons, hl.length_eq]
    | cons hb _ => exact (hless ha hb).symm

theorem relateWithin (rel : Relation) (n : Nat) :
    AnswerAlike A (s.relateWithin rel n) (s'.relateWithin rel n) := by
  induction n with
  | zero => exact fun _ _ _ _ _ _ => rfl
  | succ n ih =>
    intro a a' b b' ha hb
    unfold Store.relateWithin
    rw [ha.number?, hb.number?, ha.text?, hb.text?]
    dsimp only
    split
    · rfl
    · split
      · rfl
      · have hla := h.look ha
        have hlb := h.look hb
        generalize s.look a = x, s'.look a' = x' at hla ⊢
        generalize s.look b = y, s'.look b' = y' at hlb ⊢
        cases hla with
        | none => rfl
        | some hc =>
          cases hlb with
          | none => cases hc <;> rfl
          | some hd =>
            cases hc with
            | list hx =>
              cases hd with
              | list hy => exact h.relateItems ih hx hy
              | _ => rfl
            | tuple hx =>
              cases hd with
              | tuple hy => exact h.relateItems ih hx hy
              | _ => rfl
            | set hx =>
              cases hd with
              | set hy =>
                simp only [allMembers h.sameKey hx hy, allMembers h.sameKey hy hx,
                  ← hx.length_eq, ← hy.length_eq]
              | _ => rfl
            | _ => cases hd <;> rfl

theorem relate (rel : Relation) : AnswerAlike A (s.relate rel) (s'.relate rel) := by
  intro a a' b b' ha hb
  rw [Store.relate, h.depth]
  exact h.relateWithin rel s.depth ha hb

end Equality

section Showing

variable (h : s.Resembles A s')

include h

omit h in
theorem showCell {show? show?' : Value → String}
    (hs : ∀ {v v'}, v.Resembles A v' → show?' v' = show? v) {c d : Cell} (hc : c.Resembles A d) :
    Store.showCell show?' d = Store.showCell show? c := by
  have hmap {xs ys : List Value} (hx : List.Forall₂ (Value.Resembles A) xs ys) :
      ys.map show?' = xs.map show? :=
    map_of_forall₂ hx hs
  cases hc with
  | list hx => simp only [Store.showCell, hmap hx]
  | tuple hx =>
    -- A tuple of one item is shown with a comma.
    have hm := hmap hx
    cases hx with
    | nil => rfl
    | cons hv hx =>
      cases hx with
      | nil => simp only [Store.showCell, hs hv]
      | cons => simp only [Store.showCell, hm]
  | set hx =>
    have hm := hmap hx
    cases hx with
    | nil => rfl
    | cons => simp only [Store.showCell, hm]
  | dict ht =>
    have := map_of_forall₂ (f := fun e => show? e.1 ++ ": " ++ show? e.2)
      (g := fun e => show?' e.1 ++ ": " ++ show?' e.2) ht fun he => by rw [hs he.1, hs he.2]
    simp only [Store.showCell, this]
  | expr e hx => simp only [Store.showCell, hmap hx]
  | context h₁ h₂ h₃ h₄ =>
    simp only [Store.showCell, List.map, hs h₁, hs h₂, hs h₃, hs h₄]
  | record _ hd => simp only [Store.showCell, hs (.ref hd)]
  | object ho => simp only [Store.showCell, ho.name]
  | @face part e t u hm =>
    have hv : List.Forall₂ (Value.Resembles A) t.values u.values := List.rel_map (fun _ _ h => h.2) hm
    cases part <;> simp only [Store.showCell, hmap hv]
  | bytes | fault => rfl

omit h in
theorem ellipsis {c d : Cell} (hc : c.Resembles A d) : Store.ellipsis d = Store.ellipsis c := by
  cases hc <;> rfl

omit h in
theorem isGuarded {c d : Cell} (hc : c.Resembles A d) : Store.isGuarded d = Store.isGuarded c := by
  cases hc <;> rfl

theorem contains {ws ws' : List Ref} (hw : List.Forall₂ A ws ws') {r r' : Ref} (hr : A r r') :
    ws'.contains r' = ws.contains r := by
  rw [Bool.eq_iff_iff, List.contains_iff_mem, List.contains_iff_mem]
  exact (List.rel_mem h.unique hr hw).symm

theorem showWithin (n : Nat) {ws ws' : List Ref} (hw : List.Forall₂ A ws ws')
    (ha : a.Resembles A a') : s'.showWithin n ws' a' = s.showWithin n ws a := by
  induction n generalizing a a' ws ws' with
  | zero => rfl
  | succ n ih =>
    cases ha with
    | bare hn =>
      cases a with
      | ref => cases hn
      | bool b => cases b <;> rfl
      | _ => rfl
    | method => rfl
    | @ref r r' hr =>
      have hl := h.cell hr
      simp only [Store.showWithin]
      generalize s.cell? r = x, s'.cell? r' = y at hl ⊢
      cases hl with
      | none => rfl
      | some hc =>
        simp only [h.contains hw hr, ellipsis hc, isGuarded hc]
        split
        · rfl
        · refine showCell (fun hv => ih ?_ hv) hc
          split
          · exact .cons hr hw
          · exact hw

theorem shown (ha : a.Resembles A a') : s'.shown a' = s.shown a := by
  unfold Store.shown
  rw [h.depth]
  exact h.showWithin _ .nil ha

theorem textOf (ha : a.Resembles A a') : s'.textOf a' = s.textOf a := by
  have hs := h.shown ha
  cases ha with
  | bare hn => 
    cases a with
    | ref => cases hn
    | text | constant => rfl
    | _ => exact hs
  | _ => exact hs

theorem segmentsOf (ha : a.Resembles A a') : s'.segmentsOf a' = s.segmentsOf a := by
  unfold Store.segmentsOf
  have hq := h.sequence? ha
  rw [h.textOf ha]
  generalize s.sequence? a = x, s'.sequence? a' = y at hq ⊢
  cases hq with
  | none => rfl
  | some hx => exact map_of_forall₂ hx h.textOf

end Showing

section Attributes

variable (h : s.Resembles A s')

theorem bare_rel {x : Option Value} (hx : ∀ v, x = some v → v.ref? = none) :
    Option.Rel (Value.Resembles A) x x := by
  cases x with
  | none => exact .none
  | some v => exact .some (.bare (hx v rfl))

theorem or_rel {x x' y y' : Option Value} (hx : Option.Rel (Value.Resembles A) x x')
    (hy : Option.Rel (Value.Resembles A) y y') : Option.Rel (Value.Resembles A) (x.or y) (x'.or y') := by
  cases hx with
  | none => exact hy
  | some hv => exact .some hv

theorem methodIn (names : List String) (kind : String) (ha : a.Resembles A a') (name : String) :
    Option.Rel (Value.Resembles A) (ReactiveScopes.methodIn names kind a name)
      (ReactiveScopes.methodIn names kind a' name) := by
  unfold ReactiveScopes.methodIn
  split
  · exact .none
  · refine .some (.method name 0 ?_)
    split
    · exact .bare rfl
    · exact ha

theorem part? (e : Expr) {xs ys : List Value} (hx : List.Forall₂ (Value.Resembles A) xs ys)
    (name : String) : Option.Rel (Value.Resembles A) (e.part? xs name) (e.part? ys name) := by
  unfold Expr.part?
  generalize e.form.2 = names
  induction hx generalizing names with
  | nil => cases names <;> exact .none
  | cons hv _ ih =>
    cases names with
    | nil => exact .none
    | cons n names =>
      simp only [List.zip_cons_cons, List.lookup_cons]
      split
      · exact .some hv
      · exact ih names

theorem member {c d : HandlerContext} (hc : (Cell.context c).Resembles A (.context d)) (name : String) :
    Option.Rel (Value.Resembles A) (c.member name) (d.member name) := by
  cases hc with
  | context h₁ h₂ h₃ h₄ =>
    unfold HandlerContext.member
    repeat' split
    exacts [.some h₁, .some h₂, .some h₃, .some h₄, .none]

theorem read? {o o' : Object} (ho : o.Resembles A o') (ha : a.Resembles A a') {name : String}
    (hn : Store.isPrivate name = false) :
    Matched (Option.Rel (Value.Resembles A)) (o.read? a name) (o'.read? a' name) := by
  unfold Object.read?
  rw [ho.raising hn, ho.methods, ho.kind]
  split
  · split
    · exact .ok .none
    · exact .error _
  · exact .ok (or_rel (ho.attributes hn) (methodIn _ _ ha name))

/-- What values that name no cell show of themselves names none either, unless it was attached. -/
theorem bare_of_attribute? (hb : a.ref? = none) {name : String} {x : Value}
    (hx : ({ s with attached := .empty } : Store).attribute? a name = .ok (some x)) : x.ref? = none := by
  have hc : ({ s with attached := .empty } : Store).Closed fun _ => False :=
    ⟨False.elim, fun hr => hr.elim, fun ha => by cases ha⟩
  have hin := (Leads.bare (S := []) hb).attr hx _ hc fun _ hu => by cases hu
  cases hr : x.ref? with
  | none => rfl
  | some r => exact (hin r hr).elim

include h

theorem attribute? (ha : a.Resembles A a') {name : String} (hn : Store.isPrivate name = false) :
    Matched (Option.Rel (Value.Resembles A)) (s.attribute? a name) (s'.attribute? a' name) := by
  have hat := h.attached hn ha
  have hm (names : List String) (kind : String) := methodIn names kind ha name
  cases ha with
  | method => exact .ok .none
  | @ref r r' hr =>
    have hl := h.cell hr
    replace hat (hf : ∃ part e members, s.cell? r = some (.face part e members)) := hat (.inr hf)
    unfold Store.attribute?
    dsimp only
    generalize s.cell? r = x, s'.cell? r' = y at hl hat ⊢
    cases hl with
    | none => exact .ok .none
    | some hc =>
      cases hc with
      | bytes | set => exact .ok (hm _ _)
      | object ho => exact read? ho (.ref hr) hn
      | context h₁ h₂ h₃ h₄ => exact .ok (member (.context h₁ h₂ h₃ h₄) name)
      | expr e hx => exact .ok (part? e hx name)
      | face part e hf =>
        exact .ok (or_rel (lookIn_of_forall₂ (fun hk => hk ▸ .rfl) hf)
          (or_rel (hat ⟨_, _, _, rfl⟩) (hm _ _)))
      | _ => exact .ok .none
  | bare hb =>
    have hbare (x : Value) (hx : ({ s with attached := .empty } : Store).attribute? a name = .ok (some x)) :
      x.ref? = none := bare_of_attribute? hb hx
    cases a with
    | ref => cases hb
    | none | sealed | method => exact .ok .none
    | bool | int | float | nan | text => exact .ok (bare_rel fun x hx => hbare x (congrArg _ hx))
    | fn | scope => exact .ok (hat (.inl hb))
    | constant c =>
      refine .ok (or_rel (bare_rel fun x hx => ?_) (or_rel (hat (.inl hb)) (or_rel (bare_rel fun x hx => ?_) (hm _ _))))
      · unfold Constant.member at hx
        repeat' split at hx
        all_goals cases hx
        all_goals rfl
      · obtain ⟨d, -, rfl⟩ := Option.map_eq_some_iff.1 hx
        rfl
    | promise n =>
      unfold Store.attribute? at hbare ⊢
      rw [h.awaitables]
      dsimp only at hbare ⊢
      split
      · next hw =>
        rw [hw] at hbare
        exact .ok (bare_rel fun x hx => hbare x (congrArg _ hx))
      · exact .ok (or_rel (hat (.inl hb)) (hm _ _))
      · exact .ok .none

end Attributes

section Paths

variable (h : s.Resembles A s')

include h

theorem child (ha : a.Resembles A a') (segment : String) :
    Matched (Value.Resembles A) (s.child a segment) (s'.child a' segment) := by
  have hm := h.mapping? ha
  have hq := h.sequence? ha
  unfold Store.child
  generalize s.mapping? a = x, s'.mapping? a' = x' at hm ⊢
  generalize s.sequence? a = y, s'.sequence? a' = y' at hq ⊢
  cases hm with
  | some ht => exact .ok (ht.at_getD h.unique segment)
  | none =>
    cases hq with
    | some hx =>
      refine .ok (getD_none ?_)
      rw [hx.length_eq]
      cases position? _ segment with
      | none => exact .none
      | some i => exact getElem?_of_forall₂ hx i
    | none =>
      dsimp only
      split
      · exact .ok (.bare rfl)
      · next hp => exact (h.attribute? ha (by simpa using hp)).map fun _ _ => getD_none

theorem readAlong (ha : a.Resembles A a') (ps : List String) :
    Matched (Value.Resembles A) (s.readAlong a ps) (s'.readAlong a' ps) := by
  induction ps generalizing a a' with
  | nil =>
    simp only [Store.readAlong]
    exact .ok ha
  | cons p ps ih =>
    by_cases hv : a = .none
    · subst hv
      cases ha
      exact .ok (.bare rfl)
    · have hv' : a' ≠ .none := fun hn => hv (hn ▸ ha.eq_of_right (hn ▸ rfl))
      rw [Store.readAlong, Store.readAlong]
      · exact (h.child ha p).bind fun _ _ hx => ih hx
      · exact hv'
      · exact hv

theorem getPath (ha : a.Resembles A a') (hb : b.Resembles A b') :
    Matched (Value.Resembles A) (s.getPath a b) (s'.getPath a' b') := by
  have hp : Matched (Value.Resembles A) (s.readAlong a (s.segmentsOf b))
      (s'.readAlong a' (s'.segmentsOf b')) := by
    rw [h.segmentsOf hb]
    exact h.readAlong ha _
  cases hb with
  | bare hn =>
    cases b with
    | none => exact .ok (.bare rfl)
    | _ => exact hp
  | _ => exact hp

end Paths

end Store.Resembles

end ReactiveScopes
