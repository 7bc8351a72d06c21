import ReactiveScopes.Proofs.Parallel.Evaluation
import ReactiveScopes.Run

/-!
# Private attributes

Attributes whose names start with an underscore are out of reach of expressions. Two sessions that differ
in such attributes only go in step when an expression is evaluated in them: the same result, the same
calls of client code, and sessions that again differ in such attributes only. That holds of expressions
that write and call as well, as long as client code itself does not look at such attributes.
-/
namespace ReactiveScopes

/-- Objects that are the same but for private attributes. -/
structure Object.SamePublic (o o' : Object) : Prop where
  name : o'.name = o.name
  kind : o'.kind = o.kind
  methods : o'.methods = o.methods
  comparison : o'.comparison = o.comparison
  raising : ∀ n, Store.isPrivate n = false → o'.raising.get? n = o.raising.get? n
  attributes : ∀ n, Store.isPrivate n = false → o'.attributes.get? n = o.attributes.get? n

/-- Stores that are the same but for private attributes, of objects or attached to other values. -/
structure Store.SamePublic (s s' : Store) : Prop where
  size : s'.cells.size = s.cells.size
  cell : ∀ r, s'.cell? r = s.cell? r ∨
    ∃ o o', s.cell? r = some (.object o) ∧ s'.cell? r = some (.object o') ∧ o.SamePublic o'
  attached : ∀ v n, Store.isPrivate n = false → s.KeepsAttached v →
    s'.attachedTo v n = s.attachedTo v n
  awaitables : s'.awaitables = s.awaitables
  marks : s'.marks = s.marks

/-- Sessions that are the same but for private attributes. -/
structure Session.SamePublic {κ : Type} (w w' : Session κ) : Prop where
  store : w.store.SamePublic w'.store
  beside : w' = { w with store := w'.store }

theorem Session.SamePublic.memory {κ : Type} {w w' : Session κ} (h : w.SamePublic w') :
    w'.memory = w.memory := by
  rw [h.beside]

/-- Client code whose calls do not depend on private attributes, though they may change them. -/
def Env.IgnoresPrivate {κ : Type} (env : Env κ) : Prop :=
  ∀ f args w w', Session.SamePublic w w' →
    (env.call f args w').1 = (env.call f args w).1 ∧
      (env.call f args w).2.SamePublic (env.call f args w').2

/-- An environment that notes every call in the client's memory before it is made. -/
def Env.noting {κ : Type} (note : Value → List Value → κ → κ) (env : Env κ) : Env κ where
  call f args w := env.call f args { w with memory := note f args w.memory }
  budget := env.budget

section Identity

theorem Value.resembles_eq_iff {v v' : Value} : v.Resembles Eq v' ↔ v = v' := by
  refine ⟨fun h => ?_, fun h => h ▸ Value.resembles_self fun _ _ => rfl⟩
  induction h with
  | bare => rfl
  | ref h => rw [h]
  | method _ _ _ ih => rw [ih]

theorem forall₂_resembles_eq_iff {xs ys : List Value} :
    List.Forall₂ (Value.Resembles Eq) xs ys ↔ xs = ys := by
  rw [show Value.Resembles Eq = Eq from funext₂ fun _ _ => propext Value.resembles_eq_iff,
    List.forall₂_eq_eq_eq]

theorem optionRel_resembles_eq_iff {x y : Option Value} :
    Option.Rel (Value.Resembles Eq) x y ↔ y = x := by
  cases x <;> cases y <;> simp [Value.resembles_eq_iff, eq_comm]

theorem Object.resembles_eq_iff {o o' : Object} : o.Resembles Eq o' ↔ o.SamePublic o' :=
  ⟨fun h => ⟨h.name, h.kind, h.methods, h.comparison, fun _ => h.raising,
      fun _ hn => optionRel_resembles_eq_iff.1 (h.attributes hn)⟩,
    fun h => ⟨h.name, h.kind, h.methods, h.comparison, h.raising _,
      fun hn => optionRel_resembles_eq_iff.2 (h.attributes _ hn)⟩⟩

theorem Table.eq_of_forall₂ {κ : Type} {t u : Table κ Value} {P : κ → κ → Prop} (hP : ∀ {k k'}, P k k' → k = k')
    (h : List.Forall₂ (fun e f => P e.1 f.1 ∧ e.2.Resembles Eq f.2) t.entries u.entries) : u = t := by
  obtain ⟨es, hes⟩ := t
  obtain ⟨fs, hfs⟩ := u
  have he : es = fs := by
    rw [← List.forall₂_eq_eq_eq]
    exact h.imp fun e f hef => Prod.ext (hP hef.1) (Value.resembles_eq_iff.1 hef.2)
  subst he
  rfl

theorem Cell.resembles_eq_iff {c d : Cell} : c.Resembles Eq d ↔
    d = c ∨ ∃ o o', c = .object o ∧ d = .object o' ∧ o.SamePublic o' := by
  refine ⟨fun h => ?_, ?_⟩
  · cases h with
    | list hx | tuple hx | set hx =>
      rw [forall₂_resembles_eq_iff.1 hx]
      exact .inl rfl
    | expr e hx =>
      rw [forall₂_resembles_eq_iff.1 hx]
      exact .inl rfl
    | dict ht =>
      rw [Table.eq_of_forall₂ Value.resembles_eq_iff.1 ht]
      exact .inl rfl
    | bytes | fault => exact .inl rfl
    | record hook hd =>
      rw [hd]
      exact .inl rfl
    | object ho => exact .inr ⟨_, _, rfl, rfl, Object.resembles_eq_iff.1 ho⟩
    | @context c d h₁ h₂ h₃ h₄ =>
      obtain ⟨c₁, c₂, c₃, c₄⟩ := c
      obtain ⟨d₁, d₂, d₃, d₄⟩ := d
      simp only [Value.resembles_eq_iff] at h₁ h₂ h₃ h₄
      subst h₁ h₂ h₃ h₄
      exact .inl rfl
    | face part e ht =>
      rw [Table.eq_of_forall₂ id ht]
      exact .inl rfl
  · rintro (rfl | ⟨o, o', rfl, rfl, ho⟩)
    · exact Cell.resembles_self fun v _ => Value.resembles_eq_iff.2 rfl
    · exact .object (Object.resembles_eq_iff.2 ho)

theorem Store.resembles_eq_iff {s s' : Store} : s.Resembles Eq s' ↔ s.SamePublic s' where
  mp h :=
    { size := h.size
      cell := fun r => by
        have hc := h.cell (rfl : r = r)
        generalize s.cell? r = x, s'.cell? r = y at hc ⊢
        cases hc with
        | none => exact .inl rfl
        | some hc =>
          rcases Cell.resembles_eq_iff.1 hc with rfl | ⟨o, o', rfl, rfl, ho⟩
          · exact .inl rfl
          · exact .inr ⟨o, o', rfl, rfl, ho⟩
      attached := fun v n hn hv => optionRel_resembles_eq_iff.1
        (h.attached hn (Value.resembles_eq_iff.2 rfl) hv)
      awaitables := h.awaitables
      marks := h.marks }
  mpr h :=
    { unique := ⟨fun _ _ _ h h' => h.trans h'.symm, fun _ _ _ h h' => h.symm.trans h'⟩
      fresh := fun _ => rfl
      size := h.size
      cell := by
        rintro r _ rfl
        rcases h.cell r with hr | ⟨o, o', hr, hr', ho⟩
        · rw [hr]
          cases s.cell? r with
          | none => exact .none
          | some c => exact .some (Cell.resembles_eq_iff.2 (.inl rfl))
        · rw [hr, hr']
          exact .some (.object (Object.resembles_eq_iff.2 ho))
      attached := fun {v v' n} hn hv hk => by
        cases Value.resembles_eq_iff.1 hv
        exact optionRel_resembles_eq_iff.2 (h.attached v n hn hk)
      awaitables := h.awaitables
      marks := h.marks }

variable {κ : Type} {w w' : Session κ}

theorem Session.resembles_eq_iff : w.Resembles Eq w' ↔ w.SamePublic w' :=
  ⟨fun h => ⟨Store.resembles_eq_iff.1 h.store, h.beside⟩,
    fun h => ⟨Store.resembles_eq_iff.2 h.store, h.beside⟩⟩

theorem Outcome.agrees_eq_iff {α : Type} {P : α → α → Prop} (hP : ∀ {a b}, P a b ↔ a = b)
    {x y : Outcome α × Session κ} :
    Outcome.Agrees Eq P x y ↔ y.1 = x.1 ∧ x.2.SamePublic y.2 := by
  refine ⟨fun h => ?_, fun ⟨ho, hs⟩ => ?_⟩
  · cases h with
    | value hp hw => exact ⟨by rw [hP.1 hp], Session.resembles_eq_iff.1 hw⟩
    | fault f hw | stopped hw | exhausted hw => exact ⟨rfl, Session.resembles_eq_iff.1 hw⟩
  · obtain ⟨o, w⟩ := x
    obtain ⟨o', w'⟩ := y
    cases ho
    have hw := Session.resembles_eq_iff.2 hs
    cases o with
    | value a => exact .value (hP.2 rfl) hw
    | fault f => exact .fault f hw
    | stopped => exact .stopped hw
    | exhausted => exact .exhausted hw

theorem Env.IgnoresPrivate.agrees {env : Env κ} (h : env.IgnoresPrivate) : env.Agrees Eq := by
  intro f f' args args' w w' hf hargs hw
  cases Value.resembles_eq_iff.1 hf
  cases forall₂_resembles_eq_iff.1 hargs
  exact (Outcome.agrees_eq_iff Value.resembles_eq_iff).2 (h f args w w' (Session.resembles_eq_iff.1 hw))

theorem Env.IgnoresPrivate.noting {env : Env κ} (h : env.IgnoresPrivate)
    (note : Value → List Value → κ → κ) : (env.noting note).IgnoresPrivate := by
  intro f args w w' hw
  refine h f args _ _ ⟨hw.store, ?_⟩
  rw [hw.beside]

end Identity

section Raw

variable {A : Ref → Ref → Prop} {s s' : Store} {v v' : Value} (h : s.Resembles A s')

include h

theorem Store.Resembles.kindName (hv : v.Resembles A v') : s'.kindName v' = s.kindName v := by
  have hcell {r r' : Ref} (hr : A r r') := h.cell hr
  cases hv with
  | bare hb =>
    cases v with
    | ref => cases hb
    | method owner =>
      cases owner with
      | ref => cases hb
      | _ => rfl
    | promise n => simp only [Store.kindName, h.awaitables]
    | _ => rfl
  | @ref r r' hr =>
    have hc := hcell hr
    simp only [Store.kindName]
    generalize s.cell? r = x, s'.cell? r' = y at hc ⊢
    cases hc with
    | none => rfl
    | some hc =>
      cases hc with
      | object ho => exact ho.kind
      | _ => rfl
  | @method v v' name mark hv =>
    cases hv with
    | bare hb =>
      cases v with
      | ref => cases hb
      | _ => rfl
    | method => rfl
    | @ref r r' hr =>
      have hc := hcell hr
      simp only [Store.kindName]
      generalize s.cell? r = x, s'.cell? r' = y at hc ⊢
      cases hc with
      | none => rfl
      | some hc => cases hc <;> rfl

/-- The same expression is written in both stores. -/
theorem Store.Resembles.rawWithin (n : Nat) (hv : v.Resembles A v') :
    Raw.ofValueWithin s' n v' = Raw.ofValueWithin s n v := by
  induction n generalizing v v' with
  | zero => rfl
  | succ n ih =>
    have hl := h.look hv
    have hk := h.kindName hv
    cases hv with
    | bare hb =>
      cases v with
      | ref => cases hb
      | none | bool | int | float | nan | text | constant => rfl
      | _ => exact congrArg Raw.foreign hk
    | method => exact congrArg Raw.foreign hk
    | @ref r r' hr =>
      simp only [Raw.ofValueWithin, hk]
      generalize s.look (.ref r) = x, s'.look (.ref r') = y at hl ⊢
      cases hl with
      | none => rfl
      | some hc =>
        cases hc with
        | list hx | tuple hx => simp only [map_of_forall₂ hx ih]
        | dict ht =>
          refine congrArg Raw.object (map_of_forall₂ ht fun he => ?_)
          simp only [h.textOf he.1, ih he.2]
        | _ => rfl

theorem Store.Resembles.raw (hv : v.Resembles A v') : Raw.ofValue s' v' = Raw.ofValue s v := by
  rw [Raw.ofValue, h.depth]
  exact h.rawWithin _ hv

end Raw

section Reducing

open Eff

variable {κ : Type} {A : Ref → Ref → Prop} {env : Env κ}

theorem forM_notice_agree (ns : List Notice) :
    Agree A Eq env (ns.forM notice) (ns.forM notice : Eff κ Unit) := by
  induction ns with
  | nil => exact fun _ _ hw => .pure hw rfl
  | cons n ns ih => exact fun _ _ hw => (AgreeAt.notice n hw).bind fun _ _ _ => ih

theorem Scope.compileValue_agree {v v' : Value} (hv : v.Resembles A v') :
    Agree A Eq env (compileValue v) (compileValue v' : Eff κ Expr) := by
  intro w w' hw
  refine .bind_store ?_
  rw [hw.store.raw hv]
  exact (forM_notice_agree _ hw).bind fun _ _ _ _ _ hw => .pure hw rfl

theorem Mapping.Resembles.erase {t u : Mapping} (h : Mapping.Resembles A t u)
    (hA : Relator.BiUnique A) {k k' : Value} (hk : k.Resembles A k') :
    Mapping.Resembles A (t.erase k) (u.erase k') := by
  change List.Forall₂ _ (Table.dropFrom k t.entries) (Table.dropFrom k' u.entries)
  refine List.rel_filter (fun e f he => ?_) h
  simpa using not_congr (he.1.eq_iff hA hk)

/-- The same extras up to the cells that they name. -/
inductive Extras.Resembles (A : Ref → Ref → Prop) : Extras → Extras → Prop
  | capabilities {c c' : Capabilities} : c.Resembles A c' →
    Resembles A (.capabilities c) (.capabilities c')
  | mapping {v v' : Value} : v.Resembles A v' → Resembles A (.mapping v) (.mapping v')

theorem Capabilities.ofExtras_agree {x x' : Extras} (hx : x.Resembles A x') :
    Agree A (Capabilities.Resembles A) env (ofExtras x) (ofExtras x' : Eff κ Capabilities) := by
  intro w w' hw
  cases hx with
  | capabilities hc => exact .pure hw hc
  | @mapping v v' hv =>
    refine (AgreeAt.truthy hw hv).bind fun b b' hb w w' hw => ?_
    subst hb
    split
    · exact .pure hw ⟨.bare rfl, .bare rfl, .bare rfl, .none⟩
    · refine .bind_store ?_
      have hm := hw.store.mapping? hv
      generalize w.store.mapping? v = t, w'.store.mapping? v' = u at hm ⊢
      cases hm with
      | none => exact .raise hw _
      | @some t u ht =>
        refine .bind_store ?_
        have hnamed : Mapping.Resembles A
            (.ofFields (t.entries.map fun e => (stripDollars (w.store.textOf e.1), e.2)))
            (.ofFields (u.entries.map fun e => (stripDollars (w'.store.textOf e.1), e.2))) := by
          refine FieldsResemble.mapping (List.rel_map (fun e f he => ?_) ht) hw.store.unique
          exact ⟨by rw [hw.store.textOf he.1], he.2⟩
        have hothers := ((hnamed.erase hw.store.unique (.bare rfl : (Value.text "el").Resembles A _)).erase
          hw.store.unique (.bare rfl : (Value.text "event").Resembles A _)).erase
          hw.store.unique (.bare rfl : (Value.text "fetch").Resembles A _)
        have hpart (name : String) := hnamed.at_getD hw.store.unique name
        have halloc : AgreeAt A (Value.Resembles A) env w w' (alloc (.dict _)) (alloc (.dict _)) :=
          .build hw fun _ _ h => .alloc h rfl (.dict hothers)
        exact halloc.bind fun v v' hv _ _ hw =>
          .pure hw ⟨hpart "el", hpart "event", hpart "fetch", .some hv⟩

end Reducing

/-- Reducing a raw expression in two sessions that are the same but for private attributes, in the same
environment: the results are the same, all calls of client code are (so whatever is noted of them is the
same in the end), and the sessions in the end are the same but for private attributes. -/
theorem private_attributes_are_unreachable {κ : Type} (env : Env κ) (ignores : env.IgnoresPrivate)
    (note : Value → List Value → κ → κ) (raw state : Value) (extras : Extras) (pub : Value)
    (w w' : Session κ) (h : w.SamePublic w') :
    (reduce raw state extras pub (env.noting note) w').1 =
        (reduce raw state extras pub (env.noting note) w).1 ∧
      (reduce raw state extras pub (env.noting note) w).2.SamePublic
        (reduce raw state extras pub (env.noting note) w').2 := by
  have self {v : Value} : v.Resembles Eq v := Value.resembles_eq_iff.2 rfl
  have hextras : extras.Resembles Eq extras := by
    cases extras with
    | mapping v => exact .mapping self
    | capabilities c => exact .capabilities ⟨self, self, self, optionRel_resembles_eq_iff.2 rfl⟩
  refine (Outcome.agrees_eq_iff Value.resembles_eq_iff).1 (Eff.AgreeAt.agrees ?_)
  refine (Capabilities.ofExtras_agree hextras (Session.resembles_eq_iff.2 h)).bind
    fun c c' hc w w' hw => (Scope.compileValue_agree self hw).bind fun e e' he => ?_
  subst he
  have hcontext : Context.Resembles Eq ⟨state, c, pub⟩ ⟨state, c', pub⟩ := ⟨self, hc⟩
  exact Evaluation.eval_agree hcontext
    (Expr.every (fun _ => self) (fun _ _ => .inr ⟨(ignores.noting note).agrees, self⟩) e)

-- An object with a secret, and an expression that asks for it, publishes the object and reads its name.
namespace Vault

def holder (secret : String) : Object where
  name := "user"
  attributes := (Table.empty.insert "name" (.text "x")).insert "_secret" (.text secret)

def start : Session (List (Value × List Value)) where
  memory := []
  store := { cells := #[.object (holder "s"), .dict (.ofFields [("user", .ref ⟨0⟩)]), .record ⟨1⟩ .none,
    .list [.text "get", .text "user._secret"], .list [.text "set", .text "copy", .ref ⟨3⟩],
    .list [.text "get", .text "user"], .list [.text "pub", .text "t", .ref ⟨5⟩],
    .list [.text "get", .text "user.name"], .list [.text "seq", .ref ⟨4⟩, .ref ⟨6⟩, .ref ⟨7⟩]] }

/-- The same with another secret. -/
def other : Session (List (Value × List Value)) :=
  { start with store := start.store.put ⟨0⟩ (.object (holder "o")) }

def env : Env (List (Value × List Value)) where
  call _ _ w := (.value .none, w)
  budget := 5

def note (f : Value) (args : List Value) (calls : List (Value × List Value)) :
    List (Value × List Value) := (f, args) :: calls

/-- What comes of the expression. -/
def reduced (w : Session (List (Value × List Value))) :
    Outcome Value × Session (List (Value × List Value)) :=
  reduce (.ref ⟨8⟩) (.ref ⟨2⟩) (.mapping .none) (.fn (.client "pub")) (env.noting note) w

theorem samePublic_holder (a b : String) : (holder a).SamePublic (holder b) where
  name := rfl
  kind := rfl
  methods := rfl
  comparison := rfl
  raising _ _ := rfl
  attributes n hn := by
    have hne : "_secret" ≠ n := fun h => by rw [← h] at hn; exact absurd hn (by decide)
    simp only [holder, Table.get?_insert, if_neg hne]

theorem samePublic : start.SamePublic other where
  beside := rfl
  store :=
    { size := rfl
      cell := fun r => by
        have hput := Store.cell?_put (s := start.store) (c := .object (holder "o")) (x := r)
          (by decide : (⟨0⟩ : Ref).index < start.store.cells.size)
        change (start.store.put ⟨0⟩ (.object (holder "o"))).cell? r = _ ∨ _
        by_cases hr : (⟨0⟩ : Ref) = r
        · subst hr
          exact .inr ⟨_, _, rfl, by rw [if_pos rfl] at hput; exact hput, samePublic_holder _ _⟩
        · exact .inl (by rw [hput, if_neg hr])
      attached := fun _ _ _ _ => rfl
      awaitables := rfl
      marks := rfl }

end Vault

theorem private_attributes_are_unreachable_vault :
    (Vault.reduced Vault.other).1 = .value (.text "x") ∧
    (Vault.reduced Vault.other).2.memory = [(.fn (.client "pub"), [.text "t", .ref ⟨0⟩])] ∧
    (Vault.reduced Vault.start).2.SamePublic (Vault.reduced Vault.other).2 ∧
    ((Vault.reduced Vault.other).2.store.getPath (.ref ⟨2⟩) (.text "copy")).toOption = some .none := by
  have same : (Vault.reduced Vault.other).1 = (Vault.reduced Vault.start).1 ∧
      (Vault.reduced Vault.start).2.SamePublic (Vault.reduced Vault.other).2 := by
    unfold Vault.reduced
    exact private_attributes_are_unreachable Vault.env (fun _ _ _ _ hw => ⟨rfl, hw⟩) Vault.note
      (.ref ⟨8⟩) (.ref ⟨2⟩) (.mapping .none) (.fn (.client "pub")) Vault.start Vault.other Vault.samePublic
  have hresult : (Vault.reduced Vault.start).1 = .value (.text "x") := by decide +kernel
  have hcalls : (Vault.reduced Vault.start).2.memory =
      [(.fn (.client "pub"), [.text "t", .ref ⟨0⟩])] := by
    decide +kernel
  refine ⟨?_, ?_, same.2, by decide +kernel⟩
  · rw [same.1, hresult]
  · rw [same.2.memory, hcalls]

end ReactiveScopes
