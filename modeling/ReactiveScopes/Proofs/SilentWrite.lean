import ReactiveScopes.Proofs.Parallel.Evaluation
import ReactiveScopes.Proofs.Storing
import ReactiveScopes.Run

/-!
# Writes that are not reported

A record does not report a write that puts a value equal to the old one in its place. Expressions that
only read evaluate to the same before and after such a write, provided that equality confuses nothing at
hand: both values have scalars of the same kind in the same places and list their keys in the same order,
and two places hold one container after the write exactly if they did before it. Truth values, whole
numbers and doubles are equal across their kinds, and strict equality tells containers apart that are
equal; there the write is visible though nobody is told.
-/
namespace ReactiveScopes

/-- Scalars that only agree if they are the same: of one kind, and not the two zeros of doubles. -/
inductive Value.Kindred : Value → Value → Prop
  | same {v : Value} : v.ref? = Option.none → Kindred v v
  | bool (a b : Bool) : Kindred (.bool a) (.bool b)
  | int (i j : Int) : Kindred (.int i) (.int j)
  | float {x y : Float} : (x == y → x = y) → Kindred (.float x) (.float y)
  | text (t u : String) : Kindred (.text t) (.text u)

namespace Store

/-- Two rows of JSON values of the same form, with scalars in a relation. The pairs are the containers
that stand in the same places. -/
inductive Paired (s : Store) (q : Value → Value → Prop) :
    List Value → List Value → List (Ref × Ref) → Prop
  | nil : Paired s q [] [] []
  | scalar {a b as bs ps} : q a b → Paired s q as bs ps → Paired s q (a :: as) (b :: bs) ps
  | list {r r' xs ys as bs ps ps'} : s.cell? r = some (.list xs) → s.cell? r' = some (.list ys) →
    Paired s q xs ys ps → Paired s q as bs ps' →
    Paired s q (.ref r :: as) (.ref r' :: bs) ((r, r') :: (ps ++ ps'))
  | dict {r r' t u as bs ps ps'} : s.cell? r = some (.dict t) → s.cell? r' = some (.dict u) →
    t.keys = u.keys → (∀ k ∈ t.keys, ∃ name, k = .text name) → Paired s q t.values u.values ps →
    Paired s q as bs ps' →
    Paired s q (.ref r :: as) (.ref r' :: bs) ((r, r') :: (ps ++ ps'))

/-- The JSON value that a value reads as, if it is one. -/
def jsonWithin (s : Store) : (fuel : Nat) → Value → Option Json
  | 0, _ => none
  | fuel + 1, v =>
    match v.json? with
    | some j => some j
    | none =>
      match s.look v with
      | some (.list xs) => (xs.mapM (jsonWithin s fuel)).map .arr
      | _ => (s.mapping? v).bind fun t => do
        return .obj ((← t.keys.mapM Value.text?).zip (← t.values.mapM (jsonWithin s fuel)))

/-- Deep as the store is, only a cyclic value does not read as one. -/
def json? (s : Store) (v : Value) : Option Json := s.jsonWithin s.depth v

/-- One value reads in one store as another one does in a second store. Both are the same value if all that
is named is kept. -/
structure SameReading (kept : Ref → Prop) (s s' : Store) (v v' : Value) : Prop where
  same : v.In kept → v' = v
  kind : v'.strictKind = v.strictKind
  truth : s'.truthy v' = s.truthy v
  text : s'.textOf v' = s.textOf v
  json : s'.json? v' = s.json? v

end Store

/-- Both runs end in values that read the same, or alike without a value. -/
def SameEnd {κ : Type} (kept : Ref → Prop) (x y : Outcome Value × Session κ) : Prop :=
  match x.1, y.1 with
  | .value v, .value v' => x.2.store.SameReading kept y.2.store v v'
  | o, o' => o' = o

/-- What an evaluation can start to read from. -/
def Context.roots (c : Context) : List Value :=
  c.state :: c.capabilities.el :: c.capabilities.event :: c.capabilities.fetch ::
    c.capabilities.extra.toList

namespace Record

/-- The store without what is stored under a key. -/
def without (s : Store) (data : Ref) (key : String) : Store :=
  s.put data (.dict ((fields s data).erase (.text key)))

/-- A container stands for another one: it is paired with it, or it is the same and can be come to without
the value under the key, or it is not there yet. -/
def StandsFor (s : Store) (c : Context) (data : Ref) (key : String) (pairs : List (Ref × Ref))
    (r r' : Ref) : Prop :=
  (r, r') ∈ pairs ∨
    r = r' ∧ ((∃ v ∈ c.roots, (without s data key).Reaches v r) ∨ s.cells.size ≤ r.index)

/-- A value of the same form takes the place of the old one under a key of the state. -/
structure Replaces (s : Store) (c : Context) (data : Ref) (hook : Hook) (key : String)
    (old new : Value) (pairs : List (Ref × Ref)) : Prop where
  state : s.record? c.state = some (data, hook)
  held : ∃ t, s.cell? data = some (.dict t) ∧ t.at? key = some old
  form : (stored s data key new).Paired Value.Kindred [old] [new] pairs
  apart : ∀ p ∈ pairs, p.1 ≠ data
  sharing : Relator.BiUnique (StandsFor s c data key pairs)

end Record

section Reading

variable {A : Ref → Ref → Prop} {s s' : Store}

theorem mapM_of_forall₂ {α β : Type} {P : α → α → Prop} {f g : α → Option β} {xs ys : List α}
    (hx : List.Forall₂ P xs ys) (hfg : ∀ {x y}, P x y → g y = f x) : ys.mapM g = xs.mapM f := by
  induction hx with
  | nil => rfl
  | cons hp _ ih => rw [List.mapM_cons, List.mapM_cons, hfg hp, ih]

theorem Value.Resembles.json? {v v' : Value} (h : v.Resembles A v') : v'.json? = v.json? := by
  cases h <;> rfl

theorem Store.Resembles.jsonWithin (h : s.Resembles A s') (n : Nat) {v v' : Value}
    (hv : v.Resembles A v') : s'.jsonWithin n v' = s.jsonWithin n v := by
  induction n generalizing v v' with
  | zero => rfl
  | succ n ih =>
    have hl := h.look hv
    have hm := h.mapping? hv
    unfold Store.jsonWithin
    rw [hv.json?]
    generalize s.look v = x, s'.look v' = x' at hl ⊢
    have hfields : ((s'.mapping? v').bind fun t => do
        return Json.obj ((← t.keys.mapM Value.text?).zip (← t.values.mapM (s'.jsonWithin n)))) =
        (s.mapping? v).bind fun t => do
          return Json.obj ((← t.keys.mapM Value.text?).zip (← t.values.mapM (s.jsonWithin n))) := by
      generalize s.mapping? v = y, s'.mapping? v' = y' at hm ⊢
      cases hm with
      | none => rfl
      | some ht =>
        dsimp only [Option.bind_some]
        rw [mapM_of_forall₂ ht.keys Value.Resembles.text?, mapM_of_forall₂ ht.values ih]
    cases v.json? with
    | some j => rfl
    | none =>
      cases hl with
      | none => exact hfields
      | some hc =>
        cases hc with
        | list hx =>
          dsimp only
          rw [mapM_of_forall₂ hx ih]
        | _ => exact hfields

theorem Store.Resembles.json? (h : s.Resembles A s') {v v' : Value} (hv : v.Resembles A v') :
    s'.json? v' = s.json? v := by
  rw [Store.json?, h.depth]
  exact h.jsonWithin s.depth hv

end Reading

section Agreeing

variable {s : Store} {a b : Value}

/-- Two values that are the same, or are found equal. -/
def Store.Agreeing (s : Store) (a b : Value) : Prop :=
  s.identical a b ∨ ∃ n, s.equalWithin n .values a b = .ok true

theorem Store.agreeing_self (vs : List Value) : List.Forall₂ s.Agreeing vs vs :=
  List.forall₂_same.2 fun v _ => .inl (s.identical_self v)

theorem Store.agreeing_of_sameItem {n : Nat} (h : s.sameItem (s.equalWithin n .values) a b = .ok true) :
    s.Agreeing a b := by
  unfold Store.sameItem at h
  split at h
  · next hi => exact .inl hi
  · exact .inr ⟨n, h⟩

theorem Value.Kindred.scalar (h : a.Kindred b) : a.ref? = Option.none := by
  cases h <;> first | rfl | assumption

/-- Kindred scalars that agree are the same. -/
theorem Value.Kindred.eq_of_agreeing (h : a.Kindred b) (hag : s.Agreeing a b) : a = b := by
  rcases hag with hi | ⟨n, hn⟩
  · cases h <;> first | rfl | exact beq_iff_eq.1 hi
  · cases n with
    | zero => cases hn
    | succ n =>
      cases h with
      | same => rfl
      | bool a b =>
        revert hn
        cases a <;> cases b <;> intro hn <;> first | rfl | cases hn
      | int i j =>
        have hn : (some (compare i j) == some .eq) = true := Except.ok.inj hn
        rw [Option.some_beq_some, beq_iff_eq, Int.compare_eq_eq] at hn
        rw [hn]
      | @float x y hxy =>
        have hn : ((Number.float x).compare? (.float y) == some .eq) = true := Except.ok.inj hn
        simp only [Number.compare?] at hn
        split at hn
        · cases hn
        · split at hn
          · cases hn
          · split at hn
            · next he => rw [hxy he]
            · cases hn
      | text t u =>
        have hn : (t == u) = true := Except.ok.inj hn
        rw [beq_iff_eq.1 hn]

/-- Sequences without a difference agree item by item. -/
theorem Store.forall₂_of_skipEqual {same : Value → Value → Except Fault Bool} {xs ys l r : List Value}
    (h : Store.skipEqual same xs ys = .ok (l, r)) (hl : l.isEmpty) (hr : r.isEmpty) :
    List.Forall₂ (fun a b => same a b = .ok true) xs ys := by
  induction xs generalizing ys with
  | nil =>
    cases ys with
    | nil => exact .nil
    | cons y ys => cases h; cases hr
  | cons x xs ih =>
    cases ys with
    | nil => cases h; cases hl
    | cons y ys =>
      rw [Store.skipEqual] at h
      cases hs : same x y with
      | error f => rw [hs] at h; cases h
      | ok b =>
        rw [hs] at h
        cases b with
        | true => exact .cons hs (ih h)
        | false => cases h; cases hl

/-- Lists and dictionaries are nothing but themselves. -/
theorem Store.eq_of_identical {r r' : Ref} {c : Cell} (hr : s.cell? r = some c)
    (container : (∃ xs, c = .list xs) ∨ ∃ t, c = .dict t) (h : s.identical (.ref r) (.ref r')) : r = r' := by
  have same : (Value.ref r == .ref r') = true := by
    rcases container with ⟨xs, rfl⟩ | ⟨t, rfl⟩ <;> simpa only [Store.identical, Store.look, hr, Bool.or_false] using h
  cases beq_iff_eq.1 same
  rfl

theorem Store.agreeing_items {r r' : Ref} {xs ys : List Value} (hr : s.cell? r = some (.list xs))
    (hr' : s.cell? r' = some (.list ys)) (h : s.Agreeing (.ref r) (.ref r')) :
    List.Forall₂ s.Agreeing xs ys := by
  rcases h with hi | ⟨n, hn⟩
  · cases eq_of_identical hr (.inl ⟨xs, rfl⟩) hi
    rw [hr] at hr'
    cases hr'
    exact agreeing_self xs
  · cases n with
    | zero => cases hn
    | succ n =>
      simp only [Store.equalWithin, Store.refusal?, Store.look, hr, hr', Value.number?, Value.text?,
        reduceCtorEq, if_false, Option.or_none] at hn
      split at hn
      · cases hn
      · cases hs : Store.skipEqual (s.sameItem (s.equalWithin n .values)) xs ys with
        | error f => rw [hs] at hn; cases hn
        | ok p =>
          rw [hs] at hn
          have hp := Bool.and_eq_true_iff.1 (Except.ok.inj hn)
          exact (forall₂_of_skipEqual hs hp.1 hp.2).imp fun _ _ => agreeing_of_sameItem

theorem Store.fieldsAgree_cons {sameKey same : Value → Value → Except Fault Bool} {u : Mapping}
    {es : List (Value × Value)} {name : String} {v v' : Value} (h : u.get? (.text name) = some v') :
    Store.fieldsAgree sameKey same u ((.text name, v) :: es) =
      (do if ← same v v' then Store.fieldsAgree sameKey same u es else .ok false) := by
  simp only [Store.fieldsAgree, Store.keyWithin, Value.text?, Except.bind, bind, h]

/-- Fields that agree with those of a mapping with the same keys in the same order do so in place. -/
theorem Store.forall₂_of_fieldsAgree {sameKey same : Value → Value → Except Fault Bool} {u : Mapping}
    {es fs : List (Value × Value)} (hkeys : es.map Prod.fst = fs.map Prod.fst)
    (htext : ∀ k ∈ es.map Prod.fst, ∃ name, k = .text name) (hmem : ∀ e ∈ fs, e ∈ u.entries)
    (h : Store.fieldsAgree sameKey same u es = .ok true) :
    List.Forall₂ (fun a b => same a b = .ok true) (es.map Prod.snd) (fs.map Prod.snd) := by
  induction es generalizing fs with
  | nil =>
    cases fs with
    | nil => exact .nil
    | cons => cases hkeys
  | cons e es ih =>
    cases fs with
    | nil => cases hkeys
    | cons f fs =>
      obtain ⟨k, v⟩ := e
      obtain ⟨k', v'⟩ := f
      obtain ⟨rfl, hrest⟩ : k = k' ∧ es.map Prod.fst = fs.map Prod.fst := by simpa using hkeys
      obtain ⟨name, rfl⟩ := htext k List.mem_cons_self
      have hget : u.get? (.text name) = some v' :=
        u.get?_of_mem (hmem _ List.mem_cons_self)
      rw [fieldsAgree_cons hget] at h
      cases hs : same v v' with
      | error f => rw [hs] at h; cases h
      | ok b =>
        rw [hs] at h
        cases b with
        | false => cases h
        | true =>
          exact .cons hs (ih hrest (fun k hk => htext k (List.mem_cons_of_mem _ hk))
            (fun e he => hmem e (List.mem_cons_of_mem _ he)) h)

theorem Store.agreeing_fields {r r' : Ref} {t u : Mapping} (hr : s.cell? r = some (.dict t))
    (hr' : s.cell? r' = some (.dict u)) (hkeys : t.keys = u.keys)
    (htext : ∀ k ∈ t.keys, ∃ name, k = .text name) (h : s.Agreeing (.ref r) (.ref r')) :
    List.Forall₂ s.Agreeing t.values u.values := by
  rcases h with hi | ⟨n, hn⟩
  · cases eq_of_identical hr (.inr ⟨t, rfl⟩) hi
    rw [hr] at hr'
    cases hr'
    exact agreeing_self t.values
  · cases n with
    | zero => cases hn
    | succ n =>
      simp only [Store.equalWithin, Store.refusal?, Store.mapping?, Store.look, hr, hr', Value.number?,
        Value.text?, reduceCtorEq, if_false, Option.or_none] at hn
      split at hn
      · cases hn
      · exact (forall₂_of_fieldsAgree hkeys htext (fun _ => id) hn).imp fun _ _ => agreeing_of_sameItem

/-- In rows that agree the scalars are the same. -/
theorem Store.Paired.same {as bs : List Value} {ps : List (Ref × Ref)}
    (h : s.Paired Value.Kindred as bs ps) (hag : List.Forall₂ s.Agreeing as bs) :
    s.Paired (fun a b => a = b ∧ a.ref? = none) as bs ps := by
  induction h with
  | nil => exact .nil
  | @scalar a b as bs ps hq _ ih =>
    cases hag with
    | cons hab hag =>
      obtain rfl := hq.eq_of_agreeing hab
      exact .scalar ⟨rfl, hq.scalar⟩ (ih hag)
  | list hr hr' _ _ ih ih' =>
    cases hag with
    | cons hab hag => exact .list hr hr' (ih (agreeing_items hr hr' hab)) (ih' hag)
  | dict hr hr' hkeys htext _ _ ih ih' =>
    cases hag with
    | cons hab hag =>
      exact .dict hr hr' hkeys htext (ih (agreeing_fields hr hr' hkeys htext hab)) (ih' hag)

end Agreeing

section Standing

variable {A : Ref → Ref → Prop} {s : Store} {as bs : List Value} {ps : List (Ref × Ref)}

/-- Rows with the same scalars resemble each other along the containers in them. -/
theorem Store.Paired.resembles (h : s.Paired (fun a b => a = b ∧ a.ref? = none) as bs ps)
    (hps : ∀ p ∈ ps, A p.1 p.2) : List.Forall₂ (Value.Resembles A) as bs := by
  induction h with
  | nil => exact .nil
  | scalar hq _ ih =>
    obtain ⟨rfl, ha⟩ := hq
    exact .cons (.bare ha) (ih hps)
  | list _ _ _ _ _ ih | dict _ _ _ _ _ _ _ ih =>
    exact .cons (.ref (hps _ List.mem_cons_self))
      (ih fun p hp => hps p (List.mem_cons_of_mem _ (List.mem_append_right _ hp)))

theorem Mapping.resembles_of_keys {t u : Mapping} (hkeys : t.keys = u.keys)
    (htext : ∀ k ∈ t.keys, ∃ name, k = .text name)
    (hv : List.Forall₂ (Value.Resembles A) t.values u.values) : Mapping.Resembles A t u := by
  obtain ⟨es, hes⟩ := t
  obtain ⟨fs, hfs⟩ := u
  simp only [Table.keys, Table.values] at hkeys htext hv
  change List.Forall₂ _ es fs
  clear hes hfs
  induction es generalizing fs with
  | nil =>
    cases fs with
    | nil => exact .nil
    | cons => cases hkeys
  | cons e es ih =>
    cases fs with
    | nil => cases hkeys
    | cons f fs =>
      obtain ⟨hk, hkeys⟩ := List.cons.inj hkeys
      obtain ⟨name, hname⟩ := htext e.1 List.mem_cons_self
      cases hv with
      | cons hv hvs =>
        refine .cons ⟨?_, hv⟩ (ih (fun k hk => htext k (List.mem_cons_of_mem _ hk)) fs hkeys hvs)
        rw [← hk, hname]
        exact .bare rfl

/-- So do the containers that stand in the same places. -/
theorem Store.Paired.cells (h : s.Paired (fun a b => a = b ∧ a.ref? = none) as bs ps)
    (hps : ∀ p ∈ ps, A p.1 p.2) :
    ∀ p ∈ ps, ∃ c d, s.cell? p.1 = some c ∧ s.cell? p.2 = some d ∧ c.Resembles A d := by
  induction h with
  | nil => exact fun _ h => by cases h
  | scalar _ _ ih => exact ih hps
  | list hr hr' hin _ ih ih' =>
    have hleft := fun p hp => hps p (List.mem_cons_of_mem _ (List.mem_append_left _ hp))
    have hright := fun p hp => hps p (List.mem_cons_of_mem _ (List.mem_append_right _ hp))
    intro p hp
    rcases List.mem_cons.1 hp with rfl | hp
    · exact ⟨_, _, hr, hr', .list (hin.resembles hleft)⟩
    · exact (List.mem_append.1 hp).elim (ih hleft p) (ih' hright p)
  | dict hr hr' hkeys htext hin _ ih ih' =>
    have hleft := fun p hp => hps p (List.mem_cons_of_mem _ (List.mem_append_left _ hp))
    have hright := fun p hp => hps p (List.mem_cons_of_mem _ (List.mem_append_right _ hp))
    intro p hp
    rcases List.mem_cons.1 hp with rfl | hp
    · exact ⟨_, _, hr, hr', .dict (Mapping.resembles_of_keys hkeys htext (hin.resembles hleft))⟩
    · exact (List.mem_append.1 hp).elim (ih hleft p) (ih' hright p)

theorem Store.Paired.container {q : Value → Value → Prop} (h : s.Paired q as bs ps) :
    ∀ p ∈ ps, (∃ xs, s.cell? p.1 = some (.list xs)) ∨ ∃ t, s.cell? p.1 = some (.dict t) := by
  induction h with
  | nil => exact fun _ h => by cases h
  | scalar _ _ ih => exact ih
  | list hr _ _ _ ih ih' =>
    intro p hp
    rcases List.mem_cons.1 hp with rfl | hp
    · exact .inl ⟨_, hr⟩
    · exact (List.mem_append.1 hp).elim (ih p) (ih' p)
  | dict hr _ _ _ _ _ ih ih' =>
    intro p hp
    rcases List.mem_cons.1 hp with rfl | hp
    · exact .inr ⟨_, hr⟩
    · exact (List.mem_append.1 hp).elim (ih p) (ih' p)

end Standing

theorem Mapping.Resembles.insert_right {A : Ref → Ref → Prop} {t : Mapping} {k old new : Value}
    (hk : k.ref? = none) (hold : t.get? k = some old) (hv : old.Resembles A new)
    (hrest : ∀ e ∈ t.entries, e.1 ≠ k → e.1.Resembles A e.1 ∧ e.2.Resembles A e.2) :
    Mapping.Resembles A t (t.insert k new) := by
  obtain ⟨es, hes⟩ := t
  change List.Forall₂ _ es (Table.storeIn k new es)
  replace hold : Table.lookIn k es = some old := hold
  replace hrest : ∀ e ∈ es, e.1 ≠ k → e.1.Resembles A e.1 ∧ e.2.Resembles A e.2 := hrest
  induction es with
  | nil => cases hold
  | cons e es ih =>
    rw [List.map_cons, List.nodup_cons] at hes
    rw [Table.lookIn] at hold
    rw [Table.storeIn]
    split at hold
    · next he =>
      cases hold
      rw [if_pos he]
      refine .cons ⟨he ▸ .bare (he ▸ hk), hv⟩ (List.forall₂_same.2 fun f hf => ?_)
      exact hrest f (List.mem_cons_of_mem _ hf) fun hfk => hes.1 (he ▸ hfk ▸ List.mem_map_of_mem hf)
    · next he =>
      rw [if_neg he]
      exact .cons (hrest e List.mem_cons_self he)
        (ih hes.2 hold fun f hf => hrest f (List.mem_cons_of_mem _ hf))

namespace Record.Replaces

variable {s : Store} {c : Context} {data : Ref} {hook : Hook} {key : String} {old new : Value}
  {pairs : List (Ref × Ref)} (h : Replaces s c data hook key old new pairs)

/-- What can be come to without the value under the key stands for itself. -/
theorem standsFor_self {v u : Value} (hv : v ∈ c.roots)
    (hu : ∀ r, u.ref? = some r → (without s data key).Reaches v r) :
    u.Resembles (StandsFor s c data key pairs) u :=
  Value.resembles_self fun r hr => .inr ⟨rfl, .inl ⟨v, hv, hu r hr⟩⟩

theorem root {v : Value} (hv : v ∈ c.roots) : v.Resembles (StandsFor s c data key pairs) v :=
  standsFor_self hv fun _ hr => .here hr

include h

theorem put_ne {r : Ref} (hr : r ≠ data) (d : Cell) : (s.put data d).cell? r = s.cell? r := by
  obtain ⟨t, ht, -⟩ := h.held
  rw [Store.cell?_put (Array.getElem?_eq_some_iff.1 ht).1, if_neg (Ne.symm hr)]

theorem put_data (d : Cell) : (s.put data d).cell? data = some d := by
  obtain ⟨t, ht, -⟩ := h.held
  rw [Store.cell?_put (Array.getElem?_eq_some_iff.1 ht).1, if_pos rfl]

/-- A write that is not reported leaves the scalars as they are. -/
theorem same (hsilent : changed (stored s data key new) (some old) new = false) :
    (stored s data key new).Paired (fun a b => a = b ∧ a.ref? = none) [old] [new] pairs := by
  refine h.form.same (.cons ?_ .nil)
  unfold changed at hsilent
  dsimp only at hsilent
  split at hsilent
  · next hi => exact .inl hi
  · split at hsilent
    · next b hb =>
      cases b with
      | true => exact .inr ⟨_, hb⟩
      | false => cases hsilent
    · cases hsilent

theorem cell (hsilent : changed (stored s data key new) (some old) new = false) {r r' : Ref}
    (hr : StandsFor s c data key pairs r r') :
    Option.Rel (Cell.Resembles (StandsFor s c data key pairs)) (s.cell? r)
      ((stored s data key new).cell? r') := by
  have hform := h.same hsilent
  have hpairs : ∀ p ∈ pairs, StandsFor s c data key pairs p.1 p.2 := fun p hp => .inl hp
  rcases hr with hr | ⟨rfl, ⟨v, hv, hr⟩ | hr⟩
  · obtain ⟨d, d', hd, hd', hdd⟩ := hform.cells hpairs _ hr
    rw [stored, h.put_ne (h.apart _ hr)] at hd
    rw [hd, hd']
    exact .some hdd
  · by_cases hdata : r = data
    · obtain ⟨t, ht, hold⟩ := h.held
      have hfields : fields s data = t := by rw [fields, Store.mapping?, Store.look, ht]; rfl
      subst hdata
      rw [ht, stored, h.put_data, hfields]
      have hnew : old.Resembles (StandsFor s c r key pairs) new := by
        cases hform.resembles hpairs with
        | cons ho _ => exact ho
      refine .some (.dict (.insert_right rfl hold hnew fun e he hne => ?_))
      have hcell : (without s r key).cell? r = some (.dict (t.erase (.text key))) := by
        rw [without, h.put_data, hfields]
      have hin : e ∈ (t.erase (.text key)).entries := List.mem_filter.2 ⟨he, by simpa using hne⟩
      exact ⟨standsFor_self hv fun r' hr' =>
          .part hr hcell (List.mem_append_left _ (List.mem_map_of_mem hin)) hr',
        standsFor_self hv fun r' hr' =>
          .part hr hcell (List.mem_append_right _ (List.mem_map_of_mem hin)) hr'⟩
    · rw [stored, h.put_ne hdata]
      cases hcell : s.cell? r with
      | none => exact .none
      | some d =>
        have hcell' : (without s data key).cell? r = some d := by rw [without, h.put_ne hdata, hcell]
        exact .some (Cell.resembles_self fun u hu => standsFor_self hv fun r' hr' =>
          .part hr hcell' hu hr')
  · have hout (t : Store) (ht : t.cells.size = s.cells.size) : t.cell? r = none :=
      Array.getElem?_eq_none (ht ▸ hr)
    rw [hout s rfl, hout _ (by simp [stored, Store.put])]
    exact .none

theorem resembles (hsilent : changed (stored s data key new) (some old) new = false) :
    s.Resembles (StandsFor s c data key pairs) (stored s data key new) where
  unique := h.sharing
  fresh hr := .inr ⟨rfl, .inr hr⟩
  size := by simp [stored, Store.put]
  cell := h.cell hsilent
  attached := by
    intro v v' name _ hv hk
    have hroot : c.state ∈ c.roots := List.mem_cons_self
    have hsame : v = v' := by
      rcases hk with hk | ⟨part, e, members, hl⟩
      · exact hv.eq_of_left hk
      · cases hv with
        | bare => rfl
        | method => cases hl
        | ref hr =>
          rcases hr with hr | ⟨rfl, -⟩
          · rcases h.form.container _ hr with ⟨xs, hxs⟩ | ⟨t, ht⟩
            · rw [stored, h.put_ne (h.apart _ hr)] at hxs
              cases hl.symm.trans hxs
            · rw [stored, h.put_ne (h.apart _ hr)] at ht
              cases hl.symm.trans ht
          · rfl
    subst hsame
    have hself (x : Value) (hx : s.attachedTo v name = some x) :
        x.Resembles (StandsFor s c data key pairs) x :=
      standsFor_self hroot fun r hr => .attached (by exact hx) hr
    change Option.Rel _ (s.attachedTo v name) (s.attachedTo v name)
    cases hx : s.attachedTo v name with
    | none => exact .none
    | some x => exact .some (hself x hx)
  awaitables := rfl
  marks := rfl

omit h in
/-- Both evaluations start to read from the same. -/
theorem context : c.Resembles (StandsFor s c data key pairs) c where
  state := root (.head _)
  capabilities :=
    { el := root (.tail _ (.head _))
      event := root (.tail _ (.tail _ (.head _)))
      fetch := root (.tail _ (.tail _ (.tail _ (.head _))))
      extra := by
        cases hx : c.capabilities.extra with
        | none => exact .none
        | some v =>
          refine .some (root ?_)
          simp [Context.roots, hx] }

end Record.Replaces

theorem Store.Resembles.sameReading {A : Ref → Ref → Prop} {s s' : Store} (h : s.Resembles A s')
    {v v' : Value} (hv : v.Resembles A v') : s.SameReading (fun r => A r r) s' v v' where
  same hkept := by
    induction hv with
    | bare => rfl
    | ref hr => rw [h.unique.2 hr (hkept _ rfl)]
    | method name mark _ ih => rw [ih hkept]
  kind := hv.strictKind
  truth := h.truthy hv
  text := h.textOf hv
  json := h.json? hv

open Record in
/-- Storing a value of the same form as the old one without a report, so that sharing stays as it was, is
invisible to every expression that only reads and whose literals are kept. -/
theorem silent_write_is_invisible {κ : Type} (env : Env κ) (w : Session κ) (c : Context) (data : Ref)
    (hook : Hook) (key : String) (old new : Value) (pairs : List (Ref × Ref))
    (h : Replaces w.store c data hook key old new pairs)
    (hsilent : changed (stored w.store data key new) (some old) new = false) :
    Record.perform data hook (.setItem (.text key) new) env w =
        (.value .none, { w with store := stored w.store data key new }) ∧
      ∀ e : Expr, e.Every (fun v => v.In fun r => StandsFor w.store c data key pairs r r)
          (fun op _ => op.isReadOnly) →
        SameEnd (fun r => StandsFor w.store c data key pairs r r) (Evaluation.eval c e env w)
          (Evaluation.eval c e env { w with store := stored w.store data key new }) := by
  refine ⟨?_, fun e he => ?_⟩
  · obtain ⟨t, ht, hold⟩ := h.held
    have hfield : (fields w.store data).get? (.text key) = some old := by
      rw [fields, Store.mapping?, Store.look, ht]
      exact hold
    have hset : setItem data hook (.text key) new env w =
        (.value (), { w with store := stored w.store data key new }) := by
      change (if changed (stored w.store data key new) ((fields w.store data).get? (.text key)) new
        then report hook (.text key) else pure ()) env
          { w with store := stored w.store data key new } = _
      rw [hfield, hsilent]
      rfl
    change Eff.bind (setItem data hook (.text key) new) _ env w = _
    rw [Eff.bind, hset]
    rfl
  · have hw : w.Resembles (StandsFor w.store c data key pairs)
        { w with store := stored w.store data key new } := ⟨h.resembles hsilent, rfl⟩
    have hagree : Evaluation.AgreesOn _ env c c e := Evaluation.eval_agree Record.Replaces.context
      (he.mono (fun _ hv => Value.resembles_self hv) fun _ _ hop => .inl hop)
    have hend := (hagree hw).agrees
    unfold SameEnd
    generalize Evaluation.eval c e env w = x at hend ⊢
    generalize Evaluation.eval c e env _ = y at hend ⊢
    cases hend with
    | value hv hw => exact hw.store.sameReading hv
    | fault | stopped | exhausted => rfl

-- A state whose user has a list of tags, and a user that is equal to it.
namespace Renewal

def owner (tags : Ref) : Mapping := .ofFields [("name", .text "x"), ("tags", .ref tags)]

def store : Store where
  cells := #[.list [.text "t"], .dict (owner ⟨0⟩), .list [.text "t"], .dict (owner ⟨2⟩), .list [.int 7],
    .dict (.ofFields [("user", .ref ⟨1⟩), ("rest", .ref ⟨4⟩)]), .record ⟨5⟩ (.schedule 0 (.scope "a"))]

def start : Session Unit where
  memory := ()
  store := store

def env : Env Unit := Env.within (fun _ => { body := fun _ => .done .none }) 5

def context : Context where
  state := .ref ⟨6⟩

def pairs : List (Ref × Ref) := [(⟨1⟩, ⟨3⟩), (⟨0⟩, ⟨2⟩)]

open Record in
theorem closed : (without store ⟨5⟩ "user").Closed fun r => 4 ≤ r.index ∧ r.index < 7 where
  bound hr := hr.2
  part := by
    intro r c hr hc v hv r' hr'
    have hparts : ∀ c ∈ ((without store ⟨5⟩ "user").cells.toList.drop 4),
        ∀ v ∈ c.parts, v.ref?.all fun r => 4 ≤ r.index && r.index < 7 := by
      decide +kernel
    have hmem : c ∈ (without store ⟨5⟩ "user").cells.toList.drop 4 := by
      refine List.mem_of_getElem? (i := r.index - 4) ?_
      rw [List.getElem?_drop, Nat.add_sub_cancel' hr.1, Array.getElem?_toList]
      exact hc
    have := hparts c hmem v hv
    rw [hr'] at this
    simpa using this
  attached h := by cases h

theorem standsFor {r r' : Ref} (h : Record.StandsFor store context ⟨5⟩ "user" pairs r r') :
    r = ⟨1⟩ ∧ r' = ⟨3⟩ ∨ r = ⟨0⟩ ∧ r' = ⟨2⟩ ∨ r = r' ∧ 4 ≤ r.index := by
  rcases h with h | ⟨rfl, ⟨v, hv, h⟩ | h⟩
  · exact (by simpa [pairs] using h : _ ∨ _).imp_right .inl
  · refine .inr (.inr ⟨rfl, (h.inside closed ?_).1⟩)
    rcases List.mem_cons.1 hv with rfl | hv
    · intro r hr
      cases hr
      decide
    · have : v = .none := by simpa [context] using hv
      subst this
      exact Value.in_of_ref?_eq_none rfl
  · exact .inr (.inr ⟨rfl, Nat.le_trans (by decide) h⟩)

theorem replaces : Record.Replaces start.store context ⟨5⟩ (.schedule 0 (.scope "a")) "user" (.ref ⟨1⟩)
    (.ref ⟨3⟩) pairs where
  state := by decide +kernel
  held := ⟨.ofFields [("user", .ref ⟨1⟩), ("rest", .ref ⟨4⟩)], rfl, by decide +kernel⟩
  form := by
    have htags : (Record.stored store ⟨5⟩ "user" (.ref ⟨3⟩)).Paired Value.Kindred (owner ⟨0⟩).values
        (owner ⟨2⟩).values [(⟨0⟩, ⟨2⟩)] :=
      .scalar (.same rfl) (.list rfl rfl (.scalar (.same rfl) .nil) .nil)
    have hkeys : (owner ⟨0⟩).keys = [.text "name", .text "tags"] := by decide +kernel
    refine .dict rfl rfl (by decide +kernel) (fun k hk => ?_) htags .nil
    rw [hkeys] at hk
    exact (by simpa using hk : _ ∨ _).elim (fun h => ⟨_, h⟩) fun h => ⟨_, h⟩
  apart := by decide
  sharing := by
    constructor
    · intro a b c ha hb
      rcases standsFor ha with ⟨rfl, rfl⟩ | ⟨rfl, rfl⟩ | ⟨rfl, ha⟩ <;>
        rcases standsFor hb with ⟨rfl, h⟩ | ⟨rfl, h⟩ | ⟨rfl, hb⟩ <;> grind
    · intro a b c ha hb
      rcases standsFor ha with ⟨rfl, rfl⟩ | ⟨rfl, rfl⟩ | ⟨rfl, ha⟩ <;>
        rcases standsFor hb with ⟨h, rfl⟩ | ⟨h, rfl⟩ | ⟨rfl, hb⟩ <;> grind

/-- The user is read, and a tag is compared. -/
def user : Expr := .apply .get [.literal (.text "user")]

def tagged : Expr :=
  .apply .strictEq [.apply .get [.literal (.text "user.tags.0")], .literal (.text "t")]

/-- The state after storing the equal user. -/
def renewed : Session Unit :=
  (Record.perform ⟨5⟩ (.schedule 0 (.scope "a")) (.setItem (.text "user") (.ref ⟨3⟩)) env start).2

end Renewal

theorem silent_write_is_invisible_renewal :
    (Renewal.renewed.store.record? (.ref ⟨6⟩)).isSome ∧ Renewal.renewed.journal = [] ∧
    (Evaluation.eval Renewal.context Renewal.user Renewal.env Renewal.start).1 = .value (.ref ⟨1⟩) ∧
    (Evaluation.eval Renewal.context Renewal.user Renewal.env Renewal.renewed).1 = .value (.ref ⟨3⟩) ∧
    ∀ e ∈ [Renewal.user, Renewal.tagged],
      SameEnd (fun r => Record.StandsFor Renewal.store Renewal.context ⟨5⟩ "user" Renewal.pairs r r)
        (Evaluation.eval Renewal.context e Renewal.env Renewal.start)
        (Evaluation.eval Renewal.context e Renewal.env Renewal.renewed) := by
  obtain ⟨hperform, hsame⟩ := silent_write_is_invisible Renewal.env Renewal.start Renewal.context ⟨5⟩
    (.schedule 0 (.scope "a")) "user" (.ref ⟨1⟩) (.ref ⟨3⟩) Renewal.pairs Renewal.replaces
    (by decide +kernel)
  refine ⟨by decide +kernel, by decide +kernel, by decide +kernel, by decide +kernel, fun e he => ?_⟩
  rw [Renewal.renewed, hperform]
  refine hsame e ?_
  rcases List.mem_pair.1 he with rfl | rfl
  · exact .apply rfl fun e he => List.mem_singleton.1 he ▸ .literal (Value.in_of_ref?_eq_none rfl)
  · refine .apply rfl fun e he => ?_
    rcases List.mem_pair.1 he with rfl | rfl
    · exact .apply rfl fun e he => List.mem_singleton.1 he ▸ .literal (Value.in_of_ref?_eq_none rfl)
    · exact .literal (Value.in_of_ref?_eq_none rfl)

-- A truth value in place of a number, and a list in place of an equal one that two keys share.
namespace Confusion

def hook : Hook := .schedule 0 (.scope "a")

def start : Session Unit where
  memory := ()
  store := { cells := #[.list [.int 1], .list [.int 1],
    .dict (.ofFields [("x", .int 1), ("items", .ref ⟨0⟩), ("same", .ref ⟨0⟩)]),
    .record ⟨2⟩ hook] }

def context : Context where
  state := .ref ⟨3⟩

/-- What storing a value leads to. -/
def storing (key : String) (v : Value) : Session Unit :=
  (Record.perform ⟨2⟩ hook (.setItem (.text key) v) Renewal.env start).2

def read (e : Expr) (w : Session Unit) : Outcome Value := (Evaluation.eval context e Renewal.env w).1

def isOne : Expr := .apply .strictEq [.apply .get [.literal (.text "x")], .literal (.int 1)]

def shared : Expr :=
  .apply .strictEq [.apply .get [.literal (.text "items")], .apply .get [.literal (.text "same")]]

end Confusion

open Confusion in
/-- Storing a truth value over the number that it is equal to, or a list over an equal one, asks for no
pass, as storing another number does, and yet strict equality tells before from after. -/
theorem silent_write_is_seen :
    ((storing "x" (.int 2)).engine 0).scheduler.pending = [.scope "a"] ∧
    (storing "x" (.bool true)).journal = [] ∧
      ((storing "x" (.bool true)).engine 0).scheduler.pending = [] ∧
      read isOne start = .value (.bool true) ∧ read isOne (storing "x" (.bool true)) = .value (.bool false) ∧
    (storing "items" (.ref ⟨1⟩)).journal = [] ∧
      ((storing "items" (.ref ⟨1⟩)).engine 0).scheduler.pending = [] ∧
      read shared start = .value (.bool true) ∧
      read shared (storing "items" (.ref ⟨1⟩)) = .value (.bool false) := by
  decide +kernel

end ReactiveScopes
