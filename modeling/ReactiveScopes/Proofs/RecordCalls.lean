import ReactiveScopes.Proofs.PlainDict
import ReactiveScopes.Proofs.ReadBack

/-!
# Calls on a record

As long as its hook neither raises nor writes what the record leads to, a record is a plain dictionary: every call
answers the same and leaves the same entries in the same order. What the hook is told of are keys that the call has
changed, and it is told of one whenever there are any.
-/
namespace ReactiveScopes

open Eff

variable {κ : Type} {w w' w₁ : Session κ} {s s' : Store} {H : Ref → Prop} {data : Ref} {hook : Hook} {env : Env κ}
  {t t' : Mapping} {k v : Value} {p : String} {ks ks' : List Value} {call : DictCall} {r : Except Fault Value}

/-- A hook that does not raise, and writes no cells but those of `H`. -/
structure Hook.Calm (hook : Hook) (H : Ref → Prop) (env : Env κ) : Prop where
  returns : ∀ key w, (Record.report hook key env w).1 = .value ()
  keeps : ∀ key (w : Session κ), w.store.Keeps H (Record.report hook key env w).2.store

/-- A hook that leaves the store as it is. -/
def Hook.Aloof (hook : Hook) (env : Env κ) : Prop :=
  ∀ key (w : Session κ), (Record.report hook key env w).2.store = w.store

/-- Where a hook makes a note of the keys that it is told of, the last one first. -/
structure Hook.Notes (hook : Hook) (env : Env κ) (noted : Session κ → List Value) : Prop where
  tells : ∀ key w, noted (Record.report hook key env w).2 = key :: noted w
  still : ∀ w s, noted (w.having s) = noted w

namespace Record

/-- A store has taken the place of the one of a session, and then the hook has been told of keys. -/
structure Told (hook : Hook) (H : Ref → Prop) (env : Env κ) (w : Session κ) (s : Store) (ks : List Value)
    (w' : Session κ) : Prop where
  keeps : s.Keeps H w'.store
  noted : ∀ noted, hook.Notes env noted → noted w' = ks ++ noted w
  same : hook.Aloof env → w'.store = s

theorem Told.silent (w : Session κ) (s : Store) : Told hook H env w s [] (w.having s) :=
  ⟨.refl H s, fun _ notes => notes.still w s, fun _ => rfl⟩

theorem Told.one (calm : hook.Calm H env) (k : Value) (w : Session κ) (s : Store) :
    ∃ w', report hook k env (w.having s) = (.value (), w') ∧ Told hook H env w s [k] w' := by
  refine ⟨_, Prod.ext (calm.returns k _) rfl, calm.keeps k (w.having s), fun noted notes => ?_, fun aloof => ?_⟩
  · rw [notes.tells, notes.still]
    rfl
  · exact aloof k _

/-- A cell is written once more. -/
theorem Told.again {c : Cell} (h : Told hook H env w s ks w₁) (bound : data.index < s.cells.size)
    (h' : Told hook H env w₁ (w₁.store.put data c) ks' w') : Told hook H env w (s.put data c) (ks' ++ ks) w' where
  keeps := (h.keeps.put bound c).trans h'.keeps
  noted noted notes := by rw [h'.noted noted notes, h.noted noted notes, List.append_assoc]
  same aloof := by rw [h'.same aloof, h.same aloof]

/-- What is stored under a key is neither the same as what is there nor equal to it. -/
def Differs (data : Ref) (w : Session κ) (k v : Value) : Prop :=
  let s := w.store.put data (.dict ((fields w.store data).insert k v))
  ∀ old, (fields w.store data).get? k = some old → ¬ s.identical old v ∧ s.equal old v ≠ .ok true

theorem changed_iff (s : Store) (old : Option Value) (v : Value) :
    changed s old v = true ↔ ∀ u, old = some u → ¬ s.identical u v ∧ s.equal u v ≠ .ok true := by
  unfold changed
  cases old with
  | none => simp
  | some u =>
    dsimp only
    split
    · next same => simp [same]
    · next other =>
      rcases h : s.equal u v with f | b
      · simp [other, h]
      · cases b <;> simp [other, h]

/-- At one moment of a call, which begins in the first session, a value is stored under a key of the record itself. -/
inductive Stores (data : Ref) (hook : Hook) (env : Env κ) : DictCall → Session κ → Value → Value → Session κ → Prop
  | setItem {w : Session κ} {p : String} {v : Value} : Stores data hook env (.setItem p v) w (.text p) v w
  | setDefault {w : Session κ} {p : String} {v : Value} (new : (fields w.store data).get? (.text p) = none) :
      Stores data hook env (.setDefault p v) w (.text p) v w
  | setPath {w : Session κ} {path v : Value} {p : String} (one : w.store.segmentsOf path = [p]) :
      Stores data hook env (.setPath path v) w (.text p) v w
  | update {w u : Session κ} {other k v : Value} {t : Mapping} {before after : List (Value × Value)}
      (given : w.store.mapping? other = some t) (entries : t.entries = before ++ (k, v) :: after)
      (earlier : storeAll data hook before env w = (.value (), u)) : Stores data hook env (.update other) w k v u

/-- A call adds a key or removes one, or stores a value under it that differs from the one that is there. -/
def Alters (data : Ref) (hook : Hook) (env : Env κ) (call : DictCall) (w w' : Session κ) (k : Value) : Prop :=
  ((fields w.store data).contains k ∧ ¬ (fields w'.store data).contains k) ∨
    ∃ v u, Stores data hook env call w k v u ∧ Differs data u k v

end Record

/-- A call that writes keys of the record itself. -/
def DictCall.Keyed (s : Store) : DictCall → Prop
  | touch _ => False
  | setPath path _ => ∃ p, s.segmentsOf path = [p]
  | _ => True

/-- The same answer; what the oldest entry is taken out as is a new list each time. -/
inductive Dict.Answers (s s' : Store) : Except Fault Value → Except Fault Value → Prop
  | same (r : Except Fault Value) : Answers s s' r r
  | pair {a b : Ref} {k v : Value} (here : s.cell? a = some (.list [k, v])) (there : s'.cell? b = some (.list [k, v])) :
      Answers s s' (.ok (.ref a)) (.ok (.ref b))

namespace Record

/-- A call on a record has ended as it should. It answers what it does on a plain dictionary in its place, and leaves
what that leads to. If it has failed, nothing has changed and the hook has been told nothing. Otherwise the hook has
been told of keys that the call has changed, at least of one if there are any; of the first segment once, if the path
has several; and of what it was to be told. -/
structure Faithful (data : Ref) (hook : Hook) (env : Env κ) (w : Session κ) (call : DictCall)
    (r : Except Fault Value) (w' : Session κ) : Prop where
  plain : ∃ r₀ s₀, w.store.Gives (Dict.perform data call : Eff κ Value).attempt (.value r₀) s₀ ∧
    Dict.Answers s₀ w'.store r₀ r ∧ s₀.Spares (.ref data) w'.store ∧ (hook.Aloof env → r = r₀ ∧ w'.store = s₀)
  failed : ∀ f, r = .error f → ∃ s', w' = w.having s' ∧ w.store.Extends s'
  keyed : call.Keyed w.store → ∃ ks, (∀ noted, hook.Notes env noted → noted w' = ks ++ noted w) ∧
    (ks ≠ [] ↔ ∃ k, Alters data hook env call w w' k) ∧ ∀ k ∈ ks, Alters data hook env call w w' k
  dotted : ∀ {path v p q ps}, call = .setPath path v → w.store.segmentsOf path = p :: q :: ps → (∃ a, r = .ok a) →
    ∀ noted, hook.Notes env noted → noted w' = .text p :: noted w
  touched : ∀ {key}, call = .touch key → ∀ noted, hook.Notes env noted → noted w' = key :: noted w

theorem setItem_told (dict : w.store.cell? data = some (.dict t)) (calm : hook.Calm H env) (p : String) (v : Value) :
    ∃ w', setItem data hook (.text p) v env w = (.value (), w') ∧
      Told hook H env w (w.store.put data (.dict (t.insert (.text p) v)))
        (if tells w.store data p v then [.text p] else []) w' := by
  rw [setItem_text]
  have stored : w.storing data p v = w.having (w.store.put data (.dict (t.insert (.text p) v))) := by
    rw [← fields_dict dict]
    rfl
  rw [stored]
  cases tells w.store data p v with
  | false => exact ⟨_, rfl, .silent w _⟩
  | true => exact Told.one calm (.text p) w _

theorem differs_iff (p : String) (v : Value) : Differs data w (.text p) v ↔ tells w.store data p v = true :=
  (changed_iff _ _ v).symm

theorem Told.dict (h : Told hook H env w (s.put data (.dict t)) ks w') (hd : ¬ H data)
    (bound : data.index < s.cells.size) : w'.store.cell? data = some (.dict t) :=
  h.keeps.cells hd ((Store.cell?_put bound).trans (if_pos rfl))

theorem storeKey_text (p : String) (v : Value) :
    storeKey data hook (.text p) v env w = setItem data hook (.text p) v env w := by
  unfold storeKey
  rw [bind_store, Store.keyOf_text]
  rfl

/-- The entries of an update are stored one after another, each of them at its moment. -/
theorem storeAll_told (calm : hook.Calm H env) (hd : ¬ H data) {es : List (Value × Value)}
    (keys : ∀ k ∈ es.map Prod.fst, ∃ p, k = .text p) (dict : w.store.cell? data = some (.dict t)) :
    ∃ ks w', storeAll data hook es env w = (.value (), w') ∧
      Told hook H env w (w.store.put data (.dict (t.insertAll es))) ks w' ∧
      ∀ k, k ∈ ks ↔ ∃ before v after u, es = before ++ (k, v) :: after ∧
        storeAll data hook before env w = (.value (), u) ∧ Differs data u k v := by
  induction es generalizing w t with
  | nil =>
    refine ⟨[], w, rfl, ?_, fun k => ?_⟩
    · have same : w.store.put data (.dict (t.insertAll [])) = w.store := Store.put_self dict
      rw [same]
      exact .silent w w.store
    · simp
  | cons e es ih =>
    obtain ⟨k, v⟩ := e
    obtain ⟨p, rfl⟩ := keys k List.mem_cons_self
    have bound : data.index < w.store.cells.size := (Array.getElem?_eq_some_iff.1 dict).1
    obtain ⟨w₁, run, told⟩ := setItem_told dict calm p v
    have dict₁ := told.dict hd bound
    obtain ⟨ks, w', rest, told', mem⟩ := ih (fun k hk => keys k (List.mem_cons_of_mem _ hk)) dict₁
    have step (es : List (Value × Value)) :
        storeAll data hook ((.text p, v) :: es) env w = storeAll data hook es env w₁ := by
      rw [storeAll]
      exact bind_value ((storeKey_text p v).trans run) _
    refine ⟨ks ++ if tells w.store data p v then [.text p] else [], w', (step es).trans rest, ?_, fun k => ?_⟩
    · have again := told.again (by simpa [Store.put] using bound) told'
      rwa [Store.put_put] at again
    · rw [List.mem_append, mem k]
      constructor
      · rintro (⟨before, u, after, z, rfl, run', differs⟩ | here)
        · exact ⟨_ :: before, u, after, z, rfl, (step before).trans run', differs⟩
        · split at here
          · next tells =>
            cases List.mem_singleton.1 here
            exact ⟨[], v, es, w, rfl, rfl, (differs_iff p v).2 tells⟩
          · cases here
      · rintro ⟨before, u, after, z, split, run', differs⟩
        rcases before with _ | ⟨e, before⟩
        · cases split
          cases run'
          exact .inr (by simp [(differs_iff p v).1 differs])
        · cases split
          exact .inl ⟨before, u, after, z, rfl, (step before).symm.trans run', differs⟩

theorem lookup?_text (s : Store) (data : Ref) (p : String) :
    lookup? s data (.text p) = .ok ((fields s data).get? (.text p)) := by
  simp [lookup?, Store.keyOf_text, Bind.bind, Except.bind, Pure.pure, Except.pure]

theorem removeKey_text (p : String) : removeKey data hook (.text p) env w = delItem data hook (.text p) env w := by
  unfold removeKey
  rw [bind_store, Store.keyOf_text]
  rfl

/-- The call ends as it should. -/
def Serves (data : Ref) (hook : Hook) (H : Ref → Prop) (env : Env κ) (w : Session κ) (call : DictCall) : Prop :=
  ∃ r w', (perform data hook call.op).attempt env w = (.value r, w') ∧ Faithful data hook env w call r w' ∧
    w.store.Evolves H w'.store

theorem gives_attempt {α : Type} {m : Eff κ α} {r : Except Fault α} (h : s.Gives m (.ofExcept r) s') :
    s.Gives m.attempt (.value r) s' :=
  fun env w hw => attempt_ofExcept (h env w hw)

/-- What a value leads to is the same in two stores that keep it. -/
theorem spares_of_keeps {s'' : Store} (tame : s.Tame H v) (keeps : s.Keeps H s') (keeps' : s.Keeps H s'') :
    s'.Spares v s'' := by
  intro u below
  have below := tame.below_of_keeps keeps below
  rw [tame.spares keeps below, tame.spares keeps' below]

/-- A call on keys of the record itself that has not been told anything before it was done. -/
theorem serves_keyed {a : Value} (tame : w.store.Tame H (.ref data)) (keyed : call.Keyed w.store)
    (plain : w.store.Gives (Dict.perform data call : Eff κ Value) (.value a) s) (evolves : w.store.Evolves H s)
    (told : Told hook H env w s ks w') (run : perform data hook call.op env w = (.value a, w'))
    (mem : ∀ k ∈ ks, Alters data hook env call w w' k) (some : (∃ k, Alters data hook env call w w' k) → ks ≠ []) :
    Serves data hook H env w call := by
  refine ⟨.ok a, w', attempt_ofExcept (r := .ok a) run, ?_, evolves.trans (.of_keeps told.keeps)⟩
  refine
    { plain := ⟨.ok a, s, gives_attempt (r := .ok a) plain, .same _, ?_, fun aloof => ⟨rfl, told.same aloof⟩⟩
      failed := fun f hf => by cases hf
      keyed := fun _ => ⟨ks, told.noted, ⟨fun h => ?_, some⟩, mem⟩
      dotted := ?_
      touched := ?_ }
  · exact spares_of_keeps (evolves.tame tame) (.refl H s) told.keeps
  · obtain ⟨k, hk⟩ := List.exists_mem_of_ne_nil ks h
    exact ⟨k, mem k hk⟩
  · rintro path v p q ps rfl names
    obtain ⟨p', one⟩ := keyed
    simp [names] at one
  · rintro key rfl
    exact keyed.elim

/-- A call on no key of the record itself tells the hook of the first segment or of the key it is given. -/
theorem serves_telling {a k : Value} (tame : w.store.Tame H (.ref data)) (unkeyed : ¬ call.Keyed w.store)
    (plain : w.store.Gives (Dict.perform data call : Eff κ Value) (.value a) s) (evolves : w.store.Evolves H s)
    (told : Told hook H env w s [k] w') (run : perform data hook call.op env w = (.value a, w'))
    (first : ∀ {path v p q ps}, call = .setPath path v → w.store.segmentsOf path = p :: q :: ps → k = .text p)
    (given : ∀ {key}, call = .touch key → k = key) : Serves data hook H env w call := by
  refine ⟨.ok a, w', attempt_ofExcept (r := .ok a) run, ?_, evolves.trans (.of_keeps told.keeps)⟩
  refine
    { plain := ⟨.ok a, s, gives_attempt (r := .ok a) plain, .same _, ?_, fun aloof => ⟨rfl, told.same aloof⟩⟩
      failed := fun f hf => by cases hf
      keyed := fun keyed => absurd keyed unkeyed
      dotted := fun same names _ noted notes => ?_
      touched := fun same noted notes => ?_ }
  · exact spares_of_keeps (evolves.tame tame) (.refl H s) told.keeps
  · rw [← first same names]
    exact told.noted noted notes
  · rw [← given same]
    exact told.noted noted notes

/-- A call that leaves everything as it is. -/
theorem serves_idle (keyed : call.Keyed w.store) {r : Except Fault Value}
    (plain : w.store.Gives (Dict.perform data call : Eff κ Value) (.ofExcept r) w.store)
    (run : perform data hook call.op env w = (.ofExcept r, w))
    (none : ∀ k v u, ¬ Stores data hook env call w k v u) : Serves data hook H env w call := by
  have unaltered (k : Value) : ¬ Alters data hook env call w w k := by
    rintro (⟨there, gone⟩ | ⟨v, u, stores, -⟩)
    · exact gone there
    · exact none k v u stores
  refine ⟨r, w, attempt_ofExcept run, ?_, .of_keeps (.refl H _)⟩
  refine
    { plain := ⟨r, w.store, gives_attempt plain, .same _, fun _ _ => rfl, fun _ => ⟨rfl, rfl⟩⟩
      failed := fun _ _ => ⟨w.store, rfl, .refl⟩
      keyed := fun _ => ⟨[], fun _ _ => rfl, ⟨fun h => absurd rfl h, fun h => ?_⟩, fun k hk => by cases hk⟩
      dotted := ?_
      touched := ?_ }
  · obtain ⟨k, hk⟩ := h
    exact absurd hk (unaltered k)
  · rintro path v p q ps rfl names
    obtain ⟨p', one⟩ := keyed
    simp [names] at one
  · rintro key rfl
    exact keyed.elim

section Cases

variable (calm : hook.Calm H env) (dict : w.store.cell? data = some (.dict t)) (tame : w.store.Tame H (.ref data))

include dict in
/-- A text is looked up first. -/
theorem bind_lookup (p : String) (k : Option Value → Eff κ Value) :
    (do k (← ofExcept (lookup? (← store) data (.text p)))) env w = k (t.get? (.text p)) env w := by
  rw [bind_store, lookup?_text, fields_dict dict]
  rfl

include dict tame in
theorem values_tame {v : Value} (hv : v ∈ t.values) : w.store.Tame H v :=
  tame.inside ⟨.dict t, dict, hv⟩

include calm dict tame in
/-- A call that stores one value under a key. -/
theorem serves_setItem {a : Value} (hv : w.store.Tame H v) (keyed : call.Keyed w.store)
    (only : ∀ {k v' u}, Stores data hook env call w k v' u → k = .text p ∧ v' = v ∧ u = w)
    (stores : Stores data hook env call w (.text p) v w)
    (plain : w.store.Gives (Dict.perform data call : Eff κ Value) (.value a)
      (w.store.put data (.dict (t.insert (.text p) v))))
    (run : ∀ w', setItem data hook (.text p) v env w = (.value (), w') →
      perform data hook call.op env w = (.value a, w')) : Serves data hook H env w call := by
  obtain ⟨w', ran, told⟩ := setItem_told dict calm p v
  have hd := (tame data .refl).1
  have dict' := told.dict hd (Array.getElem?_eq_some_iff.1 dict).1
  have evolves : w.store.Evolves H (w.store.put data (.dict (t.insert (.text p) v))) := by
    refine .of_put dict (fun k hk => (Table.mem_keys_insert hk).symm.imp_right fun h => ⟨p, h⟩) fun u hu => ?_
    rcases Table.mem_values_insert hu with rfl | hu
    · exact hv
    · exact values_tame dict tame hu
  have altered (k : Value) : Alters data hook env call w w' k ↔ k = .text p ∧ tells w.store data p v = true := by
    rw [← differs_iff]
    constructor
    · rintro (⟨there, gone⟩ | ⟨v', u, stored, differs⟩)
      · rw [fields_dict dict] at there
        rw [fields_dict dict'] at gone
        exact absurd (t.contains_insert _ v there) gone
      · obtain ⟨rfl, rfl, rfl⟩ := only stored
        exact ⟨rfl, differs⟩
    · rintro ⟨rfl, differs⟩
      exact .inr ⟨v, w, stores, differs⟩
  refine serves_keyed tame keyed plain evolves told (run w' ran) (fun k hk => ?_) fun some => ?_
  · split at hk
    · next tells => exact (altered k).2 ⟨List.mem_singleton.1 hk, tells⟩
    · cases hk
  · obtain ⟨k, hk⟩ := some
    simp [((altered k).1 hk).2]

include calm dict in
theorem delItem_told {k v : Value} (held : t.get? k = some v) :
    ∃ w', delItem data hook k env w = (.value (), w') ∧
      Told hook H env w (w.store.put data (.dict (t.erase k))) [k] w' := by
  unfold delItem
  rw [bind_store, fields_dict dict, if_pos (by simp [Table.contains, held])]
  exact Told.one calm k w _

include dict in
theorem removed {k v : Value} {t' : Mapping} (held : t.get? k = some v) (dict' : w'.store.cell? data = some (.dict t'))
    (gone : t'.get? k = none) : Alters data hook env call w w' k := by
  refine .inl ⟨?_, ?_⟩
  · rw [fields_dict dict]
    simp [Table.contains, held]
  · rw [fields_dict dict']
    simp [Table.contains, gone]

include dict tame in
theorem evolves_erase (k : Value) : w.store.Evolves H (w.store.put data (.dict (t.erase k))) := by
  refine .of_put dict (fun k hk => ?_) fun u hu => ?_
  · obtain ⟨e, he, rfl⟩ := List.mem_map.1 hk
    exact .inl (List.mem_map_of_mem (Table.mem_erase he))
  · obtain ⟨e, he, rfl⟩ := List.mem_map.1 hu
    exact values_tame dict tame (List.mem_map_of_mem (Table.mem_erase he))

include calm dict tame in
/-- A call that takes one key out. -/
theorem serves_delItem {a k v : Value} (held : t.get? k = some v) (keyed : call.Keyed w.store)
    (plain : w.store.Gives (Dict.perform data call : Eff κ Value) (.value a) (w.store.put data (.dict (t.erase k))))
    (run : ∀ w', delItem data hook k env w = (.value (), w') → perform data hook call.op env w = (.value a, w')) :
    Serves data hook H env w call := by
  obtain ⟨w', ran, told⟩ := delItem_told calm dict held
  have dict' := told.dict (tame data .refl).1 (Array.getElem?_eq_some_iff.1 dict).1
  refine serves_keyed tame keyed plain (evolves_erase dict tame k) told (run w' ran) (fun k' hk => ?_)
    fun _ => List.cons_ne_nil k []
  cases List.mem_singleton.1 hk
  exact removed dict held dict' (by rw [Table.get?_erase, if_pos rfl])

include calm dict tame in
theorem serves_clear : Serves data hook H env w .clear := by
  have plain : w.store.Gives (Dict.perform data .clear : Eff κ Value) (.value .none)
      (w.store.put data (.dict .empty)) :=
    .read ((Dict.gives_keep _ data .empty).bind (.pure _))
  cases first : t.first? with
  | none =>
    have empty : t = .empty := by
      obtain ⟨es, nodup⟩ := t
      cases List.head?_eq_none_iff.1 first
      rfl
    subst empty
    rw [Store.put_self dict] at plain
    refine serves_idle trivial (r := .ok Value.none) plain ?_ fun k v u stores => by cases stores
    change (do clear data hook; return .none : Eff κ Value) env w = _
    have cleared : clear data hook env w = (.value (), w) := by
      unfold clear
      rw [bind_store, fields_dict dict, first]
      rfl
    exact bind_value cleared _
  | some e =>
    obtain ⟨k, v⟩ := e
    have held : t.get? k = some v := t.get?_of_mem (List.mem_of_mem_head? first)
    obtain ⟨w', ran, told⟩ := Told.one calm k w (w.store.put data (.dict .empty))
    have dict' := told.dict (tame data .refl).1 (Array.getElem?_eq_some_iff.1 dict).1
    have evolves : w.store.Evolves H (w.store.put data (.dict .empty)) :=
      .of_put dict (fun k hk => by cases hk) fun u hu => by cases hu
    refine serves_keyed tame trivial plain evolves told ?_ (fun k' hk => ?_) fun _ => List.cons_ne_nil k []
    · have cleared : clear data hook env w = (.value (), w') := by
        unfold clear
        rw [bind_store, fields_dict dict, first]
        exact ran
      exact bind_value cleared _
    · cases List.mem_singleton.1 hk
      exact removed dict held dict' rfl

include calm dict tame in
theorem serves_remove (p : String) : Serves data hook H env w (.delItem p) := by
  cases held : t.get? (.text p) with
  | some v =>
    refine serves_delItem (a := .none) calm dict tame held trivial (.read ?_) fun w' ran => ?_
    · rw [fields_dict dict]
      dsimp only
      rw [if_pos (by simp [Table.contains, held])]
      exact (Dict.gives_keep _ data _).bind (.pure _)
    · exact bind_value ((removeKey_text p).trans ran) _
  | none =>
    refine serves_idle trivial (r := .error .missingKey) (.read ?_) ?_ fun k v u stores => by cases stores
    · rw [fields_dict dict]
      dsimp only
      rw [if_neg (by simp [Table.contains, held])]
      exact .raise _
    · have raised : removeKey data hook (.text p) env w = (.fault .missingKey, w) := by
        rw [removeKey_text]
        unfold delItem
        rw [bind_store, fields_dict dict, if_neg (by simp [Table.contains, held])]
        rfl
      exact bind_fault raised _

include calm dict tame in
theorem serves_pop (p : String) (default : Option Value) : Serves data hook H env w (.pop p default) := by
  cases held : t.get? (.text p) with
  | some v =>
    refine serves_delItem (a := v) calm dict tame held trivial (.read ?_) fun w' ran => ?_
    · rw [fields_dict dict]
      dsimp only
      rw [held]
      exact (Dict.gives_keep _ data _).bind (.pure v)
    · refine (bind_lookup dict p _).trans ?_
      rw [held]
      exact bind_value ((removeKey_text p).trans ran) _
  | none =>
    cases default with
    | some d =>
      refine serves_idle trivial (r := .ok d) (.read ?_) ?_ fun k v u stores => by cases stores
      · rw [fields_dict dict]
        dsimp only
        rw [held]
        exact .pure d
      · refine (bind_lookup dict p _).trans ?_
        rw [held]
        rfl
    | none =>
      refine serves_idle trivial (r := .error .missingKey) (.read ?_) ?_ fun k v u stores => by cases stores
      · rw [fields_dict dict]
        dsimp only
        rw [held]
        exact .raise _
      · refine (bind_lookup dict p _).trans ?_
        rw [held]
        rfl

include calm dict tame in
theorem serves_setDefault (p : String) {v : Value} (hv : w.store.Tame H v) :
    Serves data hook H env w (.setDefault p v) := by
  cases held : t.get? (.text p) with
  | some u =>
    refine serves_idle trivial (r := .ok u) (.read ?_) ?_ fun k v u stores => ?_
    · rw [fields_dict dict]
      dsimp only
      rw [held]
      exact .pure u
    · refine (bind_lookup dict p _).trans ?_
      rw [held]
      rfl
    · cases stores with
      | setDefault new =>
        rw [fields_dict dict, held] at new
        cases new
  | none =>
    refine serves_setItem (a := v) calm dict tame hv trivial (fun stores => ?_) (.setDefault ?_) (.read ?_)
      fun w' ran => ?_
    · cases stores with
      | setDefault => exact ⟨rfl, rfl, rfl⟩
    · rw [fields_dict dict, held]
    · rw [fields_dict dict]
      dsimp only
      rw [held]
      exact (Dict.gives_keep _ data _).bind (.pure v)
    · refine (bind_lookup dict p _).trans ?_
      rw [held]
      exact bind_value ((storeKey_text p v).trans ran) _

include calm dict tame in
theorem serves_store (p : String) {v : Value} (hv : w.store.Tame H v) : Serves data hook H env w (.setItem p v) := by
  refine serves_setItem (a := .none) calm dict tame hv trivial (fun stores => ?_) .setItem (.read ?_) fun w' ran => ?_
  · cases stores with
    | setItem => exact ⟨rfl, rfl, rfl⟩
  · rw [fields_dict dict]
    exact (Dict.gives_keep _ data _).bind (.pure _)
  · exact bind_value ((storeKey_text p v).trans ran) _

include calm dict tame in
theorem serves_popItem : Serves data hook H env w .popItem := by
  have hd := (tame data .refl).1
  have bound := (Array.getElem?_eq_some_iff.1 dict).1
  cases first : t.first? with
  | none =>
    refine serves_idle trivial (r := .error .missingKey) (.read ?_) ?_ fun k v u stores => by cases stores
    · rw [fields_dict dict]
      dsimp only
      rw [first]
      exact .raise _
    · change (store >>= _) env w = _
      rw [bind_store, fields_dict dict, first]
      rfl
  | some e =>
    obtain ⟨k, v⟩ := e
    have held : t.get? k = some v := t.get?_of_mem (List.mem_of_mem_head? first)
    obtain ⟨w₁, ran, told⟩ := delItem_told calm dict held
    let s := w.store.put data (.dict (t.erase k))
    let s₀ := (s.alloc (.list [k, v])).2
    let w' := w₁.having (w₁.store.alloc (.list [k, v])).2
    have dict' : w'.store.cell? data = some (.dict (t.erase k)) :=
      (Store.Keeps.alloc H _ _).cells hd (told.dict hd bound)
    have evolves : w.store.Evolves H s := evolves_erase dict tame k
    have gone : Alters data hook env .popItem w w' k := removed dict held dict' (by rw [Table.get?_erase, if_pos rfl])
    have run : perform data hook .popItem env w = (.value (.ref ⟨w₁.store.cells.size⟩), w') := by
      change (store >>= _) env w = _
      rw [bind_store, fields_dict dict, first]
      exact (bind_value ran _).trans (w₁.store.gives_alloc _ env w₁ rfl)
    have alone : w.store.Gives (Dict.perform data .popItem : Eff κ Value) (.value (.ref ⟨s.cells.size⟩)) s₀ := by
      refine .read ?_
      rw [fields_dict dict]
      dsimp only
      rw [first]
      exact (Dict.gives_keep _ data _).bind (s.gives_alloc _)
    have keeps : s.Keeps H w'.store := told.keeps.trans (.alloc H _ _)
    refine ⟨_, w', attempt_ofExcept (r := .ok _) run, ?_, evolves.trans (.of_keeps keeps)⟩
    refine
      { plain := ⟨_, s₀, gives_attempt (r := .ok _) alone, .pair Store.cell?_alloc_new Store.cell?_alloc_new,
          spares_of_keeps (evolves.tame tame) (.alloc H s _) keeps, fun aloof => ?_⟩
        failed := fun f hf => by cases hf
        keyed := fun _ => ⟨[k], fun noted notes => (notes.still _ _).trans (told.noted noted notes),
          ⟨fun _ => ⟨k, gone⟩, fun _ => List.cons_ne_nil k []⟩, fun k' hk => ?_⟩
        dotted := fun h => by cases h
        touched := fun h => by cases h }
    · have same : w₁.store = s := told.same aloof
      simp only [w', s₀, same]
      exact ⟨trivial, rfl⟩
    · cases List.mem_singleton.1 hk
      exact gone

include calm dict tame in
theorem serves_update {other : Value} {es : Mapping} (mapping : w.store.mapping? other = some es)
    (keys : ∀ k ∈ es.keys, ∃ p, k = .text p) (values : ∀ u ∈ es.values, w.store.Tame H u) :
    Serves data hook H env w (.update other) := by
  have hd := (tame data .refl).1
  have bound := (Array.getElem?_eq_some_iff.1 dict).1
  obtain ⟨ks, w', run, told, mem⟩ := storeAll_told calm hd keys dict
  have dict' := told.dict hd bound
  have altered (k : Value) : Alters data hook env (.update other) w w' k ↔ k ∈ ks := by
    rw [mem k]
    constructor
    · rintro (⟨there, gone⟩ | ⟨v, u, stores, differs⟩)
      · rw [fields_dict dict] at there
        rw [fields_dict dict'] at gone
        exact absurd (t.contains_insertAll es.entries there) gone
      · cases stores with
        | update given' entries earlier =>
          cases mapping.symm.trans given'
          exact ⟨_, v, _, u, entries, earlier, differs⟩
    · rintro ⟨before, v, after, u, entries, earlier, differs⟩
      exact .inr ⟨v, u, .update mapping entries earlier, differs⟩
  have evolves : w.store.Evolves H (w.store.put data (.dict (t.insertAll es.entries))) := by
    refine .of_put dict (fun k hk => ?_) fun u hu => ?_
    · exact (Table.mem_keys_insertAll hk).imp_right fun h => keys k h
    · rcases Table.mem_values_insertAll hu with hu | hu
      · exact values_tame dict tame hu
      · exact values u hu
  refine serves_keyed (a := .none) tame trivial (.read ?_) evolves told ?_ (fun k hk => (altered k).2 hk) fun some => ?_
  · rw [fields_dict dict]
    dsimp only
    rw [mapping]
    exact (Dict.gives_keep _ data _).bind (.pure _)
  · have stored : storeFrom data hook other env w = (.value (), w') := by
      unfold storeFrom
      rw [bind_store, mapping]
      exact run
    exact bind_value stored _
  · obtain ⟨k, hk⟩ := some
    exact List.ne_nil_of_mem ((altered k).1 hk)

theorem gives_setPath {path v : Value} {o : Outcome Unit} {ps : List String} (names : w.store.segmentsOf path = ps)
    (h : w.store.Gives (Path.write (.ref data) ps v : Eff κ Unit) o s) :
    w.store.Gives (Path.set (.ref data) path v : Eff κ Unit) o s := by
  subst names
  exact .read h

include calm dict tame in
/-- A path of one segment is a key of the record. -/
theorem serves_setPath_key {path v : Value} {p : String} (hv : w.store.Tame H v)
    (names : w.store.segmentsOf path = [p]) : Serves data hook H env w (.setPath path v) := by
  refine serves_setItem (a := .none) calm dict tame hv ⟨p, names⟩ (fun stores => ?_) (.setPath names) ?_
    fun w' ran => ?_
  · cases stores with
    | setPath one =>
      cases names.symm.trans one
      exact ⟨rfl, rfl, rfl⟩
  · exact .read ((gives_setPath names (Path.assign_dict (κ := κ) dict p v)).bind (.pure _))
  · have stored : setPath data hook path v env w = (.value (), w') := by
      unfold setPath
      rw [bind_store, names]
      exact ran
    exact bind_value stored _

include calm dict tame in
/-- With a path of several segments something below the record is written, or nothing is. -/
theorem serves_setPath_below (own : ∀ r, H r → r.index < w.store.cells.size) {path v : Value} {p q : String}
    {ps : List String} (hv : w.store.Tame H v) (names : w.store.segmentsOf path = p :: q :: ps) :
    Serves data hook H env w (.setPath path v) := by
  have go {o : Outcome Unit × Session κ}
      (h : (do Path.write (.ref data) (p :: q :: ps) v; report hook (.text p)) env w = o) :
      setPath data hook path v env w = o := by
    unfold setPath
    rw [bind_store, names]
    exact h
  have unkeyed : ¬ (DictCall.setPath path v).Keyed w.store := by
    rintro ⟨p', one⟩
    simp [names] at one
  rcases Path.write_slot (κ := κ) (p :: q :: ps) dict rfl (tame.graph dict).plain v with
    ⟨f, s', -, kept, run⟩ | ⟨s', wrote, run⟩
  · have raised : w.store.Gives (Dict.perform data (.setPath path v) : Eff κ Value) (.fault f) s' :=
      .read ((gives_setPath names run).raised _)
    refine ⟨.error f, w.having s', ?_, ?_, ?_⟩
    · exact attempt_ofExcept (r := .error f) (bind_fault (go (run.raised _ env w rfl)) _)
    · exact
        { plain := ⟨.error f, s', gives_attempt (r := .error f) raised, .same _, fun _ _ => rfl, fun _ => ⟨rfl, rfl⟩⟩
          failed := fun _ _ => ⟨s', rfl, kept⟩
          keyed := fun keyed => absurd keyed unkeyed
          dotted := fun _ _ h => by
            obtain ⟨a, h⟩ := h
            cases h
          touched := fun h => by cases h }
    · exact .of_keeps (.of_extends H kept)
  · obtain ⟨w', ran, told⟩ := Told.one calm (.text p) w s'
    have returned : w.store.Gives (Dict.perform data (.setPath path v) : Eff κ Value) (.value .none) s' :=
      .read ((gives_setPath names run).bind (.pure _))
    refine serves_telling tame unkeyed returned (.of_wrote own hv wrote) told ?_ ?_ fun same => by cases same
    · exact bind_value (go ((bind_value (run env w rfl) _).trans ran)) _
    · intro path' v' p' q' ps' same names'
      cases same
      cases names.symm.trans names'
      rfl

include calm tame in
theorem serves_touch (key : Value) : Serves data hook H env w (.touch key) := by
  obtain ⟨w', ran, told⟩ := Told.one calm key w w.store
  refine serves_telling (a := .none) tame id (.read (.pure _)) (.of_keeps (.refl H _)) told (bind_value ran _)
    (fun same => by cases same) fun same => ?_
  cases same
  rfl

include calm dict tame in
/-- Every call that is fit ends as it should. -/
theorem serves (own : ∀ r, H r → r.index < w.store.cells.size) (apt : call.Apt H w.store) :
    Serves data hook H env w call := by
  cases call with
  | setItem p v => exact serves_store calm dict tame p apt
  | delItem p => exact serves_remove calm dict tame p
  | pop p default => exact serves_pop calm dict tame p default
  | popItem => exact serves_popItem calm dict tame
  | setDefault p v => exact serves_setDefault calm dict tame p apt
  | update other =>
    obtain ⟨d, es, source, hd, given, keys⟩ := apt
    exact serves_update calm dict tame (source.mapping? given) keys fun u hu => hd.inside ⟨.dict es, given, hu⟩
  | clear => exact serves_clear calm dict tame
  | setPath path v =>
    rcases names : w.store.segmentsOf path with _ | ⟨p, _ | ⟨q, ps⟩⟩
    · exact absurd names apt.2.segmentsOf
    · exact serves_setPath_key calm dict tame apt.1 names
    · exact serves_setPath_below calm dict tame own apt.1 names
  | touch key => exact serves_touch calm tame key

end Cases

/-- One call after another, and what each of them ends with. -/
def performAll (data : Ref) (hook : Hook) : List DictCall → Eff κ (List (Except Fault Value))
  | [] => return []
  | c :: cs => do
    let r ← (perform data hook c.op).attempt
    return r :: (← performAll data hook cs)

/-- Calls one after another, each of which has ended as it should. -/
inductive Course (data : Ref) (hook : Hook) (env : Env κ) :
    Session κ → List DictCall → List (Except Fault Value) → Session κ → Prop
  | done (w : Session κ) : Course data hook env w [] [] w
  | call {w w₁ w' : Session κ} {c : DictCall} {cs : List DictCall} {r : Except Fault Value}
      {rs : List (Except Fault Value)} (faithful : Faithful data hook env w c r w₁)
      (on : Course data hook env w₁ cs rs w') : Course data hook env w (c :: cs) (r :: rs) w'

/-- What the calls have made of the record is what they would have made of a plain dictionary. -/
theorem Course.gives {calls : List DictCall} {rs : List (Except Fault Value)} (aloof : hook.Aloof env)
    (h : Course data hook env w calls rs w') :
    w.store.Gives (Dict.performAll data calls : Eff κ _) (.value rs) w'.store := by
  induction h with
  | done w => exact .pure []
  | @call w w₁ w' c cs r rs faithful on ih =>
    obtain ⟨r₀, s₀, plain, -, -, same⟩ := faithful.plain
    obtain ⟨rfl, rfl⟩ := same aloof
    exact plain.bind (ih.bind (.pure _))

/-- On a record whose hook neither raises nor writes what the data or the arguments lead to, calls do one after another
what they do on a plain dictionary, and the hook is told of what they change. If it writes nothing in the store, they
have the same answers and leave the same store as on a plain dictionary all the way. -/
theorem record_refines_dict {calls : List DictCall} (calm : hook.Calm H env)
    (own : ∀ r, H r → r.index < w.store.cells.size) (dict : w.store.cell? data = some (.dict t))
    (tame : w.store.Tame H (.ref data)) (apt : ∀ call ∈ calls, call.Apt H w.store) :
    ∃ rs w', performAll data hook calls env w = (.value rs, w') ∧ Course data hook env w calls rs w' ∧
      (hook.Aloof env → w.store.Gives (Dict.performAll data calls : Eff κ _) (.value rs) w'.store) := by
  suffices h : ∃ rs w', performAll data hook calls env w = (.value rs, w') ∧ Course data hook env w calls rs w' by
    obtain ⟨rs, w', run, course⟩ := h
    exact ⟨rs, w', run, course, fun aloof => course.gives aloof⟩
  induction calls generalizing w t with
  | nil => exact ⟨[], w, rfl, .done w⟩
  | cons c cs ih =>
    obtain ⟨r, w₁, first, faithful, evolves⟩ := serves calm dict tame own (apt c List.mem_cons_self)
    obtain ⟨c', dict₁, becomes⟩ := evolves.cells (tame data .refl).1 dict
    obtain ⟨t₁, rfl⟩ : ∃ t₁, c' = .dict t₁ := by
      cases becomes with
      | same => exact ⟨t, rfl⟩
      | @dict _ t₁ keys => exact ⟨t₁, rfl⟩
    obtain ⟨rs, w', rest, course⟩ := ih (fun r hr => Nat.lt_of_lt_of_le (own r hr) evolves.size) dict₁
      (evolves.tame tame) fun c hc => (apt c (List.mem_cons_of_mem _ hc)).evolves evolves
    exact ⟨r :: rs, w', (bind_value first _).trans (bind_value rest _), .call faithful course⟩

/-- A function of the client that keeps the keys it is told of, the last one first. -/
def noting : Env (List Value) where
  call _ keys w := (.value .none, { w with memory := keys ++ w.memory })
  budget := 0

/-- Some data, and a mapping for an update. -/
def samples : Store where
  cells := #[.dict (Mapping.ofFields [("a", .int 1), ("b", .ref ⟨1⟩)]), .list [.int 2],
    .dict (Mapping.ofFields [("c", .ref ⟨1⟩), ("b", .none)])]

/-- The number is replaced by what is equal to it, a key is missing, and the list that is written has left the record
by then. -/
def sampleCalls : List DictCall :=
  [.setItem "a" (.bool true), .setPath (.text "b.0") (.int 5), .pop "z" none, .popItem, .update (.ref ⟨2⟩),
    .setPath (.text "c.1") (.ref ⟨1⟩), .delItem "c", .setDefault "b" (.int 3), .clear]

theorem record_refines_dict_noting :
    let hook := Hook.fn (.client "note")
    let start : Session (List Value) := { memory := [], store := samples }
    let rs := [.ok .none, .ok .none, .error .missingKey, .ok (.ref ⟨3⟩), .ok .none, .ok .none, .ok .none, .ok .none,
      .ok .none]
    (∀ call ∈ sampleCalls, call.Apt (fun _ => False) samples) ∧
    ∃ w', performAll ⟨0⟩ hook sampleCalls noting start = (.value rs, w') ∧
      w'.memory = [.text "b", .text "c", .text "c", .text "b", .text "c", .text "a", .text "b"] ∧
      Course ⟨0⟩ hook noting start sampleCalls rs w' ∧
      samples.Gives (Dict.performAll ⟨0⟩ sampleCalls : Eff (List Value) _) (.value rs) w'.store := by
  intro hook start rs
  have tame {v : Value} (bound : ∀ r, v = .ref r → r.index < 3) : samples.Tame (fun _ => False) v :=
    .of_isWhole (by decide +kernel) (by decide +kernel) (fun _ => id) bound
  have leaf {v : Value} (hv : v.ref? = .none) : samples.Tame (fun _ => False) v := tame fun r hr => by
    rw [hr] at hv
    cases hv
  have cell {i : Nat} (bound : i < 3) : samples.Tame (fun _ => False) (.ref ⟨i⟩) := tame fun r hr => by
    cases hr
    exact bound
  have text (p : String) : samples.Names (fun _ => False) (.text p) := fun r hr => by cases hr
  have apt : ∀ call ∈ sampleCalls, call.Apt (fun _ => False) samples := by
    intro call given
    simp only [sampleCalls, List.mem_cons, List.not_mem_nil, or_false] at given
    rcases given with rfl | rfl | rfl | rfl | rfl | rfl | rfl | rfl | rfl
    · exact leaf rfl
    · exact ⟨leaf rfl, text _⟩
    · trivial
    · trivial
    · refine ⟨⟨2⟩, _, .dict, cell (by decide), rfl, fun k hk => ?_⟩
      have keys : ∀ k ∈ (Mapping.ofFields [("c", .ref ⟨1⟩), ("b", .none)]).keys, k = .text "c" ∨ k = .text "b" := by
        decide +kernel
      exact (keys k hk).elim (fun h => ⟨_, h⟩) fun h => ⟨_, h⟩
    · exact ⟨cell (by decide), text _⟩
    · trivial
    · exact leaf rfl
    · trivial
  have calm : hook.Calm (fun _ => False) noting := ⟨fun _ _ => rfl, fun _ _ => .refl _ _⟩
  have dict : start.store.cell? ⟨0⟩ = some (.dict (Mapping.ofFields [("a", .int 1), ("b", .ref ⟨1⟩)])) := rfl
  obtain ⟨rs', w', run, course, gives⟩ :=
    record_refines_dict calm (fun _ h => h.elim) dict (cell (by decide)) apt
  have answers : (performAll ⟨0⟩ hook sampleCalls noting start).1 = .value rs := by decide +kernel
  have told : (performAll ⟨0⟩ hook sampleCalls noting start).2.memory =
      [.text "b", .text "c", .text "c", .text "b", .text "c", .text "a", .text "b"] := by decide +kernel
  rw [run] at answers told
  cases answers
  exact ⟨apt, w', run, told, course, gives fun _ _ => rfl⟩

/-- A function of the client that empties the record. -/
def emptying : Env Unit where
  call _ _ w := (.value .none, { w with store := w.store.put ⟨0⟩ (.dict .empty) })
  budget := 0

/-- A tuple without items is no path on a record, but one on a plain dictionary. A hook that writes the record leaves
other entries in it. -/
theorem record_differs_from_dict :
    let s : Store := { cells := #[.dict (Mapping.ofFields [("a", .int 1)]), .tuple []] }
    let start : Session Unit := { memory := (), store := s }
    let path := [DictCall.setPath (.ref ⟨1⟩) (.int 5)]
    let item := [DictCall.setItem "a" (.int 2)]
    (Dict.performAll ⟨0⟩ path emptying start).1 = .value [.ok .none] ∧
      (performAll ⟨0⟩ .none path emptying start).1 = .value [.error .outOfRange] ∧
    (Dict.performAll ⟨0⟩ item emptying start).1 = .value [.ok .none] ∧
      (performAll ⟨0⟩ (.fn (.client "empty")) item emptying start).1 = .value [.ok .none] ∧
      (fields (Dict.performAll ⟨0⟩ item emptying start).2.store ⟨0⟩).get? (.text "a") = some (.int 2) ∧
      (fields (performAll ⟨0⟩ (.fn (.client "empty")) item emptying start).2.store ⟨0⟩).get? (.text "a") = none := by
  decide +kernel

end Record

end ReactiveScopes
