import ReactiveScopes.Proofs.Graph

/-!
# Plain dictionaries

The calls that write a record, made on a plain dictionary: its keys stay in the order in which they came, and nobody
is told. What they are given leads to lists and dictionaries that are there, and it goes on doing so, whatever such
calls do and whatever others do to cells of their own.
-/
namespace ReactiveScopes

open Eff

variable {κ : Type} {s s' s'' : Store} {H : Ref → Prop} {r d : Ref} {c c' c'' : Cell} {v u x path : Value} {p : String}
  {ps : List String} {t t' : Mapping} {n : Nat}

/-- A call that writes a dictionary. Keys are texts. -/
inductive DictCall where
  | setItem (key : String) (v : Value)
  | delItem (key : String)
  | pop (key : String) (default : Option Value)
  | popItem
  | setDefault (key : String) (v : Value)
  | update (other : Value)
  | clear
  | setPath (path : Value) (v : Value)
  | touch (key : Value)

/-- The call as one of a record. -/
def DictCall.op : DictCall → RecordOp
  | setItem key v => .setItem (.text key) v
  | delItem key => .delItem (.text key)
  | pop key default => .pop (.text key) default
  | popItem => .popItem
  | setDefault key v => .setDefault (.text key) v
  | update other => .update other
  | clear => .clear
  | setPath path v => .setPath path v
  | touch key => .touch key

/-- The table with more entries stored, one after another. -/
def Table.insertAll {α β : Type} [DecidableEq α] (t : Table α β) (es : List (α × β)) : Table α β :=
  es.foldl (fun t e => t.insert e.1 e.2) t

namespace Table

variable {α β : Type} [DecidableEq α] {tab : Table α β} {a b : α} {y z : β} {es : List (α × β)}

theorem contains_insert (tab : Table α β) (a : α) (y : β) (h : tab.contains b) : (tab.insert a y).contains b := by
  unfold contains at h ⊢
  rw [get?_insert]
  split
  · rfl
  · exact h

theorem mem_erase {e : α × β} (he : e ∈ (tab.erase a).entries) : e ∈ tab.entries := List.mem_of_mem_filter he

theorem contains_insertAll (es : List (α × β)) (h : tab.contains b) : (tab.insertAll es).contains b := by
  induction es generalizing tab with
  | nil => exact h
  | cons e es ih => exact ih (contains_insert tab e.1 e.2 h)

theorem mem_keys_insertAll (h : b ∈ (tab.insertAll es).keys) : b ∈ tab.keys ∨ b ∈ es.map Prod.fst := by
  induction es generalizing tab with
  | nil => exact .inl h
  | cons e es ih =>
    rcases ih h with h | h
    · rcases mem_keys_insert h with rfl | h
      · exact .inr List.mem_cons_self
      · exact .inl h
    · exact .inr (List.mem_cons_of_mem _ h)

theorem mem_values_insertAll (h : z ∈ (tab.insertAll es).values) : z ∈ tab.values ∨ z ∈ es.map Prod.snd := by
  induction es generalizing tab with
  | nil => exact .inl h
  | cons e es ih =>
    rcases ih h with h | h
    · rcases mem_values_insert h with rfl | h
      · exact .inr List.mem_cons_self
      · exact .inl h
    · exact .inr (List.mem_cons_of_mem _ h)

end Table

namespace Dict

def keep (d : Ref) (t : Mapping) : Eff κ Unit := do setStore ((← store).put d (.dict t))

/-- What a call does to a plain dictionary. The oldest entry is taken first. -/
def perform (d : Ref) (c : DictCall) : Eff κ Value := do
  let s ← store
  let t := Record.fields s d
  match c with
  | .setItem key v => do keep d (t.insert (.text key) v); return .none
  | .delItem key =>
    if t.contains (.text key) then do keep d (t.erase (.text key)); return .none else raise .missingKey
  | .pop key default =>
    match t.get? (.text key), default with
    | some v, _ => do keep d (t.erase (.text key)); return v
    | none, some v => return v
    | none, none => raise .missingKey
  | .popItem =>
    match t.first? with
    | some (k, v) => do keep d (t.erase k); alloc (.list [k, v])
    | none => raise .missingKey
  | .setDefault key v =>
    match t.get? (.text key) with
    | some held => return held
    | none => do keep d (t.insert (.text key) v); return v
  | .update other => do keep d (t.insertAll ((s.mapping? other).getD .empty).entries); return .none
  | .clear => do keep d .empty; return .none
  | .setPath path v => do Path.set (.ref d) path v; return .none
  | .touch _ => return .none

/-- One call after another, and what each of them ends with. -/
def performAll (d : Ref) : List DictCall → Eff κ (List (Except Fault Value))
  | [] => return []
  | c :: cs => do
    let r ← (perform d c).attempt
    return r :: (← performAll d cs)

end Dict

theorem Store.Gives.pure {α : Type} (a : α) : s.Gives (Pure.pure a : Eff κ α) (.value a) s := by
  rintro env w rfl
  rfl

theorem Store.Gives.raise {α : Type} (f : Fault) : s.Gives (Eff.raise f : Eff κ α) (.fault f) s := by
  rintro env w rfl
  rfl

theorem Dict.gives_keep (s : Store) (d : Ref) (t : Mapping) :
    s.Gives (keep d t : Eff κ Unit) (.value ()) (s.put d (.dict t)) := by
  rintro env w rfl
  rfl

namespace Cell

/-- What may become of a cell that is written: a dictionary gets no other keys than texts, and a list that is not empty
stays so. -/
inductive Becomes : Cell → Cell → Prop
  | same (c : Cell) : Becomes c c
  | dict {t t' : Mapping} (keys : ∀ k ∈ t'.keys, k ∈ t.keys ∨ ∃ p, k = .text p) : Becomes (.dict t) (.dict t')
  | list {xs ys : List Value} (filled : xs ≠ [] → ys ≠ []) : Becomes (.list xs) (.list ys)

theorem Becomes.trans (h : c.Becomes c') (h' : c'.Becomes c'') : c.Becomes c'' := by
  cases h with
  | same => exact h'
  | dict keys =>
    cases h' with
    | same => exact .dict keys
    | dict keys' => exact .dict fun k hk => (keys' k hk).elim (keys k) .inr
  | list filled =>
    cases h' with
    | same => exact .list filled
    | list filled' => exact .list fun h => filled' (filled h)

theorem Stores.becomes (h : c.Stores p x c') : c.Becomes c' := by
  cases h with
  | key t => exact .dict fun k hk => (Table.mem_keys_insert hk).symm.imp_right fun h => ⟨p, h⟩
  | item names =>
    refine .list fun h => ?_
    rw [← List.length_pos_iff, List.length_set]
    exact List.length_pos_iff.2 h
  | append names => exact .list fun _ => by simp

theorem Stores.inside (h : c.Stores p x c') (hu : u ∈ c'.inside) : u = x ∨ u ∈ c.inside := by
  cases h with
  | key t => exact Table.mem_values_insert hu
  | item names => exact (List.mem_or_eq_of_mem_set hu).symm
  | append names => exact (List.mem_append.1 hu).symm.imp_left List.mem_singleton.1

theorem parts_of_inside (c : Cell) (h : u ∈ c.inside) : u ∈ c.parts := by
  cases c with
  | list xs => exact h
  | dict t => exact List.mem_append_right _ h
  | _ => cases h

theorem Stores.isRecord (h : c.Stores p x c') (data : Ref) (hook : Hook) : c' ≠ .record data hook := by
  cases h <;> simp

end Cell

namespace Store

theorem put_put (s : Store) (r : Ref) (c c' : Cell) : (s.put r c).put r c' = s.put r c' := by
  unfold put
  rw [Array.setIfInBounds_setIfInBounds]

/-- All cells are as they were, but for those of `H` and new ones. -/
structure Keeps (H : Ref → Prop) (s s' : Store) : Prop where
  size : s.cells.size ≤ s'.cells.size
  cells : ∀ {r c}, ¬ H r → s.cell? r = some c → s'.cell? r = some c

theorem Keeps.refl (H : Ref → Prop) (s : Store) : s.Keeps H s := ⟨Nat.le_refl _, fun _ hc => hc⟩

theorem Keeps.trans (h : s.Keeps H s') (h' : s'.Keeps H s'') : s.Keeps H s'' :=
  ⟨Nat.le_trans h.size h'.size, fun hr hc => h'.cells hr (h.cells hr hc)⟩

theorem Keeps.alloc (H : Ref → Prop) (s : Store) (c : Cell) : s.Keeps H (s.alloc c).2 where
  size := by simp [Store.alloc]
  cells _ hc := (cell?_alloc_old (Array.getElem?_eq_some_iff.1 hc).1).trans hc

theorem Keeps.of_extends (H : Ref → Prop) (h : s.Extends s') : s.Keeps H s' where
  size := by
    by_contra less
    obtain ⟨c, hc⟩ : ∃ c, s.cell? ⟨s'.cells.size⟩ = some c :=
      ⟨_, Array.getElem?_eq_getElem (show s'.cells.size < s.cells.size by omega)⟩
    exact absurd (Array.getElem?_eq_some_iff.1 (h.kept hc)).1 (Nat.lt_irrefl _)
  cells _ hc := h.kept hc

/-- The same cell is written in both. -/
theorem Keeps.put (h : s.Keeps H s') (bound : r.index < s.cells.size) (c : Cell) :
    (s.put r c).Keeps H (s'.put r c) where
  size := by simpa [Store.put] using h.size
  cells {a b} ha hb := by
    rw [cell?_put (Nat.lt_of_lt_of_le bound h.size)]
    rw [cell?_put bound] at hb
    split at hb
    · next same => rwa [if_pos same]
    · next other =>
      rw [if_neg other]
      exact h.cells ha hb

/-- The lists and dictionaries that a value leads to are there, and are no cells of `H`. There are no records among
them. -/
def Tame (H : Ref → Prop) (s : Store) (v : Value) : Prop :=
  ∀ r, s.Below v (.ref r) → ¬ H r ∧ ∃ c, s.cell? r = some c ∧ ∀ data hook, c ≠ .record data hook

namespace Tame

theorem inside (h : s.Tame H v) (holds : s.Holds v u) : s.Tame H u := fun r below => h r (.head holds below)

theorem of_closed {G : Value → Prop} (closed : ∀ {v u}, G v → s.Holds v u → G u)
    (good : ∀ r, G (.ref r) → ¬ H r ∧ ∃ c, s.cell? r = some c ∧ ∀ data hook, c ≠ .record data hook) (hv : G v) :
    s.Tame H v := by
  have reached {u : Value} (below : s.Below v u) : G u := by
    induction below with
    | refl => exact hv
    | tail _ holds ih => exact closed ih holds
  exact fun r below => good r (reached below)

theorem record? (h : s.Tame H v) (below : s.Below v u) : s.record? u = none := by
  cases record : s.record? u with
  | none => rfl
  | some a =>
    obtain ⟨data, hook⟩ := a
    obtain ⟨r, rfl, cell⟩ := look_of_record? record
    obtain ⟨-, c, hc, plain⟩ := h r below
    exact absurd (Option.some.inj (hc.symm.trans cell)) (plain data hook)

theorem graph (h : s.Tame H (.ref d)) (dict : s.cell? d = some (.dict t)) : s.Graph d :=
  ⟨⟨t, dict⟩, h.record?⟩

/-- What leads to such cells leads to the same ones as long as they are kept. -/
theorem spares (h : s.Tame H v) (keeps : s.Keeps H s') (below : s.Below v u) : s'.look u = s.look u := by
  cases u with
  | ref r =>
    obtain ⟨hr, c, hc, -⟩ := h r below
    exact (keeps.cells hr hc).trans hc.symm
  | _ => rfl

theorem below_of_keeps (h : s.Tame H v) (keeps : s.Keeps H s') (below : s'.Below v u) : s.Below v u :=
  below_of_look (fun _ => h.spares keeps) below

end Tame

/-- What leads to lists and dictionaries among these cells leads to no others. -/
theorem Tame.of_cells (rs : List Ref)
    (cells : ∀ r ∈ rs, ¬ H r ∧ ∃ c, s.cell? r = some c ∧ c.isBranch ∧ ∀ a, .ref a ∈ c.inside → a ∈ rs)
    (hv : ∀ r, v = .ref r → r ∈ rs) : s.Tame H v := by
  refine .of_closed (G := fun v => ∀ r, v = .ref r → r ∈ rs) (fun {v u} hv holds => ?_) (fun r hr => ?_) hv
  · rintro a rfl
    obtain ⟨c, look, inside⟩ := holds
    cases v with
    | ref b =>
      obtain ⟨-, c', cell, -, closed⟩ := cells b (hv b rfl)
      cases look.symm.trans cell
      exact closed a inside
    | _ => cases look
  · obtain ⟨free, c, cell, branch, -⟩ := cells r (hr r rfl)
    refine ⟨free, c, cell, fun data hook record => ?_⟩
    rw [record] at branch
    cases branch

theorem Tame.of_isWhole (whole : s.isWhole) (plain : s.isPlain) (free : ∀ r, ¬ H r)
    (bound : ∀ r, v = .ref r → r.index < s.cells.size) : s.Tame H v := by
  have all := (Bool.and_eq_true_iff.1 whole).2
  let G (v : Value) : Prop := ∀ r, v = .ref r → r.index < s.cells.size
  refine .of_closed (G := G) (fun {v u} _ holds => ?_) (fun a ha => ⟨free a, ?_⟩) bound
  · rintro a rfl
    obtain ⟨c, hc, hu⟩ := holds
    cases v with
    | ref b =>
      have inside := Array.all_eq_true_iff_forall_mem.1 all c (Array.mem_of_getElem? hc)
      exact of_decide_eq_true (List.all_eq_true.1 inside _ (c.parts_of_inside hu))
    | _ => cases hc
  · have here := Array.getElem?_eq_getElem (ha a rfl)
    refine ⟨_, here, fun data hook record => ?_⟩
    have data := Array.all_eq_true_iff_forall_mem.1 plain _ (Array.mem_of_getElem? here)
    rw [record] at data
    cases data

/-- The cells of a chain, each with its only value: the next one, or what the chain ends in. -/
theorem Chain.links {head : Value} (h : s.Chain x n ps head) :
    (head = x ∨ ∃ m, head = .ref ⟨m⟩ ∧ n ≤ m ∧ m < n + ps.length) ∧
      ∀ m, n ≤ m → m < n + ps.length → ∃ p v, s.cell? ⟨m⟩ = some (.dict (Table.empty.insert (.text p) v)) ∧
        (v = x ∨ ∃ m', v = .ref ⟨m'⟩ ∧ n ≤ m' ∧ m' < n + ps.length) := by
  induction h with
  | last n => exact ⟨.inl rfl, fun m lower upper => by simp at upper; omega⟩
  | @link n p ps v cell on ih =>
    have shift {v : Value} (h : v = x ∨ ∃ m, v = .ref ⟨m⟩ ∧ n + 1 ≤ m ∧ m < n + 1 + ps.length) :
        v = x ∨ ∃ m, v = .ref ⟨m⟩ ∧ n ≤ m ∧ m < n + (p :: ps).length := by
      refine h.imp_right fun h => ?_
      obtain ⟨m, rfl, lower, upper⟩ := h
      exact ⟨m, rfl, by omega, by rw [List.length_cons]; omega⟩
    refine ⟨.inr ⟨n, rfl, Nat.le_refl n, by simp⟩, fun m lower upper => ?_⟩
    rcases Nat.eq_or_lt_of_le lower with rfl | lower
    · exact ⟨p, v, cell, shift ih.1⟩
    · obtain ⟨p', v', cell', h⟩ := ih.2 m lower (by rw [List.length_cons] at upper; omega)
      exact ⟨p', v', cell', shift h⟩

/-- What something leads to after a write it led to before, or what was written does, or it is new. -/
theorem Wrote.below_of {a z : Value} (wrote : s.Wrote v x ps s') (ta : s.Tame H a) (tx : s.Tame H x)
    (below : s'.Below a z) :
    s.Below a z ∨ s.Below x z ∨ ∃ m, z = .ref ⟨m⟩ ∧ s.cells.size ≤ m ∧ m < s'.cells.size := by
  cases wrote with
  | nothing => exact .inl below
  | @slot way rest p r c d head s' leads cell stores stored others chain size beside =>
    obtain ⟨first, links⟩ := chain.links
    have of_link {z : Value} (h : z = x ∨ ∃ m, z = .ref ⟨m⟩ ∧ s.cells.size ≤ m ∧ m < s.cells.size + rest.length) :
        s.Below a z ∨ s.Below x z ∨ ∃ m, z = .ref ⟨m⟩ ∧ s.cells.size ≤ m ∧ m < s'.cells.size := by
      rcases h with rfl | h
      · exact .inr (.inl .refl)
      · exact .inr (.inr (size ▸ h))
    -- what is in a cell that was there was in it before, but for the slot
    have old {y : Value} (ty : s.Tame H y) {q : Ref} (hq : s.Below y (.ref q)) {z : Value}
        (holds : s'.Holds (.ref q) z) : s.Below y z ∨ z = head := by
      obtain ⟨c', look, inside⟩ := holds
      obtain ⟨-, c₀, there, -⟩ := ty q hq
      by_cases same : q = r
      · subst same
        cases stored.symm.trans look
        cases cell.symm.trans there
        exact (stores.inside inside).symm.imp_left fun inside => hq.tail ⟨c, cell, inside⟩
      · have kept := others q same (Array.getElem?_eq_some_iff.1 there).1
        exact .inl (hq.tail ⟨c', kept.symm.trans look, inside⟩)
    induction below with
    | refl => exact .inl .refl
    | @tail y z _ holds ih =>
      have holds' := holds
      obtain ⟨c', look, inside⟩ := holds'
      cases y with
      | ref q =>
        rcases ih with hq | hq | ⟨m, hm, lower, upper⟩
        · exact (old ta hq holds).elim .inl fun same => of_link (same ▸ first)
        · exact (old tx hq holds).elim (.inr ∘ .inl) fun same => of_link (same ▸ first)
        · cases hm
          obtain ⟨p', v', link, next⟩ := links m lower (size ▸ upper)
          cases link.symm.trans look
          exact of_link (List.mem_singleton.1 inside ▸ next)
      | _ => cases look

/-- What writes to lists and dictionaries, and others to cells of their own, may have made of the store. -/
structure Evolves (H : Ref → Prop) (s s' : Store) : Prop where
  size : s.cells.size ≤ s'.cells.size
  cells : ∀ {r c}, ¬ H r → s.cell? r = some c → ∃ c', s'.cell? r = some c' ∧ c.Becomes c'
  tame : ∀ {v}, s.Tame H v → s'.Tame H v

namespace Evolves

theorem trans (h : s.Evolves H s') (h' : s'.Evolves H s'') : s.Evolves H s'' where
  size := Nat.le_trans h.size h'.size
  cells hr hc := by
    obtain ⟨c', hc', becomes⟩ := h.cells hr hc
    obtain ⟨c'', hc'', becomes'⟩ := h'.cells hr hc'
    exact ⟨c'', hc'', becomes.trans becomes'⟩
  tame hv := h'.tame (h.tame hv)

theorem of_keeps (h : s.Keeps H s') : s.Evolves H s' where
  size := h.size
  cells hr hc := ⟨_, h.cells hr hc, .same _⟩
  tame {v} hv := by
    have same {v : Value} (hv : s.Tame H v) : s'.look v = s.look v := hv.spares h .refl
    refine .of_closed (G := fun v => s.Tame H v) (fun {v u} hv holds => ?_) (fun r hr => ?_) hv
    · obtain ⟨c, hc, hu⟩ := holds
      rw [same hv] at hc
      exact hv.inside ⟨c, hc, hu⟩
    · obtain ⟨hn, c, hc, plain⟩ := hr r .refl
      exact ⟨hn, c, h.cells hn hc, plain⟩

/-- The entries of a dictionary are replaced. -/
theorem of_put (dict : s.cell? d = some (.dict t)) (keys : ∀ k ∈ t'.keys, k ∈ t.keys ∨ ∃ p, k = .text p)
    (values : ∀ u ∈ t'.values, s.Tame H u) : s.Evolves H (s.put d (.dict t')) := by
  have put (r : Ref) : (s.put d (.dict t')).cell? r = _ := cell?_put (x := r) (Array.getElem?_eq_some_iff.1 dict).1
  have becomes {r : Ref} {c : Cell} (hc : s.cell? r = some c) :
      ∃ c', (s.put d (.dict t')).cell? r = some c' ∧ c.Becomes c' ∧
        (c' = c ∨ ∃ t, c' = .dict t) := by
    by_cases same : d = r
    · subst same
      cases hc.symm.trans dict
      exact ⟨_, (put d).trans (if_pos rfl), .dict keys, .inr ⟨t', rfl⟩⟩
    · exact ⟨c, (put r).trans ((if_neg same).trans hc), .same c, .inl rfl⟩
  refine ⟨by simp [Store.put], fun _ hc => ?_, fun {v} hv => ?_⟩
  · obtain ⟨c', hc', h, -⟩ := becomes hc
    exact ⟨c', hc', h⟩
  · refine .of_closed (G := fun v => s.Tame H v) (fun {v u} hv holds => ?_) (fun r hr => ?_) hv
    · obtain ⟨c, hc, hu⟩ := holds
      cases v with
      | ref r =>
        have hc : (s.put d (.dict t')).cell? r = some c := hc
        rw [put] at hc
        split at hc
        · cases hc
          exact values u hu
        · exact hv.inside ⟨c, hc, hu⟩
      | _ => cases hc
    · obtain ⟨hn, c, hc, plain⟩ := hr r .refl
      obtain ⟨c', hc', -, rfl | ⟨t, rfl⟩⟩ := becomes hc
      · exact ⟨hn, c', hc', plain⟩
      · exact ⟨hn, _, hc', by simp⟩

/-- Something is written along a path. -/
theorem of_wrote (own : ∀ r, H r → r.index < s.cells.size) (hx : s.Tame H x)
    (wrote : s.Wrote v x ps s') : s.Evolves H s' := by
  have below {u z : Value} (hu : s.Tame H u) (h : s'.Below u z) := wrote.below_of hu hx h
  cases wrote with
  | nothing => exact .of_keeps (.refl H s)
  | @slot way rest p r c d head s' leads cell stores stored others chain size beside =>
    have becomes {a : Ref} {b : Cell} (ha : s.cell? a = some b) :
        ∃ b', s'.cell? a = some b' ∧ b.Becomes b' ∧ (b' = b ∨ b' = d) := by
      by_cases same : a = r
      · subst same
        cases ha.symm.trans cell
        exact ⟨d, stored, stores.becomes, .inr rfl⟩
      · exact ⟨b, (others a same (Array.getElem?_eq_some_iff.1 ha).1).trans ha, .same b, .inl rfl⟩
    -- what was there is what it was, or it is what became of the container that was written
    have old {u : Value} (hu : s.Tame H u) {a : Ref} (h : s.Below u (.ref a)) :
        ¬ H a ∧ ∃ c, s'.cell? a = some c ∧ ∀ data hook, c ≠ .record data hook := by
      obtain ⟨hn, b, hb, plain⟩ := hu a h
      obtain ⟨b', hb', -, rfl | rfl⟩ := becomes hb
      · exact ⟨hn, b', hb', plain⟩
      · exact ⟨hn, b', hb', stores.isRecord⟩
    refine ⟨by omega, fun _ ha => ?_, fun {u} hu a ha => ?_⟩
    · obtain ⟨b', hb', h, -⟩ := becomes ha
      exact ⟨b', hb', h⟩
    · rcases below hu ha with h | h | ⟨m, hm, lower, upper⟩
      · exact old hu h
      · exact old hx h
      · cases hm
        obtain ⟨p', v', link, -⟩ := chain.links.2 m lower (size ▸ upper)
        refine ⟨fun hm => ?_, _, link, by simp⟩
        exact absurd (own _ hm) (Nat.not_lt.2 lower)

end Evolves

/-- A path of at least one segment, and one that stays so. -/
def Names (H : Ref → Prop) (s : Store) (path : Value) : Prop :=
  ∀ r, path = .ref r → ¬ H r ∧ ∃ c, s.cell? r = some c ∧ c ≠ .list [] ∧ c ≠ .tuple []

theorem Names.segmentsOf (h : s.Names H path) : s.segmentsOf path ≠ [] := by
  unfold Store.segmentsOf
  cases items : s.sequence? path with
  | none => exact segments_ne_nil _
  | some xs =>
    dsimp only
    rw [Ne, List.map_eq_nil_iff]
    rintro rfl
    cases path with
    | ref r =>
      obtain ⟨-, c, hc, list, tuple⟩ := h r rfl
      unfold sequence? at items
      rw [show s.look (.ref r) = some c from hc] at items
      cases c <;> simp_all
    | _ => cases items

theorem Names.evolves (h : s.Names H path) (e : s.Evolves H s') : s'.Names H path := by
  intro r hr
  obtain ⟨hn, c, hc, list, tuple⟩ := h r hr
  obtain ⟨c', hc', becomes⟩ := e.cells hn hc
  refine ⟨hn, c', hc', ?_⟩
  cases becomes with
  | same => exact ⟨list, tuple⟩
  | dict keys => simp
  | @list xs ys filled =>
    refine ⟨fun h => ?_, by simp⟩
    exact filled (fun hx => list (by rw [hx])) (by cases h; rfl)

end Store

namespace Store

/-- A mapping whose entries are those of a dictionary: the dictionary, or a record. -/
inductive Source (H : Ref → Prop) (s : Store) (d : Ref) : Value → Prop
  | dict : Source H s d (.ref d)
  | record {r : Ref} {hook : Hook} (apart : ¬ H r) (cell : s.cell? r = some (.record d hook)) : Source H s d (.ref r)

theorem Source.mapping? {other : Value} (h : s.Source H d other) (dict : s.cell? d = some (.dict t)) :
    s.mapping? other = some t := by
  cases h with
  | dict => simp [Store.mapping?, look, dict]
  | record apart cell => simp [Store.mapping?, look, cell, dict]

theorem Source.evolves {other : Value} (h : s.Source H d other) (e : s.Evolves H s') : s'.Source H d other := by
  cases h with
  | dict => exact .dict
  | record apart cell =>
    obtain ⟨c', hc', becomes⟩ := e.cells apart cell
    cases becomes with
    | same => exact .record apart hc'

end Store

/-- What a call is given is fit for it: values lead to lists and dictionaries that are there, an update is a mapping
whose keys are texts, and a path has a segment. -/
def DictCall.Apt (H : Ref → Prop) (s : Store) : DictCall → Prop
  | setItem _ v | setDefault _ v => s.Tame H v
  | update other => ∃ d t, s.Source H d other ∧ s.Tame H (.ref d) ∧ s.cell? d = some (.dict t) ∧
    ∀ k ∈ t.keys, ∃ p, k = .text p
  | setPath path v => s.Tame H v ∧ s.Names H path
  | _ => True

theorem DictCall.Apt.evolves {call : DictCall} (h : call.Apt H s) (e : s.Evolves H s') : call.Apt H s' := by
  cases call with
  | setItem key v => exact e.tame h
  | setDefault key v => exact e.tame h
  | update other =>
    obtain ⟨d, t, source, tame, dict, keys⟩ := h
    obtain ⟨c', hc', becomes⟩ := e.cells (tame d .refl).1 dict
    cases becomes with
    | same => exact ⟨d, t, source.evolves e, e.tame tame, hc', keys⟩
    | @dict _ t' keys' =>
      exact ⟨d, t', source.evolves e, e.tame tame, hc', fun k hk => (keys' k hk).elim (keys k) id⟩
  | setPath path v => exact ⟨e.tame h.1, h.2.evolves e⟩
  | _ => trivial

end ReactiveScopes
