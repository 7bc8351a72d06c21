import Mathlib.Data.List.Flatten
import Mathlib.Data.List.Nodup
import ReactiveScopes.Proofs.Datum

/-!
# Data in the store

Writing along a path into data that stand in a store leaves the written data standing there. Only cells of the
data and new ones are touched.
-/
namespace ReactiveScopes

open Eff Datum

/-- The session with another store. -/
def Session.having {κ : Type} (w : Session κ) (s : Store) : Session κ := { w with store := s }

variable {κ : Type} {w : Session κ} {s s' : Store} {r : Ref} {c : Cell} {shape : Shape}
  {vs : List Value} {p : String} {i : Nat}

namespace Shape

theorem Shows.cases (shows : shape.Shows c vs) :
    shape = list ∧ c = .list vs ∨ ∃ t, shape = dict t.keys ∧ c = .dict t ∧ vs = t.values := by
  cases shape with
  | list =>
    cases c with
    | list xs => exact .inl ⟨rfl, congrArg Cell.list shows⟩
    | _ => exact shows.elim
  | dict keys =>
    cases c with
    | dict t =>
      obtain ⟨rfl, rfl⟩ := shows
      exact .inr ⟨t, rfl, rfl, rfl⟩
    | _ => exact shows.elim

theorem Shows.fits (shows : shape.Shows c vs) : shape.Fits vs.length := by
  rcases shows.cases with ⟨rfl, _⟩ | ⟨t, rfl, _, rfl⟩
  · trivial
  · simp [Fits, Table.keys, Table.values]

/-- Storing in place does not change the shape. -/
theorem add_of_lt (h : shape.slot vs.length p = some i) (hi : i < vs.length) (shows : shape.Shows c vs) :
    shape.add p = shape := by
  rcases shows.cases with ⟨rfl, _⟩ | ⟨t, rfl, _, rfl⟩
  · rfl
  · cases h
    have hm : .text p ∈ t.keys := by
      refine List.idxOf_lt_length_iff.1 ?_
      simpa [Table.keys, Table.values] using hi
    simp [add, insertKey, hm]

/-- Looking below a branch finds the child at the slot. -/
theorem child (hc : s.cell? r = some c) (shows : shape.Shows c vs) (p : String) :
    s.child (.ref r) p = .ok (((shape.slot vs.length p).bind (vs[·]?)).getD .none) := by
  rcases shows.cases with ⟨rfl, rfl⟩ | ⟨t, rfl, rfl, rfl⟩
  · have hslot : (slot list vs.length p).bind (vs[·]?) = (position? vs.length p).bind (vs[·]?) := by
      unfold slot
      dsimp only
      split
      · next hn => simp [position?, hn]
      · next j hj =>
        split
        · next hn =>
          subst hn
          simp [position?_length hj]
        · rfl
    rw [hslot]
    simp [Store.child, Store.mapping?, Store.sequence?, Store.look, hc]
  · simp [Store.child, Store.mapping?, Store.look, hc, slot, Mapping.at?, Table.get?_eq_getElem?]

/-- Storing into a list is storing at the slot. -/
theorem storeItem_slot (h : list.slot vs.length p = some i) (v : Value) :
    Path.storeItem vs p v = .ok (storeAt i v vs) := by
  unfold slot at h
  unfold Path.storeItem
  cases hj : Text.readInt? p.toList with
  | none =>
    simp only [hj] at h
    cases h
  | some j =>
    simp only [hj] at h
    dsimp only
    split at h
    · next hn =>
      cases h
      rw [if_pos hn, storeAt_length]
    · next hn =>
      rw [if_neg hn]
      have hi := position?_lt h
      simp only [position?, hj, Option.bind_eq_bind, Option.bind_some] at h
      generalize (if j < 0 then j + vs.length else j) = k at h ⊢
      split at h
      · next hr =>
        cases h
        rw [if_pos hr, storeAt_of_lt hi]
      · cases h

theorem storeItem_no_slot (h : list.slot vs.length p = none) (v : Value) :
    ∃ f, Path.storeItem vs p v = .error f ∧ f.isWriteFault := by
  unfold slot at h
  unfold Path.storeItem
  cases hj : Text.readInt? p.toList with
  | none => exact ⟨.invalid, rfl, rfl⟩
  | some j =>
    simp only [hj] at h
    dsimp only
    split at h
    · cases h
    · next hn =>
      rw [if_neg hn]
      simp only [position?, hj, Option.bind_eq_bind, Option.bind_some] at h
      generalize (if j < 0 then j + vs.length else j) = k at h ⊢
      split at h
      · cases h
      · next hr => exact ⟨.outOfRange, by rw [if_neg hr], rfl⟩

theorem assign (hc : w.store.cell? r = some c) (shows : shape.Shows c vs)
    (h : shape.slot vs.length p = some i) (v : Value) :
    ∃ d, (∀ env, Path.assign (.ref r) p v env w = (.value (), w.having (w.store.put r d))) ∧
      (shape.add p).Shows d (storeAt i v vs) := by
  rcases shows.cases with ⟨rfl, rfl⟩ | ⟨t, rfl, rfl, rfl⟩
  · have hs := storeItem_slot h v
    refine ⟨.list (storeAt i v vs), fun env => ?_, rfl⟩
    unfold Path.assign
    rw [bind_store]
    simp only [Store.look, hc, hs]
    rfl
  · cases h
    refine ⟨.dict (t.insert (.text p) v), fun env => ?_, t.keys_insert _ _, t.values_insert _ _⟩
    unfold Path.assign
    rw [bind_store]
    simp only [Store.look, hc]
    rfl

theorem assign_fails (hc : w.store.cell? r = some c) (shows : shape.Shows c vs)
    (h : shape.slot vs.length p = none) (v : Value) (env : Env κ) :
    ∃ f, Path.assign (.ref r) p v env w = (.fault f, w) ∧ f.isWriteFault := by
  rcases shows.cases with ⟨rfl, rfl⟩ | ⟨t, rfl, rfl, rfl⟩
  · obtain ⟨f, hs, hf⟩ := storeItem_no_slot h v
    refine ⟨f, ?_, hf⟩
    unfold Path.assign
    rw [bind_store]
    simp only [Store.look, hc, hs]
    rfl
  · cases h

end Shape

namespace Datum

variable {t n x : Placed} {cs : List Placed}

theorem isContainer_value (h : t.Stands s) : Path.isContainer s t.value = t.isBranch := by
  cases h with
  | @leaf v bare =>
    cases v <;> first | rfl | cases bare
  | branch cell shows below =>
    rcases shows.cases with ⟨_, rfl⟩ | ⟨_, _, rfl, _⟩ <;>
      simp [Path.isContainer, value, Store.look, cell, isBranch]

/-- Looking for a container below a branch finds the branch there. -/
theorem below?_value (h : (branch r shape cs).Stands s) (p : String) :
    Path.below? s (.ref r) p = ((branch r shape cs).below? p).map value := by
  have hroot := isContainer_value h
  cases h with
  | branch cell shows below =>
    have hchild := Shape.child cell shows p
    rw [List.length_map] at hchild
    simp only [value, isBranch] at hroot
    simp only [Path.below?, hroot, hchild, if_true, Datum.below?, child?]
    rcases hslot : shape.slot cs.length p with _ | i
    · simp [Path.isContainer, Store.look]
    · rcases hi : cs[i]? with _ | c
      · simp [hi, Path.isContainer, Store.look]
      · have hc := isContainer_value (below c (List.mem_of_getElem? hi))
        simp only [Option.bind_some, List.getElem?_map, hi, Option.map_some, Option.getD_some, hc,
          Option.filter_some]
        split <;> simp_all

theorem Stands.sound (h : t.Stands s) : t.Sound := by
  induction h with
  | @leaf v bare => exact .leaf v
  | branch cell shows below ih =>
    have fits := shows.fits
    rw [List.length_map] at fits
    exact .branch fits ih

theorem Stands.slot_le (h : (Datum.branch r shape cs).Stands s) (hi : shape.slot cs.length p = some i) :
    i ≤ cs.length := by
  cases h.sound with
  | branch fits below => exact shape.slot_le fits hi

/-- Reading along the tree is what reading along a path comes to. -/
theorem Stands.readAlong {y : Placed} {ps : List String} (h : t.Stands s) (hy : t.read? ps = some y) :
    s.readAlong t.value ps = .ok y.value ∧ y.Stands s := by
  induction ps generalizing t with
  | nil =>
    cases hy
    exact ⟨by unfold Store.readAlong; rfl, h⟩
  | cons p ps ih =>
    obtain ⟨c, hc, hc'⟩ := Option.bind_eq_some_iff.1 hy
    cases h with
    | leaf bare => cases hc
    | branch cell shows below =>
      have hchild := Shape.child cell shows p
      obtain ⟨i, hi, hci⟩ := Option.bind_eq_some_iff.1 hc
      rw [List.length_map, hi, Option.bind_some, List.getElem?_map, hci] at hchild
      rw [value, Store.readAlong, hchild]
      · exact ih (below c (List.mem_of_getElem? hci)) hc'
      · intro h
        cases h

/-- Writing has taken `n` in one store to `n'` in another: new cells and those of `n` are all it may have
touched, and those of `x` may be part of `n'` by now. -/
structure Written (s s' : Store) (n x n' : Placed) : Prop where
  stands : n'.Stands s'
  value : n'.value = n.value
  nodup : n'.refs.Nodup
  origin : ∀ r ∈ n'.refs, r ∈ n.refs ∨ r ∈ x.refs ∨ s.cells.size ≤ r.index
  frame : ∀ r ∉ n.refs, r.index < s.cells.size → s'.cell? r = s.cell? r
  more : s.cells.size ≤ s'.cells.size

section Written

variable {s'' : Store} {n' n'' y c c' : Placed}

/-- What is written into data that were made anew is written into what they were stored into. -/
theorem Written.trans (h : Written s s' n y n') (h' : Written s' s'' n' x n'')
    (hy : ∀ r ∈ y.refs, s.cells.size ≤ r.index) : Written s s'' n x n'' where
  stands := h'.stands
  value := h'.value.trans h.value
  nodup := h'.nodup
  origin r hr := by
    have more := h.more
    rcases h'.origin r hr with hr | hr | hr
    · rcases h.origin r hr with hr | hr | hr
      · exact .inl hr
      · exact .inr (.inr (hy r hr))
      · exact .inr (.inr hr)
    · exact .inr (.inl hr)
    · exact .inr (.inr (by omega))
  frame r hn hr := by
    have more := h.more
    have hn' : r ∉ n'.refs := by
      intro hn'
      rcases h.origin r hn' with h | h | h
      · exact hn h
      · have := hy r h
        omega
      · omega
    rw [h'.frame r hn' (by omega), h.frame r hn hr]
  more := Nat.le_trans h.more h'.more

/-- What is left of a branch besides one of its children. -/
def aside (r : Ref) (cs : List Placed) (i : Nat) : List Ref := r :: (cs.eraseIdx i).flatMap refs

theorem refs_storeAt (r : Ref) (shape : Shape) (i : Nat) (x : Placed) (cs : List Placed) :
    (branch r shape (storeAt i x cs)).refs.Perm (x.refs ++ aside r cs i) := by
  rw [refs]
  exact ((storeAt_perm.flatMap_right refs).cons r).trans List.perm_middle.symm

theorem refs_branch (r : Ref) (shape : Shape) (hi : cs[i]? = some c) :
    (branch r shape cs).refs.Perm (c.refs ++ aside r cs i) := by
  have hp := refs_storeAt r shape i c cs
  rwa [storeAt_self hi] at hp

theorem Stands.child (h : (Datum.branch r shape cs : Placed).Stands s) (hi : cs[i]? = some c) : c.Stands s := by
  cases h with
  | branch _ _ below => exact below c (List.mem_of_getElem? hi)

theorem mem_refs_child (hi : cs[i]? = some c) {a : Ref} (ha : a ∈ c.refs) : a ∈ (branch r shape cs : Placed).refs :=
  mem_refs_branch.2 (.inr ⟨c, List.mem_of_getElem? hi, ha⟩)

theorem nodup_child (hi : cs[i]? = some c) (single : (branch r shape cs : Placed).refs.Nodup) : c.refs.Nodup :=
  (List.nodup_append'.1 ((refs_branch r shape hi).nodup_iff.1 single)).1

/-- A dictionary without entries takes up its own cell. -/
theorem refs_new (r : Ref) : (branch r (.dict []) [] : Placed).refs = [r] := by
  rw [refs]
  rfl

/-- A child takes the place of another, or a new place. -/
theorem stands_storeAt {d : Cell} (cell : s.cell? r = some d)
    (shows : shape.Shows d (storeAt i c'.value (cs.map value))) (hc : c'.Stands s)
    (below : ∀ t ∈ cs.eraseIdx i, t.Stands s) : (branch r shape (storeAt i c' cs)).Stands s := by
  refine .branch cell (by rwa [map_storeAt]) fun t ht => ?_
  rcases List.mem_cons.1 (storeAt_perm.mem_iff.1 ht) with rfl | ht
  · exact hc
  · exact below t ht

theorem nodup_storeAt (own : c'.refs.Nodup) (single : (aside r cs i).Nodup)
    (apart : ∀ a ∈ c'.refs, a ∉ aside r cs i) : (branch r shape (storeAt i c' cs)).refs.Nodup :=
  (refs_storeAt r shape i c' cs).nodup_iff.2 (List.nodup_append'.2 ⟨own, single, apart⟩)

/-- Writing into a child is writing into its branch. -/
theorem Written.up (hn : (branch r shape cs).Stands s) (single : (branch r shape cs).refs.Nodup)
    (apart : ∀ a ∈ (branch r shape cs).refs, a ∉ x.refs) (hi : cs[i]? = some c) (h : Written s s' c x c') :
    Written s s' (branch r shape cs) x (branch r shape (storeAt i c' cs)) := by
  have hp := refs_branch r shape hi
  obtain ⟨_, rest, disjoint⟩ := List.nodup_append'.1 (hp.nodup_iff.1 single)
  have outside : ∀ a ∈ aside r cs i, a ∈ (branch r shape cs).refs ∧ a ∉ c.refs ∧ a.index < s.cells.size := by
    intro a ha
    have hm := hp.mem_iff.2 (List.mem_append_right _ ha)
    exact ⟨hm, fun hc => disjoint hc ha, hn.bound hm⟩
  have same : ∀ a ∈ aside r cs i, s'.cell? a = s.cell? a := fun a ha =>
    h.frame a (outside a ha).2.1 (outside a ha).2.2
  have separate : ∀ a ∈ c'.refs, a ∉ aside r cs i := by
    intro a ha hr
    obtain ⟨hm, hc, hb⟩ := outside a hr
    rcases h.origin a ha with h | h | h
    · exact hc h
    · exact apart a hm h
    · omega
  refine ⟨?_, rfl, nodup_storeAt h.nodup rest separate, fun a ha => ?_, fun a ha hb => ?_, h.more⟩
  · cases hn with
    | branch cell shows below =>
      refine stands_storeAt ((same r List.mem_cons_self).trans cell) ?_ h.stands fun t ht => ?_
      · rwa [h.value, storeAt_self (by rw [List.getElem?_map, hi, Option.map_some])]
      · refine (below t (List.mem_of_mem_eraseIdx ht)).frame fun a ha => same a ?_
        exact List.mem_cons_of_mem _ (List.mem_flatMap.2 ⟨t, ht, ha⟩)
  · rcases List.mem_append.1 ((refs_storeAt r shape i c' cs).mem_iff.1 ha) with ha | ha
    · exact (h.origin a ha).imp_left fun hc => hp.mem_iff.2 (List.mem_append_left _ hc)
    · exact .inl (outside a ha).1
  · exact h.frame a (fun hc => ha (hp.mem_iff.2 (List.mem_append_left _ hc))) hb

/-- Storing at a segment. -/
theorem assign_written (hn : n.Stands w.store) (hx : x.Stands w.store) (single : n.refs.Nodup)
    (own : x.refs.Nodup) (apart : ∀ r ∈ n.refs, r ∉ x.refs) (h : n.assign p x = some n') :
    ∃ s', (∀ env, Path.assign n.value p x.value env w = (.value (), w.having s')) ∧
      Written w.store s' n x n' ∧ s'.cells.size = w.store.cells.size := by
  cases hn with
  | leaf bare => cases h
  | @branch r shape cs c cell shows below =>
    obtain ⟨i, hi, rfl⟩ := Option.map_eq_some_iff.1 h
    obtain ⟨d, run, shows'⟩ := Shape.assign cell shows (by rwa [List.length_map]) x.value
    have bound : r.index < w.store.cells.size := (Array.getElem?_eq_some_iff.1 cell).1
    have hput (a : Ref) (ha : r ≠ a) : (w.store.put r d).cell? a = w.store.cell? a := by
      rw [Store.cell?_put bound, if_neg ha]
    have whole : (branch r shape cs).refs = r :: cs.flatMap refs := by rw [refs]
    rw [whole] at single apart
    obtain ⟨hr, rest⟩ := List.nodup_cons.1 single
    have part : (aside r cs i).Sublist (r :: cs.flatMap refs) := by
      exact ((List.eraseIdx_sublist cs i).flatMap refs).cons_cons r
    have size : (w.store.put r d).cells.size = w.store.cells.size := by simp [Store.put]
    refine ⟨_, run, ⟨?_, rfl, nodup_storeAt own (single.sublist part) fun a ha hm => apart a (part.subset hm) ha,
      fun a ha => ?_, fun a ha _ => ?_, Nat.le_of_eq size.symm⟩, size⟩
    · refine stands_storeAt (by rw [Store.cell?_put bound, if_pos rfl]) shows' (hx.frame fun a ha => ?_) fun t ht => ?_
      · exact hput a fun h => apart r List.mem_cons_self (h ▸ ha)
      · have ht := List.mem_of_mem_eraseIdx ht
        refine (below t ht).frame fun a ha => hput a fun h => hr (h ▸ List.mem_flatMap.2 ⟨t, ht, ha⟩)
    · rw [whole]
      rcases List.mem_append.1 ((refs_storeAt r _ i x cs).mem_iff.1 ha) with ha | ha
      · exact .inr (.inl ha)
      · exact .inl (part.subset ha)
    · rw [whole] at ha
      exact hput a fun h => ha (h ▸ List.mem_cons_self)

theorem assign_fails (hn : n.Stands w.store) (hb : n.isBranch) (h : n.assign p x = none) (v : Value) (env : Env κ) :
    ∃ f, Path.assign n.value p v env w = (.fault f, w) ∧ f.isWriteFault := by
  cases hn with
  | leaf bare => cases hb
  | branch cell shows below =>
    refine Shape.assign_fails cell shows ?_ v env
    rw [List.length_map]
    exact Option.map_eq_none_iff.1 h

/-- In a dictionary that was just made every path can be written. -/
theorem write_new {α : Type} (fresh : Nat → α) (m : Nat) (a : α) (ps : List String) (x : Datum α) :
    ((branch a (.dict []) []).write fresh m ps x).isSome := by
  induction ps generalizing m a with
  | nil => rfl
  | cons p ps ih =>
    cases ps with
    | nil => rfl
    | cons q qs =>
      have hb : (branch a (.dict []) []).below? p = none := rfl
      obtain ⟨c, hc⟩ := Option.isSome_iff_exists.1 (ih (m + 1) (fresh m))
      rw [write, hb]
      simp only [hc, Option.bind_some]
      rfl

theorem below?_eq_some {α : Type} {a : α} {cs : List (Datum α)} {c : Datum α} :
    (branch a shape cs).below? p = some c ↔
      ∃ i, shape.slot cs.length p = some i ∧ cs[i]? = some c ∧ c.isBranch := by
  simp only [Datum.below?, child?, Option.filter_eq_some_iff, Option.bind_eq_some_iff]
  constructor
  · rintro ⟨⟨i, hi, hc⟩, hb⟩
    exact ⟨i, hi, hc, hb⟩
  · rintro ⟨i, hi, hc, hb⟩
    exact ⟨⟨i, hi, hc⟩, hb⟩

/-- A child that is there is replaced in its place. -/
theorem assign_child (hn : (branch r shape cs).Stands s) (hi : shape.slot cs.length p = some i)
    (hc : cs[i]? = some c) (x : Placed) :
    (branch r shape cs).assign p x = some (branch r shape (storeAt i x cs)) := by
  cases hn with
  | branch cell shows below =>
    have hlt := (List.getElem?_eq_some_iff.1 hc).1
    have hadd := Shape.add_of_lt (by rwa [List.length_map]) (by rwa [List.length_map]) shows
    rw [assign, hi, Option.map_some, hadd]

/-- Where there is no container yet, a new dictionary is stored first. -/
theorem make_written (hn : n.Stands w.store) (single : n.refs.Nodup)
    (h : n.assign p (branch ⟨w.store.cells.size⟩ (.dict []) []) = some n') :
    ∃ s', (∀ env, ∀ k : Value → Eff κ Unit, (do
        let next ← alloc (.dict .empty)
        Path.assign n.value p next
        k next) env w = k (.ref ⟨w.store.cells.size⟩) env (w.having s')) ∧
      Written w.store s' n (branch ⟨w.store.cells.size⟩ (.dict []) []) n' ∧
      s'.cells.size = w.store.cells.size + 1 := by
  let s₁ := (w.store.alloc (.dict .empty)).2
  have old (a : Ref) (ha : a.index < w.store.cells.size) : s₁.cell? a = w.store.cell? a :=
    Store.cell?_alloc_old ha
  have size : s₁.cells.size = w.store.cells.size + 1 := by simp [s₁, Store.alloc]
  have new : (branch ⟨w.store.cells.size⟩ (.dict []) [] : Placed).Stands s₁ :=
    .branch Store.cell?_alloc_new ⟨rfl, rfl⟩ (List.forall_mem_nil _)
  have only := refs_new ⟨w.store.cells.size⟩
  have apart : ∀ a ∈ n.refs, a ∉ (branch ⟨w.store.cells.size⟩ (.dict []) [] : Placed).refs := by
    intro a ha hm
    rw [only, List.mem_singleton] at hm
    have := hn.bound ha
    rw [hm] at this
    exact absurd this (Nat.lt_irrefl _)
  have hn' : n.Stands (w.having s₁).store := hn.frame fun a ha => old a (hn.bound ha)
  obtain ⟨s', run, written, same⟩ := assign_written hn' new single
    (by rw [only]; exact List.nodup_singleton _) apart h
  have written : Written s₁ s' n _ n' := written
  have run (env : Env κ) :
      Path.assign n.value p (.ref ⟨w.store.cells.size⟩) env (w.having s₁) = (.value (), w.having s') := run env
  refine ⟨s', fun env k => ?_, ⟨written.stands, written.value, written.nodup, fun a ha => ?_, fun a ha hb => ?_, ?_⟩,
    same.trans size⟩
  · have made : alloc (.dict .empty) env w = (.value (.ref ⟨w.store.cells.size⟩), w.having s₁) := rfl
    rw [bind_value made, bind_value (run env)]
  · rcases written.origin a ha with h | h | h
    · exact .inl h
    · exact .inr (.inl h)
    · exact .inr (.inr (Nat.le_trans (by omega) h))
  · rw [written.frame a ha (by omega), old a hb]
  · have := written.more
    omega

section Below

variable {c : Placed} {q : String} {qs : List String} {v : Value} {env : Env κ}

/-- Writing along a path goes on in the container below its first segment. -/
theorem write_below (hn : (branch r shape cs).Stands w.store) (hc : (branch r shape cs).below? p = some c) :
    Path.write (.ref r) (p :: q :: qs) v env w = Path.write c.value (q :: qs) v env w := by
  have found : Path.below? w.store (.ref r) p = some c.value := (below?_value hn p).trans (by rw [hc]; rfl)
  rw [Path.write]
  · rw [bind_store, found]
  · exact List.cons_ne_nil q qs

/-- If there is none, it goes on in a new dictionary. -/
theorem write_anew (hn : (branch r shape cs).Stands w.store) (hc : (branch r shape cs).below? p = none) :
    Path.write (.ref r) (p :: q :: qs) v env w = (do
      let next ← alloc (.dict .empty)
      Path.assign (.ref r) p next
      Path.write next (q :: qs) v) env w := by
  have found : Path.below? w.store (.ref r) p = none := (below?_value hn p).trans (by rw [hc]; rfl)
  rw [Path.write]
  · rw [bind_store, found]
  · exact List.cons_ne_nil q qs

end Below

/-- Where there is no container below a segment, what is written into a new dictionary is written into the branch. -/
theorem write_written_anew {c' : Placed} {q : String} {qs : List String} (hn : (branch r shape cs).Stands w.store)
    (hx : x.Stands w.store) (single : (branch r shape cs).refs.Nodup) (apart : ∀ a ∈ (branch r shape cs).refs, a ∉ x.refs)
    (hc : (branch r shape cs).below? p = none) (hi : shape.slot cs.length p = some i)
    (inner : ∀ s₂ : Store, s₂.cells.size = w.store.cells.size + 1 → x.Stands s₂ →
      (branch ⟨w.store.cells.size⟩ (.dict []) [] : Placed).Stands s₂ → ∃ s₃,
      (∀ env, Path.write (.ref ⟨w.store.cells.size⟩) (q :: qs) x.value env (w.having s₂) = (.value (), w.having s₃)) ∧
        Written s₂ s₃ (branch ⟨w.store.cells.size⟩ (.dict []) []) x c') :
    ∃ s', (∀ env, Path.write (.ref r) (p :: q :: qs) x.value env w = (.value (), w.having s')) ∧
      Written w.store s' (branch r shape cs) x (branch r (shape.add p) (storeAt i c' cs)) := by
  let next : Placed := branch ⟨w.store.cells.size⟩ (.dict []) []
  have hnew : (branch r shape cs).assign p next = some (branch r (shape.add p) (storeAt i next cs)) :=
    Option.map_eq_some_iff.2 ⟨i, hi, rfl⟩
  obtain ⟨s₂, run, made, size⟩ := make_written hn single hnew
  have hle := hn.slot_le hi
  have inside : (storeAt i next cs)[i]? = some next := by rw [getElem?_storeAt hle, if_pos rfl]
  have hx₂ : x.Stands s₂ := hx.frame fun a ha => made.frame a (fun hm => apart a hm ha) (hx.bound ha)
  obtain ⟨s₃, run₂, written⟩ := inner s₂ size hx₂ (made.stands.child inside)
  have apart₂ : ∀ a ∈ (branch r (shape.add p) (storeAt i next cs)).refs, a ∉ x.refs := by
    intro a ha hm
    have bound := hx.bound hm
    rcases made.origin a ha with h | h | h
    · exact apart a h hm
    · rw [refs_new, List.mem_singleton] at h
      exact absurd bound (h ▸ Nat.lt_irrefl _)
    · omega
  have up := Written.up made.stands made.nodup apart₂ inside written
  rw [storeAt_storeAt hle] at up
  refine ⟨s₃, fun env => (write_anew hn hc).trans ((run env _).trans (run₂ env)), made.trans up fun a ha => ?_⟩
  rw [refs_new, List.mem_singleton] at ha
  exact ha ▸ Nat.le_refl _

/-- Writing along a path into data that stand in the store. -/
theorem write_written (hn : n.Stands w.store) (hx : x.Stands w.store) (single : n.refs.Nodup)
    (own : x.refs.Nodup) (apart : ∀ r ∈ n.refs, r ∉ x.refs) (hb : n.isBranch) {ps : List String}
    (hps : ps ≠ []) (h : n.write Ref.mk w.store.cells.size ps x = some n') :
    ∃ s', (∀ env, Path.write n.value ps x.value env w = (.value (), w.having s')) ∧
      Written w.store s' n x n' := by
  induction ps generalizing n n' w with
  | nil => exact absurd rfl hps
  | cons p ps ih =>
    rcases ps with _ | ⟨q, qs⟩
    · obtain ⟨s', run, written, _⟩ := assign_written hn hx single own apart h
      exact ⟨s', run, written⟩
    rcases n with v | ⟨r, shape, cs⟩
    · cases hb
    rw [write] at h
    rcases hc : (branch r shape cs).below? p with _ | c <;> rw [hc] at h
    · -- a new dictionary is stored and then written into
      obtain ⟨c', hw, ha⟩ := Option.bind_eq_some_iff.1 h
      obtain ⟨i, hi, rfl⟩ := Option.map_eq_some_iff.1 ha
      refine write_written_anew hn hx single apart hc hi fun s₂ size hx₂ hn₂ => ?_
      have separate : ∀ a ∈ (branch ⟨w.store.cells.size⟩ (.dict []) [] : Placed).refs, a ∉ x.refs := by
        intro a ha hm
        rw [refs_new, List.mem_singleton] at ha
        exact absurd (hx.bound hm) (ha ▸ Nat.lt_irrefl _)
      rw [← size] at hw
      exact ih (w := w.having s₂) hn₂ hx₂ (by rw [refs_new]; exact List.nodup_singleton _) separate rfl
        (List.cons_ne_nil q qs) hw
    · obtain ⟨c', hw, ha⟩ := Option.bind_eq_some_iff.1 h
      obtain ⟨i, hi, hci, hcb⟩ := below?_eq_some.1 hc
      obtain ⟨s', run, written⟩ := ih (hn.child hci) hx (nodup_child hci single)
        (fun a ha => apart a (mem_refs_child hci ha)) hcb (List.cons_ne_nil q qs) hw
      rw [assign_child hn hi hci] at ha
      cases ha
      exact ⟨s', fun env => (write_below hn hc).trans (run env), Written.up hn single apart hci written⟩

/-- A path that cannot be written faults, and what is there stays as it is. -/
theorem write_fails (hn : n.Stands w.store) (hb : n.isBranch) {ps : List String} (hps : ps ≠ [])
    (h : n.write Ref.mk w.store.cells.size ps x = none) (v : Value) (env : Env κ) :
    ∃ f s', Path.write n.value ps v env w = (.fault f, w.having s') ∧ f.isWriteFault ∧
      (∀ r, r.index < w.store.cells.size → s'.cell? r = w.store.cell? r) ∧
      w.store.cells.size ≤ s'.cells.size := by
  induction ps generalizing n with
  | nil => exact absurd rfl hps
  | cons p ps ih =>
    rcases ps with _ | ⟨q, qs⟩
    · obtain ⟨f, run, hf⟩ := assign_fails hn hb h v env
      exact ⟨f, w.store, run, hf, fun _ _ => rfl, Nat.le_refl _⟩
    rcases n with u | ⟨r, shape, cs⟩
    · cases hb
    rw [write] at h
    rcases hc : (branch r shape cs).below? p with _ | c <;> rw [hc] at h
    · -- it is storing the new dictionary that fails, since that could be written
      let s₁ := (w.store.alloc (.dict .empty)).2
      have old (a : Ref) (ha : a.index < w.store.cells.size) : s₁.cell? a = w.store.cell? a :=
        Store.cell?_alloc_old ha
      have hn₁ : (branch r shape cs).Stands (w.having s₁).store := hn.frame fun a ha => old a (hn.bound ha)
      obtain ⟨c', hc'⟩ := Option.isSome_iff_exists.1
        (write_new Ref.mk (w.store.cells.size + 1) ⟨w.store.cells.size⟩ (q :: qs) x)
      have ha : (branch r shape cs).assign p c' = none := by
        simpa only [hc', Option.bind_some] using h
      obtain ⟨f, run, hf⟩ := assign_fails hn₁ rfl ha (.ref ⟨w.store.cells.size⟩) env
      refine ⟨f, s₁, ?_, hf, old, by simp [s₁, Store.alloc]⟩
      have made : alloc (.dict .empty) env w = (.value (.ref ⟨w.store.cells.size⟩), w.having s₁) := rfl
      rw [value, write_anew hn hc, bind_value made]
      change Eff.bind (Path.assign (.ref r) p _) _ env (w.having s₁) = _
      unfold Eff.bind
      rw [show Path.assign (.ref r) p _ env (w.having s₁) = _ from run]
    · obtain ⟨i, hi, hci, hcb⟩ := below?_eq_some.1 hc
      rw [value, write_below hn hc]
      refine ih (hn.child hci) hcb (List.cons_ne_nil q qs) ?_
      refine Option.eq_none_iff_forall_not_mem.2 fun c' hc' => ?_
      simp only [Option.mem_def.1 hc', Option.bind_some, assign_child hn hi hci] at h
      cases h

end Written

/-- A path is written, or the data stay as they are. -/
theorem Written.unchanged {s' : Store} (hn : n.Stands s) (single : n.refs.Nodup)
    (same : ∀ r, r.index < s.cells.size → s'.cell? r = s.cell? r) (more : s.cells.size ≤ s'.cells.size) :
    Written s s' n x n where
  stands := hn.frame fun r hr => same r (hn.bound hr)
  value := rfl
  nodup := single
  origin _ hr := .inl hr
  frame r _ hr := same r hr
  more := more

/-- A dictionary stays one when something is written below it. -/
theorem write_root {α : Type} {fresh : Nat → α} {m : Nat} {a : α} {keys : List Value} {cs : List (Datum α)}
    {ps : List String} {x t : Datum α} (h : (branch a (.dict keys) cs).write fresh m ps x = some t) :
    ∃ keys' cs', t = branch a (.dict keys') cs' := by
  have assigned {p : String} {y : Datum α} (h : (branch a (.dict keys) cs).assign p y = some t) :
      ∃ keys' cs', t = branch a (.dict keys') cs' := by
    rw [assign] at h
    obtain ⟨i, _, rfl⟩ := Option.map_eq_some_iff.1 h
    exact ⟨_, _, rfl⟩
  rcases ps with _ | ⟨p, _ | ⟨q, qs⟩⟩
  · cases h
    exact ⟨_, _, rfl⟩
  · exact assigned h
  · rw [write] at h
    split at h
    all_goals
      obtain ⟨y, _, h⟩ := Option.bind_eq_some_iff.1 h
      exact assigned h

theorem stored_root {α : Type} (fresh : Nat → α) (m : Nat) (a : α) (keys : List Value) (cs : List (Datum α))
    (path : String) (x : Datum α) :
    ∃ keys' cs', (branch a (.dict keys) cs).stored fresh m path x = branch a (.dict keys') cs' := by
  unfold stored
  cases h : (branch a (.dict keys) cs).write fresh m (segments path) x with
  | none => exact ⟨keys, cs, rfl⟩
  | some t => exact write_root h

/-- The cells of data are containers. -/
theorem Stands.container (h : t.Stands s) {r : Ref} (hr : r ∈ t.refs) :
    ∃ c, s.cell? r = some c ∧ ∀ data hook, c ≠ .record data hook := by
  obtain ⟨shape, cs, c, cell, shows, -⟩ := h.part hr
  refine ⟨c, cell, fun data hook => ?_⟩
  rcases shows.cases with ⟨_, rfl⟩ | ⟨_, _, rfl, _⟩ <;> simp

/-- Data that no cell mentions take up no cell that is not mentioned. -/
theorem Stands.unmentioned {s : Store} {t : Placed} {r : Ref} (h : t.Stands s)
    (root : t.value ≠ .ref r) (none : s.cells.all fun
      | .list xs => xs.all (· != .ref r)
      | .dict t => t.values.all (· != .ref r)
      | _ => true) : r ∉ t.refs := by
  induction h with
  | leaf bare =>
    rw [refs]
    exact List.not_mem_nil
  | @branch r' shape cs c cell shows below ih =>
    rw [refs]
    intro hm
    rcases List.mem_cons.1 hm with rfl | hm
    · exact root rfl
    · obtain ⟨x, hx, hm⟩ := List.mem_flatMap.1 hm
      refine ih x hx (fun he => ?_) hm
      have hc := Array.all_eq_true_iff_forall_mem.1 none c (Array.mem_of_getElem? cell)
      have hv : x.value ∈ cs.map value := List.mem_map_of_mem hx
      rcases shows.cases with ⟨-, rfl⟩ | ⟨t, -, rfl, he'⟩
      · have := List.all_eq_true.1 hc _ hv
        simp [he] at this
      · rw [he'] at hv
        have := List.all_eq_true.1 hc _ hv
        simp [he] at this

end Datum

end ReactiveScopes
