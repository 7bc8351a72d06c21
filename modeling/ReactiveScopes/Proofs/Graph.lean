import Mathlib.Logic.Relation
import ReactiveScopes.Proofs.Placement
import ReactiveScopes.Proofs.Storing

/-!
# Object graphs

Lists and dictionaries hold values, and among those are lists and dictionaries again. Some may be held by several, and
some may lead back to where one came from. Writing along a path into such a graph raises if the path meets a list
without such a slot, and then everything is as it was. Otherwise it stores in one slot of one container; all else that
is new is a chain of dictionaries that ends in the value.
-/
namespace ReactiveScopes

open Eff

variable {κ : Type} {w : Session κ} {s s' : Store} {r : Ref} {c d : Cell} {v u x : Value} {p q : String}
  {ps qs : List String} {n : Nat}

namespace Cell

/-- Lists and dictionaries. -/
def isBranch : Cell → Bool
  | .list _ | .dict _ => true
  | _ => false

/-- The items of a list, or the values of a dictionary. -/
def inside : Cell → List Value
  | .list xs => xs
  | .dict t => t.values
  | _ => []

/-- What a list or a dictionary has at a segment. -/
def at? : Cell → String → Option Value
  | .list xs, p => (position? xs.length p).bind (xs[·]?)
  | .dict t, p => t.at? p
  | _, _ => none

/-- A list lacks a slot: the segment is that of none of its items, nor of a new one behind the last. -/
def lacks : Cell → String → Bool
  | .list xs, p => (position? xs.length p).isNone && Text.readInt? p.toList != some (xs.length : Int)
  | _, _ => false

/-- One slot is written: that of a key, that of a position, or a new one behind the last item. -/
inductive Stores (p : String) (x : Value) : Cell → Cell → Prop
  | key (t : Mapping) : Stores p x (.dict t) (.dict (t.insert (.text p) x))
  | item {xs : List Value} {i : Nat} (names : position? xs.length p = some i) :
      Stores p x (.list xs) (.list (xs.set i x))
  | append {xs : List Value} (names : Text.readInt? p.toList = some (xs.length : Int)) :
      Stores p x (.list xs) (.list (xs ++ [x]))

theorem inside_of_at? (h : c.at? p = some x) : x ∈ c.inside := by
  cases c with
  | list xs =>
    obtain ⟨i, -, hi⟩ := Option.bind_eq_some_iff.1 h
    exact List.mem_of_getElem? hi
  | dict t => exact Table.mem_values_of_get? h
  | _ => cases h

theorem isBranch_of_at? (h : c.at? p = some x) : c.isBranch := by
  cases c with
  | list xs => rfl
  | dict t => rfl
  | _ => cases h

/-- What a list has at a segment is in a slot. -/
theorem lacks_of_at? (h : c.at? p = some x) : c.lacks p = false := by
  cases c with
  | list xs =>
    obtain ⟨i, names, -⟩ := Option.bind_eq_some_iff.1 h
    simp [lacks, names]
  | _ => rfl

/-- A list lacks what is nowhere in its shape. -/
theorem lacks_list (xs : List Value) (p : String) :
    (Cell.list xs).lacks p = (Shape.list.slot xs.length p).isNone := by
  unfold lacks Shape.slot
  dsimp only
  cases named : Text.readInt? p.toList with
  | none => simp [position?, named]
  | some j =>
    by_cases last : j = xs.length
    · simp [last]
    · simp [last]

end Cell

/-- An operation that looks at nothing but the store and changes nothing else, how it ends, and what becomes of the
store. -/
def Store.Gives {α : Type} (s : Store) (m : Eff κ α) (o : Outcome α) (s' : Store) : Prop :=
  ∀ env w, w.store = s → m env w = (o, w.having s')

theorem Store.Gives.bind {α β : Type} {m : Eff κ α} {k : α → Eff κ β} {a : α} {o : Outcome β} {s'' : Store}
    (h : s.Gives m (.value a) s') (h' : s'.Gives (k a) o s'') : s.Gives (m >>= k) o s'' :=
  fun env w hw => (bind_value (h env w hw) k).trans (h' env (w.having s') rfl)

theorem Store.Gives.raised {α β : Type} {m : Eff κ α} {f : Fault} (h : s.Gives m (.fault f) s') (k : α → Eff κ β) :
    s.Gives (m >>= k) (.fault f) s' := by
  intro env w hw
  change Eff.bind m k env w = _
  unfold Eff.bind
  rw [h env w hw]

theorem Store.Gives.read {α : Type} {k : Store → Eff κ α} {o : Outcome α} (h : s.Gives (k s) o s') :
    s.Gives (store >>= k) o s' := by
  rintro env w rfl
  exact h env w rfl

theorem Store.gives_alloc (s : Store) (c : Cell) :
    s.Gives (Eff.alloc c : Eff κ Value) (.value (.ref ⟨s.cells.size⟩)) (s.alloc c).2 := by
  rintro env w rfl
  rfl

namespace Path

/-- The slot that a segment names in a list is that of one of its items, or a new one. -/
theorem stores_storeAt {xs : List Value} {i : Nat} (h : Shape.list.slot xs.length p = some i) (x : Value) :
    Cell.Stores p x (.list xs) (.list (storeAt i x xs)) := by
  unfold Shape.slot at h
  dsimp only at h
  cases hj : Text.readInt? p.toList with
  | none => simp [hj] at h
  | some j =>
    simp only [hj] at h
    split at h
    · next last =>
      cases h
      rw [storeAt_length]
      exact .append (last ▸ hj)
    · rw [storeAt_of_lt (position?_lt h)]
      exact .item h

theorem assign_dict {t : Mapping} (cell : s.cell? r = some (.dict t)) (p : String) (x : Value) :
    s.Gives (assign (.ref r) p x : Eff κ Unit) (.value ()) (s.put r (.dict (t.insert (.text p) x))) := by
  rintro env w rfl
  unfold assign
  rw [bind_store, show w.store.look (.ref r) = some (.dict t) from cell]
  rfl

/-- Storing into a list or a dictionary is storing in one slot of it, or a fault if it lacks the slot. -/
theorem assign_slot (cell : s.cell? r = some c) (branch : c.isBranch) (p : String) (x : Value) :
    (c.lacks p ∧ ∃ f, f.isWriteFault ∧ s.Gives (assign (.ref r) p x : Eff κ Unit) (.fault f) s) ∨
      (c.lacks p = false ∧
        ∃ d, c.Stores p x d ∧ s.Gives (assign (.ref r) p x : Eff κ Unit) (.value ()) (s.put r d)) := by
  have look : s.look (.ref r) = some c := cell
  cases c with
  | dict t => exact .inr ⟨rfl, _, .key t, assign_dict cell p x⟩
  | list xs =>
    have lacks := Cell.lacks_list xs p
    cases hi : Shape.list.slot xs.length p with
    | none =>
      obtain ⟨f, raised, hf⟩ := Shape.storeItem_no_slot hi x
      refine .inl ⟨by simp [lacks, hi], f, hf, ?_⟩
      rintro env w rfl
      unfold assign
      rw [bind_store, look]
      dsimp only
      rw [raised]
      rfl
    | some i =>
      refine .inr ⟨by simp [lacks, hi], _, stores_storeAt hi x, ?_⟩
      rintro env w rfl
      unfold assign
      rw [bind_store, look]
      dsimp only
      rw [Shape.storeItem_slot hi x]
      rfl
  | _ => cases branch

end Path

namespace Store

/-- A list or a dictionary holds a value. -/
def Holds (s : Store) (v x : Value) : Prop := ∃ c, s.look v = some c ∧ x ∈ c.inside

/-- What a value leads to through lists and dictionaries. -/
abbrev Below (s : Store) : Value → Value → Prop := Relation.ReflTransGen s.Holds

/-- If all that a value leads to is as it was, it leads to nothing else. -/
theorem below_of_look (same : ∀ u, s.Below v u → s'.look u = s.look u) (below : s'.Below v u) : s.Below v u := by
  induction below with
  | refl => exact .refl
  | tail _ holds ih =>
    obtain ⟨c, look, inside⟩ := holds
    exact ih.tail ⟨c, (same _ ih).symm.trans look, inside⟩

/-- A graph of lists and dictionaries that begins with a dictionary. At its leaves are values of all other kinds, but
no records. -/
structure Graph (s : Store) (root : Ref) : Prop where
  dict : ∃ t, s.cell? root = some (.dict t)
  plain : ∀ {v}, s.Below (.ref root) v → s.record? v = none

/-- Whether there are no records at all. -/
def isPlain (s : Store) : Bool :=
  s.cells.all fun
    | .record _ _ => false
    | _ => true

theorem Graph.of_isPlain {root : Ref} {t : Mapping} (dict : s.cell? root = some (.dict t)) (h : s.isPlain) :
    s.Graph root := by
  refine ⟨⟨t, dict⟩, fun {v} _ => ?_⟩
  cases record : s.record? v with
  | none => rfl
  | some a =>
    obtain ⟨data, hook⟩ := a
    obtain ⟨r, rfl, cell⟩ := Store.look_of_record? record
    have plain := Array.all_eq_true_iff_forall_mem.1 h _ (Array.mem_of_getElem? cell)
    cases plain

/-- The segments lead from one value to another through lists and dictionaries. -/
inductive Way (s : Store) : Value → List String → Value → Prop
  | here (v : Value) : Way s v [] v
  | step {v u x : Value} {c : Cell} {p : String} {ps : List String} (cell : s.look v = some c)
      (found : c.at? p = some u) (on : Way s u ps x) : Way s v (p :: ps) x

/-- Dictionaries one after the other, each of them the only value of the one before, with `x` in the last. The first
is the cell of that number, and `v` is what stands at the head. -/
inductive Chain (s : Store) (x : Value) : Nat → List String → Value → Prop
  | last (n : Nat) : Chain s x n [] x
  | link {n : Nat} {p : String} {ps : List String} {v : Value}
      (cell : s.cell? ⟨n⟩ = some (.dict (Table.empty.insert (.text p) v))) (on : Chain s x (n + 1) ps v) :
      Chain s x n (p :: ps) (.ref ⟨n⟩)

/-- What came of writing `x` along a path below `v`: without segments nothing, and otherwise one slot of one container
that was there has been written. What is stored there is `x`, or a chain of new dictionaries that ends in it. -/
inductive Wrote (s : Store) (v x : Value) : List String → Store → Prop
  | nothing : Wrote s v x [] s
  | slot {way rest : List String} {p : String} {r : Ref} {c d : Cell} {head : Value} {s' : Store}
      (leads : s.Way v way (.ref r)) (cell : s.cell? r = some c) (stores : c.Stores p head d)
      (stored : s'.cell? r = some d) (others : ∀ a, a ≠ r → a.index < s.cells.size → s'.cell? a = s.cell? a)
      (chain : s'.Chain x s.cells.size rest head) (size : s'.cells.size = s.cells.size + rest.length)
      (beside : s' = { s with cells := s'.cells }) : Wrote s v x (way ++ p :: rest) s'

/-- A slot of the container where the path begins. -/
theorem Wrote.first {head : Value} (cell : s.cell? r = some c) (stores : c.Stores p head d)
    (stored : s'.cell? r = some d) (others : ∀ a, a ≠ r → a.index < s.cells.size → s'.cell? a = s.cell? a)
    (chain : s'.Chain x s.cells.size ps head) (size : s'.cells.size = s.cells.size + ps.length)
    (beside : s' = { s with cells := s'.cells }) : s.Wrote (.ref r) x (p :: ps) s' := by
  change s.Wrote (.ref r) x ([] ++ p :: ps) s'
  exact .slot (.here _) cell stores stored others chain size beside

theorem Wrote.below (cell : s.look v = some c) (found : c.at? p = some u) (h : s.Wrote u x (q :: qs) s') :
    s.Wrote v x (p :: q :: qs) s' := by
  generalize hps : q :: qs = ps at h
  cases h with
  | nothing => cases hps
  | slot leads cell' stores stored others chain size beside =>
    exact .slot (.step cell found leads) cell' stores stored others chain size beside

/-- Somewhere on their way through lists and dictionaries the segments meet a list that lacks a slot. -/
def blocks (s : Store) : Value → List String → Bool
  | _, [] => false
  | v, p :: ps =>
    match s.look v with
    | some c => c.lacks p || (c.at? p).any (s.blocks · ps)
    | none => false

/-- What came of such a write if nothing was lost but what the slot held: the segments went on through lists and
dictionaries as long as there were any, and only then through new ones. -/
inductive Fills (s : Store) (v x : Value) : List String → Store → Prop
  | slot {way rest : List String} {p : String} {r : Ref} {c : Cell} {s' : Store} (leads : s.Way v way (.ref r))
      (cell : s.cell? r = some c) (ends : rest ≠ [] → ∀ u, c.at? p = some u → Path.isContainer s u = false)
      (wrote : s.Wrote (.ref r) x (p :: rest) s') : Fills s v x (way ++ p :: rest) s'

theorem Wrote.along (way : s.Way v qs u) (h : s.Wrote u x (p :: ps) s') : s.Wrote v x (qs ++ p :: ps) s' := by
  induction way with
  | here v => exact h
  | @step v u y c q qs cell found on ih =>
    have wrote := ih h
    cases qs with
    | nil => exact wrote.below cell found
    | cons q' qs => exact wrote.below cell found

theorem Fills.wrote (h : s.Fills v x ps s') : s.Wrote v x ps s' := by
  cases h with
  | slot leads cell ends wrote => exact wrote.along leads

theorem Fills.below (cell : s.look v = some c) (found : c.at? p = some u) (h : s.Fills u x qs s') :
    s.Fills v x (p :: qs) s' := by
  cases h with
  | slot leads cell' ends wrote => exact .slot (.step cell found leads) cell' ends wrote

theorem blocks_cons (cell : s.look v = some c) (p : String) (ps : List String) :
    s.blocks v (p :: ps) = (c.lacks p || (c.at? p).any (s.blocks · ps)) := by
  rw [blocks, cell]

theorem blocks_single (cell : s.look v = some c) (p : String) : s.blocks v [p] = c.lacks p := by
  rw [blocks_cons cell]
  cases c.at? p <;> simp [blocks]

/-- Only lists and dictionaries can be on the way. -/
theorem container_of_blocks (h : s.blocks v ps) : Path.isContainer s v := by
  cases ps with
  | nil => cases h
  | cons p ps =>
    unfold blocks at h
    unfold Path.isContainer
    split at h
    · next c look =>
      rw [look]
      cases c <;> simp_all [Cell.lacks, Cell.at?]
    · cases h

end Store

namespace Path

theorem isContainer_branch (h : isContainer s v) (plain : s.record? v = none) :
    ∃ r c, v = .ref r ∧ s.cell? r = some c ∧ c.isBranch := by
  cases v with
  | ref r =>
    unfold isContainer Store.look at h
    unfold Store.record? Store.look at plain
    dsimp only at h plain
    cases hc : s.cell? r with
    | none => simp [hc] at h
    | some c => cases c <;> simp_all [Cell.isBranch]
  | _ => simp [isContainer, Store.look] at h

theorem isContainer_of_branch (cell : s.look v = some c) (branch : c.isBranch) : isContainer s v := by
  unfold isContainer
  rw [cell]
  cases c <;> first | rfl | cases branch

theorem child_at? (cell : s.look v = some c) (branch : c.isBranch) (p : String) :
    s.child v p = .ok ((c.at? p).getD .none) := by
  unfold Store.child Store.mapping? Store.sequence?
  rw [cell]
  cases c with
  | list xs => rfl
  | dict t => rfl
  | _ => cases branch

theorem below?_at? (cell : s.cell? r = some c) (branch : c.isBranch) (h : below? s (.ref r) p = some u) :
    c.at? p = some u ∧ isContainer s u := by
  unfold below? at h
  split at h
  · rw [child_at? (show s.look (.ref r) = some c from cell) branch] at h
    dsimp only at h
    split at h
    · next inside =>
      cases found : c.at? p with
      | none => simp [found, isContainer, Store.look] at inside
      | some y =>
        simp only [found, Option.getD_some] at h inside
        exact ⟨h, Option.some.inj h ▸ inside⟩
    · cases h
  · cases h

theorem below?_none (cell : s.look v = some c) (branch : c.isBranch) (h : below? s v p = none)
    (found : c.at? p = some u) : isContainer s u = false := by
  unfold below? at h
  rw [if_pos (isContainer_of_branch cell branch), child_at? cell branch, found] at h
  dsimp only [Option.getD_some] at h
  split at h
  · cases h
  · next other => exact Bool.eq_false_iff.2 other

/-- In a dictionary that was just made a path is laid out in new dictionaries. -/
theorem write_fresh (p : String) (ps : List String) (x : Value) {n : Nat} (last : s.cells.size = n + 1)
    (cell : s.cell? ⟨n⟩ = some (.dict .empty)) :
    ∃ s', s.Gives (write (.ref ⟨n⟩) (p :: ps) x : Eff κ Unit) (.value ()) s' ∧ s'.Chain x n (p :: ps) (.ref ⟨n⟩) ∧
      (∀ a : Ref, a.index < n → s'.cell? a = s.cell? a) ∧ s'.cells.size = n + (p :: ps).length ∧
      s' = { s with cells := s'.cells } := by
  have apart {a : Ref} (ha : a.index < n) : (⟨n⟩ : Ref) ≠ a := by
    rintro rfl
    exact absurd ha (Nat.lt_irrefl n)
  induction ps generalizing p s n with
  | nil =>
    let s' := s.put ⟨n⟩ (.dict (Table.empty.insert (.text p) x))
    have put (a : Ref) : s'.cell? a = _ := Store.cell?_put (x := a) (show n < s.cells.size by omega)
    refine ⟨s', assign_dict cell p x, .link ((put ⟨n⟩).trans (if_pos rfl)) (.last _), fun a ha => ?_, ?_, rfl⟩
    · exact (put a).trans (if_neg (apart ha))
    · simp [s', Store.put, last]
  | cons q qs ih =>
    have below : below? s (.ref ⟨n⟩) p = none := by
      cases h : below? s (.ref ⟨n⟩) p with
      | none => rfl
      | some u => cases (below?_at? cell rfl h).1
    let s₁ := (s.alloc (.dict .empty)).2
    let s₂ := s₁.put ⟨n⟩ (.dict (Table.empty.insert (.text p) (.ref ⟨n + 1⟩)))
    have size : s₁.cells.size = n + 2 := by simp [s₁, Store.alloc, last]
    have old (a : Ref) (ha : a.index < n + 1) : s₁.cell? a = s.cell? a := Store.cell?_alloc_old (by omega)
    have put (a : Ref) : s₂.cell? a = _ :=
      Store.cell?_put (x := a) (r := ⟨n⟩) (show n < s₁.cells.size by omega)
    have new : s₂.cell? ⟨n + 1⟩ = some (.dict .empty) := by
      rw [put, if_neg (by simp), ← last]
      exact Store.cell?_alloc_new
    obtain ⟨s', run, chain, kept, size', beside⟩ :=
      ih (s := s₂) q (n := n + 1) (by simp [s₂, Store.put, size]) new fun ha h => absurd ha (by simp [← h])
    have made : s.Gives (Eff.alloc (.dict .empty) : Eff κ Value) (.value (.ref ⟨n + 1⟩)) s₁ :=
      last ▸ s.gives_alloc _
    refine ⟨s', ?_, .link ?_ chain, fun a ha => ?_, ?_, beside.trans rfl⟩
    · unfold write
      refine .read ?_
      rw [below]
      exact .bind made (.bind (assign_dict ((old ⟨n⟩ (Nat.lt_succ_self n)).trans cell) p _) run)
    · exact (kept ⟨n⟩ (Nat.lt_succ_self n)).trans ((put ⟨n⟩).trans (if_pos rfl))
    · rw [kept a (by omega)]
      exact (put a).trans ((if_neg (apart ha)).trans (old a (by omega)))
    · rw [size']
      simp only [List.length_cons]
      omega

/-- Where there is no container to go on in, the rest of the path is laid out in new dictionaries. Only storing the
first of them can fail. -/
theorem write_anew (cell : s.cell? r = some c) (branch : c.isBranch) (below : below? s (.ref r) p = none) (q : String)
    (qs : List String) (x : Value) :
    (c.lacks p ∧
      ∃ f s', f.isWriteFault ∧ s.Extends s' ∧ s.Gives (write (.ref r) (p :: q :: qs) x : Eff κ Unit) (.fault f) s') ∨
    (c.lacks p = false ∧ ∃ s', s.Wrote (.ref r) x (p :: q :: qs) s' ∧
      s.Gives (write (.ref r) (p :: q :: qs) x : Eff κ Unit) (.value ()) s') := by
  let n := s.cells.size
  let s₁ := (s.alloc (.dict .empty)).2
  have bound : r.index < n := (Array.getElem?_eq_some_iff.1 cell).1
  have old (a : Ref) (ha : a.index < n) : s₁.cell? a = s.cell? a := Store.cell?_alloc_old ha
  have size : s₁.cells.size = n + 1 := by simp [s₁, n, Store.alloc]
  have go {o : Outcome Unit} {s' : Store}
      (h : s₁.Gives (do assign (.ref r) p (.ref ⟨n⟩); write (.ref ⟨n⟩) (q :: qs) x : Eff κ Unit) o s') :
      s.Gives (write (.ref r) (p :: q :: qs) x : Eff κ Unit) o s' := by
    unfold write
    refine .read ?_
    rw [below]
    exact .bind (s.gives_alloc _) h
  rcases assign_slot (s := s₁) ((old r bound).trans cell) branch p (.ref ⟨n⟩) with
    ⟨lacks, f, hf, run⟩ | ⟨lacks, d, stores, run⟩
  · exact .inl ⟨lacks, f, s₁, hf, .alloc rfl, go (run.raised _)⟩
  · let s₂ := s₁.put r d
    have put (a : Ref) : s₂.cell? a = _ :=
      Store.cell?_put (x := a) (show r.index < s₁.cells.size by omega)
    have size₂ : s₂.cells.size = n + 1 := by simp [s₂, Store.put, size]
    have new : s₂.cell? ⟨n⟩ = some (.dict .empty) := by
      refine (put ⟨n⟩).trans ((if_neg ?_).trans Store.cell?_alloc_new)
      rintro rfl
      exact absurd bound (Nat.lt_irrefl n)
    obtain ⟨s', laid, chain, kept, size', beside⟩ := write_fresh (κ := κ) q qs x size₂ new
    refine .inr ⟨lacks, s', ?_, go (.bind run laid)⟩
    refine .first cell stores ?_ (fun a ha hb => ?_) chain size' (beside.trans rfl)
    · exact (kept r bound).trans ((put r).trans (if_pos rfl))
    · exact (kept a hb).trans ((put a).trans ((if_neg ha.symm).trans (old a hb)))

/-- Writing along a path below a list or a dictionary of a graph raises if the way is blocked, and only then. -/
theorem write_fills (p : String) (ps : List String) (cell : s.cell? r = some c) (branch : c.isBranch)
    (plain : ∀ {v}, s.Below (.ref r) v → s.record? v = none) (x : Value) :
    (s.blocks (.ref r) (p :: ps) ∧
      ∃ f s', f.isWriteFault ∧ s.Extends s' ∧ s.Gives (write (.ref r) (p :: ps) x : Eff κ Unit) (.fault f) s') ∨
    (s.blocks (.ref r) (p :: ps) = false ∧
      ∃ s', s.Fills (.ref r) x (p :: ps) s' ∧ s.Gives (write (.ref r) (p :: ps) x : Eff κ Unit) (.value ()) s') := by
  induction ps generalizing p r c with
  | nil =>
    have bound : r.index < s.cells.size := (Array.getElem?_eq_some_iff.1 cell).1
    have blocks := Store.blocks_single (v := .ref r) cell p
    rcases assign_slot cell branch p x with ⟨lacks, f, hf, run⟩ | ⟨lacks, d, stores, run⟩
    · exact .inl ⟨blocks.trans lacks, f, s, hf, .refl, run⟩
    · have put (a : Ref) : (s.put r d).cell? a = _ := Store.cell?_put (x := a) bound
      refine .inr ⟨blocks.trans lacks, _, .slot (.here _) cell (absurd rfl) ?_, run⟩
      refine .first cell stores ((put r).trans (if_pos rfl)) (fun a ha _ => ?_) (.last _) (by simp [Store.put]) rfl
      exact (put a).trans (if_neg ha.symm)
  | cons q qs ih =>
    have look : s.look (.ref r) = some c := cell
    have blocks := Store.blocks_cons look p (q :: qs)
    cases below : below? s (.ref r) p with
    | some u =>
      obtain ⟨found, inside⟩ := below?_at? cell branch below
      have holds : s.Holds (.ref r) u := ⟨c, cell, Cell.inside_of_at? found⟩
      obtain ⟨r', c', rfl, cell', branch'⟩ := isContainer_branch inside (plain (.single holds))
      have go {o : Outcome Unit} {s' : Store} (h : s.Gives (write (.ref r') (q :: qs) x : Eff κ Unit) o s') :
          s.Gives (write (.ref r) (p :: q :: qs) x : Eff κ Unit) o s' := by
        unfold write
        refine .read ?_
        rw [below]
        exact h
      rw [Cell.lacks_of_at? found, found, Bool.false_or, Option.any_some] at blocks
      rcases ih q cell' branch' fun h => plain (.head holds h) with
        ⟨blocked, f, s', hf, kept, run⟩ | ⟨free, s', fills, run⟩
      · exact .inl ⟨blocks.trans blocked, f, s', hf, kept, go run⟩
      · exact .inr ⟨blocks.trans free, s', fills.below cell found, go run⟩
    | none =>
      -- what is there is no container, so nothing further down can block the way
      have further : (c.at? p).any (s.blocks · (q :: qs)) = false := by
        cases found : c.at? p with
        | none => rfl
        | some u =>
          refine Bool.eq_false_iff.2 fun blocked => ?_
          exact Bool.eq_false_iff.1 (below?_none look branch below found) (Store.container_of_blocks blocked)
      rw [further, Bool.or_false] at blocks
      rcases write_anew cell branch below q qs x with ⟨lacks, raised⟩ | ⟨lacks, s', wrote, run⟩
      · exact .inl ⟨blocks.trans lacks, raised⟩
      · exact .inr ⟨blocks.trans lacks, s',
          .slot (.here _) cell (fun _ _ => below?_none look branch below) wrote, run⟩

/-- Writing along a path below a list or a dictionary of a graph. -/
theorem write_slot (ps : List String) (cell : s.cell? r = some c) (branch : c.isBranch)
    (plain : ∀ {v}, s.Below (.ref r) v → s.record? v = none) (x : Value) :
    (∃ f s', f.isWriteFault ∧ s.Extends s' ∧ s.Gives (write (.ref r) ps x : Eff κ Unit) (.fault f) s') ∨
      ∃ s', s.Wrote (.ref r) x ps s' ∧ s.Gives (write (.ref r) ps x : Eff κ Unit) (.value ()) s' := by
  cases ps with
  | nil =>
    refine .inr ⟨s, .nothing, ?_⟩
    rintro env w rfl
    rfl
  | cons p ps =>
    rcases write_fills p ps cell branch plain x with ⟨-, raised⟩ | ⟨-, s', fills, run⟩
    · exact .inl raised
    · exact .inr ⟨s', fills.wrote, run⟩

end Path

namespace Record

variable {data : Ref}

/-- Whether a write that has been done is reported: one below a key always, and one of the key itself if the value there
has changed. -/
def reports (s : Store) (data : Ref) (p : String) (ps : List String) (v : Value) : Bool :=
  !ps.isEmpty || tells s data p v

/-- A write along a path raises if the way is blocked. Otherwise it is done, and then it is reported if it is to be. -/
theorem setPath_fills {path : Value} (graph : s.Graph data) (names : s.segmentsOf path = p :: ps) (v : Value) :
    (s.blocks (.ref data) (p :: ps) ∧
      ∃ f s', f.isWriteFault ∧ s.Extends s' ∧ ∀ hook, s.Gives (setPath data hook path v : Eff κ Unit) (.fault f) s') ∨
    (s.blocks (.ref data) (p :: ps) = false ∧ ∃ s', s.Fills (.ref data) v (p :: ps) s' ∧
      ∀ hook (env : Env κ) w, w.store = s → setPath data hook path v env w =
        (if reports s data p ps v then report hook (.text p) else pure ()) env (w.having s')) := by
  obtain ⟨t, dict⟩ := graph.dict
  have fills := Path.write_fills (κ := κ) p ps dict rfl graph.plain v
  cases ps with
  | nil =>
    -- a key of the record is written without going along a path
    have free := Store.blocks_single (v := .ref data) dict p
    rcases fills with ⟨blocked, -⟩ | ⟨-, s', fills, run⟩
    · cases blocked.symm.trans free
    · refine .inr ⟨free, s', fills, fun hook env w hw => ?_⟩
      subst hw
      cases (run env w rfl).symm.trans (Path.assign_dict dict p v env w rfl)
      rw [setPath_item names, ← fields_dict dict]
      exact setItem_text hook env
  | cons q qs =>
    have go {o : Outcome Unit × Session κ} {hook : Hook} {env : Env κ} {w : Session κ} (hw : w.store = s)
        (h : (do Path.write (.ref data) (p :: q :: qs) v; report hook (.text p)) env w = o) :
        setPath data hook path v env w = o := by
      unfold setPath
      rw [bind_store, hw, names]
      exact h
    rcases fills with ⟨blocked, f, s', hf, kept, run⟩ | ⟨free, s', fills, run⟩
    · exact .inl ⟨blocked, f, s', hf, kept, fun hook env w hw => go hw (run.raised _ env w hw)⟩
    · exact .inr ⟨free, s', fills, fun hook env w hw => go hw (bind_value (run env w hw) _)⟩

/-- What a record reports of a write along a path comes after it, and if the write raises there is nothing to report. -/
theorem setPath_slot (graph : s.Graph data) (path x : Value) :
    (∃ f s', s.Extends s' ∧ ∀ hook, s.Gives (setPath data hook path x : Eff κ Unit) (.fault f) s') ∨
      ∃ s' p ps, s.segmentsOf path = p :: ps ∧ s.Wrote (.ref data) x (p :: ps) s' ∧
        ∀ hook (env : Env κ) w, w.store = s →
          setPath data hook path x env w = report hook (.text p) env (w.having s') ∨
            ps = [] ∧ setPath data hook path x env w = (.value (), w.having s') := by
  rcases names : s.segmentsOf path with _ | ⟨p, ps⟩
  · refine .inl ⟨.outOfRange, s, .refl, fun hook => .read ?_⟩
    rw [names]
    rintro env w rfl
    rfl
  · rcases setPath_fills (κ := κ) graph names x with ⟨-, f, s', -, kept, run⟩ | ⟨-, s', fills, run⟩
    · exact .inl ⟨f, s', kept, run⟩
    · refine .inr ⟨s', p, ps, rfl, fills.wrote, fun hook env w hw => ?_⟩
      rw [run hook env w hw]
      by_cases loud : reports s data p ps x
      · rw [if_pos loud]
        exact .inl rfl
      · rw [if_neg loud]
        exact .inr ⟨by simp_all [reports], rfl⟩

end Record

/-- Writing along a path into a graph, which may have shared parts and lead back into itself, either raises and leaves
everything that was there as it was, or returns and has written no more than one slot of one container that was there;
what is new besides is a chain of dictionaries that ends in the value. A record whose data are the graph does the same.
If it raises, the outcome is the same whatever its hook, and so nothing has been reported, unless it is the hook that
raises. -/
theorem set_path_writes_one_slot {root : Ref} (graph : s.Graph root) (path x : Value) :
    ((∃ f s', s.Extends s' ∧ s.Gives (Path.set (.ref root) path x : Eff κ Unit) (.fault f) s') ∨
      ∃ s', s.Wrote (.ref root) x (s.segmentsOf path) s' ∧
        s.Gives (Path.set (.ref root) path x : Eff κ Unit) (.value ()) s') ∧
    ((∃ f s', s.Extends s' ∧ ∀ hook, s.Gives (Record.setPath root hook path x : Eff κ Unit) (.fault f) s') ∨
      ∃ s' p ps, s.segmentsOf path = p :: ps ∧ s.Wrote (.ref root) x (p :: ps) s' ∧
        ∀ hook (env : Env κ) w, w.store = s →
          Record.setPath root hook path x env w = Record.report hook (.text p) env (w.having s') ∨
            ps = [] ∧ Record.setPath root hook path x env w = (.value (), w.having s')) ∧
    ∀ hook (env : Env κ) w f w', w.store = s → (∀ key w₁ f w₂, Record.report hook key env w₁ ≠ (.fault f, w₂)) →
      Record.setPath root hook path x env w = (.fault f, w') →
        (∃ s', w' = w.having s' ∧ s.Extends s') ∧
        ∀ hook' env', Record.setPath root hook' path x env' w = (.fault f, w') := by
  obtain ⟨t, dict⟩ := graph.dict
  refine ⟨?_, Record.setPath_slot graph path x, fun hook env w f w' hw calm raised => ?_⟩
  · rcases Path.write_slot (s.segmentsOf path) dict rfl graph.plain x with
      ⟨f, s', _, kept, run⟩ | ⟨s', wrote, run⟩
    · exact .inl ⟨f, s', kept, .read run⟩
    · exact .inr ⟨s', wrote, .read run⟩
  · rcases Record.setPath_slot graph path x with ⟨f', s', kept, same⟩ | ⟨s', p, ps, _, _, ends⟩
    · cases (same hook env w hw).symm.trans raised
      exact ⟨⟨s', rfl, kept⟩, fun hook' env' => same hook' env' w hw⟩
    · rcases ends hook env w hw with reported | ⟨_, returned⟩
      · exact absurd (reported.symm.trans raised) (calm _ _ _ _)
      · cases returned.symm.trans raised

/-- A dictionary that holds a list twice, and itself; the list holds the dictionary. -/
def Store.knot : Store where
  cells := #[.dict (Mapping.ofFields [("a", .ref ⟨1⟩), ("b", .ref ⟨1⟩), ("self", .ref ⟨0⟩)]),
    .list [.int 1, .ref ⟨0⟩]]

theorem set_path_writes_one_slot_knot :
    (∃ f s', Store.knot.Extends s' ∧
      Store.knot.Gives (Path.set (.ref ⟨0⟩) (.text "b.7.c") (.int 5) : Eff Unit Unit) (.fault f) s') ∧
    ∃ s', Store.knot.Wrote (.ref ⟨0⟩) (.int 5) (segments "self.b.2.c") s' ∧
      ∀ hook (env : Env Unit) w, w.store = Store.knot →
        Record.setPath ⟨0⟩ hook (.text "self.b.2.c") (.int 5) env w =
          Record.report hook (.text "self") env (w.having s') := by
  have graph : Store.knot.Graph ⟨0⟩ := .of_isPlain rfl (by decide +kernel)
  let env : Env Unit := ⟨fun _ _ w => (.exhausted, w), 0⟩
  let w : Session Unit := { memory := (), store := .knot }
  refine ⟨?_, ?_⟩
  · rcases (set_path_writes_one_slot (κ := Unit) graph (.text "b.7.c") (.int 5)).1 with raised | ⟨s', -, run⟩
    · exact raised
    · have first := congrArg Prod.fst (run env w rfl)
      have last : (Path.set (.ref ⟨0⟩) (.text "b.7.c") (.int 5) env w).1 = .fault .outOfRange := by decide +kernel
      cases first.symm.trans last
  · rcases (set_path_writes_one_slot (κ := Unit) graph (.text "self.b.2.c") (.int 5)).2.1 with
      ⟨f, s', -, run⟩ | ⟨s', p, ps, names, wrote, run⟩
    · have first := congrArg Prod.fst (run .none env w rfl)
      have last : (Record.setPath ⟨0⟩ .none (.text "self.b.2.c") (.int 5) env w).1 = .value () := by decide +kernel
      cases first.symm.trans last
    · have dotted : segments "self.b.2.c" = ["self", "b", "2", "c"] := by decide +kernel
      obtain ⟨rfl, rfl⟩ : p = "self" ∧ ps = ["b", "2", "c"] := by simpa using names.symm.trans dotted
      refine ⟨s', dotted ▸ wrote, fun hook env w hw => ?_⟩
      exact (run hook env w hw).resolve_right fun h => List.cons_ne_nil _ _ h.1

end ReactiveScopes
