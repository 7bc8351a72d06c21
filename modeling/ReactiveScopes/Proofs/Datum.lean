import Mathlib.Data.List.Nodup
import ReactiveScopes.Proofs.Region
import ReactiveScopes.Record.Mapping

/-!
# Data as trees

Lists and dictionaries that share nothing are a tree. Writing along a path changes one branch of it, making
dictionaries on the way, or does not come about because a segment names no position of a list. A tree whose
branches carry references is one that stands in a store, and writing there is writing along the tree.
-/
namespace ReactiveScopes

/-- The list with `x` at a position, or behind the last item. -/
def storeAt {β : Type} (i : Nat) (x : β) (xs : List β) : List β := xs.take i ++ x :: xs.drop (i + 1)

section StoreAt

variable {β γ : Type} {i j : Nat} {x y : β} {xs : List β}

theorem map_storeAt (f : β → γ) : (storeAt i x xs).map f = storeAt i (f x) (xs.map f) := by
  simp [storeAt, List.map_take, List.map_drop]

theorem storeAt_perm : (storeAt i x xs).Perm (x :: xs.eraseIdx i) := by
  rw [List.eraseIdx_eq_take_drop_succ]
  exact List.perm_middle

theorem storeAt_of_lt (hi : i < xs.length) : storeAt i x xs = xs.set i x := by
  rw [storeAt, List.set_eq_take_append_cons_drop, if_pos hi]

theorem storeAt_length : storeAt xs.length x xs = xs ++ [x] := by
  simp [storeAt]

theorem storeAt_self (h : xs[i]? = some x) : storeAt i x xs = xs := by
  obtain ⟨hi, hx⟩ := List.getElem?_eq_some_iff.1 h
  rw [storeAt_of_lt hi, ← hx, List.set_getElem_self]

theorem getElem?_storeAt (hi : i ≤ xs.length) (j : Nat) :
    (storeAt i x xs)[j]? = if j = i then some x else xs[j]? := by
  rcases Nat.lt_or_eq_of_le hi with hi | rfl
  · rw [storeAt_of_lt hi, List.getElem?_set]
    grind
  · rw [storeAt_length, List.getElem?_append]
    grind

theorem storeAt_storeAt (hi : i ≤ xs.length) : storeAt i y (storeAt i x xs) = storeAt i y xs := by
  have hl : (xs.take i).length = i := List.length_take_of_le hi
  unfold storeAt
  rw [List.take_left' hl, List.drop_append]
  simp [hl]

theorem length_storeAt (hi : i ≤ xs.length) : (storeAt i x xs).length = max xs.length (i + 1) := by
  simp [storeAt]
  omega

end StoreAt

namespace Table

variable {κ α : Type} [DecidableEq κ]

theorem keys_insert (t : Table κ α) (k : κ) (a : α) : (t.insert k a).keys = insertKey k t.keys := by
  suffices h : ∀ es : List (κ × α), (storeIn k a es).map Prod.fst = insertKey k (es.map Prod.fst) from
    h t.entries
  intro es
  unfold insertKey
  induction es with
  | nil => rfl
  | cons e es ih =>
    by_cases he : e.1 = k
    · simp [storeIn, he]
    · simp only [storeIn, he, if_false, List.map_cons, ih, List.contains_cons, beq_iff_eq, Ne.symm he,
        Bool.or_eq_true, false_or]
      split <;> rfl

theorem values_insert (t : Table κ α) (k : κ) (a : α) :
    (t.insert k a).values = storeAt (t.keys.idxOf k) a t.values := by
  suffices h : ∀ es : List (κ × α),
      (storeIn k a es).map Prod.snd = storeAt ((es.map Prod.fst).idxOf k) a (es.map Prod.snd) from
    h t.entries
  intro es
  induction es with
  | nil => rfl
  | cons e es ih =>
    by_cases he : e.1 = k
    · simp [storeIn, he, storeAt]
    · simp [storeIn, he, ih, storeAt]

theorem get?_eq_getElem? (t : Table κ α) (k : κ) : t.get? k = t.values[t.keys.idxOf k]? := by
  suffices h : ∀ es : List (κ × α),
      lookIn k es = (es.map Prod.snd)[(es.map Prod.fst).idxOf k]? from h t.entries
  intro es
  induction es with
  | nil => rfl
  | cons e es ih =>
    by_cases he : e.1 = k
    · simp [lookIn, he]
    · simp [lookIn, he, ih]

omit [DecidableEq κ] in
theorem entries_eq (t : Table κ α) : t.entries = t.keys.zip t.values := by
  rw [keys, values, List.zip_map', List.map_id']

end Table

theorem segments_ne_nil (path : String) : segments path ≠ [] := by
  have h : cutAtDots path.toList ≠ [] := by
    cases path.toList with
    | nil => nofun
    | cons c cs =>
      unfold cutAtDots
      split
      · nofun
      · split <;> nofun
  simpa [segments] using h

section Positions

variable {p : String} {i n : Nat}

theorem position?_lt (h : position? n p = some i) : i < n := by
  unfold position? at h
  obtain ⟨j, _, h⟩ := Option.bind_eq_some_iff.1 h
  dsimp only at h
  generalize (if j < 0 then j + n else j) = k at h
  split at h
  · next hk =>
    simp only [Bool.and_eq_true, decide_eq_true_eq] at hk
    simp only [Option.some.injEq] at h
    omega
  · cases h

/-- The length of a list names none of its items. -/
theorem position?_length (h : Text.readInt? p.toList = some (n : Int)) : position? n p = none := by
  unfold position?
  rw [h]
  simp only [Option.bind_eq_bind, Option.bind_some]
  rw [if_neg (show ¬ (n : Int) < 0 by omega), if_neg (by simp)]

end Positions

/-- What a branch is: a list, or a dictionary with these keys. -/
inductive Shape where
  | list
  | dict (keys : List Value)
  deriving DecidableEq

namespace Shape

/-- Where a segment stores among the children of a branch: at one of them, or behind the last one. -/
def slot : Shape → Nat → String → Option Nat
  | list, n, segment =>
    match Text.readInt? segment.toList with
    | none => none
    | some i => if i = n then some n else position? n segment
  | dict keys, _, segment => some (keys.idxOf (.text segment))

/-- The shape after storing at a segment. -/
def add : Shape → String → Shape
  | list, _ => list
  | dict keys, segment => dict (insertKey (.text segment) keys)

/-- The cell is a branch of this shape with these children. -/
def Shows : Shape → Cell → List Value → Prop
  | list, .list xs, vs => xs = vs
  | dict keys, .dict t, vs => t.keys = keys ∧ t.values = vs
  | _, _, _ => False

/-- Whether a branch of this shape can have that many children. -/
def Fits : Shape → Nat → Prop
  | list, _ => True
  | dict keys, n => keys.length = n

variable {shape : Shape} {p : String} {i n : Nat}

/-- A slot is that of a child, or the place behind the last one. -/
theorem slot_le (fits : shape.Fits n) (h : shape.slot n p = some i) : i ≤ n := by
  cases shape with
  | list =>
    unfold slot at h
    dsimp only at h
    split at h
    · cases h
    · split at h
      · cases h
        exact Nat.le_refl _
      · exact Nat.le_of_lt (position?_lt h)
  | dict keys =>
    cases h
    exact fits ▸ List.idxOf_le_length

/-- Once something is stored there, a segment names the same slot. -/
theorem slot_add (fits : shape.Fits n) (h : shape.slot n p = some i) :
    (shape.add p).slot (max n (i + 1)) p = some i := by
  cases shape with
  | list =>
    unfold slot at h
    dsimp only at h
    split at h
    · cases h
    · next j hj =>
      split at h
      · next hn =>
        cases h
        have hne : ¬ j = ((i + 1 : Nat) : Int) := by omega
        rw [Nat.max_eq_right (Nat.le_succ i), add, slot, hj]
        dsimp only
        rw [if_neg hne, position?, hj, hn]
        simp only [Option.bind_eq_bind, Option.bind_some]
        have inside : (decide (0 ≤ (i : Int)) && decide ((i : Int) < (i + 1 : Nat))) = true := by
          rw [Bool.and_eq_true, decide_eq_true_iff, decide_eq_true_iff]
          omega
        rw [if_neg (show ¬ (i : Int) < 0 by omega), if_pos inside]
        rfl
      · next hn =>
        have hi := position?_lt h
        rw [Nat.max_eq_left hi, add, slot, hj]
        dsimp only
        rw [if_neg hn, h]
  | dict keys =>
    cases h
    unfold add slot insertKey
    dsimp only
    by_cases hm : .text p ∈ keys
    · rw [if_pos (List.contains_iff_mem.2 hm)]
    · rw [if_neg (by simpa using hm), List.idxOf_append_of_notMem hm, List.idxOf_eq_length hm]
      simp

end Shape

/-- Plain data. A branch may carry something besides its children. -/
inductive Datum (α : Type) where
  | leaf (v : Value)
  | branch (tag : α) (shape : Shape) (children : List (Datum α))

/-- The keys of a dictionary are texts. -/
def Shape.Keyed : Shape → Prop
  | list => True
  | dict keys => ∀ k ∈ keys, ∃ t, k = .text t

/-- JSON data. -/
inductive Datum.IsJson {α : Type} : Datum α → Prop
  | leaf {v : Value} (scalar : v.json?.isSome) : IsJson (leaf v)
  | branch {a : α} {shape : Shape} {cs : List (Datum α)} (keyed : shape.Keyed) (below : ∀ c ∈ cs, IsJson c) :
    IsJson (branch a shape cs)

namespace Datum

variable {α β : Type}

/-- The same data with other tags. -/
def map (f : α → β) : Datum α → Datum β
  | leaf v => leaf v
  | branch a shape cs => branch (f a) shape (cs.map (map f))

def isBranch : Datum α → Bool
  | leaf _ => false
  | branch _ _ _ => true

/-- What is at a segment. -/
def child? : Datum α → String → Option (Datum α)
  | leaf _, _ => none
  | branch _ shape cs, p => (shape.slot cs.length p).bind (cs[·]?)

/-- Stores at a segment, if that is possible. -/
def assign : Datum α → String → Datum α → Option (Datum α)
  | leaf _, _, _ => none
  | branch a shape cs, p, x => (shape.slot cs.length p).map fun i => branch a (shape.add p) (storeAt i x cs)

/-- What is at a segment, if it is a branch itself. -/
def below? (t : Datum α) (p : String) : Option (Datum α) := (t.child? p).filter isBranch

/-- Stores along a path. The branches made on the way get fresh tags. -/
def write (fresh : Nat → α) (n : Nat) (t : Datum α) : List String → Datum α → Option (Datum α)
  | [], _ => some t
  | [p], x => t.assign p x
  | p :: q :: ps, x =>
    match t.below? p with
    | some c => (c.write fresh n (q :: ps) x).bind (t.assign p)
    | none => ((branch (fresh n) (.dict []) []).write fresh (n + 1) (q :: ps) x).bind (t.assign p)

/-- Stores at a dotted path, if that is possible. -/
def stored (fresh : Nat → α) (n : Nat) (t : Datum α) (path : String) (x : Datum α) : Datum α :=
  (t.write fresh n (segments path) x).getD t

def isNone : Datum α → Bool
  | leaf v => v.isNone
  | branch _ _ _ => false

/-- Stores the result of a handler: not where there is no path, and not if it is `none`. -/
def returned (fresh : Nat → α) (n : Nat) (t : Datum α) (path : String) (x : Datum α) : Datum α :=
  if path = "" ∨ x.isNone then t else t.stored fresh n path x

/-- Reads along a path. -/
def read? (t : Datum α) : List String → Option (Datum α)
  | [] => some t
  | p :: ps => (t.child? p).bind (·.read? ps)

/-- Every dictionary has as many children as keys. -/
inductive Sound : Datum α → Prop
  | leaf (v : Value) : Sound (leaf v)
  | branch {a : α} {shape : Shape} {cs : List (Datum α)} (fits : shape.Fits cs.length)
    (below : ∀ c ∈ cs, Sound c) : Sound (branch a shape cs)

theorem Sound.made (a : α) : (Datum.branch a (.dict []) []).Sound := .branch rfl (List.forall_mem_nil _)

theorem Sound.below? {t c : Datum α} {p : String} (h : t.Sound) (hc : t.below? p = some c) : c.Sound := by
  cases h with
  | leaf v => cases hc
  | branch fits below =>
    obtain ⟨i, _, hi⟩ := Option.bind_eq_some_iff.1 (Option.filter_eq_some_iff.1 hc).1
    exact below c (List.mem_of_getElem? hi)

section Map

variable (f : α → β) (t : Datum α) (p : String)

theorem isBranch_map : (t.map f).isBranch = t.isBranch := by
  cases t <;> rw [map] <;> rfl

theorem isNone_map : (t.map f).isNone = t.isNone := by
  cases t <;> rw [map] <;> rfl

theorem child?_map : (t.map f).child? p = (t.child? p).map (map f) := by
  cases t with
  | leaf v => rw [map]; rfl
  | branch a shape cs =>
    rw [map, child?, child?, List.length_map]
    cases shape.slot cs.length p <;> simp

theorem assign_map (x : Datum α) : (t.map f).assign p (x.map f) = (t.assign p x).map (map f) := by
  cases t with
  | leaf v => rw [map]; rfl
  | branch a shape cs =>
    rw [map, assign, assign, List.length_map]
    cases shape.slot cs.length p with
    | none => rfl
    | some i => simp [map, map_storeAt]

theorem below?_map : (t.map f).below? p = (t.below? p).map (map f) := by
  rw [below?, below?, child?_map, Option.filter_map]
  congr 2
  exact funext fun c => isBranch_map f c

theorem read?_map (ps : List String) : (t.map f).read? ps = (t.read? ps).map (map f) := by
  induction ps generalizing t with
  | nil => rfl
  | cons p ps ih =>
    rw [read?, read?, child?_map]
    cases t.child? p with
    | none => rfl
    | some c => exact ih c

theorem Sound.map {t : Datum α} (h : t.Sound) : (t.map f).Sound := by
  induction h with
  | leaf v =>
    rw [Datum.map]
    exact .leaf v
  | branch fits below ih =>
    rw [Datum.map]
    refine .branch (by rwa [List.length_map]) fun c hc => ?_
    obtain ⟨c', hc', rfl⟩ := List.mem_map.1 hc
    exact ih c' hc'

/-- Writing does not depend on the tags. -/
theorem write_map (fresh : Nat → α) (n : Nat) (ps : List String) (x : Datum α) :
    (t.map f).write (fun i => f (fresh i)) n ps (x.map f) = (t.write fresh n ps x).map (map f) := by
  induction ps generalizing t n with
  | nil => rfl
  | cons p ps ih =>
    rcases ps with _ | ⟨q, qs⟩
    · exact assign_map f t p x
    · have onto (r : Option (Datum α)) :
          (r.map (map f)).bind ((t.map f).assign p) = (r.bind (t.assign p)).map (map f) := by
        cases r with
        | none => rfl
        | some c => exact assign_map f t p c
      rw [write, write, below?_map]
      cases t.below? p with
      | some c =>
        rw [Option.map_some]
        dsimp only
        rw [ih c n, onto]
      | none =>
        have made : (branch (f (fresh n)) (.dict []) [] : Datum β) = map f (branch (fresh n) (.dict []) []) := by
          rw [map]
          rfl
        rw [Option.map_none]
        dsimp only
        rw [made, ih _ (n + 1), onto]

/-- Where all fresh tags are alike it does not matter which one comes next. -/
theorem write_const (a : α) (n m : Nat) (ps : List String) (x : Datum α) :
    t.write (fun _ => a) n ps x = t.write (fun _ => a) m ps x := by
  induction ps generalizing t n m with
  | nil => rfl
  | cons p ps ih =>
    rcases ps with _ | ⟨q, qs⟩
    · rfl
    · rw [write, write]
      cases t.below? p with
      | some c =>
        dsimp only
        rw [ih c n m]
      | none =>
        dsimp only
        rw [ih _ (n + 1) (m + 1)]

end Map

section Reading

variable {t t' x : Datum α} {p : String}

/-- Storing at a segment puts the data in the place the segment names. -/
theorem assign_sound (ht : t.Sound) (h : t.assign p x = some t') :
    ∃ (a : α) (shape : Shape) (cs : List (Datum α)) (i : Nat), t' = branch a (shape.add p) (storeAt i x cs) ∧
      i ≤ cs.length ∧ (shape.add p).slot (storeAt i x cs).length p = some i := by
  cases ht with
  | leaf v => cases h
  | @branch a shape cs fits below =>
    rw [assign] at h
    obtain ⟨i, hi, rfl⟩ := Option.map_eq_some_iff.1 h
    have hle : i ≤ cs.length := shape.slot_le fits hi
    refine ⟨a, shape, cs, i, rfl, hle, ?_⟩
    rw [length_storeAt hle]
    exact shape.slot_add fits hi

/-- What was stored at a segment is what is there. -/
theorem child?_assign (ht : t.Sound) (h : t.assign p x = some t') : t'.child? p = some x := by
  obtain ⟨a, shape, cs, i, rfl, hle, hslot⟩ := assign_sound ht h
  rw [child?, hslot, Option.bind_some, getElem?_storeAt hle, if_pos rfl]

/-- What was written along a path is what is there. -/
theorem read?_write {fresh : Nat → α} {n : Nat} {ps : List String} (ht : t.Sound) (hps : ps ≠ [])
    (h : t.write fresh n ps x = some t') : t'.read? ps = some x := by
  induction ps generalizing t t' n with
  | nil => exact absurd rfl hps
  | cons p ps ih =>
    rcases ps with _ | ⟨q, qs⟩
    · rw [read?, child?_assign ht h]
      rfl
    · have onto {r : Option (Datum α)} (hr : ∀ c, r = some c → c.read? (q :: qs) = some x)
          (h : r.bind (t.assign p) = some t') : t'.read? (p :: q :: qs) = some x := by
        obtain ⟨c, hc, ha⟩ := Option.bind_eq_some_iff.1 h
        rw [read?, child?_assign ht ha]
        exact hr c hc
      rw [write] at h
      rcases hb : t.below? p with _ | c <;> rw [hb] at h
      · exact onto (fun c hc => ih (.made _) (List.cons_ne_nil _ _) hc) h
      · exact onto (fun c' hc => ih (ht.below? hb) (List.cons_ne_nil _ _) hc) h

theorem assign_isBranch (h : t.assign p x = some t') : t'.isBranch := by
  cases t with
  | leaf v => cases h
  | branch a shape cs =>
    obtain ⟨i, _, rfl⟩ := Option.map_eq_some_iff.1 h
    rfl

theorem write_isBranch {fresh : Nat → α} {n : Nat} {ps : List String} (ht : t.isBranch)
    (h : t.write fresh n ps x = some t') : t'.isBranch := by
  rcases ps with _ | ⟨p, _ | ⟨q, qs⟩⟩
  · cases h
    exact ht
  · exact assign_isBranch h
  · rw [write] at h
    split at h
    all_goals
      obtain ⟨c, _, ha⟩ := Option.bind_eq_some_iff.1 h
      exact assign_isBranch ha

/-- Where something was stored something else can be. -/
theorem assign_again (ht : t.Sound) (h : t.assign p x = some t') (y : Datum α) : (t'.assign p y).isSome := by
  obtain ⟨a, shape, cs, i, rfl, -, hslot⟩ := assign_sound ht h
  rw [assign, hslot]
  rfl

/-- A path that was written can be written once more. -/
theorem write_again {fresh : Nat → α} {n : Nat} {ps : List String} (ht : t.Sound)
    (h : t.write fresh n ps x = some t') (m : Nat) (y : Datum α) : (t'.write fresh m ps y).isSome := by
  induction ps generalizing t t' n with
  | nil => rfl
  | cons p ps ih =>
    rcases ps with _ | ⟨q, qs⟩
    · exact assign_again ht h y
    · -- what was stored at the first segment is what the rest of the path is written into
      have onto {c : Datum α} {n : Nat} (hc : c.Sound) (branch : c.isBranch)
          (h : (c.write fresh n (q :: qs) x).bind (t.assign p) = some t') :
          (t'.write fresh m (p :: q :: qs) y).isSome := by
        obtain ⟨c', hw, ha⟩ := Option.bind_eq_some_iff.1 h
        have below : t'.below? p = some c' :=
          Option.filter_eq_some_iff.2 ⟨child?_assign ht ha, write_isBranch branch hw⟩
        obtain ⟨d, hd⟩ := Option.isSome_iff_exists.1 (ih hc hw)
        rw [write, below]
        dsimp only
        rw [hd]
        exact assign_again ht ha d
      rw [write] at h
      rcases hb : t.below? p with _ | c <;> rw [hb] at h
      · exact onto (.made _) rfl h
      · exact onto (ht.below? hb) (Option.filter_eq_some_iff.1 hb).2 h

end Reading

end Datum

/-- Data that are known by their contents alone. -/
abbrev Plain := Datum Unit

/-- Data whose branches are cells of a store. -/
abbrev Placed := Datum Ref

namespace Datum

/-- The value that stands for the data. -/
def value : Placed → Value
  | leaf v => v
  | branch r _ _ => .ref r

/-- The cells that the data take up. -/
def refs : Placed → List Ref
  | leaf _ => []
  | branch r _ cs => r :: cs.flatMap refs

theorem mem_refs_branch {r a : Ref} {shape : Shape} {cs : List Placed} :
    a ∈ (branch r shape cs : Placed).refs ↔ a = r ∨ ∃ x ∈ cs, a ∈ x.refs := by
  rw [refs, List.mem_cons, List.mem_flatMap]

/-- What the data are, wherever they are. -/
def plain (t : Placed) : Plain := t.map fun _ => ()

/-- Plain data with something stored at a path, if that is possible. -/
def put (t : Plain) (path : String) (x : Plain) : Plain := t.stored (fun _ => ()) 0 path x

/-- Plain data after a handler has returned for a path. -/
def receive (t : Plain) (path : String) (x : Plain) : Plain := t.returned (fun _ => ()) 0 path x

theorem plain_stored (t x : Placed) (n : Nat) (path : String) :
    (t.stored Ref.mk n path x).plain = t.plain.put path x.plain := by
  unfold plain put stored
  rw [write_const _ () 0 n, write_map (fun _ => ()) t Ref.mk n (segments path) x]
  cases t.write Ref.mk n (segments path) x <;> rfl

/-- Whether a path can be written is settled by what the data are. -/
theorem isSome_write (t x : Placed) (n : Nat) (ps : List String) :
    (t.write Ref.mk n ps x).isSome = (t.plain.write (fun _ => ()) 0 ps x.plain).isSome := by
  unfold plain
  rw [write_const _ () 0 n, write_map (fun _ => ()) t Ref.mk n ps x, Option.isSome_map]

theorem plain_returned (t x : Placed) (n : Nat) (path : String) :
    (t.returned Ref.mk n path x).plain = t.plain.receive path x.plain := by
  have none : x.plain.isNone = x.isNone := isNone_map _ x
  unfold receive returned
  rw [none]
  split
  · rfl
  · exact plain_stored t x n path

/-- The cells hold the data. -/
inductive Stands (s : Store) : Placed → Prop
  | leaf {v : Value} (bare : v.ref? = none) : Stands s (leaf v)
  | branch {r : Ref} {shape : Shape} {cs : List Placed} {c : Cell} (cell : s.cell? r = some c)
    (shows : shape.Shows c (cs.map value)) (below : ∀ c ∈ cs, Stands s c) : Stands s (branch r shape cs)

variable {s s' : Store} {t n x : Placed}

theorem Stands.frame (h : t.Stands s) (hs : ∀ r ∈ t.refs, s'.cell? r = s.cell? r) : t.Stands s' := by
  induction h with
  | leaf bare => exact .leaf bare
  | @branch r shape cs c cell shows below ih =>
    refine .branch ((hs r (mem_refs_branch.2 (.inl rfl))).trans cell) shows fun c hc => ih c hc fun a ha => hs a ?_
    exact mem_refs_branch.2 (.inr ⟨c, hc, ha⟩)

theorem Stands.lasts (h : t.Stands s) (kept : ∀ {r c}, s.cell? r = some c → s'.cell? r = some c) :
    t.Stands s' := by
  induction h with
  | leaf bare => exact .leaf bare
  | branch cell shows below ih => exact .branch (kept cell) shows ih

theorem refs_sublist {c : Placed} {cs : List Placed} (hc : c ∈ cs) :
    c.refs.Sublist (cs.flatMap refs) := by
  rw [List.flatMap_def]
  exact List.sublist_flatten_of_mem (List.mem_map_of_mem hc)

/-- At each of their cells a branch of the data stands. -/
theorem Stands.part (h : t.Stands s) {r : Ref} (hr : r ∈ t.refs) :
    ∃ shape cs c, s.cell? r = some c ∧ shape.Shows c (cs.map value) ∧ (∀ x ∈ cs, x.Stands s) ∧
      (Datum.branch r shape cs).refs.Sublist t.refs := by
  induction h with
  | leaf bare =>
    rw [refs] at hr
    cases hr
  | @branch r' shape cs c cell shows below ih =>
    rcases mem_refs_branch.1 hr with rfl | ⟨x, hx, hr⟩
    · exact ⟨shape, cs, c, cell, shows, below, List.Sublist.refl _⟩
    · obtain ⟨shape', cs', c', cell', shows', below', inner⟩ := ih x hx hr
      refine ⟨shape', cs', c', cell', shows', below', ?_⟩
      rw [refs.eq_def (Datum.branch r' shape cs)]
      exact (inner.trans (refs_sublist hx)).cons r'

theorem Stands.bound (h : t.Stands s) {r : Ref} (hr : r ∈ t.refs) : r.index < s.cells.size := by
  obtain ⟨_, _, _, cell, _⟩ := h.part hr
  exact (Array.getElem?_eq_some_iff.1 cell).1

end Datum

end ReactiveScopes
