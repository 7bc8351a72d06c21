import ReactiveScopes.Path
import ReactiveScopes.Store.Arithmetic

/-!
# Operations on values

What every operation on values does to the store and how it can fail. It leaves what is there as it
is and adds plain data only. Where it fails, it does so with a fault of its own or with one that an
object of the client raised.
-/
namespace ReactiveScopes

/-- Plain data: containers that are built from values alone. -/
def Cell.isData : Cell → Bool
  | .list _ | .dict _ | .tuple _ | .set _ | .bytes _ => true
  | _ => false

/-- The limits of memory and of nesting. -/
def Fault.isLimit (f : Fault) : Bool := f = .outOfMemory || f = .tooDeep

/-- What an operation on values can fail with of its own. -/
def Fault.isOrdinary (f : Fault) : Bool := f.isOperatorFault || f.isLimit

/-- Faults among which those of the operations on values are. -/
class Admits (P : Fault → Prop) : Prop where
  ordinary : ∀ {f}, f.isOrdinary → P f

instance : Admits (fun f => f.isOrdinary) := ⟨id⟩

instance : Admits (fun _ => True) := ⟨fun _ => trivial⟩

/-- The same store with more plain data in it. -/
structure Store.Extends (s s' : Store) : Prop where
  kept : ∀ {r c}, s.cell? r = some c → s'.cell? r = some c
  added : ∀ {r c}, s'.cell? r = some c → s.cell? r = some c ∨ s.cell? r = none ∧ c.isData
  attached : s'.attached = s.attached
  awaitables : s'.awaitables = s.awaitables

/-- The objects of the client raise nothing else. -/
structure Store.Civil (P : Fault → Prop) (s : Store) : Prop where
  reading : ∀ {r o name f}, s.cell? r = some (.object o) → o.raising.get? name = some f → P f
  comparing : ∀ {r o f}, s.cell? r = some (.object o) → o.comparison = some f → P f

/-- They raise nothing else when an attribute is read. -/
def Store.Readable (P : Fault → Prop) (s : Store) : Prop :=
  ∀ ⦃r o name f⦄, s.cell? r = some (.object o) → o.raising.get? name = some f → P f

theorem Store.Civil.readable {P : Fault → Prop} {s : Store} (h : s.Civil P) : s.Readable P :=
  fun _ _ _ _ hc hf => h.reading hc hf

theorem Store.civil_all (s : Store) : s.Civil fun _ => True :=
  ⟨fun _ _ => trivial, fun _ _ => trivial⟩

/-- What is there after an allocation was there before or is what was allocated. -/
theorem Store.cell?_alloc_cases {s : Store} {c d : Cell} {r : Ref} (h : (s.alloc c).2.cell? r = some d) :
    s.cell? r = some d ∨ s.cell? r = none ∧ d = c := by
  by_cases hr : r.index < s.cells.size
  · exact Or.inl (by rwa [cell?_alloc_old hr] at h)
  · refine Or.inr ⟨Array.getElem?_eq_none (Nat.le_of_not_lt hr), ?_⟩
    have hlt := (Array.getElem?_eq_some_iff.1 h).1
    simp only [Store.alloc, Array.size_push] at hlt
    have hr' : r.index = s.cells.size := by omega
    have hc : some d = some c := by
      rw [← h]
      simp [Store.alloc, cell?, hr']
    exact Option.some.inj hc

namespace Store.Extends

variable {s s' s'' : Store}

theorem refl : s.Extends s := ⟨id, Or.inl, rfl, rfl⟩

theorem trans (h : s.Extends s') (h' : s'.Extends s'') : s.Extends s'' where
  kept hc := h'.kept (h.kept hc)
  added hc := by
    rcases h'.added hc with hc | ⟨hn, hd⟩
    · exact h.added hc
    · refine Or.inr ⟨?_, hd⟩
      cases ho : s.cell? _ with
      | none => rfl
      | some c => rw [h.kept ho] at hn; cases hn
  attached := h'.attached.trans h.attached
  awaitables := h'.awaitables.trans h.awaitables

theorem alloc {c : Cell} (hd : c.isData) : s.Extends (s.alloc c).2 where
  kept {r d} h := by
    have hr : r.index < s.cells.size := (Array.getElem?_eq_some_iff.1 h).1
    rw [cell?_alloc_old hr, h]
  added h := (cell?_alloc_cases h).imp_right fun ⟨hn, hc⟩ => ⟨hn, hc ▸ hd⟩
  attached := rfl
  awaitables := rfl

theorem marks (n : Nat) : s.Extends { s with marks := n } := ⟨id, Or.inl, rfl, rfl⟩

/-- An object that is there afterwards was there before. -/
theorem object (h : s.Extends s') {r : Ref} {c : Cell} (hc : s'.cell? r = some c)
    (hd : c.isData = false) : s.cell? r = some c := by
  rcases h.added hc with ho | ⟨-, hd'⟩
  · exact ho
  · rw [hd] at hd'
    cases hd'

theorem civil {P : Fault → Prop} (h : s.Extends s') (hs : s.Civil P) : s'.Civil P where
  reading hc := hs.reading (h.object hc rfl)
  comparing hc := hs.comparing (h.object hc rfl)

end Store.Extends

/-- A result that is no other fault. -/
class FailsIn {α : Type} (P : Fault → Prop) (r : Except Fault α) : Prop where
  fault : ∀ {f}, r = .error f → P f

namespace FailsIn

variable {α β : Type} {P : Fault → Prop}

instance (a : α) : FailsIn P (.ok a : Except Fault α) := ⟨fun h => by cases h⟩

instance (a : α) : FailsIn P (pure a : Except Fault α) := ⟨fun h => by cases h⟩

theorem error {f : Fault} (h : P f) : FailsIn P (.error f : Except Fault α) :=
  ⟨fun h' => by cases h'; exact h⟩

theorem ordinary [Admits P] {f : Fault} (h : f.isOrdinary) : FailsIn P (.error f : Except Fault α) :=
  error (Admits.ordinary h)

instance [Admits P] : FailsIn P (.error .unsupported : Except Fault α) := ordinary (by decide)

instance [Admits P] : FailsIn P (.error .invalid : Except Fault α) := ordinary (by decide)

instance [Admits P] : FailsIn P (.error .outOfRange : Except Fault α) := ordinary (by decide)

instance [Admits P] : FailsIn P (.error .noAttribute : Except Fault α) := ordinary (by decide)

instance [Admits P] : FailsIn P (.error .overflow : Except Fault α) := ordinary (by decide)

instance [Admits P] : FailsIn P (.error .zeroDivision : Except Fault α) := ordinary (by decide)

instance [Admits P] : FailsIn P (.error .outOfMemory : Except Fault α) := ordinary (by decide)

instance [Admits P] : FailsIn P (.error .tooDeep : Except Fault α) := ordinary (by decide)

theorem bind {r : Except Fault α} {k : α → Except Fault β} [hr : FailsIn P r]
    (hk : ∀ a, FailsIn P (k a)) : FailsIn P (r >>= k) := by
  cases r with
  | ok a => exact hk a
  | error f => exact ⟨fun h => by cases h; exact hr.fault rfl⟩

instance {r : Except Fault α} {k : α → Except Fault β} [FailsIn P r] [∀ a, FailsIn P (k a)] :
    FailsIn P (r >>= k) :=
  bind fun _ => inferInstance

instance {r : Except Fault α} {k : α → β} [hr : FailsIn P r] : FailsIn P (r.map k) := by
  cases r with
  | ok a => exact ⟨fun h => by cases h⟩
  | error f => exact ⟨fun h => by cases h; exact hr.fault rfl⟩

instance {c : Prop} [Decidable c] {a b : Except Fault α} [FailsIn P a] [FailsIn P b] :
    FailsIn P (if c then a else b) := by
  split <;> infer_instance

end FailsIn

namespace Store

variable {P : Fault → Prop} {s : Store} {same sameKey : Value → Value → Except Fault Bool}

theorem sameItem_fails (h : ∀ a b, FailsIn P (same a b)) (a b : Value) :
    FailsIn P (s.sameItem same a b) := by
  unfold sameItem
  infer_instance

theorem skipEqual_fails (h : ∀ a b, FailsIn P (same a b)) (xs ys : List Value) :
    FailsIn P (skipEqual same xs ys) := by
  induction xs generalizing ys with
  | nil => unfold skipEqual; infer_instance
  | cons x xs ih =>
    cases ys with
    | nil => unfold skipEqual; infer_instance
    | cons y ys => unfold skipEqual; infer_instance

theorem findKey_fails (h : ∀ a b, FailsIn P (same a b)) (x : Value) (ks : List Value) :
    FailsIn P (findKey same x ks) := by
  induction ks with
  | nil => unfold findKey; infer_instance
  | cons k ks ih => unfold findKey; infer_instance

theorem keyWithin_fails (h : ∀ a b, FailsIn P (same a b)) (m : Mapping) (x : Value) :
    FailsIn P (keyWithin same m x) := by
  have := findKey_fails h
  unfold keyWithin
  split <;> infer_instance

theorem fieldsAgree_fails (hk : ∀ a b, FailsIn P (sameKey a b)) (h : ∀ a b, FailsIn P (same a b))
    (m : Mapping) (fs : List (Value × Value)) : FailsIn P (fieldsAgree sameKey same m fs) := by
  induction fs with
  | nil => unfold fieldsAgree; infer_instance
  | cons e fs ih =>
    have := keyWithin_fails hk
    unfold fieldsAgree
    refine FailsIn.bind fun k => ?_
    split <;> infer_instance

theorem memberOf_fails (h : ∀ a b, FailsIn P (same a b)) (x : Value) (ys : List Value) :
    FailsIn P (memberOf same x ys) := by
  induction ys with
  | nil => unfold memberOf; infer_instance
  | cons y ys ih => unfold memberOf; infer_instance

theorem allMembers_fails (h : ∀ a b, FailsIn P (same a b)) (ys xs : List Value) :
    FailsIn P (allMembers same ys xs) := by
  have := memberOf_fails h
  induction xs with
  | nil => unfold allMembers; infer_instance
  | cons x xs ih => unfold allMembers; infer_instance

theorem comparison_fails (hs : s.Civil P) {v : Value} {f : Fault}
    (h : (match s.look v with | some (.object o) => o.comparison | _ => none) = some f) : P f := by
  split at h
  · next o ho =>
    cases v <;> simp only [look, reduceCtorEq] at ho
    exact hs.comparing ho h
  · cases h

theorem refusal?_fails (hs : s.Civil P) {a b : Value} {f : Fault} (h : s.refusal? a b = some f) :
    P f := by
  rcases Option.or_eq_some_iff.1 h with h | ⟨-, h⟩
  · exact comparison_fails hs h
  · exact comparison_fails hs h

theorem read?_fails (hs : s.Readable P) {r : Ref} {o : Object} (ho : s.cell? r = some (.object o))
    (self : Value) (name : String) : FailsIn P (o.read? self name) := by
  unfold Object.read?
  split
  · next f hf =>
    split
    · infer_instance
    · exact FailsIn.error (hs ho hf)
  · infer_instance

theorem attribute?_fails (hs : s.Readable P) (v : Value) (name : String) :
    FailsIn P (s.attribute? v name) := by
  unfold attribute?
  split
  case h_13 r =>
    split
    case h_3 o ho => exact read?_fails hs ho _ _
    all_goals infer_instance
  all_goals repeat' (first | infer_instance | split)

theorem child_fails (hs : s.Readable P) (v : Value) (p : String) : FailsIn P (s.child v p) := by
  have := attribute?_fails hs
  unfold child
  repeat' (first | infer_instance | split)

theorem readAlong_fails (hs : s.Readable P) (v : Value) (ps : List String) :
    FailsIn P (s.readAlong v ps) := by
  have := child_fails hs
  induction ps generalizing v with
  | nil => unfold readAlong; infer_instance
  | cons p ps ih => cases v <;> (unfold readAlong; infer_instance)

theorem getPath_fails (hs : s.Readable P) (v path : Value) : FailsIn P (s.getPath v path) := by
  have := readAlong_fails hs
  cases path <;> (unfold getPath; infer_instance)

variable [Admits P]

theorem equalWithin_fails (hs : s.Civil P) (fuel : Nat) :
    ∀ purpose a b, FailsIn P (s.equalWithin fuel purpose a b) := by
  induction fuel with
  | zero => intro purpose a b; unfold equalWithin; infer_instance
  | succ fuel ih =>
    intro purpose a b
    have hv := fun a b => sameItem_fails (s := s) (ih purpose) a b
    have hk := fun a b => sameItem_fails (s := s) (ih .keys) a b
    have := skipEqual_fails hv
    have := allMembers_fails hk
    have := fieldsAgree_fails hk hv
    unfold equalWithin
    dsimp only
    split
    · next f hf =>
      refine FailsIn.error ?_
      split at hf
      · cases hf
      · exact refusal?_fails hs hf
    · repeat' (first | infer_instance | split)

theorem equal_fails (hs : s.Civil P) (a b : Value) : FailsIn P (s.equal a b) :=
  equalWithin_fails hs s.depth .values a b

theorem sameKey_fails (hs : s.Civil P) (a b : Value) : FailsIn P (s.sameKey a b) :=
  sameItem_fails (equalWithin_fails hs s.depth .keys) a b

theorem relateWithin_fails (hs : s.Civil P) (rel : Relation) (fuel : Nat) :
    ∀ a b, FailsIn P (s.relateWithin rel fuel a b) := by
  induction fuel with
  | zero => intro a b; unfold relateWithin; infer_instance
  | succ fuel ih =>
    intro a b
    have := skipEqual_fails fun a b => sameItem_fails (s := s) (equal_fails hs) a b
    have := allMembers_fails (sameKey_fails hs)
    unfold relateWithin
    dsimp only
    repeat' (first | infer_instance | refine FailsIn.bind fun r => ?_ | split)

theorem relate_fails (hs : s.Civil P) (rel : Relation) (a b : Value) :
    FailsIn P (s.relate rel a b) :=
  relateWithin_fails hs rel s.depth a b

theorem keyOf_fails (hs : s.Civil P) (m : Mapping) (x : Value) : FailsIn P (s.keyOf m x) := by
  have := keyWithin_fails (sameKey_fails hs)
  unfold keyOf
  infer_instance

end Store


section Numbers

variable {P : Fault → Prop} [Admits P]

instance (x : Number) : FailsIn P x.toDouble := by
  unfold Number.toDouble
  repeat' (first | infer_instance | split)

instance (f : Int → Int → Int) (g : Float → Float → Float) (x y : Number) :
    FailsIn P (Number.combine f g x y) := by
  unfold Number.combine
  split <;> infer_instance

instance (x y : Number) : FailsIn P (x.add y) := by unfold Number.add; infer_instance

instance (x y : Number) : FailsIn P (x.sub y) := by unfold Number.sub; infer_instance

instance (x y : Number) : FailsIn P (x.mul y) := by unfold Number.mul; infer_instance

instance (x y : Number) : FailsIn P (x.div y) := by
  unfold Number.div
  repeat' (first | infer_instance | split)

instance (x y : Number) : FailsIn P (x.mod y) := by
  unfold Number.mod
  repeat' (first | infer_instance | split)

theorem repetitions_fails (length : Nat) (n : Int) {tooLong : Fault} (h : tooLong.isOrdinary) :
    FailsIn P (Arithmetic.repetitions length n tooLong) := by
  have : FailsIn P (.error tooLong : Except Fault Nat) := .ordinary h
  unfold Arithmetic.repetitions
  infer_instance

end Numbers

/-- A building operation that adds plain data and fails in no other way. -/
class Build.Adds {α : Type} (P : Fault → Prop) (m : Build α) : Prop where
  grows : ∀ {s a s'}, s.Civil P → m s = .ok (a, s') → s.Extends s'
  fault : ∀ {s f}, s.Civil P → m s = .error f → P f

namespace Build.Adds

variable {α β : Type} {P : Fault → Prop}

theorem bind_at {m : Build α} {k : α → Build β} [hm : Adds P m]
    (hk : ∀ a s s', s.Civil P → m s = .ok (a, s') → Adds P (k a)) : Adds P (m >>= k) where
  grows {s b s'} hs h := by
    change (m s >>= fun p => k p.1 p.2) = _ at h
    cases hr : m s with
    | error f => rw [hr] at h; cases h
    | ok p =>
      rw [hr] at h
      have he := hm.grows hs hr
      exact he.trans ((hk p.1 s p.2 hs hr).grows (he.civil hs) h)
  fault {s f} hs h := by
    change (m s >>= fun p => k p.1 p.2) = _ at h
    cases hr : m s with
    | error g =>
      rw [hr] at h
      cases h
      exact hm.fault hs hr
    | ok p =>
      rw [hr] at h
      exact (hk p.1 s p.2 hs hr).fault ((hm.grows hs hr).civil hs) h

theorem bind {m : Build α} {k : α → Build β} [Adds P m] (hk : ∀ a, Adds P (k a)) :
    Adds P (m >>= k) :=
  bind_at fun a _ _ _ _ => hk a

instance {m : Build α} {k : α → Build β} [Adds P m] [∀ a, Adds P (k a)] : Adds P (m >>= k) :=
  bind fun _ => inferInstance

instance (a : α) : Adds P (pure a : Build α) where
  grows _ h := by cases h; exact .refl
  fault _ h := by cases h

instance (r : Except Fault α) [hr : FailsIn P r] : Adds P (lift r) where
  grows {s a s'} _ h := by
    cases r <;> simp only [lift, Except.map, reduceCtorEq, Except.ok.injEq, Prod.mk.injEq] at h
    obtain ⟨-, rfl⟩ := h
    exact .refl
  fault {s f} _ h := by
    cases r <;> simp only [lift, Except.map, reduceCtorEq, Except.error.injEq] at h
    exact hr.fault (h ▸ rfl)

instance : Adds P store where
  grows _ h := by cases h; exact .refl
  fault _ h := by cases h

/-- A computation that looks at the store before it goes on. -/
theorem bind_store {k : Store → Build α} (hk : ∀ s, s.Civil P → Adds P (k s)) :
    Adds P (store >>= k) :=
  bind_at fun s t _ ht h => by
    cases h
    exact hk s ht

instance {c : Prop} [Decidable c] {a b : Build α} [Adds P a] [Adds P b] :
    Adds P (if c then a else b) := by
  split <;> infer_instance

theorem alloc {c : Cell} (hd : c.isData) : Adds P (alloc c) where
  grows _ h := by cases h; exact .alloc hd
  fault _ h := by cases h

instance (xs : List Value) : Adds P (list xs) := alloc rfl

instance (t : Mapping) : Adds P (dict t) := alloc rfl

instance (xs : List Value) : Adds P (tuple xs) := alloc rfl

instance (xs : List Value) : Adds P (Build.alloc (.list xs)) := alloc rfl

instance (t : Mapping) : Adds P (Build.alloc (.dict t)) := alloc rfl

instance (xs : List Value) : Adds P (Build.alloc (.tuple xs)) := alloc rfl

instance (xs : List Value) : Adds P (Build.alloc (.set xs)) := alloc rfl

instance (b : List UInt8) : Adds P (Build.alloc (.bytes b)) := alloc rfl

instance (x : Float) : Adds P (float x) where
  grows {s a s'} _ h := by
    unfold float at h
    split at h <;> cases h
    · exact .marks _
    · exact .refl
  fault {s f} _ h := by
    unfold float at h
    split at h <;> cases h

instance (v : Value) : Adds P (fresh v) where
  grows {s a s'} _ h := by
    unfold fresh at h
    split at h
    · split at h <;> cases h
      · exact .refl
      · exact .marks _
    · cases h
      exact .refl
  fault {s f} _ h := by
    unfold fresh at h
    split at h
    · split at h <;> cases h
    · cases h

instance (x : Number) : Adds P (number x) := by
  cases x <;> (unfold number; infer_instance)

instance {γ : Type} {f : γ → Build Bool} [∀ a, Adds P (f a)] (xs : List γ) :
    Adds P (xs.filterM f) := by
  have h : ∀ ys, Adds P (List.filterAuxM f xs ys) := by
    induction xs with
    | nil => intro ys; unfold List.filterAuxM; infer_instance
    | cons x xs ih => intro ys; unfold List.filterAuxM; infer_instance
  unfold List.filterM
  infer_instance

variable [Admits P]

instance : Adds P (fail .unsupported : Build α) where
  grows _ h := by cases h
  fault _ h := by
    cases h
    exact Admits.ordinary (by decide)

instance (v path : Value) : Adds P (Build.getPath v path) := by
  unfold Build.getPath
  refine bind_store fun s hs => ?_
  have := Store.getPath_fails hs.readable v path
  infer_instance

open Arithmetic

instance (v : Value) (n : Int) : Adds P (repeated v n) := by
  unfold repeated
  refine bind fun s => ?_
  have (k : Nat) : FailsIn P (repetitions k n .overflow) := repetitions_fails k n (by decide)
  have (k : Nat) : FailsIn P (repetitions k n .outOfMemory) := repetitions_fails k n (by decide)
  split <;> infer_instance

instance (a b : Value) : Adds P (Arithmetic.add a b) := by
  unfold Arithmetic.add
  split
  · infer_instance
  · refine bind fun s => ?_
    split <;> infer_instance

instance (a b : Value) : Adds P (Arithmetic.sub a b) := by
  unfold Arithmetic.sub
  split
  · infer_instance
  · refine bind_store fun s hs => ?_
    have := Store.memberOf_fails (Store.sameKey_fails hs)
    split <;> infer_instance

instance (a b : Value) : Adds P (Arithmetic.mul a b) := by
  unfold Arithmetic.mul
  split <;> infer_instance

instance (a b : Value) : Adds P (Arithmetic.div a b) := by
  unfold Arithmetic.div
  split <;> infer_instance

instance (a b : Value) : Adds P (Arithmetic.mod a b) := by
  unfold Arithmetic.mod
  refine bind fun s => ?_
  split
  · split <;> infer_instance
  · split <;> infer_instance
  · infer_instance
  · infer_instance

instance (a : Value) : Adds P (Arithmetic.neg a) := by
  unfold Arithmetic.neg
  split <;> infer_instance

end Build.Adds

end ReactiveScopes
