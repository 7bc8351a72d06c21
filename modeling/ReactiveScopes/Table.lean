/-!
# Insertion-ordered tables

A finite map that remembers the order in which its keys came in. Storing under a key that is present
keeps its place; a key that was removed and comes back goes to the end.
-/
namespace ReactiveScopes

structure Table (κ α : Type) where
  entries : List (κ × α)
  nodup_keys : (entries.map Prod.fst).Nodup

namespace Table

variable {κ α : Type} [DecidableEq κ]

def empty : Table κ α := ⟨[], List.nodup_nil⟩

instance : Inhabited (Table κ α) := ⟨empty⟩

instance [DecidableEq α] : DecidableEq (Table κ α) := fun a b =>
  decidable_of_iff (a.entries = b.entries) ⟨fun h => by cases a; cases b; simp_all, fun h => by rw [h]⟩

def keys (t : Table κ α) : List κ := t.entries.map Prod.fst

def values (t : Table κ α) : List α := t.entries.map Prod.snd

def size (t : Table κ α) : Nat := t.entries.length

def isEmpty (t : Table κ α) : Bool := t.entries.isEmpty

/-- The value stored under a key. -/
def lookIn (k : κ) : List (κ × α) → Option α
  | [] => none
  | e :: es => if e.1 = k then some e.2 else lookIn k es

/-- The entries with `a` stored under `k`, in its place or at the end. -/
def storeIn (k : κ) (a : α) : List (κ × α) → List (κ × α)
  | [] => [(k, a)]
  | e :: es => if e.1 = k then (k, a) :: es else e :: storeIn k a es

def dropFrom (k : κ) (es : List (κ × α)) : List (κ × α) := es.filter (·.1 ≠ k)

theorem mem_keys_storeIn {k x : κ} {a : α} {es : List (κ × α)} :
    x ∈ (storeIn k a es).map Prod.fst ↔ x = k ∨ x ∈ es.map Prod.fst := by
  induction es with
  | nil => simp [storeIn]
  | cons e es ih =>
    by_cases h : e.1 = k
    · simp only [storeIn, h, if_true, List.map_cons, List.mem_cons]
      exact ⟨Or.inr, Or.rec Or.inl id⟩
    · simp only [storeIn, h, if_false, List.map_cons, List.mem_cons, ih]
      exact or_left_comm

theorem nodup_storeIn {k : κ} {a : α} {es : List (κ × α)} (h : (es.map Prod.fst).Nodup) :
    ((storeIn k a es).map Prod.fst).Nodup := by
  induction es with
  | nil => simp [storeIn]
  | cons e es ih =>
    rw [List.map_cons, List.nodup_cons] at h
    by_cases he : e.1 = k
    · simp only [storeIn, he, if_true, List.map_cons, List.nodup_cons]
      exact ⟨he ▸ h.1, h.2⟩
    · simp only [storeIn, he, if_false, List.map_cons, List.nodup_cons]
      exact ⟨fun hm => (mem_keys_storeIn.1 hm).elim he h.1, ih h.2⟩

theorem lookIn_storeIn {k x : κ} {a : α} {es : List (κ × α)} :
    lookIn x (storeIn k a es) = if k = x then some a else lookIn x es := by
  induction es with
  | nil => simp [storeIn, lookIn]
  | cons e es ih => by_cases hk : e.1 = k <;> grind [storeIn, lookIn]

/-- Storing what is there changes nothing. -/
theorem storeIn_self {k : κ} {a : α} {es : List (κ × α)} (h : lookIn k es = some a) : storeIn k a es = es := by
  induction es with
  | nil => cases h
  | cons e es ih =>
    rw [lookIn] at h
    rw [storeIn]
    split at h
    · next hk => rw [if_pos hk, ← hk, ← Option.some.inj h]
    · next hk => rw [if_neg hk, ih h]

theorem mem_of_lookIn {k : κ} {a : α} {es : List (κ × α)} (h : lookIn k es = some a) : (k, a) ∈ es := by
  induction es with
  | nil => cases h
  | cons e es ih =>
    simp only [lookIn] at h
    split at h
    · next hk => cases h; subst hk; exact List.mem_cons_self
    · exact List.mem_cons_of_mem _ (ih h)

theorem lookIn_of_mem {k : κ} {a : α} {es : List (κ × α)} (nodup : (es.map Prod.fst).Nodup) (h : (k, a) ∈ es) :
    lookIn k es = some a := by
  induction es with
  | nil => cases h
  | cons e es ih =>
    obtain ⟨he, nodup⟩ := List.nodup_cons.1 nodup
    rcases List.mem_cons.1 h with rfl | h
    · simp [lookIn]
    · have hne : e.1 ≠ k := fun same => he (List.mem_map.2 ⟨_, h, same.symm⟩)
      rw [lookIn, if_neg hne, ih nodup h]

theorem lookIn_dropFrom {k x : κ} {es : List (κ × α)} :
    lookIn x (dropFrom k es) = if k = x then none else lookIn x es := by
  induction es with
  | nil => simp [dropFrom, lookIn]
  | cons e es ih => by_cases hk : e.1 = k <;> grind [dropFrom, lookIn]

def get? (t : Table κ α) (k : κ) : Option α := lookIn k t.entries

def contains (t : Table κ α) (k : κ) : Bool := (t.get? k).isSome

def insert (t : Table κ α) (k : κ) (a : α) : Table κ α :=
  ⟨storeIn k a t.entries, nodup_storeIn t.nodup_keys⟩

def erase (t : Table κ α) (k : κ) : Table κ α :=
  ⟨dropFrom k t.entries, t.nodup_keys.sublist (List.filter_sublist.map _)⟩

/-- The entry with the oldest key. -/
def first? (t : Table κ α) : Option (κ × α) := t.entries.head?

def ofList (es : List (κ × α)) : Table κ α := es.foldl (fun t e => t.insert e.1 e.2) empty

theorem get?_insert (t : Table κ α) (k x : κ) (a : α) :
    (t.insert k a).get? x = if k = x then some a else t.get? x :=
  lookIn_storeIn

theorem get?_erase (t : Table κ α) (k x : κ) :
    (t.erase k).get? x = if k = x then none else t.get? x :=
  lookIn_dropFrom

theorem insert_self {t : Table κ α} {k : κ} {a : α} (h : t.get? k = some a) : t.insert k a = t := by
  obtain ⟨es, nodup⟩ := t
  simp only [insert, storeIn_self h]

theorem mem_values_of_get? {t : Table κ α} {k : κ} {a : α} (h : t.get? k = some a) : a ∈ t.values :=
  List.mem_map_of_mem (mem_of_lookIn h)

theorem get?_of_mem (t : Table κ α) {k : κ} {a : α} (h : (k, a) ∈ t.entries) : t.get? k = some a :=
  lookIn_of_mem t.nodup_keys h

end Table

end ReactiveScopes
