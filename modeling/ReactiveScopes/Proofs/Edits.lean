import Mathlib.Data.List.Nodup
import ReactiveScopes.Proofs.Datum

/-!
# Edits of data

Results of handlers and merges, as what they do to the data of a record. Each edit works key by key: what
becomes of the entry at a key depends on the entry alone, and an entry that is not touched stays. So the entry
at a key is made by the edits that touch it, in their order.
-/
namespace ReactiveScopes

namespace Datum

variable {α β : Type} {a : α} {shape : Shape} {cs : List (Datum α)} {t t' x : Datum α} {p : String} {k : Value}

/-- The entry of a dictionary at a key. -/
def get? : Datum α → Value → Option (Datum α)
  | branch _ (.dict keys) cs, k => cs[keys.idxOf k]?
  | _, _ => none

/-- A dictionary. -/
def IsDict : Datum α → Prop
  | branch _ (.dict keys) cs => keys.length = cs.length
  | _ => False

theorem IsDict.cases (h : t.IsDict) : ∃ a keys cs, t = branch a (.dict keys) cs ∧ keys.length = cs.length := by
  rcases t with v | ⟨a, _ | keys, cs⟩
  · exact h.elim
  · exact h.elim
  · exact ⟨a, keys, cs, rfl, h⟩

theorem child?_eq_get? (h : t.IsDict) (p : String) : t.child? p = t.get? (.text p) := by
  obtain ⟨a, keys, cs, rfl, _⟩ := h.cases
  rfl

/-- Storing into a dictionary replaces one entry. -/
theorem get?_assign (h : t.IsDict) (p : String) (x : Datum α) :
    ∃ t', t.assign p x = some t' ∧ t'.IsDict ∧
      ∀ k, t'.get? k = if k = .text p then some x else t.get? k := by
  obtain ⟨a, keys, cs, rfl, len⟩ := h.cases
  have hle : keys.idxOf (.text p) ≤ cs.length := len ▸ List.idxOf_le_length
  refine ⟨branch a (.dict (insertKey (.text p) keys)) (storeAt (keys.idxOf (.text p)) x cs), rfl, ?_, fun k => ?_⟩
  · change (insertKey (.text p) keys).length = (storeAt _ x cs).length
    unfold insertKey
    by_cases hm : .text p ∈ keys
    · have := List.idxOf_lt_length_iff.2 hm
      rw [if_pos (List.contains_iff_mem.2 hm), storeAt_of_lt (by omega), List.length_set, len]
    · have := List.idxOf_eq_length hm
      rw [if_neg (by simpa using hm), this, len, storeAt_length, List.length_append, List.length_append, len]
      rfl
  · unfold get? insertKey
    dsimp only
    by_cases hm : .text p ∈ keys
    · rw [if_pos (List.contains_iff_mem.2 hm), getElem?_storeAt hle]
      by_cases hk : k = .text p
      · rw [hk, if_pos rfl, if_pos rfl]
      · rw [if_neg hk, if_neg fun h => hk ?_]
        have hk' : k ∈ keys := List.idxOf_lt_length_iff.1 (h ▸ List.idxOf_lt_length_iff.2 hm)
        exact (List.idxOf_inj hk').1 h
    · have hi := List.idxOf_eq_length hm
      rw [if_neg (by simpa using hm), getElem?_storeAt hle, hi]
      by_cases hk : k = .text p
      · rw [hk, if_pos rfl, List.idxOf_append_of_notMem hm]
        simp
      · rw [if_neg hk]
        by_cases hk' : k ∈ keys
        · have := List.idxOf_lt_length_iff.2 hk'
          rw [List.idxOf_append_of_mem hk', if_neg (by omega)]
        · rw [List.idxOf_append_of_notMem hk', List.idxOf_eq_length hk',
            List.idxOf_eq_length (by simpa using hk)]
          simp [len]

/-- What comes to stand at a key when something is stored along a path below it, if that is possible. -/
def renewed (old : Option Plain) : List String → Plain → Option Plain
  | [], x => some x
  | p :: ps, x => ((old.filter isBranch).getD (branch () (.dict []) [])).write (fun _ => ()) 0 (p :: ps) x

theorem write_eq_renewed {t : Plain} (h : t.IsDict) (ps : List String) (x : Plain) :
    t.write (fun _ => ()) 0 (p :: ps) x = (renewed (t.get? (.text p)) ps x).bind (t.assign p) := by
  cases ps with
  | nil => rfl
  | cons q qs =>
    rw [write, below?, child?_eq_get? h]
    unfold renewed
    rcases (t.get? (.text p)).filter isBranch with _ | c
    · dsimp only
      rw [write_const _ () (0 + 1) 0]
      rfl
    · rfl

/-- The key that a path begins with. -/
def rootOf (path : String) : Value := .text ((segments path).headD "")

section Keywise

variable {t t' : Plain}

/-- Storing at a path touches the entry at its first key alone. -/
theorem get?_put (h : t.IsDict) (path : String) (x : Plain) :
    (t.put path x).IsDict ∧ ∀ k, (t.put path x).get? k =
      if k = rootOf path then (renewed (t.get? k) (segments path).tail x).or (t.get? k) else t.get? k := by
  unfold put stored rootOf
  rcases hp : segments path with _ | ⟨p, ps⟩
  · exact absurd hp (segments_ne_nil path)
  · rw [write_eq_renewed h, List.headD_cons, List.tail_cons]
    rcases hr : renewed (t.get? (.text p)) ps x with _ | y
    · refine ⟨h, fun k => ?_⟩
      split
      · next hk => simp [hk, hr]
      · rfl
    · obtain ⟨t', ha, hd, hget⟩ := get?_assign h p y
      rw [Option.bind_some, ha, Option.getD_some]
      refine ⟨hd, fun k => ?_⟩
      rw [hget]
      split
      · next hk => rw [hk, hr, Option.some_or]
      · rfl

/-- Below the first key of a path, reading is reading from the entry there. -/
theorem read?_eq (h : t.IsDict) (path : String) :
    t.read? (segments path) = (t.get? (rootOf path)).bind (·.read? (segments path).tail) := by
  unfold rootOf
  rcases hp : segments path with _ | ⟨p, ps⟩
  · exact absurd hp (segments_ne_nil path)
  · rw [read?, child?_eq_get? h]
    rfl

theorem IsDict.put (h : t.IsDict) (path : String) (x : Plain) : (t.put path x).IsDict := (get?_put h path x).1

theorem put_elsewhere (h : t.IsDict) {path : String} (hk : k ≠ rootOf path) (x : Plain) :
    (t.put path x).get? k = t.get? k := by
  rw [(get?_put h path x).2, if_neg hk]

theorem put_congr (h : t.IsDict) (h' : t'.IsDict) (hk : t.get? k = t'.get? k) (path : String) (x : Plain) :
    (t.put path x).get? k = (t'.put path x).get? k := by
  rw [(get?_put h path x).2, (get?_put h' path x).2, hk]

/-- Plain data with some entries stored, one after another. -/
def putAll (t : Plain) (us : List (String × Plain)) : Plain := us.foldl (fun t u => t.put u.1 u.2) t

theorem IsDict.putAll (h : t.IsDict) (us : List (String × Plain)) : (t.putAll us).IsDict := by
  induction us generalizing t with
  | nil => exact h
  | cons u us ih => exact ih (h.put u.1 u.2)

theorem putAll_elsewhere (h : t.IsDict) {us : List (String × Plain)} (hk : ∀ u ∈ us, k ≠ rootOf u.1) :
    (t.putAll us).get? k = t.get? k := by
  induction us generalizing t with
  | nil => rfl
  | cons u us ih =>
    refine (ih (h.put u.1 u.2) fun v hv => hk v (List.mem_cons_of_mem _ hv)).trans ?_
    exact put_elsewhere h (hk u List.mem_cons_self) u.2

/-- What becomes of an entry depends on the entry alone. -/
theorem putAll_congr (h : t.IsDict) (h' : t'.IsDict) (hk : t.get? k = t'.get? k)
    (us : List (String × Plain)) : (t.putAll us).get? k = (t'.putAll us).get? k := by
  induction us generalizing t t' with
  | nil => exact hk
  | cons u us ih => exact ih (h.put u.1 u.2) (h'.put u.1 u.2) (put_congr h h' hk u.1 u.2)

end Keywise

end Datum

open Datum

/-- Something that is done to data: a handler has settled for a path, with data or with a fault, or entries were
merged. -/
inductive Edit where
  | settled (path : String) (outcome : Except Fault Plain)
  | merged (updates : List (String × Plain))

namespace Edit

/-- What an edit stores. -/
def puts : Edit → List (String × Plain)
  | settled path (.ok x) => if path = "" ∨ x.isNone then [] else [(path, x)]
  | settled _ (.error _) => []
  | merged updates => updates

/-- What an edit makes of data. -/
def apply (t : Plain) (d : Edit) : Plain := t.putAll d.puts

/-- Whether an edit is about the entry at a key. -/
def touches (k : Value) : Edit → Bool
  | settled path _ => rootOf path == k
  | merged updates => updates.any fun u => rootOf u.1 == k

def settlement? : Edit → Option (String × Except Fault Plain)
  | settled path outcome => some (path, outcome)
  | merged _ => none

def merge? : Edit → Option (List (String × Plain))
  | settled _ _ => none
  | merged updates => some updates

variable {t t' : Plain} {k : Value} {d : Edit}

theorem apply_ok (t : Plain) (path : String) (x : Plain) : (settled path (.ok x)).apply t = t.receive path x := by
  rw [apply, puts, receive, returned]
  split <;> rfl

theorem touches_puts (hk : d.touches k = false) : ∀ u ∈ d.puts, k ≠ rootOf u.1 := by
  intro u hu he
  subst he
  cases d with
  | settled path outcome =>
    cases outcome with
    | error f => cases hu
    | ok x =>
      rw [puts] at hu
      split at hu
      · cases hu
      · cases List.mem_singleton.1 hu
        simp [touches] at hk
  | merged updates =>
    have := List.any_eq_false.1 hk u hu
    simp at this

theorem apply_elsewhere (h : t.IsDict) (hk : d.touches k = false) : (d.apply t).get? k = t.get? k :=
  putAll_elsewhere h (touches_puts hk)

/-- What edits come to, one after another. -/
def applyAll (ds : List Edit) (t : Plain) : Plain := ds.foldl apply t

theorem applyAll_congr (h : t.IsDict) (h' : t'.IsDict) (hk : t.get? k = t'.get? k) (ds : List Edit) :
    (applyAll ds t).get? k = (applyAll ds t').get? k := by
  induction ds generalizing t t' with
  | nil => exact hk
  | cons d ds ih => exact ih (h.putAll d.puts) (h'.putAll d.puts) (putAll_congr h h' hk d.puts)

/-- The entry at a key is made by the edits that touch it. -/
theorem get?_applyAll (h : t.IsDict) (k : Value) (ds : List Edit) :
    (applyAll ds t).get? k = (applyAll (ds.filter (touches k)) t).get? k := by
  induction ds generalizing t with
  | nil => rfl
  | cons d ds ih =>
    cases hd : d.touches k with
    | true =>
      rw [List.filter_cons_of_pos hd]
      exact ih (h.putAll d.puts)
    | false =>
      rw [List.filter_cons_of_neg (by simp [hd])]
      refine (applyAll_congr (h.putAll d.puts) h (apply_elsewhere h hd) ds).trans (ih h)

/-- The settlements among some edits. -/
def settlements (ds : List Edit) : List (String × Except Fault Plain) := ds.filterMap settlement?

/-- The merges among some edits, in their order. -/
def merges (ds : List Edit) : List (List (String × Plain)) := ds.filterMap merge?

/-- The settlements are for paths that begin with different keys, and nothing is merged under these keys. -/
structure Independent (ds : List Edit) : Prop where
  roots : ((settlements ds).map fun s => rootOf s.1).Nodup
  apart : ∀ updates ∈ merges ds, ∀ u ∈ updates, ∀ s ∈ settlements ds, rootOf u.1 ≠ rootOf s.1

theorem Independent.perm {ds ds' : List Edit} (h : Independent ds)
    (settled : (settlements ds).Perm (settlements ds')) (merged : merges ds = merges ds') : Independent ds' :=
  ⟨(settled.map _).nodup_iff.1 h.roots,
    fun us hu u hx s hs => h.apart us (merged ▸ hu) u hx s (settled.mem_iff.2 hs)⟩

/-- Where no settlement begins, only merges touch the entry. -/
theorem filter_merges {ds : List Edit} (hk : ∀ s ∈ settlements ds, rootOf s.1 ≠ k) :
    ds.filter (touches k) = ((merges ds).map merged).filter (touches k) := by
  induction ds with
  | nil => rfl
  | cons d ds ih =>
    cases d with
    | settled path outcome =>
      have hd : (settled path outcome).touches k = false := by
        simpa [touches] using hk _ List.mem_cons_self
      rw [List.filter_cons_of_neg (by simp [hd])]
      exact ih fun s hs => hk s (List.mem_cons_of_mem _ hs)
    | merged updates =>
      have hm : merges (merged updates :: ds) = updates :: merges ds := rfl
      rw [hm, List.map_cons, List.filter_cons, List.filter_cons, ih hk]

/-- Where a settlement begins, it alone touches the entry. -/
theorem filter_settlement {ds : List Edit} (h : Independent ds) {path : String}
    {outcome : Except Fault Plain} (hs : (path, outcome) ∈ settlements ds) :
    ds.filter (touches (rootOf path)) = [settled path outcome] := by
  induction ds with
  | nil => cases hs
  | cons d ds ih =>
    cases d with
    | settled path' outcome' =>
      have hm : settlements (settled path' outcome' :: ds) = (path', outcome') :: settlements ds := rfl
      obtain ⟨hroots, happart⟩ := h
      rw [hm] at hs hroots happart
      obtain ⟨first, roots⟩ := List.nodup_cons.1 hroots
      rcases List.mem_cons.1 hs with he | hs
      · cases he
        have alone : ds.filter (touches (rootOf path)) = [] := by
          rw [filter_merges fun s hs he => first (List.mem_map.2 ⟨s, hs, he⟩)]
          refine List.filter_eq_nil_iff.2 fun d hd => ?_
          obtain ⟨updates, hu, rfl⟩ := List.mem_map.1 hd
          simpa [touches] using fun p x hx => happart updates hu (p, x) hx _ List.mem_cons_self
        rw [List.filter_cons_of_pos (by simp [touches]), alone]
      · have hd : (settled path' outcome').touches (rootOf path) = false := by
          simpa [touches] using fun he => first (List.mem_map.2 ⟨_, hs, he.symm⟩)
        rw [List.filter_cons_of_neg (by simp [hd])]
        exact ih ⟨roots, fun us hu u hx s hs => happart us hu u hx s (List.mem_cons_of_mem _ hs)⟩ hs
    | merged updates =>
      have hd : (merged updates).touches (rootOf path) = false := by
        simpa [touches] using fun p x hx => h.apart updates List.mem_cons_self (p, x) hx _ hs
      rw [List.filter_cons_of_neg (by simp [hd])]
      exact ih ⟨h.roots, fun us hu => h.apart us (List.mem_cons_of_mem _ hu)⟩ hs

/-- In the end the entry where a settlement begins is what it makes of the data as they were. -/
theorem applyAll_settlement (ht : t.IsDict) {ds : List Edit} (h : Independent ds) {path : String}
    {outcome : Except Fault Plain} (hs : (path, outcome) ∈ settlements ds) :
    (applyAll ds t).get? (rootOf path) = ((settled path outcome).apply t).get? (rootOf path) := by
  rw [get?_applyAll ht, filter_settlement h hs]
  rfl

/-- The same settlements in any order among the same merges come to the same data. -/
theorem applyAll_perm (ht : t.IsDict) {ds ds' : List Edit} (h : Independent ds)
    (settled : (settlements ds).Perm (settlements ds')) (merged : merges ds = merges ds') (k : Value) :
    (applyAll ds t).get? k = (applyAll ds' t).get? k := by
  have h' := h.perm settled merged
  by_cases hk : ∃ s ∈ settlements ds, rootOf s.1 = k
  · obtain ⟨⟨path, outcome⟩, hs, rfl⟩ := hk
    rw [applyAll_settlement ht h hs, applyAll_settlement ht h' (settled.mem_iff.1 hs)]
  · have none : ∀ s ∈ settlements ds, rootOf s.1 ≠ k := fun s hs he => hk ⟨s, hs, he⟩
    rw [get?_applyAll ht k ds, get?_applyAll ht k ds', filter_merges none, merged,
      filter_merges fun s hs => none s (settled.mem_iff.2 hs)]

end Edit

end ReactiveScopes
