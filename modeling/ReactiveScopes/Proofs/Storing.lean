import ReactiveScopes.Record.Mapping

/-!
# Storing under a key of a record

What a record stores under a text is a matter of the store before it, and so is whether it reports that. Under a path
of one segment it stores as it does under a text.
-/
namespace ReactiveScopes

open Eff

variable {κ : Type} {data : Ref} {p : String} {v : Value} {w : Session κ}

namespace Record

/-- The store after storing under a key. -/
def stored (s : Store) (data : Ref) (key : String) (v : Value) : Store :=
  s.put data (.dict ((fields s data).insert (.text key) v))

/-- Whether storing `v` under a text of a record's data is reported. -/
def tells (s : Store) (data : Ref) (p : String) (v : Value) : Bool :=
  changed (s.put data (.dict ((fields s data).insert (.text p) v))) ((fields s data).get? (.text p)) v

end Record

/-- The session in which a value has been stored under a key of the record, and nobody has been told. -/
def Session.storing (w : Session κ) (data : Ref) (p : String) (v : Value) : Session κ :=
  { w with store := Record.stored w.store data p v }

namespace Record

/-- Under a path of one segment a record stores as it does under a text. -/
theorem setPath_item {path : Value} (hp : w.store.segmentsOf path = [p]) (hook : Hook) (env : Env κ) :
    setPath data hook path v env w = setItem data hook (.text p) v env w := by
  unfold setPath
  rw [bind_store, hp]

theorem setItem_text (hook : Hook) (env : Env κ) :
    setItem data hook (.text p) v env w =
      (if tells w.store data p v then report hook (.text p) else pure ()) env (w.storing data p v) := rfl

/-- Storing an integer in the place of another one is a change. -/
theorem tells_int {z : Store} {x : Int} (held : (fields z data).get? (.text p) = some (.int x)) (y : Int) :
    tells z data p (.int y) = decide (x ≠ y) := by
  have order : (compare x y == Ordering.eq) = decide (x = y) := by
    rw [Bool.eq_iff_iff]
    simp
  have equal (z : Store) : z.equal (.int x) (.int y) = .ok (decide (x = y)) := by
    simp [Store.equal, Store.depth, Store.equalWithin, Store.refusal?, Store.look, Value.number?,
      Number.compare?, order]
  unfold tells changed
  rw [held]
  simp [Store.identical, equal]

theorem get?_stored {z : Store} (held : ∃ t, z.cell? data = some (.dict t)) :
    (fields (stored z data p v) data).get? (.text p) = some v := by
  obtain ⟨t, ht⟩ := held
  have put : (stored z data p v).cell? data = some (.dict ((fields z data).insert (.text p) v)) :=
    (Store.cell?_put (Array.getElem?_eq_some_iff.1 ht).1).trans (if_pos rfl)
  rw [fields, Store.mapping?, Store.look, put, Option.getD_some, Table.get?_insert, if_pos rfl]

end Record

end ReactiveScopes
