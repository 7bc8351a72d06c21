import ReactiveScopes.Path
import ReactiveScopes.Scheduler
import ReactiveScopes.Store.Comparison

/-!
# Records

A record is a dictionary that reports its writes: storing under a key reports the key if the value
there changed. Values further down are not watched.
-/
namespace ReactiveScopes.Record

open Eff

variable {κ : Type}

/-- Whether storing `new` over `old` is a change: not for the same value or an equal one. Values that
cannot be compared count as changed. -/
def changed (s : Store) (old : Option Value) (new : Value) : Bool :=
  match old with
  | none => true
  | some v =>
    if s.identical v new then false
    else match s.equal v new with
      | .ok same => !same
      | .error _ => true

/-- The data of a record. -/
def fields (s : Store) (data : Ref) : Mapping := (s.mapping? (.ref data)).getD .empty

theorem fields_dict {s : Store} {data : Ref} {t : Mapping} (dict : s.cell? data = some (.dict t)) :
    fields s data = t := by
  rw [fields, Store.mapping?, Store.look, dict]
  rfl

def report (hook : Hook) (key : Value) : Eff κ Unit :=
  match hook with
  | .none => return ()
  | .fn f => do let _ ← callFn f [key]
  | .schedule e scope => Scheduler.request e scope

def setItem (data : Ref) (hook : Hook) (key v : Value) : Eff κ Unit := do
  let s ← store
  let old := (fields s data).get? key
  let s := s.put data (.dict ((fields s data).insert key v))
  setStore s
  if changed s old v then report hook key

def delItem (data : Ref) (hook : Hook) (key : Value) : Eff κ Unit := do
  let s ← store
  if (fields s data).contains key then
    setStore (s.put data (.dict ((fields s data).erase key)))
    report hook key
  else raise .missingKey

/-- Removes everything and reports the oldest key. -/
def clear (data : Ref) (hook : Hook) : Eff κ Unit := do
  let s ← store
  match (fields s data).first? with
  | none => return ()
  | some (key, _) =>
    setStore (s.put data (.dict .empty))
    report hook key

/-- Makes a record with a copy of the given data. -/
def make (initial : Mapping) (hook : Hook) : Eff κ Value := do
  match ← alloc (.dict initial) with
  | .ref data => alloc (.record data hook)
  | _ => raise .misuse

end ReactiveScopes.Record
