import ReactiveScopes.Path.Write

/-!
# The mapping operations of records

Everything that changes a record goes through storing, deleting or clearing, and so reports.
-/
namespace ReactiveScopes.Record

open Eff

variable {κ : Type}

/-- Writes along a path below the data. The first segment is reported, once, whatever changed
below it. -/
def setPath (data : Ref) (hook : Hook) (path x : Value) : Eff κ Unit := do
  match (← store).segmentsOf path with
  | [p] => setItem data hook (.text p) x
  | ps =>
    Path.write (.ref data) ps x
    match ps with
    | [] => raise .outOfRange
    | p :: _ => report hook (.text p)

def lookup? (s : Store) (data : Ref) (key : Value) : Except Fault (Option Value) := do
  let m := fields s data
  return m.get? (← s.keyOf m key)

/-- The two values of a pair that is to be unpacked. -/
def pair? (s : Store) (v : Value) : Except Fault (Value × Value) := do
  match ← s.iterate v with
  | [k, x] => .ok (k, x)
  | _ => .error .invalid

def storeKey (data : Ref) (hook : Hook) (key v : Value) : Eff κ Unit := do
  let s ← store
  setItem data hook (← ofExcept (s.keyOf (fields s data) key)) v

def storeAll (data : Ref) (hook : Hook) : List (Value × Value) → Eff κ Unit
  | [] => return ()
  | (k, v) :: rest => do
    storeKey data hook k v
    storeAll data hook rest

def storePairs (data : Ref) (hook : Hook) : List Value → Eff κ Unit
  | [] => return ()
  | p :: rest => do
    let (k, v) ← ofExcept (pair? (← store) p)
    storeKey data hook k v
    storePairs data hook rest

/-- Stores all entries of a mapping, or all pairs of another collection, one after another. -/
def storeFrom (data : Ref) (hook : Hook) (other : Value) : Eff κ Unit := do
  let s ← store
  match s.mapping? other with
  | some t => storeAll data hook t.entries
  | none => storePairs data hook (← ofExcept (s.iterate other))

def removeKey (data : Ref) (hook : Hook) (key : Value) : Eff κ Unit := do
  let s ← store
  delItem data hook (← ofExcept (s.keyOf (fields s data) key))

def perform (data : Ref) (hook : Hook) : RecordOp → Eff κ Value
  | .setItem key v => do storeKey data hook key v; return .none
  | .getItem key => do
    match ← ofExcept (lookup? (← store) data key) with
    | some v => return v
    | none => raise .missingKey
  | .delItem key => do removeKey data hook key; return .none
  | .contains key => do return .bool (← ofExcept (lookup? (← store) data key)).isSome
  | .size => do return .int (fields (← store) data).size
  | .keys => do alloc (.list (fields (← store) data).keys)
  | .values => do alloc (.list (fields (← store) data).values)
  | .items => do
    let pairs ← (fields (← store) data).entries.mapM fun (k, v) => alloc (.list [k, v])
    alloc (.list pairs)
  | .get key default => do return (← ofExcept (lookup? (← store) data key)).getD default
  | .pop key default => do
    match ← ofExcept (lookup? (← store) data key), default with
    | some v, _ => removeKey data hook key; return v
    | none, some d => return d
    | none, none => raise .missingKey
  | .popItem => do
    match (fields (← store) data).first? with
    | none => raise .missingKey
    | some (k, v) =>
      delItem data hook k
      alloc (.list [k, v])
  | .setDefault key default => do
    match ← ofExcept (lookup? (← store) data key) with
    | some v => return v
    | none => storeKey data hook key default; return default
  | .update other => do storeFrom data hook other; return .none
  | .clear => do clear data hook; return .none
  | .setPath path v => do setPath data hook path v; return .none
  | .getPath path => build (Build.getPath (.ref data) path)
  | .touch key => do report hook key; return .none
  | .snapshot => do alloc (.dict (fields (← store) data))

end ReactiveScopes.Record
