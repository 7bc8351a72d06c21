import ReactiveScopes.Record.Basic

/-!
# Writing along paths

Containers met on the way are kept; where there is none a dictionary is made. A segment that names no
position of a list it has to index is a fault, except that the length of the list appends.
-/
namespace ReactiveScopes.Path

open Eff

variable {κ : Type}

/-- Stores into a list: at a position, or behind the last item. -/
def storeItem (xs : List Value) (segment : String) (v : Value) : Except Fault (List Value) :=
  match Text.readInt? segment.toList with
  | none => .error .invalid
  | some i =>
    if i = xs.length then .ok (xs ++ [v])
    else
      let i := if i < 0 then i + xs.length else i
      if 0 ≤ i && i < xs.length then .ok (xs.set i.toNat v) else .error .outOfRange

/-- Stores one slot of a container. -/
def assign (container : Value) (segment : String) (v : Value) : Eff κ Unit := do
  let s ← store
  match container, s.look container with
  | .ref r, some (.list xs) => do setStore (s.put r (.list (← ofExcept (storeItem xs segment v))))
  | .ref r, some (.dict t) => setStore (s.put r (.dict (t.insert (.text segment) v)))
  | _, some (.record data hook) => Record.setItem data hook (.text segment) v
  | _, _ => raise .unsupported

/-- Something a path can be continued into: a dictionary, a record or a list. -/
def isContainer (s : Store) (v : Value) : Bool :=
  match s.look v with
  | some (.list _) => true
  | some (.dict _) => true
  | some (.record _ _) => true
  | _ => false

/-- What is below a container, if it is a container itself. -/
def below? (s : Store) (v : Value) (segment : String) : Option Value :=
  if isContainer s v then
    match s.child v segment with
    | .ok x => if isContainer s x then some x else none
    | .error _ => none
  else none

def write (v : Value) : List String → Value → Eff κ Unit
  | [], _ => return ()
  | [p], x => assign v p x
  | p :: ps, x => do
    match below? (← store) v p with
    | some next => write next ps x
    | none =>
      let next ← alloc (.dict .empty)
      assign v p next
      write next ps x

/-- Stores `x` at a path below `v`. -/
def set (v path x : Value) : Eff κ Unit := do write v ((← store).segmentsOf path) x

end ReactiveScopes.Path
