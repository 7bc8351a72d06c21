import ReactiveScopes.Effect
import ReactiveScopes.Store.Arithmetic

/-!
# Methods of sets

Sets hold values that can be keys, each once. What changes a set changes it item by item, so what was
done before a fault stays done.
-/
namespace ReactiveScopes.Method

open Eff

variable {κ : Type}

/-- The items of a set. -/
def itemsIn (r : Ref) : Eff κ (List Value) := do
  match (← store).cell? r with
  | some (.set xs) => return xs
  | _ => return []

def putItems (r : Ref) (xs : List Value) : Eff κ Unit := do setStore ((← store).put r (.set xs))

/-- Whether an item is among others. Asking for a set in them is no fault. -/
def holds (xs : List Value) (v : Value) : Eff κ Bool := do
  let s ← store
  if !s.isKey v && !(s.look v matches some (.set _)) then raise .unsupported
  else ofExcept (Store.memberOf s.sameKey v xs)

/-- Whether an item that has to be a key is among others. -/
def holdsKey (xs : List Value) (v : Value) : Eff κ Bool := do
  if !(← store).isKey v then raise .unsupported else holds xs v

def iterate (v : Value) : Eff κ (List Value) := do ofExcept ((← store).iterate v)

def addItem (r : Ref) (v : Value) : Eff κ Unit := do
  let xs ← itemsIn r
  if !(← holdsKey xs v) then putItems r (xs ++ [v])

def dropItem (r : Ref) (v : Value) : Eff κ Unit := do
  let s ← store
  let kept ← (← itemsIn r).filterM fun x => do
    return !(← ofExcept (s.sameKey x v))
  putItems r kept

/-- Those of some items that others do not hold. -/
def without (xs others : List Value) : Eff κ (List Value) :=
  xs.filterM fun x => do return !(← holds others x)

/-- Those of some items that `xs` holds, each once. When all of `xs` has been found, the rest is not
looked at. -/
def foundIn (xs found : List Value) : List Value → Eff κ (List Value)
  | [] => return found
  | v :: vs => do
    if !(← holdsKey xs v) then foundIn xs found vs
    else
      let found := if ← holds found v then found else found ++ [v]
      if xs.length ≤ found.length then return found else foundIn xs found vs

/-- What a set has in common with another collection, in the words of the smaller of two sets. -/
def common (xs : List Value) (v : Value) : Eff κ (List Value) := do
  match (← store).look v with
  | some (.set ys) => if xs.length < ys.length then foundIn ys [] xs else foundIn xs [] ys
  | _ => do foundIn xs [] (← iterate v)

/-- Whether all of some items are among others, or none of them is; the first one to the contrary
settles it. -/
def allAre (held : Bool) (xs : List Value) : List Value → Eff κ Bool
  | [] => return true
  | v :: vs => do if (← holdsKey xs v) == held then allAre held xs vs else return false

/-- The items of another collection, each of which has to be a key. -/
def keysIn (v : Value) : Eff κ (List Value) := do
  let xs ← iterate v
  let s ← store
  if xs.all s.isKey then return xs else raise .unsupported

def make (xs : List Value) : Eff κ Value := do
  match ← alloc (.set []) with
  | .ref r => do
    xs.forM (addItem r)
    return .ref r
  | v => return v

/-- Calls a method of a set. -/
def onSet (r : Ref) (name : String) (args : List Value) : Eff κ Value := do
  let xs ← itemsIn r
  match name, args with
  | "add", [v] => do addItem r v; return .none
  | "clear", [] => do putItems r []; return .none
  | "copy", [] => make xs
  | "discard", [v] => do
    if ← holds xs v then dropItem r v
    return .none
  | "remove", [v] => do
    if ← holds xs v then dropItem r v; return .none
    else raise .missingKey
  | "pop", [] =>
    match xs with
    | [] => raise .missingKey
    | v :: rest => do putItems r rest; return v
  | "union", _ => do make (xs ++ (← args.mapM keysIn).flatten)
  | "update", _ => do
    args.forM fun v => do (← iterate v).forM (addItem r)
    return .none
  | "difference", _ => do make (← args.foldlM (fun xs v => do without xs (← keysIn v)) xs)
  | "difference_update", _ => do
    args.forM fun v => do
      (← iterate v).forM fun x => do if ← holdsKey (← itemsIn r) x then dropItem r x
    return .none
  | "intersection", _ => do make (← args.foldlM common xs)
  | "intersection_update", _ => do
    putItems r (← args.foldlM common xs)
    return .none
  | "symmetric_difference", [v] => do
    let ys ← keysIn v
    make ((← without xs ys) ++ (← without ys xs))
  | "symmetric_difference_update", [v] => do
    let ys ← keysIn v
    putItems r (← without xs ys)
    (← without ys xs).forM (addItem r)
    return .none
  | "isdisjoint", [v] => do return .bool (← allAre false xs (← iterate v))
  | "issubset", [v] => do return .bool (← allAre true (← keysIn v) xs)
  | "issuperset", [v] => do return .bool (← allAre true xs (← iterate v))
  | _, _ => raise .unsupported

end ReactiveScopes.Method
