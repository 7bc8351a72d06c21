import ReactiveScopes.Store.Arithmetic
import ReactiveScopes.Text.Pieces

/-!
# Arguments of methods

How the methods of built-in values read what they are called with. What has the wrong kind is
unsupported; so is a wrong number of arguments.
-/
namespace ReactiveScopes.Method

/-- A whole number; a truth value is one. -/
def whole : Value → Except Fault Int
  | .int i => .ok i
  | .bool b => .ok (if b then 1 else 0)
  | _ => .error .unsupported

/-- A whole number that fits a machine word. -/
def word (v : Value) : Except Fault Int := do
  let i ← whole v
  if Arithmetic.fitsWord i then .ok i else .error .overflow

/-- A whole number that fits half a machine word. -/
def halfWord (v : Value) : Except Fault Int := do
  let i ← whole v
  if -(Number.twoTo 31 : Int) ≤ i && i < Number.twoTo 31 then .ok i else .error .overflow

/-- The length of something that is to be built. -/
def extent (i : Int) : Except Fault Nat :=
  if i.toNat > Arithmetic.lengthLimit then .error .outOfMemory else .ok i.toNat

/-- An end of a range of positions: `none` is where the range ends anyway. -/
def bound (v : Value) : Except Fault (Option Int) :=
  if v.isNone then .ok none else (whole v).map some

/-- The range of positions that two bounds cut out of `length`; negative ones count from the end. -/
def window (length : Nat) (start stop : Option Int) : Nat × Int :=
  let fromEnd (i : Int) : Nat := (if i < 0 then i + length else i).toNat
  let start := fromEnd (start.getD 0)
  (start, (min (fromEnd (stop.getD length)) length : Nat))

/-- The optional last two arguments, as a range. -/
def windowOf (length : Nat) : List Value → Except Fault (Nat × Int)
  | [] => .ok (window length none none)
  | [start] => do return window length (← bound start) none
  | [start, stop] => do return window length (← bound start) (← bound stop)
  | _ => .error .unsupported

/-- How often something is done at most; a negative number is no limit. -/
def limitOf (length : Nat) (v : Value) : Except Fault Nat := do
  let i ← word v
  return if i < 0 then length + 1 else i.toNat

end ReactiveScopes.Method
