import ReactiveScopes.Store.Comparison
import ReactiveScopes.Store.Template

/-!
# Arithmetic

The operators on values. Whole numbers are unbounded and doubles are binary64; an operation on both
goes through doubles, and a whole number that no double can hold is an overflow. Sums join and products
repeat sequences, always into new ones.
-/
namespace ReactiveScopes

namespace Number

def toDouble : Number → Except Fault Float
  | int i => match ofInt? i with
    | some x => .ok x
    | none => .error .overflow
  | float x => .ok x

/-- Applies `onInts` to whole numbers and `onDoubles` to any other pair. -/
def combine (onInts : Int → Int → Int) (onDoubles : Float → Float → Float) :
    Number → Number → Except Fault Number
  | int a, int b => .ok (int (onInts a b))
  | x, y => do return float (onDoubles (← x.toDouble) (← y.toDouble))

def add : Number → Number → Except Fault Number := combine (· + ·) (· + ·)

def sub : Number → Number → Except Fault Number := combine (· - ·) (· - ·)

def mul : Number → Number → Except Fault Number := combine (· * ·) (· * ·)

/-- The quotient is always a double; that of whole numbers is rounded once. -/
def div : Number → Number → Except Fault Number
  | int a, int b =>
    if b = 0 then .error .zeroDivision
    else match ofQuotient? ((a < 0) != (b < 0)) a.natAbs b.natAbs with
      | some x => .ok (float x)
      | none => .error .overflow
  | x, y => do
    let a ← x.toDouble
    let b ← y.toDouble
    if b == 0.0 then .error .zeroDivision else .ok (float (a / b))

/-- The remainder takes the sign of the divisor. -/
def mod : Number → Number → Except Fault Number
  | int a, int b => if b = 0 then .error .zeroDivision else .ok (int (a.fmod b))
  | x, y => do
    let a ← x.toDouble
    let b ← y.toDouble
    if b == 0.0 then .error .zeroDivision else .ok (float (floorRemainder a b))

def neg : Number → Number
  | int i => int (-i)
  | float x => float (-x)

end Number

namespace Build

def number : Number → Build Value
  | .int i => pure (.int i)
  | .float x => Build.float x

end Build

namespace Arithmetic

open Build

/-- A repetition count must fit a signed 64-bit word. -/
def fitsWord (n : Int) : Bool := -(Number.twoTo 63 : Int) ≤ n && n < Number.twoTo 63

/-- Longer sequences are not built. -/
def lengthLimit : Nat := 0x10000000

/-- How often a sequence of the given length is to be repeated. -/
def repetitions (length : Nat) (n : Int) (tooLong : Fault) : Except Fault Nat :=
  if !fitsWord n then .error .overflow
  else if length = 0 then .ok 0
  else if length * n.toNat ≥ Number.twoTo 63 then .error tooLong
  else if length * n.toNat > lengthLimit then .error .outOfMemory
  else .ok n.toNat

def repeatList {α : Type} (xs : List α) (n : Nat) : List α := (List.replicate n xs).flatten

def repeated (v : Value) (n : Int) : Build Value := do
  match v.text?, (← store).look v with
  | some t, _ => do
    let cs := t.toList
    let k ← lift (repetitions cs.length n .overflow)
    return .text (String.ofList (repeatList cs k))
  | _, some (.list xs) => do
    let k ← lift (repetitions xs.length n .outOfMemory)
    list (repeatList xs k)
  | _, some (.tuple xs) => do
    let k ← lift (repetitions xs.length n .outOfMemory)
    if k = 1 then return v else alloc (.tuple (repeatList xs k))
  | _, some (.bytes b) => do
    let k ← lift (repetitions b.length n .overflow)
    if k = 1 then return v else alloc (.bytes (repeatList b k))
  | _, _ => fail .unsupported

def add (a b : Value) : Build Value := do
  match a.number?, b.number? with
  | some x, some y => number (← lift (x.add y))
  | _, _ =>
    let s ← store
    match a.text?, b.text?, s.look a, s.look b with
    | some x, some y, _, _ => return .text (x ++ y)
    | _, _, some (.list xs), some (.list ys) => list (xs ++ ys)
    | _, _, some (.tuple xs), some (.tuple ys) =>
      if xs.isEmpty then return b else if ys.isEmpty then return a else alloc (.tuple (xs ++ ys))
    | _, _, some (.bytes x), some (.bytes y) =>
      if x.isEmpty then return b else if y.isEmpty then return a else alloc (.bytes (x ++ y))
    | _, _, _, _ => fail .unsupported

def sub (a b : Value) : Build Value := do
  match a.number?, b.number? with
  | some x, some y => number (← lift (x.sub y))
  | _, _ =>
    let s ← store
    match s.look a, s.look b with
    | some (.set xs), some (.set ys) => do
      let kept ← xs.filterM fun x => return !(← lift (Store.memberOf s.sameKey x ys))
      alloc (.set kept)
    | _, _ => fail .unsupported

def mul (a b : Value) : Build Value :=
  match a.number?, b.number? with
  | some x, some y => do number (← lift (x.mul y))
  | none, some (.int n) => repeated a n
  | some (.int n), none => repeated b n
  | _, _ => fail .unsupported

def div (a b : Value) : Build Value :=
  match a.number?, b.number? with
  | some x, some y => do number (← lift (x.div y))
  | _, _ => fail .unsupported

/-- The remainder, or a template applied to its arguments. -/
def mod (a b : Value) : Build Value := do
  let s ← store
  match a.text?, s.look a, a.number?, b.number? with
  | some t, _, _, _ =>
    match Template.fill? s t b with
    | some r => return .text r
    | none => fail .unsupported
  | _, some (.bytes t), _, _ =>
    match Template.fillBytes? s t b with
    | some r => alloc (.bytes r)
    | none => fail .unsupported
  | _, _, some x, some y => number (← lift (x.mod y))
  | _, _, _, _ => fail .unsupported

def neg (a : Value) : Build Value :=
  match a.number? with
  | some x => number x.neg
  | none => fail .unsupported

end Arithmetic

end ReactiveScopes
