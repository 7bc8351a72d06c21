/-!
# Binary floating point

A finite double is a sign and `significand * 2 ^ exponent`. Everything that must be exact (quotients of
whole numbers, the remainder, reading decimals, comparison with whole numbers) goes through that form
and is rounded once, to nearest with ties to even.
-/
namespace ReactiveScopes.Number

/-- A power of two. -/
def twoTo (e : Nat) : Nat := Nat.pow 2 e

/-- A power of ten. -/
def tenTo (e : Nat) : Nat := Nat.pow 10 e

/-- The quotient rounded to nearest, ties to even. -/
def roundQuotient (num den : Nat) : Nat :=
  let q := num / den
  let r := num % den
  if 2 * r < den then q else if den < 2 * r then q + 1 else q + q % 2

/-- A finite double. -/
structure Parts where
  negative : Bool
  significand : Nat
  exponent : Int
  deriving DecidableEq, Repr

/-- `none` for the infinities and NaN. -/
def parts? (x : Float) : Option Parts :=
  let bits : Nat := x.toBits.toNat
  let negative := bits / twoTo 63 == 1
  let field : Nat := bits / twoTo 52 % 2048
  let fraction : Nat := bits % twoTo 52
  if field == 2047 then none
  else if field == 0 then some ⟨negative, fraction, -1074⟩
  else some ⟨negative, fraction + twoTo 52, (field : Int) - 1075⟩

def isNegative (x : Float) : Bool := x.toBits.toNat / twoTo 63 == 1

/-- A magnitude that may have to be scaled by a power of two in either direction. -/
def scaleUp (n : Nat) (e : Int) : Nat := n * twoTo e.toNat

/-- The double nearest to `num / den`; `none` if it is beyond the largest finite one.

The exponent is chosen so that the rounded significand has 53 bits, or as many as fit above the
smallest subnormal; a significand that rounds up to `2 ^ 53` carries into the exponent field. -/
def ofQuotient? (negative : Bool) (num den : Nat) : Option Float :=
  if num == 0 then some (if negative then -0.0 else 0.0)
  else
    let guess : Int := (num.log2 : Int) - den.log2 - 53
    let wide := scaleUp num (-guess) ≥ scaleUp (twoTo 53 * den) guess
    let e := max (if wide then guess + 1 else guess) (-1074)
    let m := roundQuotient (scaleUp num (-e)) (scaleUp den e)
    let bits := (e + 1074).toNat * twoTo 52 + m
    if bits ≥ 2047 * twoTo 52 then none
    else some (Float.ofBits (UInt64.ofNat (if negative then bits + twoTo 63 else bits)))

def ofInt? (i : Int) : Option Float := ofQuotient? (i < 0) i.natAbs 1

/-- The double nearest to `digits * 10 ^ exponent`, infinite if there is none. Beyond 400 places the
answer is known without the power. -/
def ofDecimal (negative : Bool) (digits : Nat) (exponent : Int) : Float :=
  let infinite : Float := if negative then -1.0 / 0.0 else 1.0 / 0.0
  let places : Int := (digits.log2 : Int) * 30103 / 100000 + exponent
  if digits == 0 || places < -400 then (if negative then -0.0 else 0.0)
  else if places > 400 then infinite
  else (ofQuotient? negative (digits * tenTo exponent.toNat) (tenTo (-exponent).toNat)).getD infinite

namespace Parts

/-- Numerator and denominator of the magnitude. -/
def ratio (p : Parts) : Nat × Nat := (scaleUp p.significand p.exponent, scaleUp 1 (-p.exponent))

/-- The whole part, toward zero. -/
def truncate (p : Parts) : Int :=
  let (num, den) := p.ratio
  let whole : Nat := num / den
  if p.negative then -(whole : Int) else whole

/-- The order of a finite double and a whole number, exactly. -/
def compareInt (p : Parts) (i : Int) : Ordering :=
  let (num, den) := p.ratio
  compare (if p.negative then -(num : Int) else num) (i * den)

end Parts

/-- The remainder of the magnitudes with the sign of `x`; both are finite and `y` is not zero. -/
def remainderToZero (x y : Parts) : Float :=
  let e := min x.exponent y.exponent
  let r := scaleUp x.significand (x.exponent - e) % scaleUp y.significand (y.exponent - e)
  (ofQuotient? x.negative (scaleUp r e) (scaleUp 1 (-e))).getD 0.0

/-- The remainder with the sign of the divisor, which is not zero. -/
def floorRemainder (x y : Float) : Float :=
  let r := match parts? x, parts? y with
    | some p, some q => remainderToZero p q
    | some _, none => if y.isNaN then y else x
    | none, _ => 0.0 / 0.0
  if r.isNaN then r
  else if r == 0.0 then (if isNegative y then -0.0 else 0.0)
  else if (y < 0.0) != (r < 0.0) then r + y else r

end ReactiveScopes.Number
