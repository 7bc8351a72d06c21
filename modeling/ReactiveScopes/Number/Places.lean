import ReactiveScopes.Number.Shortest

/-!
# Decimals with a given number of places

The positional, the scientific and the general notation of a finite magnitude, rounded once from its
exact value, ties to even. A binary fraction ends after finitely many places; only zeros follow, and no
quotient is taken for them. Signs and padding belong to the caller.
-/
namespace ReactiveScopes.Number

def padZeros (width : Nat) (s : List Char) : List Char :=
  List.replicate (width - s.length) '0' ++ s

/-- A point before the last `places` digits; without places it is written only if `keepPoint`. -/
def pointed (places : Nat) (keepPoint : Bool) (s : List Char) : List Char :=
  let n := s.length - places
  let point := if places == 0 && !keepPoint then [] else ['.']
  s.take n ++ point ++ s.drop n

/-- After so many places the value is exact: each halving takes one. -/
def Parts.exactPlaces (p : Parts) : Nat := (-p.exponent).toNat

def fixedPlaces (p : Parts) (places : Nat) (keepPoint : Bool) : List Char :=
  let (num, den) := p.ratio
  let taken := min places p.exactPlaces
  let d := roundQuotient (num * tenTo taken) den
  pointed places keepPoint
    (padZeros (taken + 1) (Nat.toDigits 10 d) ++ List.replicate (places - taken) '0')

/-- The `places + 1` leading digits of the value rounded to them, and the exponent of the first. -/
def leadingDigits (p : Parts) (places : Nat) : List Char × Int :=
  if p.significand == 0 then (List.replicate (places + 1) '0', 0)
  else
    let (num, den) := p.ratio
    let k := p.magnitude
    let taken := min places (k + p.exactPlaces).toNat
    let shift := (taken : Int) - k
    let d := roundQuotient (num * tenTo shift.toNat) (den * tenTo (-shift).toNat)
    let (d, k) := if d == tenTo (taken + 1) then (tenTo taken, k + 1) else (d, k)
    (Nat.toDigits 10 d ++ List.replicate (places - taken) '0', k)

def exponentText (e : Int) : List Char :=
  'e' :: (if e < 0 then '-' else '+') :: padZeros 2 (Nat.toDigits 10 e.natAbs)

def scientificPlaces (p : Parts) (places : Nat) (keepPoint : Bool) : List Char :=
  let (digits, e) := leadingDigits p places
  pointed places keepPoint digits ++ exponentText e

/-- Without its trailing zeros, and without the point if nothing follows it. -/
def withoutTrailingZeros (s : List Char) : List Char :=
  if s.contains '.' then
    let kept := (s.reverse.dropWhile (· == '0')).reverse
    if kept.getLast? == some '.' then kept.dropLast else kept
  else s

/-- `digits` significant digits (at least one): positional for exponents from -4 up to below `bound`,
scientific otherwise; trailing zeros go unless `keepZeros`. -/
def generalPlacesBelow (bound : Int) (p : Parts) (digits : Nat) (keepZeros : Bool) : List Char :=
  let digits := max digits 1
  let (leading, e) := leadingDigits p (digits - 1)
  let tidy (s : List Char) : List Char := if keepZeros then s else withoutTrailingZeros s
  if -4 ≤ e && e < bound then
    tidy (fixedPlaces p ((digits : Int) - 1 - e).toNat keepZeros)
  else
    tidy (pointed (digits - 1) keepZeros leading) ++ exponentText e

/-- Positional as long as all digits before the point are significant ones. -/
def generalPlaces (p : Parts) (digits : Nat) (keepZeros : Bool) : List Char :=
  generalPlacesBelow (max digits 1 : Nat) p digits keepZeros

end ReactiveScopes.Number
