import ReactiveScopes.Number.Binary64

/-!
# Shortest decimals

The decimal with the fewest digits that lies among the reals rounding to a given double, and of those
the nearest. It is searched for directly: for one, two, … seventeen digits the two neighbours of the
value on that decimal grid are tested in exact arithmetic.
-/
namespace ReactiveScopes.Number

/-- `digits * 10 ^ exponent`. -/
structure Decimal where
  digits : Nat
  exponent : Int
  deriving DecidableEq, Repr

namespace Decimal

/-- Drops trailing zeros of the digits; `fuel` bounds their number. -/
def strip : (fuel : Nat) → Decimal → Decimal
  | 0, d => d
  | fuel + 1, d => if d.digits % 10 == 0 then strip fuel ⟨d.digits / 10, d.exponent + 1⟩ else d

end Decimal

/-- The reals that round to a positive double, in quarters of its last place: the centre, the two ends,
and whether the ends belong to them. Below a power of two the neighbour is half as far. -/
structure Basin where
  centre : Nat
  low : Nat
  high : Nat
  closed : Bool
  exponent : Int

def Parts.basin (p : Parts) : Basin :=
  let m := p.significand
  let narrow := m == twoTo 52 && p.exponent > -1074
  { centre := 4 * m, low := 4 * m - (if narrow then 1 else 2), high := 4 * m + 2
    closed := m % 2 == 0, exponent := p.exponent - 2 }

/-- The power of ten just below or at the value: `10 ^ k ≤ m * 2 ^ e < 10 ^ (k + 1)`. -/
def Parts.magnitude (p : Parts) : Int :=
  let (num, den) := p.ratio
  let guess := (((p.significand.log2 : Int) + p.exponent) * 30103).fdiv 100000
  if den * tenTo (guess + 1).toNat ≤ num * tenTo (-(guess + 1)).toNat then guess + 1 else guess

/-- The point of the grid `10 ^ place` that is nearest to the centre among those in the basin. -/
def Basin.onGrid? (b : Basin) (place : Int) : Option Decimal :=
  let unit := tenTo place.toNat * twoTo (-b.exponent).toNat
  let quarter := tenTo (-place).toNat * twoTo b.exponent.toNat
  let inside (d : Nat) : Bool :=
    if b.closed then b.low * quarter ≤ d * unit && d * unit ≤ b.high * quarter
    else b.low * quarter < d * unit && d * unit < b.high * quarter
  let below := b.centre * quarter / unit
  let nearest := roundQuotient (b.centre * quarter) unit
  if inside nearest then some ⟨nearest, place⟩
  else if inside below then some ⟨below, place⟩
  else if inside (below + 1) then some ⟨below + 1, place⟩
  else none

/-- The shortest decimal of a finite double other than zero. -/
def Parts.shortest (p : Parts) : Decimal :=
  let b := p.basin
  let k := p.magnitude
  let found := (List.range 17).findSome? fun (n : Nat) => b.onGrid? (k - n)
  (found.getD ⟨0, 0⟩).strip 20

/-- How a magnitude is written: positionally for leading digits from `10 ^ (-4)` up to below
`10 ^ 16`, always with a point; otherwise with an exponent of at least two digits. -/
def Decimal.text (d : Decimal) : String :=
  let s := (Nat.toDigits 10 d.digits)
  let n : Int := s.length
  let lead := n + d.exponent
  let zeros (k : Int) : List Char := List.replicate k.toNat '0'
  if -4 < lead && lead ≤ 16 then
    if lead ≤ 0 then String.ofList ('0' :: '.' :: zeros (-lead) ++ s)
    else if n ≤ lead then String.ofList (s ++ zeros (lead - n) ++ ['.', '0'])
    else String.ofList (s.take lead.toNat ++ '.' :: s.drop lead.toNat)
  else
    let e := lead - 1
    let mark := if e < 0 then '-' else '+'
    let es := Nat.toDigits 10 e.natAbs
    let rest := s.drop 1
    String.ofList (s.take 1 ++ (if rest.isEmpty then [] else '.' :: rest) ++
      'e' :: mark :: (if es.length < 2 then '0' :: es else es))

/-- The text of any double. -/
def floatText (x : Float) : String :=
  match parts? x with
  | none => if x.isNaN then "nan" else if x < 0.0 then "-inf" else "inf"
  | some p =>
    let magnitude := if p.significand == 0 then "0.0" else p.shortest.text
    if p.negative then "-" ++ magnitude else magnitude

end ReactiveScopes.Number
