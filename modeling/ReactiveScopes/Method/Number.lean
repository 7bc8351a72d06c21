import ReactiveScopes.Method.Bytes

/-!
# Methods of numbers

Whole numbers as bits and bytes, and doubles as exact fractions and in hexadecimal notation.
-/
namespace ReactiveScopes.Method

open Build

def bitLength (n : Nat) : Nat := if n = 0 then 0 else n.log2 + 1

def bitCount (n : Nat) : Nat := (Nat.toDigits 2 n).countP (· == '1')

/-- The order of bytes: `true` has the high one first. -/
def orderOf (v : Value) : Except Fault Bool :=
  match v.text? with
  | some "big" => .ok true
  | some "little" => .ok false
  | some _ => .error .invalid
  | none => .error .unsupported

def toBytes (i : Int) (length : Value) (order : Value) : Build Value := do
  let length ← lift (word length)
  let big ← lift (orderOf order)
  if length < 0 then fail .invalid
  else if i < 0 || bitLength i.toNat > 8 * length.toNat then fail .overflow
  else
    let low := (List.range length.toNat).map fun k => UInt8.ofNat (i.toNat / Number.twoTo (8 * k))
    Build.bytes (if big then low.reverse else low)

/-- The bytes that an argument is, or lists. -/
def byteItems (v : Value) : Build (List UInt8) := do
  match v.text?, (← store).look v with
  | some _, _ => fail .unsupported
  | _, some (.bytes b) => return b
  | _, _ => do
    let items ← lift ((← store).iterate v)
    items.mapM fun x => do
      let i ← lift (whole x)
      if 0 ≤ i && i < 256 then return UInt8.ofNat i.toNat else fail .invalid

def fromBytes (b : List UInt8) (big : Bool) : Int :=
  (if big then b else b.reverse).foldl (fun n x => 256 * n + (x.toNat : Int)) 0

/-- A whole number as a value of a kind: truth values are whole numbers, too. -/
def wholeValue (kind : String) (i : Int) : Value := if kind == "bool" then .bool (i != 0) else .int i

/-- Calls a method that whole numbers share. -/
def onWholeKind (kind : String) (name : String) (args : List Value) : Build Value := do
  match name, args with
  | "from_bytes", [b] => return wholeValue kind (fromBytes (← byteItems b) true)
  | "from_bytes", [b, order] => do
    let big ← lift (orderOf order)
    return wholeValue kind (fromBytes (← byteItems b) big)
  | _, _ => fail .unsupported

/-- Calls a method of a whole number. -/
def onWhole (i : Int) (name : String) (args : List Value) : Build Value := do
  match name, args with
  | "as_integer_ratio", [] => tuple [.int i, .int 1]
  | "bit_count", [] => return .int (bitCount i.natAbs)
  | "bit_length", [] => return .int (bitLength i.natAbs)
  | "conjugate", [] => return .int i
  | "to_bytes", [] => toBytes i (.int 1) (.text "big")
  | "to_bytes", [length] => toBytes i length (.text "big")
  | "to_bytes", [length, order] => toBytes i length order
  | _, _ => fail .unsupported

/-- Hexadecimal digits and an exponent of two. -/
def hexadecimal (x : Float) : List Char :=
  match Number.parts? x with
  | none => if x.isNaN then ['n', 'a', 'n'] else if x < 0.0 then ['-', 'i', 'n', 'f'] else ['i', 'n', 'f']
  | some p =>
    let sign := if p.negative then ['-'] else []
    if p.significand = 0 then sign ++ ['0', 'x', '0', '.', '0', 'p', '+', '0']
    else
      let lead := p.significand / Number.twoTo 52
      let digits := Text.hexDigits (p.significand % Number.twoTo 52) 13
      let e := p.exponent + 52
      sign ++ ['0', 'x'] ++ Nat.toDigits 10 lead ++ ['.'] ++ digits ++ ['p', if e < 0 then '-' else '+'] ++
        Nat.toDigits 10 e.natAbs

/-- Hexadecimal digits with at most one point; answers them without it, and how many follow it. -/
def readHexDigits (cs : List Char) : List Nat × Nat × List Char :=
  let run (cs : List Char) : List Nat × List Char :=
    let digits := cs.takeWhile fun c => (readHex?.digit? c).isSome
    (digits.filterMap readHex?.digit?, cs.drop digits.length)
  let (before, rest) := run cs
  match rest with
  | '.' :: rest =>
    let (behind, rest) := run rest
    (before ++ behind, behind.length, rest)
  | _ => (before, 0, rest)

/-- A signed decimal exponent after a `p`. -/
def readBinaryExponent? : List Char → Option (Int × List Char)
  | c :: cs =>
    if c == 'p' || c == 'P' then
      let (negative, cs) := Text.splitSign cs
      let ds := cs.takeWhile Char.isDigit
      if ds.isEmpty then none
      else
        let n : Int := Template.plainNat ds
        some (if negative then -n else n, cs.drop ds.length)
    else some (0, c :: cs)
  | [] => some (0, [])

/-- Reads the hexadecimal notation of a double. -/
def readHexadecimal (cs : List Char) : Except Fault Float :=
  let cs := Text.stripWith bytesAlphabet.blank true true cs
  let (negative, cs) := Text.splitSign cs
  let named := String.ofList (cs.map Char.toLower)
  let signed (x : Float) : Float := if negative then -x else x
  if named == "inf" || named == "infinity" then .ok (signed (1.0 / 0.0))
  else if named == "nan" then .ok (0.0 / 0.0)
  else
    let cs := match cs with
      | '0' :: 'x' :: rest => rest
      | '0' :: 'X' :: rest => rest
      | _ => cs
    let (digits, places, rest) := readHexDigits cs
    match readBinaryExponent? rest with
    | some (e, []) =>
      if digits.isEmpty then .error .invalid
      else
        let n := digits.foldl (fun n d => 16 * n + d) 0
        let e := e - 4 * places
        if n = 0 then .ok (signed 0.0)
        else if e + n.log2 > 1100 then .error .overflow
        else if e + n.log2 < -1200 then .ok (signed 0.0)
        else match Number.ofQuotient? negative (Number.scaleUp n e) (Number.scaleUp 1 (-e)) with
          | some x => .ok x
          | none => .error .overflow
    | _ => .error .invalid

/-- Calls a method that doubles share. -/
def onDoubleKind (name : String) (args : List Value) : Build Value := do
  match name, args with
  | "fromhex", [v] =>
    match v.text? with
    | some t => do Build.float (← lift (readHexadecimal t.toList))
    | none => fail .unsupported
  | _, _ => fail .unsupported

/-- Calls a method of a double. -/
def onDouble (v : Value) (x : Float) (name : String) (args : List Value) : Build Value := do
  match name, args with
  | "as_integer_ratio", [] =>
    match Number.parts? x with
    | none => fail (if x.isNaN then .invalid else .overflow)
    | some p =>
      let (num, den) := p.ratio
      let g := max (Nat.gcd num den) 1
      let num : Int := num / g
      tuple [.int (if p.negative then -num else num), .int (den / g)]
  | "conjugate", [] => return v
  | "hex", [] => return .text (String.ofList (hexadecimal x))
  | "is_integer", [] =>
    return .bool ((Number.parts? x).any fun p => p.ratio.1 % p.ratio.2 == 0)
  | _, _ => fail .unsupported

end ReactiveScopes.Method
