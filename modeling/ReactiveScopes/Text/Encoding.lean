/-!
# Text from bytes

UTF-8, UTF-16 and UTF-32, and the choice between them that a JSON document given as bytes admits. A
surrogate that stands alone has no character; it reads as U+FFFD.
-/
namespace ReactiveScopes.Text

def replacement : Char := Char.ofNat 0xFFFD

def charOf (n : Nat) : Char := if n.isValidChar then Char.ofNat n else replacement

/-- What decoding comes across: a character, or octets that are none. -/
inductive Piece where
  | char (c : Char)
  | bad (octets : List UInt8)
  deriving DecidableEq

def Piece.char? : Piece → Option Char
  | char c => some c
  | bad _ => none

namespace Utf8

/-- Inside a character: the octets owed, the bounds of the next one, the number read so far, and the
octets it was read from, the last one first. -/
structure Open where
  owed : Nat
  low : Nat
  high : Nat
  value : Nat
  octets : List UInt8
  deriving DecidableEq

inductive Start where
  | char (c : Char)
  | open (o : Open)
  | bad

/-- What a character's first octet says. Encoded surrogates are let in only if `surrogates`. -/
def first (surrogates : Bool) (octet : UInt8) : Start :=
  let b := octet.toNat
  let begun (owed low high value : Nat) : Start := .open ⟨owed, low, high, value, [octet]⟩
  if b < 0x80 then .char (Char.ofNat b)
  else if 0xC2 ≤ b && b ≤ 0xDF then begun 1 0x80 0xBF (b - 0xC0)
  else if b == 0xE0 then begun 2 0xA0 0xBF 0
  else if b == 0xED then begun 2 0x80 (if surrogates then 0xBF else 0x9F) 0xD
  else if 0xE1 ≤ b && b ≤ 0xEF then begun 2 0x80 0xBF (b - 0xE0)
  else if b == 0xF0 then begun 3 0x90 0xBF 0
  else if b == 0xF4 then begun 3 0x80 0x8F 4
  else if 0xF1 ≤ b && b ≤ 0xF3 then begun 3 0x80 0xBF (b - 0xF0)
  else .bad

/-- Reads on. Every maximal run of octets that begins a character without completing it is one piece
that is no character, and so is every octet that begins nothing. -/
def read (surrogates : Bool) : Option Open → List UInt8 → List Piece
  | none, [] => []
  | some o, [] => [.bad o.octets.reverse]
  | s, b :: bs =>
    let begin : List Piece :=
      match first surrogates b with
      | .char c => .char c :: read surrogates none bs
      | .open o => read surrogates (some o) bs
      | .bad => .bad [b] :: read surrogates none bs
    match s with
    | none => begin
    | some o =>
      if o.low ≤ b.toNat && b.toNat ≤ o.high then
        let value := o.value * 64 + (b.toNat - 0x80)
        if o.owed ≤ 1 then .char (charOf value) :: read surrogates none bs
        else read surrogates (some ⟨o.owed - 1, 0x80, 0xBF, value, b :: o.octets⟩) bs
      else .bad o.octets.reverse :: begin

/-- Every part that is not a character becomes U+FFFD. -/
def decodeLossy (bytes : List UInt8) : List Char :=
  (read false none bytes).map fun p => p.char?.getD replacement

def decode? (bytes : List UInt8) : Option (List Char) := (read true none bytes).mapM Piece.char?

end Utf8

/-- Numbers of `width` octets each; `none` if some are left over. -/
def units? (width : Nat) (bigEndian : Bool) (bytes : List UInt8) : Option (List Nat) :=
  let value (bs : List UInt8) : Nat :=
    (if bigEndian then bs else bs.reverse).foldl (fun n b => 256 * n + b.toNat) 0
  let rec go : List UInt8 → List UInt8 → List Nat → Option (List Nat)
    | taken, [], out => if taken.isEmpty then some out.reverse else none
    | taken, b :: bs, out =>
      let taken := b :: taken
      if taken.length == width then go [] bs (value taken.reverse :: out) else go taken bs out
  go [] bytes []

/-- Joins surrogate pairs. -/
def ofUnits16 : List Nat → List Char
  | hi :: lo :: us =>
    if 0xD800 ≤ hi && hi < 0xDC00 && 0xDC00 ≤ lo && lo < 0xE000 then
      charOf (0x10000 + (hi - 0xD800) * 0x400 + (lo - 0xDC00)) :: ofUnits16 us
    else charOf hi :: ofUnits16 (lo :: us)
  | [u] => [charOf u]
  | [] => []

def decodeUtf16? (bigEndian : Bool) (bytes : List UInt8) : Option (List Char) :=
  (units? 2 bigEndian bytes).map ofUnits16

def decodeUtf32? (bigEndian : Bool) (bytes : List UInt8) : Option (List Char) := do
  let us ← units? 4 bigEndian bytes
  if us.all (· < 0x110000) then some (us.map charOf) else none

/-- Byte order marks and what each announces, a longer mark before the one that it begins with. -/
def marks : List (List UInt8 × (List UInt8 → Option (List Char))) :=
  [([0x00, 0x00, 0xFE, 0xFF], decodeUtf32? true), ([0xFF, 0xFE, 0x00, 0x00], decodeUtf32? false),
   ([0xFE, 0xFF], decodeUtf16? true), ([0xFF, 0xFE], decodeUtf16? false), ([0xEF, 0xBB, 0xBF], Utf8.decode?)]

/-- Decodes a document without a mark, by where the zero octets stand among the first ones, both of which
characters of a JSON text are in ASCII. -/
def decodeUnmarked? (bytes : List UInt8) : Option (List Char) :=
  match bytes with
  | a :: b :: c :: d :: _ =>
    if a == 0 then (if b == 0 then decodeUtf32? true bytes else decodeUtf16? true bytes)
    else if b == 0 then
      (if c == 0 && d == 0 then decodeUtf32? false bytes else decodeUtf16? false bytes)
    else Utf8.decode? bytes
  | [a, b] =>
    if a == 0 then decodeUtf16? true bytes
    else if b == 0 then decodeUtf16? false bytes
    else Utf8.decode? bytes
  | _ => Utf8.decode? bytes

/-- Decodes a document. A byte order mark at its beginning is dropped. -/
def decodeDocument? (bytes : List UInt8) : Option (List Char) :=
  match marks.find? fun m => m.1.isPrefixOf bytes with
  | some (mark, decode?) => decode? (bytes.drop mark.length)
  | none => decodeUnmarked? bytes

end ReactiveScopes.Text
