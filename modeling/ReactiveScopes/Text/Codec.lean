import ReactiveScopes.Fault
import ReactiveScopes.Text.Encoding
import ReactiveScopes.Text.Quoted

/-!
# Encodings by name

The encodings that texts are turned into bytes with and back, and what becomes of what cannot be turned.
-/
namespace ReactiveScopes.Text

inductive Codec where
  /-- With a mark at the beginning, or without. -/
  | utf8 (mark : Bool)
  | ascii
  | latin1
  /-- The order of the octets, if it is fixed: `true` has the high one first. -/
  | utf16 (bigEndian : Option Bool)
  | utf32 (bigEndian : Option Bool)
  deriving DecidableEq, Repr

namespace Codec

/-- Names of encodings, in lower case and with underscores. -/
def names : List (Codec × List String) :=
  [(utf8 false, ["utf_8", "utf8", "utf", "u8", "utf8_ucs2", "utf8_ucs4", "cp65001"]),
   (utf8 true, ["utf_8_sig"]),
   (ascii, ["ascii", "us_ascii", "us", "646", "ansi_x3.4_1968", "ansi_x3_4_1968", "ansi_x3.4_1986",
     "cp367", "csascii", "ibm367", "iso646_us", "iso_646.irv_1991", "iso_ir_6"]),
   (latin1, ["latin_1", "latin1", "latin", "l1", "iso_8859_1", "iso8859_1", "iso8859", "8859", "cp819",
     "csisolatin1", "ibm819", "iso_8859_1_1987", "iso_ir_100"]),
   (utf16 none, ["utf_16", "utf16", "u16"]),
   (utf16 (some true), ["utf_16_be", "utf_16be", "unicodebigunmarked"]),
   (utf16 (some false), ["utf_16_le", "utf_16le", "unicodelittleunmarked"]),
   (utf32 none, ["utf_32", "utf32", "u32"]),
   (utf32 (some true), ["utf_32_be", "utf_32be"]),
   (utf32 (some false), ["utf_32_le", "utf_32le"])]

/-- A name in lower case, each run of other characters than letters, digits and points being one
underscore, except at the ends. -/
def normalized (name : String) : List Char :=
  let kept (c : Char) : Bool := c.isAlphanum || c == '.'
  let step (c : Char) (cs : List Char) : List Char :=
    if kept c then c.toLower :: cs
    else match cs with
      | [] => []
      | '_' :: _ => cs
      | _ => '_' :: cs
  (name.toList.dropWhile (!kept ·)).foldr step []

def ofName? (name : String) : Option Codec :=
  (names.find? fun (_, ns) => ns.contains (String.ofList (normalized name))).map Prod.fst

end Codec

/-- What becomes of a character without bytes, or of bytes without a character. -/
inductive Leniency where
  | strict
  | ignore
  | replace
  | backslash
  | reference
  /-- By the name of the character; no names are known. -/
  | named
  /-- Something that is not known, which only matters when it is needed. -/
  | unknown
  deriving DecidableEq, Repr

def Leniency.ofName : String → Leniency
  | "strict" => strict
  | "surrogateescape" => strict
  | "surrogatepass" => strict
  | "ignore" => ignore
  | "replace" => replace
  | "backslashreplace" => backslash
  | "xmlcharrefreplace" => reference
  | "namereplace" => named
  | _ => unknown

def octets (bigEndian : Bool) (width n : Nat) : List UInt8 :=
  let low := (List.range width).map fun i => UInt8.ofNat (n / Nat.pow 256 i)
  if bigEndian then low.reverse else low

def units16 (n : Nat) : List Nat :=
  if n < 0x10000 then [n]
  else [0xD800 + (n - 0x10000) / 0x400, 0xDC00 + (n - 0x10000) % 0x400]

def utf8Octets (n : Nat) : List UInt8 :=
  let tail (shift : Nat) : UInt8 := UInt8.ofNat (0x80 + n / Nat.pow 2 shift % 0x40)
  if n < 0x80 then [UInt8.ofNat n]
  else if n < 0x800 then [UInt8.ofNat (0xC0 + n / 0x40), tail 0]
  else if n < 0x10000 then [UInt8.ofNat (0xE0 + n / 0x1000), tail 6, tail 0]
  else [UInt8.ofNat (0xF0 + n / 0x40000), tail 12, tail 6, tail 0]

namespace Codec

/-- The bytes of a character. -/
def encodeChar? (codec : Codec) (c : Char) : Option (List UInt8) :=
  let n := c.toNat
  match codec with
  | utf8 _ => some (utf8Octets n)
  | ascii => if n < 0x80 then some [UInt8.ofNat n] else none
  | latin1 => if n < 0x100 then some [UInt8.ofNat n] else none
  | utf16 order => some ((units16 n).flatMap (octets (order.getD false) 2))
  | utf32 order => some (octets (order.getD false) 4 n)

/-- The bytes before the first character. -/
def mark : Codec → List UInt8
  | utf8 true => [0xEF, 0xBB, 0xBF]
  | utf16 none => [0xFF, 0xFE]
  | utf32 none => [0xFF, 0xFE, 0, 0]
  | _ => []

/-- What stands for a character that has no bytes. -/
def substitute (leniency : Leniency) (c : Char) : Except Fault (List Char) :=
  match leniency with
  | .ignore => .ok []
  | .replace => .ok ['?']
  | .backslash => .ok (numericEscape c.toNat)
  | .reference => .ok ('&' :: '#' :: Nat.toDigits 10 c.toNat ++ [';'])
  | .strict => .error .notEncodable
  | .named => .error .notEncodable
  | .unknown => .error .unknownName

def encode (codec : Codec) (leniency : Leniency) (cs : List Char) : Except Fault (List UInt8) := do
  let parts ← cs.mapM fun c =>
    match codec.encodeChar? c with
    | some bs => .ok bs
    | none => do return (← substitute leniency c).flatMap fun d => (codec.encodeChar? d).getD []
  return codec.mark ++ parts.flatten

/-- Units of two octets: a pair of surrogates is one character, one alone is none. -/
def pieces16 (bigEndian : Bool) : List UInt8 → List Piece
  | a :: b :: c :: d :: rest =>
    let unit (x y : UInt8) : Nat := if bigEndian then 256 * x.toNat + y.toNat else 256 * y.toNat + x.toNat
    let hi := unit a b
    let lo := unit c d
    if 0xD800 ≤ hi && hi < 0xDC00 && 0xDC00 ≤ lo && lo < 0xE000 then
      .char (charOf (0x10000 + (hi - 0xD800) * 0x400 + (lo - 0xDC00))) :: pieces16 bigEndian rest
    else if hi.isValidChar then .char (Char.ofNat hi) :: pieces16 bigEndian (c :: d :: rest)
    else .bad [a, b] :: pieces16 bigEndian (c :: d :: rest)
  | a :: b :: rest =>
    let n := if bigEndian then 256 * a.toNat + b.toNat else 256 * b.toNat + a.toNat
    let tail : List Piece := if rest.isEmpty then [] else [.bad rest]
    if 0xD800 ≤ n && n < 0xDC00 then [.bad (a :: b :: rest)]
    else (if n.isValidChar then .char (Char.ofNat n) else .bad [a, b]) :: tail
  | [] => []
  | bs => [.bad bs]

def pieces32 (bigEndian : Bool) : List UInt8 → List Piece
  | a :: b :: c :: d :: rest =>
    let bs := if bigEndian then [a, b, c, d] else [d, c, b, a]
    let n := bs.foldl (fun n x => 256 * n + x.toNat) 0
    (if n.isValidChar then .char (Char.ofNat n) else .bad [a, b, c, d]) :: pieces32 bigEndian rest
  | [] => []
  | bs => [.bad bs]

def pieces (codec : Codec) (bytes : List UInt8) : List Piece :=
  let single (limit : Nat) : List Piece :=
    bytes.map fun b => if b.toNat < limit then .char (Char.ofNat b.toNat) else .bad [b]
  match codec with
  | utf8 mark =>
    Utf8.read false none (if mark && [0xEF, 0xBB, 0xBF].isPrefixOf bytes then bytes.drop 3 else bytes)
  | ascii => single 0x80
  | latin1 => single 0x100
  | utf16 (some order) => pieces16 order bytes
  | utf32 (some order) => pieces32 order bytes
  | utf16 none =>
    match bytes with
    | 0xFF :: 0xFE :: rest => pieces16 false rest
    | 0xFE :: 0xFF :: rest => pieces16 true rest
    | _ => pieces16 false bytes
  | utf32 none =>
    match bytes with
    | 0xFF :: 0xFE :: 0x00 :: 0x00 :: rest => pieces32 false rest
    | 0x00 :: 0x00 :: 0xFE :: 0xFF :: rest => pieces32 true rest
    | _ => pieces32 false bytes

/-- What stands for a piece. -/
def understood (leniency : Leniency) : Piece → Except Fault (List Char)
  | .char c => .ok [c]
  | .bad bs =>
    match leniency with
    | .ignore => .ok []
    | .replace => .ok [replacement]
    | .backslash => .ok (bs.flatMap fun b => numericEscape b.toNat)
    | .strict => .error .notDecodable
    | .reference => .error .unsupported
    | .named => .error .unsupported
    | .unknown => .error .unknownName

def decode (codec : Codec) (leniency : Leniency) (bytes : List UInt8) : Except Fault (List Char) := do
  return (← (codec.pieces bytes).mapM (understood leniency)).flatten

end Codec

end ReactiveScopes.Text
