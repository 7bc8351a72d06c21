import ReactiveScopes.Text.Blank

/-!
# Digits

Decimal digits of every script, and the reading of whole numbers from text. A whole number may be
surrounded by blanks other than the information separators, may carry one sign, and may have single
underscores between its digits.
-/
namespace ReactiveScopes.Text

/-- The digit zero of each script; its nine successors are the digits one to nine (Unicode 14,
general category `Nd`). -/
def zeroDigits : List Nat :=
  [0x30, 0x660, 0x6F0, 0x7C0, 0x966, 0x9E6, 0xA66, 0xAE6, 0xB66, 0xBE6, 0xC66, 0xCE6, 0xD66,
   0xDE6, 0xE50, 0xED0, 0xF20, 0x1040, 0x1090, 0x17E0, 0x1810, 0x1946, 0x19D0, 0x1A80, 0x1A90,
   0x1B50, 0x1BB0, 0x1C40, 0x1C50, 0xA620, 0xA8D0, 0xA900, 0xA9D0, 0xA9F0, 0xAA50, 0xABF0,
   0xFF10, 0x104A0, 0x10D30, 0x11066, 0x110F0, 0x11136, 0x111D0, 0x112F0, 0x11450, 0x114D0,
   0x11650, 0x116C0, 0x11730, 0x118E0, 0x11950, 0x11C50, 0x11D50, 0x11DA0, 0x16A60, 0x16AC0,
   0x16B50, 0x1D7CE, 0x1D7D8, 0x1D7E2, 0x1D7EC, 0x1D7F6, 0x1E140, 0x1E2F0, 0x1E950, 0x1FBF0]

/-- The value of a decimal digit of any script. -/
def digitValue? (c : Char) : Option Nat :=
  (zeroDigits.find? fun z => z ≤ c.toNat && c.toNat ≤ z + 9).map (c.toNat - ·)

def isDigit (c : Char) : Bool := (digitValue? c).isSome

def digitValue (c : Char) : Nat := (digitValue? c).getD 0

/-- The number that a run of digits writes. -/
def natOfDigits (cs : List Char) : Nat := cs.foldl (fun n c => 10 * n + digitValue c) 0

/-- Digits with single underscores between them; `afterDigit` says whether one may come next. -/
def readDigits? : (afterDigit : Bool) → List Char → Option (List Char)
  | afterDigit, [] => if afterDigit then some [] else none
  | afterDigit, c :: cs =>
    if isDigit c then (readDigits? true cs).map (c :: ·)
    else if c == '_' && afterDigit then readDigits? false cs
    else none

/-- Splits an optional sign off; `true` is minus. -/
def splitSign : List Char → Bool × List Char
  | '-' :: cs => (true, cs)
  | '+' :: cs => (false, cs)
  | cs => (false, cs)

/-- The blanks that may surround a number. -/
def isNumberBlank (c : Char) : Bool := isBlank c && !('\x1C' ≤ c && c ≤ '\x1F')

def trimNumber (cs : List Char) : List Char :=
  ((cs.dropWhile isNumberBlank).reverse.dropWhile isNumberBlank).reverse

/-- Reads a whole number. -/
def readInt? (cs : List Char) : Option Int :=
  let (negative, digits) := splitSign (trimNumber cs)
  (readDigits? false digits).map fun ds =>
    let n : Int := natOfDigits ds
    if negative then -n else n

example : readInt? " -1_000 ".toList = some (-1000) := by decide +kernel
example : readInt? "1__0".toList = none := by decide +kernel
example : readInt? "_1".toList = none := by decide +kernel
example : readInt? "1\x1C".toList = none := by decide +kernel

end ReactiveScopes.Text
