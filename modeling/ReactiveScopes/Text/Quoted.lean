import ReactiveScopes.Text.Printable

/-!
# Quoted literals

How a text is shown inside a message or a container: between single quotes, or between double
quotes if it holds a single quote and no double one, with backslash escapes.
-/
namespace ReactiveScopes.Text

def hexDigit (n : Nat) : Char := Nat.digitChar (n % 16)

/-- The last `width` hexadecimal digits of a number. -/
def hexDigits (n : Nat) : (width : Nat) → List Char
  | 0 => []
  | width + 1 => hexDigits (n / 16) width ++ [hexDigit n]

/-- A character by its number: two, four or eight digits, as few as it needs. -/
def numericEscape (n : Nat) : List Char :=
  if n < 0x100 then '\\' :: 'x' :: hexDigits n 2
  else if n < 0x10000 then '\\' :: 'u' :: hexDigits n 4
  else '\\' :: 'U' :: hexDigits n 8

/-- One character of a literal delimited by `quote`; `shows` says which ones stand for themselves. -/
def escape (shows : Char → Bool) (quote c : Char) : List Char :=
  if c == quote || c == '\\' then ['\\', c]
  else if c == '\t' then ['\\', 't']
  else if c == '\n' then ['\\', 'n']
  else if c == '\r' then ['\\', 'r']
  else if shows c then [c]
  else numericEscape c.toNat

/-- The delimiter of a literal. -/
def quoteFor (cs : List Char) : Char :=
  if cs.contains '\'' && !cs.contains '"' then '"' else '\''

def quotedWith (shows : Char → Bool) (cs : List Char) : List Char :=
  let quote := quoteFor cs
  quote :: cs.flatMap (escape shows quote) ++ [quote]

def quoted (cs : List Char) : List Char := quotedWith isPrintable cs

def isAscii (c : Char) : Bool := 0x20 ≤ c.toNat && c.toNat < 0x7F

/-- A literal in which everything outside ASCII is escaped. -/
def quotedAscii (cs : List Char) : List Char := quotedWith isAscii cs

/-- The literal of a byte sequence. -/
def quotedBytes (bytes : List UInt8) : List Char :=
  'b' :: quotedWith isAscii (bytes.map fun b => Char.ofNat b.toNat)

example : quoted "it's".toList = "\"it's\"".toList := by decide +kernel
example : quoted "a\\\u0001".toList = "'a\\\\\\x01'".toList := by decide +kernel

end ReactiveScopes.Text
