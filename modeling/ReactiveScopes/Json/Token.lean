import ReactiveScopes.Json.Basic
import ReactiveScopes.Number.Binary64
import ReactiveScopes.Text.Encoding

/-!
# JSON tokens

The scanner is a machine that reads one character at a time. A maximal run of letters, digits, signs
and points is one word, read as a number or a name: two values that touch are malformed in any case,
so nothing is lost by not splitting such a run earlier. Three names outside the standard are read as
numbers: `NaN`, `Infinity` and `-Infinity`.
-/
namespace ReactiveScopes.Json

inductive Token where
  | openList
  | closeList
  | openObject
  | closeObject
  | comma
  | colon
  | text (s : String)
  | atom (v : Json)

def isAsciiDigit (c : Char) : Bool := '0' ≤ c && c ≤ '9'

def isWordChar (c : Char) : Bool :=
  isAsciiDigit c || ('a' ≤ c && c ≤ 'z') || ('A' ≤ c && c ≤ 'Z') || c == '+' || c == '-' || c == '.'

/-- The four characters between tokens. -/
def isSpace (c : Char) : Bool := c == ' ' || c == '\t' || c == '\n' || c == '\r'

def natOfAscii (cs : List Char) : Nat := cs.foldl (fun n c => 10 * n + (c.toNat - '0'.toNat)) 0

/-- The exponent part of a number: nothing, or a mark with digits. -/
def readExponent? : List Char → Option (Option Int)
  | [] => some none
  | c :: cs =>
    if c != 'e' && c != 'E' then none
    else
      let (negative, ds) := match cs with
        | '-' :: ds => (true, ds)
        | '+' :: ds => (false, ds)
        | ds => (false, ds)
      if ds.isEmpty || !ds.all isAsciiDigit then none
      else some (some (if negative then -(natOfAscii ds : Int) else natOfAscii ds))

/-- The fraction of a number, if any, and what follows it. -/
def readFraction? : List Char → Option (Option (List Char) × List Char)
  | '.' :: cs =>
    let ds := cs.takeWhile isAsciiDigit
    if ds.isEmpty then none else some (some ds, cs.dropWhile isAsciiDigit)
  | cs => some (none, cs)

/-- A number is whole unless it has a fraction or an exponent. -/
def readNumber? (cs : List Char) : Option Json := do
  let (negative, cs) := match cs with
    | '-' :: cs => (true, cs)
    | cs => (false, cs)
  let whole := cs.takeWhile isAsciiDigit
  if whole.isEmpty || (whole.head? == some '0' && whole.length > 1) then none
  else
    let (fraction, rest) ← readFraction? (cs.dropWhile isAsciiDigit)
    match fraction, ← readExponent? rest with
    | none, none =>
      let n : Int := natOfAscii whole
      some (.int (if negative then -n else n))
    | _, e =>
      let ds := fraction.getD []
      some (.float (Number.ofDecimal negative (natOfAscii (whole ++ ds)) (e.getD 0 - ds.length)))

def readWord? (cs : List Char) : Option Json :=
  match String.ofList cs with
  | "null" => some .null
  | "true" => some (.bool true)
  | "false" => some (.bool false)
  | "NaN" => some (.float (0.0 / 0.0))
  | "Infinity" => some (.float (1.0 / 0.0))
  | "-Infinity" => some (.float (-1.0 / 0.0))
  | _ => readNumber? cs

def hexValue? (c : Char) : Option Nat :=
  if isAsciiDigit c then some (c.toNat - '0'.toNat)
  else if 'a' ≤ c && c ≤ 'f' then some (c.toNat - 'a'.toNat + 10)
  else if 'A' ≤ c && c ≤ 'F' then some (c.toNat - 'A'.toNat + 10)
  else none

def simpleEscape? : Char → Option Char
  | '"' => some '"'
  | '\\' => some '\\'
  | '/' => some '/'
  | 'b' => some (Char.ofNat 8)
  | 'f' => some (Char.ofNat 12)
  | 'n' => some '\n'
  | 'r' => some '\r'
  | 't' => some '\t'
  | _ => none

/-- Where the scanner stands. What has been read of a word or string is kept backwards; `high` is a
high surrogate that waits for its low one. -/
inductive Scan where
  | between
  | word (read : List Char)
  | text (read : List Char) (high : Option Nat)
  | escape (read : List Char) (high : Option Nat)
  | code (read : List Char) (high : Option Nat) (digits value : Nat)

/-- A surrogate that stayed alone. -/
def settle (read : List Char) : Option Nat → List Char
  | none => read
  | some _ => Text.replacement :: read

/-- A numeric escape has been read. -/
def Scan.ofCode (read : List Char) (high : Option Nat) (value : Nat) : Scan :=
  let isLow := 0xDC00 ≤ value && value < 0xE000
  match high, isLow with
  | some h, true =>
    .text (Text.charOf (0x10000 + (h - 0xD800) * 0x400 + (value - 0xDC00)) :: read) none
  | _, _ =>
    let read := settle read high
    if 0xD800 ≤ value && value < 0xDC00 then .text read (some value)
    else .text (Text.charOf value :: read) none

/-- One character between tokens. -/
def Scan.begin (c : Char) : Option (Scan × List Token) :=
  if isSpace c then some (.between, [])
  else if isWordChar c then some (.word [c], [])
  else match c with
    | '[' => some (.between, [.openList])
    | ']' => some (.between, [.closeList])
    | '\x7b' => some (.between, [.openObject])
    | '\x7d' => some (.between, [.closeObject])
    | ',' => some (.between, [.comma])
    | ':' => some (.between, [.colon])
    | '"' => some (.text [] none, [])
    | _ => none

/-- One character: the state after it and the tokens it completes. -/
def Scan.step : Scan → Char → Option (Scan × List Token)
  | .between, c => Scan.begin c
  | .word read, c =>
    if isWordChar c then some (.word (c :: read), [])
    else do
      let v ← readWord? read.reverse
      let (s, ts) ← Scan.begin c
      some (s, .atom v :: ts)
  | .text read high, c =>
    if c == '"' then some (.between, [.text (String.ofList (settle read high).reverse)])
    else if c == '\\' then some (.escape read high, [])
    else if c.toNat < 0x20 then none
    else some (.text (c :: settle read high) none, [])
  | .escape read high, c =>
    if c == 'u' then some (.code read high 0 0, [])
    else (simpleEscape? c).map fun e => (.text (e :: settle read high) none, [])
  | .code read high digits value, c => do
    let h ← hexValue? c
    let value := 16 * value + h
    if digits == 3 then some (Scan.ofCode read high value, [])
    else some (.code read high (digits + 1) value, [])

/-- The tokens left when the text ends here. -/
def Scan.finish? : Scan → Option (List Token)
  | .between => some []
  | .word read => (readWord? read.reverse).map fun v => [.atom v]
  | _ => none

def scan (s : Scan) : List Char → Option (List Token)
  | [] => s.finish?
  | c :: cs => do
    let (s, ts) ← s.step c
    return ts ++ (← scan s cs)

/-- The tokens of a text. -/
def tokens? (cs : List Char) : Option (List Token) := scan .between cs

end ReactiveScopes.Json
