import ReactiveScopes.Number.Places
import ReactiveScopes.Store.Display

/-!
# Templates

A text or a byte string applied to arguments with the operator `%`. A directive is a percent sign, an
optional key in parentheses, flags, a width, a precision, and a letter for the notation. Bytes are
handled as the characters of the same numbers. Only whether a template applies matters, not why it does
not, so every failure is the same.
-/
namespace ReactiveScopes.Template

structure Flags where
  left : Bool := false
  plus : Bool := false
  space : Bool := false
  alternate : Bool := false
  zero : Bool := false

/-- The arguments. A tuple is taken apart; anything else is one argument, and may be a mapping for
directives with keys. What is not used up is an error unless it can be subscripted. -/
structure Arguments where
  items : List Value
  mapping : Option Value
  lenient : Bool

def Arguments.next? (a : Arguments) : Option (Value × Arguments) :=
  match a.items with
  | [] => none
  | v :: vs => some (v, { a with items := vs })

def readFlags : List Char → Flags → Flags × List Char
  | '-' :: cs, f => readFlags cs { f with left := true }
  | '+' :: cs, f => readFlags cs { f with plus := true }
  | ' ' :: cs, f => readFlags cs { f with space := true }
  | '#' :: cs, f => readFlags cs { f with alternate := true }
  | '0' :: cs, f => readFlags cs { f with zero := true }
  | cs, f => (f, cs)

def isPlainDigit (c : Char) : Bool := '0' ≤ c && c ≤ '9'

def plainNat (cs : List Char) : Nat := cs.foldl (fun n c => 10 * n + (c.toNat - '0'.toNat)) 0

/-- Sizes beyond this do not fit and are refused. -/
def sizeLimit : Nat := 0x7FFFFFFF

/-- A width or precision: digits, or `*` for the next argument, which is a whole number. -/
def readSize (cs : List Char) (args : Arguments) : Option (Option Int × List Char × Arguments) :=
  match cs with
  | '*' :: cs => do
    let (v, args) ← args.next?
    match v.number? with
    | some (.int i) => if i.natAbs > sizeLimit then none else some (some i, cs, args)
    | _ => none
  | _ =>
    let ds := cs.takeWhile isPlainDigit
    if plainNat ds > sizeLimit then none
    else some (if ds.isEmpty then none else some (plainNat ds), cs.dropWhile isPlainDigit, args)

/-- The key between balanced parentheses, the opening one of which has been read. -/
def readKey? : (nesting : Nat) → List Char → Option (List Char × List Char)
  | _, [] => none
  | 0, ')' :: cs => some ([], cs)
  | n + 1, ')' :: cs => (readKey? n cs).map fun (k, r) => (')' :: k, r)
  | n, '(' :: cs => (readKey? (n + 1) cs).map fun (k, r) => ('(' :: k, r)
  | n, c :: cs => (readKey? n cs).map fun (k, r) => (c :: k, r)

/-- Sign and body padded to the width; zeros go between them. -/
def pad (f : Flags) (width : Nat) (zeros : Bool) (sign body : List Char) : List Char :=
  let missing := width - (sign.length + body.length)
  if f.left then sign ++ body ++ List.replicate missing ' '
  else if zeros then sign ++ List.replicate missing '0' ++ body
  else List.replicate missing ' ' ++ sign ++ body

def signOf (f : Flags) (negative : Bool) : List Char :=
  if negative then ['-'] else if f.plus then ['+'] else if f.space then [' '] else []

def whole? (fromDouble : Bool) (v : Value) : Option Int :=
  match v.number? with
  | some (.int i) => some i
  | some (.float x) => if fromDouble then (Number.parts? x).map (·.truncate) else none
  | none => none

def double? (v : Value) : Option Float :=
  match v.number? with
  | some (.int i) => Number.ofInt? i
  | some (.float x) => some x
  | none => none

def formatWhole (f : Flags) (width : Nat) (precision : Option Nat) (base : Nat) (mark : List Char)
    (upper : Bool) (i : Int) : List Char :=
  let digits := Nat.toDigits base i.natAbs
  let digits := if upper then digits.map Char.toUpper else digits
  let digits := Number.padZeros (precision.getD 0) digits
  let mark := if f.alternate then mark else []
  pad f width f.zero (signOf f (i < 0) ++ mark) digits

/-- The notations of doubles: `e`, `f` and `g`. -/
def formatDouble (f : Flags) (width : Nat) (precision : Option Nat) (letter : Char) (x : Float) :
    List Char :=
  let places := precision.getD 6
  match Number.parts? x with
  | none =>
    if x.isNaN then pad f width f.zero (signOf f false) ['n', 'a', 'n']
    else pad f width f.zero (signOf f (x < 0.0)) ['i', 'n', 'f']
  | some p =>
    let lower := letter.toLower
    let body :=
      if lower == 'f' then Number.fixedPlaces p places f.alternate
      else if lower == 'e' then Number.scientificPlaces p places f.alternate
      else Number.generalPlaces p places f.alternate
    pad f width f.zero (signOf f p.negative) body

def upperIf (upper : Bool) (cs : List Char) : List Char := if upper then cs.map Char.toUpper else cs

/-- What a template is made of, and what it gives. -/
inductive Medium where
  | text
  | bytes
  deriving DecidableEq

def charsOf (b : List UInt8) : List Char := b.map fun x => Char.ofNat x.toNat

/-- A byte: by its number, or a byte string of one byte. -/
def byte? (s : Store) (v : Value) : Option Char :=
  match s.look v with
  | some (.bytes [b]) => some (Char.ofNat b.toNat)
  | _ => match v.number? with
    | some (.int i) => if 0 ≤ i && i < 256 then some (Char.ofNat i.toNat) else none
    | _ => none

/-- A character: by its number, or a text of one character. -/
def character? (v : Value) : Option Char :=
  match v.text?, v.number? with
  | some t, _ =>
    match t.toList with
    | [c] => some c
    | _ => none
  | none, some (.int i) => if 0 ≤ i && i < 0x110000 then some (Char.ofNat i.toNat) else none
  | _, _ => none

/-- The letters that take a value as a text, or as the bytes it has. -/
def plainForm? (s : Store) (m : Medium) (letter : Char) (v : Value) : Option (List Char) :=
  let escaped := (s.shown v).toList.flatMap fun c =>
    if c.toNat < 0x80 then [c] else Text.numericEscape c.toNat
  let bytes := match s.look v with
    | some (.bytes b) => some (charsOf b)
    | _ => none
  match m, letter with
  | .text, 's' => some (s.textOf v).toList
  | .text, 'r' => some (s.shown v).toList
  | .text, 'a' => some escaped
  | .bytes, 's' => bytes
  | .bytes, 'b' => bytes
  | .bytes, 'r' => some escaped
  | .bytes, 'a' => some escaped
  | _, _ => none

/-- One directive applied to its argument. -/
def format? (s : Store) (m : Medium) (f : Flags) (width : Nat) (precision : Option Nat) (letter : Char)
    (v : Value) : Option (List Char) :=
  match letter with
  | 'd' => (whole? true v).map (formatWhole f width precision 10 [] false)
  | 'i' => (whole? true v).map (formatWhole f width precision 10 [] false)
  | 'u' => (whole? true v).map (formatWhole f width precision 10 [] false)
  | 'x' => (whole? false v).map (formatWhole f width precision 16 ['0', 'x'] false)
  | 'X' => (whole? false v).map (formatWhole f width precision 16 ['0', 'X'] true)
  | 'o' => (whole? false v).map (formatWhole f width precision 8 ['0', 'o'] false)
  | 'c' =>
    let c := if m = .text then character? v else byte? s v
    c.map fun c => pad f width false [] [c]
  | _ =>
    if ['e', 'E', 'f', 'F', 'g', 'G'].contains letter then
      (double? v).map fun x =>
        upperIf (letter.isUpper) (formatDouble f width precision letter x)
    else (plainForm? s m letter v).map fun cs =>
      pad f width false [] (match precision with | some n => cs.take n | none => cs)

/-- The argument under a key of the mapping; no key is a byte string. -/
def keyed? (s : Store) (m : Medium) (mapping : Option Value) (key : String) : Option Value := do
  if m = .text then (← s.mapping? (← mapping)).at? key else none

/-- The key of a directive, if it has one: what is under it is then the one argument. -/
def takeKey (s : Store) (m : Medium) (cs : List Char) (args : Arguments) :
    Option (List Char × Arguments) :=
  match cs with
  | '(' :: cs => do
    let (key, cs) ← readKey? 0 cs
    let v ← keyed? s m args.mapping (String.ofList key)
    return (cs, { args with items := [v], lenient := true })
  | _ => some (cs, args)

/-- A precision after a point. -/
def readPrecision (cs : List Char) (args : Arguments) :
    Option (Option Nat × List Char × Arguments) :=
  match cs with
  | '.' :: cs => do
    let (p, cs, args) ← readSize cs args
    return (some (p.getD 0).toNat, cs, args)
  | _ => some (none, cs, args)

/-- A letter for the length of a number means nothing. -/
def skipLength : List Char → List Char
  | 'h' :: cs => cs
  | 'l' :: cs => cs
  | 'L' :: cs => cs
  | cs => cs

/-- Applies a template; `fuel` bounds the number of directives. -/
def applyWithin (s : Store) (m : Medium) : (fuel : Nat) → List Char → Arguments → Option (List Char)
  | 0, _, _ => none
  | fuel + 1, cs, args =>
    let plain := cs.takeWhile (· != '%')
    match cs.dropWhile (· != '%') with
    | [] => if args.items.isEmpty || args.lenient then some plain else none
    | _ :: '%' :: cs => do return plain ++ '%' :: (← applyWithin s m fuel cs args)
    | _ :: cs => do
      let (cs, args) ← takeKey s m cs args
      let (flags, cs) := readFlags cs {}
      let (width, cs, args) ← readSize cs args
      let flags := if width.any (· < 0) then { flags with left := true } else flags
      let (precision, cs, args) ← readPrecision cs args
      match skipLength cs with
      | [] => none
      | letter :: cs => do
        let (v, args) ← args.next?
        let shown ← format? s m flags (width.getD 0).natAbs precision letter v
        return plain ++ shown ++ (← applyWithin s m fuel cs args)

def arguments (s : Store) (m : Medium) (v : Value) : Arguments :=
  match s.look v with
  | some (.tuple xs) => ⟨xs, none, false⟩
  | some (.list _) => ⟨[v], none, true⟩
  | some (.bytes _) => ⟨[v], none, m = .text⟩
  | some (.dict _) => ⟨[v], some v, true⟩
  | some (.record _ _) => ⟨[v], some v, true⟩
  | _ => ⟨[v], none, false⟩

def applied? (s : Store) (m : Medium) (cs : List Char) (v : Value) : Option (List Char) :=
  applyWithin s m (cs.length + 1) cs (arguments s m v)

def fill? (s : Store) (template : String) (v : Value) : Option String :=
  (applied? s .text template.toList v).map String.ofList

def fillBytes? (s : Store) (template : List UInt8) (v : Value) : Option (List UInt8) :=
  (applied? s .bytes (charsOf template) v).map fun cs => cs.map fun c => UInt8.ofNat c.toNat

end ReactiveScopes.Template
