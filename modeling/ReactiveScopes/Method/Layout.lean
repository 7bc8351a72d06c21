import ReactiveScopes.Method.Argument
import ReactiveScopes.Number.Places
import ReactiveScopes.Store.Display
import ReactiveScopes.Text.Digit
import ReactiveScopes.Text.Encoding

/-!
# Layouts

How a single value is laid out when it is written into a text: what it is filled up with and on which
side, its sign, its width, the grouping of its digits, its precision, and a letter for the way numbers
are written. Only numbers and texts can be laid out; whatever else there is takes the empty layout.
-/
namespace ReactiveScopes.Method

structure Layout where
  fill : Char := ' '
  align : Char
  sign : Option Char := none
  /-- Nothing that is written as zero has a minus sign. -/
  plainZero : Bool := false
  alternate : Bool := false
  width : Nat := 0
  separator : Option Char := none
  precision : Option Nat := none
  letter : Option Char := none

namespace Layout

def isAlign (c : Char) : Bool := ['<', '>', '=', '^'].contains c

/-- A character to fill with, if one is given, and the alignment. -/
def readAlign : List Char → Option Char × Option Char × List Char
  | c :: d :: cs =>
    if isAlign d then (some c, some d, cs)
    else if isAlign c then (none, some c, d :: cs)
    else (none, none, c :: d :: cs)
  | [c] => if isAlign c then (none, some c, []) else (none, none, [c])
  | [] => (none, none, [])

/-- The first character, if it is one of some. -/
def readOneOf (options : List Char) : List Char → Option Char × List Char
  | c :: cs => if options.contains c then (some c, cs) else (none, c :: cs)
  | [] => (none, [])

/-- The digits in front, as a number. -/
def readSize (cs : List Char) : Except Fault (Option Nat × List Char) :=
  let ds := cs.takeWhile Text.isDigit
  let n := Text.natOfDigits ds
  if Number.twoTo 63 ≤ n then .error .invalid
  else .ok (if ds.isEmpty then none else some n, cs.dropWhile Text.isDigit)

/-- Comma and underscore separate groups of digits, but not both, and not in every notation. -/
def readSeparator (cs : List Char) : Except Fault (Option Char × List Char) :=
  let (comma, cs) := readOneOf [','] cs
  let (underscore, cs) := readOneOf ['_'] cs
  if underscore.isSome && (comma.isSome || cs.head? == some ',') then .error .invalid
  else .ok (comma.or underscore, cs)

def admitsSeparator (separator : Char) (letter : Option Char) : Bool :=
  match letter with
  | none => true
  | some c =>
    ['d', 'e', 'f', 'g', 'E', 'F', 'G', '%'].contains c ||
      (separator == '_' && ['b', 'o', 'x', 'X'].contains c)

/-- Reads a layout, given the alignment and the letter that hold unless it says otherwise. -/
def read (align : Char) (letter : Option Char) (cs : List Char) : Except Fault Layout := do
  let (fill, given, cs) := readAlign cs
  let (sign, cs) := readOneOf ['+', '-', ' '] cs
  let (plainZero, cs) := readOneOf ['z'] cs
  let (alternate, cs) := readOneOf ['#'] cs
  let (zero, cs) := if fill.isNone then readOneOf ['0'] cs else (none, cs)
  let (width, cs) ← readSize cs
  let (separator, cs) ← readSeparator cs
  let (precision, cs) ← match cs with
    | '.' :: cs => do
      match ← readSize cs with
      | (none, _) => .error .invalid
      | found => .ok found
    | _ => .ok (none, cs)
  let letter ← match cs with
    | [] => .ok letter
    | [c] => .ok (some c)
    | _ => .error .invalid
  if separator.any fun c => !admitsSeparator c letter then .error .invalid
  else
    return {
      fill := (fill.or zero).getD ' '
      align := given.getD (if zero.isSome && align == '>' then '=' else align)
      sign := sign, plainZero := plainZero.isSome, alternate := alternate.isSome
      width := width.getD 0, separator := separator, precision := precision, letter := letter }

/-- Fills up both sides of something that has a head and a body. -/
def padded (l : Layout) (head body : List Char) : List Char :=
  let missing := l.width - (head.length + body.length)
  let fill (n : Nat) : List Char := List.replicate n l.fill
  if l.align == '<' then head ++ body ++ fill missing
  else if l.align == '^' then fill (missing / 2) ++ head ++ body ++ fill (missing - missing / 2)
  else if l.align == '=' then head ++ fill missing ++ body
  else fill missing ++ head ++ body

/-- Digits in groups, the last digit first, with as many zeros as a width asks for. -/
def groupedWithin (size : Nat) (separator : Char) : (fuel width : Nat) → List Char → List Char
  | 0, _, _ => []
  | fuel + 1, width, ds =>
    let n := min size (max (max ds.length width) 1)
    let group := ds.take n ++ List.replicate (n - ds.length) '0'
    let rest := ds.drop n
    if rest.isEmpty && width ≤ n then group
    else group ++ separator :: groupedWithin size separator fuel (width - n - 1) rest

def grouped (l : Layout) (width : Nat) (ds : List Char) : List Char :=
  match l.separator with
  | none => Number.padZeros width ds
  | some c =>
    let size := if l.letter.any ['b', 'o', 'x', 'X'].contains then 4 else 3
    (groupedWithin size c (ds.length + width + 1) width ds.reverse).reverse

/-- A number: what stands before its digits, the digits that can be grouped, and what follows. -/
def number (l : Layout) (head digits rest : List Char) : List Char :=
  let width := if l.fill == '0' && l.align == '=' then l.width - (head.length + rest.length) else 0
  let digits := if digits.isEmpty then [] else l.grouped width digits
  l.padded head (digits ++ rest)

def signFor (l : Layout) (negative : Bool) : List Char :=
  if negative then ['-']
  else match l.sign with
    | some '+' => ['+']
    | some ' ' => [' ']
    | _ => []

/-- A text has neither sign nor digits. -/
def text (l : Layout) (cs : List Char) : Except Fault (List Char) :=
  if l.sign.isSome || l.plainZero || l.alternate || l.align == '=' || l.letter != some 's' then
    .error .invalid
  else do
    let _ ← extent l.width
    return l.padded [] (match l.precision with
      | some n => cs.take n
      | none => cs)

/-- A character by its number. -/
def character (l : Layout) (i : Int) : Except Fault (List Char) :=
  if l.sign.isSome || l.alternate then .error .invalid
  else if i < 0 || 0x110000 ≤ i then .error .overflow
  else .ok (l.number [] [] [Text.charOf i.toNat])

def whole (l : Layout) (i : Int) : Except Fault (List Char) :=
  if l.precision.isSome || l.plainZero then .error .invalid
  else
    let inBase (base : Nat) (mark : List Char) (upper : Bool) : Except Fault (List Char) :=
      let ds := Nat.toDigits base i.natAbs
      .ok (l.number (l.signFor (i < 0) ++ if l.alternate then mark else [])
        (if upper then ds.map Char.toUpper else ds) [])
    match l.letter with
    | some 'b' => inBase 2 ['0', 'b'] false
    | some 'o' => inBase 8 ['0', 'o'] false
    | some 'x' => inBase 16 ['0', 'x'] false
    | some 'X' => inBase 16 ['0', 'X'] true
    | some 'c' => l.character i
    | _ => inBase 10 [] false

/-- The notation of a finite magnitude. Without a letter it is the shortest one, or the general one with
at least one digit behind the point. -/
def magnitude (l : Layout) (x : Float) (p : Number.Parts) : List Char :=
  let places := l.precision.getD 6
  match l.letter with
  | none =>
    match l.precision with
    | none =>
      let cs := (Number.floatText (if p.negative then -x else x)).toList
      let lead := cs.takeWhile Char.isDigit
      let rest := cs.drop lead.length
      lead ++ (if l.alternate && rest.head? != some '.' then ['.'] else []) ++ rest
    | some n =>
      let cs := Number.generalPlacesBelow ((max n 1 : Nat) - 1) p n l.alternate
      if cs.contains 'e' || cs.contains '.' then cs else cs ++ ['.', '0']
  | some c =>
    if c.toLower == 'e' then Number.scientificPlaces p places l.alternate
    else if c.toLower == 'f' || c == '%' then Number.fixedPlaces p places l.alternate
    else Number.generalPlaces p places l.alternate

def double (l : Layout) (x : Float) : Except Fault (List Char) := do
  if l.precision.any (Number.twoTo 31 ≤ ·) then .error .invalid
  let x := if l.letter == some '%' then x * 100.0 else x
  let body := match Number.parts? x with
    | some p => l.magnitude x p
    | none => if x.isNaN then ['n', 'a', 'n'] else ['i', 'n', 'f']
  let body := if l.letter.any Char.isUpper then body.map Char.toUpper else body
  let isZero := (body.takeWhile fun c => c.toLower != 'e').all fun c => c == '0' || c == '.'
  let negative := Number.isNegative x && !x.isNaN && !(l.plainZero && isZero)
  let digits := body.takeWhile Char.isDigit
  let rest := body.drop digits.length ++ if l.letter == some '%' then ['%'] else []
  return l.number (l.signFor negative) digits rest

/-- A number in the notation of a letter: whole numbers can also be written as doubles. -/
def anyNumber (l : Layout) (n : Number) : Except Fault (List Char) := do
  let _ ← extent l.width
  match n with
  | .int i =>
    match l.letter with
    | none => l.whole i
    | some c =>
      if ['b', 'c', 'd', 'n', 'o', 'x', 'X'].contains c then l.whole i
      else if ['e', 'E', 'f', 'F', 'g', 'G', '%'].contains c then
        match Number.ofInt? i with
        | some x => l.double x
        | none => .error .overflow
      else .error .invalid
  | .float x =>
    if l.letter.all ['e', 'E', 'f', 'F', 'g', 'G', 'n', '%'].contains then l.double x
    else .error .invalid

end Layout

/-- A value as a layout has it. -/
def laidOut (s : Store) (v : Value) (layout : List Char) : Except Fault (List Char) := do
  if layout.isEmpty then return (s.textOf v).toList
  match v.text?, v.number? with
  | some _, _ => (← Layout.read '<' (some 's') layout).text (s.textOf v).toList
  | none, some (.int i) => (← Layout.read '>' (some 'd') layout).anyNumber (.int i)
  | none, some x => (← Layout.read '>' none layout).anyNumber x
  | none, none => .error .unsupported

end ReactiveScopes.Method
