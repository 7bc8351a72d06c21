import ReactiveScopes.Json.Basic
import ReactiveScopes.Number.Binary64
import ReactiveScopes.Text.Digit

/-!
# The comparison shorthand

Two infix shapes stand for expressions: a path compared with something, and a negated path. The right
side of a comparison is a number, a truth value, a quoted text, or else the name of a path. Anything
that has neither shape is left alone.
-/
namespace ReactiveScopes.Comparison

def isNameStart (c : Char) : Bool :=
  ('a' ≤ c && c ≤ 'z') || ('A' ≤ c && c ≤ 'Z') || c == '_' || c == '$'

def isNameChar (c : Char) : Bool := isNameStart c || ('0' ≤ c && c ≤ '9')

def isPathChar (c : Char) : Bool := isNameChar c || c == '.'

/-- The longest path name at the head of a text, and the rest. -/
def readPath? (cs : List Char) : Option (List Char × List Char) :=
  if cs.head?.any isNameStart then some (cs.takeWhile isPathChar, cs.dropWhile isPathChar) else none

/-- The comparison signs, in the order in which they are tried. -/
def signs : List String := ["===", "==", "!=", ">=", "<=", ">", "<"]

/-- What follows `start` in a text that starts with it. -/
def after? : (start : List Char) → List Char → Option (List Char)
  | [], cs => some cs
  | p :: ps, c :: cs => if p = c then after? ps cs else none
  | _ :: _, [] => none

/-- The right side in what follows a sign: the text between the blanks, on one line. If there are only
blanks, the last of them that is no line feed counts as text. -/
def rightSide? (cs : List Char) : Option (List Char) :=
  match Text.trim cs with
  | [] => (cs.reverse.find? (· != '\n')).map ([·])
  | body => if body.contains '\n' then none else some body

/-- Digits with an optional minus and an optional fraction. -/
def number? (cs : List Char) : Option Json :=
  let (negative, ds) := match cs with
    | '-' :: ds => (true, ds)
    | ds => (false, ds)
  let whole := ds.takeWhile Text.isDigit
  if whole.isEmpty then none
  else match ds.dropWhile Text.isDigit with
    | [] =>
      let n : Int := Text.natOfDigits whole
      some (.int (if negative then -n else n))
    | '.' :: fraction =>
      if fraction.isEmpty || !fraction.all Text.isDigit then none
      else
        let digits := Text.natOfDigits (whole ++ fraction)
        some (.float (Number.ofDecimal negative digits (-(fraction.length : Int))))
    | _ => none

/-- The inside of a text that begins and ends with the same quote. -/
def unquoted? : List Char → Option (List Char)
  | [] => none
  | q :: rest =>
    if (q == '\'' || q == '"') && rest.getLast? == some q then some rest.dropLast else none

def getNode (path : List Char) : Json := .arr [.str "get", .str (String.ofList path)]

/-- The operand that a right side stands for. -/
def operand (cs : List Char) : Json :=
  match number? cs with
  | some n => n
  | none =>
    if cs = "true".toList then .bool true
    else if cs = "false".toList then .bool false
    else match unquoted? cs with
      | some inside => .str (String.ofList inside)
      | none => getNode cs

def comparison? (cs : List Char) : Option Json := do
  let (path, rest) ← readPath? (Text.dropBlanks cs)
  let rest := Text.dropBlanks rest
  let (sign, right) ← signs.findSome? fun sign => do
    some (sign, ← rightSide? (← after? sign.toList rest))
  some (.arr [.str sign, getNode path, operand right])

def negation? : List Char → Option Json
  | '!' :: cs => do
    let (path, rest) ← readPath? (Text.dropBlanks cs)
    if rest.all Text.isBlank then some (.arr [.str "!", getNode path]) else none
  | _ => none

/-- The expression that a shorthand stands for. -/
def expression? (cs : List Char) : Option Json := (comparison? cs).or (negation? cs)

/-- An identifier without dots, as handlers are named in sources. -/
def isName (cs : List Char) : Bool := cs.head?.any isNameStart && cs.all isNameChar

end ReactiveScopes.Comparison
