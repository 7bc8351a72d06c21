import ReactiveScopes.Method.Layout
import ReactiveScopes.Store.Template

/-!
# Placeholders

Texts with fields in braces that are filled in. A field names an argument, and what is to be read from
it; it may ask for the display of the value instead of its text, and for a layout, which may have fields
itself, but no further ones within these.
-/
namespace ReactiveScopes.Method.Placeholder

open Build

structure Field where
  name : List Char
  display : Option Char := none
  layout : List Char := []

/-- Reads the name of a field, up to the character that ends it. What stands between brackets is part of
the name, whatever it is. -/
def readName? : (inBrackets : Bool) → List Char → Option (List Char × Char × List Char)
  | _, [] => none
  | inBrackets, c :: cs =>
    if !inBrackets && c == '\x7b' then none
    else if !inBrackets && (c == '\x7d' || c == ':' || c == '!') then some ([], c, cs)
    else
      let inside := if inBrackets then c != ']' else c == '['
      (readName? inside cs).map fun (name, rest) => (c :: name, rest)

/-- Reads a layout, up to the brace that closes the field. -/
def readLayout? : (nesting : Nat) → List Char → Option (List Char × List Char)
  | _, [] => none
  | nesting, c :: cs =>
    let next (n : Nat) : Option (List Char × List Char) :=
      (readLayout? n cs).map fun (layout, rest) => (c :: layout, rest)
    if c == '\x7b' then next (nesting + 1)
    else if c != '\x7d' then next nesting
    else match nesting with
      | 0 => some ([], cs)
      | n + 1 => next n

/-- Reads a field, the opening brace of which has been read. -/
def readField? (cs : List Char) : Option (Field × List Char) := do
  let withLayout (f : Field) (cs : List Char) : Option (Field × List Char) :=
    (readLayout? 0 cs).map fun (layout, rest) => ({ f with layout := layout }, rest)
  match ← readName? false cs with
  | (name, '!', c :: d :: cs) =>
    let f : Field := { name := name, display := some c }
    if d == '\x7d' then some (f, cs)
    else if d == ':' then withLayout f cs
    else none
  | (_, '!', _) => none
  | (name, ':', cs) => withLayout { name := name } cs
  | (name, _, cs) => some ({ name := name }, cs)

/-- What comes next in a template: characters that stand for themselves, and a field if one follows. A
brace written twice stands for itself. -/
def readPart? (cs : List Char) : Option (List Char × Option Field × List Char) :=
  let isBrace (c : Char) : Bool := c == '\x7b' || c == '\x7d'
  let plain := cs.takeWhile (!isBrace ·)
  match cs.drop plain.length with
  | [] => some (plain, none, [])
  | [_] => none
  | c :: d :: rest =>
    if c == d then some (plain ++ [c], none, rest)
    else if c == '\x7d' then none
    else (readField? (d :: rest)).map fun (f, rest) => (plain, some f, rest)

/-- How the fields of a template choose their arguments: by numbers they give, or one after another. -/
inductive Counting where
  | open
  | given
  | next (n : Nat)

/-- What fields choose from: arguments by number, or a mapping by name. -/
inductive Source where
  | arguments (items : List Value)
  | mapping (v : Value)

/-- The whole number that some digits of any script write, if they are nothing else. -/
def position (cs : List Char) : Except Fault (Option Nat) := do
  match ← Layout.readSize cs with
  | (some n, []) => return some n
  | _ => return none

/-- The item of a value under a position or a name. -/
def item (v : Value) (name : List Char) : Build Value := do
  let s ← store
  match ← lift (position name), s.sequence? v, v.text?, s.look v with
  | some n, some xs, _, _ => found .outOfRange xs[n]?
  | some n, _, some t, _ =>
    found .outOfRange ((t.toList[n]?).map fun c => Value.text (String.singleton c))
  | some n, _, _, some (.bytes b) => found .outOfRange ((b[n]?).map fun x => Value.int x.toNat)
  | n, _, _, _ =>
    match s.mapping? v with
    | some m =>
      let key := match n with
        | some n => Value.int n
        | none => .text (String.ofList name)
      found .missingKey (m.get? (← lift (s.keyOf m key)))
    | none => fail .unsupported
where
  found (missing : Fault) : Option Value → Build Value
    | some v => pure v
    | none => fail missing

def member (v : Value) (name : List Char) : Build Value := do
  match ← lift ((← store).attribute? v (String.ofList name)) with
  | some x => Build.fresh x
  | none => fail .noAttribute

/-- Follows what a name says about the parts of a value. -/
def follow : (fuel : Nat) → Value → List Char → Build Value
  | 0, v, _ => pure v
  | _, v, [] => pure v
  | fuel + 1, v, c :: cs =>
    if c == '.' then do
      let name := cs.takeWhile fun c => c != '.' && c != '['
      if name.isEmpty then fail .invalid
      else follow fuel (← member v name) (cs.drop name.length)
    else if c == '[' then do
      let name := cs.takeWhile (· != ']')
      match cs.drop name.length with
      | [] => fail .invalid
      | _ :: rest => if name.isEmpty then fail .invalid else follow fuel (← item v name) rest
    else fail .invalid

/-- The argument that a name begins with, and how arguments are chosen from then on. -/
def choose (source : Source) (counting : Counting) (name : List Char) : Build (Value × Counting) := do
  let n ← lift (position name)
  let (n, counting) ← match name.isEmpty, n, counting with
    | true, _, .open => pure (some 0, Counting.next 1)
    | true, _, .next k => pure (some k, Counting.next (k + 1))
    | true, _, .given => fail .invalid
    | false, some _, .next _ => fail .invalid
    | false, some n, _ => pure (some n, Counting.given)
    | false, none, counting => pure (none, counting)
  match n, source with
  | some n, .arguments items =>
    match items[n]? with
    | some v => return (v, counting)
    | none => fail .outOfRange
  | none, .arguments _ => fail .missingKey
  | some _, .mapping _ => fail .invalid
  | none, .mapping v =>
    match (← store).mapping? v with
    | some m =>
      match m.at? (String.ofList name) with
      | some x => return (x, counting)
      | none => fail .missingKey
    | none => fail .unsupported

def displayed (v : Value) : Option Char → Build Value
  | none => pure v
  | some 's' => do return .text ((← store).textOf v)
  | some 'r' => do return .text ((← store).shown v)
  | some 'a' => do return .text (String.ofList (((← store).shown v).toList.flatMap fun c =>
      if c.toNat < 0x80 then [c] else Text.numericEscape c.toNat))
  | some _ => fail .invalid

/-- Fills a template in; `inner` fills in the layouts that have fields. -/
def fillWith (inner : Counting → List Char → Build (List Char × Counting)) (source : Source) :
    (fuel : Nat) → Counting → List Char → Build (List Char × Counting)
  | 0, counting, _ => pure ([], counting)
  | fuel + 1, counting, cs => do
    match readPart? cs with
    | none => fail .invalid
    | some (plain, none, []) => return (plain, counting)
    | some (plain, none, rest) =>
      let (more, counting) ← fillWith inner source fuel counting rest
      return (plain ++ more, counting)
    | some (plain, some f, rest) =>
      let first := f.name.takeWhile fun c => c != '.' && c != '['
      let (v, counting) ← choose source counting first
      let v ← follow (f.name.length + 1) v (f.name.drop first.length)
      let v ← displayed v f.display
      let (layout, counting) ←
        if f.layout.contains '\x7b' then inner counting f.layout else pure (f.layout, counting)
      let shown ← lift (laidOut (← store) v layout)
      let (more, counting) ← fillWith inner source fuel counting rest
      return (plain ++ shown ++ more, counting)

/-- Fills a template in. -/
def fill (source : Source) (cs : List Char) : Build Value := do
  let tooDeep (_ : Counting) (_ : List Char) : Build (List Char × Counting) := fail .invalid
  let within (counting : Counting) (cs : List Char) : Build (List Char × Counting) :=
    fillWith tooDeep source (cs.length + 1) counting cs
  let (filled, _) ← fillWith within source (cs.length + 1) .open cs
  return .text (String.ofList filled)

end ReactiveScopes.Method.Placeholder
