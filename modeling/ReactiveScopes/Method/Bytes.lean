import ReactiveScopes.Method.Text

/-!
# Methods of byte strings

What byte strings have besides what they share with texts: substitution by position, hexadecimal
notation, and the way to texts and back.
-/
namespace ReactiveScopes.Method

open Build

/-- The text that bytes stand for; no bytes are no text, whatever the encoding. -/
def decodeBytes (b : List UInt8) (args : List Value) : Build Value := do
  let (name, leniency) ← lift (codecArgs args)
  if b.isEmpty then return .text ""
  else return .text (String.ofList (← lift ((← lift (codecOf name)).decode leniency b)))

def octetText (b : UInt8) : List Char := Text.hexDigits b.toNat 2

/-- Bytes in groups of `size`, the odd one first. -/
def groupsFromEnd (size : Nat) (b : List UInt8) : List (List UInt8) :=
  let odd := b.length % size
  let rec go : (fuel : Nat) → List UInt8 → List (List UInt8)
    | 0, _ => []
    | _, [] => []
    | fuel + 1, bs => bs.take size :: go fuel (bs.drop size)
  (if odd = 0 then [] else [b.take odd]) ++ go b.length (b.drop odd)

/-- Hexadecimal digits, in groups of so many bytes, counted from the end, or from the front if the size
is negative. -/
def hexText (b : List UInt8) (separator : List Char) (size : Int) : List Char :=
  let shown (bs : List UInt8) : List Char := bs.flatMap octetText
  if size = 0 then shown b
  else if size > 0 then Text.joined separator ((groupsFromEnd size.toNat b).map shown)
  else
    let groups := (groupsFromEnd size.natAbs b.reverse).map List.reverse
    Text.joined separator (groups.reverse.map shown)

/-- A separator of hexadecimal digits: one ASCII character. Its length is looked at before its kind. -/
def separatorOf (v : Value) : Build (List Char) := do
  let s ← store
  if (← lift (s.iterate v)).length != 1 then fail .invalid
  else
    match v.text?, s.look v with
    | some t, _ => ascii t.toList
    | _, some (.bytes b) => ascii (Template.charsOf b)
    | _, _ => fail .unsupported
where
  ascii (cs : List Char) : Build (List Char) :=
    if cs.all (·.toNat < 0x80) then pure cs else fail .invalid

/-- Reads pairs of hexadecimal digits with blanks between them. -/
def readHex? : (fuel : Nat) → List Char → Option (List UInt8)
  | 0, _ => none
  | fuel + 1, cs =>
    match cs.dropWhile bytesAlphabet.blank with
    | [] => some []
    | [_] => none
    | c :: d :: rest => do
      let hi ← digit? c
      let lo ← digit? d
      return UInt8.ofNat (16 * hi + lo) :: (← readHex? fuel rest)
where
  digit? (c : Char) : Option Nat :=
    if c.isDigit then some (c.toNat - '0'.toNat)
    else if 'a' ≤ c.toLower && c.toLower ≤ 'f' then some (c.toLower.toNat - 'a'.toNat + 10)
    else none

/-- The bytes of an argument. -/
def bytesArg (v : Value) : Build (List UInt8) := do
  match (← store).look v with
  | some (.bytes b) => return b
  | _ => fail .unsupported

/-- Calls a method of a byte string. -/
def onBytes (b : List UInt8) (name : String) (args : List Value) : Build Value := do
  let cs := Template.charsOf b
  let cased := cs.map fun c => if c.toNat < 0x80 then c else ' '
  match bytesAlphabet.shared? cs name args, caseTest? cased name, args with
  | some r, _, _ => r
  | _, some t, [] => return .bool t
  | _, _, _ =>
    match name, args with
    | "decode", _ => decodeBytes b args
    | "hex", [] => return .text (String.ofList (hexText b [] 0))
    | "hex", [sep] => return .text (String.ofList (hexText b (← separatorOf sep) 1))
    | "hex", [sep, size] => do
      let size ← lift (halfWord size)
      return .text (String.ofList (hexText b (← separatorOf sep) size))
    | "translate", [table] => do
      let table ← tableOf table
      substituted table []
    | "translate", [table, dropped] => do
      let table ← tableOf table
      substituted table (← bytesArg dropped)
    | "maketrans", [x, y] => do
      let x ← bytesArg x
      let y ← bytesArg y
      if x.length != y.length then fail .invalid
      else
        let swaps := (x.zip y).reverse
        Build.bytes ((List.range 256).map fun i =>
          (swaps.lookup (UInt8.ofNat i)).getD (UInt8.ofNat i))
    | "fromhex", [v] =>
      match v.text? with
      | some t =>
        match readHex? (t.length + 1) t.toList with
        | some bs => Build.bytes bs
        | none => fail .invalid
      | none => fail .unsupported
    | _, _ => fail .unsupported
where
  tableOf (table : Value) : Build (Option (List UInt8)) := do
    if table.isNone then return none
    else
      let table ← bytesArg table
      if table.length != 256 then fail .invalid else return some table
  substituted (table : Option (List UInt8)) (dropped : List UInt8) : Build Value :=
    let kept := b.filter fun x => !dropped.contains x
    Build.bytes (match table with
      | some table => kept.map fun x => (table[x.toNat]?).getD x
      | none => kept)

end ReactiveScopes.Method
