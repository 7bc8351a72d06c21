import ReactiveScopes.Method.Placeholder
import ReactiveScopes.Text.Casing
import ReactiveScopes.Text.Codec
import ReactiveScopes.Text.Numeral
import ReactiveScopes.Text.Printable

/-!
# Methods of texts

Texts and byte strings have most of their methods in common. A byte string takes part as the text of the
characters with the same numbers, and only ASCII has letters and blanks there.
-/
namespace ReactiveScopes.Method

open Build

/-- What methods of texts and of byte strings differ in. -/
structure Alphabet where
  medium : Template.Medium
  blank : Char → Bool
  endsLine : Char → Bool
  letter : Char → Bool
  digit : Char → Bool
  alphanumeric : Char → Bool
  lower : List Char → List Char
  upper : List Char → List Char
  swapped : List Char → List Char
  titled : List Char → List Char
  capitalized : List Char → List Char

def textAlphabet : Alphabet where
  medium := .text
  blank := Text.isBlank
  endsLine := Text.endsLine
  letter := Text.isLetter
  digit := Text.isAnyDigit
  alphanumeric := Text.isAlphanumeric
  lower := Text.lower
  upper := Text.upper
  swapped := Text.swapCase
  titled := Text.titled
  capitalized := Text.capitalize

/-- Byte strings know ASCII only. -/
def asciiOnly (f : List Char → List Char) (cs : List Char) : List Char :=
  cs.flatMap fun c => if c.toNat < 0x80 then f [c] else [c]

def titledAscii (before : Bool) : List Char → List Char
  | [] => []
  | c :: cs => (if before then c.toLower else c.toUpper) :: titledAscii c.isAlpha cs

def bytesAlphabet : Alphabet where
  medium := .bytes
  blank c := c == ' ' || (0x9 ≤ c.toNat && c.toNat ≤ 0xD)
  endsLine c := c == '\n' || c == '\r'
  letter c := c.isAlpha
  digit c := c.isDigit
  alphanumeric c := c.isAlphanum
  lower cs := cs.map Char.toLower
  upper cs := cs.map Char.toUpper
  swapped := asciiOnly Text.swapCase
  titled := titledAscii false
  capitalized
    | [] => []
    | c :: cs => c.toUpper :: cs.map Char.toLower

def bytesOf (cs : List Char) : List UInt8 := cs.map fun c => UInt8.ofNat c.toNat

namespace Alphabet

variable (a : Alphabet)

/-- Characters as a value of this alphabet. -/
def make (cs : List Char) : Build Value :=
  match a.medium with
  | .text => pure (.text (String.ofList cs))
  | .bytes => Build.bytes (bytesOf cs)

def makeList (parts : List (List Char)) : Build Value := do list (← parts.mapM a.make)

/-- The characters of an argument, which has to be of this alphabet. -/
def chars (v : Value) : Build (List Char) := do
  match a.medium, v.text?, (← store).look v with
  | .text, some t, _ => return t.toList
  | .bytes, _, some (.bytes b) => return Template.charsOf b
  | _, _, _ => fail .unsupported

/-- Something to be found: a part, or in a byte string also the number of a byte. -/
def part (v : Value) : Build (List Char) := do
  match a.medium, whole v with
  | .bytes, .ok i =>
    if 0 ≤ i && i < 256 then return [Char.ofNat i.toNat] else fail .invalid
  | _, _ => a.chars v

/-- Something to cut at, which must not be empty. -/
def separator (v : Value) : Build (List Char) := do
  match ← a.chars v with
  | [] => fail .invalid
  | cs => return cs

/-- A character to fill up with. -/
def fill (v : Value) : Build Char := do
  match ← a.chars v with
  | [c] => return c
  | _ => fail .unsupported

/-- Where a part occurs in a window; `find` says which occurrence. -/
def search (find : List Char → List Char → Option Nat) (cs : List Char) :
    List Value → Build (Option Nat)
  | [] => fail .unsupported
  | v :: bounds => do
    let (start, stop) ← lift (windowOf cs.length bounds)
    let part ← a.part v
    if stop - start < part.length then return none
    else return (find part ((cs.take stop.toNat).drop start)).map (· + start)

def position (found : Option Nat) : Value := .int ((found.map Int.ofNat).getD (-1))

def positionOrFault (found : Option Nat) : Build Value :=
  match found with
  | some n => pure (.int n)
  | none => fail .invalid

def count (cs : List Char) : List Value → Build Value
  | [] => fail .unsupported
  | v :: bounds => do
    let (start, stop) ← lift (windowOf cs.length bounds)
    let part ← a.part v
    if stop - start < part.length then return .int 0
    else
      let cs := (cs.take stop.toNat).drop start
      return .int (if part.isEmpty then cs.length + 1 else Text.countOf part 0 cs)

/-- Whether one of some parts stands at an end of a window. -/
def standsAt (atEnd : Bool) (cs : List Char) : List Value → Build Value
  | [] => fail .unsupported
  | v :: bounds => do
    let (start, stop) ← lift (windowOf cs.length bounds)
    let here (part : List Char) : Bool :=
      let cs := (cs.take stop.toNat).drop start
      part.length ≤ stop - start && if atEnd then part.isSuffixOf cs else part.isPrefixOf cs
    match (← store).look v with
    | some (.tuple parts) =>
      let rec any : List Value → Build Bool
        | [] => pure false
        | p :: ps => do if here (← a.chars p) then return true else any ps
      return .bool (← any parts)
    | _ => return .bool (here (← a.chars v))

/-- Cuts at a separator, or at blanks where there is none. -/
def split (last : Bool) (cs : List Char) (sep : Value) (limit : Nat) : Build Value := do
  if sep.isNone then
    a.makeList (if last then Text.lastWords a.blank limit cs else Text.firstWords a.blank limit cs)
  else
    let sep ← a.separator sep
    a.makeList (if last then Text.cutAtLast sep limit cs else Text.cutAt sep limit 0 cs)

/-- The parts before and after an occurrence of a separator, with it between them. -/
def partition (last : Bool) (cs : List Char) (sep : Value) : Build Value := do
  let sep ← a.separator sep
  let parts := match if last then Text.findLast? sep cs else Text.find? sep cs with
    | some n => [cs.take n, sep, cs.drop (n + sep.length)]
    | none => if last then [[], [], cs] else [cs, [], []]
  tuple (← parts.mapM a.make)

def strip (left right : Bool) (cs : List Char) (drops : Value) : Build Value := do
  if drops.isNone then a.make (Text.stripWith a.blank left right cs)
  else
    let ds ← a.chars drops
    a.make (Text.stripWith ds.contains left right cs)

def join (cs : List Char) (items : Value) : Build Value := do
  let items ← lift ((← store).iterate items)
  a.make (Text.joined cs (← items.mapM a.chars))

def pad (side : Text.Side) (cs : List Char) (width : Value) (fill : Option Value) : Build Value := do
  let width ← lift (word width)
  let fill ← match fill with
    | some v => a.fill v
    | none => pure ' '
  let width ← lift (extent width)
  if width ≤ cs.length then a.make cs else a.make (Text.padTo side fill width cs)

/-- All characters have a property, and there is one. -/
def every (p : Char → Bool) (cs : List Char) : Build Value := pure (.bool (!cs.isEmpty && cs.all p))

/-- The methods that texts and byte strings share; `none` for any other. -/
def shared? (cs : List Char) (name : String) (args : List Value) : Option (Build Value) :=
  match name, args with
  | "capitalize", [] => some (a.make (a.capitalized cs))
  | "lower", [] => some (a.make (a.lower cs))
  | "upper", [] => some (a.make (a.upper cs))
  | "swapcase", [] => some (a.make (a.swapped cs))
  | "title", [] => some (a.make (a.titled cs))
  | "center", [w] => some (a.pad .both cs w none)
  | "center", [w, fill] => some (a.pad .both cs w (some fill))
  | "ljust", [w] => some (a.pad .right cs w none)
  | "ljust", [w, fill] => some (a.pad .right cs w (some fill))
  | "rjust", [w] => some (a.pad .left cs w none)
  | "rjust", [w, fill] => some (a.pad .left cs w (some fill))
  | "zfill", [w] => some do
    let width ← lift (extent (← lift (word w)))
    a.make (Text.zeroFill width cs)
  | "expandtabs", [] => some (a.make (Text.expandTabs 8 0 cs))
  | "expandtabs", [n] => some do
    let size ← lift (halfWord n)
    let size ← lift (extent size)
    a.make (Text.expandTabs size 0 cs)
  | "count", _ => some (a.count cs args)
  | "find", _ => some do return position (← a.search Text.find? cs args)
  | "rfind", _ => some do return position (← a.search Text.findLast? cs args)
  | "index", _ => some do positionOrFault (← a.search Text.find? cs args)
  | "rindex", _ => some do positionOrFault (← a.search Text.findLast? cs args)
  | "startswith", _ => some (a.standsAt false cs args)
  | "endswith", _ => some (a.standsAt true cs args)
  | "removeprefix", [p] => some do
    let p ← a.chars p
    a.make (if p.isPrefixOf cs then cs.drop p.length else cs)
  | "removesuffix", [p] => some do
    let p ← a.chars p
    a.make (if p.isSuffixOf cs then cs.take (cs.length - p.length) else cs)
  | "replace", [old, new] => some do
    a.make (Text.replace (← a.chars old) (← a.chars new) (cs.length + 1) cs)
  | "replace", [old, new, n] => some do
    let old ← a.chars old
    let new ← a.chars new
    a.make (Text.replace old new (← lift (limitOf cs.length n)) cs)
  | "split", [] => some (a.split false cs .none (cs.length + 1))
  | "split", [sep] => some (a.split false cs sep (cs.length + 1))
  | "split", [sep, n] => some do a.split false cs sep (← lift (limitOf cs.length n))
  | "rsplit", [] => some (a.split true cs .none (cs.length + 1))
  | "rsplit", [sep] => some (a.split true cs sep (cs.length + 1))
  | "rsplit", [sep, n] => some do a.split true cs sep (← lift (limitOf cs.length n))
  | "partition", [sep] => some (a.partition false cs sep)
  | "rpartition", [sep] => some (a.partition true cs sep)
  | "splitlines", [] => some (a.makeList (Text.lines a.endsLine false cs))
  | "splitlines", [keep] => some do
    a.makeList (Text.lines a.endsLine ((← lift (halfWord keep)) != 0) cs)
  | "strip", [] => some (a.strip true true cs .none)
  | "strip", [drops] => some (a.strip true true cs drops)
  | "lstrip", [] => some (a.strip true false cs .none)
  | "lstrip", [drops] => some (a.strip true false cs drops)
  | "rstrip", [] => some (a.strip false true cs .none)
  | "rstrip", [drops] => some (a.strip false true cs drops)
  | "join", [items] => some (a.join cs items)
  | "isalnum", [] => some (every a.alphanumeric cs)
  | "isalpha", [] => some (every a.letter cs)
  | "isascii", [] => some (pure (.bool (cs.all (·.toNat < 0x80))))
  | "isdigit", [] => some (every a.digit cs)
  | "isspace", [] => some (every a.blank cs)
  | _, _ => none

end Alphabet

/-- Tests for the case of a text; the characters of a byte string that are not in ASCII have none. -/
def caseTest? (cs : List Char) (name : String) : Option Bool :=
  match name with
  | "islower" => some (Text.allCased Text.isLower (fun c => Text.isUpper c || Text.isTitle c) cs)
  | "isupper" => some (Text.allCased Text.isUpper (fun c => Text.isLower c || Text.isTitle c) cs)
  | "istitle" => some (cs.any Text.isCased && Text.isTitled false cs)
  | _ => none

/-- What a character is replaced by, according to a table. -/
def substitute (table : Value) (c : Char) : Build (List Char) := do
  let s ← store
  let n := c.toNat
  let found ← match s.sequence? table, s.mapping? table, table.text?, s.look table with
    | some xs, _, _, _ => pure xs[n]?
    | _, some m, _, _ => do pure (m.get? (← lift (s.keyOf m (.int n))))
    | _, _, some t, _ => pure ((t.toList[n]?).map fun c => Value.text (String.singleton c))
    | _, _, _, some (.bytes b) => pure ((b[n]?).map fun x => Value.int x.toNat)
    | _, _, _, _ => fail .unsupported
  match found with
  | none => return [c]
  | some .none => return []
  | some v =>
    match v.text?, whole v with
    | some t, _ => return t.toList
    | none, .ok i =>
      if 0 ≤ i && i < 0x110000 then return [Text.charOf i.toNat] else fail .invalid
    | _, _ => fail .unsupported

/-- A table of substitutes: from characters or numbers to whatever they become. -/
def substitutes : List Value → Build Value
  | [m] => do
    match (← store).look m with
    | some (.dict t) =>
      let entry (e : Value × Value) : Build (Value × Value) :=
        match e.1.text?, whole e.1 with
        | some k, _ =>
          match k.toList with
          | [c] => pure (.int c.toNat, e.2)
          | _ => fail .invalid
        | _, .ok _ => pure e
        | _, _ => fail .unsupported
      let entries ← t.entries.mapM entry
      dict (← lift ((← store).mappingOf entries))
    | _ => fail .unsupported
  | [x, y] => pairs x y []
  | [x, y, z] => do
    match z.text? with
    | some dropped => pairs x y (dropped.toList.map fun c => (.int c.toNat, .none))
    | none => fail .unsupported
  | _ => fail .unsupported
where
  pairs (x y : Value) (dropped : List (Value × Value)) : Build Value := do
    match x.text?, y.text? with
    | some a, some b =>
      if a.length != b.length then fail .invalid
      else
        let entries := (a.toList.zip b.toList).map fun (c, d) =>
          (Value.int c.toNat, Value.int d.toNat)
        dict (Table.ofList (entries ++ dropped))
    | _, _ => fail .unsupported

/-- A name in the arguments of a method; no name holds a NUL. -/
def nameArg (v : Value) : Except Fault String :=
  match v.text? with
  | some t => if t.toList.contains '\x00' then .error .invalid else .ok t
  | none => .error .unsupported

/-- The name of an encoding and what to do where it fails, as arguments. -/
def codecArgs : List Value → Except Fault (String × Text.Leniency)
  | [] => .ok ("utf-8", .strict)
  | [name] => do return (← nameArg name, .strict)
  | [name, leniency] => do return (← nameArg name, .ofName (← nameArg leniency))
  | _ => .error .unsupported

def codecOf (name : String) : Except Fault Text.Codec :=
  match Text.Codec.ofName? name with
  | some codec => .ok codec
  | none => .error .unknownName

def encodeText (t : String) (args : List Value) : Build Value := do
  let (name, leniency) ← lift (codecArgs args)
  Build.bytes (← lift ((← lift (codecOf name)).encode leniency t.toList))

/-- Calls a method of a text. -/
def onText (t : String) (name : String) (args : List Value) : Build Value :=
  let cs := t.toList
  match textAlphabet.shared? cs name args, caseTest? cs name, args with
  | some r, _, _ => r
  | _, some b, [] => pure (.bool b)
  | _, _, _ =>
    match name, args with
    | "casefold", [] => pure (.text (String.ofList (Text.fold cs)))
    | "isdecimal", [] => Alphabet.every Text.isDigit cs
    | "isidentifier", [] => pure (.bool (Text.isIdentifier cs))
    | "isnumeric", [] => Alphabet.every Text.isNumeral cs
    | "isprintable", [] => pure (.bool (cs.all Text.isPrintable))
    | "encode", _ => encodeText t args
    | "format", _ => Placeholder.fill (.arguments args) cs
    | "format_map", [m] => Placeholder.fill (.mapping m) cs
    | "translate", [table] => do
      return .text (String.ofList (← cs.mapM (substitute table)).flatten)
    | "maketrans", _ => substitutes args
    | _, _ => fail .unsupported

end ReactiveScopes.Method
