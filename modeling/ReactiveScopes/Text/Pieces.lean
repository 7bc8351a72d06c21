/-!
# Pieces of a text

Finding a part in a text, and cutting a text at its parts, at its blanks, or at the ends of its lines.
-/
namespace ReactiveScopes.Text

variable {α : Type} [BEq α]

/-- Where `part` occurs first. -/
def find? (part : List α) : List α → Option Nat
  | [] => if part.isEmpty then some 0 else none
  | c :: cs => if part.isPrefixOf (c :: cs) then some 0 else (find? part cs).map (· + 1)

/-- Where `part` occurs last. -/
def findLast? (part cs : List α) : Option Nat :=
  (find? part.reverse cs.reverse).map fun n => cs.length - part.length - n

/-- How often `part`, which is not empty, occurs without overlap; the first `skip` characters belong to
an occurrence already. -/
def countOf (part : List α) : (skip : Nat) → List α → Nat
  | _, [] => 0
  | skip + 1, _ :: cs => countOf part skip cs
  | 0, c :: cs =>
    if part.isPrefixOf (c :: cs) then countOf part (part.length - 1) cs + 1 else countOf part 0 cs

/-- Puts an element before the first of some pieces. -/
def consFirst (c : α) : List (List α) → List (List α)
  | [] => [[c]]
  | w :: ws => (c :: w) :: ws

/-- Cuts at the first `limit` occurrences of `part`, which is not empty. -/
def cutAt (part : List α) : (limit skip : Nat) → List α → List (List α)
  | _, _, [] => [[]]
  | limit, skip + 1, _ :: cs => cutAt part limit skip cs
  | limit, 0, c :: cs =>
    if limit != 0 && part.isPrefixOf (c :: cs) then
      [] :: cutAt part (limit - 1) (part.length - 1) cs
    else consFirst c (cutAt part limit 0 cs)

/-- Cuts at the last `limit` occurrences of `part`. -/
def cutAtLast (part : List α) (limit : Nat) (cs : List α) : List (List α) :=
  ((cutAt part.reverse limit 0 cs.reverse).map List.reverse).reverse

/-- The pieces with `glue` between them. -/
def joined (glue : List α) : List (List α) → List α
  | [] => []
  | [w] => w
  | w :: ws => w ++ glue ++ joined glue ws

/-- Puts `new` before each of the first `limit` characters, and at the end if any is left. -/
def interleave (new : List α) : (limit : Nat) → List α → List α
  | 0, cs => cs
  | _, [] => new
  | limit + 1, c :: cs => new ++ c :: interleave new limit cs

/-- Replaces the first `limit` occurrences. -/
def replace (old new : List α) (limit : Nat) (cs : List α) : List α :=
  if old.isEmpty then interleave new limit cs else joined new (cutAt old limit 0 cs)

/-- The first `limit` words, and what follows them. -/
def wordsWithin (blank : α → Bool) : (fuel limit : Nat) → List α → List (List α)
  | 0, _, _ => []
  | fuel + 1, limit, cs =>
    match cs.dropWhile blank with
    | [] => []
    | cs =>
      if limit = 0 then [cs]
      else cs.takeWhile (!blank ·) :: wordsWithin blank fuel (limit - 1) (cs.dropWhile (!blank ·))

def firstWords (blank : α → Bool) (limit : Nat) (cs : List α) : List (List α) :=
  wordsWithin blank (cs.length + 1) limit cs

/-- What precedes the last `limit` words, and these words. -/
def lastWords (blank : α → Bool) (limit : Nat) (cs : List α) : List (List α) :=
  ((firstWords blank limit cs.reverse).map List.reverse).reverse

/-- The lines of a text, with their ends if `keep`. A carriage return and a line feed are one end. -/
def lines (ends : Char → Bool) (keep : Bool) : List Char → List (List Char)
  | [] => []
  | '\r' :: '\n' :: cs => (if keep then ['\r', '\n'] else []) :: lines ends keep cs
  | c :: cs =>
    if ends c then (if keep then [c] else []) :: lines ends keep cs
    else match cs with
      | [] => [[c]]
      | _ => consFirst c (lines ends keep cs)

/-- Ends of lines: the controls and separators that begin a new one. -/
def endsLine (c : Char) : Bool :=
  (0xA ≤ c.toNat && c.toNat ≤ 0xD) || (0x1C ≤ c.toNat && c.toNat ≤ 0x1E) || c.toNat == 0x85 ||
    c.toNat == 0x2028 || c.toNat == 0x2029

/-- Removes the characters at both ends, or at one, that `drops` admits. -/
def stripWith (drops : α → Bool) (left right : Bool) (cs : List α) : List α :=
  let cs := if left then cs.dropWhile drops else cs
  if right then (cs.reverse.dropWhile drops).reverse else cs

/-- Tabulators become blanks up to the next multiple of `size`. -/
def expandTabs (size : Nat) : (column : Nat) → List Char → List Char
  | _, [] => []
  | column, c :: cs =>
    if c == '\t' then
      let width := if size = 0 then 0 else size - column % size
      List.replicate width ' ' ++ expandTabs size (column + width) cs
    else c :: expandTabs size (if c == '\n' || c == '\r' then 0 else column + 1) cs

/-- Where padding goes. -/
inductive Side where
  | left
  | right
  | both
  deriving DecidableEq

/-- Pads to a width; of an odd padding on both sides, the left gets more if the width is odd. -/
def padTo (side : Side) (fill : Char) (width : Nat) (cs : List Char) : List Char :=
  let missing := width - cs.length
  let left := match side with
    | .left => missing
    | .right => 0
    | .both => missing / 2 + missing % 2 * (width % 2)
  List.replicate left fill ++ cs ++ List.replicate (missing - left) fill

/-- Zeros between the sign and the digits. -/
def zeroFill (width : Nat) (cs : List Char) : List Char :=
  let zeros := List.replicate (width - cs.length) '0'
  match cs with
  | '+' :: ds => '+' :: zeros ++ ds
  | '-' :: ds => '-' :: zeros ++ ds
  | _ => zeros ++ cs

example : cutAt ['b'] 9 0 ['a', 'b', 'c', 'b'] = [['a'], ['c'], []] := by decide
example : replace [] ['-'] 9 ['a', 'b'] = ['-', 'a', '-', 'b', '-'] := by decide

end ReactiveScopes.Text
