import ReactiveScopes.Store.Attribute
import ReactiveScopes.Store.Display
import ReactiveScopes.Text.Digit

/-!
# Paths

A path names a place inside an object graph by segments: keys of mappings, positions in sequences,
public attributes of everything else. Reading is lenient: whatever is missing reads as `none`.
-/
namespace ReactiveScopes

/-- Cuts a text at its dots. -/
def cutAtDots : List Char → List (List Char)
  | [] => [[]]
  | c :: cs =>
    if c == '.' then [] :: cutAtDots cs
    else match cutAtDots cs with
      | [] => [[c]]
      | w :: ws => (c :: w) :: ws

/-- The segments of a dotted text. -/
def segments (path : String) : List String := (cutAtDots path.toList).map String.ofList

/-- A position written in a segment: from the front, or from the end if it is negative. -/
def position? (length : Nat) (segment : String) : Option Nat := do
  let i ← Text.readInt? segment.toList
  let i := if i < 0 then i + length else i
  if 0 ≤ i && i < length then some i.toNat else none

namespace Store

/-- The segments of any path: the items of a list or tuple, or what lies between the dots of its
text. -/
def segmentsOf (s : Store) (path : Value) : List String :=
  match s.sequence? path with
  | some items => items.map s.textOf
  | none => segments (s.textOf path)

/-- Attributes whose names start with an underscore are out of reach. -/
def isPrivate (name : String) : Bool := name.toList.head? == some '_'

/-- One step down. -/
def child (s : Store) (v : Value) (segment : String) : Except Fault Value :=
  match s.mapping? v, s.sequence? v with
  | some t, _ => .ok ((t.at? segment).getD .none)
  | none, some xs => .ok (((position? xs.length segment).bind (xs[·]?)).getD .none)
  | none, none =>
    if isPrivate segment then .ok .none
    else (s.attribute? v segment).map (·.getD .none)

/-- Reads along segments; nothing is below `none`. -/
def readAlong (s : Store) : Value → List String → Except Fault Value
  | v, [] => .ok v
  | .none, _ :: _ => .ok .none
  | v, p :: ps => do readAlong s (← s.child v p) ps

def getPath (s : Store) (v path : Value) : Except Fault Value :=
  match path with
  | .none => .ok .none
  | _ => s.readAlong v (s.segmentsOf path)

end Store

/-- Reads a path; a method that is found there is one of its own. -/
def Build.getPath (v path : Value) : Build Value := do
  Build.fresh (← Build.lift ((← Build.store).getPath v path))

theorem Build.getPath_fresh {s : Store} {v path x : Value} (found : s.getPath v path = .ok x) :
    Build.getPath v path s = Build.fresh x s := by
  unfold Build.getPath Build.lift
  change (do let a ← (s.getPath v path).map (·, s); Build.fresh a.1 a.2) = _
  rw [found]
  rfl

end ReactiveScopes
