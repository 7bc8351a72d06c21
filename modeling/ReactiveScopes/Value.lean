/-!
# Values

Scalars are values of their own; everything that can be shared or changed is a reference to a cell of
the store, so a value never contains another one. Callables, scope owners and promises are known by
name or number alone.
-/
namespace ReactiveScopes

/-- The address of a cell. -/
structure Ref where
  index : Nat
  deriving DecidableEq, Repr

/-- A callable of the client, or one made by the library during the session. -/
inductive Fn where
  | client (name : String)
  | made (index : Nat)
  deriving DecidableEq, Repr

/-- A named constant of the library that reads as a text wherever a text is wanted. -/
structure Constant where
  family : String
  name : String
  text : String
  deriving DecidableEq, Repr

/-- A not-a-number carries a mark: it differs from every number, itself included, but a list still
recognises the same one. `float` holds all other doubles. A method carries a mark as well, since it
is made anew each time it is read. -/
inductive Value where
  | none
  | bool (b : Bool)
  | int (i : Int)
  | float (x : Float)
  | nan (mark : Nat)
  | text (s : String)
  | constant (c : Constant)
  | ref (r : Ref)
  | fn (f : Fn)
  /-- A method of a value, bound to it. -/
  | method (owner : Value) (name : String) (mark : Nat)
  | scope (name : String)
  | promise (index : Nat)
  /-- A thing that shows nothing but its kind. -/
  | sealed (kind : String) (number : Nat)
  deriving DecidableEq

instance : Inhabited Value := ⟨.none⟩

namespace Value

/-- The mark of every not-a-number that was read from text. -/
def writtenNan : Value := nan 0

/-- A double that was read from text. -/
def ofFloat (x : Float) : Value := if x.isNaN then writtenNan else float x

def isNone : Value → Bool
  | none => true
  | _ => false

def isCallable : Value → Bool
  | fn _ => true
  | method _ _ _ => true
  | _ => false

def isAwaitable : Value → Bool
  | promise _ => true
  | sealed kind _ => kind == "coroutine"
  | _ => false

/-- The text that a value is, if it is one. -/
def text? : Value → Option String
  | text t => some t
  | constant c => some c.text
  | _ => Option.none

/-- A method without its mark, for whoever does not tell two readings of it apart. -/
def unmarked : Value → Value
  | method owner name _ => method owner name 0
  | v => v

end Value

/-- A number as arithmetic sees it; truth values are the whole numbers 0 and 1. -/
inductive Number where
  | int (i : Int)
  | float (x : Float)

def Value.number? : Value → Option Number
  | .bool b => some (.int (if b then 1 else 0))
  | .int i => some (.int i)
  | .float x => some (.float x)
  | .nan _ => some (.float (0.0 / 0.0))
  | _ => Option.none

end ReactiveScopes
