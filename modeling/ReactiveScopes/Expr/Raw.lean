import ReactiveScopes.Json.Basic
import ReactiveScopes.Notice
import ReactiveScopes.Store.Display

/-!
# Raw expressions

Expressions as they are written: scalars, lists headed by an operator, lists of items, and objects. A
list whose head is a text but no operator keeps its operands only. Compiling classifies every part once;
what is malformed becomes an invalid node, with a notice, and never fails.
-/
namespace ReactiveScopes

inductive Raw where
  | scalar (v : Value)
  | list (items : List Raw)
  | object (fields : List (String × Raw))
  | compiled (e : Expr)
  /-- Anything else, with what it is called. -/
  | foreign (kind : String)

namespace Raw

mutual

/-- What a JSON value writes. -/
def ofJson : Json → Raw
  | .null => .scalar .none
  | .bool b => .scalar (.bool b)
  | .int i => .scalar (.int i)
  | .float x => .scalar (.ofFloat x)
  | .str s => .scalar (.text s)
  | .arr items => .list (ofItems items)
  | .obj fields => .object (ofFields fields)

def ofItems : List Json → List Raw
  | [] => []
  | j :: js => ofJson j :: ofItems js

def ofFields : List (String × Json) → List (String × Raw)
  | [] => []
  | (k, j) :: fs => (k, ofJson j) :: ofFields fs

end

/-- The expression that a value is; the depth of the store bounds all but cyclic ones. -/
def ofValueWithin (s : Store) : (fuel : Nat) → Value → Raw
  | 0, _ => .foreign "object"
  | fuel + 1, v =>
    match v with
    | .none => .scalar v
    | .bool _ => .scalar v
    | .int _ => .scalar v
    | .float _ => .scalar v
    | .nan _ => .scalar v
    | .text _ => .scalar v
    | .constant _ => .scalar v
    | _ =>
      match s.look v with
      | some (.list xs) => .list (xs.map (ofValueWithin s fuel))
      | some (.tuple xs) => .list (xs.map (ofValueWithin s fuel))
      | some (.dict t) => .object (t.entries.map fun (k, x) => (s.textOf k, ofValueWithin s fuel x))
      | some (.expr e _) => .compiled e
      | _ => .foreign (s.kindName v)

def ofValue (s : Store) (v : Value) : Raw := ofValueWithin s s.depth v

/-- The text at the head of a list that may name an operator. -/
def word? : Raw → Option String
  | .scalar v => v.text?
  | _ => none

/-- How many operands an operator takes, in words. -/
def arityText (op : Operator) : String :=
  let most := (op.arity.2.map toString).getD "n"
  s!"{op.symbol} takes {op.arity.1}..{most} operands"

mutual

/-- The expression and the notices that classifying it gives rise to. -/
def compile : Raw → Expr × List Notice
  | .scalar v => (.literal v, [])
  | .compiled e => (e, [])
  | .foreign kind => (.invalid s!"unsupported node {kind}", [.unsupportedNode])
  | .object fields =>
    let (fs, ns) := compileFields fields
    (.object fs, ns)
  | .list [] => (.array [], [])
  | .list (head :: rest) =>
    let (es, ns) := compileAll rest
    match head.word? with
    | some h =>
      match Operator.ofSymbol? h with
      | none => (.array es, ns)
      | some op =>
        if op.accepts rest.length then (.apply op es, ns)
        else (.invalid (arityText op), [.badArity])
    | none =>
      let (e, ms) := compile head
      (.array (e :: es), ms ++ ns)

def compileAll : List Raw → List Expr × List Notice
  | [] => ([], [])
  | r :: rs =>
    let (e, ns) := compile r
    let (es, ms) := compileAll rs
    (e :: es, ns ++ ms)

def compileFields : List (String × Raw) → List (String × Expr) × List Notice
  | [] => ([], [])
  | (k, r) :: rs =>
    let (e, ns) := compile r
    let (es, ms) := compileFields rs
    ((k, e) :: es, ns ++ ms)

end

end Raw

end ReactiveScopes
