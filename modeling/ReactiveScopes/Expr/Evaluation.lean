import ReactiveScopes.Expr.Source
import ReactiveScopes.Record.Mapping
import ReactiveScopes.Store.Arithmetic

/-!
# Evaluation

An expression reduces to a value against a state, capabilities and a publish function. An operator
application that the operation on its values rejects is `none`; what it did before stays done.
-/
namespace ReactiveScopes

/-- What an expression can reach. -/
structure Context where
  state : Value
  capabilities : Capabilities := {}
  pub : Value := .none

namespace Capabilities

open Eff

variable {κ : Type}

def stripDollars (name : String) : String :=
  String.ofList (name.toList.dropWhile (· == '$'))

/-- Capabilities from a mapping of `$`-names; an empty or missing one gives none. -/
def ofExtras : Extras → Eff κ Capabilities
  | .capabilities c => return c
  | .mapping v => do
    if !(← truthy v) then return {}
    else match (← store).mapping? v with
      | none => raise .noAttribute
      | some t =>
        let s ← store
        let named := Mapping.ofFields (t.entries.map fun (k, x) => (stripDollars (s.textOf k), x))
        let part (name : String) : Value := (named.at? name).getD .none
        let others := ["el", "event", "fetch"].foldl (fun m name => m.erase (.text name)) named
        return { el := part "el", event := part "event", fetch := part "fetch"
                 extra := some (← alloc (.dict others)) }

def lookup (s : Store) (c : Capabilities) (name : String) : Except Fault Value :=
  if name = "el" then .ok c.el
  else if name = "event" then .ok c.event
  else if name = "fetch" then .ok c.fetch
  else match c.extra with
    | none => .ok .none
    | some v =>
      match s.mapping? v with
      | some t => .ok ((t.at? name).getD .none)
      | none => .error .noAttribute

end Capabilities

/-- Kinds of strict equality: truth values are no numbers, whole numbers and doubles both are. -/
inductive StrictKind where
  | null
  | boolean
  | number
  | text
  | object
  deriving DecidableEq

def Value.strictKind : Value → StrictKind
  | .none => .null
  | .bool _ => .boolean
  | .int _ | .float _ | .nan _ => .number
  | .text _ | .constant _ => .text
  | _ => .object

/-- Equality without conversion between kinds; containers and objects are equal only to themselves. -/
def Store.strictEqual (s : Store) (a b : Value) : Except Fault Bool :=
  if a.strictKind ≠ b.strictKind then .ok false
  else if a.strictKind = .object then .ok (s.identical a b)
  else s.equal a b

/-- Whether a collection of class names holds a name. -/
def Store.holdsClass (s : Store) (classes name : Value) : Except Fault Bool :=
  let same := s.sameItem s.equal
  match classes.text?, s.look classes with
  | some t, _ =>
    Store.memberOf same name ((Text.words t.toList).map fun w => .text (String.ofList w))
  | _, some (.list xs) => Store.memberOf same name xs
  | _, some (.tuple xs) => Store.memberOf same name xs
  | _, some (.set xs) => do
    if s.isKey name || (s.look name matches some (.set _)) then Store.memberOf s.sameKey name xs
    else .error .unsupported
  | _, some (.bytes b) =>
    match s.look name, name.number? with
    | some (.bytes x), _ => .ok ((List.range (b.length + 1)).any fun i => x.isPrefixOf (b.drop i))
    | _, some (.int i) =>
      if 0 ≤ i && i < 256 then .ok (b.any fun x => x.toNat == i.toNat) else .error .invalid
    | _, _ => .error .unsupported
  | _, _ =>
    match s.mapping? classes with
    | some t => do return t.contains (← s.keyOf t name)
    | none => .error .unsupported

namespace Evaluation

open Eff

variable {κ : Type}

/-- Writes to whatever serves as state: a record, an object that brings its own way of writing, or a
plain container. -/
def writeState (state path v : Value) : Eff κ Unit := do
  let s ← store
  match s.record? state with
  | some (data, hook) => Record.setPath data hook path v
  | none =>
    match ← ofExcept (s.attribute? state "set_path") with
    | some f => do if f.isNone then Path.set state path v else let _ ← callValue f [path, v]
    | none => Path.set state path v

/-- The name between the dollar sign and the first dot, and the path behind that dot. -/
def splitCapability (path : String) : String × String :=
  let cs := path.toList
  (String.ofList ((cs.takeWhile (· != '.')).drop 1),
    String.ofList ((cs.dropWhile (· != '.')).drop 1))

/-- Reads a path: of a capability if it begins with a dollar sign, of the state otherwise. -/
def get (c : Context) (path : Value) : Eff κ Value := do
  let s ← store
  match path.text? with
  | some t =>
    if t.toList.head? == some '$' then
      let (name, rest) := splitCapability t
      let base ← ofExcept (c.capabilities.lookup s name)
      if rest = "" then return base else build (Build.getPath base (.text rest))
    else build (Build.getPath c.state path)
  | none => build (Build.getPath c.state path)

def set (c : Context) (path v : Value) : Eff κ Value := do
  writeState c.state path v
  return v

def toggle (c : Context) (path : Value) : Eff κ Value := do
  let s ← store
  let v := Value.bool !(s.truthy (← ofExcept (s.getPath c.state path)))
  writeState c.state path v
  return v

def publish (c : Context) (topic payload : Value) : Eff κ Value := do
  if c.pub.isNone then return .none
  else contain (callValue c.pub [topic, payload]) Fault.isError fun f => do
    notice (.pubFailed f)
    return .none

def fetch (c : Context) (url init : Value) : Eff κ Value := do
  if !c.capabilities.fetch.isCallable then return .none
  else contain (callValue c.capabilities.fetch [url, init]) Fault.isError fun f => do
    notice (.fetchFailed f)
    return .none

/-- The first collection of class names among the attributes of an element. -/
def classesOf (el : Value) : List String → Eff κ (Option Value)
  | [] => return none
  | name :: names => do
    match ← ofExcept ((← store).attribute? el name) with
    | some v => if v.isNone then classesOf el names else return some v
    | none => classesOf el names

/-- Asks the element, if it can answer, or looks through its classes. -/
def askClass (el name : Value) : Eff κ Bool := do
  let asked ← ofExcept ((← store).attribute? el "has_class")
  if asked.any Value.isCallable then truthy (← callValue (asked.getD .none) [name])
  else
    match ← classesOf el ["classes", "class_list"] with
    | some classes => do ofExcept ((← store).holdsClass classes name)
    | none => return false

def hasClass (el name : Value) : Eff κ Value := do
  if el.isNone then return .bool false
  else contain (do return .bool (← askClass el name)) Fault.isError fun f => do
    notice (.hasClassFailed f)
    return .bool false

/-- The binary operators that evaluate both operands. -/
def binary (op : Operator) (a b : Value) : Eff κ Value := do
  let s ← store
  let relation (r : Store.Relation) : Eff κ Value := do return .bool (← ofExcept (s.relate r a b))
  match op with
  | .mod => build (Arithmetic.mod a b)
  | .looseEq => return .bool (← ofExcept (s.equal a b))
  | .strictEq => return .bool (← ofExcept (s.strictEqual a b))
  | .ne => return .bool !(← ofExcept (s.equal a b))
  | .gt => relation .gt
  | .lt => relation .lt
  | .ge => relation .ge
  | .le => relation .le
  | _ => return .none

mutual

def eval (c : Context) : Expr → Eff κ Value
  | .literal v => return v
  | .invalid _ => return .none
  | .array items => do alloc (.list (← evalAll c items))
  | .object fields => do alloc (.dict (Mapping.ofFields (← evalFields c fields)))
  | .apply op args =>
    contain (apply c op args) Fault.isOperatorFault fun _ => do
      notice .operatorFailed
      return .none

def evalAll (c : Context) : List Expr → Eff κ (List Value)
  | [] => return []
  | e :: es => do
    let v ← eval c e
    return v :: (← evalAll c es)

def evalFields (c : Context) : List (String × Expr) → Eff κ (List (String × Value))
  | [] => return []
  | (k, e) :: fs => do
    let v ← eval c e
    return (k, v) :: (← evalFields c fs)

/-- Combines further operands into `acc`, from left to right. -/
def foldArgs (c : Context) (f : Value → Value → Build Value) (acc : Value) :
    List Expr → Eff κ Value
  | [] => return acc
  | e :: es => do
    let v ← eval c e
    foldArgs c f (← build (f acc v)) es

/-- Evaluates in order and answers the last value. -/
def evalLast (c : Context) (last : Value) : List Expr → Eff κ Value
  | [] => return last
  | e :: es => do evalLast c (← eval c e) es

/-- Applies an operator to operands it accepts; the last line is never reached. -/
def apply (c : Context) : Operator → List Expr → Eff κ Value
  | .add, [] => return .int 0
  | .mul, [] => return .int 1
  | .seq, [] => return .none
  | .sub, [a] => do build (Arithmetic.neg (← eval c a))
  | .not, [a] => do return .bool !(← truthy (← eval c a))
  | .get, [a] => do get c (← eval c a)
  | .toggle, [a] => do toggle c (← eval c a)
  | .pub, [a] => do publish c (← eval c a) .none
  | .fetch, [a] => do fetch c (← eval c a) .none
  | .hasClass, [a] => do hasClass c.capabilities.el (← eval c a)
  | .cond, [a, b, d] => do if ← truthy (← eval c a) then eval c b else eval c d
  | .seq, a :: es => do evalLast c (← eval c a) es
  | .add, a :: es => do foldArgs c Arithmetic.add (← eval c a) es
  | .mul, a :: es => do foldArgs c Arithmetic.mul (← eval c a) es
  | .sub, a :: es => do foldArgs c Arithmetic.sub (← eval c a) es
  | .div, a :: es => do foldArgs c Arithmetic.div (← eval c a) es
  | .and, [a, b] => do
    let v ← eval c a
    if ← truthy v then eval c b else return v
  | .or, [a, b] => do
    let v ← eval c a
    if ← truthy v then return v else eval c b
  | .set, [a, b] => do
    let path ← eval c a
    set c path (← eval c b)
  | .pub, [a, b] => do
    let topic ← eval c a
    publish c topic (← eval c b)
  | .fetch, [a, b] => do
    let url ← eval c a
    fetch c url (← eval c b)
  | .hasClass, [a, b] => do
    let name ← eval c a
    hasClass (← eval c b) name
  | op, [a, b] => do
    let v ← eval c a
    binary op v (← eval c b)
  | _, _ => return .none

end

end Evaluation

end ReactiveScopes
