import ReactiveScopes.Expr.Basic
import ReactiveScopes.Fault
import ReactiveScopes.Table

/-!
# The store

The object graph that states, expressions and client code share. Cells are only ever added, so a
reference stays good; sharing and cycles are ordinary.
-/
namespace ReactiveScopes

/-- Who is told that a record was written. -/
inductive Hook where
  | none
  | fn (f : Fn)
  /-- Requests a pass of the engine's scheduler for a scope. -/
  | schedule (engine : Nat) (scope : Value)
  deriving DecidableEq

/-- An object of the client: a thing with attributes. Reading an attribute may raise, comparing the
object may raise, and methods are attributes that belong to its kind. -/
structure Object where
  name : String
  kind : String := "Obj"
  attributes : Table String Value := .empty
  methods : Table String Value := .empty
  raising : Table String Fault := .empty
  comparison : Option Fault := none

/-- What a handler is told about its invocation. -/
structure HandlerContext where
  scope : Value
  event : Value
  path : Value
  engine : Value
  deriving DecidableEq

/-- The entries of a dictionary. Keys are texts as a rule; of other keys that are equal only one occurs,
and a constant is a key as the text it reads as. -/
abbrev Mapping := Table Value Value

/-- The value under a text. -/
def Mapping.at? (m : Mapping) (key : String) : Option Value := m.get? (.text key)

def Mapping.ofFields (fields : List (String × Value)) : Mapping :=
  Table.ofList (fields.map fun (k, v) => (.text k, v))

/-- What client code can see of an engine. -/
inductive Part where
  | engine
  | scheduler
  | queue
  | config
  deriving DecidableEq, Repr

/-- How far a coroutine has come. -/
inductive Stage where
  | fresh
  | suspended
  | running
  | ended
  deriving DecidableEq, Repr

/-- What can be awaited: a coroutine, or a task of an event loop. -/
inductive Awaitable where
  | coroutine (stage : Stage)
  | task
  deriving DecidableEq, Repr

inductive Cell where
  | list (items : List Value)
  | dict (fields : Mapping)
  | tuple (items : List Value)
  | set (items : List Value)
  | bytes (b : List UInt8)
  /-- A reactive record: its data are a dictionary cell of their own. -/
  | record (data : Ref) (hook : Hook)
  | object (o : Object)
  | context (c : HandlerContext)
  /-- A compiled expression, and what can be read from it: its parts are cells of their own. -/
  | expr (e : Expr) (parts : List Value)
  /-- A part of an engine, with what can be read from it. -/
  | face (part : Part) (engine : Nat) (members : Table String Value)
  /-- A fault that client code got hold of. -/
  | fault (f : Fault)

/-- `marks` counts the not-a-numbers and methods made so far; mark 0 is the not-a-number written in
texts. Attributes that client code has set on values other than its objects are kept beside the cells,
and so is what kind of thing each promise is. -/
structure Store where
  cells : Array Cell := #[]
  marks : Nat := 1
  attached : Table Value (Table String Value) := .empty
  awaitables : Array Awaitable := #[]

/-- Operations that may add to the store or fail; failing leaves it as it was. -/
abbrev Build := StateT Store (Except Fault)

namespace Store

instance : Inhabited Store := ⟨{}⟩

def cell? (s : Store) (r : Ref) : Option Cell := s.cells[r.index]?

/-- The cell that a value refers to. -/
def look (s : Store) : Value → Option Cell
  | .ref r => s.cell? r
  | _ => none

def alloc (s : Store) (c : Cell) : Ref × Store :=
  (⟨s.cells.size⟩, { s with cells := s.cells.push c })

def put (s : Store) (r : Ref) (c : Cell) : Store :=
  { s with cells := s.cells.setIfInBounds r.index c }

/-- More than the length of any path without repetition. -/
def depth (s : Store) : Nat := s.cells.size + 1

/-- The entries of a mapping: a dictionary, or the data of a record. -/
def mapping? (s : Store) (v : Value) : Option Mapping :=
  match s.look v with
  | some (.dict t) => some t
  | some (.record data _) =>
    match s.cell? data with
    | some (.dict t) => some t
    | _ => none
  | _ => none

/-- The items of a list or tuple. -/
def sequence? (s : Store) (v : Value) : Option (List Value) :=
  match s.look v with
  | some (.list xs) => some xs
  | some (.tuple xs) => some xs
  | _ => none

/-- What iterating a value yields, in order; a mapping yields its keys. -/
def iterate (s : Store) (v : Value) : Except Fault (List Value) :=
  match v.text?, s.look v with
  | some t, _ => .ok (t.toList.map fun c => .text (String.singleton c))
  | _, some (.list xs) => .ok xs
  | _, some (.tuple xs) => .ok xs
  | _, some (.set xs) => .ok xs
  | _, some (.bytes b) => .ok (b.map fun x => .int x.toNat)
  | _, _ =>
    match s.mapping? v with
    | some t => .ok t.keys
    | none => .error .unsupported

def record? (s : Store) (v : Value) : Option (Ref × Hook) :=
  match s.look v with
  | some (.record data hook) => some (data, hook)
  | _ => none

def truthy (s : Store) (v : Value) : Bool :=
  match v with
  | .none => false
  | .bool b => b
  | .int i => i != 0
  | .float x => !(x == 0.0)
  | .text t => t != ""
  | .constant c => c.text != ""
  | .ref _ =>
    match s.look v with
    | some (.list xs) => !xs.isEmpty
    | some (.tuple xs) => !xs.isEmpty
    | some (.set xs) => !xs.isEmpty
    | some (.bytes b) => !b.isEmpty
    | some (.dict t) => !t.isEmpty
    | some (.record _ _) => (s.mapping? v).any fun t => !t.isEmpty
    | _ => true
  | _ => true

theorem cell?_alloc_old {s : Store} {c : Cell} {r : Ref} (h : r.index < s.cells.size) :
    (s.alloc c).2.cell? r = s.cell? r := by
  simp [alloc, cell?, Array.getElem?_push, Nat.ne_of_lt h]

theorem cell?_alloc_new {s : Store} {c : Cell} : (s.alloc c).2.cell? (s.alloc c).1 = some c := by
  simp [alloc, cell?]

theorem cell?_put {s : Store} {c : Cell} {r x : Ref} (h : r.index < s.cells.size) :
    (s.put r c).cell? x = if r = x then some c else s.cell? x := by
  simp only [put, cell?, Array.getElem?_setIfInBounds]
  by_cases hx : r = x
  · simp [← hx, h]
  · have : r.index ≠ x.index := fun e => hx (by cases r; cases x; simp_all)
    simp [hx, this]

theorem put_self {s : Store} {r : Ref} {c : Cell} (h : s.cell? r = some c) : s.put r c = s := by
  have same : s.cells.setIfInBounds r.index c = s.cells := by
    refine Array.ext_getElem? fun i => ?_
    rw [Array.getElem?_setIfInBounds]
    split
    · next hi =>
      subst hi
      rw [if_pos (Array.getElem?_eq_some_iff.1 h).1]
      exact h.symm
    · rfl
  rw [put, same]

theorem look_of_record? {s : Store} {record : Value} {data : Ref} {hook : Hook}
    (h : s.record? record = some (data, hook)) : ∃ r, record = .ref r ∧ s.cell? r = some (.record data hook) := by
  unfold record? at h
  split at h
  · next hl =>
    cases h
    cases record <;> simp only [look, reduceCtorEq] at hl
    exact ⟨_, rfl, hl⟩
  · cases h

/-- A mapping that is no record is a dictionary. -/
theorem cell?_of_mapping? {s : Store} {r : Ref} {t : Mapping} (h : s.mapping? (.ref r) = some t)
    (plain : s.record? (.ref r) = none) : s.cell? r = some (.dict t) := by
  unfold mapping? look at h
  unfold record? look at plain
  split at h
  · next hc =>
    cases h
    exact hc
  · next hc =>
    rw [hc] at plain
    cases plain
  · cases h

end Store

namespace Build

def alloc (c : Cell) : Build Value := fun s =>
  let (r, s) := s.alloc c
  .ok (.ref r, s)

def list (items : List Value) : Build Value := alloc (.list items)

def dict (fields : Mapping) : Build Value := alloc (.dict fields)

def tuple (items : List Value) : Build Value := alloc (.tuple items)

def bytes (b : List UInt8) : Build Value := alloc (.bytes b)

/-- The value of a computed double: every not-a-number gets a mark of its own. -/
def float (x : Float) : Build Value := fun s =>
  if x.isNaN then .ok (.nan s.marks, { s with marks := s.marks + 1 }) else .ok (.float x, s)

/-- What is read anew: a method that was just made gets a mark of its own. Only `maketrans` is there
once and for all. -/
def fresh (v : Value) : Build Value := fun s =>
  match v with
  | .method owner name 0 =>
    if name == "maketrans" then .ok (v, s)
    else .ok (.method owner name s.marks, { s with marks := s.marks + 1 })
  | _ => .ok (v, s)

def store : Build Store := get

def fail {α : Type} (f : Fault) : Build α := fun _ => .error f

def lift {α : Type} (r : Except Fault α) : Build α := fun s => r.map (·, s)

end Build

end ReactiveScopes
