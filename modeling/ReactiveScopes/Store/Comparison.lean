import ReactiveScopes.Number.Binary64
import ReactiveScopes.Store.Attribute

/-!
# Identity, equality and order

Numbers compare exactly, texts by code point, sequences item by item. Items that are the same object
count as equal without being compared. Keys and members of sets are looked up by hash, and an object
hashes by its identity, so there an object that refuses to be compared is never asked. The recursion is
bounded by the depth of the store, which only a cyclic structure can exceed.
-/
namespace ReactiveScopes

namespace Number

/-- `none` if one of them is not a number. -/
def compare? : Number → Number → Option Ordering
  | int a, int b => some (compare a b)
  | int a, float y =>
    match parts? y with
    | some q => some (q.compareInt a).swap
    | none => if y.isNaN then Option.none else some (if y < 0.0 then .gt else .lt)
  | float x, int b =>
    match parts? x with
    | some p => some (p.compareInt b)
    | none => if x.isNaN then Option.none else some (if x < 0.0 then .lt else .gt)
  | float x, float y =>
    if x < y then some .lt else if y < x then some .gt else if x == y then some .eq else Option.none

end Number

namespace Store

/-- Being the same object. There is one empty tuple and one value for every byte string of at most one
byte. -/
def identical (s : Store) (a b : Value) : Bool :=
  match a, b with
  | .ref _, .ref _ =>
    a == b || match s.look a, s.look b with
      | some (.tuple []), some (.tuple []) => true
      | some (.bytes x), some (.bytes y) => x == y && x.length ≤ 1
      | _, _ => false
  | _, _ => a == b

theorem identical_self (s : Store) (v : Value) : s.identical v v = true := by
  unfold identical
  split <;> simp

/-- Equal or the same, for items of a container. -/
def sameItem (s : Store) (eq : Value → Value → Except Fault Bool) (a b : Value) : Except Fault Bool :=
  if s.identical a b then .ok true else eq a b

/-- How far two sequences agree: what is left of each from the first items that differ. -/
def skipEqual (same : Value → Value → Except Fault Bool) :
    List Value → List Value → Except Fault (List Value × List Value)
  | a :: as, b :: bs => do if ← same a b then skipEqual same as bs else .ok (a :: as, b :: bs)
  | as, bs => .ok (as, bs)

/-- The first of some keys that is equal to a value. -/
def findKey (same : Value → Value → Except Fault Bool) (x : Value) :
    List Value → Except Fault (Option Value)
  | [] => .ok none
  | k :: ks => do if ← same k x then .ok (some k) else findKey same x ks

/-- The key under which a mapping holds what is stored under `x`: the equal one that it has, or else
`x` itself. Texts are compared without looking at the other keys. -/
def keyWithin (same : Value → Value → Except Fault Bool) (m : Mapping) (x : Value) :
    Except Fault Value :=
  match x.text? with
  | some t => .ok (.text t)
  | none => do return ((← findKey same x m.keys).getD x)

/-- Every entry of the first has an equal one in the second. -/
def fieldsAgree (sameKey same : Value → Value → Except Fault Bool) (m : Mapping) :
    List (Value × Value) → Except Fault Bool
  | [] => .ok true
  | (k, v) :: rest => do
    match m.get? (← keyWithin sameKey m k) with
    | none => .ok false
    | some w => if ← same v w then fieldsAgree sameKey same m rest else .ok false

def memberOf (same : Value → Value → Except Fault Bool) (x : Value) :
    List Value → Except Fault Bool
  | [] => .ok false
  | y :: ys => do if ← same y x then .ok true else memberOf same x ys

def allMembers (same : Value → Value → Except Fault Bool) (ys : List Value) :
    List Value → Except Fault Bool
  | [] => .ok true
  | x :: xs => do if ← memberOf same x ys then allMembers same ys xs else .ok false

/-- An object that refuses to be compared, on either side. -/
def refusal? (s : Store) (a b : Value) : Option Fault :=
  let of (v : Value) : Option Fault :=
    match s.look v with
    | some (.object o) => o.comparison
    | _ => none
  (of a).or (of b)

/-- Being the same thing, or the same method of the same thing. -/
def sameMethod (s : Store) (a b : Value) : Bool :=
  match a, b with
  | .method x m _, .method y n _ => m == n && s.identical x y
  | _, _ => a == b

/-- What a comparison is for: to answer whether two values are equal, or to find a key. -/
inductive Purpose where
  | values
  | keys
  deriving DecidableEq

/-- Deep equality. In search of a key, objects go by their identity alone. -/
def equalWithin (s : Store) : (fuel : Nat) → Purpose → Value → Value → Except Fault Bool
  | 0, _, _, _ => .error .tooDeep
  | fuel + 1, purpose, a, b =>
    let same := s.sameItem (equalWithin s fuel purpose)
    let sameKey := s.sameItem (equalWithin s fuel .keys)
    match if purpose = .keys then none else s.refusal? a b with
    | some f => .error f
    | none =>
      match a.number?, b.number?, a.text?, b.text? with
      | some x, some y, _, _ => .ok (x.compare? y == some .eq)
      | _, _, some x, some y => .ok (x == y)
      | _, _, _, _ =>
        match s.look a, s.look b with
        | some (.list xs), some (.list ys) =>
          if xs.length != ys.length then .ok false
          else do
            let (l, r) ← skipEqual same xs ys
            .ok (l.isEmpty && r.isEmpty)
        | some (.tuple xs), some (.tuple ys) => do
          let (l, r) ← skipEqual same xs ys
          .ok (l.isEmpty && r.isEmpty)
        | some (.set xs), some (.set ys) =>
          if xs.length != ys.length then .ok false else allMembers sameKey ys xs
        | some (.bytes x), some (.bytes y) => .ok (x == y)
        | some (.context c), some (.context d) => do
          let (l, r) ← skipEqual same [c.scope, c.event, c.path, c.engine]
            [d.scope, d.event, d.path, d.engine]
          .ok (l.isEmpty && r.isEmpty)
        | some (.expr d xs), some (.expr e ys) =>
          if d.form.1 != e.form.1 then .ok false
          else do
            let (l, r) ← skipEqual same xs ys
            .ok (l.isEmpty && r.isEmpty)
        | _, _ =>
          match s.mapping? a, s.mapping? b with
          | some t, some u =>
            if t.size != u.size then .ok false else fieldsAgree sameKey same u t.entries
          | _, _ => .ok (s.sameMethod a b)

def equal (s : Store) (a b : Value) : Except Fault Bool := s.equalWithin s.depth .values a b

/-- Being the same key, or the same member of a set. -/
def sameKey (s : Store) : Value → Value → Except Fault Bool :=
  s.sameItem (s.equalWithin s.depth .keys)

/-- Whether a value can be a key or a member of a set. What can change cannot, nor what it is part
of. -/
def isKeyWithin (s : Store) : (fuel : Nat) → Value → Bool
  | 0, _ => false
  | fuel + 1, v =>
    match s.look v with
    | some (.list _) => false
    | some (.dict _) => false
    | some (.set _) => false
    | some (.record _ _) => false
    | some (.tuple xs) => xs.all (isKeyWithin s fuel)
    | some (.context c) => [c.scope, c.event, c.path, c.engine].all (isKeyWithin s fuel)
    | some (.expr _ parts) => parts.all (isKeyWithin s fuel)
    | some (.face .config _ members) => members.values.all (isKeyWithin s fuel)
    | _ => true

def isKey (s : Store) (v : Value) : Bool := s.isKeyWithin s.depth v

/-- The key under which a mapping holds what is stored under a value. -/
def keyOf (s : Store) (m : Mapping) (x : Value) : Except Fault Value :=
  if s.isKey x then keyWithin s.sameKey m x else .error .unsupported

/-- A text is its own key. -/
theorem keyOf_text (s : Store) (m : Mapping) (p : String) : s.keyOf m (.text p) = .ok (.text p) := by
  simp [keyOf, isKey, depth, isKeyWithin, look, keyWithin, Value.text?]

/-- The mapping that some pairs give, one after another. -/
def mappingOf (s : Store) (pairs : List (Value × Value)) : Except Fault Mapping :=
  pairs.foldlM (fun m (k, v) => do return m.insert (← s.keyOf m k) v) .empty

/-- The four order relations. -/
inductive Relation where
  | lt
  | le
  | gt
  | ge
  deriving DecidableEq

def Relation.holds : Relation → Ordering → Bool
  | lt, o => o == .lt
  | le, o => o != .gt
  | gt, o => o == .gt
  | ge, o => o != .lt

def compareText (a b : String) : Ordering :=
  if a < b then .lt else if a = b then .eq else .gt

def compareBytes (a b : List UInt8) : Ordering :=
  if a < b then .lt else if a = b then .eq else .gt

/-- Order. Sequences are ordered by their first items that differ, then by length; sets by
inclusion. -/
def relateWithin (s : Store) (rel : Relation) : (fuel : Nat) → Value → Value → Except Fault Bool
  | 0, _, _ => .error .tooDeep
  | fuel + 1, a, b =>
    let same := s.sameItem s.equal
    let items (xs ys : List Value) : Except Fault Bool := do
      match ← skipEqual same xs ys with
      | (x :: _, y :: _) => relateWithin s rel fuel x y
      | (l, r) => .ok (rel.holds (compare l.length r.length))
    match a.number?, b.number? with
    | some x, some y => .ok ((x.compare? y).any rel.holds)
    | _, _ =>
      match a.text?, b.text? with
      | some x, some y => .ok (rel.holds (compareText x y))
      | _, _ =>
        match s.look a, s.look b with
        | some (.list xs), some (.list ys) => items xs ys
        | some (.tuple xs), some (.tuple ys) => items xs ys
        | some (.bytes x), some (.bytes y) => .ok (rel.holds (compareBytes x y))
        | some (.set xs), some (.set ys) =>
          match rel with
          | .le => allMembers s.sameKey ys xs
          | .ge => allMembers s.sameKey xs ys
          | .lt => do .ok (xs.length < ys.length && (← allMembers s.sameKey ys xs))
          | .gt => do .ok (ys.length < xs.length && (← allMembers s.sameKey xs ys))
        | _, _ => .error .unsupported

def relate (s : Store) (rel : Relation) (a b : Value) : Except Fault Bool :=
  s.relateWithin rel s.depth a b

end Store

end ReactiveScopes
