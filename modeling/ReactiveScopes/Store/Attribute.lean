import ReactiveScopes.Reentrancy
import ReactiveScopes.Store.Basic

/-!
# Attributes

What a path segment finds on a value that is neither a mapping nor a sequence. Numbers have the parts
of a complex number and of a fraction, coroutines show how far they have come, and what a handler is
told leads to the engine; the other public members of built-in values are methods.
-/
namespace ReactiveScopes

/-- Methods of whole numbers and truth values. -/
def wholeMethods : List String :=
  ["as_integer_ratio", "bit_count", "bit_length", "conjugate", "from_bytes", "to_bytes"]

def doubleMethods : List String :=
  ["as_integer_ratio", "conjugate", "fromhex", "hex", "is_integer"]

def textMethods : List String :=
  ["capitalize", "casefold", "center", "count", "encode", "endswith", "expandtabs", "find",
   "format", "format_map", "index", "isalnum", "isalpha", "isascii", "isdecimal", "isdigit",
   "isidentifier", "islower", "isnumeric", "isprintable", "isspace", "istitle", "isupper",
   "join", "ljust", "lower", "lstrip", "maketrans", "partition", "removeprefix", "removesuffix",
   "replace", "rfind", "rindex", "rjust", "rpartition", "rsplit", "rstrip", "split",
   "splitlines", "startswith", "strip", "swapcase", "title", "translate", "upper", "zfill"]

def bytesMethods : List String :=
  ["capitalize", "center", "count", "decode", "endswith", "expandtabs", "find", "fromhex", "hex",
   "index", "isalnum", "isalpha", "isascii", "isdigit", "islower", "isspace", "istitle",
   "isupper", "join", "ljust", "lower", "lstrip", "maketrans", "partition", "removeprefix",
   "removesuffix", "replace", "rfind", "rindex", "rjust", "rpartition", "rsplit", "rstrip",
   "split", "splitlines", "startswith", "strip", "swapcase", "title", "translate", "upper",
   "zfill"]

def setMethods : List String :=
  ["add", "clear", "copy", "difference", "difference_update", "discard", "intersection",
   "intersection_update", "isdisjoint", "issubset", "issuperset", "pop", "remove",
   "symmetric_difference", "symmetric_difference_update", "union", "update"]

def coroutineMethods : List String := ["close", "send", "throw"]

def taskMethods : List String :=
  ["add_done_callback", "cancel", "cancelled", "cancelling", "done", "exception", "get_coro",
   "get_loop", "get_name", "get_stack", "print_stack", "remove_done_callback", "result",
   "set_exception", "set_name", "set_result", "uncancel"]

/-- Methods that belong to a kind of values and not to one of them. -/
def sharedMethods : List String := ["from_bytes", "fromhex", "maketrans"]

/-- What the methods of a kind of values that belong to none of them are bound to. -/
def kindOwner (kind : String) : Value := .sealed kind 0

/-- The method of that name, bound to `owner` or to all values of its kind. -/
def methodIn (names : List String) (kind : String) (owner : Value) (name : String) : Option Value :=
  if !names.contains name then none
  else some (.method (if sharedMethods.contains name then kindOwner kind else owner) name 0)

def wholeMember (kind : String) (v : Value) (i : Int) (name : String) : Option Value :=
  if name = "real" || name = "numerator" then some (.int i)
  else if name = "imag" then some (.int 0)
  else if name = "denominator" then some (.int 1)
  else methodIn wholeMethods kind v name

def doubleMember (v : Value) (name : String) : Option Value :=
  if name = "real" then some v
  else if name = "imag" then some (.float 0.0)
  else methodIn doubleMethods "float" v name

namespace Constant

/-- All constants of the same family. -/
def siblings (c : Constant) : List Constant :=
  (Operator.all.map Operator.constant ++ [Reentrancy.skip.constant, Reentrancy.defer.constant]).filter
    (·.family == c.family)

/-- What a constant shows of itself. -/
def member (c : Constant) (name : String) : Option Value :=
  if name = "name" then some (.text c.name)
  else if name = "value" then some (.text c.text)
  else none

/-- A constant leads to the others of its family. -/
def sibling? (c : Constant) (name : String) : Option Value :=
  (c.siblings.find? (·.name == name)).map .constant

end Constant

def HandlerContext.member (c : HandlerContext) (name : String) : Option Value :=
  if name = "scope" then some c.scope
  else if name = "event" then some c.event
  else if name = "path" then some c.path
  else if name = "engine" then some c.engine
  else none

/-- What a coroutine shows of its progress. -/
def coroutineMember (n : Nat) (stage : Stage) (name : String) : Option Value :=
  if name = "cr_running" then some (.bool (stage = .running))
  else if name = "cr_suspended" then some (.bool (stage = .suspended))
  else if name = "cr_origin" then some .none
  else if name = "cr_code" then some (.sealed "code" n)
  else if name = "cr_frame" then some (if stage = .ended then .none else .sealed "frame" n)
  else if name = "cr_await" then
    some (if stage = .suspended || stage = .running then .sealed "coroutine" n else .none)
  else methodIn coroutineMethods "coroutine" (.promise n) name

namespace Expr

/-- What a compiled expression is called, and the names of its parts. -/
def form : Expr → String × List String
  | literal _ => ("Literal", ["value"])
  | apply _ _ => ("Apply", ["op", "args"])
  | array _ => ("ArrayLiteral", ["items"])
  | object _ => ("ObjectLiteral", ["fields"])
  | invalid _ => ("Invalid", ["reason"])

def part? (e : Expr) (parts : List Value) (name : String) : Option Value :=
  (e.form.2.zip parts).lookup name

end Expr

namespace Part

def name : Part → String
  | engine => "ReactiveEngine"
  | scheduler => "Scheduler"
  | queue => "MicrotaskQueue"
  | config => "ReactiveConfig"

def methods : Part → List String
  | engine =>
    ["attach_pub", "destroy_scope", "dispatch", "evaluate", "flush", "get_config", "get_state",
     "handle", "has_scope", "init_scope", "invoke_handler", "register_handler", "set_state", "tick",
     "watch"]
  | scheduler =>
    ["add_watcher", "drop", "flush", "is_pending", "notify", "pending_count", "request",
     "watcher_count"]
  | queue => ["post", "run_pending"]
  | config => []

end Part

namespace Object

/-- Reads an attribute: its own first, then those of its kind. -/
def read? (o : Object) (self : Value) (name : String) : Except Fault (Option Value) :=
  match o.raising.get? name with
  | some f => if f.kind = .attribute then .ok none else .error f
  | none => .ok ((o.attributes.get? name).or (methodIn o.methods.keys o.kind self name))

end Object

namespace Store

/-- What a value is an instance of. -/
def kindName (s : Store) (v : Value) : String :=
  match v with
  | .none => "NoneType"
  | .bool _ => "bool"
  | .int _ => "int"
  | .float _ | .nan _ => "float"
  | .text _ => "str"
  | .constant c => c.family
  | .fn _ => "function"
  | .method (.ref r) _ _ =>
    match s.cell? r with
    | some (.object _) => "method"
    | some (.face _ _ _) => "method"
    | _ => "builtin_function_or_method"
  | .method _ _ _ => "builtin_function_or_method"
  | .scope _ => "Scope"
  | .promise n => if s.awaitables[n]? = some .task then "Task" else "coroutine"
  | .sealed kind _ => kind
  | .ref r =>
    match s.cell? r with
    | some (.list _) => "list"
    | some (.dict _) => "dict"
    | some (.tuple _) => "tuple"
    | some (.set _) => "set"
    | some (.bytes _) => "bytes"
    | some (.record _ _) => "ReactiveState"
    | some (.object o) => o.kind
    | some (.context _) => "HandlerContext"
    | some (.expr e _) => e.form.1
    | some (.face part _ _) => part.name
    | some (.fault _) => "Exception"
    | none => "object"

/-- An attribute that client code has set on a value that is none of its objects. -/
def attachedTo (s : Store) (v : Value) (name : String) : Option Value :=
  (s.attached.get? v).bind (·.get? name)

/-- The attribute of a value, if it has one of that name. -/
def attribute? (s : Store) (v : Value) (name : String) : Except Fault (Option Value) :=
  match v with
  | .none => .ok none
  | .bool b => .ok (wholeMember "bool" v (if b then 1 else 0) name)
  | .int i => .ok (wholeMember "int" v i name)
  | .float _ => .ok (doubleMember v name)
  | .nan _ => .ok (doubleMember v name)
  | .text _ => .ok (methodIn textMethods "str" v name)
  | .constant c =>
    .ok ((c.member name).or ((s.attachedTo v name).or
      ((c.sibling? name).or (methodIn textMethods "str" v name))))
  | .fn _ => .ok (s.attachedTo v name)
  | .method _ _ _ => .ok none
  | .scope _ => .ok (s.attachedTo v name)
  | .sealed _ _ => .ok none
  | .promise n =>
    match s.awaitables[n]? with
    | some (.coroutine stage) => .ok (coroutineMember n stage name)
    | some .task => .ok ((s.attachedTo v name).or (methodIn taskMethods "Task" v name))
    | none => .ok none
  | .ref r =>
    match s.cell? r with
    | some (.bytes _) => .ok (methodIn bytesMethods "bytes" v name)
    | some (.set _) => .ok (methodIn setMethods "set" v name)
    | some (.object o) => o.read? v name
    | some (.context c) => .ok (c.member name)
    | some (.expr e parts) => .ok (e.part? parts name)
    | some (.face part _ members) =>
      .ok ((members.get? name).or
        ((s.attachedTo v name).or (methodIn part.methods part.name v name)))
    | _ => .ok none

/-- Sets an attribute on a value that keeps such attributes beside it. -/
def attach (s : Store) (v : Value) (name : String) (x : Value) : Store :=
  let own := (s.attached.get? v).getD .empty
  { s with attached := s.attached.insert v (own.insert name x) }

/-- Sets an attribute. Objects of the client take one unless reading it raises; built-in values and
what is fixed once and for all do not. -/
def setAttribute (s : Store) (v : Value) (name : String) (x : Value) : Except Fault Store :=
  let fixed (names : List String) : Except Fault Store :=
    .error (if names.contains name then .frozen else .unsupported)
  match v with
  | .constant c =>
    if (c.member name).isSome then .error .noAttribute else .ok (s.attach v name x)
  | .fn _ => .ok (s.attach v name x)
  | .scope _ => .ok (s.attach v name x)
  | .promise n =>
    if s.awaitables[n]? = some .task then .ok (s.attach v name x) else .error .noAttribute
  | .ref r =>
    match s.cell? r with
    | some (.object o) =>
      if o.raising.contains name then .error .noAttribute
      else .ok (s.put r (.object { o with attributes := o.attributes.insert name x }))
    | some (.context _) => fixed ["scope", "event", "path", "engine"]
    | some (.expr e _) => fixed e.form.2
    | some (.face .config _ _) => fixed ["reentrancy", "debug", "attribute_prefix"]
    | some (.face .queue _ _) => .error .noAttribute
    | some (.face _ _ members) =>
      if members.contains name then .error .noAttribute else .ok (s.attach v name x)
    | _ => .error .noAttribute
  | _ => .error .noAttribute

end Store

end ReactiveScopes
