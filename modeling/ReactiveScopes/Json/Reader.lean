import ReactiveScopes.Json.Token

/-!
# Reading JSON

A stack machine over tokens: the stack holds the containers still open, and beside it stands what the
next token may be.
-/
namespace ReactiveScopes.Json

/-- A container still open; items are kept backwards. -/
inductive Frame where
  | list (items : List Json)
  | object (fields : List (String × Json)) (key : String)

/-- What may come next. -/
inductive Expect where
  | value
  | itemOrClose
  | keyOrClose (fields : List (String × Json))
  | key (fields : List (String × Json))
  | colon (fields : List (String × Json)) (key : String)
  | after (v : Json)

structure Reader where
  stack : List Frame := []
  expect : Expect := .value

namespace Reader

/-- A value that may begin here. -/
def value (stack : List Frame) : Token → Option Reader
  | .openList => some ⟨.list [] :: stack, .itemOrClose⟩
  | .openObject => some ⟨stack, .keyOrClose []⟩
  | .text s => some ⟨stack, .after (.str s)⟩
  | .atom v => some ⟨stack, .after v⟩
  | _ => none

/-- A finished value meets the container around it. -/
def close (v : Json) : List Frame → Token → Option Reader
  | .list items :: stack, .comma => some ⟨.list (v :: items) :: stack, .value⟩
  | .list items :: stack, .closeList => some ⟨stack, .after (.arr (v :: items).reverse)⟩
  | .object fields k :: stack, .comma => some ⟨stack, .key (setField k v fields)⟩
  | .object fields k :: stack, .closeObject => some ⟨stack, .after (.obj (setField k v fields))⟩
  | _, _ => none

def step (r : Reader) (t : Token) : Option Reader :=
  match r.expect, t with
  | .value, t => value r.stack t
  | .itemOrClose, .closeList =>
    match r.stack with
    | .list [] :: stack => some ⟨stack, .after (.arr [])⟩
    | _ => none
  | .itemOrClose, t => value r.stack t
  | .keyOrClose fields, .closeObject => some ⟨r.stack, .after (.obj fields)⟩
  | .keyOrClose fields, .text k => some ⟨r.stack, .colon fields k⟩
  | .key fields, .text k => some ⟨r.stack, .colon fields k⟩
  | .colon fields k, .colon => some ⟨.object fields k :: r.stack, .value⟩
  | .after v, t => close v r.stack t
  | _, _ => none

def run (r : Reader) (ts : List Token) : Option Reader := ts.foldlM step r

/-- The value of a text that has been read to its end. -/
def result? : Reader → Option Json
  | ⟨[], .after v⟩ => some v
  | _ => none

end Reader

def ofTokens? (ts : List Token) : Option Json := do (← Reader.run {} ts).result?

/-- Reads a text that holds one JSON value. -/
def read? (cs : List Char) : Option Json := do ofTokens? (← tokens? cs)

/-- Reads a document given as bytes. -/
def readBytes? (bytes : List UInt8) : Option Json := do read? (← Text.decodeDocument? bytes)

end ReactiveScopes.Json
