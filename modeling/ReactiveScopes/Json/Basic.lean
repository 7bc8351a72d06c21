/-!
# JSON values

Whole numbers and doubles are kept apart, and objects keep the order of their keys.
-/
namespace ReactiveScopes

inductive Json where
  | null
  | bool (b : Bool)
  | int (i : Int)
  | float (x : Float)
  | str (s : String)
  | arr (items : List Json)
  | obj (fields : List (String × Json))
  deriving Inhabited

namespace Json

/-- What a value is called where another kind was wanted. -/
def kindName : Json → String
  | null => "NoneType"
  | bool _ => "bool"
  | int _ => "int"
  | float _ => "float"
  | str _ => "str"
  | arr _ => "list"
  | obj _ => "dict"

/-- Stores a field; a repeated key keeps its place and takes the later value. -/
def setField (k : String) (v : Json) : List (String × Json) → List (String × Json)
  | [] => [(k, v)]
  | f :: fs => if f.1 = k then (k, v) :: fs else f :: setField k v fs

def field? (k : String) : Json → Option Json
  | obj fs => (fs.find? fun f => f.1 = k).map Prod.snd
  | _ => none

end Json

end ReactiveScopes
