import ReactiveScopes.Number.Shortest
import ReactiveScopes.Store.Attribute
import ReactiveScopes.Text.Quoted

/-!
# The text of values

How a value reads when it stands where a text is wanted. Texts read as themselves; inside a container
and in messages they are quoted. A container inside itself is an ellipsis.
-/
namespace ReactiveScopes

def quotedText (t : String) : String := String.ofList (Text.quoted t.toList)

namespace Store

def commaList (xs : List String) : String := ", ".intercalate xs

def braces (t : String) : String := "\x7b" ++ t ++ "\x7d"

/-- The display of a thing by its kind and its named parts. -/
def call (kind : String) (parts : List (String × String)) : String :=
  kind ++ "(" ++ commaList (parts.map fun (name, shown) => name ++ "=" ++ shown) ++ ")"

/-- The display of a cell, given that of the values in it. -/
def showCell (show? : Value → String) : Cell → String
  | .list xs => "[" ++ commaList (xs.map show?) ++ "]"
  | .tuple [x] => "(" ++ show? x ++ ",)"
  | .tuple xs => "(" ++ commaList (xs.map show?) ++ ")"
  | .set [] => "set()"
  | .set xs => braces (commaList (xs.map show?))
  | .dict t => braces (commaList (t.entries.map fun (k, v) => show? k ++ ": " ++ show? v))
  | .bytes b => String.ofList (Text.quotedBytes b)
  | .record data _ => "ReactiveState(" ++ show? (.ref data) ++ ")"
  | .object o => "<" ++ o.name ++ ">"
  | .context c =>
    call "HandlerContext" (["scope", "event", "path", "engine"].zip
      ([c.scope, c.event, c.path, c.engine].map show?))
  | .expr e parts => call e.form.1 (e.form.2.zip (parts.map show?))
  | .face .config _ members =>
    call Part.config.name (["reentrancy", "debug", "attribute_prefix"].zip (members.values.map show?))
  | .face part _ _ => "<" ++ part.name ++ ">"
  | .fault _ => "<fault>"

/-- What stands for a container met inside itself. -/
def ellipsis : Cell → String
  | .list _ => "[...]"
  | .tuple _ => "(...)"
  | .dict _ => braces "..."
  | .set _ => "set(...)"
  | _ => "..."

/-- A record is not watched for recursion, its data are. -/
def isGuarded : Cell → Bool
  | .record _ _ => false
  | _ => true

def showWithin (s : Store) : (fuel : Nat) → (within : List Ref) → Value → String
  | 0, _, _ => "..."
  | fuel + 1, within, v =>
    match v with
    | .none => "None"
    | .bool true => "True"
    | .bool false => "False"
    | .int i => toString i
    | .float x => Number.floatText x
    | .nan _ => "nan"
    | .text t => quotedText t
    | .constant c => "<" ++ c.family ++ "." ++ c.name ++ ": " ++ quotedText c.text ++ ">"
    | .fn _ => "<function>"
    | .method _ name _ => "<method " ++ name ++ ">"
    | .scope name => "<" ++ name ++ ">"
    | .promise _ => "<promise>"
    | .sealed kind _ => "<" ++ kind ++ ">"
    | .ref r =>
      match s.cell? r with
      | none => "<nothing>"
      | some c =>
        if within.contains r then ellipsis c
        else showCell (showWithin s fuel (if isGuarded c then r :: within else within)) c

/-- The display of a value inside a container or a message. -/
def shown (s : Store) (v : Value) : String := s.showWithin (2 * s.depth) [] v

/-- The text of a value. -/
def textOf (s : Store) : Value → String
  | .text t => t
  | .constant c => c.family ++ "." ++ c.name
  | v => s.shown v

end Store

end ReactiveScopes
