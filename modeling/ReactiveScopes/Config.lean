import ReactiveScopes.Reentrancy
import ReactiveScopes.Store.Display

/-!
# Engine settings

The re-entrancy policy, whether passes are traced, and the stem of the attribute names under which
presentation layers declare state paths.
-/
namespace ReactiveScopes

namespace Reentrancy

def ofValue (s : Store) (v : Value) : Except Fault Reentrancy :=
  match v.text? with
  | some "skip" => .ok skip
  | some "defer" => .ok defer
  | _ => .error (.unknownPolicy (s.shown v))

end Reentrancy

/-- Fixed for the lifetime of an engine. Tracing is on if `debug` is truthy, and the stem may be any
value that has a text. -/
structure Config where
  reentrancy : Reentrancy := .skip
  debug : Value := .bool false
  stem : Value := .text "hype"

namespace Config

/-- The attribute that names the state path a handler writes back to. -/
def pathAttribute (c : Config) (s : Store) : String := s!"data-{s.textOf c.stem}-rx"

/-- The attribute consulted when the path attribute is missing. -/
def varAttribute (c : Config) (s : Store) : String := s!"data-{s.textOf c.stem}-var"

end Config

end ReactiveScopes
