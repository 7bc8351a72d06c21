import ReactiveScopes.Expr.Comparison
import ReactiveScopes.Expr.Raw
import ReactiveScopes.Json.Reader

/-!
# Source texts

A source text is a shorthand comparison, or JSON if it begins with a bracket or a brace, or no
expression at all.
-/
namespace ReactiveScopes.Source

def looksLikeJson (cs : List Char) : Bool :=
  match Text.dropBlanks cs with
  | '[' :: _ => true
  | '\x7b' :: _ => true
  | _ => false

/-- The raw expression of a text, if it is one. -/
def raw? (cs : List Char) : Except Fault (Option Raw) :=
  match Comparison.expression? cs with
  | some j => .ok (some (Raw.ofJson j))
  | none =>
    if looksLikeJson cs then
      match Json.read? cs with
      | some j => .ok (some (Raw.ofJson j))
      | none => .error .malformed
    else .ok none

/-- The compiled expression of a text, with the notices of compiling it. -/
def compile? (text : String) : Except Fault (Option (Expr × List Notice)) :=
  (raw? text.toList).map fun r => r.map Raw.compile

end ReactiveScopes.Source
