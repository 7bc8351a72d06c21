import ReactiveScopes.Value

/-!
# Re-entrancy

What becomes of writes made while watchers run.
-/
namespace ReactiveScopes

/-- What becomes of a request for a scope whose pass is running. -/
inductive Reentrancy where
  /-- It is ignored. -/
  | skip
  /-- However many there are, one more pass follows the running one. -/
  | defer
  deriving DecidableEq, Repr

namespace Reentrancy

def name : Reentrancy → String
  | skip => "skip"
  | defer => "defer"

/-- A policy as a value. -/
def constant : Reentrancy → Constant
  | skip => ⟨"Reentrancy", "SKIP", "skip"⟩
  | defer => ⟨"Reentrancy", "DEFER", "defer"⟩

end Reentrancy

end ReactiveScopes
