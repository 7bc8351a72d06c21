import ReactiveScopes.Store.Basic

/-!
# Expressions as values

A compiled expression can be handed around like any other value. Its parts are values too, made once
with it.
-/
namespace ReactiveScopes

mutual

/-- Puts a compiled expression into the store. -/
def Build.expr : Expr → Build Value
  | .literal v => Build.alloc (.expr (.literal v) [v])
  | .apply op args => do
    let parts ← Build.tuple (← Build.exprs args)
    Build.alloc (.expr (.apply op args) [.constant op.constant, parts])
  | .array items => do
    let parts ← Build.tuple (← Build.exprs items)
    Build.alloc (.expr (.array items) [parts])
  | .object fields => do
    let parts ← Build.tuple (← Build.exprFields fields)
    Build.alloc (.expr (.object fields) [parts])
  | .invalid reason => Build.alloc (.expr (.invalid reason) [.text reason])

def Build.exprs : List Expr → Build (List Value)
  | [] => pure []
  | e :: es => do
    let v ← Build.expr e
    return v :: (← Build.exprs es)

def Build.exprFields : List (String × Expr) → Build (List Value)
  | [] => pure []
  | (k, e) :: fs => do
    let v ← Build.tuple [.text k, ← Build.expr e]
    return v :: (← Build.exprFields fs)

end

end ReactiveScopes
