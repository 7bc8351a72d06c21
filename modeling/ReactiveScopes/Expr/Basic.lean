import ReactiveScopes.Value

/-!
# Expressions

The closed set of operators and the tagged form that raw expressions are compiled to.
-/
namespace ReactiveScopes

inductive Operator where
  | add
  | sub
  | mul
  | div
  | mod
  | looseEq
  | strictEq
  | ne
  | gt
  | lt
  | ge
  | le
  | and
  | or
  | not
  | cond
  | seq
  | get
  | set
  | toggle
  | pub
  | hasClass
  | fetch
  deriving DecidableEq, Repr

namespace Operator

def all : List Operator :=
  [add, sub, mul, div, mod, looseEq, strictEq, ne, gt, lt, ge, le, and, or, not, cond, seq, get, set,
   toggle, pub, hasClass, fetch]

def symbol : Operator → String
  | add => "+"
  | sub => "-"
  | mul => "*"
  | div => "/"
  | mod => "%"
  | looseEq => "=="
  | strictEq => "==="
  | ne => "!="
  | gt => ">"
  | lt => "<"
  | ge => ">="
  | le => "<="
  | and => "&&"
  | or => "||"
  | not => "!"
  | cond => "?:"
  | seq => "seq"
  | get => "get"
  | set => "set"
  | toggle => "toggle"
  | pub => "pub"
  | hasClass => "hasClass"
  | fetch => "fetch"

/-- The name of an operator, apart from the symbol it is written with. -/
def name : Operator → String
  | add => "ADD"
  | sub => "SUB"
  | mul => "MUL"
  | div => "DIV"
  | mod => "MOD"
  | looseEq => "LOOSE_EQ"
  | strictEq => "STRICT_EQ"
  | ne => "NE"
  | gt => "GT"
  | lt => "LT"
  | ge => "GE"
  | le => "LE"
  | and => "AND"
  | or => "OR"
  | not => "NOT"
  | cond => "COND"
  | seq => "SEQ"
  | get => "GET"
  | set => "SET"
  | toggle => "TOGGLE"
  | pub => "PUB"
  | hasClass => "HAS_CLASS"
  | fetch => "FETCH"

/-- An operator as a value. -/
def constant (op : Operator) : Constant := ⟨"Op", op.name, op.symbol⟩

def ofSymbol? (s : String) : Option Operator := all.find? fun op => op.symbol == s

/-- Least and greatest number of operands; no greatest for the variadic ones. -/
def arity : Operator → Nat × Option Nat
  | add | mul | seq => (0, none)
  | sub | div => (1, none)
  | mod | looseEq | strictEq | ne | gt | lt | ge | le | and | or | set => (2, some 2)
  | not | get | toggle => (1, some 1)
  | cond => (3, some 3)
  | pub | hasClass | fetch => (1, some 2)

def accepts (op : Operator) (operands : Nat) : Bool :=
  op.arity.1 ≤ operands && op.arity.2.all (operands ≤ ·)

/-- The operators that do not touch anything outside the expression but the state they read. -/
def isReadOnly : Operator → Bool
  | set | toggle | pub | hasClass | fetch => false
  | _ => true

end Operator

/-- A literal is a scalar; containers are written as array and object literals, made anew at each
evaluation. -/
inductive Expr where
  | literal (v : Value)
  | apply (op : Operator) (args : List Expr)
  | array (items : List Expr)
  | object (fields : List (String × Expr))
  | invalid (reason : String)

end ReactiveScopes
