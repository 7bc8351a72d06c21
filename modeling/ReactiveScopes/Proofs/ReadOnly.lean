import ReactiveScopes.Proofs.Isolation

/-!
# Read-only expressions

Evaluating an expression that names no writing operator adds to the store and to the notices, and does
nothing else: what was there is as it was, whatever fails on the way and wherever a list or a dict that
an operator works on comes from.
-/
namespace ReactiveScopes

open Eff

variable {κ : Type}

mutual

/-- The operators that an expression applies. -/
def Expr.operators : Expr → List Operator
  | .literal _ | .invalid _ => []
  | .array items => Expr.operatorsAll items
  | .object fields => Expr.operatorsFields fields
  | .apply op args => op :: Expr.operatorsAll args

def Expr.operatorsAll : List Expr → List Operator
  | [] => []
  | e :: es => e.operators ++ Expr.operatorsAll es

def Expr.operatorsFields : List (String × Expr) → List Operator
  | [] => []
  | (_, e) :: fs => e.operators ++ Expr.operatorsFields fs

end

namespace Raw

mutual

/-- The operators that a node names at the head of a list, at any depth. -/
def operators : Raw → List Operator
  | .scalar _ | .foreign _ => []
  | .compiled e => e.operators
  | .object fields => operatorsFields fields
  | .list [] => []
  | .list (head :: rest) =>
    (head.word?.bind Operator.ofSymbol?).toList ++ head.operators ++ operatorsAll rest

def operatorsAll : List Raw → List Operator
  | [] => []
  | r :: rs => r.operators ++ operatorsAll rs

def operatorsFields : List (String × Raw) → List Operator
  | [] => []
  | (_, r) :: rs => r.operators ++ operatorsFields rs

end

/-- Operators of two parts, each among the operators of one part of the whole. -/
private theorem append_subset_append {a b c d : List Operator} (h : a ⊆ c) (h' : b ⊆ d) :
    a ++ b ⊆ c ++ d :=
  List.append_subset.2 ⟨List.subset_append_of_subset_left d h, List.subset_append_of_subset_right c h'⟩

mutual

/-- Compiling brings in no operator. -/
theorem operators_compile : ∀ r : Raw, r.compile.1.operators ⊆ r.operators
  | .scalar _ => by simp [compile, Expr.operators]
  | .foreign _ => by simp [compile, Expr.operators]
  | .compiled e => by simp [compile, operators]
  | .object fields => by
    simpa [compile, Expr.operators, operators] using operators_compileFields fields
  | .list [] => by simp [compile, Expr.operators, Expr.operatorsAll]
  | .list (head :: rest) => by
    have hrest := operators_compileAll rest
    have hbehind := List.subset_append_of_subset_right head.operators hrest
    simp only [compile, operators]
    cases hw : head.word? with
    | none =>
      simpa [Expr.operators, Expr.operatorsAll] using
        append_subset_append (operators_compile head) hrest
    | some h =>
      cases ho : Operator.ofSymbol? h with
      | none => simpa [ho, Expr.operators] using hbehind
      | some op =>
        cases ha : op.accepts rest.length with
        | false => simp [ho, ha, Expr.operators]
        | true => simpa [ho, ha, Expr.operators] using List.subset_cons_of_subset op hbehind

theorem operators_compileAll : ∀ rs : List Raw, Expr.operatorsAll (compileAll rs).1 ⊆ operatorsAll rs
  | [] => by simp [compileAll, Expr.operatorsAll]
  | r :: rs => append_subset_append (operators_compile r) (operators_compileAll rs)

theorem operators_compileFields : ∀ fs : List (String × Raw),
    Expr.operatorsFields (compileFields fs).1 ⊆ operatorsFields fs
  | [] => by simp [compileFields, Expr.operatorsFields]
  | (_, r) :: fs => append_subset_append (operators_compile r) (operators_compileFields fs)

end

end Raw

mutual

/-- What holds of every operator of an expression holds of every application in it. -/
theorem Expr.every_of_operators {p : Operator → Prop} :
    ∀ e : Expr, (∀ op ∈ e.operators, p op) → e.Every (fun _ => True) fun op _ => p op
  | .literal _, _ => .literal trivial
  | .invalid reason, _ => .invalid reason
  | .array items, h => .array (Expr.everyAll_of_operators items h)
  | .object fields, h => .object (Expr.everyFields_of_operators fields h)
  | .apply op args, h => .apply (h op List.mem_cons_self)
    (Expr.everyAll_of_operators args fun x hx => h x (List.mem_cons_of_mem op hx))

theorem Expr.everyAll_of_operators {p : Operator → Prop} :
    ∀ es : List Expr, (∀ op ∈ Expr.operatorsAll es, p op) →
      ∀ e ∈ es, e.Every (fun _ => True) fun op _ => p op
  | [], _ => by simp
  | e :: es, h => List.forall_mem_cons.2
    ⟨Expr.every_of_operators e fun x hx => h x (List.mem_append_left _ hx),
      Expr.everyAll_of_operators es fun x hx => h x (List.mem_append_right _ hx)⟩

theorem Expr.everyFields_of_operators {p : Operator → Prop} :
    ∀ fs : List (String × Expr), (∀ op ∈ Expr.operatorsFields fs, p op) →
      ∀ f ∈ fs, f.2.Every (fun _ => True) fun op _ => p op
  | [], _ => by simp
  | (_, e) :: fs, h => List.forall_mem_cons.2
    ⟨Expr.every_of_operators e fun x hx => h x (List.mem_append_left _ hx),
      Expr.everyFields_of_operators fs fun x hx => h x (List.mem_append_right _ hx)⟩

end

/-- Nothing but more data in the store and more notices: no write, no report of one, and no call that
would show in the client's memory. -/
structure Session.OnlyRead (w₀ w : Session κ) : Prop where
  store : w₀.store.Extends w.store
  noted : ∃ ns : List Notice, w.journal = ns.map Event.notice ++ w₀.journal
  beside : w = { w₀ with store := w.store, journal := w.journal }

namespace Session.OnlyRead

variable {w₀ w : Session κ}

theorem refl : w₀.OnlyRead w₀ := ⟨Store.Extends.refl, ⟨[], rfl⟩, rfl⟩

/-- What reading comes to from what was there is the same afterwards, cell by cell. -/
theorem kept (h : w₀.OnlyRead w) {r : Ref} {c : Cell} (hc : w₀.store.cell? r = some c) :
    w.store.cell? r = some c :=
  h.store.kept hc

instance : Roomy (Session.OnlyRead w₀) where
  grown {w s} h hs := ⟨h.store.trans hs, h.noted, by rw [h.beside]⟩
  noted {w n} h := by
    obtain ⟨ns, hns⟩ := h.noted
    exact ⟨h.store, ⟨n :: ns, by rw [hns]; rfl⟩, by rw [h.beside]⟩

end Session.OnlyRead

/-- An expression whose operators only read only reads, however it ends. -/
theorem Keeps.eval_of_readOnly {I : Session κ → Prop} [Roomy I] {env : Env κ} {c : Context} {e : Expr}
    (he : ∀ op ∈ e.operators, op.isReadOnly) :
    Keeps I (Terms.among fun _ => True).contained env (Evaluation.eval c e) := by
  refine expression (fun op es hop h => ?_) (Expr.every_of_operators e he)
  exact readOnly hop fun a ha => (h a ha).mono (Terms.contained_within _)

/-- Reducing a node that names no operator that writes or that calls client code leaves every cell of the
store as it is, whichever of them the state, the capabilities and the node share. It reports no write and
calls nothing, also where parts of the node fail. -/
theorem read_only_nodes_write_nothing (raw : Value) (c : Context) (env : Env κ) (w : Session κ)
    (h : ∀ op ∈ (Raw.ofValue w.store raw).operators, op.isReadOnly) :
    w.OnlyRead (reduce raw c.state (.capabilities c.capabilities) c.pub env w).2 := by
  have compiles : Keeps w.OnlyRead .anyhow env (Scope.compileValue raw : Eff κ Expr) := by
    unfold Scope.compileValue
    infer_instance
  obtain ⟨j, hcompile⟩ := Fence.compileValue_eq raw env w
  have noted : w.OnlyRead { w with journal := j } := by
    simpa [hcompile] using (compiles.meets w .refl).kept
  have hreduce : reduce raw c.state (.capabilities c.capabilities) c.pub env w =
      Evaluation.eval c (Raw.ofValue w.store raw).compile.1 env { w with journal := j } := by
    change Eff.bind (Scope.compileValue raw) (Evaluation.eval c) env w = _
    rw [Eff.bind, hcompile]
  rw [hreduce]
  exact ((Keeps.eval_of_readOnly fun op hop => h op (Raw.operators_compile _ hop)).meets _ noted).kept

-- A list that is an item of its own list, folded over with itself, beside a part that fails.
namespace Folding

/-- The first cell is the list, the last one the node. -/
def store : Store where
  cells := #[.list [.int 1, .ref ⟨0⟩], .dict (.ofFields [("xs", .ref ⟨0⟩)]),
    .list [.text "get", .text "xs"], .list [.text "+", .ref ⟨2⟩, .ref ⟨2⟩, .ref ⟨2⟩],
    .list [.text "-", .ref ⟨2⟩, .int 1], .list [.ref ⟨3⟩, .ref ⟨4⟩]]

def raw : Value := .ref ⟨5⟩

def context : Context where
  state := .ref ⟨1⟩

def start : Session Unit where
  memory := ()
  store := store

def env : Env Unit := Env.within (fun _ => { body := fun _ => .done .none }) 3

def result : Outcome Value × Session Unit :=
  reduce raw context.state (.capabilities context.capabilities) context.pub env start

end Folding

/-- The two sums are new lists, and what failed is `none` in the result. -/
theorem read_only_nodes_write_nothing_folding :
    Folding.start.OnlyRead Folding.result.2 ∧ Folding.result.1 = .value (.ref ⟨8⟩) ∧
      (Folding.result.2.store.cell? ⟨8⟩).map Cell.parts = some [.ref ⟨7⟩, .none] ∧
      Folding.result.2.store.cell? ⟨0⟩ = some (.list [.int 1, .ref ⟨0⟩]) := by
  have only : Folding.start.OnlyRead Folding.result.2 :=
    read_only_nodes_write_nothing Folding.raw Folding.context Folding.env Folding.start
      (by decide +kernel)
  exact ⟨only, by decide +kernel, by decide +kernel, only.kept rfl⟩

end ReactiveScopes
