import ReactiveScopes.Expr.Evaluation
import ReactiveScopes.Proofs.Conduct.Furnished

/-!
# Records and expressions keep a discipline

A record reaches the scheduler through its reports only, and an expression reaches it through records
and through client code.
-/
namespace ReactiveScopes.Obeys

open Eff

variable {κ α : Type} {D : Discipline κ} [D.Furnished]

section Records

instance (hook : Hook) (key : Value) : Obeys D (Record.report hook key : Eff κ Unit) := by
  unfold Record.report
  split <;> infer_instance

instance (data : Ref) (hook : Hook) (key v : Value) :
    Obeys D (Record.setItem data hook key v : Eff κ Unit) := by
  unfold Record.setItem
  infer_instance

instance (data : Ref) (hook : Hook) (key : Value) :
    Obeys D (Record.delItem data hook key : Eff κ Unit) := by
  unfold Record.delItem
  infer_instance

instance (data : Ref) (hook : Hook) : Obeys D (Record.clear data hook : Eff κ Unit) := by
  unfold Record.clear
  refine bind fun s => ?_
  split <;> infer_instance

instance (initial : Mapping) (hook : Hook) : Obeys D (Record.make initial hook : Eff κ Value) := by
  unfold Record.make
  refine bind fun v => ?_
  split <;> infer_instance

instance (container : Value) (segment : String) (v : Value) :
    Obeys D (Path.assign container segment v : Eff κ Unit) := by
  unfold Path.assign
  refine bind fun s => ?_
  split <;> infer_instance

instance (v x : Value) (ps : List String) : Obeys D (Path.write v ps x : Eff κ Unit) := by
  induction ps generalizing v with
  | nil => unfold Path.write; infer_instance
  | cons p ps ih =>
    cases ps with
    | nil => unfold Path.write; infer_instance
    | cons q qs =>
      unfold Path.write
      refine bind fun s => ?_
      split <;> infer_instance

instance (v path x : Value) : Obeys D (Path.set v path x : Eff κ Unit) := by
  unfold Path.set
  infer_instance

instance (data : Ref) (hook : Hook) (path x : Value) :
    Obeys D (Record.setPath data hook path x : Eff κ Unit) := by
  unfold Record.setPath
  refine bind fun s => ?_
  split
  · infer_instance
  · refine bind fun _ => ?_
    split <;> infer_instance

instance (data : Ref) (hook : Hook) (key v : Value) :
    Obeys D (Record.storeKey data hook key v : Eff κ Unit) := by
  unfold Record.storeKey
  infer_instance

instance (data : Ref) (hook : Hook) (entries : List (Value × Value)) :
    Obeys D (Record.storeAll data hook entries : Eff κ Unit) := by
  induction entries with
  | nil => unfold Record.storeAll; infer_instance
  | cons entry rest ih => unfold Record.storeAll; infer_instance

instance (data : Ref) (hook : Hook) (pairs : List Value) :
    Obeys D (Record.storePairs data hook pairs : Eff κ Unit) := by
  induction pairs with
  | nil => unfold Record.storePairs; infer_instance
  | cons p rest ih => unfold Record.storePairs; infer_instance

instance (data : Ref) (hook : Hook) (other : Value) :
    Obeys D (Record.storeFrom data hook other : Eff κ Unit) := by
  unfold Record.storeFrom
  refine bind fun s => ?_
  split <;> infer_instance

instance (data : Ref) (hook : Hook) (key : Value) :
    Obeys D (Record.removeKey data hook key : Eff κ Unit) := by
  unfold Record.removeKey
  infer_instance

instance (data : Ref) (hook : Hook) (op : RecordOp) :
    Obeys D (Record.perform data hook op : Eff κ Value) := by
  unfold Record.perform
  cases op with
  | getItem | setDefault =>
    refine bind fun s => bind fun found => ?_
    split <;> infer_instance
  | pop =>
    refine bind fun s => bind fun found => ?_
    split <;> infer_instance
  | popItem =>
    refine bind fun s => ?_
    split <;> infer_instance
  | _ => infer_instance

end Records

instance (extras : Extras) : Obeys D (Capabilities.ofExtras extras : Eff κ Capabilities) := by
  cases extras with
  | capabilities c => unfold Capabilities.ofExtras; infer_instance
  | mapping v =>
    unfold Capabilities.ofExtras
    refine bind fun told => ?_
    split
    · infer_instance
    · refine bind fun s => ?_
      split <;> infer_instance

section Expressions

open Evaluation

instance (state path v : Value) : Obeys D (writeState state path v : Eff κ Unit) := by
  unfold writeState
  refine bind fun s => ?_
  split
  · infer_instance
  · refine bind fun f => ?_
    split <;> infer_instance

instance (c : Context) (path : Value) : Obeys D (Evaluation.get c path : Eff κ Value) := by
  unfold Evaluation.get
  refine bind fun s => ?_
  split
  · split <;> infer_instance
  · infer_instance

instance (c : Context) (path v : Value) : Obeys D (Evaluation.set c path v : Eff κ Value) := by
  unfold Evaluation.set
  infer_instance

instance (c : Context) (path : Value) : Obeys D (toggle c path : Eff κ Value) := by
  unfold toggle
  infer_instance

instance (c : Context) (topic payload : Value) :
    Obeys D (publish c topic payload : Eff κ Value) := by
  unfold publish
  infer_instance

instance (c : Context) (url init : Value) : Obeys D (fetch c url init : Eff κ Value) := by
  unfold fetch
  infer_instance

instance (el : Value) (names : List String) :
    Obeys D (classesOf el names : Eff κ (Option Value)) := by
  induction names with
  | nil => unfold classesOf; infer_instance
  | cons name names ih =>
    unfold classesOf
    refine bind fun s => bind fun found => ?_
    split <;> infer_instance

instance (el name : Value) : Obeys D (askClass el name : Eff κ Bool) := by
  unfold askClass
  refine bind fun s => bind fun asked => ?_
  split
  · infer_instance
  · refine bind fun classes => ?_
    split <;> infer_instance

instance (el name : Value) : Obeys D (hasClass el name : Eff κ Value) := by
  unfold hasClass
  infer_instance

instance (op : Operator) (a b : Value) : Obeys D (binary op a b : Eff κ Value) := by
  unfold binary
  refine bind fun s => ?_
  dsimp only
  split <;> infer_instance

variable {c : Context}

theorem evalAll_of_mem {xs : List Expr} (h : ∀ x ∈ xs, Obeys D (eval c x : Eff κ Value)) :
    Obeys D (evalAll c xs : Eff κ (List Value)) := by
  induction xs with
  | nil => unfold evalAll; infer_instance
  | cons x xs ih =>
    have := h x List.mem_cons_self
    have := ih fun y hy => h y (List.mem_cons_of_mem x hy)
    unfold evalAll
    infer_instance

theorem evalFields_of_mem {fs : List (String × Expr)}
    (h : ∀ x ∈ fs, Obeys D (eval c x.2 : Eff κ Value)) :
    Obeys D (evalFields c fs : Eff κ (List (String × Value))) := by
  induction fs with
  | nil => unfold evalFields; infer_instance
  | cons x fs ih =>
    have := h x List.mem_cons_self
    have := ih fun y hy => h y (List.mem_cons_of_mem x hy)
    unfold evalFields
    infer_instance

theorem foldArgs_of_mem {xs : List Expr} (h : ∀ x ∈ xs, Obeys D (eval c x : Eff κ Value))
    (f : Value → Value → Build Value) (acc : Value) :
    Obeys D (foldArgs c f acc xs : Eff κ Value) := by
  induction xs generalizing acc with
  | nil => unfold foldArgs; infer_instance
  | cons x xs ih =>
    have := h x List.mem_cons_self
    have := ih fun y hy => h y (List.mem_cons_of_mem x hy)
    unfold foldArgs
    infer_instance

theorem evalLast_of_mem {xs : List Expr} (h : ∀ x ∈ xs, Obeys D (eval c x : Eff κ Value))
    (last : Value) : Obeys D (evalLast c last xs : Eff κ Value) := by
  induction xs generalizing last with
  | nil => unfold evalLast; infer_instance
  | cons x xs ih =>
    have := h x List.mem_cons_self
    have := ih fun y hy => h y (List.mem_cons_of_mem x hy)
    unfold evalLast
    infer_instance

/-- An operator keeps it if its operands do. -/
theorem apply_of_mem {xs : List Expr} (op : Operator)
    (h : ∀ x ∈ xs, Obeys D (eval c x : Eff κ Value)) : Obeys D (apply c op xs : Eff κ Value) := by
  rcases xs with _ | ⟨a, xs⟩
  · cases op <;> (unfold apply; infer_instance)
  · have := h a List.mem_cons_self
    have ht : ∀ x ∈ xs, Obeys D (eval c x : Eff κ Value) := fun x hx => h x (List.mem_cons_of_mem a hx)
    have := fun f acc => foldArgs_of_mem ht f acc
    have := fun last => evalLast_of_mem ht last
    rcases xs with _ | ⟨b, xs⟩
    · cases op <;> (unfold apply; infer_instance)
    · have := ht b List.mem_cons_self
      rcases xs with _ | ⟨d, xs⟩
      · cases op <;> (unfold apply; infer_instance)
      · have := ht d (List.mem_cons_of_mem b List.mem_cons_self)
        cases xs <;> cases op <;> (unfold apply; infer_instance)

theorem obeys_eval (c : Context) : ∀ x : Expr, Obeys D (eval c x : Eff κ Value)
  | .literal v => by unfold eval; infer_instance
  | .invalid _ => by unfold eval; infer_instance
  | .array items => by
    have := evalAll_of_mem (D := D) fun x (_ : x ∈ items) => obeys_eval c x
    unfold eval
    infer_instance
  | .object fields => by
    have := evalFields_of_mem (D := D) fun x (hx : x ∈ fields) =>
      have : sizeOf x.2 < 1 + sizeOf fields := by
        have hs := List.sizeOf_lt_of_mem hx
        obtain ⟨k, y⟩ := x
        simp only [Prod.mk.sizeOf_spec] at hs ⊢
        omega
      obeys_eval c x.2
    unfold eval
    infer_instance
  | .apply op args => by
    have := apply_of_mem (D := D) op fun x (_ : x ∈ args) => obeys_eval c x
    unfold eval
    infer_instance

instance (c : Context) (x : Expr) : Obeys D (eval c x : Eff κ Value) := obeys_eval c x

end Expressions

end ReactiveScopes.Obeys
