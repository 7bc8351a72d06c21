import ReactiveScopes.Expr.Evaluation
import ReactiveScopes.Proofs.Building

/-!
# Contracts

What is promised of a computation: an invariant of sessions that it keeps however it ends, the ways in
which it may end without a value, and whether it does the same whatever the journal says. A read-only
expression keeps every contract that leaves room for more data in the store; of the other operators it
takes what each of them does besides.
-/
namespace ReactiveScopes

open Eff Evaluation

variable {κ α β : Type}

/-- Every literal and every application in an expression have a property. -/
inductive Expr.Every (q : Value → Prop) (p : Operator → List Expr → Prop) : Expr → Prop
  | literal {v : Value} : q v → Every q p (.literal v)
  | invalid (reason : String) : Every q p (.invalid reason)
  | array {items : List Expr} : (∀ e ∈ items, Every q p e) → Every q p (.array items)
  | object {fields : List (String × Expr)} : (∀ f ∈ fields, Every q p f.2) → Every q p (.object fields)
  | apply {op : Operator} {args : List Expr} : p op args → (∀ e ∈ args, Every q p e) →
    Every q p (.apply op args)

theorem Expr.every {q : Value → Prop} {p : Operator → List Expr → Prop} (hq : ∀ v, q v)
    (hp : ∀ op args, p op args) : ∀ e : Expr, e.Every q p
  | .literal v => .literal (hq v)
  | .invalid reason => .invalid reason
  | .array items => .array fun e _ => every hq hp e
  | .object fields => .object fun f hf =>
    have : sizeOf f.2 < 1 + sizeOf fields := by
      have hs := List.sizeOf_lt_of_mem hf
      obtain ⟨k, e⟩ := f
      simp only [Prod.mk.sizeOf_spec] at hs ⊢
      omega
    every hq hp f.2
  | .apply op args => .apply (hp op args) fun e _ => every hq hp e

theorem Expr.Every.mono {q q' : Value → Prop} {p p' : Operator → List Expr → Prop} {e : Expr}
    (h : e.Every q p) (hq : ∀ v, q v → q' v) (hp : ∀ op args, p op args → p' op args) :
    e.Every q' p' := by
  induction h with
  | literal hv => exact .literal (hq _ hv)
  | invalid reason => exact .invalid reason
  | array _ ih => exact .array ih
  | object _ ih => exact .object ih
  | apply hop _ ih => exact .apply (hp _ _ hop) ih

/-- The same result, and the same session but for the journal. -/
def Alike (r r' : Outcome α × Session κ) : Prop :=
  r.1 = r'.1 ∧ ∃ j, r'.2 = { r.2 with journal := j }

theorem Alike.symm {r r' : Outcome α × Session κ} (h : Alike r r') : Alike r' r := by
  obtain ⟨ho, j, hw⟩ := h
  exact ⟨ho.symm, r.2.journal, by rw [hw]⟩

theorem Alike.trans {r r' r'' : Outcome α × Session κ} (h : Alike r r') (h' : Alike r' r'') :
    Alike r r'' := by
  obtain ⟨ho, j, hw⟩ := h
  obtain ⟨ho', j', hw'⟩ := h'
  exact ⟨ho.trans ho', j', by rw [hw', hw]⟩

/-- What is promised besides an invariant: the faults in which a computation may end, whether it may
break off, and whether it does the same whatever the journal says. -/
structure Terms where
  fault : Fault → Prop
  breaksOff : Prop
  blind : Prop

namespace Terms

/-- Ending with a value or one of the faults, whatever the journal says. -/
abbrev among (P : Fault → Prop) : Terms := ⟨P, False, True⟩

/-- Ending in any way, whatever the journal says. -/
abbrev anyhow : Terms := ⟨fun _ => True, True, True⟩

/-- The terms that are left once the faults of operators are contained. -/
def contained (x : Terms) : Terms := ⟨fun f => x.fault f ∧ ¬ f.isOperatorFault, x.breaksOff, x.blind⟩

/-- The ways to end. -/
def Allows (x : Terms) : Outcome α → Prop
  | .value _ => True
  | .fault f => x.fault f
  | .stopped => x.breaksOff
  | .exhausted => x.breaksOff

/-- Stricter terms. -/
structure Within (x y : Terms) : Prop where
  fault : ∀ {f}, x.fault f → y.fault f
  breaksOff : x.breaksOff → y.breaksOff
  blind : y.blind → x.blind

theorem Within.allows {x y : Terms} (h : x.Within y) {o : Outcome α} (ho : x.Allows o) :
    y.Allows o := by
  cases o with
  | value a => trivial
  | fault f => exact h.fault ho
  | stopped | exhausted => exact h.breaksOff ho

theorem contained_within (x : Terms) : x.contained.Within x := ⟨And.left, id, id⟩

end Terms

/-- What running gives is within the terms. -/
structure Meets (I : Session κ → Prop) (x : Terms) (r : Outcome α × Session κ) : Prop where
  kept : I r.2
  ends : x.Allows r.1

/-- Keeps an invariant on the given terms. -/
class Keeps (I : Session κ → Prop) (x : Terms) (env : Env κ) (m : Eff κ α) : Prop where
  meets : ∀ w, I w → Meets I x (m env w)
  blind : x.blind → ∀ w j, I w → Alike (m env w) (m env { w with journal := j })

/-- An invariant that more data in the store leaves as it is, and notices too. -/
class Roomy (I : Session κ → Prop) : Prop where
  grown : ∀ {w s}, I w → w.store.Extends s → I { w with store := s }
  noted : ∀ {w n}, I w → I { w with journal := .notice n :: w.journal }

/-- An invariant under which the objects of the client raise no other faults. -/
class Civil (P : Fault → Prop) (I : Session κ → Prop) : Prop where
  civil : ∀ {w}, I w → w.store.Civil P

instance (I : Session κ → Prop) : Civil (fun _ => True) I := ⟨fun {w} _ => w.store.civil_all⟩

/-- What follows on a result. -/
def goingOn (env : Env κ) (k : α → Eff κ β) (r : Outcome α × Session κ) : Outcome β × Session κ :=
  Eff.bind (fun _ _ => r) k env r.2

/-- A result whose fault became a value. -/
def attempted (r : Outcome α × Session κ) : Outcome (Except Fault α) × Session κ :=
  match r with
  | (.value a, w) => (.value (.ok a), w)
  | (.fault e, w) => (.value (.error e), w)
  | (.stopped, w) => (.stopped, w)
  | (.exhausted, w) => (.exhausted, w)

theorem Alike.attempted {r r' : Outcome α × Session κ} (h : Alike r r') :
    Alike (attempted r) (attempted r') := by
  obtain ⟨o, w⟩ := r
  obtain ⟨o', w'⟩ := r'
  obtain ⟨rfl, j, rfl⟩ := h
  cases o <;> exact ⟨rfl, j, rfl⟩

theorem Meets.attempted {I : Session κ → Prop} {x y : Terms} {r : Outcome α × Session κ}
    (h : Meets I y r) (hb : y.breaksOff → x.breaksOff) : Meets I x (attempted r) := by
  obtain ⟨o, w⟩ := r
  cases o with
  | value | fault => exact ⟨h.kept, trivial⟩
  | stopped | exhausted => exact ⟨h.kept, hb h.ends⟩

namespace Keeps

variable {I : Session κ → Prop} {x y : Terms} {env : Env κ}

/-- A value that the computation can give under the invariant. -/
def Gives (I : Session κ → Prop) (env : Env κ) (m : Eff κ α) (a : α) : Prop :=
  ∃ w, I w ∧ (m env w).1 = .value a

theorem mono {m : Eff κ α} (h : Keeps I x env m) (hxy : x.Within y) : Keeps I y env m where
  meets w hw := ⟨(h.meets w hw).kept, hxy.allows (h.meets w hw).ends⟩
  blind hy w j hw := h.blind (hxy.blind hy) w j hw

theorem meets_goingOn {k : α → Eff κ β} {r : Outcome α × Session κ}
    (hk : ∀ a, r.1 = .value a → Keeps I x env (k a)) (hr : Meets I x r) :
    Meets I x (goingOn env k r) := by
  obtain ⟨o, w⟩ := r
  cases o with
  | value a => exact (hk a rfl).meets w hr.kept
  | fault | stopped | exhausted => exact ⟨hr.kept, hr.ends⟩

theorem kept_goingOn {k : α → Eff κ β} {r : Outcome α × Session κ} (hk : ∀ a, Keeps I x env (k a))
    (hr : I r.2) : I (goingOn env k r).2 := by
  obtain ⟨o, w⟩ := r
  cases o with
  | value a => exact ((hk a).meets w hr).kept
  | fault | stopped | exhausted => exact hr

theorem alike_goingOn {k : α → Eff κ β} {r r' : Outcome α × Session κ} (hx : x.blind)
    (hk : ∀ a, r.1 = .value a → Keeps I x env (k a)) (hr : I r.2) (h : Alike r r') :
    Alike (goingOn env k r) (goingOn env k r') := by
  obtain ⟨o, w⟩ := r
  obtain ⟨o', w'⟩ := r'
  obtain ⟨rfl, j, rfl⟩ := h
  cases o with
  | value a => exact (hk a rfl).blind hx w j hr
  | fault | stopped | exhausted => exact ⟨rfl, j, rfl⟩

theorem bind_given {m : Eff κ α} {k : α → Eff κ β} [hm : Keeps I x env m]
    (hk : ∀ a, Gives I env m a → Keeps I x env (k a)) : Keeps I x env (m >>= k) where
  meets w hw := meets_goingOn (fun a ha => hk a ⟨w, hw, ha⟩) (hm.meets w hw)
  blind hx w j hw :=
    alike_goingOn hx (fun a ha => hk a ⟨w, hw, ha⟩) (hm.meets w hw).kept (hm.blind hx w j hw)

theorem bind {m : Eff κ α} {k : α → Eff κ β} [Keeps I x env m] (hk : ∀ a, Keeps I x env (k a)) :
    Keeps I x env (m >>= k) :=
  bind_given fun a _ => hk a

instance {m : Eff κ α} {k : α → Eff κ β} [Keeps I x env m] [∀ a, Keeps I x env (k a)] :
    Keeps I x env (m >>= k) :=
  bind fun _ => inferInstance

instance (a : α) : Keeps I x env (pure a : Eff κ α) :=
  ⟨fun _ hw => ⟨hw, trivial⟩, fun _ _ j _ => ⟨rfl, j, rfl⟩⟩

theorem raise {f : Fault} (h : x.fault f) : Keeps I x env (Eff.raise f : Eff κ α) :=
  ⟨fun _ hw => ⟨hw, h⟩, fun _ _ j _ => ⟨rfl, j, rfl⟩⟩

instance (f : Fault) : Keeps I .anyhow env (Eff.raise f : Eff κ α) := raise trivial

theorem raise_ordinary [Admits x.fault] {f : Fault} (h : f.isOrdinary) :
    Keeps I x env (Eff.raise f : Eff κ α) :=
  raise (Admits.ordinary h)

/-- A computation that looks at the session before it goes on. -/
theorem bind_read {f : Session κ → α} {k : α → Eff κ β} (hf : ∀ w j, f { w with journal := j } = f w)
    (hk : ∀ w, I w → Keeps I x env (k (f w))) : Keeps I x env (read f >>= k) where
  meets w hw := (hk w hw).meets w hw
  blind hx w j hw := by
    change Alike (k (f w) env w) (k (f { w with journal := j }) env { w with journal := j })
    rw [hf w j]
    exact (hk w hw).blind hx w j hw

theorem bind_store {k : Store → Eff κ β} (hk : ∀ w, I w → Keeps I x env (k w.store)) :
    Keeps I x env (store >>= k) :=
  bind_read (fun _ _ => rfl) hk

theorem bind_engine {e : Nat} {k : Engine → Eff κ β} (hk : ∀ w, I w → Keeps I x env (k (w.engine e))) :
    Keeps I x env (engine e >>= k) :=
  bind_read (fun _ _ => rfl) hk

theorem read {f : Session κ → α} (h : ∀ w j, f { w with journal := j } = f w) :
    Keeps I x env (read f) where
  meets _ hw := ⟨hw, trivial⟩
  blind _ w j _ := ⟨congrArg Outcome.value (h w j).symm, j, rfl⟩

instance : Keeps I x env (store : Eff κ Store) := read fun _ _ => rfl

instance (e : Nat) : Keeps I x env (engine e : Eff κ Engine) := read fun _ _ => rfl

instance : Keeps I x env (Eff.read fun w : Session κ => w.loop) := read fun _ _ => rfl

instance (r : Except Fault α) [hr : FailsIn x.fault r] : Keeps I x env (ofExcept r : Eff κ α) := by
  cases r with
  | ok a => exact inferInstanceAs (Keeps I x env (pure a))
  | error f => exact raise (hr.fault rfl)

instance {c : Prop} [Decidable c] {a b : Eff κ α} [Keeps I x env a] [Keeps I x env b] :
    Keeps I x env (if c then a else b) := by
  split <;> infer_instance

theorem attempt {m : Eff κ α} (hm : Keeps I y env m) (hb : y.breaksOff → x.breaksOff)
    (hj : x.blind → y.blind) : Keeps I x env m.attempt where
  meets w hw := (hm.meets w hw).attempted hb
  blind hx w j hw := (hm.blind (hj hx) w j hw).attempted

theorem fault_of_gives {m : Eff κ α} {f : Fault} (hm : Keeps I y env m)
    (h : Gives I env m.attempt (.error f)) : y.fault f := by
  obtain ⟨w, hw, h⟩ := h
  have he := (hm.meets w hw).ends
  change (attempted (m env w)).1 = _ at h
  rcases ho : m env w with ⟨a | g | _ | _, w'⟩ <;> rw [ho] at h he <;> cases h
  exact he

/-- Containing faults: those that are not contained have to be allowed. -/
theorem contain {m : Eff κ α} {p : Fault → Bool} {handle : Fault → Eff κ α} (hm : Keeps I y env m)
    (hp : ∀ f, y.fault f → p f = false → x.fault f) (hb : y.breaksOff → x.breaksOff)
    (hj : x.blind → y.blind) (hh : ∀ f, Keeps I x env (handle f)) :
    Keeps I x env (contain m p handle) := by
  have := hm.attempt hb hj
  unfold Eff.contain
  refine bind_given fun r hr => ?_
  cases r with
  | ok a => infer_instance
  | error f =>
    cases hpf : p f with
    | true => simpa [hpf] using hh f
    | false => simpa [hpf] using raise (hp f (fault_of_gives hm hr) hpf)

instance {γ : Type} {f : γ → Eff κ PUnit} [∀ a, Keeps I x env (f a)] (xs : List γ) :
    Keeps I x env (xs.forM f) := by
  induction xs with
  | nil => unfold List.forM; infer_instance
  | cons a xs ih => unfold List.forM; infer_instance

/-- A change that keeps the invariant. -/
theorem update {f : Session κ → Session κ} (h : ∀ w, I w → I (f w))
    (hj : ∀ w j, ∃ j', f { w with journal := j } = { f w with journal := j' }) :
    Keeps I x env (update f) :=
  ⟨fun w hw => ⟨h w hw, trivial⟩, fun _ w j _ => ⟨rfl, hj w j⟩⟩

section Data

variable [Roomy I]

instance (n : Notice) : Keeps I x env (notice n : Eff κ Unit) :=
  update (fun _ hw => Roomy.noted hw) fun _ _ => ⟨_, rfl⟩

/-- Building is the same whatever the journal says. -/
theorem build_blind (m : Build α) (w : Session κ) (j : List Event) :
    Alike (build m env w) (build m env { w with journal := j }) := by
  unfold build
  cases m w.store with
  | ok p => exact ⟨rfl, j, rfl⟩
  | error f => exact ⟨rfl, j, rfl⟩

theorem alloc {d : Cell} (h : d.isData) : Keeps I x env (Eff.alloc d : Eff κ Value) where
  meets _ hw := ⟨Roomy.grown hw (.alloc h), trivial⟩
  blind _ w j _ := build_blind _ w j

instance (xs : List Value) : Keeps I x env (Eff.alloc (.list xs) : Eff κ Value) := alloc rfl

instance (t : Mapping) : Keeps I x env (Eff.alloc (.dict t) : Eff κ Value) := alloc rfl

instance (m : Build α) [hm : Build.Adds x.fault m] [Civil x.fault I] : Keeps I x env (build m) where
  meets w hw := by
    have hc : w.store.Civil x.fault := Civil.civil hw
    unfold build
    split
    · next hr => exact ⟨Roomy.grown hw (hm.grows hc hr), trivial⟩
    · next hr => exact ⟨hw, hm.fault hc hr⟩
  blind _ w j _ := build_blind m w j

end Data

section Expressions

variable {c : Context}

theorem evalAll_of_mem {es : List Expr} (h : ∀ e ∈ es, Keeps I x env (eval c e)) :
    Keeps I x env (evalAll c es) := by
  induction es with
  | nil => unfold evalAll; infer_instance
  | cons e es ih =>
    have := h e List.mem_cons_self
    have := ih fun e' he => h e' (List.mem_cons_of_mem e he)
    unfold evalAll
    infer_instance

theorem evalFields_of_mem {fs : List (String × Expr)} (h : ∀ f ∈ fs, Keeps I x env (eval c f.2)) :
    Keeps I x env (evalFields c fs) := by
  induction fs with
  | nil => unfold evalFields; infer_instance
  | cons f fs ih =>
    have := h f List.mem_cons_self
    have := ih fun f' hf => h f' (List.mem_cons_of_mem f hf)
    unfold evalFields
    infer_instance

theorem foldArgs_of_mem {es : List Expr} (h : ∀ e ∈ es, Keeps I x env (eval c e))
    (f : Value → Value → Build Value) (acc : Value) [∀ a b, Keeps I x env (build (f a b))] :
    Keeps I x env (foldArgs c f acc es) := by
  induction es generalizing acc with
  | nil => unfold foldArgs; infer_instance
  | cons e es ih =>
    have := h e List.mem_cons_self
    have := ih fun e' he => h e' (List.mem_cons_of_mem e he)
    unfold foldArgs
    infer_instance

theorem evalLast_of_mem {es : List Expr} (h : ∀ e ∈ es, Keeps I x env (eval c e)) (last : Value) :
    Keeps I x env (evalLast c last es) := by
  induction es generalizing last with
  | nil => unfold evalLast; infer_instance
  | cons e es ih =>
    have := h e List.mem_cons_self
    have := ih fun e' he => h e' (List.mem_cons_of_mem e he)
    unfold evalLast
    infer_instance

theorem strictEqual_fails {P : Fault → Prop} [Admits P] {s : Store} (hs : s.Civil P) (a b : Value) :
    FailsIn P (s.strictEqual a b) := by
  have := Store.equal_fails hs
  unfold Store.strictEqual
  infer_instance

instance lookup_fails {P : Fault → Prop} [Admits P] (s : Store) (c : Capabilities) (name : String) :
    FailsIn P (c.lookup s name) := by
  unfold Capabilities.lookup
  repeat' (first | infer_instance | split)

theorem set {path v : Value} (h : Keeps I x env (writeState c.state path v)) :
    Keeps I x env (Evaluation.set c path v) := by
  unfold Evaluation.set
  infer_instance

theorem toggle {path : Value} [hc : Civil x.fault I]
    (h : ∀ b, Keeps I x env (writeState c.state path (.bool b))) :
    Keeps I x env (Evaluation.toggle c path) := by
  unfold Evaluation.toggle
  refine bind_store fun w hw => ?_
  have := Store.getPath_fails (hc.civil hw).readable
  infer_instance

section Operators

variable [Admits x.fault] [Roomy I] [hc : Civil x.fault I]

instance (path : Value) : Keeps I x env (Evaluation.get c path : Eff κ Value) := by
  unfold Evaluation.get
  refine bind fun s => ?_
  repeat' (first | infer_instance | split)

instance (op : Operator) (a b : Value) : Keeps I x env (binary op a b : Eff κ Value) := by
  unfold binary
  refine bind_store fun w hw => ?_
  have := Store.equal_fails (hc.civil hw)
  have := strictEqual_fails (hc.civil hw)
  have := fun rel => Store.relate_fails (hc.civil hw) rel
  dsimp only
  split <;> infer_instance

instance (v : Value) : Keeps I x env (truthy v : Eff κ Bool) := by
  unfold truthy
  infer_instance

/-- A read-only operator keeps what its operands keep. -/
theorem readOnly {op : Operator} {es : List Expr} (hop : op.isReadOnly)
    (h : ∀ e ∈ es, Keeps I x env (eval c e)) : Keeps I x env (apply c op es) := by
  rcases es with _ | ⟨a, es⟩
  · cases op <;> cases hop <;> (unfold apply; infer_instance)
  · have := h a List.mem_cons_self
    have ht : ∀ e ∈ es, Keeps I x env (eval c e) := fun e he => h e (List.mem_cons_of_mem a he)
    have (f : Value → Value → Build Value) (acc : Value) [∀ a b, Keeps I x env (build (f a b))] :=
      foldArgs_of_mem ht f acc
    have := evalLast_of_mem ht
    rcases es with _ | ⟨b, es⟩
    · cases op <;> cases hop <;> (unfold apply; infer_instance)
    · have := ht b List.mem_cons_self
      rcases es with _ | ⟨d, es⟩
      · cases op <;> cases hop <;> (unfold apply; infer_instance)
      · have := ht d (List.mem_cons_of_mem b List.mem_cons_self)
        cases es <;> cases op <;> cases hop <;> (unfold apply; infer_instance)

end Operators

/-- An expression keeps what its operators keep, and lets out no fault that an operator contains. -/
theorem expression {q : Value → Prop} {p : Operator → List Expr → Prop} [Roomy I] {e : Expr}
    (hp : ∀ op es, p op es → (∀ e ∈ es, Keeps I x.contained env (eval c e)) →
      Keeps I x env (apply c op es))
    (he : e.Every q p) : Keeps I x.contained env (eval c e) := by
  induction he with
  | literal hv => unfold eval; infer_instance
  | invalid reason => unfold eval; infer_instance
  | array h ih =>
    have := evalAll_of_mem ih
    unfold eval
    infer_instance
  | object h ih =>
    have := evalFields_of_mem ih
    unfold eval
    infer_instance
  | apply hop h ih =>
    unfold eval
    refine contain (hp _ _ hop ih) (fun f hf hof => ⟨hf, ?_⟩) id id fun _ => inferInstance
    simp [hof]

end Expressions

end Keeps

end ReactiveScopes
