import ReactiveScopes.Proofs.Contract

/-!
# Expressions in context

Whatever stands around an expression evaluates it at most once, and learns nothing about it but what
that gives: a result and the session it leaves, whatever its journal says.
-/
namespace ReactiveScopes

open Eff Evaluation

variable {κ α β : Type}

/-- An expression with a hole in it. -/
inductive Hole where
  | here
  | item (before : List Expr) (hole : Hole) (after : List Expr)
  | field (before : List (String × Expr)) (key : String) (hole : Hole) (after : List (String × Expr))
  | operand (op : Operator) (before : List Expr) (hole : Hole) (after : List Expr)

/-- The expression with the hole filled. -/
def Hole.plug : Hole → Expr → Expr
  | here, x => x
  | item before hole after, x => .array (before ++ hole.plug x :: after)
  | field before key hole after, x => .object (before ++ (key, hole.plug x) :: after)
  | operand op before hole after, x => .apply op (before ++ hole.plug x :: after)

/-- A computation that looks at an expression at most once, by evaluating it: it either does without,
or goes on from what evaluating it in some session gives, whatever the journal says then. -/
class AsksOnce (I : Session κ → Prop) (c : Context) (env : Env κ) (F : Expr → Eff κ α) : Prop where
  asks : ∀ w, I w → (∀ a b, F a env w = F b env w) ∨
    ∃ (w' : Session κ) (rest : Outcome Value × Session κ → Outcome α × Session κ),
      I w' ∧ (∀ a, F a env w = rest (eval c a env w')) ∧
      ∀ r r', I r.2 → Alike r r' → I (rest r).2 ∧ Alike (rest r) (rest r')

/-- Evaluating keeps an invariant and does the same whatever the journal says. -/
class Evaluates (I : Session κ → Prop) (c : Context) (env : Env κ) : Prop where
  eval : ∀ e, Keeps I .anyhow env (eval c e)
  set : ∀ path v, Keeps I .anyhow env (Evaluation.set c path v)
  toggle : ∀ path, Keeps I .anyhow env (toggle c path)
  publish : ∀ topic payload, Keeps I .anyhow env (publish c topic payload)
  fetch : ∀ url init, Keeps I .anyhow env (fetch c url init)
  hasClass : ∀ el name, Keeps I .anyhow env (hasClass el name)

namespace AsksOnce

variable {I : Session κ → Prop} {c : Context} {env : Env κ}

instance (m : Eff κ α) : AsksOnce I c env fun _ => m := ⟨fun _ _ => .inl fun _ _ => rfl⟩

instance eval_here : AsksOnce I c env fun a => eval c a :=
  ⟨fun w hw => .inr ⟨w, id, hw, fun _ => rfl, fun _ _ hi h => ⟨hi, h⟩⟩⟩

/-- What is made of its result. -/
theorem after {F : Expr → Eff κ α} {G : Expr → Eff κ β} [hF : AsksOnce I c env F]
    (k : Outcome α × Session κ → Outcome β × Session κ) (h : ∀ a w, G a env w = k (F a env w))
    (hk : ∀ r r', I r.2 → Alike r r' → I (k r).2 ∧ Alike (k r) (k r')) : AsksOnce I c env G where
  asks w hw := by
    rcases hF.asks w hw with hc | ⟨w', rest, hw', hr, ha⟩
    · exact .inl fun a b => by rw [h, h, hc a b]
    · refine .inr ⟨w', fun r => k (rest r), hw', fun a => by rw [h, hr], fun r r' hi hrr => ?_⟩
      obtain ⟨hi', hrr'⟩ := ha r r' hi hrr
      exact hk _ _ hi' hrr'

instance bind_first {F : Expr → Eff κ α} {k : α → Eff κ β} [AsksOnce I c env F]
    [hk : ∀ a, Keeps I .anyhow env (k a)] : AsksOnce I c env fun a => F a >>= k :=
  after (goingOn env k) (fun _ _ => rfl) fun _ _ hi h =>
    ⟨Keeps.kept_goingOn hk hi, Keeps.alike_goingOn trivial (fun a _ => hk a) hi h⟩

instance bind_rest {m : Eff κ α} {F : α → Expr → Eff κ β} [hm : Keeps I .anyhow env m]
    [hF : ∀ a, AsksOnce I c env (F a)] : AsksOnce I c env fun e => m >>= fun a => F a e where
  asks w hw := by
    have hbind : ∀ e, (m >>= fun a => F a e) env w = goingOn env (fun a => F a e) (m env w) :=
      fun _ => rfl
    have hi := (hm.meets w hw).kept
    simp only [hbind]
    rcases hr : m env w with ⟨a | f | _ | _, w'⟩ <;> rw [hr] at hi
    · exact (hF a).asks w' hi
    all_goals exact .inl fun _ _ => rfl

instance {p : Prop} [Decidable p] {F G : Expr → Eff κ α} [AsksOnce I c env F] [AsksOnce I c env G] :
    AsksOnce I c env fun a => if p then F a else G a := by
  split <;> infer_instance

instance {F : Expr → Eff κ α} [AsksOnce I c env F] : AsksOnce I c env fun a => (F a).attempt :=
  after attempted (fun _ _ => rfl) fun r _ hi h => by
    refine ⟨?_, h.attempted⟩
    obtain ⟨o, w⟩ := r
    cases o <;> exact hi

instance {F : Expr → Eff κ α} {p : Fault → Bool} {handle : Fault → Eff κ α} [AsksOnce I c env F]
    [∀ f, Keeps I .anyhow env (handle f)] : AsksOnce I c env fun a => contain (F a) p handle := by
  have (r : Except Fault α) : Keeps I .anyhow env (match r with
      | .ok a => pure a
      | .error f => if p f then handle f else raise f) := by
    split <;> infer_instance
  unfold contain
  infer_instance

variable [he : Evaluates I c env]

instance (e : Expr) : Keeps I .anyhow env (eval c e) := he.eval e

instance (path v : Value) : Keeps I .anyhow env (Evaluation.set c path v) := he.set path v

instance (path : Value) : Keeps I .anyhow env (toggle c path) := he.toggle path

instance (topic payload : Value) : Keeps I .anyhow env (publish c topic payload) :=
  he.publish topic payload

instance (url init : Value) : Keeps I .anyhow env (fetch c url init) := he.fetch url init

instance (es : List Expr) : Keeps I .anyhow env (Evaluation.evalAll c es) :=
  Keeps.evalAll_of_mem fun _ _ => inferInstance

instance (fs : List (String × Expr)) : Keeps I .anyhow env (Evaluation.evalFields c fs) :=
  Keeps.evalFields_of_mem fun _ _ => inferInstance

instance (last : Value) (es : List Expr) : Keeps I .anyhow env (Evaluation.evalLast c last es) :=
  Keeps.evalLast_of_mem (fun _ _ => inferInstance) last

instance [Roomy I] (f : Value → Value → Build Value) (acc : Value) (es : List Expr)
    [∀ a b, Build.Adds (fun _ => True) (f a b)] :
    Keeps I .anyhow env (Evaluation.foldArgs c f acc es) :=
  Keeps.foldArgs_of_mem (fun _ _ => inferInstance) f acc

variable {F : Expr → Expr} [hF : AsksOnce I c env fun x => eval c (F x)]

theorem evalAll (before after : List Expr) :
    AsksOnce I c env fun x => evalAll c (before ++ F x :: after) := by
  induction before with
  | nil => simp only [List.nil_append, Evaluation.evalAll]; infer_instance
  | cons e es ih => simp only [List.cons_append, Evaluation.evalAll]; infer_instance

theorem evalFields (before after : List (String × Expr)) (key : String) :
    AsksOnce I c env fun x => evalFields c (before ++ (key, F x) :: after) := by
  induction before with
  | nil => simp only [List.nil_append, Evaluation.evalFields]; infer_instance
  | cons e es ih =>
    obtain ⟨k, e⟩ := e
    simp only [List.cons_append, Evaluation.evalFields]
    infer_instance

theorem evalLast (before after : List Expr) (last : Value) :
    AsksOnce I c env fun x => evalLast c last (before ++ F x :: after) := by
  induction before generalizing last with
  | nil => simp only [List.nil_append, Evaluation.evalLast]; infer_instance
  | cons e es ih => simp only [List.cons_append, Evaluation.evalLast]; infer_instance

variable [Roomy I]

theorem foldArgs (before after : List Expr) (f : Value → Value → Build Value) (acc : Value)
    [∀ a b, Build.Adds (fun _ => True) (f a b)] :
    AsksOnce I c env fun x => foldArgs c f acc (before ++ F x :: after) := by
  induction before generalizing acc with
  | nil => simp only [List.nil_append, Evaluation.foldArgs]; infer_instance
  | cons e es ih => simp only [List.cons_append, Evaluation.foldArgs]; infer_instance

theorem apply (op : Operator) (before after : List Expr) :
    AsksOnce I c env fun x => apply c op (before ++ F x :: after) := by
  have := he.hasClass
  rcases before with _ | ⟨a, before⟩
  · simp only [List.nil_append]
    rcases after with _ | ⟨b, _ | ⟨d, _ | ⟨e, after⟩⟩⟩ <;> cases op <;>
      (simp only [Evaluation.apply]; infer_instance)
  · have hlast (last : Value) :
        AsksOnce I c env fun x => Evaluation.evalLast c last (before ++ F x :: after) :=
      evalLast before after last
    have hfold (f : Value → Value → Build Value) (acc : Value)
        [∀ a b, Build.Adds (fun _ => True) (f a b)] :
        AsksOnce I c env fun x => Evaluation.foldArgs c f acc (before ++ F x :: after) :=
      foldArgs before after f acc
    rcases before with _ | ⟨b, _ | ⟨d, before⟩⟩
    · simp only [List.cons_append, List.nil_append] at hlast hfold ⊢
      rcases after with _ | ⟨b, _ | ⟨d, after⟩⟩ <;> cases op <;>
        (simp only [Evaluation.apply]; infer_instance)
    · simp only [List.cons_append, List.nil_append] at hlast hfold ⊢
      rcases after with _ | ⟨d, after⟩ <;> cases op <;>
        (simp only [Evaluation.apply]; infer_instance)
    · simp only [List.cons_append] at hlast hfold ⊢
      rcases before with _ | ⟨e, before⟩ <;> simp only [List.cons_append, List.nil_append] at * <;>
        cases op <;> (simp only [Evaluation.apply]; infer_instance)

/-- What stands around a hole evaluates what fills it at most once. -/
theorem plug (hole : Hole) : AsksOnce I c env fun x => eval c (hole.plug x) := by
  induction hole with
  | here => exact eval_here
  | item before hole after ih =>
    have : AsksOnce I c env fun x => Evaluation.evalAll c (before ++ hole.plug x :: after) :=
      evalAll before after
    simp only [Hole.plug, eval]
    infer_instance
  | field before key hole after ih =>
    have : AsksOnce I c env fun x => Evaluation.evalFields c (before ++ (key, hole.plug x) :: after) :=
      evalFields before after key
    simp only [Hole.plug, eval]
    infer_instance
  | operand op before hole after ih =>
    have : AsksOnce I c env fun x => Evaluation.apply c op (before ++ hole.plug x :: after) :=
      apply op before after
    simp only [Hole.plug, eval]
    infer_instance

end AsksOnce

end ReactiveScopes
