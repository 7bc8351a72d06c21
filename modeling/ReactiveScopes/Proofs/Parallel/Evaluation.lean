import ReactiveScopes.Proofs.Contract
import ReactiveScopes.Proofs.Parallel.Writing

/-!
# Evaluating in parallel

Evaluating an expression in two contexts that resemble each other goes in step. Where it only reads that is
so whatever client code does; where it writes or calls, as far as client code goes in step as well.
-/
namespace ReactiveScopes

variable {A : Ref → Ref → Prop}

/-- The same capabilities up to the cells that they name. -/
structure Capabilities.Resembles (A : Ref → Ref → Prop) (c c' : Capabilities) : Prop where
  el : c.el.Resembles A c'.el
  event : c.event.Resembles A c'.event
  fetch : c.fetch.Resembles A c'.fetch
  extra : Option.Rel (Value.Resembles A) c.extra c'.extra

/-- The same to read from: what is published to does not matter for that. -/
structure Context.Resembles (A : Ref → Ref → Prop) (c c' : Context) : Prop where
  state : c.state.Resembles A c'.state
  capabilities : c.capabilities.Resembles A c'.capabilities

namespace Store.Resembles

variable {s s' : Store} {a a' b b' : Value} (h : s.Resembles A s')

include h

theorem isKeyWithin (n : Nat) (ha : a.Resembles A a') : s'.isKeyWithin n a' = s.isKeyWithin n a := by
  induction n generalizing a a' with
  | zero => rfl
  | succ n ih =>
    have hall {xs ys : List Value} (hx : List.Forall₂ (Value.Resembles A) xs ys) :
        ys.all (s'.isKeyWithin n) = xs.all (s.isKeyWithin n) := by
      induction hx with
      | nil => rfl
      | cons hv _ ih' => rw [List.all_cons, List.all_cons, ih hv, ih']
    have hl := h.look ha
    unfold Store.isKeyWithin
    generalize s.look a = x, s'.look a' = y at hl ⊢
    cases hl with
    | none => rfl
    | some hc =>
      cases hc with
      | tuple hx | expr e hx => exact hall hx
      | context h₁ h₂ h₃ h₄ => exact hall (.cons h₁ (.cons h₂ (.cons h₃ (.cons h₄ .nil))))
      | face part e ht =>
        cases part with
        | config => exact hall (List.rel_map (fun _ _ h => h.2) ht)
        | _ => rfl
      | _ => rfl

theorem isKey (ha : a.Resembles A a') : s'.isKey a' = s.isKey a := by
  rw [Store.isKey, h.depth]
  exact h.isKeyWithin _ ha

theorem keyOf {t u : Mapping} (ht : Mapping.Resembles A t u) (ha : a.Resembles A a') :
    Matched (Value.Resembles A) (s.keyOf t a) (s'.keyOf u a') := by
  unfold Store.keyOf
  rw [h.isKey ha]
  split
  · exact keyWithin h.sameKey ht ha
  · exact .error _

theorem holdsKey (ha : a.Resembles A a') (hb : b.Resembles A b') :
    (match s'.mapping? a' with
      | some t => do return t.contains (← s'.keyOf t b')
      | none => .error .unsupported) = (match s.mapping? a with
      | some t => do return t.contains (← s.keyOf t b)
      | none => .error .unsupported : Except Fault Bool) := by
  have hm := h.mapping? ha
  generalize s.mapping? a = x, s'.mapping? a' = y at hm ⊢
  cases hm with
  | none => rfl
  | some ht =>
    refine (Matched.eq ((h.keyOf ht hb).bind fun k k' hk => .of_eq ?_)).symm
    have hg := ht.get? h.unique hk
    unfold Table.contains
    generalize Table.get? _ k = x, Table.get? _ k' = y at hg ⊢
    cases hg <;> rfl

theorem holdsClass (ha : a.Resembles A a') (hb : b.Resembles A b') :
    s'.holdsClass a' b' = s.holdsClass a b := by
  have hla := h.look ha
  have hlb := h.look hb
  have hsame := h.sameItem h.equal
  have hother := h.holdsKey ha hb
  unfold Store.holdsClass
  rw [ha.text?, hb.number?, h.isKey hb]
  cases a.text? with
  | some t =>
    refine memberOf hsame hb (List.forall₂_same.2 fun v hv => ?_)
    obtain ⟨w, -, rfl⟩ := List.mem_map.1 hv
    exact .bare rfl
  | none =>
    generalize s.look a = x, s'.look a' = y at hla ⊢
    cases hla with
    | none => exact hother
    | some hc =>
      cases hc with
      | list hx | tuple hx => exact memberOf hsame hb hx
      | set hx =>
        dsimp only
        generalize s.look b = x, s'.look b' = y at hlb ⊢
        cases hlb with
        | none => simp only [memberOf h.sameKey hb hx]
        | some hd => cases hd <;> simp only [memberOf h.sameKey hb hx]
      | bytes t =>
        dsimp only
        generalize s.look b = x, s'.look b' = y at hlb ⊢
        cases hlb with
        | none => rfl
        | some hd => cases hd <;> rcases b.number? with _ | _ | _ <;> rfl
      | _ => exact hother

end Store.Resembles

namespace Evaluation

open Eff

variable {κ : Type} {env : Env κ} {w w' : Session κ} {c c' : Context} (hc : c.Resembles A c')
  {a a' b b' : Value}

section

include hc

theorem lookup_matched {s s' : Store} (h : s.Resembles A s') (name : String) :
    Matched (Value.Resembles A) (c.capabilities.lookup s name) (c'.capabilities.lookup s' name) := by
  obtain ⟨hel, hevent, hfetch, hx⟩ := hc.capabilities
  unfold Capabilities.lookup
  split
  · exact .ok hel
  · split
    · exact .ok hevent
    · split
      · exact .ok hfetch
      · generalize c.capabilities.extra = x, c'.capabilities.extra = x' at hx ⊢
        cases hx with
        | none => exact .ok (.bare rfl)
        | @some v v' hv =>
          have hm := h.mapping? hv
          dsimp only
          generalize s.mapping? v = t, s'.mapping? v' = u at hm ⊢
          cases hm with
          | none => exact .error _
          | some ht => exact .ok (ht.at_getD h.unique name)

theorem get_agree (ha : a.Resembles A a') :
    Agree A (Value.Resembles A) env (get c a) (get c' a') := by
  intro w w' hw
  refine .bind_store ?_
  have hstate : AgreeAt A (Value.Resembles A) env w w' (build (Build.getPath c.state a))
      (build (Build.getPath c'.state a')) :=
    .build hw (Build.Agree.getPath hc.state ha)
  rw [ha.text?]
  split
  · split
    · refine .bind_ofExcept hw (lookup_matched hc hw.store _) fun v v' hv => ?_
      split
      · exact .pure hw hv
      · exact .build hw (Build.Agree.getPath hv (.bare rfl))
    · exact hstate
  · exact hstate

end

theorem binary_agree (op : Operator) (ha : a.Resembles A a') (hb : b.Resembles A b') :
    Agree A (Value.Resembles A) env (binary op a b) (binary op a' b') := by
  intro w w' hw
  refine .bind_store ?_
  have hbool {x y : Except Fault Bool} (f : Bool → Bool) (hx : y = x) :
      AgreeAt A (Value.Resembles A) env w w' (do return .bool (f (← ofExcept x)))
        (do return .bool (f (← ofExcept y))) := by
    refine .bind_ofExcept hw (.of_eq hx.symm) fun x y hxy => ?_
    subst hxy
    exact .pure hw (.bare rfl)
  dsimp only
  split
  · exact .build hw (Build.Agree.mod ha hb)
  · exact hbool id (hw.store.equal ha hb)
  · exact hbool id (hw.store.strictEqual ha hb)
  · exact hbool not (hw.store.equal ha hb)
  · exact hbool id (hw.store.relate _ ha hb)
  · exact hbool id (hw.store.relate _ ha hb)
  · exact hbool id (hw.store.relate _ ha hb)
  · exact hbool id (hw.store.relate _ ha hb)
  · exact .pure hw (.bare rfl)

/-- What is called during evaluations in both contexts goes in step. -/
structure Acts (A : Ref → Ref → Prop) (env : Env κ) (c c' : Context) : Prop where
  call : env.Agrees A
  pub : c.pub.Resembles A c'.pub

section Acting

variable (hacts : Acts A env c c')

include hacts

include hc in
theorem set_agree (ha : a.Resembles A a') (hb : b.Resembles A b') :
    Agree A (Value.Resembles A) env (set c a b) (set c' a' b') :=
  fun _ _ hw => (writeState_agree hacts.call hc.state hb ha hw).bind fun _ _ _ _ _ hw => .pure hw hb

include hc in
theorem toggle_agree (ha : a.Resembles A a') :
    Agree A (Value.Resembles A) env (toggle c a) (toggle c' a') := by
  intro w w' hw
  refine .bind_store (.bind_ofExcept hw (hw.store.getPath hc.state ha) fun v v' hv => ?_)
  dsimp only
  rw [hw.store.truthy hv]
  exact (writeState_agree hacts.call hc.state (.bare rfl) ha hw).bind fun _ _ _ _ _ hw =>
    .pure hw (.bare rfl)

/-- Calls whose errors are reported and give a value. -/
theorem contained_agree {f f' : Value} {args args' : List Value} {told : Fault → Notice} {v : Value}
    (hf : f.Resembles A f') (hargs : List.Forall₂ (Value.Resembles A) args args')
    (hv : v.ref? = Option.none) :
    Agree A (Value.Resembles A) env
      (contain (callValue f args) Fault.isError fun fault => do notice (told fault); return v)
      (contain (callValue f' args') Fault.isError fun fault => do notice (told fault); return v) :=
  fun _ _ hw => (AgreeAt.callValue hacts.call hw hf hargs).contain fun _ _ _ hw =>
    (AgreeAt.notice _ hw).bind fun _ _ _ _ _ hw => .pure hw (.bare hv)

theorem publish_agree (ha : a.Resembles A a') (hb : b.Resembles A b') :
    Agree A (Value.Resembles A) env (publish c a b) (publish c' a' b') := by
  intro w w' hw
  unfold publish
  rw [hacts.pub.isNone]
  split
  · exact .pure hw (.bare rfl)
  · exact contained_agree hacts hacts.pub (.cons ha (.cons hb .nil)) rfl hw

include hc in
theorem fetch_agree (ha : a.Resembles A a') (hb : b.Resembles A b') :
    Agree A (Value.Resembles A) env (fetch c a b) (fetch c' a' b') := by
  intro w w' hw
  unfold fetch
  rw [hc.capabilities.fetch.isCallable]
  split
  · exact .pure hw (.bare rfl)
  · exact contained_agree hacts hc.capabilities.fetch (.cons ha (.cons hb .nil)) rfl hw

omit hacts in
theorem classesOf_agree (ha : a.Resembles A a') {names : List String}
    (hnames : ∀ n ∈ names, Store.isPrivate n = false) :
    Agree A (Option.Rel (Value.Resembles A)) env (classesOf a names) (classesOf a' names) := by
  induction names with
  | nil => exact fun _ _ hw => .pure hw .none
  | cons n names ih =>
    have ih := ih fun m hm => hnames m (List.mem_cons_of_mem n hm)
    intro w w' hw
    unfold classesOf
    refine .bind_store (.bind_ofExcept hw (hw.store.attribute? ha (hnames n List.mem_cons_self))
      fun x x' hx => ?_)
    cases hx with
    | none => exact ih hw
    | some hv =>
      dsimp only
      rw [hv.isNone]
      split
      · exact ih hw
      · exact .pure hw (.some hv)

theorem askClass_agree (ha : a.Resembles A a') (hb : b.Resembles A b') :
    Agree A Eq env (askClass a b) (askClass a' b') := by
  intro w w' hw
  unfold askClass
  refine .bind_store (.bind_ofExcept hw (hw.store.attribute? ha rfl) fun x x' hx => ?_)
  have hcall : x'.any Value.isCallable = x.any Value.isCallable := by
    cases hx with
    | none => rfl
    | some hv => exact hv.isCallable
  rw [hcall]
  split
  · exact (AgreeAt.callValue hacts.call hw (getD_none hx) (.cons hb .nil)).bind
      fun v v' hv _ _ hw => .truthy hw hv
  · refine (classesOf_agree ha (by decide) hw).bind fun x x' hx w w' hw => ?_
    cases hx with
    | none => exact .pure hw rfl
    | some hv =>
      refine .bind_store ⟨?_⟩
      rw [hw.store.holdsClass hv hb]
      cases w.store.holdsClass _ b with
      | ok b => exact .value rfl hw
      | error f => exact .fault f hw

theorem hasClass_agree (ha : a.Resembles A a') (hb : b.Resembles A b') :
    Agree A (Value.Resembles A) env (hasClass a b) (hasClass a' b') := by
  intro w w' hw
  unfold hasClass
  rw [ha.isNone]
  split
  · exact .pure hw (.bare rfl)
  · refine AgreeAt.contain ?_ fun _ _ _ hw =>
      (AgreeAt.notice _ hw).bind fun _ _ _ _ _ hw => .pure hw (.bare rfl)
    exact (askClass_agree hacts ha hb hw).bind fun x y hxy _ _ hw => .pure hw (hxy ▸ .bare rfl)

end Acting

/-- Evaluating in both contexts goes in step. -/
def AgreesOn (A : Ref → Ref → Prop) (env : Env κ) (c c' : Context) (e : Expr) : Prop :=
  Agree A (Value.Resembles A) env (eval c e) (eval c' e)

section Lists

variable {es : List Expr} (h : ∀ e ∈ es, AgreesOn A env c c' e)

include h

theorem evalAll_of_mem : Agree A (List.Forall₂ (Value.Resembles A)) env (evalAll c es) (evalAll c' es) := by
  induction es with
  | nil =>
    unfold evalAll
    exact fun _ _ hw => .pure hw .nil
  | cons e es ih =>
    have hes := ih fun e' he => h e' (List.mem_cons_of_mem e he)
    unfold evalAll
    exact fun _ _ hw => (h e List.mem_cons_self hw).bind fun v v' hv _ _ hw =>
      (hes hw).bind fun vs vs' hvs _ _ hw => .pure hw (.cons hv hvs)

theorem foldArgs_of_mem {f : Value → Value → Build Value}
    (hf : ∀ {a a' b b'}, a.Resembles A a' → b.Resembles A b' →
      Build.Agree A (Value.Resembles A) (f a b) (f a' b'))
    (ha : a.Resembles A a') :
    Agree A (Value.Resembles A) env (foldArgs c f a es) (foldArgs c' f a' es) := by
  induction es generalizing a a' with
  | nil =>
    unfold foldArgs
    exact fun _ _ hw => .pure hw ha
  | cons e es ih =>
    unfold foldArgs
    exact fun _ _ hw => (h e List.mem_cons_self hw).bind fun v v' hv _ _ hw =>
      (AgreeAt.build hw (hf ha hv)).bind fun x x' hx =>
        ih (fun e' he => h e' (List.mem_cons_of_mem e he)) hx

theorem evalLast_of_mem (ha : a.Resembles A a') :
    Agree A (Value.Resembles A) env (evalLast c a es) (evalLast c' a' es) := by
  induction es generalizing a a' with
  | nil =>
    unfold evalLast
    exact fun _ _ hw => .pure hw ha
  | cons e es ih =>
    unfold evalLast
    exact fun _ _ hw => (h e List.mem_cons_self hw).bind fun v v' hv =>
      ih (fun e' he => h e' (List.mem_cons_of_mem e he)) hv

end Lists

theorem evalFields_of_mem {fs : List (String × Expr)} (h : ∀ e ∈ fs, AgreesOn A env c c' e.2) :
    Agree A (FieldsResemble A) env (evalFields c fs) (evalFields c' fs) := by
  induction fs with
  | nil =>
    unfold evalFields
    exact fun _ _ hw => .pure hw .nil
  | cons e fs ih =>
    have hfs := ih fun e' he => h e' (List.mem_cons_of_mem e he)
    unfold evalFields
    exact fun _ _ hw => (h e List.mem_cons_self hw).bind fun v v' hv _ _ hw =>
      (hfs hw).bind fun vs vs' hvs _ _ hw => .pure hw (.cons ⟨rfl, hv⟩ hvs)

include hc in
/-- Every operator goes in step, those that write or call as far as client code does. -/
theorem apply_agree {op : Operator} {es : List Expr} (hop : op.isReadOnly ∨ Acts A env c c')
    (h : ∀ e ∈ es, AgreesOn A env c c' e) :
    Agree A (Value.Resembles A) env (apply c op es) (apply c' op es) := by
  intro w w' hw
  have hacts (hno : op.isReadOnly = false) : Acts A env c c' := hop.resolve_left (by simp [hno])
  -- By the number of operands: none, one, two, three, more.
  rcases es with _ | ⟨x, es⟩
  · cases op <;> unfold apply <;> exact .pure hw (.bare rfl)
  · have hx := h x List.mem_cons_self hw
    have ht : ∀ e ∈ es, AgreesOn A env c c' e := fun e he => h e (List.mem_cons_of_mem x he)
    have hfold {f : Value → Value → Build Value}
        (hf : ∀ {a a' b b'}, a.Resembles A a' → b.Resembles A b' →
          Build.Agree A (Value.Resembles A) (f a b) (f a' b')) :
        AgreeAt A (Value.Resembles A) env w w' (do foldArgs c f (← eval c x) es)
          (do foldArgs c' f (← eval c' x) es) :=
      hx.bind fun _ _ hv => foldArgs_of_mem ht hf hv
    have hlast : AgreeAt A (Value.Resembles A) env w w' (do evalLast c (← eval c x) es)
        (do evalLast c' (← eval c' x) es) :=
      hx.bind fun _ _ hv => evalLast_of_mem ht hv
    rcases es with _ | ⟨y, es⟩
    · cases op <;> unfold apply
      case add => exact hfold Build.Agree.add
      case mul => exact hfold Build.Agree.mul
      case div => exact hfold Build.Agree.div
      case seq => exact hlast
      case sub => exact hx.bind fun _ _ hv _ _ hw => .build hw (Build.Agree.neg hv)
      case get => exact hx.bind fun _ _ hv => get_agree hc hv
      case not =>
        exact hx.bind fun _ _ hv _ _ hw => (AgreeAt.truthy hw hv).bind fun _ _ hb _ _ hw =>
          .pure hw (hb ▸ .bare rfl)
      case toggle => exact hx.bind fun _ _ hv => toggle_agree hc (hacts rfl) hv
      case pub => exact hx.bind fun _ _ hv => publish_agree (hacts rfl) hv (.bare rfl)
      case fetch => exact hx.bind fun _ _ hv => fetch_agree hc (hacts rfl) hv (.bare rfl)
      case hasClass => exact hx.bind fun _ _ hv => hasClass_agree (hacts rfl) hc.capabilities.el hv
      all_goals exact .pure hw (.bare rfl)
    · have hy := ht y List.mem_cons_self
      rcases es with _ | ⟨z, es⟩
      · cases op <;> unfold apply
        case add => exact hfold Build.Agree.add
        case mul => exact hfold Build.Agree.mul
        case div => exact hfold Build.Agree.div
        case sub => exact hfold Build.Agree.sub
        case seq => exact hlast
        case and | or =>
          refine hx.bind fun v v' hv _ _ hw => (AgreeAt.truthy hw hv).bind fun b b' hb => ?_
          subst hb
          split
          · first | exact hy | exact fun _ _ hw => .pure hw hv
          · first | exact hy | exact fun _ _ hw => .pure hw hv
        case set =>
          exact hx.bind fun _ _ hv _ _ hw => (hy hw).bind fun _ _ hu => set_agree hc (hacts rfl) hv hu
        case pub =>
          exact hx.bind fun _ _ hv _ _ hw => (hy hw).bind fun _ _ hu => publish_agree (hacts rfl) hv hu
        case fetch =>
          exact hx.bind fun _ _ hv _ _ hw => (hy hw).bind fun _ _ hu => fetch_agree hc (hacts rfl) hv hu
        case hasClass =>
          exact hx.bind fun _ _ hv _ _ hw => (hy hw).bind fun _ _ hu => hasClass_agree (hacts rfl) hu hv
        all_goals
          exact hx.bind fun _ _ hv _ _ hw => (hy hw).bind fun _ _ hu => binary_agree _ hv hu
      · have hz := ht z (List.mem_cons_of_mem y List.mem_cons_self)
        cases es <;> cases op <;> unfold apply
        case nil.cond =>
          refine hx.bind fun v v' hv _ _ hw => (AgreeAt.truthy hw hv).bind fun b b' hb => ?_
          subst hb
          split
          · exact hy
          · exact hz
        all_goals first
          | exact hfold Build.Agree.add
          | exact hfold Build.Agree.mul
          | exact hfold Build.Agree.div
          | exact hfold Build.Agree.sub
          | exact hlast
          | exact .pure hw (.bare rfl)

include hc in
/-- Expressions go in step, those that write or call as far as client code does. -/
theorem eval_agree {e : Expr}
    (he : e.Every (fun v => v.Resembles A v) fun op _ => op.isReadOnly ∨ Acts A env c c') :
    AgreesOn A env c c' e := by
  induction he with
  | literal hv =>
    unfold AgreesOn eval
    exact fun _ _ hw => .pure hw hv
  | invalid reason =>
    unfold AgreesOn eval
    exact fun _ _ hw => .pure hw (.bare rfl)
  | array h ih =>
    unfold AgreesOn eval
    exact fun _ _ hw => (evalAll_of_mem ih hw).bind fun vs vs' hvs _ _ hw =>
      .build hw fun _ _ h => .alloc h rfl (.list hvs)
  | object h ih =>
    unfold AgreesOn eval
    exact fun _ _ hw => (evalFields_of_mem ih hw).bind fun fs fs' hfs _ _ hw =>
      .build hw fun _ _ h => .alloc h rfl (.dict (hfs.mapping h.unique))
  | apply hop h ih =>
    unfold AgreesOn eval
    exact fun _ _ hw => (apply_agree hc hop ih hw).contain fun f _ _ hw =>
      (AgreeAt.notice _ hw).bind fun _ _ _ _ _ hw => .pure hw (.bare rfl)

end Evaluation

end ReactiveScopes
