import ReactiveScopes.Proofs.Contract
import ReactiveScopes.Proofs.Region

/-!
# Fences

A computation that is handed values of a region works within it: the region only takes in new cells,
and no cell outside of it changes. So do evaluating expressions against a record of the region and
writing there, as long as no client code is called; and the writes that are reported concern no other
scope.
-/
namespace ReactiveScopes

open Eff

variable {κ α β : Type}

/-- Containers that are written in place. -/
def Cell.isContainer : Cell → Bool
  | .list _ | .dict _ => true
  | _ => false

/-- Literals that name no cell, and no operators that call client code. -/
abbrev Expr.IsSelfContained (e : Expr) : Prop :=
  e.Every (fun v => v.ref? = none) fun op _ => op.isReadOnly ∨ op = .set ∨ op = .toggle

/-- Tells at most a scheduler, and not about that scope of the engine. -/
def Hook.Spares (hook : Hook) (e : Nat) (scope : Value) : Prop :=
  hook = .none ∨ ∃ e' scope', hook = .schedule e' scope' ∧ ¬ (e' = e ∧ scope' = scope)

/-- Where a computation began, the region it began with, and a scope that it is to leave alone. -/
structure Fence (κ : Type) where
  before : Session κ
  inside : Ref → Prop
  engine : Nat
  scope : Value

namespace Fence

/-- The computation has worked within a region and has left the scope alone. -/
structure Kept (f : Fence κ) (R : Ref → Prop) (w : Session κ) : Prop where
  closed : w.store.Closed R
  inside : ∀ {r}, R r → f.inside r ∨ f.before.store.cell? r = none
  changed : ∀ {r}, w.store.cell? r ≠ f.before.store.cell? r →
    R r ∧ ∀ c, f.before.store.cell? r = some c → c.isContainer
  record : ∀ {r data hook}, R r → w.store.cell? r = some (.record data hook) →
    (∃ t, w.store.cell? data = some (.dict t)) ∧ hook.Spares f.engine f.scope
  attached : w.store.attached = f.before.store.attached
  records : ∀ e, (w.engine e).records = (f.before.engine e).records
  sink : ∀ e, (w.engine e).queue.sink = (f.before.engine e).queue.sink
  watchers : ∀ e, (w.engine e).scheduler.watchers = (f.before.engine e).scheduler.watchers
  pending : f.scope ∈ (w.engine f.engine).scheduler.pending ↔
    f.scope ∈ (f.before.engine f.engine).scheduler.pending
  deferred : f.scope ∈ (w.engine f.engine).scheduler.deferred ↔
    f.scope ∈ (f.before.engine f.engine).scheduler.deferred

/-- Some values are in the region that the computation has worked within. -/
def Holds (f : Fence κ) (S : List Value) (w : Session κ) : Prop :=
  ∃ R, f.Kept R w ∧ ∀ v ∈ S, v.In R

/-- The values that an outcome gives. -/
def given [Carries α] : Outcome α → List Value
  | .value a => Carries.values a
  | _ => []

/-- Goes on from a session within the region that some values are in. -/
structure StaysAt [Carries α] (f : Fence κ) (env : Env κ) (S : List Value) (w : Session κ)
    (m : Eff κ α) : Prop where
  stays : f.Holds S w → f.Holds (given (m env w).1 ++ S) (m env w).2

/-- Works within any region that some values are in. -/
class Stays [Carries α] (f : Fence κ) (env : Env κ) (S : List Value) (m : Eff κ α) : Prop where
  at_ : ∀ w, f.StaysAt env S w m

variable {f : Fence κ} {env : Env κ} {S T : List Value} {w w' : Session κ} {R R' : Ref → Prop}

namespace Kept

/-- The store and what matters of the engines are the same. -/
theorem congr (h : f.Kept R w) (hs : w'.store = w.store)
    (hrecords : ∀ e, (w'.engine e).records = (w.engine e).records)
    (hsink : ∀ e, (w'.engine e).queue.sink = (w.engine e).queue.sink)
    (hwatchers : ∀ e, (w'.engine e).scheduler.watchers = (w.engine e).scheduler.watchers)
    (hpending : f.scope ∈ (w'.engine f.engine).scheduler.pending ↔
      f.scope ∈ (w.engine f.engine).scheduler.pending)
    (hdeferred : f.scope ∈ (w'.engine f.engine).scheduler.deferred ↔
      f.scope ∈ (w.engine f.engine).scheduler.deferred) : f.Kept R w' where
  closed := hs ▸ h.closed
  inside := h.inside
  changed := hs ▸ h.changed
  record := hs ▸ h.record
  attached := hs ▸ h.attached
  records e := (hrecords e).trans (h.records e)
  sink e := (hsink e).trans (h.sink e)
  watchers e := (hwatchers e).trans (h.watchers e)
  pending := hpending.trans h.pending
  deferred := hdeferred.trans h.deferred

theorem beside (h : f.Kept R w) (hs : w'.store = w.store) (he : ∀ e, w'.engine e = w.engine e) :
    f.Kept R w' :=
  h.congr hs (fun e => by rw [he]) (fun e => by rw [he]) (fun e => by rw [he]) (by rw [he]) (by rw [he])

theorem grows (h : f.Kept R w) {s : Store} (hg : w.store.Grows s R R') :
    f.Kept R' { w with store := s } where
  closed := hg.closed
  inside {r} hr := by
    rcases hg.fresh hr with hr | hn
    · exact h.inside hr
    · by_cases hc : w.store.cell? r = f.before.store.cell? r
      · exact .inr (hc ▸ hn)
      · exact h.inside (h.changed hc).1
  changed {r} hr := by
    by_cases hc : w.store.cell? r = f.before.store.cell? r
    · cases hb : f.before.store.cell? r with
      | some c =>
        rw [hb] at hc
        exact absurd ((hg.more.kept hc).trans hb.symm) hr
      | none =>
        rw [hb] at hc hr
        exact ⟨hg.taken hc hr, fun _ hb => by cases hb⟩
    · exact ⟨hg.kept (h.changed hc).1, (h.changed hc).2⟩
  record {r data hook} hr hc := by
    have hold := hg.more.object hc rfl
    have hr : R r := by
      rcases hg.fresh hr with hr | hn
      · exact hr
      · rw [hn] at hold
        cases hold
    obtain ⟨⟨t, ht⟩, hh⟩ := h.record hr hold
    exact ⟨⟨t, hg.more.kept ht⟩, hh⟩
  attached := hg.more.attached.trans h.attached
  records := h.records
  sink := h.sink
  watchers := h.watchers
  pending := h.pending
  deferred := h.deferred

/-- A container of the region is stored into. A dictionary stays one. -/
theorem put (h : f.Kept R w) {r : Ref} {c d : Cell} (hr : R r) (hc : w.store.cell? r = some c)
    (hcc : c.isContainer) (hdc : d.isContainer) (hd : ∀ v ∈ d.parts, v.In R)
    (hdict : (∃ t, c = .dict t) → ∃ t, d = .dict t) :
    f.Kept R { w with store := w.store.put r d } := by
  have hput {x : Ref} : (w.store.put r d).cell? x = if r = x then some d else w.store.cell? x :=
    Store.cell?_put (h.closed.bound hr)
  refine ⟨⟨fun hx => ?_, fun {x e} hx hxe => ?_, h.closed.attached⟩, h.inside, fun {x} hx => ?_,
    fun {x data hook} hx hxr => ?_, h.attached, h.records, h.sink, h.watchers, h.pending, h.deferred⟩
  · simpa [Store.put] using h.closed.bound hx
  · rw [hput] at hxe
    split at hxe
    · cases hxe
      exact hd
    · exact h.closed.part hx hxe
  · by_cases hold : w.store.cell? x = f.before.store.cell? x
    · rw [hput] at hx
      split at hx
      · next hrx =>
        subst hrx
        refine ⟨hr, fun b hb => ?_⟩
        rw [← hold, hc] at hb
        cases hb
        exact hcc
      · exact absurd hold hx
    · exact h.changed hold
  · rw [hput] at hxr
    split at hxr
    · cases hxr
      cases hdc
    · obtain ⟨⟨t, ht⟩, hh⟩ := h.record hx hxr
      refine ⟨?_, hh⟩
      rw [hput]
      split
      · next hrd =>
        subst hrd
        rw [hc] at ht
        cases ht
        obtain ⟨u, rfl⟩ := hdict ⟨t, rfl⟩
        exact ⟨u, rfl⟩
      · exact ⟨t, ht⟩

/-- What is no container stays as it was. -/
theorem same (h : f.Kept R w) {r : Ref} {c : Cell} (hc : f.before.store.cell? r = some c)
    (hn : c.isContainer = false) : w.store.cell? r = some c := by
  by_cases hs : w.store.cell? r = f.before.store.cell? r
  · rw [hs, hc]
  · have := (h.changed hs).2 c hc
    rw [hn] at this
    cases this

end Kept

theorem Holds.mono (h : f.Holds S w) (hST : ∀ v ∈ T, v ∈ S) : f.Holds T w :=
  h.imp fun _ hR => ⟨hR.1, fun v hv => hR.2 v (hST v hv)⟩

/-- One more value that is in the region. -/
theorem Holds.also (h : f.Holds S w) {v : Value}
    (hv : ∀ R, f.Kept R w → (∀ u ∈ S, u.In R) → v.In R) : f.Holds (v :: S) w :=
  h.imp fun R hR => ⟨hR.1, fun u hu => (List.mem_cons.1 hu).elim
    (fun hu => hu ▸ hv R hR.1 hR.2) (hR.2 u)⟩

section Rules

variable [Carries α] [Carries β]

namespace StaysAt

theorem pure {a : α} (h : ∀ v ∈ Carries.values a, w.store.Leads S v) : f.StaysAt env S w (pure a) := by
  refine ⟨fun ⟨R, hR, hS⟩ => ⟨R, hR, fun v hv => ?_⟩⟩
  exact (List.mem_append.1 hv).elim (fun hv => h v hv R hR.closed hS) (hS v)

/-- What holds may be used. -/
theorem assume {m : Eff κ α} (h : f.Holds S w → f.StaysAt env S w m) : f.StaysAt env S w m :=
  ⟨fun hw => (h hw).stays hw⟩

theorem raise {e : Fault} : f.StaysAt env S w (Eff.raise e : Eff κ α) := ⟨id⟩

theorem bind {m : Eff κ α} {k : α → Eff κ β} (hm : f.StaysAt env S w m)
    (hk : ∀ a w', m env w = (.value a, w') → f.StaysAt env (Carries.values a ++ S) w' (k a)) :
    f.StaysAt env S w (m >>= k) := by
  refine ⟨fun h => ?_⟩
  have h' := hm.stays h
  change f.Holds (given (Eff.bind m k env w).1 ++ S) (Eff.bind m k env w).2
  unfold Eff.bind
  rcases hr : m env w with ⟨a | e | _ | _, w'⟩ <;> rw [hr] at h'
  · refine ((hk a w' hr).stays h').mono fun v hv => ?_
    exact List.mem_append.2 ((List.mem_append.1 hv).imp_right (List.mem_append_right _))
  all_goals exact h'

/-- A computation that looks at the session before it goes on. -/
theorem bind_read {γ : Type} {g : Session κ → γ} {k : γ → Eff κ α} (h : f.StaysAt env S w (k (g w))) :
    f.StaysAt env S w (read g >>= k) := ⟨h.stays⟩

theorem bind_store {k : Store → Eff κ α} (h : f.StaysAt env S w (k w.store)) :
    f.StaysAt env S w (store >>= k) := ⟨h.stays⟩

theorem bind_ofExcept {γ : Type} {r : Except Fault γ} {k : γ → Eff κ α}
    (h : ∀ a, r = .ok a → f.StaysAt env S w (k a)) : f.StaysAt env S w (ofExcept r >>= k) := by
  cases r with
  | ok a => exact ⟨(h a rfl).stays⟩
  | error e => exact ⟨id⟩

/-- One more value that is in the region may be used as well. -/
theorem also {m : Eff κ α} {v : Value} (hv : ∀ R, f.Kept R w → (∀ u ∈ S, u.In R) → v.In R)
    (hm : f.StaysAt env (v :: S) w m) : f.StaysAt env S w m :=
  ⟨fun h => (hm.stays (h.also hv)).mono fun _ hu =>
    List.mem_append.2 ((List.mem_append.1 hu).imp_right (List.mem_cons_of_mem v))⟩

theorem leads {m : Eff κ α} {v : Value} (hv : w.store.Leads S v) (hm : f.StaysAt env (v :: S) w m) :
    f.StaysAt env S w m :=
  also (fun R hR hS => hv R hR.closed hS) hm

/-- A step whose result is known, and which changes neither the store nor what matters of the
engines. -/
theorem bind_known {γ : Type} {m : Eff κ γ} {k : γ → Eff κ α} {a : γ} (hm : m env w = (.value a, w'))
    (hs : w'.store = w.store) (he : ∀ e, w'.engine e = w.engine e) (h : f.StaysAt env S w' (k a)) :
    f.StaysAt env S w (m >>= k) := by
  refine ⟨fun ⟨R, hR, hS⟩ => ?_⟩
  rw [bind_value hm]
  exact h.stays ⟨R, hR.beside hs he, hS⟩

/-- Containing faults. -/
theorem contain {m : Eff κ α} {p : Fault → Bool} {handle : Fault → Eff κ α} (hm : f.StaysAt env S w m)
    (hh : ∀ e w', f.StaysAt env S w' (handle e)) : f.StaysAt env S w (contain m p handle) := by
  refine ⟨fun h => ?_⟩
  have h' := hm.stays h
  change f.Holds (given (Eff.bind m.attempt _ env w).1 ++ S) (Eff.bind m.attempt _ env w).2
  unfold Eff.bind Eff.attempt
  rcases hr : m env w with ⟨a | e | _ | _, w'⟩ <;> rw [hr] at h'
  · exact h'
  · cases hp : p e with
    | true => simpa [hp] using (hh e w').stays h'
    | false =>
      simp only [hp]
      exact h'
  all_goals exact h'

theorem build {m : Build α} (hm : Build.WithinAt S w.store m) : f.StaysAt env S w (build m) := by
  refine ⟨fun ⟨R, hR, hS⟩ => ?_⟩
  unfold Eff.build
  cases hr : m w.store with
  | error e => exact ⟨R, hR, hS⟩
  | ok p =>
    obtain ⟨R', hg, ha⟩ := hm.keeps hR.closed hS hr
    exact ⟨R', hR.grows hg, fun v hv =>
      (List.mem_append.1 hv).elim (ha v) fun hv => (hS v hv).mono hg.kept⟩

theorem alloc {c : Cell} (hd : c.isData) (h : ∀ v ∈ c.parts, w.store.Leads S v) :
    f.StaysAt env S w (alloc c : Eff κ Value) :=
  build (.alloc hd h)

end StaysAt

namespace Stays

theorem bind {m : Eff κ α} {k : α → Eff κ β} [hm : f.Stays env S m]
    (hk : ∀ a, f.Stays env (Carries.values a ++ S) (k a)) : f.Stays env S (m >>= k) :=
  ⟨fun w => (hm.at_ w).bind fun a w' _ => (hk a).at_ w'⟩

instance {m : Eff κ α} {k : α → Eff κ β} [f.Stays env S m]
    [∀ a, f.Stays env (Carries.values a ++ S) (k a)] : f.Stays env S (m >>= k) :=
  bind fun _ => inferInstance

theorem bind_store {k : Store → Eff κ α} (h : ∀ w : Session κ, f.StaysAt env S w (k w.store)) :
    f.Stays env S (store >>= k) :=
  ⟨fun w => .bind_store (h w)⟩

instance (v : Value) [h : Covers S v] : f.Stays env S (pure v : Eff κ Value) :=
  ⟨fun w => .pure fun _ hu => List.mem_singleton.1 hu ▸ h.leads w.store⟩

instance (a : Unit) : f.Stays env S (pure a : Eff κ Unit) := ⟨fun w => .pure fun _ hu => by cases hu⟩

instance (a : Bool) : f.Stays env S (pure a : Eff κ Bool) := ⟨fun w => .pure fun _ hu => by cases hu⟩

instance (e : Fault) : f.Stays env S (Eff.raise e : Eff κ α) := ⟨fun _ => .raise⟩

instance {m : Build α} [hm : Build.Within S m] : f.Stays env S (build m) := ⟨fun w => .build (hm.at_ w.store)⟩

instance {c : Prop} [Decidable c] {a b : Eff κ α} [f.Stays env S a] [f.Stays env S b] :
    f.Stays env S (if c then a else b) := by
  split <;> infer_instance

/-- Something that changes neither the store nor what matters of the engines. -/
theorem update {g : Session κ → Session κ} (hs : ∀ w, (g w).store = w.store)
    (hg : ∀ w e, (g w).engine e = w.engine e) : f.Stays env S (update g) :=
  ⟨fun w => ⟨fun ⟨R, hR, hS⟩ => ⟨R, hR.beside (hs w) (hg w), hS⟩⟩⟩

instance (e : Event) : f.Stays env S (log e : Eff κ Unit) := update (fun _ => rfl) fun _ _ => rfl

instance (n : Notice) : f.Stays env S (notice n : Eff κ Unit) :=
  inferInstanceAs (f.Stays env S (log _))

/-- Making a callable. -/
theorem bind_close {c : Closure} {k : Fn → Eff κ α} (h : ∀ n, f.Stays env S (k n)) :
    f.Stays env S (close c >>= k) :=
  ⟨fun _ => ⟨fun ⟨R, hR, hS⟩ => ((h _).at_ _).stays ⟨R, hR.beside rfl fun _ => rfl, hS⟩⟩⟩

theorem modifyEngine {e : Nat} {g : Engine → Engine} (hrecords : ∀ x, (g x).records = x.records)
    (hsink : ∀ x, (g x).queue.sink = x.queue.sink)
    (hwatchers : ∀ x, (g x).scheduler.watchers = x.scheduler.watchers)
    (hpending : e = f.engine → ∀ x,
      f.scope ∈ (g x).scheduler.pending ↔ f.scope ∈ x.scheduler.pending)
    (hdeferred : e = f.engine → ∀ x,
      f.scope ∈ (g x).scheduler.deferred ↔ f.scope ∈ x.scheduler.deferred) :
    f.Stays env S (modifyEngine e g : Eff κ Unit) := by
  refine ⟨fun w => ⟨fun ⟨R, hR, hS⟩ => ⟨R, hR.congr rfl ?_ ?_ ?_ ?_ ?_, hS⟩⟩⟩
  all_goals simp only [Eff.modifyEngine, Eff.update, Session.engine_modifyEngine]
  · intro x
    split
    · exact hrecords _
    · rfl
  · intro x
    split
    · exact hsink _
    · rfl
  · intro x
    split
    · exact hwatchers _
    · rfl
  · split
    · next he => exact hpending he _
    · rfl
  · split
    · next he => exact hdeferred he _
    · rfl

end Stays

end Rules

/-- The post functions do no more than take callbacks over. -/
def TakesOver (f : Fence κ) (env : Env κ) : Prop :=
  ∀ {e p}, (f.before.engine e).queue.sink = some p → ∀ args w,
    (env.call (.fn p) args w).2.store = w.store ∧ (env.call (.fn p) args w).2.engines = w.engines

namespace Stays

variable (henv : f.TakesOver env)

include henv in
/-- Telling a post function; what it answers is not used. -/
theorem tell {e : Nat} {p : Fn} (hp : (w.engine e).queue.sink = some p) (args : List Value) :
    f.StaysAt env S w (do let _ ← callFn p args) := by
  refine ⟨fun ⟨R, hR, hS⟩ => ?_⟩
  obtain ⟨hs, he⟩ := henv ((hR.sink e).symm.trans hp) args w
  have hR' := hR.beside hs (Session.engine_of_engines he)
  change f.Holds (given (Eff.bind (callFn p args) _ env w).1 ++ S) (Eff.bind (callFn p args) _ env w).2
  unfold Eff.bind
  have hc : callFn p args env w = env.call (.fn p) args w := rfl
  rw [hc]
  rcases hr : env.call (.fn p) args w with ⟨a | e | _ | _, w'⟩ <;> rw [hr] at hR' <;> exact ⟨R, hR', hS⟩

include henv in
theorem post (e : Nat) (g : Value) : f.Stays env S (Queue.post e g : Eff κ Unit) := by
  have soon (S : List Value) (entry : Ready) : f.Stays env S (Queue.soon entry : Eff κ Unit) :=
    update (fun _ => rfl) fun _ _ => rfl
  have append : f.Stays env S
      (Queue.modify e fun q => { q with posted := q.posted ++ [g] } : Eff κ Unit) :=
    modifyEngine (fun _ => rfl) (fun _ => rfl) (fun _ => rfl) (fun _ _ => .rfl) fun _ _ => .rfl
  unfold Queue.post
  refine bind fun _ => ⟨fun w => .bind_read (.bind_read ?_)⟩
  split
  · next p hp => exact tell henv hp [g]
  · exact (bind fun _ => soon _ _).at_ w
  · exact append.at_ w

include henv in
/-- Requesting passes of another scope. -/
theorem request {e : Nat} {key : Value} (hk : ¬ (e = f.engine ∧ key = f.scope)) :
    f.Stays env S (Scheduler.request e key : Eff κ Unit) := by
  have hne (he : e = f.engine) : f.scope ≠ key := fun h => hk ⟨he, h.symm⟩
  have hpost := post (S := S) henv
  have hmarked : f.Stays env S
      (Scheduler.modify e fun s => { s with pending := insertKey key s.pending } : Eff κ Unit) :=
    modifyEngine (fun _ => rfl) (fun _ => rfl) (fun _ => rfl)
      (fun he x => by simp [hne he]) fun _ _ => .rfl
  have hdeferred : f.Stays env S
      (Scheduler.modify e fun s => { s with deferred := insertKey key s.deferred } : Eff κ Unit) :=
    modifyEngine (fun _ => rfl) (fun _ => rfl) (fun _ => rfl)
      (fun _ _ => .rfl) fun he x => by simp [hne he]
  unfold Scheduler.request Scheduler.enqueue
  refine bind fun _ => ⟨fun w => .bind_read ?_⟩
  dsimp only
  split
  · split
    · exact hdeferred.at_ w
    · exact .pure fun _ hv => by cases hv
  · split
    · exact .pure fun _ hv => by cases hv
    · exact .bind (hmarked.at_ w) fun _ w' _ => (bind_close fun n => hpost e (.fn n)).at_ w'

include henv in
theorem report {hook : Hook} (hh : hook.Spares f.engine f.scope) (key : Value) :
    f.Stays env S (Record.report hook key : Eff κ Unit) := by
  rcases hh with rfl | ⟨e, scope, rfl, hne⟩
  · exact inferInstanceAs (f.Stays env S (pure () : Eff κ Unit))
  · exact request henv hne

end Stays

namespace StaysAt

variable (henv : f.TakesOver env)

/-- Storing over a container of the region. -/
theorem put {v : Value} {r : Ref} {c d : Cell} (hl : w.store.Leads S v) (hv : v.ref? = some r)
    (hc : w.store.cell? r = some c) (hcc : c.isContainer) (hdc : d.isContainer)
    (hd : ∀ x ∈ d.parts, w.store.Leads S x) (hdict : (∃ t, c = .dict t) → ∃ t, d = .dict t) :
    f.StaysAt env S w (setStore (w.store.put r d) : Eff κ Unit) :=
  ⟨fun ⟨R, hR, hS⟩ => ⟨R, hR.put (hl R hR.closed hS r hv) hc hcc hdc
    (fun x hx => hd x hx R hR.closed hS) hdict, hS⟩⟩

include henv in
theorem setItem {v x key : Value} {data : Ref} {hook : Hook}
    (hr : w.store.look v = some (.record data hook)) (hv : w.store.Leads S v)
    (hk : key.ref? = none) (hx : w.store.Leads S x) :
    f.StaysAt env S w (Record.setItem data hook key x : Eff κ Unit) := by
  refine assume fun ⟨R, hR, hS⟩ => ?_
  have hdata : w.store.Leads S (.ref data) := hv.look hr List.mem_cons_self
  obtain ⟨r, rfl⟩ : ∃ r, v = .ref r := by
    cases v <;> simp only [Store.look, reduceCtorEq] at hr
    exact ⟨_, rfl⟩
  obtain ⟨⟨t, ht⟩, hh⟩ := hR.record (hv R hR.closed hS r rfl) hr
  have hfields : Record.fields w.store data = t := by
    simp [Record.fields, Store.mapping?, Store.look, ht]
  refine bind_store (bind (put hdata rfl ht rfl rfl (fun y hy => ?_) fun _ => ⟨_, rfl⟩) fun _ w' _ => ?_)
  · rw [hfields] at hy
    rcases List.mem_append.1 hy with hy | hy
    · rcases Table.mem_keys_insert hy with rfl | hy
      · exact .bare hk
      · exact hdata.part rfl ht (List.mem_append_left _ hy)
    · rcases Table.mem_values_insert hy with rfl | hy
      · exact hx
      · exact hdata.part rfl ht (List.mem_append_right _ hy)
  · have (S : List Value) := Stays.report (S := S) henv hh key
    exact Stays.at_ (f := f) w'

theorem mem_storeItem {xs ys : List Value} {segment : String} {x y : Value}
    (h : Path.storeItem xs segment x = .ok ys) (hy : y ∈ ys) : y ∈ xs ∨ y = x := by
  unfold Path.storeItem at h
  split at h
  · cases h
  · split at h
    · cases h
      simpa using hy
    · dsimp only at h
      split at h <;> split at h <;> cases h <;> exact List.mem_or_eq_of_mem_set hy

include henv in
theorem assign {v x : Value} (segment : String) (hv : w.store.Leads S v) (hx : w.store.Leads S x) :
    f.StaysAt env S w (Path.assign v segment x : Eff κ Unit) := by
  refine bind_store ?_
  split
  · next r xs hl =>
    refine bind_ofExcept fun ys hys => put hv rfl hl rfl rfl (fun y hy => ?_) fun ⟨_, h⟩ => by cases h
    exact (mem_storeItem hys hy).elim (hv.look hl) fun hy => hy ▸ hx
  · next r t hl =>
    refine put hv rfl hl rfl rfl (fun y hy => ?_) fun _ => ⟨_, rfl⟩
    rcases List.mem_append.1 hy with hy | hy
    · rcases Table.mem_keys_insert hy with rfl | hy
      · exact .bare rfl
      · exact hv.look hl (List.mem_append_left _ hy)
    · rcases Table.mem_values_insert hy with rfl | hy
      · exact hx
      · exact hv.look hl (List.mem_append_right _ hy)
  · next data hook hr => exact setItem henv hr hv rfl hx
  · exact raise

end StaysAt

namespace Stays

variable (henv : f.TakesOver env)

include henv in
/-- A path only leads on into containers that reading comes to, or that are made on the way. -/
theorem write (v x : Value) [hv : Covers S v] [hx : Covers S x] (ps : List String) :
    f.Stays env S (Path.write v ps x : Eff κ Unit) := by
  induction ps generalizing v S with
  | nil => unfold Path.write; infer_instance
  | cons p ps ih =>
    cases ps with
    | nil =>
      unfold Path.write
      exact ⟨fun w => .assign henv p (hv.leads _) (hx.leads _)⟩
    | cons q qs =>
      unfold Path.write
      refine bind_store fun w => ?_
      split
      · next next hn =>
        have hl : w.store.Leads S next := by
          unfold Path.below? at hn
          split at hn
          · split at hn
            · next y hc =>
              split at hn <;> cases hn
              exact (hv.leads _).child hc
            · cases hn
          · cases hn
        have : Covers (next :: S) next := ⟨fun _ => .head⟩
        have : Covers (next :: S) x := ⟨fun s => (hx.leads s).mono fun _ => List.mem_cons_of_mem next⟩
        exact .leads hl ((ih next).at_ w)
      · refine .bind (.alloc rfl fun _ hu => by cases hu) fun next w' _ => ?_
        have hv' : Covers (Carries.values next ++ S) v := inferInstance
        exact .bind (.assign henv p (hv'.leads _) .head) fun _ w'' _ => (ih next).at_ w''

end Stays

namespace StaysAt

variable (henv : f.TakesOver env)

include henv in
/-- Writing along a path below a record. -/
theorem setPath {v x path : Value} {data : Ref} {hook : Hook}
    (hr : w.store.look v = some (.record data hook)) (hv : w.store.Leads S v)
    (hx : w.store.Leads S x) : f.StaysAt env S w (Record.setPath data hook path x : Eff κ Unit) := by
  refine assume fun ⟨R, hR, hS⟩ => bind_store ?_
  split
  · exact setItem henv hr hv rfl hx
  · have hdata : w.store.Leads S (.ref data) := hv.look hr List.mem_cons_self
    have hh : hook.Spares f.engine f.scope := by
      cases v <;> simp only [Store.look, reduceCtorEq] at hr
      exact (hR.record (hv R hR.closed hS _ rfl) hr).2
    refine leads hdata (leads (hx.mono fun _ => List.mem_cons_of_mem _) ?_)
    have : Covers (x :: .ref data :: S) x := ⟨fun _ => .head⟩
    have : Covers (x :: .ref data :: S) (.ref data) := ⟨fun _ => .mem (by simp)⟩
    refine bind ((Stays.write henv (.ref data) x _).at_ w) fun _ w' _ => ?_
    split
    · exact raise
    · exact (Stays.report henv hh _).at_ w'

end StaysAt

/-- The state is a record that was there from the beginning. -/
def Knows (f : Fence κ) (state : Value) : Prop :=
  ∃ r data hook, state = .ref r ∧ f.before.store.cell? r = some (.record data hook)

namespace Stays

open Evaluation

variable (henv : f.TakesOver env) {c : Context} (hstate : f.Knows c.state)

include henv hstate in
theorem writeState (path x : Value) [hs : Covers S c.state] [hx : Covers S x] :
    f.Stays env S (writeState c.state path x : Eff κ Unit) := by
  refine bind_store fun w => .assume fun ⟨R, hR, hS⟩ => ?_
  obtain ⟨r, data, hook, hr, hc⟩ := hstate
  have hl : w.store.look c.state = some (.record data hook) := by
    rw [hr]
    exact hR.same hc rfl
  have hrec : w.store.record? c.state = some (data, hook) := by
    rw [Store.record?, hl]
  rw [hrec]
  exact .setPath henv hl (hs.leads _) (hx.leads _)

include henv hstate in
theorem set (path x : Value) [Covers S c.state] [Covers S x] :
    f.Stays env S (Evaluation.set c path x : Eff κ Value) := by
  have := writeState (S := S) henv hstate path x
  unfold Evaluation.set
  infer_instance

include henv hstate in
theorem toggle (path : Value) [Covers S c.state] :
    f.Stays env S (Evaluation.toggle c path : Eff κ Value) := by
  have (b : Bool) := writeState (S := S) henv hstate path (.bool b)
  unfold Evaluation.toggle
  refine bind_store fun w => .bind_ofExcept fun v _ => ?_
  exact Stays.at_ (f := f) w

/-- Without capabilities only the state can be read. -/
theorem get (hc : c.capabilities = {}) (path : Value) [Covers S c.state] :
    f.Stays env S (Evaluation.get c path : Eff κ Value) := by
  have hnone (s : Store) (name : String) : c.capabilities.lookup s name = .ok .none := by
    simp [hc, Capabilities.lookup]
  unfold Evaluation.get
  refine bind_store fun w => ?_
  split
  · split
    · refine .bind_ofExcept fun base hbase => ?_
      rw [hnone] at hbase
      cases hbase
      exact Stays.at_ (f := f) w
    · exact Stays.at_ (f := f) w
  · exact Stays.at_ (f := f) w

instance binary (op : Operator) (a b : Value) :
    f.Stays env S (Evaluation.binary op a b : Eff κ Value) := by
  have bool (r : Except Fault Bool) (g : Bool → Bool) (w : Session κ) :
      f.StaysAt env S w (do return .bool (g (← ofExcept r)) : Eff κ Value) :=
    .bind_ofExcept fun _ _ => Stays.at_ (f := f) w
  unfold Evaluation.binary
  refine bind_store fun w => ?_
  dsimp only
  split
  · exact Stays.at_ (f := f) w
  · exact bool _ id w
  · exact bool _ id w
  · exact bool _ not w
  · exact bool _ id w
  · exact bool _ id w
  · exact bool _ id w
  · exact bool _ id w
  · exact Stays.at_ (f := f) w

instance (v : Value) : f.Stays env S (truthy v : Eff κ Bool) :=
  bind_store fun w => Stays.at_ (f := f) w

end Stays

/-- Evaluating against a state works within every region that the state is in. -/
class Evaluates (f : Fence κ) (env : Env κ) (c : Context) (e : Expr) : Prop where
  stays : ∀ S, Covers S c.state → f.Stays env S (Evaluation.eval c e)

namespace Stays

open Evaluation

variable {c : Context}

instance [hs : Covers S c.state] {e : Expr} [he : f.Evaluates env c e] : f.Stays env S (eval c e) :=
  he.stays S hs

theorem evalAll_of_mem {es : List Expr} (h : ∀ e ∈ es, f.Evaluates env c e) [Covers S c.state] :
    f.Stays env S (evalAll c es) := by
  induction es generalizing S with
  | nil =>
    unfold evalAll
    exact ⟨fun w => .pure fun _ hv => by cases hv⟩
  | cons e es ih =>
    have := h e List.mem_cons_self
    have (T : List Value) [Covers T c.state] : f.Stays env T (evalAll c es) :=
      ih fun e' he => h e' (List.mem_cons_of_mem e he)
    unfold evalAll
    refine bind fun v => bind fun vs => ⟨fun w => .pure fun u hu => .mem ?_⟩
    rcases List.mem_cons.1 hu with rfl | hu
    · exact List.mem_append_right _ List.mem_cons_self
    · exact List.mem_append_left _ hu

theorem evalFields_of_mem {fs : List (String × Expr)} (h : ∀ e ∈ fs, f.Evaluates env c e.2)
    [Covers S c.state] : f.Stays env S (evalFields c fs) := by
  induction fs generalizing S with
  | nil =>
    unfold evalFields
    exact ⟨fun w => .pure fun _ hv => by cases hv⟩
  | cons e fs ih =>
    have := h e List.mem_cons_self
    have (T : List Value) [Covers T c.state] : f.Stays env T (evalFields c fs) :=
      ih fun e' he => h e' (List.mem_cons_of_mem e he)
    unfold evalFields
    refine bind fun v => bind fun vs => ⟨fun w => .pure fun u hu => .mem ?_⟩
    rcases List.mem_cons.1 hu with rfl | hu
    · exact List.mem_append_right _ List.mem_cons_self
    · exact List.mem_append_left _ hu

theorem foldArgs_of_mem {es : List Expr} (h : ∀ e ∈ es, f.Evaluates env c e)
    {g : Value → Value → Build Value}
    (hg : ∀ T a b, Covers T a → Covers T b → Build.Within T (g a b))
    (acc : Value) [Covers S c.state] [Covers S acc] : f.Stays env S (foldArgs c g acc es) := by
  induction es generalizing S acc with
  | nil => unfold foldArgs; infer_instance
  | cons e es ih =>
    have := h e List.mem_cons_self
    have (T : List Value) (a : Value) [Covers T c.state] [Covers T a] :
        f.Stays env T (foldArgs c g a es) :=
      ih (fun e' he => h e' (List.mem_cons_of_mem e he)) a
    have (T : List Value) (a b : Value) [ha : Covers T a] [hb : Covers T b] : Build.Within T (g a b) :=
      hg T a b ha hb
    unfold foldArgs
    infer_instance

theorem evalLast_of_mem {es : List Expr} (h : ∀ e ∈ es, f.Evaluates env c e) (last : Value)
    [Covers S c.state] [Covers S last] : f.Stays env S (evalLast c last es) := by
  induction es generalizing S last with
  | nil => unfold evalLast; infer_instance
  | cons e es ih =>
    have := h e List.mem_cons_self
    have (T : List Value) (v : Value) [Covers T c.state] [Covers T v] :
        f.Stays env T (evalLast c v es) :=
      ih (fun e' he => h e' (List.mem_cons_of_mem e he)) v
    unfold evalLast
    infer_instance

section Operators

variable (henv : f.TakesOver env) (hstate : f.Knows c.state) (hc : c.capabilities = {})

include henv hstate hc in
/-- Every operator but those that call client code. -/
theorem apply {op : Operator} {es : List Expr} (hop : op.isReadOnly ∨ op = .set ∨ op = .toggle)
    (h : ∀ e ∈ es, f.Evaluates env c e) [Covers S c.state] : f.Stays env S (Evaluation.apply c op es) := by
  have (T : List Value) [Covers T c.state] (path x : Value) [Covers T x] :=
    set (S := T) henv hstate path x
  have (T : List Value) [Covers T c.state] (path : Value) := toggle (S := T) henv hstate path
  have (T : List Value) [Covers T c.state] (path : Value) :
      f.Stays env T (Evaluation.get c path : Eff κ Value) := get hc path
  rcases es with _ | ⟨a, es⟩
  · cases op <;> simp [Operator.isReadOnly] at hop <;> (unfold Evaluation.apply; infer_instance)
  · have := h a List.mem_cons_self
    have ht : ∀ e ∈ es, f.Evaluates env c e := fun e he => h e (List.mem_cons_of_mem a he)
    have (T : List Value) [Covers T c.state] (last : Value) [Covers T last] :=
      evalLast_of_mem (S := T) ht last
    have (T : List Value) [Covers T c.state] (acc : Value) [Covers T acc] :=
      foldArgs_of_mem (S := T) (g := Arithmetic.add) ht (fun _ _ _ _ _ => inferInstance) acc
    have (T : List Value) [Covers T c.state] (acc : Value) [Covers T acc] :=
      foldArgs_of_mem (S := T) (g := Arithmetic.sub) ht (fun _ _ _ _ _ => inferInstance) acc
    have (T : List Value) [Covers T c.state] (acc : Value) [Covers T acc] :=
      foldArgs_of_mem (S := T) (g := Arithmetic.mul) ht (fun _ _ _ _ _ => inferInstance) acc
    have (T : List Value) [Covers T c.state] (acc : Value) [Covers T acc] :=
      foldArgs_of_mem (S := T) (g := Arithmetic.div) ht (fun _ _ _ _ _ => inferInstance) acc
    rcases es with _ | ⟨b, es⟩
    · cases op <;> simp [Operator.isReadOnly] at hop <;> (unfold Evaluation.apply; infer_instance)
    · have := ht b List.mem_cons_self
      rcases es with _ | ⟨d, es⟩
      · cases op <;> simp [Operator.isReadOnly] at hop <;> (unfold Evaluation.apply; infer_instance)
      · have := ht d (List.mem_cons_of_mem b List.mem_cons_self)
        cases es <;> cases op <;> simp [Operator.isReadOnly] at hop <;>
          (unfold Evaluation.apply; infer_instance)

end Operators

end Stays

theorem parts_ofFields {fields : List (String × Value)} {x : Value}
    (h : x ∈ (Cell.dict (Mapping.ofFields fields)).parts) : x.ref? = none ∨ x ∈ fields.map Prod.snd := by
  obtain ⟨keys, values⟩ := Table.mem_ofList (fields.map fun f => (Value.text f.1, f.2)) .empty
  rcases List.mem_append.1 h with h | h
  · refine .inl ?_
    rcases keys x h with h | h
    · simp only [List.map_map, List.mem_map] at h
      obtain ⟨f, -, rfl⟩ := h
      rfl
    · cases h
  · refine .inr ?_
    rcases values x h with h | h
    · rw [List.map_map] at h
      exact h
    · cases h

theorem evaluates {c : Context} {e : Expr} (henv : f.TakesOver env) (hstate : f.Knows c.state)
    (hc : c.capabilities = {}) (he : e.IsSelfContained) : f.Evaluates env c e := by
  induction he with
  | literal hv =>
    refine ⟨fun S hS => ?_⟩
    unfold Evaluation.eval
    exact ⟨fun w => .pure fun u hu => List.mem_singleton.1 hu ▸ .bare hv⟩
  | invalid reason =>
    refine ⟨fun S hS => ?_⟩
    unfold Evaluation.eval
    infer_instance
  | array h ih =>
    refine ⟨fun S hS => ?_⟩
    have := Stays.evalAll_of_mem (S := S) ih
    unfold Evaluation.eval
    exact Stays.bind fun vs => ⟨fun w => .alloc rfl fun u hu => .mem (List.mem_append_left S hu)⟩
  | object h ih =>
    refine ⟨fun S hS => ?_⟩
    have := Stays.evalFields_of_mem (S := S) ih
    unfold Evaluation.eval
    refine Stays.bind fun fs => ⟨fun w => .alloc rfl fun u hu => ?_⟩
    exact (parts_ofFields hu).elim .bare fun hu => .mem (List.mem_append_left S hu)
  | apply hop h ih =>
    refine ⟨fun S hS => ?_⟩
    unfold Evaluation.eval
    exact ⟨fun w => .contain ((Stays.apply henv hstate hc hop ih).at_ w) fun _ w' => Stays.at_ (f := f) w'⟩

end Fence

end ReactiveScopes
