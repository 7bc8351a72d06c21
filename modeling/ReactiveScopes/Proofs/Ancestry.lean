import Mathlib.Data.List.Perm.Subperm
import ReactiveScopes.Proofs.Conduct.Passes
import ReactiveScopes.Proofs.Isolation

/-!
# The nearest scope with a record

Whatever is asked for from a scope works on the record of the nearest scope that has one, up the chain of parents. The
search for it ends however scopes are related: what it has passed has no record, so a chain that comes back to it would
go round for ever without coming to one.
-/
namespace ReactiveScopes

open Eff

variable {κ α : Type} {env : Env κ} {e x : Nat} {w w' v v' : Session κ} {s o r p k : Value}

section Sessions

/-- The same session but for what the client remembers and for the journal. -/
def Session.Aside (w w' : Session κ) : Prop := w' = { w with memory := w'.memory, journal := w'.journal }

theorem Session.Aside.refl (w : Session κ) : w.Aside w := rfl

theorem Session.Aside.logged (h : w.Aside w') (ev : Event) : w.Aside (w'.logged ev) := by
  unfold Aside at h ⊢
  rw [h]
  rfl

theorem Session.Aside.trans {w'' : Session κ} (h : w.Aside w') (h' : w'.Aside w'') : w.Aside w'' := by
  unfold Aside at h h' ⊢
  rw [h', h]

theorem Session.Aside.store (h : w.Aside w') : w'.store = w.store := by rw [h]

theorem Session.Aside.engines (h : w.Aside w') : w'.engines = w.engines := by rw [h]

theorem Session.Aside.engine (h : w.Aside w') (e : Nat) : w'.engine e = w.engine e :=
  Session.engine_of_engines h.engines e

/-- The engines are as they were, and no more than data has come to the store. -/
structure Session.Grown (w v : Session κ) : Prop where
  engines : v.engines = w.engines
  store : w.store.Extends v.store

theorem Session.Grown.refl (w : Session κ) : w.Grown w := ⟨rfl, .refl⟩

theorem Session.Grown.aside (h : w.Grown v) (h' : v.Aside v') : w.Grown v' :=
  ⟨h'.engines.trans h.engines, by rw [h'.store]; exact h.store⟩

theorem Session.Grown.engine (h : w.Grown v) (e : Nat) : v.engine e = w.engine e :=
  Session.engine_of_engines h.engines e

/-- Who watches a scope, and whether it is marked, is as it was. -/
structure Session.Unconcerned (w w' : Session κ) (e : Nat) (k : Value) : Prop where
  watchers : (w'.engine e).scheduler.watchersOf k = (w.engine e).scheduler.watchersOf k
  pending : k ∈ (w'.engine e).scheduler.pending ↔ k ∈ (w.engine e).scheduler.pending
  deferred : k ∈ (w'.engine e).scheduler.deferred ↔ k ∈ (w.engine e).scheduler.deferred

theorem Session.Unconcerned.of_scheduler (h : (w'.engine e).scheduler = (w.engine e).scheduler) (k : Value) :
    w.Unconcerned w' e k :=
  ⟨by rw [h], by rw [h], by rw [h]⟩

/-- Reading from `v` comes to no record that would tell an engine about a scope, and to nothing that is not there. -/
structure Store.Discreet (s : Store) (e : Nat) (k v : Value) : Prop where
  there : ∀ r, s.Reaches v r → ∃ c, s.cell? r = some c
  record : ∀ {r data hook}, s.Reaches v r → s.cell? r = some (.record data hook) →
    (∃ t, s.cell? data = some (.dict t)) ∧ hook.Spares e k

end Sessions

namespace Scope

/-- Going from parent to parent, the first scope that has a record is `o`, and the record is `r`. -/
inductive Nearest (records : Table Value Value) (parent : Value → Except Fault Value) : Value → Value → Value → Prop
  | own {s r : Value} (real : s.isNone = false) (has : records.get? s = some r) : Nearest records parent s s r
  | up {s p o r : Value} (real : s.isNone = false) (bare : records.get? s = none) (next : parent s = .ok p)
    (above : Nearest records parent p o r) : Nearest records parent s o r

/-- What the parent function of an engine is to some scopes that it does not lead out of: it answers or raises an
error, and does nothing else that is seen. Without one no scope has a parent. -/
structure Ancestry (env : Env κ) (e : Nat) (w : Session κ) (scopes : List Value)
    (parent : Value → Except Fault Value) : Prop where
  answers : ∀ {up}, (w.engine e).parentOf = some up → ∀ {v}, w.Grown v → ∀ {s}, s ∈ scopes →
    ∃ v', env.call (.fn up) [s] v = (.ofExcept (parent s), v') ∧ v.Aside v'
  orphans : (w.engine e).parentOf = none → ∀ {s}, s ∈ scopes → parent s = .ok .none
  closed : ∀ {s p}, s ∈ scopes → parent s = .ok p → p.isNone = true ∨ p ∈ scopes
  errors : ∀ {s f}, s ∈ scopes → parent s = .error f → f.isError = true

section Search

variable {records : Table Value Value} {parent : Value → Except Fault Value} {scopes passed : List Value}

theorem Nearest.owner (h : Nearest records parent s o r) : o.isNone = false ∧ records.get? o = some r := by
  induction h with
  | own real has => exact ⟨real, has⟩
  | up _ _ _ _ ih => exact ih

theorem Nearest.real (h : Nearest records parent s o r) : s.isNone = false := by
  cases h with
  | own real _ => exact real
  | up real _ _ _ => exact real

/-- A scope with a record of its own has no other nearest. -/
theorem nearest_of_record {a : Value} (real : s.isNone = false) (has : records.get? s = some a) :
    Nearest records parent s o r ↔ o = s ∧ r = a := by
  constructor
  · intro near
    cases near with
    | own _ has' =>
      rw [has] at has'
      cases has'
      exact ⟨rfl, rfl⟩
    | up _ bare _ _ =>
      rw [has] at bare
      cases bare
  · rintro ⟨rfl, rfl⟩
    exact .own real has

/-- Without a record of its own, a scope has the record of its parent. -/
theorem nearest_of_parent (real : s.isNone = false) (bare : records.get? s = none) (next : parent s = .ok p) :
    Nearest records parent s o r ↔ Nearest records parent p o r := by
  refine ⟨fun near => ?_, .up real bare next⟩
  cases near with
  | own _ has =>
    rw [bare] at has
    cases has
  | up _ _ next' near =>
    rw [next] at next'
    cases next'
    exact near

/-- It has none if asking for its parent fails. -/
theorem not_nearest_of_error {f : Fault} (bare : records.get? s = none) (failed : parent s = .error f) :
    ¬ Nearest records parent s o r := by
  intro near
  cases near with
  | own _ has =>
    rw [bare] at has
    cases has
  | up _ _ next _ =>
    rw [failed] at next
    cases next

/-- Scopes without records whose parents are among them lead nowhere. -/
theorem Nearest.not_mem_of_circle (h : Nearest records parent s o r) (bare : ∀ a ∈ passed, records.get? a = none)
    (onward : ∀ a ∈ passed, ∃ p ∈ passed, parent a = .ok p) : s ∉ passed := by
  induction h with
  | own _ has =>
    intro hs
    rw [bare _ hs] at has
    cases has
  | up _ _ next _ ih =>
    intro hs
    obtain ⟨p, hp, hparent⟩ := onward _ hs
    rw [next] at hparent
    cases hparent
    exact ih hp

/-- The search has passed some scopes on its way to `s`, the latest first: none has a record, and the parent of each is
the one after it. -/
structure Climbed (records : Table Value Value) (parent : Value → Except Fault Value) (scopes passed : List Value)
    (s : Value) : Prop where
  distinct : passed.Nodup
  inside : passed ⊆ scopes
  bare : ∀ a ∈ passed, records.get? a = none
  onward : ∀ a ∈ passed, ∃ p ∈ s :: passed, parent a = .ok p

namespace Climbed

theorem start (records : Table Value Value) (parent : Value → Except Fault Value) (scopes : List Value) (s : Value) :
    Climbed records parent scopes [] s :=
  ⟨List.nodup_nil, List.nil_subset _, by simp, by simp⟩

theorem up (h : Climbed records parent scopes passed s) (fresh : s ∉ passed) (hs : s ∈ scopes)
    (bare : records.get? s = none) (next : parent s = .ok p) : Climbed records parent scopes (s :: passed) p where
  distinct := List.nodup_cons.2 ⟨fresh, h.distinct⟩
  inside := List.cons_subset.2 ⟨hs, h.inside⟩
  bare := List.forall_mem_cons.2 ⟨bare, h.bare⟩
  onward := List.forall_mem_cons.2 ⟨⟨p, List.mem_cons_self, next⟩, fun a ha =>
    (h.onward a ha).imp fun _ hq => ⟨List.mem_cons_of_mem p hq.1, hq.2⟩⟩

theorem length_le (h : Climbed records parent scopes passed s) : passed.length ≤ scopes.length :=
  (h.distinct.subperm h.inside).length_le

/-- A chain that comes back does not come to a record. -/
theorem nowhere (h : Climbed records parent scopes passed s) (back : s ∈ passed) : ¬ Nearest records parent s o r := by
  intro near
  refine near.not_mem_of_circle h.bare (fun a ha => ?_) back
  obtain ⟨p, hp, next⟩ := h.onward a ha
  exact ⟨p, (List.mem_cons.1 hp).elim (fun same => same ▸ back) id, next⟩

end Climbed

variable (ancestry : Ancestry env e w scopes parent)

include ancestry

/-- From wherever it has climbed to, the search ends and finds the nearest scope with a record. What bounds it is how
many scopes it has not passed yet. -/
theorem findFrom_exact (fuel : Nat) (grown : w.Grown v)
    (climbed : Climbed (w.engine e).records parent scopes passed s) (hs : s.isNone = true ∨ s ∈ scopes)
    (enough : scopes.length < fuel + passed.length) :
    ∃ found v', findFrom e fuel passed s env v = (.value found, v') ∧ v.Aside v' ∧
      ∀ o r, found = some (o, r) ↔ Nearest (w.engine e).records parent s o r := by
  induction fuel generalizing v s passed with
  | zero => exact absurd climbed.length_le (by omega)
  | succ fuel ih =>
    -- Where the search stops without a record, nothing is nearest.
    have none_of (h : ∀ o r, ¬ Nearest (w.engine e).records parent s o r) (o r : Value) :
        (none : Option (Value × Value)) = some (o, r) ↔ Nearest (w.engine e).records parent s o r :=
      ⟨nofun, fun near => absurd near (h o r)⟩
    unfold findFrom
    by_cases stop : (s.isNone || passed.contains s) = true
    · rw [if_pos stop]
      refine ⟨none, v, rfl, .refl v, none_of fun o r near => ?_⟩
      rcases Bool.or_eq_true_iff.1 stop with isNone | back
      · rw [near.real] at isNone
        cases isNone
      · exact climbed.nowhere (List.contains_iff_mem.1 back) near
    · rw [if_neg stop, bind_engine, grown.engine]
      obtain ⟨real, back⟩ := not_or.1 fun h => stop (Bool.or_eq_true_iff.2 h)
      have real : s.isNone = false := by simpa using real
      have fresh : s ∉ passed := fun h => back (List.contains_iff_mem.2 h)
      have hs : s ∈ scopes := hs.resolve_left (by simp [real])
      cases has : (w.engine e).records.get? s with
      | some record =>
        refine ⟨some (s, record), v, rfl, .refl v, fun o r => ?_⟩
        rw [nearest_of_record real has, Option.some.injEq, Prod.mk.injEq, eq_comm, eq_comm (a := record)]
      | none =>
        cases hup : (w.engine e).parentOf with
        | none =>
          refine ⟨none, v, rfl, .refl v, none_of fun o r near => ?_⟩
          have above := (nearest_of_parent real has (ancestry.orphans hup hs)).1 near
          cases above.real
        | some up =>
          obtain ⟨v₁, hcall, haside⟩ := ancestry.answers hup grown hs
          have hattempt : (callFn up [s]).attempt env v = (.value (parent s), v₁) := attempt_ofExcept hcall
          dsimp only
          rw [bind_value hattempt]
          cases next : parent s with
          | ok p =>
            obtain ⟨found, v₂, hfound, haside', hnear⟩ := ih (grown.aside haside) (climbed.up fresh hs has next)
              (ancestry.closed hs next) (by rw [List.length_cons]; omega)
            exact ⟨found, v₂, hfound, haside.trans haside', fun o r =>
              (hnear o r).trans (nearest_of_parent real has next).symm⟩
          | error f =>
            refine ⟨none, v₁.logged (.notice (.parentFailed f)), ?_, haside.logged _,
              none_of fun o r => not_nearest_of_error has next⟩
            dsimp only
            rw [if_pos (ancestry.errors hs next)]
            rfl

/-- The search ends with the nearest scope that has a record, if there is one. -/
theorem find_exact (enough : scopes.length < env.budget) (hs : s ∈ scopes) (grown : w.Grown v) :
    ∃ found v', find e s env v = (.value found, v') ∧ v.Aside v' ∧
      ∀ o r, found = some (o, r) ↔ Nearest (w.engine e).records parent s o r :=
  findFrom_exact ancestry env.budget grown (.start _ _ _ s) (.inr hs) (by simpa using enough)

end Search

/-- A scope that has a record is found at once. -/
theorem find_self (real : o.isNone = false) (has : (w.engine e).records.get? o = some r) (ready : 0 < env.budget) :
    find e o env w = (.value (some (o, r)), w) := by
  change findFrom e env.budget [] o env w = _
  obtain ⟨n, hn⟩ : ∃ n, env.budget = n + 1 := ⟨env.budget - 1, by omega⟩
  rw [hn]
  unfold findFrom
  rw [if_neg (by simp [real]), bind_engine, has]
  rfl

/-- What is asked for from `s` works on the record `r` of the scope `o`. Looking for it comes first, and evaluating an
expression that names a handler looks for it once more. -/
structure WorksOn (env : Env κ) (e : Nat) (s o r : Value) (w w' : Session κ) : Prop where
  state : Scope.state e s env w = (.value r, w')
  flush : Scope.flush e s env w = Scheduler.flush e o env w'
  watch : ∀ {f}, f.isCallable = true → Scope.watch e s f env w = Scheduler.watch e o f env w'
  setState : ∀ {updates t data hook}, w.store.mapping? updates = some t → w.store.record? r = some (data, hook) →
    Scope.setState e s updates env w = setEach data hook updates t.size t.keys env w'
  evaluate : ∀ {ev : Evaluation}, ev.scope = s → Scope.evaluate e ev env w =
    (do
      let c ← Capabilities.ofExtras ev.extras
      contain (resolve e ev r c) Fault.isError fun fault => do
        notice (.evaluationFailed fault)
        return .bool false) env w'
  invoke : ∀ {v}, w.Grown v → ∃ v', v.Aside v' ∧ ∀ name event path, invokeHandler e name s event path env v =
    Handler.invoke e name r ⟨s, event, path, (v.engine e).face⟩ (.flush e o) env v'

/-- What is asked for from `s` finds no record to work on. -/
structure WorksOnNothing (env : Env κ) (e : Nat) (s : Value) (w w' : Session κ) : Prop where
  state : Scope.state e s env w = (.value .none, w')
  flush : Scope.flush e s env w = (.value (), w')
  watch : ∀ {f}, f.isCallable = true → s.isNone = false → (w.engine e).initializer = none →
    Scope.watch e s f env w = close .idle env w'
  setState : ∀ updates, Scope.setState e s updates env w = notice .noStateToSet env w'
  evaluate : ∀ {ev : Evaluation}, ev.scope = s →
    Scope.evaluate e ev env w = (.value .none, w'.logged (.notice .noStateToEvaluate))
  invoke : ∀ {v}, w.Grown v → ∃ v', v.Aside v' ∧ ∀ name event path,
    invokeHandler e name s event path env v = (.value .none, v')

section Operations

theorem worksOn_of_find (found : find e s env w = (.value (some (o, r)), w')) (real : s.isNone = false)
    (aside : w.Aside w')
    (again : ∀ {v}, w.Grown v → ∃ v', find e s env v = (.value (some (o, r)), v') ∧ v.Aside v') :
    WorksOn env e s o r w w' where
  state := by
    unfold Scope.state
    rw [bind_value found]
    rfl
  flush := by
    unfold Scope.flush
    rw [bind_value found]
  watch {f} callable := by
    unfold Scope.watch
    rw [if_neg (by simp [real, callable]), bind_value found, bind_engine]
    rfl
  setState {updates t data hook} mapping record := by
    unfold Scope.setState
    rw [bind_value found]
    dsimp only
    rw [bind_store, aside.store, mapping, record]
  evaluate {ev} hev := by
    unfold Scope.evaluate
    rw [hev, bind_value found]
  invoke {v} grown := by
    obtain ⟨v', hfind, haside⟩ := again grown
    refine ⟨v', haside, fun name event path => ?_⟩
    unfold invokeHandler
    rw [bind_value hfind]
    dsimp only
    rw [bind_engine, haside.engine]

theorem worksOnNothing_of_find (found : find e s env w = (.value none, w')) (aside : w.Aside w')
    (again : ∀ {v}, w.Grown v → ∃ v', find e s env v = (.value none, v') ∧ v.Aside v') :
    WorksOnNothing env e s w w' where
  state := by
    unfold Scope.state
    rw [bind_value found]
    rfl
  flush := by
    unfold Scope.flush
    rw [bind_value found]
    rfl
  watch {f} callable real alone := by
    unfold Scope.watch
    rw [if_neg (by simp [real, callable]), bind_value found, bind_engine, aside.engine, alone]
    rfl
  setState updates := by
    unfold Scope.setState
    rw [bind_value found]
  evaluate {ev} hev := by
    unfold Scope.evaluate
    rw [hev, bind_value found]
    rfl
  invoke {v} grown := by
    obtain ⟨v', hfind, haside⟩ := again grown
    refine ⟨v', haside, fun name event path => ?_⟩
    unfold invokeHandler
    rw [bind_value hfind]
    rfl

/-- Registering a watcher of one scope is no concern of another. -/
theorem unconcerned_watch {f : Value} (other : ¬ (x = e ∧ k = o)) (env : Env κ) (w : Session κ) :
    w.Unconcerned (Scheduler.watch e o f env w).2 x k := by
  let w₁ := w.logged (.watched e o f.unmarked)
  let w₂ := w₁.reschedule e (·.addWatcher o f.unmarked)
  have after (x : Nat) : (Scheduler.watch e o f env w).2.engine x = w₂.engine x := rfl
  by_cases hx : x = e
  · subst hx
    have scheduler : ((Scheduler.watch x o f env w).2.engine x).scheduler =
        (w.engine x).scheduler.addWatcher o f.unmarked :=
      congrArg Engine.scheduler ((after x).trans (Session.engine_reschedule w₁ x (·.addWatcher o f.unmarked)))
    refine ⟨?_, by rw [scheduler]; rfl, by rw [scheduler]; rfl⟩
    rw [scheduler, Scheduler.watchersOf_addWatcher, if_neg fun h => other ⟨rfl, h.symm⟩]
  · have same : w₂.engine x = w.engine x := by
      rw [show w₂ = w₁.modifyEngine e _ from rfl, Session.engine_modifyEngine, if_neg (Ne.symm hx)]
      rfl
    exact .of_scheduler (congrArg Engine.scheduler ((after x).trans same)) k

/-- Merging into the state of one scope is no concern of another that neither the state nor what is merged leads to,
as long as the post functions do no more than take callbacks over. -/
theorem unconcerned_setState {updates : Value} (has : (w.engine e).records.get? o = some r)
    (state : w.store.Discreet x k r)
    (merged : ∀ t, w.store.mapping? updates = some t → ∀ u ∈ t.values, w.store.Discreet x k u)
    (takesOver : ∀ {y q}, (w.engine y).queue.sink = some q → ∀ args v,
      (env.call (.fn q) args v).2.store = v.store ∧ (env.call (.fn q) args v).2.engines = v.engines) :
    w.Unconcerned (Scope.setState e o updates env w).2 x k := by
  let S : List Value := r :: ((w.store.mapping? updates).map Table.values).getD []
  have discreet : ∀ u ∈ S, w.store.Discreet x k u := by
    refine List.forall_mem_cons.2 ⟨state, fun u hu => ?_⟩
    cases ht : w.store.mapping? updates with
    | none => simp [ht] at hu
    | some t => exact merged t ht u (by simpa [ht] using hu)
  let R : Ref → Prop := fun c => ∃ u ∈ S, w.store.Reaches u c
  have apart : w.store.Separates x k R fun _ => False :=
    { closed :=
        { bound := fun ⟨_, hu, hc⟩ => (Store.Reaches.closed (discreet _ hu).there).bound hc
          part := fun ⟨u, hu, hc⟩ hcell y hy c' hc' => ⟨u, hu, .part hc hcell hy hc'⟩
          attached := fun ha c hc => ⟨r, List.mem_cons_self, .attached ha hc⟩ }
      shared := fun _ h => h.elim
      record := fun ⟨_, hu, hc⟩ hcell => (discreet _ hu).record hc hcell }
  have stays : (Fence.mk w R x k).StaysAt env S w (Scope.setState e o updates) :=
    .setState takesOver has rfl List.mem_cons_self fun t ht u hu => List.mem_cons_of_mem r (by rw [ht]; exact hu)
  obtain ⟨_, kept, -⟩ := stays.stays ⟨R, Fence.kept_start apart, fun u hu c hc => ⟨u, hu, .here hc⟩⟩
  refine ⟨?_, kept.pending, kept.deferred⟩
  unfold Scheduler.watchersOf
  rw [kept.watchers x]

end Operations

end Scope

theorem Session.Unconcerned.of_engines (h : w'.engines = w.engines) (x : Nat) (k : Value) : w.Unconcerned w' x k :=
  .of_scheduler (congrArg Engine.scheduler (Session.engine_of_engines h x)) k

theorem Session.Unconcerned.of_aside (h : w'.Unconcerned v x k) (aside : w.Aside w') : w.Unconcerned v x k := by
  have same := aside.engine x
  exact ⟨by rw [h.watchers, same], by rw [h.pending, same], by rw [h.deferred, same]⟩

-- Three scopes in a circle, the last of which has a record; two that are each other's parent; and one that has none
-- because the function for it fails.
namespace Lineage

def scopes : List Value := [.scope "leaf", .scope "branch", .scope "root", .scope "hen", .scope "egg", .scope "stray"]

def parent : Value → Except Fault Value
  | .scope "leaf" => .ok (.scope "branch")
  | .scope "branch" => .ok (.scope "root")
  | .scope "root" => .ok (.scope "leaf")
  | .scope "hen" => .ok (.scope "egg")
  | .scope "egg" => .ok (.scope "hen")
  | _ => .error .misuse

def host : Host Unit := fun _ => { body := fun args => Act.ofExcept (parent (args.headD .none)) }

def calls : Env Unit := Env.within host 9

def root : Value := .scope "root"

def start : Session Unit where
  memory := ()
  store := { cells := #[.dict (Mapping.ofFields [("n", .int 1)]), .record ⟨0⟩ (.schedule 0 root),
    .dict (Mapping.ofFields [("n", .int 2)])] }
  engines := Table.empty.insert 0 { parentOf := some (.client "up"), records := Table.empty.insert root (.ref ⟨1⟩) }

theorem ancestry : Scope.Ancestry calls 0 start scopes parent where
  answers {up} hup {v} _ {s} hs := by
    cases hup
    refine ⟨v, ?_, .refl v⟩
    simp only [scopes, List.mem_cons, List.not_mem_nil, or_false] at hs
    rcases hs with rfl | rfl | rfl | rfl | rfl | rfl <;> rfl
  orphans h := by cases h
  closed {s p} hs h := by
    simp only [scopes, List.mem_cons, List.not_mem_nil, or_false] at hs
    rcases hs with rfl | rfl | rfl | rfl | rfl | rfl <;> cases h <;> exact .inr (by decide)
  errors {s f} hs h := by
    simp only [scopes, List.mem_cons, List.not_mem_nil, or_false] at hs
    rcases hs with rfl | rfl | rfl | rfl | rfl | rfl <;> cases h
    rfl

theorem leaf_near : Scope.Nearest (start.engine 0).records parent (.scope "leaf") root (.ref ⟨1⟩) :=
  .up rfl rfl rfl (.up rfl rfl rfl (.own rfl rfl))

theorem hen_nowhere (o r : Value) : ¬ Scope.Nearest (start.engine 0).records parent (.scope "hen") o r := by
  have bare : ∀ a ∈ [Value.scope "hen", .scope "egg"], (start.engine 0).records.get? a = none :=
    List.forall_mem_cons.2 ⟨rfl, List.forall_mem_singleton.2 rfl⟩
  intro near
  refine near.not_mem_of_circle bare (fun a ha => ?_) List.mem_cons_self
  simp only [List.mem_cons, List.not_mem_nil, or_false] at ha
  rcases ha with rfl | rfl
  · exact ⟨.scope "egg", by simp, rfl⟩
  · exact ⟨.scope "hen", by simp, rfl⟩

/-- The record of the root is the only one there is. -/
theorem discreet (v : Value) (inside : v.ref?.all (·.index < 3) = true) :
    start.store.Discreet 0 (.scope "branch") v := by
  have whole : start.store.isWhole := by decide +kernel
  have bound {r : Ref} (hr : start.store.Reaches v r) : r.index < 3 :=
    hr.inside (Store.closed_of_isWhole whole) fun c hc => by
      rw [hc] at inside
      exact of_decide_eq_true inside
  refine ⟨fun r hr => ⟨_, Array.getElem?_eq_getElem (bound hr)⟩, fun {r data hook} hr hc => ?_⟩
  obtain ⟨n⟩ := r
  have hn : n < 3 := bound hr
  obtain rfl | rfl | rfl : n = 0 ∨ n = 1 ∨ n = 2 := by omega
  all_goals cases hc
  exact ⟨⟨_, rfl⟩, .inr ⟨0, root, rfl, by simp [root]⟩⟩

end Lineage

-- The state of `b` put into that of `a`.
namespace Nesting

def a : Value := .scope "a"

def b : Value := .scope "b"

def calls : Env Unit := Env.within (fun _ => { body := fun _ => .done .none }) 5

def main : Act Unit Value := do
  let inner ← Act.ask (.engine 0 (.initScope b (.text "\x7b\"x\": 1\x7d")))
  let outer ← Act.ask (.engine 0 (.initScope a .none))
  let _ ← Act.ask (.record outer (.setItem (.text "b") inner))
  let _ ← Act.ask (.engine 0 .tick)
  Act.ask (.make (.dict (Mapping.ofFields [("b.x", .int 2)])))

/-- What is to be merged is the last cell. -/
def start : Session Unit := (main.run calls { memory := () }).2

end Nesting

end ReactiveScopes
