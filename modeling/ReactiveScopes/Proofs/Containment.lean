import ReactiveScopes.Proofs.Hole
import ReactiveScopes.Run

/-!
# Contained faults

An expression always reduces to a value. Whatever the client's objects, write hooks and post functions
raise among the faults of operators, and whatever its publish function, its fetch function and its
elements raise, stays inside the innermost operator application that met it; around it that application
is `none` with its effects done so far. Only the limits of memory and of nesting get out.
-/
namespace ReactiveScopes

open Eff

variable {κ α β : Type}

/-- What can call client code in a store was there before, or is plain data. -/
structure Store.HostedBy (s s₀ : Store) : Prop where
  cell : ∀ {r c}, s.cell? r = some c → c.isData = false → s₀.cell? r = some c
  attached : s.attached = s₀.attached
  awaitables : s.awaitables = s₀.awaitables

namespace Store

variable {s s₀ : Store}

theorem Extends.hosted (h : s₀.Extends s) : s.HostedBy s₀ := ⟨h.object, h.attached, h.awaitables⟩

theorem hosted_put {r : Ref} {c : Cell} (hc : c.isData) : (s.put r c).HostedBy s where
  cell {x d} h hd := by
    by_cases hr : r.index < s.cells.size
    · rw [cell?_put hr] at h
      split at h
      · cases h
        rw [hd] at hc
        cases hc
      · exact h
    · rwa [put, Array.setIfInBounds, dif_neg hr] at h
  attached := rfl
  awaitables := rfl

theorem HostedBy.civil {P : Fault → Prop} (h : s.HostedBy s₀) (hs : s₀.Civil P) : s.Civil P where
  reading hc := hs.reading (h.cell hc rfl)
  comparing hc := hs.comparing (h.cell hc rfl)

/-- Data have no attributes but the methods of byte strings and of sets. -/
theorem HostedBy.attribute? (h : s.HostedBy s₀) {v f : Value} {name : String}
    (hb : bytesMethods.contains name = false) (hm : setMethods.contains name = false)
    (ha : s.attribute? v name = .ok (some f)) : s₀.attribute? v name = .ok (some f) := by
  cases v with
  | ref r =>
    cases hc : s.cell? r with
    | none => simp [Store.attribute?, hc] at ha
    | some c =>
      cases hd : c.isData with
      | false => rwa [Store.attribute?, hc, ← h.cell hc hd, attachedTo, h.attached] at ha
      | true =>
        cases c <;> simp_all [Store.attribute?, methodIn, Cell.isData]
  | constant | fn | scope | promise =>
    simpa only [Store.attribute?, attachedTo, h.attached, h.awaitables] using ha
  | _ => exact ha

end Store

/-- Tells quiet callables only. -/
def Hook.IsQuiet (quiet : Value → Prop) (hook : Hook) : Prop := ∀ f, hook = .fn f → quiet (.fn f)

/-- The client code that evaluating against a state can call: `quiet` callables take part in writes,
`loud` ones are told or asked. -/
structure Session.Hosts (quiet loud : Value → Prop) (state : Value) (w : Session κ) : Prop where
  civil : w.store.Civil fun f => f.isOperatorFault
  hook : ∀ {r data hook}, w.store.cell? r = some (.record data hook) → hook.IsQuiet quiet
  sink : ∀ {e p}, (w.engine e).queue.sink = some p → quiet (.fn p)
  writer : ∀ {f}, w.store.attribute? state "set_path" = .ok (some f) → quiet f
  asked : ∀ {v f}, w.store.attribute? v "has_class" = .ok (some f) → loud f

/-- Client code that returns or raises, quiet callables the faults of operators only, loud ones any
error, and that does not look at the journal. -/
structure Env.Serves (env : Env κ) (I : Session κ → Prop) (quiet loud : Value → Prop) : Prop where
  quietly : ∀ {v} args w, quiet v → I w →
    Meets I (.among fun f => f.isOperatorFault) (env.call v args w)
  loudly : ∀ {v} args w, loud v → I w → Meets I (.among fun f => f.isError) (env.call v args w)
  blindly : ∀ {v} args w j, quiet v ∨ loud v → I w →
    Alike (env.call v args w) (env.call v args { w with journal := j })

namespace Fault

theorem isError_of_isOrdinary {f : Fault} (h : f.isOrdinary) : f.isError := by
  cases f with
  | client k t =>
    cases k <;>
      simp_all [isOrdinary, isOperatorFault, isLimit, isError, kind, isValueFault, isLookupFault]
  | cancelled => simp_all [isOrdinary, isOperatorFault, isLimit, kind, isValueFault, isLookupFault]
  | _ => simp [isError, kind]

theorem isOrdinary_of_isOperatorFault {f : Fault} (h : f.isOperatorFault) : f.isOrdinary := by
  simp [isOrdinary, h]

theorem isError_of_isOperatorFault {f : Fault} (h : f.isOperatorFault) : f.isError :=
  isError_of_isOrdinary (isOrdinary_of_isOperatorFault h)

end Fault

instance : Admits fun f => f.isError := ⟨Fault.isError_of_isOrdinary⟩

theorem Store.Civil.mono {P Q : Fault → Prop} {s : Store} (h : s.Civil P) (hpq : ∀ {f}, P f → Q f) :
    s.Civil Q :=
  ⟨fun hc hf => hpq (h.reading hc hf), fun hc hf => hpq (h.comparing hc hf)⟩

section Hosts

variable {quiet loud : Value → Prop} {state : Value} {w w' : Session κ}

/-- The store of one session and the engines of another. -/
theorem Session.Hosts.restored {v : Session κ} (h : w.Hosts quiet loud state)
    (h' : w'.Hosts quiet loud state) (hs : v.store.HostedBy w.store)
    (hq : ∀ e, (v.engine e).queue.sink = (w'.engine e).queue.sink) : v.Hosts quiet loud state where
  civil := hs.civil h.civil
  hook hc := h.hook (hs.cell hc rfl)
  sink hp := h'.sink ((hq _).symm.trans hp)
  writer ha := h.writer (hs.attribute? rfl rfl ha)
  asked ha := h.asked (hs.attribute? rfl rfl ha)

theorem Session.Hosts.hook_of_look (h : w.Hosts quiet loud state) {v : Value} {data : Ref} {hook : Hook}
    (hl : w.store.look v = some (.record data hook)) : hook.IsQuiet quiet := by
  cases v <;> simp only [Store.look, reduceCtorEq] at hl
  exact h.hook hl

instance : Roomy (Session.Hosts quiet loud state : Session κ → Prop) where
  grown h hs := h.restored h hs.hosted fun _ => rfl
  noted h := h.restored h Store.Extends.refl.hosted fun _ => rfl

instance : Civil (fun f => f.isOperatorFault) (Session.Hosts quiet loud state : Session κ → Prop) :=
  ⟨fun h => h.civil⟩

instance : Civil (fun f => f.isOrdinary) (Session.Hosts quiet loud state : Session κ → Prop) :=
  ⟨fun h => h.civil.mono Fault.isOrdinary_of_isOperatorFault⟩

instance : Civil (fun f => f.isError) (Session.Hosts quiet loud state : Session κ → Prop) :=
  ⟨fun h => h.civil.mono Fault.isError_of_isOperatorFault⟩

end Hosts

/-- Of the engines nothing has changed but their schedulers and what is in their queues. -/
def Session.OnlyScheduled (w v : Session κ) : Prop :=
  ∀ e, ∃ s q, v.engine e = { w.engine e with scheduler := s, queue := q } ∧
    q.sink = (w.engine e).queue.sink

theorem Session.OnlyScheduled.of_eq {w v : Session κ} (h : ∀ e, v.engine e = w.engine e) :
    w.OnlyScheduled v :=
  fun e => ⟨(w.engine e).scheduler, (w.engine e).queue, h e, rfl⟩

theorem Session.OnlyScheduled.sink {w v : Session κ} (h : w.OnlyScheduled v) (e : Nat) :
    (v.engine e).queue.sink = (w.engine e).queue.sink := by
  obtain ⟨s, q, he, hq⟩ := h e
  rw [he, hq]

/-- An invariant that scheduling leaves as it is, and under which the engines post to quiet callables. -/
class Hears (quiet : Value → Prop) (I : Session κ → Prop) : Prop where
  beside : ∀ {w v : Session κ}, I w → v.store = w.store → w.OnlyScheduled v → I v
  sink : ∀ {w e p}, I w → (w.engine e).queue.sink = some p → quiet (.fn p)

instance {quiet loud : Value → Prop} {state : Value} :
    Hears quiet (Session.Hosts quiet loud state : Session κ → Prop) where
  beside h hs hq := h.restored h (by rw [hs]; exact Store.Extends.refl.hosted) hq.sink
  sink h := h.sink

namespace Keeps

open Evaluation

variable {quiet loud : Value → Prop} {state : Value} {env : Env κ}

section Reporting

variable {I : Session κ → Prop} {x : Terms} (hears : Hears quiet I)

include hears in
theorem beside {f : Session κ → Session κ} (hs : ∀ w, (f w).store = w.store)
    (hq : ∀ w : Session κ, w.OnlyScheduled (f w))
    (hj : ∀ w j, ∃ j', f { w with journal := j } = { f w with journal := j' }) :
    Keeps I x env (Eff.update f) :=
  update (fun w hw => hears.beside hw (hs w) (hq w)) hj

include hears in
theorem modifyEngine {e : Nat} {f : Engine → Engine}
    (h : ∀ y, ∃ s q, f y = { y with scheduler := s, queue := q } ∧ q.sink = y.queue.sink) :
    Keeps I x env (Eff.modifyEngine e f) := by
  refine beside hears (fun _ => rfl) (fun w x => ?_) fun _ j => ⟨j, rfl⟩
  rw [Session.engine_modifyEngine]
  split
  · exact h _
  · exact ⟨_, _, rfl, rfl⟩

include hears in
theorem log (ev : Event) : Keeps I x env (Eff.log ev : Eff κ Unit) :=
  beside hears (fun _ => rfl) (fun _ => .of_eq fun _ => rfl) fun _ j => ⟨ev :: j, rfl⟩

include hears in
theorem close (c : Closure) : Keeps I x env (Eff.close c : Eff κ Fn) := by
  have : Keeps I x env (Eff.update fun w : Session κ => { w with closures := w.closures.push c }) :=
    beside hears (fun _ => rfl) (fun _ => .of_eq fun _ => rfl) fun _ j => ⟨j, rfl⟩
  have : Keeps I x env (Eff.read fun w : Session κ => w.closures.size) := read fun _ _ => rfl
  unfold Eff.close
  infer_instance

include hears in
theorem soon (entry : Ready) : Keeps I x env (Queue.soon entry : Eff κ Unit) :=
  beside hears (fun _ => rfl) (fun _ => .of_eq fun _ => rfl) fun _ j => ⟨j, rfl⟩

variable (calls : ∀ f args, quiet (.fn f) → Keeps I x env (callFn f args))

include hears calls in
theorem post (e : Nat) (f : Value) : Keeps I x env (Queue.post e f : Eff κ Unit) := by
  have : ∀ ev, Keeps I x env (Eff.log ev : Eff κ Unit) := log hears
  have : ∀ entry, Keeps I x env (Queue.soon entry : Eff κ Unit) := soon hears
  unfold Queue.post
  refine bind fun _ => bind_engine fun w hw => bind fun l => ?_
  split
  · next p hp =>
    have := calls p [f] (hears.sink hw hp)
    infer_instance
  · infer_instance
  · exact modifyEngine hears fun _ => ⟨_, _, rfl, rfl⟩

include hears calls in
theorem enqueue (e : Nat) (key : Value) : Keeps I x env (Scheduler.enqueue e key : Eff κ Unit) := by
  have (f : Scheduler → Scheduler) : Keeps I x env (Scheduler.modify e f : Eff κ Unit) :=
    modifyEngine hears fun _ => ⟨_, _, rfl, rfl⟩
  have : ∀ c, Keeps I x env (Eff.close c : Eff κ Fn) := close hears
  have := post hears calls e
  have : Keeps I x env (Scheduler.scheduler e : Eff κ Scheduler) :=
    inferInstanceAs (Keeps _ _ _ (engine e >>= _))
  unfold Scheduler.enqueue
  exact bind fun s => inferInstance

include hears calls in
theorem report {hook : Hook} (hh : hook.IsQuiet quiet) (key : Value) :
    Keeps I x env (Record.report hook key : Eff κ Unit) := by
  have : ∀ ev, Keeps I x env (Eff.log ev : Eff κ Unit) := log hears
  unfold Record.report
  split
  · infer_instance
  · next f =>
    have := calls f [key] (hh f rfl)
    infer_instance
  · have := enqueue hears calls
    unfold Scheduler.request
    infer_instance

end Reporting

section Writing

variable {x : Terms}

theorem put {r : Ref} {d : Cell} (hd : d.isData) {w : Session κ} (hw : w.Hosts quiet loud state) :
    Keeps (Session.Hosts quiet loud state) x env (setStore (w.store.put r d) : Eff κ Unit) :=
  update (fun _ hw' => hw.restored hw' (Store.hosted_put hd) fun _ => rfl) fun _ j => ⟨j, rfl⟩

variable [Admits x.fault]
  (henv : env.Serves (Session.Hosts quiet loud state) quiet loud)

include henv in
theorem callQuiet {v : Value} (hv : v.isCallable → quiet v) (args : List Value) :
    Keeps (Session.Hosts quiet loud state) x env (callValue v args) := by
  unfold callValue
  cases hc : v.isCallable with
  | true =>
    refine ⟨fun w hw => ?_, fun _ w j hw => henv.blindly args w j (.inl (hv hc)) hw⟩
    have h := henv.quietly args w (hv hc) hw
    exact ⟨h.kept, Terms.Within.allows ⟨fun hf => Admits.ordinary (Fault.isOrdinary_of_isOperatorFault hf),
      False.elim, fun _ => trivial⟩ h.ends⟩
  | false => exact raise_ordinary (f := .unsupported) (by decide)

include henv in
theorem callQuietFn (f : Fn) (args : List Value) (hf : quiet (.fn f)) :
    Keeps (Session.Hosts quiet loud state) x env (callFn f args) :=
  callQuiet henv (fun _ => hf) args

include henv in
theorem setItem (data : Ref) {hook : Hook} (hh : hook.IsQuiet quiet) (key v : Value) :
    Keeps (Session.Hosts quiet loud state) x env (Record.setItem data hook key v : Eff κ Unit) := by
  unfold Record.setItem
  refine bind_store fun w hw => ?_
  have (t : Mapping) : Keeps (Session.Hosts quiet loud state) x env
      (setStore (w.store.put data (.dict t)) : Eff κ Unit) :=
    put rfl hw
  have := report (x := x) inferInstance (callQuietFn henv) hh
  infer_instance

instance (xs : List Value) (segment : String) (v : Value) :
    FailsIn x.fault (Path.storeItem xs segment v) := by
  unfold Path.storeItem
  repeat' (first | infer_instance | split)

include henv in
theorem assign (container : Value) (segment : String) (v : Value) :
    Keeps (Session.Hosts quiet loud state) x env (Path.assign container segment v : Eff κ Unit) := by
  unfold Path.assign
  refine bind_store fun w hw => ?_
  split
  · exact bind fun _ => put rfl hw
  · exact put rfl hw
  · next _ data hook hr => exact setItem henv data (hw.hook_of_look hr) _ _
  · exact raise_ordinary (by decide)

include henv in
theorem write (v : Value) (ps : List String) (y : Value) :
    Keeps (Session.Hosts quiet loud state) x env (Path.write v ps y : Eff κ Unit) := by
  have := assign (x := x) henv
  induction ps generalizing v with
  | nil => unfold Path.write; infer_instance
  | cons p ps ih =>
    cases ps with
    | nil => unfold Path.write; infer_instance
    | cons q qs =>
      unfold Path.write
      refine bind fun s => ?_
      split <;> infer_instance

include henv in
theorem setPath (data : Ref) {hook : Hook} (hh : hook.IsQuiet quiet) (path v : Value) :
    Keeps (Session.Hosts quiet loud state) x env (Record.setPath data hook path v : Eff κ Unit) := by
  have := setItem (x := x) henv data hh
  have := report (x := x) inferInstance (callQuietFn henv) hh
  have := write (x := x) henv
  have : Keeps (Session.Hosts quiet loud state) x env (Eff.raise .outOfRange : Eff κ Unit) :=
    raise_ordinary (by decide)
  unfold Record.setPath
  refine bind fun s => ?_
  split
  · infer_instance
  · refine bind fun _ => ?_
    split <;> infer_instance

include henv in
theorem writeState (path v : Value) :
    Keeps (Session.Hosts quiet loud state) x env (Evaluation.writeState state path v : Eff κ Unit) := by
  have := write (x := x) henv
  unfold Evaluation.writeState Path.set
  refine bind_store fun w hw => ?_
  split
  · next data hook hr =>
    unfold Store.record? at hr
    split at hr <;> cases hr
    next hl => exact setPath henv data (hw.hook_of_look hl) path v
  · have hf := Store.attribute?_fails (hw.civil.mono fun h => Admits.ordinary (P := x.fault)
      (Fault.isOrdinary_of_isOperatorFault h)).readable state "set_path"
    cases ha : w.store.attribute? state "set_path" with
    | error f => exact raise (hf.fault ha)
    | ok found =>
      cases found with
      | none =>
        change Keeps _ _ _ (store >>= fun s => Path.write state (s.segmentsOf path) v)
        infer_instance
      | some f =>
        have := callQuiet (x := x) henv (fun _ => hw.writer ha) [path, v]
        change Keeps _ _ _ (if f.isNone then store >>= fun s => Path.write state (s.segmentsOf path) v
          else callValue f [path, v] >>= fun _ => pure ())
        infer_instance

end Writing

section Asking

variable (henv : env.Serves (Session.Hosts quiet loud state) quiet loud)

include henv in
theorem callLoud {v : Value} (hv : v.isCallable → loud v) (args : List Value) :
    Keeps (Session.Hosts quiet loud state) (.among fun f => f.isError) env (callValue v args) := by
  unfold callValue
  cases hc : v.isCallable with
  | true =>
    exact ⟨fun w hw => henv.loudly args w (hv hc) hw,
      fun _ w j hw => henv.blindly args w j (.inr (hv hc)) hw⟩
  | false => exact raise_ordinary (f := .unsupported) (by decide)

/-- What contains every error lets nothing out. -/
theorem containErrors {x : Terms} {m : Eff κ α} {handle : Fault → Eff κ α}
    (hm : Keeps (Session.Hosts quiet loud state) (.among fun f => f.isError) env m)
    (hh : ∀ f, Keeps (Session.Hosts quiet loud state) x env (handle f)) :
    Keeps (Session.Hosts quiet loud state) x env (Eff.contain m Fault.isError handle) :=
  contain hm (fun f hf hn => absurd (show f.isError from hf) (by simp [hn])) False.elim
    (fun _ => trivial) hh

include henv in
theorem publish {x : Terms} {c : Context} (hc : c.pub.isCallable → loud c.pub) (topic payload : Value) :
    Keeps (Session.Hosts quiet loud state) x env (Evaluation.publish c topic payload : Eff κ Value) := by
  unfold Evaluation.publish
  split
  · infer_instance
  · exact containErrors (callLoud henv hc _) fun _ => inferInstance

include henv in
theorem fetch {x : Terms} {c : Context}
    (hc : c.capabilities.fetch.isCallable → loud c.capabilities.fetch) (url init : Value) :
    Keeps (Session.Hosts quiet loud state) x env (Evaluation.fetch c url init : Eff κ Value) := by
  unfold Evaluation.fetch
  split
  · infer_instance
  · exact containErrors (callLoud henv hc _) fun _ => inferInstance

theorem holdsClass_fails {P : Fault → Prop} [Admits P] {s : Store} (hs : s.Civil P)
    (classes name : Value) : FailsIn P (s.holdsClass classes name) := by
  have := Store.memberOf_fails (Store.sameItem_fails (s := s) (Store.equal_fails hs))
  have := Store.memberOf_fails (Store.sameKey_fails hs)
  have := Store.keyOf_fails hs
  unfold Store.holdsClass
  repeat' (first | infer_instance | split)

theorem classesOf (el : Value) (names : List String) :
    Keeps (Session.Hosts quiet loud state) (.among fun f => f.isError) env
      (Evaluation.classesOf el names : Eff κ (Option Value)) := by
  induction names with
  | nil => unfold Evaluation.classesOf; infer_instance
  | cons name names ih =>
    unfold Evaluation.classesOf
    refine bind_store fun w hw => ?_
    have := Store.attribute?_fails (hw.civil.mono Fault.isError_of_isOperatorFault).readable el name
    refine bind fun found => ?_
    repeat' (first | infer_instance | split)

include henv in
theorem askClass (el name : Value) :
    Keeps (Session.Hosts quiet loud state) (.among fun f => f.isError) env
      (Evaluation.askClass el name : Eff κ Bool) := by
  have (names : List String) : Keeps (Session.Hosts quiet loud state) (.among fun f => f.isError) env
      (Evaluation.classesOf el names : Eff κ (Option Value)) :=
    classesOf el names
  unfold Evaluation.askClass
  refine bind_store fun w hw => ?_
  cases ha : w.store.attribute? el "has_class" with
  | error f =>
    have hf := Store.attribute?_fails (hw.civil.mono Fault.isError_of_isOperatorFault).readable el "has_class"
    exact raise (hf.fault ha)
  | ok asked =>
    refine bind_given fun asked' h => ?_
    obtain ⟨_, _, h⟩ := h
    cases h
    split
    · next hc =>
      cases asked with
      | none => cases hc
      | some f =>
        have := callLoud henv (fun _ => hw.asked ha) [name]
        have : Keeps (Session.Hosts quiet loud state) (.among fun f => f.isError) env
            (callValue ((some f).getD .none) [name]) := this
        infer_instance
    · refine bind fun found => ?_
      split
      · refine bind_store fun w' hw' => ?_
        have := holdsClass_fails (hw'.civil.mono Fault.isError_of_isOperatorFault)
        infer_instance
      · infer_instance

include henv in
theorem hasClass {x : Terms} (el name : Value) :
    Keeps (Session.Hosts quiet loud state) x env (Evaluation.hasClass el name : Eff κ Value) := by
  have := askClass henv el name
  unfold Evaluation.hasClass
  split
  · infer_instance
  · exact containErrors inferInstance fun _ => inferInstance

end Asking

section Operators

variable {c : Context} {op : Operator} {es : List Expr} {x : Terms} [Admits x.fault]
  [Civil x.fault (Session.Hosts quiet loud c.state : Session κ → Prop)]
  (henv : env.Serves (Session.Hosts quiet loud c.state) quiet loud)
  (hpub : c.pub.isCallable → loud c.pub)
  (hfetch : c.capabilities.fetch.isCallable → loud c.capabilities.fetch)

include henv hpub hfetch in
/-- Every operator keeps what its operands keep. -/
theorem apply_hosted (h : ∀ e ∈ es, Keeps (Session.Hosts quiet loud c.state) x env (eval c e)) :
    Keeps (Session.Hosts quiet loud c.state) x env (Evaluation.apply c op es) := by
  cases hop : op.isReadOnly with
  | true => exact readOnly hop h
  | false =>
    have := fun path v => set (writeState (x := x) henv path v)
    have := fun path => toggle fun b => writeState (x := x) henv path (.bool b)
    have := publish (x := x) henv hpub
    have := fetch (x := x) henv hfetch
    have := hasClass (x := x) henv
    rcases es with _ | ⟨a, _ | ⟨b, _ | ⟨d, es⟩⟩⟩
    · cases op <;> cases hop <;> (unfold Evaluation.apply; infer_instance)
    · have := h a (by simp)
      cases op <;> cases hop <;> (unfold Evaluation.apply; infer_instance)
    · have := h a (by simp)
      have := h b (by simp)
      cases op <;> cases hop <;> (unfold Evaluation.apply; infer_instance)
    · cases op <;> cases hop <;> (unfold Evaluation.apply; infer_instance)

include henv hpub hfetch in
/-- Every expression gives a value but at a limit. -/
theorem eval_hosted (e : Expr) : Keeps (Session.Hosts quiet loud c.state)
    (Terms.among fun f => f.isOrdinary).contained env (eval c e) := by
  refine expression (fun op es _ h => ?_)
    (e.every (q := fun _ => True) (p := fun _ _ => True) (fun _ => trivial) fun _ _ => trivial)
  exact apply_hosted henv hpub hfetch fun a ha => (h a ha).mono (Terms.contained_within _)

end Operators

end Keeps

/-- The session after one more notice. -/
def Session.noted (w : Session κ) (n : Notice) : Session κ :=
  { w with journal := .notice n :: w.journal }

section Reducing

variable {quiet loud : Value → Prop} {c : Context} {env : Env κ} {w w' : Session κ}

/-- An application that an operation on its values rejects is `none`, with what it did before. -/
theorem eval_of_rejected {op : Operator} {args : List Expr} {f : Fault}
    (h : Evaluation.apply c op args env w = (.fault f, w')) (hf : f.isOperatorFault) :
    Evaluation.eval c (.apply op args) env w = (.value .none, w'.noted .operatorFailed) := by
  unfold Evaluation.eval
  change Eff.bind (Evaluation.apply c op args).attempt _ env w = _
  unfold Eff.bind Eff.attempt
  simp only [h, hf, if_true]
  rfl

/-- Reducing keeps what evaluation does. -/
theorem Keeps.reduce {I : Session κ → Prop} {x : Terms} [Roomy I] (raw : Value)
    (h : ∀ e, Keeps I x env (Evaluation.eval c e)) :
    Keeps I x env (reduce raw c.state (.capabilities c.capabilities) c.pub) := by
  have : Keeps I x env (Scope.compileValue raw : Eff κ Expr) := by
    unfold Scope.compileValue
    infer_instance
  change Keeps I x env (Scope.compileValue raw >>= fun e => Evaluation.eval c e)
  infer_instance

end Reducing

-- A client that raises wherever it is called or looked at.
namespace Surly

/-- The write hook refuses values, everything else is down. -/
def host : Host Unit := fun name =>
  { body := fun _ => .raise (if name = "hook" then .client .value "no" else .client .runtime "down") }

def hook : Value := .fn (.client "hook")

def down : Value := .fn (.client "down")

def element : Object where
  name := "el"
  attributes := Table.ofList [("has_class", down)]
  raising := Table.ofList [("broken", .client .value "no")]
  comparison := some (.client .type "no")

/-- The last cell is an expression that writes. -/
def store : Store where
  cells := #[.object element, .record ⟨2⟩ (.fn (.client "hook")),
    .dict (.ofFields [("n", .int 1), ("el", .ref ⟨0⟩)]),
    .list [.text "set", .text "n", .int 2]]

def raw : Value := .ref ⟨3⟩

def context : Context where
  state := .ref ⟨1⟩
  capabilities := { el := .ref ⟨0⟩, fetch := down }
  pub := down

def start : Session Unit := { memory := (), store := store }

theorem serves : (Env.within host 3).Serves
    (Session.Hosts (· = hook) (· = down) context.state) (· = hook) (· = down) where
  quietly args w hv hw := by
    subst hv
    exact ⟨hw, (by decide : (Fault.client .value "no").isOperatorFault)⟩
  loudly args w hv hw := by
    subst hv
    exact ⟨hw, (by decide : (Fault.client .runtime "down").isError)⟩
  blindly args w j hv _ := by
    rcases hv with rfl | rfl <;> exact ⟨rfl, j, rfl⟩

theorem cell?_cases {r : Ref} {c : Cell} (h : store.cell? r = some c) :
    r = ⟨0⟩ ∧ c = .object element ∨ c = .record ⟨2⟩ (.fn (.client "hook")) ∨
      (∃ t, c = .dict t) ∨ ∃ xs, c = .list xs := by
  rcases r with ⟨_ | _ | _ | _ | n⟩
  · exact .inl ⟨rfl, (Option.some.inj h).symm⟩
  · exact .inr (.inl (Option.some.inj h).symm)
  · exact .inr (.inr (.inl ⟨_, (Option.some.inj h).symm⟩))
  · exact .inr (.inr (.inr ⟨_, (Option.some.inj h).symm⟩))
  · simp [Store.cell?, store] at h

/-- Only the element has something to be asked. -/
theorem asked {v f : Value} (h : store.attribute? v "has_class" = .ok (some f)) : f = down := by
  cases v with
  | ref r =>
    cases hc : store.cell? r with
    | none => simp [Store.attribute?, hc] at h
    | some c =>
      rcases cell?_cases hc with ⟨-, rfl⟩ | rfl | ⟨t, rfl⟩ | ⟨xs, rfl⟩
      · have hd : element.read? (.ref r) "has_class" = .ok (some down) := rfl
        simp only [Store.attribute?, hc, hd] at h
        cases h
        rfl
      all_goals simp [Store.attribute?, hc] at h
  | constant c =>
    have hs : c.sibling? "has_class" = none := by
      rw [Constant.sibling?, Option.map_eq_none_iff, List.find?_eq_none]
      intro x hx
      have hall : ∀ y ∈ Operator.all.map Operator.constant ++
          [Reentrancy.skip.constant, Reentrancy.defer.constant], y.name ≠ "has_class" := by decide
      simpa using hall x (List.mem_filter.1 hx).1
    have ht : store.attachedTo (.constant c) "has_class" = none := rfl
    have hm : methodIn textMethods "str" (.constant c) "has_class" = none := rfl
    simp [Store.attribute?, Constant.member, hs, ht, hm] at h
  | promise n => cases h
  | _ => cases h

theorem hosts : start.Hosts (· = hook) (· = down) context.state where
  civil := by
    refine ⟨fun {r o name f} hc hf => ?_, fun {r o f} hc hf => ?_⟩
    · rcases cell?_cases hc with ⟨-, h⟩ | h | ⟨_, h⟩ | ⟨_, h⟩ <;> cases h
      have hr : element.raising.get? name = if "broken" = name then some (.client .value "no") else none :=
        rfl
      rw [hr] at hf
      split at hf <;> cases hf
      decide
    · rcases cell?_cases hc with ⟨-, h⟩ | h | ⟨_, h⟩ | ⟨_, h⟩ <;> cases h
      cases hf
      decide
  hook hc := by
    rcases cell?_cases hc with ⟨-, h⟩ | h | ⟨_, h⟩ | ⟨_, h⟩ <;> cases h
    intro f hf
    cases hf
    rfl
  sink hp := by cases hp
  writer ha := by cases ha
  asked := asked

end Surly

end ReactiveScopes
