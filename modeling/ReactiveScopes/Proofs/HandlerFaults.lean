import ReactiveScopes.Proofs.Containment

/-!
# What invoking a handler raises

A handler that fails is reported, and so is a result that cannot be written back. What is left is the
value that the handler is told: reading it may come to an attribute of one of the client's objects that
raises, and nothing stands in the way of that. So an invocation raises an error exactly if the read
does, and then nothing has happened yet.
-/
namespace ReactiveScopes

open Eff

variable {κ α β : Type}

/-- Contained where a result is written back, or nothing that errors are contained for. -/
def Fault.isMild (f : Fault) : Bool := f.isWriteFault || !f.isError

namespace Terms

/-- Ending in any way but with an error that a write lets out. -/
abbrev mild : Terms := ⟨fun f => f.isMild, True, False⟩

/-- Ending in any way but with an error. -/
abbrev calm : Terms := ⟨fun f => ¬ f.isError, True, False⟩

/-- Ending in any way. -/
abbrev any : Terms := ⟨fun _ => True, True, False⟩

end Terms

/-- What is stored over a list or a dictionary is one as well. -/
inductive Cell.Renews : Cell → Cell → Prop
  | list (xs ys : List Value) : Renews (.list xs) (.list ys)
  | dict (t t' : Mapping) : Renews (.dict t) (.dict t')

namespace Store

/-- Lists and dictionaries stay what they are, and records the same records. -/
structure Lasts (s s' : Store) : Prop where
  list : ∀ {r xs}, s.cell? r = some (.list xs) → ∃ ys, s'.cell? r = some (.list ys)
  dict : ∀ {r t}, s.cell? r = some (.dict t) → ∃ t', s'.cell? r = some (.dict t')
  record : ∀ {r data hook}, s.cell? r = some (.record data hook) → s'.cell? r = some (.record data hook)

variable {s s' s'' : Store}

namespace Lasts

theorem of_kept (h : ∀ {r c}, s.cell? r = some c → s'.cell? r = some c) : s.Lasts s' :=
  ⟨fun hr => ⟨_, h hr⟩, fun hr => ⟨_, h hr⟩, h⟩

theorem refl : s.Lasts s := of_kept id

theorem trans (h : s.Lasts s') (h' : s'.Lasts s'') : s.Lasts s'' where
  list hr := by
    obtain ⟨ys, hy⟩ := h.list hr
    exact h'.list hy
  dict hr := by
    obtain ⟨t, ht⟩ := h.dict hr
    exact h'.dict ht
  record hr := h'.record (h.record hr)

theorem put {r : Ref} {c d : Cell} (h : s.cell? r = some c) (hd : c.Renews d) : s.Lasts (s.put r d) := by
  have bound : r.index < s.cells.size := (Array.getElem?_eq_some_iff.1 h).1
  refine ⟨fun {x xs} hx => ?_, fun {x t} hx => ?_, fun {x data hook} hx => ?_⟩
  all_goals
    rw [cell?_put bound]
    split
    · next hr =>
      subst hr
      rw [h] at hx
      cases hx
      cases hd
      try exact ⟨_, rfl⟩
    · first | exact hx | exact ⟨_, hx⟩

theorem record? (h : s.Lasts s') {v : Value} {data : Ref} {hook : Hook}
    (hv : s.record? v = some (data, hook)) : s'.record? v = some (data, hook) := by
  cases v with
  | ref r =>
    simp only [Store.record?, look] at hv ⊢
    split at hv <;> cases hv
    next hl => rw [h.record hl]
  | _ => cases hv

theorem isContainer (h : s.Lasts s') {v : Value} (hv : Path.isContainer s v) : Path.isContainer s' v := by
  cases v with
  | ref r =>
    simp only [Path.isContainer, look] at hv ⊢
    split at hv
    · next hl =>
      obtain ⟨ys, hy⟩ := h.list hl
      rw [hy]
    · next hl =>
      obtain ⟨t, ht⟩ := h.dict hl
      rw [ht]
    · next hl => rw [h.record hl]
    · cases hv
  | _ => cases hv

end Lasts

/-- What goes wrong in reading a path is what an attribute of one of the client's objects raises. -/
theorem raising_of_getPath {v path : Value} {f : Fault} (h : s.getPath v path = .error f) :
    ∃ r o name, s.cell? r = some (.object o) ∧ o.raising.get? name = some f := by
  have readable : s.Readable fun f =>
      ∃ r o name, s.cell? r = some (.object o) ∧ o.raising.get? name = some f :=
    fun r o name _ hc hf => ⟨r, o, name, hc, hf⟩
  exact (getPath_fails readable v path).fault h

end Store

/-- Quiet callables are told of writes and take callbacks over; decent ones handle and know parents. -/
structure Session.Housed (quiet decent : Value → Prop) (w : Session κ) : Prop where
  data : ∀ {r data hook}, w.store.cell? r = some (.record data hook) →
    ∃ t, w.store.cell? data = some (.dict t)
  hook : ∀ {r data hook}, w.store.cell? r = some (.record data hook) → hook.IsQuiet quiet
  sink : ∀ {e p}, (w.engine e).queue.sink = some p → quiet (.fn p)
  handler : ∀ {e name f}, (w.engine e).handlers.get? name = some f → decent f
  parent : ∀ {e f}, (w.engine e).parentOf = some f → decent (.fn f)
  records : ∀ {e k v}, (w.engine e).records.get? k = some v → (w.store.record? v).isSome

/-- Housed still, and the containers of some store are there. -/
structure Session.Lasting (quiet decent : Value → Prop) (s₀ : Store) (w : Session κ) : Prop where
  housed : w.Housed quiet decent
  lasts : s₀.Lasts w.store

/-- Client code under which containers stay what they are. The quiet callables raise no error but those
that a write contains. -/
structure Env.Orderly (env : Env κ) (quiet decent : Value → Prop) : Prop where
  quietly : ∀ {v} args w, quiet v → w.Housed quiet decent →
    Meets (Session.Lasting quiet decent w.store) .mild (env.call v args w)
  decently : ∀ {v} args w, decent v → w.Housed quiet decent →
    Meets (Session.Lasting quiet decent w.store) .any (env.call v args w)

section Housed

variable {quiet decent : Value → Prop} {s₀ : Store} {w : Session κ}

namespace Session

/-- Where no container has become anything else, no record has come in, and the engines have scheduled at
most. -/
theorem Lasting.moved {v : Session κ} (h : w.Lasting quiet decent s₀) (hs : w.store.Lasts v.store)
    (hr : ∀ {r data hook}, v.store.cell? r = some (.record data hook) →
      w.store.cell? r = some (.record data hook)) (he : w.OnlyScheduled v) :
    v.Lasting quiet decent s₀ := by
  have same (e : Nat) : (v.engine e).handlers = (w.engine e).handlers ∧
      (v.engine e).parentOf = (w.engine e).parentOf ∧ (v.engine e).records = (w.engine e).records := by
    obtain ⟨s, q, hv, -⟩ := he e
    rw [hv]
    exact ⟨rfl, rfl, rfl⟩
  refine ⟨⟨fun hc => ?_, fun hc => h.housed.hook (hr hc), fun hp => ?_, fun hf => ?_, fun hf => ?_,
    fun hv => ?_⟩, h.lasts.trans hs⟩
  · obtain ⟨t, ht⟩ := h.housed.data (hr hc)
    exact hs.dict ht
  · exact h.housed.sink ((he.sink _).symm.trans hp)
  · exact h.housed.handler ((same _).1 ▸ hf)
  · exact h.housed.parent ((same _).2.1 ▸ hf)
  · obtain ⟨⟨data, hook⟩, hd⟩ := Option.isSome_iff_exists.1 (h.housed.records ((same _).2.2 ▸ hv))
    rw [hs.record? hd]
    rfl

/-- A container is stored where one is. -/
theorem Lasting.put {r : Ref} {c d : Cell} (h : w.Lasting quiet decent s₀)
    (hc : w.store.cell? r = some c) (hd : c.Renews d) :
    Session.Lasting quiet decent s₀ { w with store := w.store.put r d } := by
  refine h.moved (.put hc hd) (fun {x data hook} hx => ?_) (.of_eq fun _ => rfl)
  rw [Store.cell?_put (Array.getElem?_eq_some_iff.1 hc).1] at hx
  split at hx
  · cases hd <;> cases hx
  · exact hx

theorem Lasting.rebase {w' : Session κ} (h : w.Lasting quiet decent s₀)
    (h' : w'.Lasting quiet decent w.store) : w'.Lasting quiet decent s₀ :=
  ⟨h'.housed, h.lasts.trans h'.lasts⟩

instance : Roomy (Session.Lasting quiet decent s₀ : Session κ → Prop) where
  grown h hs := h.moved (.of_kept hs.kept) (fun hc => hs.object hc rfl) (.of_eq fun _ => rfl)
  noted h := h.moved .refl id (.of_eq fun _ => rfl)

instance : Hears quiet (Session.Lasting quiet decent s₀ : Session κ → Prop) where
  beside h hs he := h.moved (by rw [hs]; exact .refl) (by rw [hs]; exact id) he
  sink h := h.housed.sink

end Session

end Housed

theorem Store.cell_of_record? {s : Store} {v : Value} {data : Ref} {hook : Hook}
    (h : s.record? v = some (data, hook)) : ∃ r, s.cell? r = some (.record data hook) := by
  cases v with
  | ref r =>
    simp only [Store.record?, look] at h
    split at h <;> cases h
    next hr => exact ⟨r, hr⟩
  | _ => cases h

theorem Path.below?_isContainer {s : Store} {v x : Value} {segment : String}
    (h : below? s v segment = some x) : isContainer s x := by
  unfold below? at h
  split at h
  · split at h
    · split at h <;> cases h
      assumption
    · cases h
  · cases h

namespace Env.Orderly

variable {quiet decent : Value → Prop} {s₀ : Store} {env : Env κ} {x : Terms}

/-- A computation that looks at the store goes on from what the store is then. -/
theorem bind_store {k : Store → Eff κ β} (hx : ¬ x.blind)
    (hk : ∀ w : Session κ, w.Lasting quiet decent s₀ →
      Keeps (Session.Lasting quiet decent w.store) x env (k w.store)) :
    Keeps (Session.Lasting quiet decent s₀) x env (Eff.store >>= k) where
  meets w hw := by
    have h := (hk w hw).meets w ⟨hw.housed, .refl⟩
    exact ⟨hw.rebase h.kept, h.ends⟩
  blind hb := absurd hb hx

/-- What is allocated is there from then on. -/
theorem bind_alloc {c : Cell} {k : Value → Eff κ β} (hx : ¬ x.blind) (hc : c.isData)
    (hk : ∀ s r, s₀.Lasts s → s.cell? r = some c →
      Keeps (Session.Lasting quiet decent s) x env (k (.ref r))) :
    Keeps (Session.Lasting quiet decent s₀) x env (Eff.alloc c >>= k) where
  meets w hw := by
    have grown : Session.Lasting quiet decent s₀ { w with store := (w.store.alloc c).2 } :=
      Roomy.grown hw (.alloc hc)
    have h := (hk (w.store.alloc c).2 (w.store.alloc c).1 grown.lasts Store.cell?_alloc_new).meets
      { w with store := (w.store.alloc c).2 } ⟨grown.housed, .refl⟩
    exact ⟨grown.rebase h.kept, h.ends⟩
  blind hb := absurd hb hx

variable (orderly : env.Orderly quiet decent)

include orderly in
theorem call (f : Fn) (args : List Value) (hf : quiet (.fn f)) :
    Keeps (Session.Lasting quiet decent s₀) .mild env (callFn f args) where
  meets w hw := by
    have h := orderly.quietly args w hf hw.housed
    exact ⟨hw.rebase h.kept, h.ends⟩
  blind hb := absurd hb id

include orderly in
theorem report {hook : Hook} (hh : hook.IsQuiet quiet) (key : Value) :
    Keeps (Session.Lasting quiet decent s₀) .mild env (Record.report hook key : Eff κ Unit) :=
  Keeps.report inferInstance orderly.call hh key

include orderly in
theorem setItem {data : Ref} {hook : Hook} {t : Mapping} (hd : s₀.cell? data = some (.dict t))
    (hh : hook.IsQuiet quiet) (key v : Value) :
    Keeps (Session.Lasting quiet decent s₀) .mild env (Record.setItem data hook key v : Eff κ Unit) where
  meets w hw := by
    obtain ⟨u, hu⟩ := hw.lasts.dict hd
    have stored := hw.put hu (.dict u ((Record.fields w.store data).insert key v))
    have reports (b : Bool) : Keeps (Session.Lasting quiet decent s₀) .mild env
        (if b then Record.report hook key else pure () : Eff κ Unit) := by
      have : Keeps (Session.Lasting quiet decent s₀) .mild env (Record.report hook key : Eff κ Unit) :=
        orderly.report hh key
      infer_instance
    exact (reports _).meets _ stored
  blind hb := absurd hb id

theorem storeItem_mild (xs : List Value) (segment : String) (v : Value) :
    FailsIn (fun f => f.isMild) (Path.storeItem xs segment v) := by
  unfold Path.storeItem
  split
  · exact .error (by decide)
  · split
    · infer_instance
    · dsimp only
      split
      all_goals first | infer_instance | (split <;> first | infer_instance | exact .error (by decide))

include orderly in
/-- Storing into a container. -/
theorem assign {container : Value} (hc : Path.isContainer s₀ container) (segment : String) (v : Value) :
    Keeps (Session.Lasting quiet decent s₀) .mild env (Path.assign container segment v : Eff κ Unit) where
  meets w hw := by
    have there := hw.lasts.isContainer hc
    cases container with
    | ref r =>
      unfold Path.assign
      rw [Eff.bind_store]
      simp only [Path.isContainer, Store.look] at there ⊢
      split at there
      · next xs hxs =>
        rw [hxs]
        dsimp only
        cases hi : Path.storeItem xs segment v with
        | ok ys =>
          rw [bind_ofExcept_ok]
          exact ⟨hw.put hxs (.list xs ys), trivial⟩
        | error f => exact ⟨hw, (storeItem_mild xs segment v).fault hi⟩
      · next t ht =>
        rw [ht]
        exact ⟨hw.put ht (.dict t _), trivial⟩
      · next data hook hd =>
        rw [hd]
        obtain ⟨t, ht⟩ := hw.housed.data hd
        have h := (orderly.setItem ht (hw.housed.hook hd) (.text segment) v).meets w ⟨hw.housed, .refl⟩
        exact ⟨hw.rebase h.kept, h.ends⟩
      · cases there
    | _ => cases there
  blind hb := absurd hb id

include orderly in
theorem write {v : Value} (hv : Path.isContainer s₀ v) (ps : List String) (x : Value) :
    Keeps (Session.Lasting quiet decent s₀) .mild env (Path.write v ps x : Eff κ Unit) := by
  induction ps generalizing v s₀ with
  | nil => unfold Path.write; infer_instance
  | cons p ps ih =>
    cases ps with
    | nil => unfold Path.write; exact orderly.assign hv p x
    | cons q qs =>
      unfold Path.write
      refine bind_store id fun w hw => ?_
      have hv := hw.lasts.isContainer hv
      split
      · next next hb => exact ih (Path.below?_isContainer hb)
      · refine bind_alloc id rfl fun s r hs hr => ?_
        have := orderly.assign (hs.isContainer hv) p (.ref r)
        have : Keeps (Session.Lasting quiet decent s) .mild env (Path.write (.ref r) (q :: qs) x : Eff κ Unit) :=
          ih (by simp [Path.isContainer, Store.look, hr])
        infer_instance

include orderly in
theorem setPath {data : Ref} {hook : Hook} {t : Mapping} (hd : s₀.cell? data = some (.dict t))
    (hh : hook.IsQuiet quiet) (path x : Value) :
    Keeps (Session.Lasting quiet decent s₀) .mild env (Record.setPath data hook path x : Eff κ Unit) := by
  have := orderly.setItem hd hh
  have : ∀ key, Keeps (Session.Lasting quiet decent s₀) .mild env (Record.report hook key : Eff κ Unit) :=
    orderly.report hh
  have : ∀ ps x, Keeps (Session.Lasting quiet decent s₀) .mild env (Path.write (.ref data) ps x : Eff κ Unit) :=
    orderly.write (by simp [Path.isContainer, Store.look, hd])
  have : Keeps (Session.Lasting quiet decent s₀) .mild env (Eff.raise .outOfRange : Eff κ Unit) :=
    .raise (by decide : Fault.outOfRange.isMild)
  unfold Record.setPath
  refine .bind fun s => ?_
  split
  · infer_instance
  · refine .bind fun _ => ?_
    split <;> infer_instance

include orderly in
/-- What goes wrong in writing a result back is contained. -/
theorem writeBack {state : Value} {data : Ref} {hook : Hook} (hs : s₀.record? state = some (data, hook))
    (path v : Value) :
    Keeps (Session.Lasting quiet decent s₀) .calm env (Handler.writeBack state path v : Eff κ Unit) := by
  have into : Keeps (Session.Lasting quiet decent s₀) .mild env
      (Handler.writeInto state path v : Eff κ Unit) := by
    unfold Handler.writeInto
    refine bind_store id fun w hw => ?_
    obtain ⟨r, hr⟩ := Store.cell_of_record? (hw.lasts.record? hs)
    obtain ⟨t, ht⟩ := hw.housed.data hr
    rw [hw.lasts.record? hs]
    exact orderly.setPath ht (hw.housed.hook hr) path v
  have : Keeps (Session.Lasting quiet decent s₀) .calm env (Eff.contain (Handler.writeInto state path v)
      Fault.isWriteFault fun _ => notice .resultNotWritten : Eff κ Unit) := by
    refine .contain into (fun f hf hw => ?_) id id fun _ => inferInstance
    simpa [Fault.isMild, hw] using hf
  unfold Handler.writeBack
  infer_instance

include orderly in
theorem callDecently {v : Value} (hv : decent v) (args : List Value) :
    Keeps (Session.Lasting quiet decent s₀) .any env (callValue v args) where
  meets w hw := by
    unfold callValue
    split
    · have h := orderly.decently args w hv hw.housed
      exact ⟨hw.rebase h.kept, h.ends⟩
    · exact ⟨hw, trivial⟩
  blind hb := absurd hb id

instance : Keeps (Session.Lasting quiet decent s₀) .calm env (Eff.exhaust : Eff κ α) :=
  ⟨fun _ hw => ⟨hw, trivial⟩, fun hb => absurd hb id⟩

include orderly in
/-- A parent function that fails ends the search. -/
theorem findFrom (e fuel : Nat) (passed : List Value) (current : Value) :
    Keeps (Session.Lasting quiet decent s₀) .calm env
      (Scope.findFrom e fuel passed current : Eff κ (Option (Value × Value))) := by
  induction fuel generalizing passed current with
  | zero => unfold Scope.findFrom; infer_instance
  | succ fuel ih =>
    unfold Scope.findFrom
    split
    · infer_instance
    · refine .bind_engine fun w hw => ?_
      split
      · infer_instance
      · infer_instance
      · next parent _ hp =>
        have asked : Keeps (Session.Lasting quiet decent s₀) .calm env
            (attempt (callFn parent [current]) : Eff κ (Except Fault Value)) :=
          .attempt (orderly.callDecently (hw.housed.parent hp) [current]) id id
        refine .bind fun r => ?_
        split
        · exact ih _ _
        · split
          · infer_instance
          · next hf => exact .raise hf

include orderly in
/-- What is found is the record that the engine keeps then. -/
theorem record_of_findFrom {e fuel : Nat} {passed : List Value} {current owner record : Value}
    {w w' : Session κ} (hw : w.Housed quiet decent)
    (h : Scope.findFrom e fuel passed current env w = (.value (some (owner, record)), w')) :
    (w'.store.record? record).isSome := by
  induction fuel generalizing passed current w with
  | zero => cases h
  | succ fuel ih =>
    unfold Scope.findFrom at h
    split at h
    · cases h
    · rw [Eff.bind_engine] at h
      rcases hr : (w.engine e).records.get? current with _ | kept <;>
        rcases hp : (w.engine e).parentOf with _ | parent <;> simp only [hr, hp] at h
      · cases h
      · obtain ⟨r, w₁, hr, h⟩ := value_of_bind h
        have asked : Keeps (Session.Lasting quiet decent w.store) .calm env
            (attempt (callFn parent [current]) : Eff κ (Except Fault Value)) :=
          .attempt (orderly.callDecently (hw.parent hp) [current]) id id
        have hw₁ := (asked.meets w ⟨hw, .refl⟩).kept.housed
        rw [hr] at hw₁
        rcases r with f | next
        · cases hf : f.isError <;> simp only [hf] at h <;> cases h
        · exact ih hw₁ h
      · cases h
        exact hw.records hr
      · cases h
        exact hw.records hr

instance (r : Routine κ) : Keeps (Session.Lasting quiet decent s₀) .calm env
    (Handler.start r : Eff κ Value) where
  meets w hw := by
    unfold Handler.start
    rw [bind_read]
    cases w.loop
    · exact ⟨hw.moved (.of_kept id) id (.of_eq fun _ => rfl), trivial⟩
    · exact ⟨hw.moved (.of_kept id) id (.of_eq fun _ => rfl), trivial⟩
  blind hb := absurd hb id

theorem alloc_context (c : HandlerContext) :
    Keeps (Session.Lasting quiet decent s₀) .calm env (Eff.alloc (.context c) : Eff κ Value) where
  meets w hw := by
    refine ⟨hw.moved (.of_kept fun {r d} hr => ?_) (fun {r data hook} hr => ?_) (.of_eq fun _ => rfl),
      trivial⟩
    · exact (Store.cell?_alloc_old (Array.getElem?_eq_some_iff.1 hr).1).trans hr
    · exact (Store.cell?_alloc_cases hr).elim id fun h => by cases h.2
  blind hb := absurd hb id

variable {f state : Value} {data : Ref} {hook : Hook}

include orderly in
/-- From the call of the handler on no error gets out. -/
theorem invocation (hf : decent f) (hs : s₀.record? state = some (data, hook)) (context : HandlerContext)
    (afterwards : Afterwards) (current : Value) : Keeps (Session.Lasting quiet decent s₀) .calm env (do
      let told ← alloc (.context context)
      match ← attempt (callValue f [current, told]) with
      | .error fault =>
        if fault.isError then
          notice (.handlerFailed fault)
          return .none
        else raise fault
      | .ok v =>
        if v.isAwaitable then Handler.start (.settle v ⟨state, context.path, afterwards⟩)
        else
          Handler.writeBack state context.path v
          return v : Eff κ Value) := by
  have : Keeps (Session.Lasting quiet decent s₀) .calm env (alloc (.context context) : Eff κ Value) :=
    alloc_context context
  refine .bind fun told => ?_
  have : Keeps (Session.Lasting quiet decent s₀) .calm env
      (attempt (callValue f [current, told]) : Eff κ (Except Fault Value)) :=
    .attempt (orderly.callDecently hf _) id id
  refine .bind fun r => ?_
  split
  · split
    · infer_instance
    · next hf => exact .raise hf
  · have := orderly.writeBack hs context.path
    infer_instance

end Env.Orderly

/-- Reading a path that is not empty goes wrong. -/
def Store.FailsToRead (s : Store) (state path : Value) (f : Fault) : Prop :=
  s.truthy path ∧ s.getPath state path = .error f

theorem Build.getPath_eq_error {s : Store} {v path : Value} {f : Fault} :
    Build.getPath v path s = .error f ↔ s.getPath v path = .error f := by
  have hread : Build.getPath v path s = (s.getPath v path).bind fun x => Build.fresh x s := by
    change Except.bind (Build.lift (s.getPath v path) s) _ = _
    unfold Build.lift
    cases s.getPath v path <;> rfl
  rw [hread]
  cases s.getPath v path with
  | ok x =>
    unfold Build.fresh
    simp only [Except.bind]
    repeat' (first | simp | split)
  | error g => simp [Except.bind]

namespace Handler

variable {quiet decent : Value → Prop} {env : Env κ} {w : Session κ} {e : Nat} {name : String}
  {state : Value} {context : HandlerContext} {afterwards : Afterwards} {f : Fault}

/-- What fails in reading is what the invocation raises, and nothing has happened. -/
theorem invoke_of_failsToRead (registered : ((w.engine e).handlers.get? name).isSome)
    (h : w.store.FailsToRead state context.path f) :
    invoke e name state context afterwards env w = (.fault f, w) := by
  obtain ⟨g, hg⟩ := Option.isSome_iff_exists.1 registered
  have read : build (Build.getPath state context.path) env w = (.fault f, w) := by
    unfold build
    rw [Build.getPath_eq_error.2 h.2]
  unfold invoke
  rw [bind_engine, hg]
  dsimp only
  rw [bind_store, if_pos h.1]
  change Eff.bind (build _) _ env w = _
  rw [Eff.bind, read]

/-- An invocation raises no other error. -/
theorem failsToRead_of_invoke (orderly : env.Orderly quiet decent) (housed : w.Housed quiet decent)
    (record : (w.store.record? state).isSome)
    (h : (invoke e name state context afterwards env w).1 = .fault f) (hf : f.isError) :
    ((w.engine e).handlers.get? name).isSome ∧ w.store.FailsToRead state context.path f := by
  obtain ⟨⟨data, hook⟩, hs⟩ := Option.isSome_iff_exists.1 record
  unfold invoke at h
  rw [bind_engine] at h
  cases hg : (w.engine e).handlers.get? name with
  | none =>
    rw [hg] at h
    cases h
  | some g =>
    have calls (current : Value) {w₁ : Session κ} (hw₁ : w₁.Lasting quiet decent w.store) :=
      ((orderly.invocation (housed.handler hg) hs context afterwards current).meets w₁ hw₁).ends
    have calm {o : Outcome Value} (ends : Terms.calm.Allows o) (ho : o = .fault f) : False := by
      rw [ho] at ends
      exact ends hf
    rw [hg] at h
    dsimp only at h
    rw [bind_store] at h
    refine ⟨rfl, ?_⟩
    by_cases ht : w.store.truthy context.path
    · rw [if_pos ht] at h
      change (Eff.bind (build _) _ env w).1 = _ at h
      rcases hr : Build.getPath state context.path w.store with g | ⟨x, s⟩
      · have read : build (Build.getPath state context.path) env w = (.fault g, w) := by
          unfold build
          rw [hr]
        rw [Eff.bind, read] at h
        cases h
        exact ⟨ht, Build.getPath_eq_error.1 hr⟩
      · have read : build (Build.getPath state context.path) env w = (.value x, { w with store := s }) := by
          unfold build
          rw [hr]
        rw [Eff.bind, read] at h
        have grown : w.store.Extends s := Build.Adds.grows (P := fun _ => True) w.store.civil_all hr
        exact (calm (calls x (Roomy.grown ⟨housed, .refl⟩ grown)) h).elim
    · rw [if_neg ht] at h
      exact (calm (calls .none ⟨housed, .refl⟩) h).elim

theorem invoke_iff (orderly : env.Orderly quiet decent) (housed : w.Housed quiet decent)
    (record : (w.store.record? state).isSome) (hf : f.isError) :
    (invoke e name state context afterwards env w).1 = .fault f ↔
      ((w.engine e).handlers.get? name).isSome ∧ w.store.FailsToRead state context.path f :=
  ⟨fun h => failsToRead_of_invoke orderly housed record h hf,
    fun ⟨registered, h⟩ => by rw [invoke_of_failsToRead registered h]⟩

end Handler

section Invoking

variable {quiet decent : Value → Prop} {env : Env κ} {w : Session κ} {f : Fault}

/-- Looking for the nearest state raises no error, and what it comes to is a record. -/
theorem Scope.invokeHandler_iff (orderly : env.Orderly quiet decent) (housed : w.Housed quiet decent)
    (hf : f.isError) {e : Nat} {name : String} {scope event path : Value} :
    (Scope.invokeHandler e name scope event path env w).1 = .fault f ↔
      ∃ owner record w₁, Scope.find e scope env w = (.value (some (owner, record)), w₁) ∧
        ((w₁.engine e).handlers.get? name).isSome ∧ w₁.store.FailsToRead record path f := by
  have found : Meets (Session.Lasting quiet decent w.store) .calm (Scope.find e scope env w) :=
    (orderly.findFrom e env.budget [] scope).meets w ⟨housed, .refl⟩
  change (Eff.bind (Scope.find e scope) _ env w).1 = _ ↔ _
  unfold Eff.bind
  rcases hr : Scope.find e scope env w with ⟨(_ | ⟨owner, record⟩) | g | _ | _, w₁⟩ <;> rw [hr] at found
  · exact ⟨nofun, fun ⟨_, _, _, h, _⟩ => by cases h⟩
  · have kept : (w₁.store.record? record).isSome := orderly.record_of_findFrom housed hr
    refine (Handler.invoke_iff orderly found.kept.housed kept hf).trans ⟨fun h => ?_, ?_⟩
    · exact ⟨owner, record, w₁, rfl, h⟩
    · rintro ⟨_, _, _, h, registered⟩
      cases h
      exact registered
  · have calm : ¬ g.isError := found.ends
    refine ⟨fun h => ?_, fun ⟨_, _, _, h, _⟩ => by cases h⟩
    cases h
    exact absurd hf calm
  · exact ⟨nofun, fun ⟨_, _, _, h, _⟩ => by cases h⟩
  · exact ⟨nofun, fun ⟨_, _, _, h, _⟩ => by cases h⟩

/-- Invoking a handler on a record raises an error exactly if the handler is registered and reading the
value at the path raises it, which is then what an attribute of one of the client's objects raises;
nothing has happened by then. Whatever the handler raises, and whatever goes wrong in writing the result
back, is contained. -/
theorem invocation_raises_what_reading_raises (orderly : env.Orderly quiet decent)
    (housed : w.Housed quiet decent) (hf : f.isError) (e : Nat) (name : String) :
    (∀ state context afterwards, (w.store.record? state).isSome →
      let result := Handler.invoke e name state context afterwards env w
      (result.1 = .fault f ↔
        ((w.engine e).handlers.get? name).isSome ∧ w.store.FailsToRead state context.path f) ∧
      (result.1 = .fault f → result.2 = w)) ∧
    (∀ scope event path, (Scope.invokeHandler e name scope event path env w).1 = .fault f ↔
      ∃ owner record w₁, Scope.find e scope env w = (.value (some (owner, record)), w₁) ∧
        ((w₁.engine e).handlers.get? name).isSome ∧ w₁.store.FailsToRead record path f) ∧
    ∀ (s : Store) state path, s.FailsToRead state path f →
      ∃ r o member, s.cell? r = some (.object o) ∧ o.raising.get? member = some f := by
  refine ⟨fun state context afterwards record => ?_, fun scope event path => ?_, fun s state path h => ?_⟩
  · have raises : (Handler.invoke e name state context afterwards env w).1 = .fault f ↔ _ :=
      Handler.invoke_iff orderly housed record hf
    refine ⟨raises, fun h => ?_⟩
    obtain ⟨registered, reads⟩ := raises.1 h
    exact congrArg Prod.snd (Handler.invoke_of_failsToRead registered reads)
  · exact Scope.invokeHandler_iff orderly housed hf
  · exact Store.raising_of_getPath h.2

end Invoking

-- A state that holds an object one of whose attributes is down, and a handler that is down too.
namespace Brittle

def down (text : String) : Fault := .client .runtime text

def host : Host Unit := fun name =>
  { body := fun _ => if name = "down" then .raise (down name) else .done (.int 1) }

def env : Env Unit := Env.within host 3

def object : Object where
  name := "o"
  raising := Table.ofList [("x", down "x")]

def store : Store where
  cells := #[.object object, .dict (.ofFields [("o", .ref ⟨0⟩), ("n", .int 1)]),
    .record ⟨1⟩ (.fn (.client "hook"))]

def state : Value := .ref ⟨2⟩

def engine : Engine where
  handlers := Table.ofList [("h", .fn (.client "h")), ("down", .fn (.client "down"))]
  records := Table.ofList [(.scope "a", state)]

def start : Session Unit where
  memory := ()
  store := store
  engines := Table.ofList [(0, engine)]

def telling (path : String) : HandlerContext := ⟨.scope "a", .none, .text path, .none⟩

def quiet (v : Value) : Prop := v = .fn (.client "hook")

def decent (v : Value) : Prop := v = .fn (.client "h") ∨ v = .fn (.client "down")

theorem orderly : env.Orderly quiet decent where
  quietly args w hv hw := by
    subst hv
    exact ⟨⟨hw, .refl⟩, trivial⟩
  decently args w hv hw := by
    rcases hv with rfl | rfl <;> exact ⟨⟨hw, .refl⟩, trivial⟩

/-- The one record of the store. -/
theorem record_eq {r data : Ref} {hook : Hook} (h : start.store.cell? r = some (.record data hook)) :
    data = ⟨1⟩ ∧ hook = .fn (.client "hook") := by
  rcases r with ⟨_ | _ | _ | n⟩
  · cases h
  · cases h
  · cases h
    exact ⟨rfl, rfl⟩
  · simp [start, store, Store.cell?] at h

theorem engine_eq (e : Nat) : start.engine e = engine ∨ start.engine e = {} := by
  by_cases he : 0 = e
  · subst he
    exact .inl rfl
  · refine .inr ?_
    simp only [Session.engine, start, Table.ofList, List.foldl_cons, List.foldl_nil, Table.get?_insert,
      if_neg he]
    rfl

theorem housed : start.Housed quiet decent where
  data hc := by
    obtain ⟨rfl, -⟩ := record_eq hc
    exact ⟨_, rfl⟩
  hook hc := by
    obtain ⟨-, rfl⟩ := record_eq hc
    intro f hf
    cases hf
    rfl
  sink {e p} hp := by
    rcases engine_eq e with h | h <;> rw [h] at hp <;> cases hp
  handler {e name f} hf := by
    rcases engine_eq e with h | h <;> rw [h] at hf
    · simp only [engine, Table.ofList, List.foldl_cons, List.foldl_nil, Table.get?_insert] at hf
      split at hf
      · exact .inr (Option.some.inj hf).symm
      · split at hf
        · exact .inl (Option.some.inj hf).symm
        · cases hf
    · cases hf
  parent {e f} hf := by
    rcases engine_eq e with h | h <;> rw [h] at hf <;> cases hf
  records {e k v} hv := by
    rcases engine_eq e with h | h <;> rw [h] at hv
    · simp only [engine, Table.ofList, List.foldl_cons, List.foldl_nil, Table.get?_insert] at hv
      split at hv
      · cases hv
        rfl
      · cases hv
    · cases hv

end Brittle

/-- The handler that is down gives nothing, and the attribute that is down gets out. -/
theorem invocation_raises_what_reading_raises_brittle :
    (Handler.invoke 0 "down" Brittle.state (Brittle.telling "n") .nothing Brittle.env Brittle.start).1 ≠
        .fault (Brittle.down "down") ∧
      (Handler.invoke 0 "h" Brittle.state (Brittle.telling "o.x") .nothing Brittle.env Brittle.start).1 =
        .fault (Brittle.down "x") := by
  have invoking (text : String) := invocation_raises_what_reading_raises (f := Brittle.down text)
    Brittle.orderly Brittle.housed rfl 0
  refine ⟨fun h => ?_, ?_⟩
  · obtain ⟨-, -, reads⟩ := ((invoking "down" "down").1 Brittle.state _ _ rfl).1.1 h
    have fine : Brittle.start.store.getPath Brittle.state (.text "n") = .ok (.int 1) := by rfl
    cases fine.symm.trans reads
  · exact ((invoking "x" "h").1 Brittle.state _ _ rfl).1.2 ⟨rfl, rfl, by rfl⟩

/-- An invocation that raises: the state holds an object one of whose attributes is down, and the path
leads there. The handler is not called. -/
theorem path_read_escapes_invocation :
    Scope.invokeHandler 0 "h" (.scope "a") .none (.text "o.x") Brittle.env Brittle.start =
      (.fault (Brittle.down "x"), Brittle.start) := by
  rfl

end ReactiveScopes
