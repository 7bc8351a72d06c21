import ReactiveScopes.Proofs.Manners
import ReactiveScopes.Proofs.Solo

/-!
# Writes that change nothing

Storing what is there already is not reported under a key of the record itself, but it is below one: along a path of
several segments every write that succeeds is reported. So watchers whose writes to keys of records change nothing
let a drain come to its end, and one that writes along such a path in every pass keeps it going for ever.
-/
namespace ReactiveScopes

open Eff History

variable {κ : Type} {e : Nat}

section Below

variable {host : Host κ} {v path : Value} {data r : Ref} {p q : String} {ps : List String} {hook : Hook}
  {t t' : Mapping} {w w' w₁ : Session κ}

/-- Along a path of several segments a write that has been made is reported, whatever it has changed. -/
theorem Record.setPath_reports {x : Outcome Unit × Session κ} (hp : w.store.segmentsOf path = p :: q :: ps)
    (written : Ends host (Path.write (.ref data) (p :: q :: ps) v) w (.value (), w₁))
    (reported : Ends host (report hook (.text p)) w₁ x) : Ends host (setPath data hook path v) w x := by
  refine .congr (fun env => ?_) (written.bind (k := fun _ => report hook (.text p)) reported)
  unfold setPath
  rw [bind_store, hp]

/-- Storing below a dictionary in the record what is there changes nothing. -/
theorem Path.write_self (outer : w.store.cell? data = some (.dict t)) (leads : t.get? (.text p) = some (.ref r))
    (inner : w.store.cell? r = some (.dict t')) (held : t'.get? (.text q) = some v) :
    Ends host (write (.ref data) [p, q] v) w (.value (), w) := by
  have container {r : Ref} {t : Mapping} (h : w.store.cell? r = some (.dict t)) :
      isContainer w.store (.ref r) = true := by
    simp [isContainer, Store.look, h]
  have child : w.store.child (.ref data) p = .ok (.ref r) := by
    simp [Store.child, Store.mapping?, Store.look, outer, Mapping.at?, leads]
  have below : below? w.store (.ref data) p = some (.ref r) := by
    simp [below?, container outer, child, container inner]
  have stored (env : Env κ) : assign (.ref r) q v env w = (.value (), w) := by
    unfold assign
    rw [bind_store, show w.store.look (.ref r) = some (.dict t') from inner]
    dsimp only
    rw [Table.insert_self held, Store.put_self inner]
    rfl
  refine .alone fun env => ?_
  unfold write
  rw [bind_store, below]
  exact stored env

end Below

/-- Under a policy that defers, at a moment of a run in which no pass has been forced, and none broken off of a scope
that is marked, a tick that is not part of another one comes to its end if what the watchers write to keys of records,
by updates and by expressions, is equal to what is there. It runs the callbacks that were queued when it began, in
their order, and none besides. But a write along a path of several segments that is made in a pass of its scope leaves
one more pass to it, whether or not it has changed anything. -/
theorem silent_writes_end_drain {w₀ w : Session κ} (fresh : w₀.Fresh e) (quiet : ¬ (w₀.engine e).scheduler.Loud)
    (moment : Session.Moment w₀ w) (once : w.setUps e = w₀.setUps e)
    (defer : (w₀.engine e).scheduler.policy = .defer) (unforced : ∀ key, .notified e key ∉ w.history e)
    (whole : ∀ key ∈ (w.engine e).scheduler.pending, ¬ BrokenOff e key (w.history e)) :
    (∀ M : Manners κ, M.engine = e → M.policy = .defer → M.Sound → M.Admits w → M.Queued w →
      (w.engine e).queue.draining = false →
      ∃ w', Ends M.host (perform (.engine e .tick)) w (.value (.int (w.engine e).queue.posted.length), w') ∧
        w'.begun e = (w.engine e).queue.posted.reverse ++ w.begun e ∧ (w'.engine e).queue.posted = []) ∧
    ∀ {host : Host κ} {s path v : Value} {data : Ref} {p q : String} {ps : List String} {w₁ w₂ : Session κ},
      w₁.store.segmentsOf path = p :: q :: ps →
      Ends host (Path.write (.ref data) (p :: q :: ps) v) w₁ (.value (), w₂) →
      s ∈ (w₂.engine e).scheduler.running → (w₂.engine e).scheduler.policy = .defer →
      ∃ w₃, Ends host (Record.setPath data (.schedule e s) path v) w₁ (.value (), w₃) ∧
        s ∈ (w₃.engine e).scheduler.deferred := by
  refine ⟨?_, fun {host s path v data p q ps w₁ w₂} hp written running policy => ?_⟩
  · rintro M rfl hp sound admits queued outside
    have nested := (moment.turns fresh quiet once).nested Marks.nested_none
    have ready : M.Ready w :=
      admits.ready fresh quiet moment once (defer.trans hp.symm) unforced fun key marked closed hd =>
        (nested.deferred_open key hd).elim closed (whole key marked)
    exact Manners.tick_ends sound ready queued outside
  · let w₃ := (w₂.logged (.requested e s)).deferring e s
    have reported : Ends host (Record.report (.schedule e s) (.text p)) w₂ (.value (), w₃) :=
      .alone (Scheduler.enqueue_defers (w := w₂.logged (.requested e s)) running policy)
    refine ⟨w₃, Record.setPath_reports hp written reported, ?_⟩
    simp [w₃, Session.deferring]

-- A client whose watcher stores under a key of the record what is there already.
namespace Repeat

def host : Host Unit := fun _ => { body := fun _ => Echo.write 1 }

def main : Act Unit Value := do
  let _ ← Act.ask (.engine 0 (.initScope Echo.scope .none))
  let _ ← Act.ask (.engine 0 (.watch Echo.scope (.fn (.client "watcher"))))
  Echo.write 1

/-- Where the scope has been written. -/
def written : Session Unit := (Session.run host 10 main (.opened .defer ())).2

def record : Value := ((written.engine 0).records.get? Echo.scope).getD .none

def data : Ref := ((written.store.record? record).map Prod.fst).getD ⟨0⟩

def manners : Manners Unit where
  host := host
  engine := 0
  policy := .defer
  keys s := s = Echo.scope
  fit _ f := f = .fn (.client "watcher")
  known w := w.Owns 0 Echo.scope record data ∧ (Record.fields w.store data).get? (.text "n") = some (.int 1)

theorem known_bides {w w' : Session Unit} (hw : manners.known w) (hb : w.Bides 0 w') : manners.known w' :=
  ⟨hw.1.bides hb, by rw [hw.1.fields_bides hb]; exact hw.2⟩

theorem behaves {w : Session Unit} (hw : manners.Steady w) : manners.Behaves Echo.scope (Echo.write 1) w := by
  let t : Mapping := Table.ofList [(.text "n", .int 1)]
  refine ⟨_, .make (t := t) (known_bides hw.known (w.bides_alloc 0 _)), fun w₁ ends₁ hw₁ _ => ?_⟩
  obtain ⟨own, held⟩ := hw₁.known
  obtain rfl : w₁ = { w with store := (w.store.alloc (.dict t)).2 } :=
    congrArg Prod.snd (ends₁.unique (Client.make_ends t).attempt_value)
  let w₁ : Session Unit := { w with store := (w.store.alloc (.dict t)).2 }
  have new : w₁.store.cell? (w.store.alloc (.dict t)).1 = some (.dict t) := Store.cell?_alloc_new
  have updates : w₁.store.mapping? (.ref (w.store.alloc (.dict t)).1) = some t := by
    simp [Store.mapping?, Store.look, new]
  have key : segments "n" = ["n"] := rfl
  -- the integer is stored over itself, and nobody is told
  have silent : Record.tells w₁.store data "n" (.int 1) = false := Record.tells_int held 1
  have stores : Ends host (Record.setItem data (.schedule 0 Echo.scope) (.text "n") (.int 1)) w₁
      (.value (), w₁.storing data "n" (.int 1)) := by
    refine .alone fun env => (Record.setItem_text _ env).trans ?_
    rw [silent]
    rfl
  have overwrites : w₁.Overwrites False 0 Echo.scope data (w₁.storing data "n" (.int 1)) := .storing w₁ _ _ _
  have merged := Scope.setState_single own new (k := .text "n") rfl key stores
    (overwrites.cells (hw.known.1.apart_alloc (.dict t)) new)
  have plain : Record.Plain (manners.policy = .skip ∧ Echo.scope = Echo.scope) data
      (.ref (w.store.alloc (.dict t)).1) t.keys w₁.store := by
    have entry : Record.entry w₁.store (.ref (w.store.alloc (.dict t)).1) (.text "n") = .int 1 := by
      rw [Record.entry, updates]
      rfl
    refine ⟨"n", key, fun told => ?_, trivial⟩
    change Record.tells w₁.store data "n" (Record.entry w₁.store _ (.text "n")) = true at told
    rw [entry, silent] at told
    cases told
  exact ⟨_, .merge own updates plain merged.attempt_value ⟨overwrites.owns own own, Record.get?_stored own.fields⟩,
    fun _ _ _ _ => trivial⟩

theorem sound : manners.Sound where
  lasting := known_bides
  obeys := by
    rintro _ _ w rfl rfl hw _
    exact .program rfl (behaves hw)

theorem known : manners.known written := by
  have fields : written.store.mapping? (.ref data) = some (Table.ofList [(.text "n", .int 1)]) := by decide +kernel
  have plain : written.store.record? (.ref data) = none := by decide +kernel
  have held : (Record.fields written.store data).get? (.text "n") = some (.int 1) := by decide +kernel
  exact ⟨⟨rfl, by decide +kernel, by decide +kernel, _, Store.cell?_of_mapping? fields plain⟩, held⟩

theorem admits {w : Session Unit} (pending : (w.engine 0).scheduler.pending = [Echo.scope])
    (watchers : (w.engine 0).scheduler.watchersOf Echo.scope = [.fn (.client "watcher")])
    (known : manners.known w) : manners.Admits w where
  watchers := by
    rintro _ f rfl hf
    exact List.mem_singleton.1 (watchers ▸ hf)
  marked _ hk := List.mem_singleton.1 (pending ▸ hk)
  known := known

theorem queued {w : Session Unit} (h : (w.engine 0).queue.posted.all (w.runsPass 0 Echo.scope) = true) :
    manners.Queued w :=
  fun f hf => ⟨_, List.all_eq_true.1 h f hf⟩

end Repeat

theorem silent_writes_end_drain_repeat :
    ∃ w', Ends Repeat.host (perform (.engine 0 .tick)) Repeat.written (.value (.int 1), w') ∧
      (w'.engine 0).queue.posted = [] := by
  have moment : Session.Moment (.opened .defer ()) Repeat.written :=
    .plain Repeat.host 10 Repeat.main Prod.mk.eta.symm (by decide +kernel)
  have unforced (key : Value) : .notified 0 key ∉ Repeat.written.history 0 :=
    not_mem_of_any (p := Event.forces) (by decide +kernel) rfl
  have whole (key : Value) : ¬ BrokenOff 0 key (Repeat.written.history 0) := by
    rintro ⟨f, hf, _⟩
    exact not_mem_of_any (p := Event.breaksOff) (by decide +kernel) rfl hf
  obtain ⟨ends, _⟩ := silent_writes_end_drain (Session.opened_fresh .defer ()) (Session.opened_quiet .defer ())
    moment (by decide +kernel) rfl unforced fun key _ => whole key
  obtain ⟨w', ticked, _, empty⟩ := ends Repeat.manners rfl rfl Repeat.sound
    (Repeat.admits (by decide +kernel) (by decide +kernel) Repeat.known) (Repeat.queued (by decide +kernel))
    (by decide +kernel)
  have one : (Repeat.written.engine 0).queue.posted.length = 1 := by decide +kernel
  rw [one] at ticked
  exact ⟨w', ticked, empty⟩

-- A client whose watcher stores below a key of the record what is there already.
namespace Refrain

def program : Act Unit Value := do
  let updates ← Act.ask (.make (.dict (Table.ofList [(.text "user.name", .text "x")])))
  Act.ask (.engine 0 (.setState Echo.scope updates))

def host : Host Unit := fun _ => { body := fun _ => program }

def main : Act Unit Value := do
  let user ← Act.ask (.make (.dict (Table.ofList [(.text "name", .text "x")])))
  let initial ← Act.ask (.make (.dict (Table.ofList [(.text "user", user)])))
  let _ ← Act.ask (.engine 0 (.initScope Echo.scope initial))
  let _ ← Act.ask (.engine 0 (.watch Echo.scope (.fn (.client "watcher"))))
  Echo.write 1

/-- Where another key of the scope has been written. -/
@[irreducible]
def written : Session Unit := (Session.run host 10 main (.opened .defer ())).2

/-- After a pass. -/
def passed : Session Unit := (Session.run host 10 (.ask (.engine 0 (.flush Echo.scope))) written).2

def record : Value := ((written.engine 0).records.get? Echo.scope).getD .none

def data : Ref := ((written.store.record? record).map Prod.fst).getD ⟨0⟩

def user : Ref :=
  match (Record.fields written.store data).get? (.text "user") with
  | some (.ref r) => r
  | _ => ⟨0⟩

def callback : Value := (written.engine 0).queue.posted.headD .none

def solo : Solo Unit where
  host := host
  engine := 0
  scope := Echo.scope
  record := record
  data := data
  watcher := "watcher"
  program := program
  code := rfl

/-- The state has a user of that name. -/
def Named (w : Session Unit) : Prop :=
  ∃ r t t', w.store.cell? data = some (.dict t) ∧ t.get? (.text "user") = some (.ref r) ∧
    w.store.cell? r = some (.dict t') ∧ t'.get? (.text "name") = some (.text "x")

theorem Named.bides {w w' : Session Unit} (h : Named w) (hb : w.Bides 0 w') : Named w' := by
  obtain ⟨r, t, t', outer, leads, inner, held⟩ := h
  exact ⟨r, t, t', hb.cells outer, leads, hb.cells inner, held⟩

/-- The watcher changes nothing and asks for one more pass. -/
theorem asks {w : Session Unit} (named : Named w) (h : solo.Stands w [] [] True False) :
    ∃ v w', Ends host program.run w (.value v, w') ∧ solo.Stands w' [] [] True True ∧ Named w' := by
  let t : Mapping := Table.ofList [(.text "user.name", .text "x")]
  let w₁ : Session Unit := { w with store := (w.store.alloc (.dict t)).2 }
  let w' := (w₁.logged (.requested 0 Echo.scope)).deferring 0 Echo.scope
  have bides : w.Bides 0 w₁ := w.bides_alloc 0 (.dict t)
  have bides' : w₁.Bides 0 w' := (w₁.bides_logged 0 _).trans (Session.bides_reschedule _ 0 _)
  have h₁ : solo.Stands w₁ [] [] True False := h.move bides rfl rfl rfl h.pending h.posted h.running h.deferred
  have new {z : Session Unit} (hb : w₁.Bides 0 z) :
      z.store.mapping? (.ref (w.store.alloc (.dict t)).1) = some t := by
    have cell : z.store.cell? (w.store.alloc (.dict t)).1 = some (.dict t) := hb.cells Store.cell?_alloc_new
    simp [Store.mapping?, Store.look, cell]
  have size {z : Session Unit} (hb : w₁.Bides 0 z) :
      ((z.store.mapping? (.ref (w.store.alloc (.dict t)).1)).getD .empty).size = t.size := by
    rw [new hb, Option.getD_some]
  have entry : Record.entry w₁.store (.ref (w.store.alloc (.dict t)).1) (.text "user.name") = .text "x" := by
    rw [Record.entry, new (.refl w₁ 0)]
    rfl
  have path : segments "user.name" = ["user", "name"] := rfl
  obtain ⟨r, t', t'', outer, leads, inner, held⟩ := named.bides bides
  have stores : Ends host (Record.setPath data (.schedule 0 Echo.scope) (.text "user.name")
      (Record.entry w₁.store (.ref (w.store.alloc (.dict t)).1) (.text "user.name"))) w₁ (.value (), w') := by
    rw [entry]
    exact Record.setPath_reports path (Path.write_self outer leads inner held) (.alone h₁.asks_again)
  have merged := Scope.setState_each h₁.own (new (.refl w₁ 0)) (x := .ok ())
    (Scope.setEach_next (size (.refl w₁ 0)) stores (Scope.setEach_done (size bides')).attempt_value)
  refine ⟨.none, w', .ask (Client.make_ends t) (merged.bind (.pure Value.none w')), ?_,
    (named.bides bides).bides bides'⟩
  exact (h₁.logged (.requested 0 Echo.scope)).deferring

/-- The pass of the scope is due, and the state has such a user. -/
theorem poised : solo.Due written callback ∧ Named written := by
  have fields : written.store.mapping? (.ref data) =
      some (Table.ofList [(.text "user", .ref user), (.text "n", .int 1)]) := by decide +kernel
  have fields' : written.store.mapping? (.ref user) = some (Table.ofList [(.text "name", .text "x")]) := by
    decide +kernel
  have outer := Store.cell?_of_mapping? fields (by decide +kernel)
  have inner := Store.cell?_of_mapping? fields' (by decide +kernel)
  have calm : ¬ (written.engine 0).scheduler.Loud := by
    rintro ⟨debug, _⟩
    exact absurd debug (by decide +kernel)
  have due : solo.Due written callback :=
    { own := ⟨rfl, by decide +kernel, by decide +kernel, _, outer⟩
      watchers := by decide +kernel
      policy := by decide +kernel
      calm := calm
      sink := by decide +kernel
      loop := Option.isNone_iff_eq_none.1 (by decide +kernel)
      pending := by decide +kernel
      posted := by decide +kernel
      running := iff_false_intro (by decide +kernel)
      deferred := iff_false_intro (by decide +kernel)
      runs := by decide +kernel }
  exact ⟨due, user, _, _, outer, rfl, inner, rfl⟩

end Refrain

/-- A pass of such a watcher leaves the state as it was, and yet one more is pending; and so a tick comes to no end. -/
theorem dotted_rewrites_drain_forever :
    Refrain.passed.store.mapping? Refrain.record = Refrain.written.store.mapping? Refrain.record ∧
      Refrain.passed.store.mapping? (.ref Refrain.user) = Refrain.written.store.mapping? (.ref Refrain.user) ∧
      (Refrain.passed.engine 0).scheduler.pending = [Echo.scope] ∧
      ∀ v w', ¬ Ends Refrain.host (perform (.engine 0 .tick)) Refrain.written (.value v, w') := by
  refine ⟨by decide +kernel, by decide +kernel, by decide +kernel, fun v w' => ?_⟩
  obtain ⟨due, named⟩ := Refrain.poised
  exact due.endless (Q := Refrain.Named) (by decide +kernel) (fun named bides _ => named.bides bides) Refrain.asks
    named v w'

end ReactiveScopes
