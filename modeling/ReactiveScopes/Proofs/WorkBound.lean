import ReactiveScopes.Proofs.Manners

/-!
# Work is bounded by the writes at rest

Under a policy that ignores what is written while a pass runs, a pass goes back to a write that was reported
while none of its scope was in progress, and no two go back to the same. Watchers that write to the scope whose
pass they are called in, and to no other, therefore call for no work at all: a drain runs what is queued when it
begins and nothing more.
-/
namespace ReactiveScopes

open History

variable {κ : Type} {e : Nat} {key : Value} {m m₀ m' : Marks} {ev : Event} {h : List Event}

namespace History

/-- How many writes to `key` were reported while no pass of it was in progress. -/
def restWrites (key : Value) : List Event → Nat
  | [] => 0
  | .requested _ k :: h => restWrites key h + if k = key ∧ key ∉ openPasses h then 1 else 0
  | _ :: h => restWrites key h

theorem restWrites_le (key : Value) (ev : Event) (h : List Event) :
    restWrites key h ≤ restWrites key (ev :: h) := by
  cases ev with
  | requested => exact Nat.le_add_right _ _
  | _ => exact Nat.le_refl _

theorem restWrites_suffix {h' : List Event} (hs : h <:+ h') : restWrites key h ≤ restWrites key h' := by
  obtain ⟨new, rfl⟩ := hs
  induction new with
  | nil => exact Nat.le_refl _
  | cons ev new ih => exact ih.trans (restWrites_le key ev _)

end History

namespace Marks

/-- Each pass, and the mark for the next one, goes back to a write at rest of its own. -/
def Earned (m : Marks) (key : Value) : Prop :=
  m.history.countP (Event.startsPass key) + (if key ∈ m.pending then 1 else 0) ≤ restWrites key m.history

/-- Nothing that begins a pass or puts on a mark. -/
theorem Earned.mono (hm : m.Earned key) (hs : m.history <:+ m'.history)
    (hc : m'.history.countP (Event.startsPass key) = m.history.countP (Event.startsPass key))
    (hp : key ∈ m'.pending → key ∈ m.pending) : m'.Earned key := by
  have hr : restWrites key m.history ≤ restWrites key m'.history := restWrites_suffix hs
  unfold Earned at hm ⊢
  by_cases hp' : key ∈ m'.pending
  · rw [if_pos (hp hp')] at hm
    rw [hc, if_pos hp']
    omega
  · rw [hc, if_neg hp']
    omega

/-- A pass of another key. -/
theorem Earned.enter_of_ne (hm : m.Earned key) {k : Value} (hk : k ≠ key) (fs : List Value) :
    (m.enter e k fs).Earned key := by
  have other (fs : List Value) : Event.startsPass key (.passBegan e k fs) = false := by
    simpa [Event.startsPass] using hk
  cases fs with
  | nil =>
    refine hm.mono ((List.suffix_cons _ _).trans (List.suffix_cons _ _)) ?_ id
    simp only [enter, note]
    rw [List.countP_cons_of_neg (by simp [Event.startsPass]), List.countP_cons_of_neg (by simp [other])]
  | cons f fs => exact hm.mono (List.suffix_cons _ _) (List.countP_cons_of_neg (by simp [other])) id

/-- The pass takes the place of the mark. -/
theorem Earned.spend (hm : m.Earned key) (hp : key ∈ m.pending) (hs : m.history <:+ m'.history)
    (hc : m'.history.countP (Event.startsPass key) = m.history.countP (Event.startsPass key) + 1)
    (hp' : key ∉ m'.pending) : m'.Earned key := by
  have hr : restWrites key m.history ≤ restWrites key m'.history := restWrites_suffix hs
  unfold Earned at hm ⊢
  rw [if_pos hp] at hm
  rw [hc, if_neg hp']
  omega

theorem Earned.enter_self (hm : m.Earned key) (hp : key ∈ m.pending) (fs : List Value) :
    ((m.unmark key).enter e key fs).Earned key := by
  have gone : key ∉ eraseKey key m.pending := fun h => (mem_eraseKey.1 h).2 rfl
  have began (fs : List Value) : (.passBegan e key fs :: m.history).countP (Event.startsPass key) =
      m.history.countP (Event.startsPass key) + 1 :=
    List.countP_cons_of_pos (by simp [Event.startsPass])
  cases fs with
  | nil =>
    refine hm.spend hp ((List.suffix_cons _ _).trans (List.suffix_cons _ _)) ?_ gone
    exact (List.countP_cons_of_neg (by simp [Event.startsPass])).trans (began [])
  | cons f fs => exact hm.spend hp (List.suffix_cons _ _) (began (f :: fs)) gone

/-- A write puts on a mark only at rest. -/
theorem Earned.request (hm : m.Earned key) (single : m.Single key) (k : Value) :
    ((m.note (.requested e k)).enqueue k).Earned key := by
  have hc : (Event.requested e k :: m.history).countP (Event.startsPass key) =
      m.history.countP (Event.startsPass key) := List.countP_cons_of_neg (by simp [Event.startsPass])
  by_cases new : k = key ∧ key ∉ m.running
  · obtain ⟨rfl, hr⟩ := new
    have rest : restWrites k (.requested e k :: m.history) = restWrites k m.history + 1 := by
      rw [restWrites, if_pos ⟨rfl, fun ho => hr (single.open_running ho)⟩]
    unfold Earned at hm ⊢
    rw [enqueue_history, note, hc, rest]
    split <;> omega
  · refine hm.mono ?_ ?_ ?_
    · rw [enqueue_history]
      exact List.suffix_cons _ _
    · rw [enqueue_history]
      exact hc
    · rw [mem_enqueue_pending]
      rintro (hp | ⟨rfl, hr⟩)
      · exact hp
      · exact absurd ⟨rfl, hr⟩ new

theorem Earned.turn (h : Turn e m m') (skip : m.policy = .skip) (hn : .notified e key ∉ m.history)
    (nested : m.Nested e) (single : m.Single key) (hm : m.Earned key) : m'.Earned key := by
  cases h with
  | aside ev ha =>
    refine hm.mono (List.suffix_cons _ _) (List.countP_cons_of_neg ?_) id
    cases ev with
    | passBegan => exact ha.elim
    | _ => simp [Event.startsPass]
  | request k => exact hm.request single k
  | drop k =>
    exact hm.mono (List.suffix_cons _ _) (List.countP_cons_of_neg (by simp [Event.startsPass]))
      fun hp => (mem_eraseKey.1 hp).1
  | flush k fs hp =>
    by_cases hk : k = key
    · subst hk
      exact hm.enter_self hp fs
    · have hu : (m.unmark k).Earned key := hm.mono (List.suffix_refl _) rfl fun hp => (mem_eraseKey.1 hp).1
      exact hu.enter_of_ne hk fs
  | force k fs hf =>
    refine hm.enter_of_ne ?_ fs
    rintro rfl
    exact hn hf
  | finish k ks ho =>
    have undeferred : k ∉ m.deferred := fun hd => by
      have := nested.deferred_policy k hd
      simp [skip] at this
    refine hm.mono ?_ ?_ ?_
    · rw [finish_history]
      exact List.suffix_cons _ _
    · rw [finish_history]
      exact List.countP_cons_of_neg (by simp [Event.startsPass])
    · rw [mem_finish_pending]
      rintro (hp | ⟨_, hd⟩)
      · exact hp
      · exact absurd hd undeferred
  | breakOff k ks f ho hf =>
    exact hm.mono (List.suffix_cons _ _) (List.countP_cons_of_neg (by simp [Event.startsPass])) id

end Marks

theorem Turns.earned (h : Turns e m₀ m) (skip : m₀.policy = .skip) (hn : .notified e key ∉ m.history)
    (nested : m₀.Nested e) (single : m₀.Single key) (hm : m₀.Earned key) : m.Earned key := by
  let P (u : Marks) : Prop := u.Nested e ∧ u.Single key ∧ u.Earned key
  have hp : P m := by
    refine h.invariant ⟨nested, single, hm⟩ fun u v hv policy huv hu => ?_
    have unforced : .notified e key ∉ u.history := fun hu => hn ((huv.suffix.trans hv).mem hu)
    obtain ⟨nested, single, earned⟩ := hu
    exact ⟨nested.turn huv, single.turn huv unforced,
      earned.turn huv (policy.trans skip) unforced nested single⟩
  exact hp.2.2

/-- Under a policy that ignores what is written meanwhile, no more passes of a scope begin than writes to it have
been reported while none of it was in progress. So a tick that is not part of another one comes to its end if the
watchers write to no scope but the one whose pass they are called in: it runs the callbacks that were queued when it
began, in their order, and none besides. -/
theorem skip_bounds_work {w₀ w : Session κ} (fresh : w₀.Fresh e) (quiet : ¬ (w₀.engine e).scheduler.Loud)
    (moment : Session.Moment w₀ w) (once : w.setUps e = w₀.setUps e)
    (skip : (w₀.engine e).scheduler.policy = .skip) (unforced : ∀ key, .notified e key ∉ w.history e) :
    (∀ key, (w.history e).countP (Event.startsPass key) ≤ restWrites key (w.history e)) ∧
    ∀ M : Manners κ, M.engine = e → M.policy = .skip → M.Sound → M.Admits w → M.Queued w →
      (w.engine e).queue.draining = false →
      ∃ w', Ends M.host (perform (.engine e .tick)) w
          (.value (.int (w.engine e).queue.posted.length), w') ∧
        w'.begun e = (w.engine e).queue.posted.reverse ++ w.begun e ∧ (w'.engine e).queue.posted = [] := by
  have turns := moment.turns fresh quiet once
  have nested : (w.marks e).Nested e := turns.nested Marks.nested_none
  have single (key : Value) : (w.marks e).Single key := turns.single (unforced key) Marks.single_none
  refine ⟨fun key => ?_, ?_⟩
  · have none : Marks.Earned { policy := (w₀.engine e).scheduler.policy } key := by
      simp [Marks.Earned]
    have earned := turns.earned skip (unforced key) Marks.nested_none Marks.single_none none
    exact le_trans (Nat.le_add_right _ _) earned
  · rintro M rfl hp sound admits queued outside
    obtain ⟨ps, steps⟩ := moment.steps M.engine
    have policy : (w.marks M.engine).policy = .skip := (congrArg Prod.fst (steps.settings once)).trans skip
    have ready : M.Ready w := by
      refine admits.ready fresh quiet moment once (skip.trans hp.symm) unforced fun k _ _ hd => ?_
      have := nested.deferred_policy k hd
      simp [policy] at this
    exact Manners.tick_ends sound ready queued outside

-- Two scopes with a watcher each, which writes to its own scope, flushes the other one and ticks.
namespace Mirror

def other (name : String) : String := if name = "a" then "b" else "a"

def write (name key : String) : Act Unit Value := do
  let updates ← Act.ask (.make (.dict (Table.ofList [(.text key, .int 1)])))
  Act.ask (.engine 0 (.setState (.text name) updates))

def host : Host Unit := fun name =>
  { body := fun _ => do
      let _ ← write name "m"
      let _ ← Act.ask (.engine 0 (.flush (.text (other name))))
      Act.ask (.engine 0 .tick) }

def main : Act Unit Value := do
  let _ ← Act.ask (.engine 0 (.initScope (.text "a") .none))
  let _ ← Act.ask (.engine 0 (.initScope (.text "b") .none))
  let _ ← Act.ask (.engine 0 (.watch (.text "a") (.fn (.client "a"))))
  let _ ← Act.ask (.engine 0 (.watch (.text "b") (.fn (.client "b"))))
  let _ ← write "a" "n"
  write "b" "n"

/-- Where both scopes have been written. -/
def written : Session Unit := (Session.run host 20 main (.opened .skip ())).2

def owned (w : Session Unit) (name : String) : Prop := ∃ record data, w.Owns 0 (.text name) record data

def manners : Manners Unit where
  host := host
  engine := 0
  policy := .skip
  keys s := ∃ name, (name = "a" ∨ name = "b") ∧ s = .text name
  fit s f := ∃ name, s = .text name ∧ f = .fn (.client name)
  known w := owned w "a" ∧ owned w "b"

theorem known_bides {w w' : Session Unit} (hw : manners.known w) (hb : w.Bides 0 w') : manners.known w' := by
  obtain ⟨⟨_, _, ha⟩, ⟨_, _, hb'⟩⟩ := hw
  exact ⟨⟨_, _, ha.bides hb⟩, ⟨_, _, hb'.bides hb⟩⟩

theorem known_overwrites {w w' : Session Unit} {s record : Value} {data : Ref} {loud : Prop}
    (hw : manners.known w) (own : w.Owns 0 s record data) (overwrites : w.Overwrites loud 0 s data w') :
    manners.known w' := by
  obtain ⟨⟨_, _, ha⟩, ⟨_, _, hb⟩⟩ := hw
  exact ⟨⟨_, _, overwrites.owns own ha⟩, ⟨_, _, overwrites.owns own hb⟩⟩

theorem owned_of_known {w : Session Unit} (hw : manners.known w) {name : String} (h : name = "a" ∨ name = "b") :
    owned w name := by
  rcases h with rfl | rfl
  · exact hw.1
  · exact hw.2

theorem other_named {name : String} (h : name = "a" ∨ name = "b") : other name = "a" ∨ other name = "b" := by
  rcases h with rfl | rfl
  · exact Or.inr rfl
  · exact Or.inl rfl

theorem behaves {w : Session Unit} {name : String} (h : name = "a" ∨ name = "b") (hw : manners.Steady w) :
    manners.Behaves (.text name) ((host name).body []) w := by
  let t : Mapping := Table.ofList [(.text "m", .int 1)]
  refine ⟨_, .make (t := t) (known_bides hw.known (w.bides_alloc 0 _)), fun w₁ ends₁ hw₁ running₁ => ?_⟩
  obtain rfl : w₁ = { w with store := (w.store.alloc (.dict t)).2 } :=
    congrArg Prod.snd (ends₁.unique (Client.make_ends t).attempt_value)
  obtain ⟨record, data, own⟩ := owned_of_known hw₁.known h
  have updates : Store.mapping? (w.store.alloc (.dict t)).2 (.ref (w.store.alloc (.dict t)).1) = some t := by
    simp [Store.mapping?, Store.look, Store.cell?_alloc_new]
  have key : segments "m" = ["m"] := rfl
  obtain ⟨r, sets, misuse⟩ := Manners.Allows.setState hw₁ running₁ own updates
    ⟨"m", key, fun _ => ⟨rfl, rfl⟩, trivial⟩ fun _ _ _ overwrites => known_overwrites hw₁.known own overwrites
  refine ⟨r, sets, fun w₂ _ hw₂ _ => ?_⟩
  cases r with
  | error f =>
    cases misuse f rfl
    rfl
  | ok _ =>
    obtain ⟨record', data', own'⟩ := owned_of_known hw₂.known (other_named h)
    exact ⟨_, .flush (Scope.find_ends own') (.of_board rfl hw₂.known), fun w₃ _ _ _ =>
      ⟨_, .tick w₃, fun _ _ _ _ => trivial⟩⟩

theorem sound : manners.Sound where
  lasting := known_bides
  obeys := by
    rintro _ _ w ⟨name, rfl, rfl⟩ ⟨_, h, he⟩ hw _
    cases he
    exact .program rfl (behaves h hw)

def recordOf (name : String) : Value := ((written.engine 0).records.get? (.text name)).getD .none

def dataOf (name : String) : Ref := ((written.store.record? (recordOf name)).map Prod.fst).getD ⟨0⟩

theorem owns {name : String} (h : name = "a" ∨ name = "b") : owned written name := by
  have fields : written.store.mapping? (.ref (dataOf name)) = some (Table.ofList [(.text "n", .int 1)]) := by
    rcases h with rfl | rfl <;> decide +kernel
  have plain : written.store.record? (.ref (dataOf name)) = none := by
    rcases h with rfl | rfl <;> decide +kernel
  refine ⟨recordOf name, dataOf name, rfl, ?_, ?_, _, Store.cell?_of_mapping? fields plain⟩
  · rcases h with rfl | rfl <;> decide +kernel
  · rcases h with rfl | rfl <;> decide +kernel

theorem admits {w : Session Unit} (pending : (w.engine 0).scheduler.pending = [.text "a", .text "b"])
    (watchers : ∀ name, name = "a" ∨ name = "b" →
      (w.engine 0).scheduler.watchersOf (.text name) = [.fn (.client name)])
    (known : manners.known w) : manners.Admits w where
  watchers := by
    rintro _ f ⟨name, h, rfl⟩ hf
    exact ⟨name, rfl, List.mem_singleton.1 (watchers name h ▸ hf)⟩
  marked := by
    intro k hk
    have hk : k ∈ [Value.text "a", .text "b"] := pending ▸ hk
    simp only [List.mem_cons, List.not_mem_nil, or_false] at hk
    rcases hk with rfl | rfl
    · exact ⟨"a", Or.inl rfl, rfl⟩
    · exact ⟨"b", Or.inr rfl, rfl⟩
  known := known

theorem queued {w : Session Unit} (h : (w.engine 0).queue.posted.all (fun f =>
    w.runsPass 0 (.text "a") f || w.runsPass 0 (.text "b") f) = true) : manners.Queued w := by
  intro f hf
  rcases Bool.or_eq_true_iff.1 (List.all_eq_true.1 h f hf) with h | h
  · exact ⟨_, h⟩
  · exact ⟨_, h⟩

theorem admits_written : manners.Admits written := by
  refine admits (by decide +kernel) (fun name h => ?_) ⟨owns (Or.inl rfl), owns (Or.inr rfl)⟩
  rcases h with rfl | rfl <;> decide +kernel

end Mirror

theorem skip_bounds_work_mirror :
    (∀ key, (Mirror.written.history 0).countP (Event.startsPass key) ≤ restWrites key (Mirror.written.history 0)) ∧
      ∃ w', Ends Mirror.host (perform (.engine 0 .tick)) Mirror.written (.value (.int 2), w') ∧
        (w'.engine 0).queue.posted = [] := by
  have moment : Session.Moment (.opened .skip ()) Mirror.written :=
    .plain Mirror.host 20 Mirror.main Prod.mk.eta.symm (by decide +kernel)
  have unforced (key : Value) : .notified 0 key ∉ Mirror.written.history 0 :=
    not_mem_of_any (p := Event.forces) (by decide +kernel) rfl
  obtain ⟨bounded, ends⟩ := skip_bounds_work (Session.opened_fresh .skip ()) (Session.opened_quiet .skip ())
    moment (by decide +kernel) rfl unforced
  obtain ⟨w', tick, _, empty⟩ :=
    ends Mirror.manners rfl rfl Mirror.sound Mirror.admits_written
      (Mirror.queued (by decide +kernel)) (by decide +kernel)
  have two : (Mirror.written.engine 0).queue.posted.length = 2 := by decide +kernel
  rw [two] at tick
  exact ⟨bounded, w', tick, empty⟩

end ReactiveScopes
