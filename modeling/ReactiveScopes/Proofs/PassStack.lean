import Mathlib.Data.List.Nodup
import Mathlib.Data.List.Perm.Subperm
import ReactiveScopes.Proofs.Marks

/-!
# Passes never recurse

A key that client code never has notified directly gets its passes from its pending mark alone. The
mark is taken off when the pass begins and is not put on while it runs, so the passes in progress never
hold the key twice, and the running keys, though a set, are just those of the passes in progress.
-/
namespace ReactiveScopes

open History

variable {κ : Type} {e : Nat} {key : Value} {m m' : Marks}

theorem History.began_of_open {h : List Event} (ho : key ∈ openPasses h) :
    ∃ x fs, .passBegan x key fs ∈ h := by
  induction h with
  | nil => cases ho
  | cons ev h ih =>
    have older : key ∈ openPasses h → ∃ x fs, .passBegan x key fs ∈ ev :: h := by
      intro ho
      obtain ⟨x, fs, hb⟩ := ih ho
      exact ⟨x, fs, List.mem_cons_of_mem ev hb⟩
    cases ev with
    | passBegan x k fs =>
      rcases List.mem_cons.1 ho with rfl | ho
      · exact ⟨x, fs, List.mem_cons_self⟩
      · exact older ho
    | passEnded x k fault => exact older (List.mem_of_mem_erase ho)
    | _ => exact older ho

namespace Marks

/-- Only keys of passes in progress are running; and deferred, unless a pass was broken off. -/
structure Nested (m : Marks) (e : Nat) : Prop where
  running_open : ∀ k ∈ m.running, k ∈ openPasses m.history
  deferred_open : ∀ k ∈ m.deferred, k ∈ openPasses m.history ∨ BrokenOff e k m.history
  deferred_policy : ∀ k ∈ m.deferred, m.policy = .defer

/-- A key is in at most one pass at a time, and then running and not pending. -/
structure Single (m : Marks) (key : Value) : Prop where
  count : ∀ h, h <:+ m.history → (openPasses h).count key ≤ 1
  pending_closed : key ∈ m.pending → key ∉ openPasses m.history
  open_running : key ∈ openPasses m.history → key ∈ m.running

theorem Nested.enter (hm : m.Nested e) (key : Value) (fs : List Value) :
    (m.enter e key fs).Nested e := by
  obtain ⟨hr, hd, hpol⟩ := hm
  cases fs with
  | nil =>
    have ho : openPasses (m.enter e key []).history = openPasses m.history :=
      List.erase_cons_head key _
    refine ⟨fun k hk => ?_, fun k hk => ?_, hpol⟩ <;> rw [ho]
    · exact hr k hk
    · exact (hd k hk).imp_right fun hb => hb.cons.cons
  | cons f fs =>
    refine ⟨fun k hk => ?_, fun k hk => ?_, hpol⟩
    · rcases mem_insertKey.1 hk with rfl | hk
      · exact List.mem_cons_self
      · exact List.mem_cons_of_mem _ (hr k hk)
    · exact (hd k hk).imp (List.mem_cons_of_mem _) BrokenOff.cons

section Ended

variable {ks : List Value}

theorem Nested.running_ended (hm : m.Nested e) (ho : openPasses m.history = key :: ks)
    (fault : Option Fault) :
    ∀ k ∈ eraseKey key m.running, k ∈ openPasses (.passEnded e key fault :: m.history) := by
  intro k hk
  obtain ⟨hk, hne⟩ := mem_eraseKey.1 hk
  have hopen := hm.running_open k hk
  rw [ho] at hopen
  rw [openPasses_passEnded ho]
  exact List.mem_of_ne_of_mem hne hopen

theorem Nested.deferred_ended (hm : m.Nested e) (ho : openPasses m.history = key :: ks)
    (fault : Option Fault) {k : Value} (hk : k ∈ m.deferred) (hne : k ≠ key) :
    k ∈ openPasses (.passEnded e key fault :: m.history) ∨
      BrokenOff e k (.passEnded e key fault :: m.history) := by
  rcases hm.deferred_open k hk with hopen | hb
  · rw [ho] at hopen
    rw [openPasses_passEnded ho]
    exact Or.inl (List.mem_of_ne_of_mem hne hopen)
  · exact Or.inr hb.cons

end Ended

theorem Nested.turn (h : Turn e m m') (hm : m.Nested e) : m'.Nested e := by
  cases h with
  | aside ev ha =>
    refine ⟨?_, ?_, hm.deferred_policy⟩ <;> simp only [note, openPasses_aside ha]
    · exact hm.running_open
    · exact fun k hk => (hm.deferred_open k hk).imp_right BrokenOff.cons
  | request key =>
    refine ⟨fun k hk => ?_, fun k hk => ?_, fun k hk => ?_⟩
    · simp only [enqueue_running, enqueue_history, note] at hk ⊢
      exact hm.running_open k hk
    · simp only [mem_enqueue_deferred, enqueue_history, note] at hk ⊢
      rcases hk with hk | ⟨rfl, hr, _⟩
      · exact (hm.deferred_open k hk).imp_right BrokenOff.cons
      · exact Or.inl (hm.running_open k hr)
    · simp only [mem_enqueue_deferred, enqueue_policy, note] at hk ⊢
      exact hk.elim (hm.deferred_policy k) fun h => h.2.2
  | drop key =>
    refine ⟨hm.running_open, fun k hk => ?_, fun k hk => hm.deferred_policy k (mem_eraseKey.1 hk).1⟩
    exact (hm.deferred_open k (mem_eraseKey.1 hk).1).imp_right BrokenOff.cons
  | flush key fs hp =>
    have hu : (m.unmark key).Nested e := ⟨hm.running_open, hm.deferred_open, hm.deferred_policy⟩
    exact hu.enter key fs
  | force key fs hn => exact hm.enter key fs
  | finish key ks ho =>
    refine ⟨fun k hk => ?_, fun k hk => ?_, fun k hk => ?_⟩
    · rw [finish_running] at hk
      rw [finish_history]
      exact hm.running_ended ho none k hk
    · obtain ⟨hk, hne⟩ := (mem_finish_deferred _ _ _).1 hk
      rw [finish_history]
      exact hm.deferred_ended ho none hk hne
    · rw [finish_policy]
      exact hm.deferred_policy k ((mem_finish_deferred _ _ _).1 hk).1
  | breakOff key ks f ho hf =>
    refine ⟨hm.running_ended ho (some f), fun k hk => ?_, hm.deferred_policy⟩
    by_cases hne : k = key
    · subst hne
      exact Or.inr ⟨f, List.mem_cons_self, hf⟩
    · exact hm.deferred_ended ho (some f) hk hne

/-- Whatever marks a key bears and passes it has come from writes to it. -/
def Asked (m : Marks) (e : Nat) (key : Value) : Prop :=
  (key ∈ m.pending ∨ key ∈ m.deferred ∨ ∃ x fs, .passBegan x key fs ∈ m.history) →
    .requested e key ∈ m.history

/-- The count is kept by an event after which the key is in at most one pass. -/
theorem Single.count_cons (hm : m.Single key) {ev : Event}
    (h : (openPasses (ev :: m.history)).count key ≤ 1) :
    ∀ h, h <:+ ev :: m.history → (openPasses h).count key ≤ 1 := by
  intro h' hs
  rcases List.suffix_cons_iff.1 hs with rfl | hs
  · exact h
  · exact hm.count h' hs

/-- A pass of another key. -/
theorem Single.enter_of_ne (hm : m.Single key) {k : Value} (hk : k ≠ key) (fs : List Value) :
    (m.enter e k fs).Single key := by
  have hb : ∀ h, h <:+ .passBegan e k fs :: m.history → (openPasses h).count key ≤ 1 := by
    refine hm.count_cons ?_
    simp only [openPasses, List.count_cons_of_ne hk]
    exact hm.count _ (List.suffix_refl _)
  cases fs with
  | nil =>
    have ho : openPasses (m.enter e k []).history = openPasses m.history := List.erase_cons_head k _
    refine ⟨fun h hs => ?_, ?_, ?_⟩
    · rcases List.suffix_cons_iff.1 hs with rfl | hs
      · exact ho ▸ hm.count _ (List.suffix_refl _)
      · exact hb h hs
    · exact fun hp => ho ▸ hm.pending_closed hp
    · exact fun h => hm.open_running (ho ▸ h)
  | cons f fs =>
    refine ⟨hb, fun hp ho => ?_, fun ho => ?_⟩
    · exact hm.pending_closed hp (List.mem_of_ne_of_mem hk.symm ho)
    · exact mem_insertKey.2 (Or.inr (hm.open_running (List.mem_of_ne_of_mem hk.symm ho)))

/-- A pass of the key itself, from a pending mark. -/
theorem Single.enter_self (hm : m.Single key) (hp : key ∈ m.pending) (fs : List Value) :
    ((m.unmark key).enter e key fs).Single key := by
  have hclosed := hm.pending_closed hp
  have hb : ∀ h, h <:+ .passBegan e key fs :: m.history → (openPasses h).count key ≤ 1 := by
    refine hm.count_cons ?_
    simp [openPasses, List.count_eq_zero_of_not_mem hclosed]
  have hgone : key ∉ eraseKey key m.pending := fun h => (mem_eraseKey.1 h).2 rfl
  cases fs with
  | nil =>
    have ho : openPasses ((m.unmark key).enter e key []).history = openPasses m.history :=
      List.erase_cons_head key _
    refine ⟨fun h hs => ?_, fun hp => absurd hp hgone, ?_⟩
    · rcases List.suffix_cons_iff.1 hs with rfl | hs
      · exact ho ▸ hm.count _ (List.suffix_refl _)
      · exact hb h hs
    · exact fun h => absurd (ho ▸ h) hclosed
  | cons f fs =>
    exact ⟨hb, fun hp => absurd hp hgone, fun _ => mem_insertKey.2 (Or.inl rfl)⟩

/-- The end of a pass of any key, before what was deferred to it is seen to. -/
theorem Single.leave (hm : m.Single key) {k : Value} {ks : List Value}
    (ho : openPasses m.history = k :: ks) (fault : Option Fault) : (m.leave e k fault).Single key := by
  have hks : openPasses (.passEnded e k fault :: m.history) = ks := openPasses_passEnded ho fault
  have hcount := hm.count _ (List.suffix_refl _)
  rw [ho] at hcount
  refine ⟨hm.count_cons ?_, fun hp => ?_, fun hk => ?_⟩
  · rw [hks]
    exact Nat.le_trans List.count_le_count_cons hcount
  · change key ∉ openPasses (.passEnded e k fault :: m.history)
    rw [hks]
    exact fun hk => hm.pending_closed hp (ho ▸ List.mem_cons_of_mem _ hk)
  · change key ∈ openPasses (.passEnded e k fault :: m.history) at hk
    rw [hks] at hk
    refine mem_eraseKey.2 ⟨hm.open_running (ho ▸ List.mem_cons_of_mem _ hk), ?_⟩
    rintro rfl
    rw [List.count_cons_self] at hcount
    have := List.count_pos_iff.2 hk
    omega

theorem Single.enqueue (hm : m.Single key) (k : Value) : (m.enqueue k).Single key := by
  refine ⟨?_, ?_, ?_⟩
  · rw [enqueue_history]
    exact hm.count
  · rw [mem_enqueue_pending, enqueue_history]
    rintro (hp | ⟨rfl, hr⟩)
    · exact hm.pending_closed hp
    · exact fun ho => hr (hm.open_running ho)
  · rw [enqueue_history, enqueue_running]
    exact hm.open_running

theorem Single.turn (h : Turn e m m') (hn : .notified e key ∉ m.history) (hm : m.Single key) :
    m'.Single key := by
  have hlast := hm.count _ (List.suffix_refl _)
  cases h with
  | aside ev ha =>
    have ho := openPasses_aside (h := m.history) ha
    refine ⟨hm.count_cons (ho ▸ hlast), ?_, ?_⟩ <;> simp only [note, ho]
    · exact hm.pending_closed
    · exact hm.open_running
  | request k =>
    have hr : (m.note (.requested e k)).Single key :=
      ⟨hm.count_cons hlast, hm.pending_closed, hm.open_running⟩
    exact hr.enqueue k
  | drop k =>
    refine ⟨hm.count_cons hlast, fun hp => ?_, hm.open_running⟩
    exact hm.pending_closed (mem_eraseKey.1 hp).1
  | flush k fs hp =>
    by_cases hk : k = key
    · subst hk
      exact hm.enter_self hp fs
    · have hu : (m.unmark k).Single key :=
        ⟨hm.count, fun hp => hm.pending_closed (mem_eraseKey.1 hp).1, hm.open_running⟩
      exact hu.enter_of_ne hk fs
  | force k fs hf =>
    have hk : k ≠ key := by
      rintro rfl
      exact hn hf
    exact hm.enter_of_ne hk fs
  | finish k ks ho =>
    have hl := hm.leave (e := e) ho none
    unfold finish
    dsimp only
    split
    · have hd : ({ m.leave e k none with deferred := eraseKey k (m.leave e k none).deferred } :
          Marks).Single key := ⟨hl.count, hl.pending_closed, hl.open_running⟩
      exact hd.enqueue k
    · exact hl
  | breakOff k ks f ho hf => exact hm.leave ho (some f)

theorem Asked.enter (hm : m.Asked e key) {k : Value} (hk : k = key → .requested e key ∈ m.history)
    (fs : List Value) : (m.enter e k fs).Asked e key := by
  have older : (key ∈ m.pending ∨ key ∈ m.deferred ∨
      ∃ x gs, .passBegan x key gs ∈ .passBegan e k fs :: m.history) → .requested e key ∈ m.history := by
    rintro (hp | hd | ⟨x, gs, hb⟩)
    · exact hm (Or.inl hp)
    · exact hm (Or.inr (Or.inl hd))
    · rcases List.mem_cons.1 hb with hb | hb
      · cases hb
        exact hk rfl
      · exact hm (Or.inr (Or.inr ⟨x, gs, hb⟩))
  cases fs with
  | nil =>
    intro h
    refine List.mem_cons_of_mem _ (List.mem_cons_of_mem _ (older ?_))
    refine h.imp_right (Or.imp_right ?_)
    rintro ⟨x, gs, hb⟩
    rcases List.mem_cons.1 hb with hb | hb
    · cases hb
    · exact ⟨x, gs, hb⟩
  | cons f fs => exact fun h => List.mem_cons_of_mem _ (older h)

theorem Asked.turn (h : Turn e m m') (hn : .notified e key ∉ m.history) (hm : m.Asked e key) :
    m'.Asked e key := by
  -- an event that begins no pass, after which no more keys are marked
  have note : ∀ {ev : Event} {p d : Prop}, (∀ x fs, ev ≠ .passBegan x key fs) →
      (p ∨ d → key ∈ m.pending ∨ key ∈ m.deferred) →
      (p ∨ d ∨ ∃ x fs, .passBegan x key fs ∈ ev :: m.history) →
      .requested e key ∈ ev :: m.history := by
    intro ev p d hev hpd h
    refine List.mem_cons_of_mem _ (hm ?_)
    rcases h with hp | hd | ⟨x, fs, hb⟩
    · exact (hpd (Or.inl hp)).imp_right Or.inl
    · exact (hpd (Or.inr hd)).imp_right Or.inl
    · rcases List.mem_cons.1 hb with hb | hb
      · exact absurd hb.symm (hev x fs)
      · exact Or.inr (Or.inr ⟨x, fs, hb⟩)
  cases h with
  | aside ev ha =>
    refine note ?_ id
    rintro x fs rfl
    exact ha
  | request k =>
    unfold Asked
    simp only [mem_enqueue_pending, mem_enqueue_deferred, enqueue_history, Marks.note]
    by_cases hk : k = key
    · subst hk
      exact fun _ => List.mem_cons_self
    · have hk' : key ≠ k := fun h => hk h.symm
      simp only [hk', false_and, or_false]
      exact note (fun _ _ h => by cases h) id
  | drop k =>
    refine note (fun _ _ h => by cases h) ?_
    simp only [mem_eraseKey]
    exact Or.imp And.left And.left
  | flush k fs hp =>
    have hu : (m.unmark k).Asked e key := fun h =>
      hm (h.imp_left fun hp => (mem_eraseKey.1 hp).1)
    refine hu.enter (fun hk => ?_) fs
    subst hk
    exact hm (Or.inl hp)
  | force k fs hf =>
    refine hm.enter (fun hk => ?_) fs
    subst hk
    exact absurd hf hn
  | finish k ks ho =>
    unfold Asked
    simp only [mem_finish_pending, mem_finish_deferred, finish_history]
    refine note (fun _ _ h => by cases h) ?_
    rintro ((hp | ⟨rfl, hd⟩) | ⟨hd, _⟩)
    · exact Or.inl hp
    · exact Or.inr hd
    · exact Or.inr hd
  | breakOff k ks f ho hf => exact note (fun _ _ h => by cases h) id

end Marks

section Turns

variable {m₀ : Marks}

theorem Turns.nested (h : Turns e m₀ m) (h₀ : m₀.Nested e) : m.Nested e :=
  h.invariant (P := fun m => m.Nested e) h₀ fun _ _ _ _ huv hu => hu.turn huv

theorem Turns.single (h : Turns e m₀ m) (hn : .notified e key ∉ m.history) (h₀ : m₀.Single key) :
    m.Single key :=
  h.invariant (P := fun m => m.Single key) h₀ fun _ _ hs _ huv hu =>
    hu.turn huv fun hm => hn (hs.mem (huv.suffix.mem hm))

theorem Turns.asked (h : Turns e m₀ m) (hn : .notified e key ∉ m.history) (h₀ : m₀.Asked e key) :
    m.Asked e key :=
  h.invariant (P := fun m => m.Asked e key) h₀ fun _ _ hs _ huv hu =>
    hu.turn huv fun hm => hn (hs.mem (huv.suffix.mem hm))

end Turns

namespace Marks

variable {policy : Reentrancy}

theorem nested_none : Nested { policy } e :=
  ⟨List.forall_mem_nil _, List.forall_mem_nil _, List.forall_mem_nil _⟩

theorem single_none : Single { policy } key := by
  refine ⟨fun h hs => ?_, fun hp => (List.not_mem_nil hp).elim, fun ho => (List.not_mem_nil ho).elim⟩
  rw [List.suffix_nil.1 hs]
  exact Nat.zero_le 1

theorem asked_none : Asked { policy } e key := by
  rintro (hp | hd | ⟨_, _, hb⟩)
  · cases hp
  · cases hd
  · cases hb

end Marks

/-- At every moment of a run the keys that are running are those of the passes in progress. A key that
is never notified directly is in at most one of them and not pending meanwhile; so if there are no other
keys, no more passes are in progress at once than there are keys written to. -/
theorem passes_never_recurse {w₀ w : Session κ} (fresh : w₀.Fresh e)
    (quiet : ¬ (w₀.engine e).scheduler.Loud) (moment : Session.Moment w₀ w)
    (once : w.setUps e = w₀.setUps e) :
    let s := (w.engine e).scheduler
    let stack := openPasses (w.history e)
    (∀ key ∈ s.running, key ∈ stack) ∧
    (∀ key ∈ s.deferred, key ∈ stack ∨ BrokenOff e key (w.history e)) ∧
    (∀ key, .notified e key ∉ w.history e →
      (∀ h, h <:+ w.history e → (openPasses h).count key ≤ 1) ∧
      (key ∈ s.pending → key ∉ stack) ∧ (key ∈ stack → key ∈ s.running)) ∧
    ((∀ key, .notified e key ∉ w.history e) → ∀ scopes : List Value,
      (∀ key, .requested e key ∈ w.history e → key ∈ scopes) →
      ∀ h, h <:+ w.history e → (openPasses h).length ≤ scopes.length) := by
  have turns := moment.turns fresh quiet once
  have nested := turns.nested Marks.nested_none
  refine ⟨nested.running_open, nested.deferred_open, fun key hn => ?_, fun hn scopes hs h hh => ?_⟩
  · have single := turns.single hn Marks.single_none
    exact ⟨single.count, single.pending_closed, single.open_running⟩
  · have nodup : (openPasses h).Nodup := by
      rw [List.nodup_iff_count_le_one]
      exact fun key => (turns.single (hn key) Marks.single_none).count h hh
    have subset : openPasses h ⊆ scopes := by
      intro key hk
      obtain ⟨x, fs, hb⟩ := began_of_open hk
      exact hs key (turns.asked (hn key) Marks.asked_none (Or.inr (Or.inr ⟨x, fs, hh.mem hb⟩)))
    exact (nodup.subperm subset).length_le

namespace Session

/-- An engine with a certain policy has been set up, and nothing else has been done. -/
def opened (policy : Reentrancy) (m : κ) : Session κ :=
  (Scope.create 0 { config := { reentrancy := policy } } (Env.within (fun _ => { body := fun _ => .quit }) 0)
    { memory := m }).2

theorem opened_fresh (policy : Reentrancy) (m : κ) : (opened policy m).Fresh 0 := ⟨rfl, rfl, rfl, rfl⟩

theorem opened_quiet (policy : Reentrancy) (m : κ) : ¬ ((opened policy m).engine 0).scheduler.Loud := by
  rintro ⟨debug, _⟩
  cases debug

end Session

-- A client with one engine, which defers, and one watcher, which writes to the scope it watches.
namespace Echo

def scope : Value := .text "a"

def write (n : Int) : Act Unit Value := do
  let updates ← Act.ask (.make (.dict (Table.ofList [(.text "n", .int n)])))
  Act.ask (.engine 0 (.setState scope updates))

def host (quits : Bool) : Host Unit := fun _ =>
  { body := fun _ => do
      let done ← write 2
      if quits then .quit else return done }

def main : Act Unit Value := do
  let _ ← Act.ask (.engine 0 (.initScope scope .none))
  let _ ← Act.ask (.engine 0 (.watch scope (.fn (.client "watcher"))))
  let _ ← write 1
  Act.ask (.engine 0 .tick)

def start : Session Unit :=
  let setUp : Act Unit Value := .ask (.create 0 { config := { reentrancy := .defer } })
  (Session.run (host false) 10 setUp { memory := () }).2

/-- Where the watcher quits after its first write, or where the queue is empty. -/
def reached (quits : Bool) : Session Unit := (Session.run (host quits) 10 main start).2

theorem start_opened : start = .opened .defer () := rfl

theorem fresh : start.Fresh 0 := by
  rw [start_opened]
  exact Session.opened_fresh .defer ()

theorem quiet : ¬ (start.engine 0).scheduler.Loud := by
  rw [start_opened]
  exact Session.opened_quiet .defer ()

theorem moment (quits : Bool) : Session.Moment start (reached quits) := by
  have ends : (Session.run (host quits) 10 main start).1 ≠ .exhausted := by
    cases quits <;> decide +kernel
  exact .plain (host quits) 10 main Prod.mk.eta.symm ends

theorem once (quits : Bool) : (reached quits).setUps 0 = start.setUps 0 := by
  cases quits <;> decide +kernel

theorem unforced (quits : Bool) (key : Value) : .notified 0 key ∉ (reached quits).history 0 := by
  have none : ((reached quits).history 0).any Event.forces = false := by
    cases quits <;> decide +kernel
  exact not_mem_of_any none rfl

theorem whole (quits : Bool) (key : Value) : ¬ BrokenOff 0 key ((reached quits).history 0) := by
  rintro ⟨f, hf, _⟩
  have none : ((reached quits).history 0).any Event.breaksOff = false := by
    cases quits <;> decide +kernel
  exact not_mem_of_any none rfl hf

end Echo

theorem passes_never_recurse_echo :
    openPasses ((Echo.reached true).history 0) = [Echo.scope] ∧
      Echo.scope ∈ ((Echo.reached true).engine 0).scheduler.running ∧
      Echo.scope ∈ ((Echo.reached true).engine 0).scheduler.deferred ∧
      Echo.scope ∉ ((Echo.reached true).engine 0).scheduler.pending := by
  have stack : openPasses ((Echo.reached true).history 0) = [Echo.scope] := by decide +kernel
  obtain ⟨_, _, single, _⟩ :=
    passes_never_recurse Echo.fresh Echo.quiet (Echo.moment true) (Echo.once true)
  obtain ⟨_, closed, running⟩ := single Echo.scope (Echo.unforced true Echo.scope)
  rw [stack] at closed running
  refine ⟨stack, running List.mem_cons_self, by decide +kernel, ?_⟩
  exact fun hp => closed hp List.mem_cons_self

end ReactiveScopes
