import ReactiveScopes.Proofs.PassStack

/-!
# Writes inside an event loop

The callback for a marked key waits where the post that came with the mark took it: among the ready
entries of the loop that ran then, or in the engine's own queue if none did. A later write finds the
mark and posts nothing, wherever it is made. So a loop delivers the writes made inside it to keys that
were marked inside it; a key that was marked elsewhere waits for its callback there.
-/
namespace ReactiveScopes

open History

variable {κ : Type} {e : Nat} {key : Value} {p : Value → Bool} {h : List Event}

namespace History

/-- The last callback of those that count that was posted, with the loop that took it over if one did. -/
def lastPosted (p : Value → Bool) : List Event → Option (Value × Option Nat)
  | [] => none
  | .handed _ f n :: h => if p f then some (f, some n) else lastPosted p h
  | .posted _ f :: h => if p f then some (f, none) else lastPosted p h
  | _ :: h => lastPosted p h

theorem lastPosted_counts {f : Value} {place : Option Nat} (hf : lastPosted p h = some (f, place)) :
    p f = true := by
  induction h with
  | nil => cases hf
  | cons ev h ih =>
    cases ev with
    | posted x g | handed x g n =>
      simp only [lastPosted] at hf
      split at hf
      · next hg =>
        cases hf
        exact hg
      · exact ih hf
    | _ => exact ih hf

end History

namespace Board

/-- A callback waits in the own queue of the engine, or in the loop of the given number for as long as
that loop runs. -/
def Keeps (b : Board) (f : Value) : Option Nat → Prop
  | none => f ∈ b.queue.posted
  | some n => n < b.started ∧ ∀ l ∈ b.live, l.number = n → .call f ∈ l.ready

/-- The last callback for a pass of the key waits where it was posted to, or it is due. -/
def Awaits (b : Board) (e : Nat) (due : Option Value) (key : Value) : Prop :=
  ∃ f place, lastPosted (b.runs e key) b.history = some (f, place) ∧ (due = some f ∨ b.Keeps f place)

/-- Every loop that runs has a number of its own. -/
structure Numbered (b : Board) : Prop where
  distinct : b.numbers.Nodup
  started : ∀ n ∈ b.numbers, n < b.started

/-- Every marked key has a callback that waits. -/
structure Placed (b : Board) (e : Nat) (due : Option Value) : Prop where
  numbered : b.Numbered
  awaits : ∀ key ∈ b.scheduler.pending, b.Awaits e due key

variable {b b' : Board} {f : Value} {due due' : Option Value}

theorem Awaits.mono (ha : b.Awaits e due key) (hr : b'.runs e key = b.runs e key)
    (hh : lastPosted (b.runs e key) b'.history = lastPosted (b.runs e key) b.history)
    (hk : ∀ f place, b.Keeps f place → b'.Keeps f place) : b'.Awaits e due key := by
  obtain ⟨f, place, hf, hw⟩ := ha
  exact ⟨f, place, by rw [hr, hh, hf], hw.imp_right (hk f place)⟩

/-- Once what was due has been dealt with it is not missed. -/
theorem Awaits.settled (ha : b.Awaits e due key) (hd : ∀ f ∈ due, ¬ b.runsPass e key f) :
    b.Awaits e none key := by
  obtain ⟨f, place, hf, hw⟩ := ha
  refine ⟨f, place, hf, .inr (hw.resolve_left fun h => ?_)⟩
  exact hd f h (runs_iff.1 (lastPosted_counts hf))

theorem Numbered.congr (hb : b.Numbered) (h : b'.around = b.around) : b'.Numbered := by
  simp only [around, Prod.mk.injEq] at h
  obtain ⟨-, hn, hs⟩ := h
  exact ⟨hn ▸ hb.distinct, hn ▸ hs ▸ hb.started⟩

theorem Awaits.aside (ha : b.Awaits e due key) {s : Scheduler} {h : List Event}
    (hh : ∀ p, lastPosted p h = lastPosted p b.history) :
    Awaits { b with scheduler := s, history := h } e due key :=
  ha.mono rfl (hh _) fun _ place => by cases place <;> exact id

/-- Whatever posts nothing, takes nothing and marks no key. -/
theorem Placed.aside (hb : b.Placed e due) {s : Scheduler} {h : List Event}
    (hp : ∀ k ∈ s.pending, k ∈ b.scheduler.pending)
    (hh : ∀ p, lastPosted p h = lastPosted p b.history) :
    Placed { b with scheduler := s, history := h } e due :=
  ⟨hb.numbered.congr rfl, fun k hk => (hb.awaits k (hp k hk)).aside hh⟩

/-- What a post adds to waits with what waited before. -/
theorem keeps_posting {g : Value} {place : Option Nat} (hg : b.Keeps g place) (e : Nat) (f : Value) :
    (b.posting e f).Keeps g place := by
  cases place with
  | none =>
    change g ∈ (b.posting e f).queue.posted
    simp only [posting]
    split
    · exact List.mem_append_left _ hg
    · exact hg
  | some n =>
    refine ⟨hg.1, fun l hl hn => ?_⟩
    simp only [live, posting, List.reduceOption_mem_iff, List.mem_cons] at hl
    have hlive {x : Loop} (hx : b.loop = some x ∨ some x ∈ b.outer) : x ∈ b.live :=
      List.reduceOption_mem_iff.2 (List.mem_cons.2 (hx.imp_left Eq.symm))
    rcases hl with hl | hl
    · split at hl
      · obtain ⟨x, hx, rfl⟩ := Option.map_eq_some_iff.1 hl.symm
        exact List.mem_append_left _ (hg.2 x (hlive (.inl hx)) hn)
      · exact hg.2 l (hlive (.inl hl.symm)) hn
    · exact hg.2 l (hlive (.inr hl)) hn

/-- A callback that is posted waits where it was posted to. -/
theorem Numbered.posted (hb : b.Numbered) (hs : b.queue.sink = none)
    (hf : b.runs e key f = true) : (b.posting e f).Awaits e due' key := by
  rcases hl : b.loop with _ | l
  · rw [posting_queued hs hl]
    refine ⟨f, none, if_pos hf, .inr ?_⟩
    exact List.mem_append_right _ List.mem_cons_self
  · have hlive : b.live = l :: b.outer.reduceOption := by simp [live, hl]
    rw [posting_handed hs hl]
    refine ⟨f, some l.number, if_pos hf, .inr ⟨?_, fun x hx hn => ?_⟩⟩
    · exact hb.started _ (List.mem_map_of_mem (hlive ▸ List.mem_cons_self))
    · rcases List.mem_cons.1 hx with rfl | hx
      · exact List.mem_append_right _ List.mem_cons_self
      · -- a loop of a waiting thread has another number
        have hd := hb.distinct
        rw [numbers, hlive, List.map_cons, List.nodup_cons] at hd
        exact absurd (hn ▸ List.mem_map_of_mem hx) hd.1

theorem Awaits.posting (ha : b.Awaits e due key) (hf : b.runs e key f = false) :
    (b.posting e f).Awaits e due key := by
  refine ha.mono rfl ?_ fun g place hg => keeps_posting hg e f
  unfold Board.posting
  rcases b.handing_cases e f with h | ⟨n, h⟩ <;> rw [h] <;> simp [lastPosted, hf]

theorem Placed.posting (hb : b.Placed e due) (hs : b.queue.sink = none) (f : Value) :
    (b.posting e f).Placed e due := by
  refine ⟨hb.numbered.congr (Board.around_steady.posting b e f), fun k hk => ?_⟩
  cases hf : b.runs e k f with
  | true => exact hb.numbered.posted hs hf
  | false => exact (hb.awaits k hk).posting hf

theorem runs_close (b : Board) {c : Closure} (hc : c ≠ .pass e key) :
    (b.close c).runs e key = b.runs e key := by
  funext f
  rw [Bool.eq_iff_iff, runs_iff, runs_iff]
  refine ⟨?_, runsPass_push⟩
  rintro ⟨n, rfl, hn⟩
  refine ⟨n, rfl, ?_⟩
  rw [close, Array.getElem?_push] at hn
  split at hn
  · exact absurd (Option.some.inj hn) hc
  · exact hn

theorem Awaits.close (ha : b.Awaits e due key) {c : Closure} (hc : c ≠ .pass e key) :
    (b.close c).Awaits e due key :=
  ha.mono (b.runs_close hc) rfl fun _ place => by cases place <;> exact id

/-- The callback for a new mark goes where the others go. -/
theorem Placed.announce (hb : b.Placed e due) (hs : b.queue.sink = none) (key : Value) :
    (b.announce e key).Placed e due := by
  let b₁ := (b.reschedule fun s => { s with pending := insertKey key s.pending }).close (.pass e key)
  let f : Value := .fn (.made b.closures.size)
  have hrun : b₁.runs e key f = true := runs_iff.2 ⟨_, rfl, by simp [b₁]⟩
  have numbered : b₁.Numbered := hb.numbered.congr rfl
  refine ⟨numbered.congr (Board.around_steady.posting b₁ e f), fun k hk => ?_⟩
  by_cases hkey : k = key
  · subst hkey
    exact numbered.posted hs hrun
  · have hk : k ∈ b.scheduler.pending := (mem_insertKey.1 hk).resolve_left hkey
    have awaits : b₁.Awaits e due k := (hb.awaits k hk).close fun h => hkey (by cases h; rfl)
    refine awaits.posting (Bool.eq_false_iff.2 fun hf => hkey ?_)
    exact runsPass_unique (runs_iff.1 hf) (runs_iff.1 hrun)

theorem Placed.enqueue (hb : b.Placed e due) (hs : b.queue.sink = none) (key : Value) :
    (b.enqueue e key).Placed e due := by
  rcases b.enqueue_cases e key with ⟨_, _, h⟩ | ⟨_, _, h⟩ | ⟨_, _, h⟩ | ⟨_, _, h⟩ <;> rw [h]
  · exact hb.aside (fun _ => id) fun _ => rfl
  · exact hb
  · exact hb
  · exact hb.announce hs key

/-- A key that is no longer marked is not missed; nor is what was due for it. -/
theorem Placed.unmark (hb : b.Placed e due) (hd : ∀ f ∈ due, b.runsPass e key f) :
    (b.unmark key).Placed e none := by
  refine ⟨hb.numbered.congr rfl, fun k hk => ?_⟩
  obtain ⟨hk, hne⟩ := mem_eraseKey.1 hk
  have ha := (hb.awaits k hk).settled fun f hf hr => hne (runsPass_unique hr (hd f hf))
  exact ha.aside fun _ => rfl

theorem Placed.beginPass (hb : b.Placed e none) (key : Value) (ps : List OpenPass) :
    (b.beginPass e key ps).board.Placed e (b.beginPass e key ps).due := by
  rcases b.beginPass_cases e key ps with h | ⟨fs, h⟩ <;> rw [h]
  · exact hb.aside (fun _ => id) fun _ => rfl
  · exact hb.aside (fun _ => id) fun _ => rfl

theorem Placed.finishPass (hb : b.Placed e none) (hs : b.queue.sink = none) (key : Value) :
    (b.finishPass e key).Placed e none := by
  have hleave : (b.leavePass e key none).Placed e none := hb.aside (fun _ => id) fun _ => rfl
  rcases b.finishPass_cases e key with ⟨_, h⟩ | ⟨_, h⟩ <;> rw [h]
  · have hd : (b.giveWay e key).Placed e none := hleave.aside (fun _ => id) fun _ => rfl
    exact hd.enqueue hs key
  · exact hleave

/-- Loops that go on have still to call what they had to call, and a new one has nothing to call. -/
theorem Placed.shift (hb : b.Placed e due) {l : Option Loop} {o : List (Option Loop)} {n : Nat}
    (h : Shift b.live b.started (l :: o).reduceOption n) :
    Placed { b with loop := l, outer := o, started := n } e due := by
  have hle : b.started ≤ n := by
    rcases h.numbers with ⟨rfl, _⟩ | ⟨rfl, _⟩
    · exact Nat.le_refl _
    · exact Nat.le_succ _
  have old {ns : List Nat} (hs : ns.Sublist b.numbers) : ns.Nodup ∧ ∀ m ∈ ns, m < b.started :=
    ⟨hs.nodup hb.numbered.distinct, fun m hm => hb.numbered.started m (hs.subset hm)⟩
  refine ⟨?_, fun k hk => (hb.awaits k hk).mono rfl rfl fun f place hf => ?_⟩
  · rcases h.numbers with ⟨rfl, hs⟩ | ⟨rfl, ns, hn, hs⟩
    · exact ⟨(old hs).1, (old hs).2⟩
    · refine ⟨?_, fun m hm => ?_⟩
      · change ((l :: o).reduceOption.map Loop.number).Nodup
        rw [hn, List.nodup_cons]
        exact ⟨fun hm => Nat.lt_irrefl _ ((old hs).2 _ hm), (old hs).1⟩
      · change m ∈ (l :: o).reduceOption.map Loop.number at hm
        rw [hn] at hm
        rcases List.mem_cons.1 hm with rfl | hm
        · exact Nat.lt_succ_self _
        · exact Nat.lt_succ_of_lt ((old hs).2 m hm)
  · cases place with
    | none => exact hf
    | some m =>
      refine ⟨Nat.lt_of_lt_of_le hf.1 hle, fun x hx hm => ?_⟩
      rcases h.known hx with ⟨y, hy, hkeep⟩ | hx
      · exact hkeep.calls (hf.2 y hy (hkeep.number.symm.trans hm))
      · exact absurd hf.1 (by rw [← hm, hx]; exact Nat.lt_irrefl _)

/-- A callback that becomes due need not be kept any more; the others are kept as they were. -/
theorem Awaits.become_due (ha : b.Awaits e none key) (hr : b'.runs e key = b.runs e key)
    (hh : lastPosted (b.runs e key) b'.history = lastPosted (b.runs e key) b.history)
    (hk : ∀ g place, g ≠ f → b.Keeps g place → b'.Keeps g place) : b'.Awaits e (some f) key := by
  obtain ⟨g, place, hg, hw⟩ := ha
  refine ⟨g, place, by rw [hr, hh, hg], ?_⟩
  by_cases hfg : f = g
  · exact .inl (congrArg some hfg)
  · exact .inr (hk g place (Ne.symm hfg) (hw.resolve_left nofun))

/-- What a loop takes up is due. -/
theorem Placed.take (hb : b.Placed e none) {l : Loop} {f : Value} {rest : List Ready}
    (hl : b.loop = some l) (hr : l.ready = .call f :: rest) :
    Placed { b with loop := some { l with ready := rest } } e (some f) := by
  refine ⟨hb.numbered.congr (around_loop hl rfl), fun k hk => ?_⟩
  refine (hb.awaits k hk).become_due rfl rfl fun g place hgf hw => ?_
  cases place with
  | none => exact hw
  | some n =>
    refine ⟨hw.1, fun x hx hn => ?_⟩
    have hlive : b.live = l :: b.outer.reduceOption := by simp [live, hl]
    rcases List.mem_cons.1 hx with rfl | hx
    · have hready := hw.2 l (hlive ▸ List.mem_cons_self) hn
      rw [hr] at hready
      exact (List.mem_cons.1 hready).resolve_left fun h => hgf (by cases h; rfl)
    · exact hw.2 x (hlive ▸ List.mem_cons_of_mem l hx) hn

/-- What is taken from the queue is due. -/
theorem Placed.pop (hb : b.Placed e none) {f : Value} {rest : List Value}
    (hq : b.queue.posted = f :: rest) :
    Placed { b.note (.began e f) with queue := { b.queue with posted := rest } } e (some f) := by
  refine ⟨hb.numbered.congr rfl, fun k hk => ?_⟩
  refine (hb.awaits k hk).become_due rfl rfl fun g place hgf hw => ?_
  cases place with
  | none =>
    change g ∈ b.queue.posted at hw
    rw [hq] at hw
    exact (List.mem_cons.1 hw).resolve_left hgf
  | some n => exact hw

end Board

variable {s t : Scene}

theorem Step.placed (h : Step e s t) (once : t.board.setUps = s.board.setUps)
    (hsink : s.board.queue.sink = none) (hs : s.board.Placed e s.due) :
    t.board.Placed e t.due := by
  cases h with
  | close b ps c h =>
    exact ⟨hs.numbered.congr rfl, fun k hk => (hs.awaits k hk).close (h k)⟩
  | loops b ps l o n h => exact hs.shift h
  | take b ps l f rest hl h => exact hs.take hl h
  | create b ps s' q => exact absurd once (Nat.succ_ne_self _)
  | removeWatcher b ps key f =>
    exact hs.aside (fun k hk => b.scheduler.pending_removeWatcher key f ▸ hk) fun _ => rfl
  | drop b ps key => exact hs.aside (fun k hk => (mem_eraseKey.1 hk).1) fun _ => rfl
  | request b ps key =>
    have hr : (b.note (.requested e key)).Placed e none := hs.aside (fun _ => id) fun _ => rfl
    exact hr.enqueue hsink key
  | post b ps f => exact hs.posting hsink f
  | drain | door =>
    exact ⟨hs.numbered.congr rfl, fun k hk => (hs.awaits k hk).mono rfl rfl fun _ place => by
      cases place <;> exact id⟩
  | pop b ps f rest hq => exact hs.pop hq
  | skip b ps f hf =>
    refine ⟨hs.numbered, fun k hk => (hs.awaits k hk).settled fun g hg hr => ?_⟩
    cases hg
    exact hf k hr hk
  | flush b ps key due hp hd => exact (hs.unmark hd).beginPass key ps
  | notify b ps key =>
    have hn : (b.note (.notified e key)).Placed e none := hs.aside (fun _ => id) fun _ => rfl
    exact hn.beginPass key ps
  | trace b ps key due h hd => exact hs.unmark hd
  | finish b ps key => exact hs.finishPass hsink key
  | traceFailed => exact hs
  | _ => exact hs.aside (fun _ => id) fun _ => rfl

/-- The queue of an engine without a sink keeps every callback where it was posted to. -/
theorem Steps.placed (h : Steps e s t) (once : t.board.setUps = s.board.setUps)
    (hsink : s.board.queue.sink = none) (hs : s.board.Placed e s.due) :
    t.board.Placed e t.due := by
  refine h.invariant (P := fun u => u.board.Placed e u.due) once hs fun u v settings huv hup hu => ?_
  exact huv.placed hup ((Board.sink_of_settings settings).trans hsink) hu

/-- At a moment of a run without any loop yet, every loop has its number and nothing waits. -/
theorem Session.Fresh.placed {w : Session κ} (fresh : w.Fresh e) (loopless : w.Loopless) :
    (w.board e).Placed e none := by
  have hl : (w.board e).numbers = [] := loopless.board
  have hp : (w.board e).scheduler.pending = [] := fresh.pending
  refine ⟨⟨hl ▸ List.nodup_nil, fun n hn => ?_⟩, fun k hk => ?_⟩
  · rw [hl] at hn
    cases hn
  · rw [hp] at hk
    cases hk

variable {w w' : Session κ} {l : Loop}

/-- What becomes of a write inside a loop: it finds a mark and posts nothing, or the loop takes its
callback over. -/
theorem Session.request_inside (hsink : (w.board e).queue.sink = none) (inside : w.loop = some l)
    (idle : key ∉ (w.engine e).scheduler.running)
    (hb : w'.board e = (w.board e).request e key) :
    ∃ l', w'.loop = some l' ∧ l'.number = l.number ∧ key ∈ (w'.engine e).scheduler.pending ∧
      (key ∉ (w.engine e).scheduler.pending →
        ∃ f, lastPosted (w'.runsPass e key) (w'.history e) = some (f, some l.number)) ∧
      (key ∈ (w.engine e).scheduler.pending →
        w'.history e = .requested e key :: w.history e ∧ l' = l) := by
  let b := (w.board e).note (.requested e key)
  have hloop : w'.loop = (b.enqueue e key).loop := congrArg Board.loop hb
  have hpending : (w'.engine e).scheduler.pending = (b.enqueue e key).scheduler.pending :=
    congrArg (fun b => b.scheduler.pending) hb
  have hhistory : w'.history e = (b.enqueue e key).history := congrArg Board.history hb
  rcases b.enqueue_cases e key with ⟨hr, _⟩ | ⟨hr, _⟩ | ⟨_, hp, h⟩ | ⟨_, hp, h⟩
  · exact absurd hr idle
  · exact absurd hr idle
  · rw [h] at hloop hpending hhistory
    exact ⟨l, hloop.trans inside, rfl, hpending ▸ hp, absurd hp, fun _ => ⟨hhistory, rfl⟩⟩
  · let b₁ := (b.reschedule fun s => { s with pending := insertKey key s.pending }).close (.pass e key)
    let f : Value := .fn (.made b.closures.size)
    have hpost : b.announce e key = _ := b₁.posting_handed (f := f) hsink inside
    have hruns : w'.runsPass e key f = true := by
      rw [Session.runsPass_eq, hb, Board.runs_iff]
      change (b.enqueue e key).runsPass e key f
      rw [h]
      exact ⟨_, rfl, by simp⟩
    rw [h] at hloop hpending hhistory
    rw [hpost] at hloop hhistory
    refine ⟨_, hloop, rfl, ?_, fun _ => ⟨f, ?_⟩, fun h => absurd h hp⟩
    · rw [hpending]
      exact mem_insertKey.2 (.inl rfl)
    · rw [hhistory]
      exact if_pos hruns

/-- A write inside a loop, to a key of which no pass is running, leaves the key pending, and the last
callback posted for its pass waits where it was posted to. If the key was not marked, that is this loop; if
it was marked, the write posts nothing. So the loop has the callback unless the mark was put on outside
of it: where no loop ran the callback is in the engine's own queue, where another one ran it is in that
one's. -/
theorem writes_in_a_loop_are_delivered {w₀ : Session κ} (fresh : w₀.Fresh e)
    (own : (w₀.engine e).queue.sink = none) (loopless : w₀.Loopless)
    (moment : Session.Moment w₀ w) (once : w.setUps e = w₀.setUps e) (inside : w.loop = some l)
    (idle : key ∉ (w.engine e).scheduler.running) (env : Env κ) :
    ∃ w' l' f place, Scheduler.request e key env w = (.value (), w') ∧
      w'.loop = some l' ∧ l'.number = l.number ∧ key ∈ (w'.engine e).scheduler.pending ∧
      lastPosted (w'.runsPass e key) (w'.history e) = some (f, place) ∧ w'.runsPass e key f ∧
      (key ∉ (w.engine e).scheduler.pending → place = some l.number) ∧
      (key ∈ (w.engine e).scheduler.pending →
        w'.history e = .requested e key :: w.history e ∧ l' = l) ∧
      (place = some l.number → .call f ∈ l'.ready) ∧
      (place = none → f ∈ (w'.engine e).queue.posted) ∧
      (∀ n, place = some n → ∀ x ∈ w'.outer.reduceOption, x.number = n → .call f ∈ x.ready) := by
  obtain ⟨ps, steps⟩ := moment.steps e
  have hsink : (w.board e).queue.sink = none := by
    have hset := steps.settings once
    simp only [Board.settings, Prod.mk.injEq] at hset
    exact hset.2.2.2.trans own
  obtain ⟨w', hw, hb⟩ := Follows.request_own env key hsink
  have placed : (w'.board e).Placed e none := by
    have before : (w.board e).Placed e none := steps.placed once own (fresh.placed loopless)
    have around := Board.around_enqueue ((w.board e).note (.requested e key)) e key
    rw [hb]
    exact (Step.request (w.board e) ps key).placed (congrArg Prod.fst around) hsink before
  obtain ⟨l', hloop, hnumber, hpending, hnew, hold⟩ :=
    Session.request_inside hsink inside idle hb
  obtain ⟨f, place, hlast, hwait⟩ := placed.awaits key hpending
  have hkeeps : (w'.board e).Keeps f place := hwait.resolve_left fun h => by cases h
  have hlive : (w'.board e).live = l' :: w'.outer.reduceOption := by
    unfold Board.live
    rw [show (w'.board e).loop = some l' from hloop]
    rfl
  refine ⟨w', l', f, place, hw, hloop, hnumber, hpending, hlast, lastPosted_counts hlast,
    fun hp => ?_, hold, ?_, ?_, ?_⟩
  · obtain ⟨g, hg⟩ := hnew hp
    exact (Prod.mk.inj (Option.some.inj (hlast.symm.trans hg))).2
  · rintro rfl
    exact hkeeps.2 l' (hlive ▸ List.mem_cons_self) hnumber
  · rintro rfl
    exact hkeeps
  · rintro n rfl x hx hn
    exact hkeeps.2 x (hlive ▸ List.mem_cons_of_mem l' hx) hn

-- A client that writes to a scope before it runs a loop, or not, and whose coroutine quits at once.
namespace Late

def host : Host Unit := fun _ => { isAsync := true, body := fun _ => .quit }

def main (early : Bool) : Act Unit Value := do
  let _ ← Act.ask (.engine 0 (.initScope Echo.scope .none))
  if early then
    let _ ← Echo.write 1
  let c ← Act.ask (.call (.fn (.client "main")) [])
  Act.ask (.runLoop c)

/-- Inside the loop. -/
def reached (early : Bool) : Session Unit := (Session.run host 10 (main early) Echo.start).2

/-- After a write there. -/
def written (early : Bool) : Session Unit :=
  (Scheduler.request 0 Echo.scope (Env.within host 10) (reached early)).2

theorem moment (early : Bool) : Session.Moment Echo.start (reached early) := by
  have ends : (Session.run host 10 (main early) Echo.start).1 ≠ .exhausted := by
    cases early <;> decide +kernel
  exact .plain host 10 (main early) Prod.mk.eta.symm ends

end Late

theorem writes_in_a_loop_are_delivered_late :
    ∃ l f, (Late.written false).loop = some l ∧ .call f ∈ l.ready ∧
      (Late.written false).runsPass 0 Echo.scope f := by
  have loopless : Echo.start.Loopless := ⟨by decide +kernel, by decide +kernel⟩
  have running : (Late.reached false).loop.isSome := by decide +kernel
  obtain ⟨l, inside⟩ := Option.isSome_iff_exists.1 running
  have idle : Echo.scope ∉ ((Late.reached false).engine 0).scheduler.running := by decide +kernel
  obtain ⟨w', l', f, place, hw, hl', hn, -, -, hf, hnew, -, hready, -⟩ :=
    writes_in_a_loop_are_delivered Echo.fresh (by decide +kernel) loopless (Late.moment false)
      (by decide +kernel) inside idle (Env.within Late.host 10)
  have hwritten : Late.written false = w' := congrArg Prod.snd hw
  have hplace : place = some l.number := hnew (by decide +kernel)
  exact ⟨l', f, hwritten ▸ hl', hready hplace, hwritten ▸ hf⟩

/-- The scope was marked before the loop began. The write inside of the loop posts nothing: the loop has
nothing to run for it, and its callback stays in the queue that only a tick drains. -/
theorem early_mark_keeps_its_callback :
    Session.Moment Echo.start (Late.reached true) ∧
    (Late.reached true).loop.isSome ∧
    Echo.scope ∉ ((Late.reached true).engine 0).scheduler.running ∧
    (Scheduler.request 0 Echo.scope (Env.within Late.host 10) (Late.reached true)).1 = .value () ∧
    ((Late.written true).loop.map Loop.ready) = some [] ∧
    Echo.scope ∈ ((Late.written true).engine 0).scheduler.pending ∧
    ((Late.written true).engine 0).queue.posted.any ((Late.written true).runsPass 0 Echo.scope) := by
  exact ⟨Late.moment true, by decide +kernel⟩

end ReactiveScopes
