import ReactiveScopes.Proofs.Arrival

/-!
# Write-backs

Asynchronous handlers of a scope settle in any order, and merges into the scope come in between. Each settlement
is one edit of the data of the scope and so is each merge; whatever else goes on leaves the data alone. If the
paths of the handlers begin with different keys, and the merges keep away from these, the order does not matter.
-/
namespace ReactiveScopes

open Eff Datum Edit

section Settling

variable {κ : Type} {env : Env κ} {e : Nat} {a record : Value} {known : Session κ → Prop}
  {quiet posts : Value → Prop} {n x : Placed} {w w' : Session κ} {path : String} {d : Edit} {ds : List Edit}

/-- Fresh data: whatever the data of the record are, they share no cell with them. -/
def Session.Offers (w : Session κ) (e : Nat) (a record : Value) (x : Placed) : Prop :=
  ∀ {n}, w.store.Bears e a record n → w.store.Offers n x

/-- An edit of the data of a scope, as the library does it: a handler settles with fresh data or with a fault, or
a mapping of fresh data is merged and the merge comes to its end. -/
inductive Happens (env : Env κ) (e : Nat) (a record : Value) : Session κ → Edit → Session κ → Prop
  | settles {w : Session κ} {x : Placed} (path : String) (offers : w.Offers e a record x) :
    Happens env e a record w (.settled path (.ok x.plain))
      (Task.settle ⟨record, .text path, .flush e a⟩ (.ok x.value) env w).2
  | rejects (w : Session κ) (path : String) (f : Fault) :
    Happens env e a record w (.settled path (.error f))
      (Task.settle ⟨record, .text path, .flush e a⟩ (.error f) env w).2
  | merges {w w' : Session κ} {u : Ref} {us : List (String × Placed)}
    (offers : w.Offers e a record (mappingAt u us))
    (run : Scope.setState e a (.ref u) env w = (.value (), w')) :
    Happens env e a record w (.merged (us.map fun m => (m.1, m.2.plain))) w'

/-- A run in which some edits happen, one after another. In between anything may go on that leaves the data of
the scope alone. -/
inductive Runs (env : Env κ) (e : Nat) (a record : Value) (known : Session κ → Prop) :
    Session κ → List Edit → Session κ → Prop
  | done (w : Session κ) : Runs env e a record known w [] w
  | idle {w w' w'' : Session κ} {ds : List Edit}
    (leaves : ∀ n, Session.Minds known e a record n w → Session.Minds known e a record n w')
    (rest : Runs env e a record known w' ds w'') : Runs env e a record known w ds w''
  | edit {w w' w'' : Session κ} {d : Edit} {ds : List Edit} (happens : Happens env e a record w d w')
    (rest : Runs env e a record known w' ds w'') : Runs env e a record known w (d :: ds) w''

namespace Store.Bears

variable {s : Store}

theorem isDict (h : s.Bears e a record n) : n.plain.IsDict := by
  obtain ⟨data, keys, cs, rfl, _⟩ := h.root
  cases h.stands.sound with
  | branch fits below =>
    rw [plain, Datum.map]
    change keys.length = (cs.map _).length
    rw [List.length_map]
    exact fits

/-- Reading a path of the record is reading along the data. -/
theorem getPath_along (h : s.Bears e a record n) (path : String) :
    s.getPath record (.text path) = s.readAlong n.value (segments path) := by
  obtain ⟨data, keys, cs, rfl, hr⟩ := h.root
  obtain ⟨r, rfl, cell⟩ := Store.look_of_record? hr
  have child (p : String) : s.child (.ref r) p = s.child (.ref data) p := by
    cases h.stands with
    | branch below shows _ =>
      obtain ⟨t, _, rfl, _⟩ := shows.cases.resolve_left fun h => Shape.noConfusion h.1
      simp [Store.child, Store.mapping?, Store.look, cell, below]
  change s.readAlong (.ref r) (segments path) = s.readAlong (.ref data) (segments path)
  rcases hp : segments path with _ | ⟨p, ps⟩
  · exact absurd hp (segments_ne_nil path)
  · rw [Store.readAlong, Store.readAlong, child p] <;>
    · intro h
      cases h

theorem getPath {y : Placed} (h : s.Bears e a record n) (hy : n.read? (segments path) = some y) :
    s.getPath record (.text path) = .ok y.value ∧ y.Stands s := by
  rw [h.getPath_along]
  exact h.stands.readAlong hy

end Store.Bears

section Course

variable (setting : Setting e a known quiet posts) (peaceful : env.Peaceful e a record known quiet posts)
  (named : a.isNone = false)

include setting peaceful named

/-- An edit that happens to the data of a scope does to them what it does to plain data. -/
theorem Happens.minds (h : Happens env e a record w d w') (hw : Session.Minds known e a record n w) :
    ∃ n', Session.Minds known e a record n' w' ∧ n'.plain = d.apply n.plain := by
  cases h with
  | settles path offers =>
    exact ⟨_, setting.settle_minds peaceful named hw (offers hw.store), by rw [plain_returned, apply_ok]⟩
  | rejects path f => exact ⟨n, setting.settle_error hw _ f, rfl⟩
  | merges offers run =>
    obtain ⟨n', minds, hn'⟩ := setting.setState_minds peaceful named hw (offers hw.store) run
    exact ⟨n', minds, by rw [hn', apply, puts, putAll, List.foldl_map]⟩

/-- So does a whole run. -/
theorem Runs.minds (h : Runs env e a record known w ds w') (hw : Session.Minds known e a record n w) :
    ∃ n', Session.Minds known e a record n' w' ∧ n'.plain = applyAll ds n.plain := by
  induction h generalizing n with
  | done w => exact ⟨n, hw, rfl⟩
  | idle leaves rest ih => exact ih (leaves n hw)
  | edit happens rest ih =>
    obtain ⟨n₁, minds₁, hn₁⟩ := happens.minds setting peaceful named hw
    obtain ⟨n', minds, hn'⟩ := ih minds₁
    exact ⟨n', minds, by rw [hn', hn₁]; rfl⟩

end Course

/-- What a settlement has come to in the end, where the data were `t` before and are `n` now. A result that can be
written is at its path, and beneath the key that the path begins with there is what storing it once makes of the
old data. Any other outcome has left that key as it was. -/
structure Settled (s : Store) (record : Value) (t : Plain) (n : Placed) (path : String)
    (outcome : Except Fault Plain) : Prop where
  stored : ∀ x t', outcome = .ok x → x.isNone = false → path ≠ "" →
    t.write (fun _ => ()) 0 (segments path) x = some t' →
    n.plain.get? (rootOf path) = t'.get? (rootOf path) ∧
      ∃ y : Placed, y.plain = x ∧ y.Stands s ∧ s.getPath record (.text path) = .ok y.value
  left : (∀ x, outcome = .ok x →
      x.isNone ∨ path = "" ∨ t.write (fun _ => ()) 0 (segments path) x = none) →
    n.plain.get? (rootOf path) = t.get? (rootOf path)

/-- A settlement of a run has come to what it does to the data as they were before the run. -/
theorem settled_of_applyAll {t : Plain} {s : Store} (ht : t.IsDict) (sound : t.Sound)
    (hb : s.Bears e a record n) (hn : n.plain = applyAll ds t) (independent : Independent ds)
    {outcome : Except Fault Plain} (hs : (path, outcome) ∈ settlements ds) :
    Settled s record t n path outcome := by
  have entry := applyAll_settlement ht independent hs
  rw [← hn] at entry
  refine ⟨fun x t' ho full hp hw => ?_, fun h => ?_⟩
  · subst ho
    have hput : t.receive path x = t' := by
      unfold receive returned stored
      rw [if_neg (by simp [hp, full]), hw, Option.getD_some]
    rw [apply_ok, hput] at entry
    refine ⟨entry, ?_⟩
    have hd' : t'.IsDict := by
      rw [← hput, ← apply_ok]
      exact ht.putAll _
    have hread : n.plain.read? (segments path) = some x := by
      rw [read?_eq hb.isDict, entry, ← read?_eq hd']
      exact read?_write sound (segments_ne_nil path) hw
    rw [plain, read?_map] at hread
    obtain ⟨y, hy, hx⟩ := Option.map_eq_some_iff.1 hread
    obtain ⟨reads, stands⟩ := hb.getPath hy
    exact ⟨y, hx, stands, reads⟩
  · cases outcome with
    | error f => exact entry
    | ok x =>
      have hput : t.receive path x = t := by
        unfold receive returned stored
        split
        · rfl
        · next hg =>
          obtain ⟨hp, hx⟩ := not_or.1 hg
          rw [((h x rfl).resolve_left hx).resolve_left hp, Option.getD_none]
      rw [entry, apply_ok, hput]

end Settling

-- Two handlers of a scope, one of which settles for a position that its list does not have, and a merge between
-- them.
namespace Pair

def a : Value := .scope "a"

def host : Host Unit := fun _ => { body := fun _ => .done .none }

def env : Env Unit := Env.within host 5

def watcher : Value := .fn (.client "watcher")

/-- The record and its data, and the mapping that is merged. -/
def start : Session Unit where
  memory := ()
  store := { cells := #[.record ⟨1⟩ (.schedule 0 a), .dict (.ofFields [("x", .int 1), ("items", .ref ⟨2⟩)]),
    .list [.int 7], .dict (.ofFields [("z", .int 8)])] }
  engines := Table.ofList [(0,
    { records := Table.ofList [(a, .ref ⟨0⟩)], scheduler := { watchers := Table.ofList [(a, [watcher])] } })]

def before : Placed :=
  .branch ⟨1⟩ (.dict [.text "x", .text "items"]) [.leaf (.int 1), .branch ⟨2⟩ .list [.leaf (.int 7)]]

def five : Placed := .leaf (.int 5)

def merged : List (String × Placed) := [("z", .leaf (.int 8))]

def settle (path : String) (w : Session Unit) : Session Unit :=
  (Task.settle ⟨.ref ⟨0⟩, .text path, .flush 0 a⟩ (.ok five.value) env w).2

def merge (w : Session Unit) : Session Unit := (Scope.setState 0 a (.ref ⟨3⟩) env w).2

/-- The scope keeps its watcher and the engine its callbacks. -/
def Known (w : Session Unit) : Prop :=
  (w.engine 0).scheduler.watchersOf a = [watcher] ∧ (w.engine 0).scheduler.describe = none ∧
    (w.engine 0).queue.sink = none

theorem setting : Setting 0 a Known (· = watcher) fun _ => False where
  watchers h hf := by
    rw [h.1] at hf
    exact List.mem_singleton.1 hf
  sink h hp := by
    rw [h.2.2] at hp
    cases hp
  calm h hd := by
    rw [h.2.1] at hd
    cases hd
  having _ h := h
  logged _ h := h
  closing h := h
  reschedule {w f} hf h := by
    have same := hf (w.engine 0).scheduler
    simp only [Scheduler.fixed, Prod.mk.injEq] at same
    obtain ⟨watching, calm, own⟩ := h
    refine ⟨?_, ?_, ?_⟩ <;>
      simp only [Session.reschedule, Session.engine_modifyEngine, if_true, Scheduler.watchersOf, same]
    · exact watching
    · exact calm
    · exact own
  requeue f h := by
    obtain ⟨watching, calm, own⟩ := h
    exact ⟨by simpa [Session.requeue] using watching, by simpa [Session.requeue] using calm,
      by simpa [Session.requeue] using own⟩
  soon _ h := h

theorem peaceful : env.Peaceful 0 a (.ref ⟨0⟩) Known (· = watcher) fun _ => False where
  quietly args hf hw hb := by
    subst hf
    exact ⟨hw, hb⟩
  takesOver _ hf := hf.elim

theorem before_single : (refs before).Nodup := by
  simp [before, refs]

theorem minds : Session.Minds Known 0 a (.ref ⟨0⟩) before start := by
  have inner : (branch ⟨2⟩ .list [.leaf (.int 7)] : Placed).Stands start.store := by
    refine .branch (c := .list [.int 7]) rfl rfl fun x hx => ?_
    rw [List.mem_singleton.1 hx]
    exact .leaf rfl
  refine ⟨⟨by decide +kernel, by decide +kernel, by decide +kernel⟩, by decide +kernel,
    ⟨⟨1⟩, _, _, rfl, by decide +kernel⟩, ?_, before_single⟩
  refine .branch (c := .dict (.ofFields [("x", .int 1), ("items", .ref ⟨2⟩)])) rfl ⟨?_, ?_⟩ fun x hx => ?_
  · decide +kernel
  · decide +kernel
  · rcases List.mem_cons.1 hx with rfl | hx
    · exact .leaf rfl
    · rw [List.mem_singleton.1 hx]
      exact inner

theorem five_offers (w : Session Unit) : w.Offers 0 a (.ref ⟨0⟩) five := fun _ =>
  ⟨.leaf rfl, by rw [five, refs]; exact List.nodup_nil, fun _ _ h => by
    rw [five, refs] at h
    cases h⟩

/-- What is merged is no part of the data of the scope. -/
theorem merged_offers {w : Session Unit} (there : w.store.cell? ⟨3⟩ = some (.dict (.ofFields [("z", .int 8)])))
    (root : w.store.record? (.ref ⟨0⟩) = some (⟨1⟩, .schedule 0 a))
    (none : w.store.cells.all fun
      | .list xs => xs.all (· != .ref ⟨3⟩)
      | .dict t => t.values.all (· != .ref ⟨3⟩)
      | _ => true) : w.Offers 0 a (.ref ⟨0⟩) (mappingAt ⟨3⟩ merged) := by
  intro n hb
  have whole : (mappingAt ⟨3⟩ merged).refs = [⟨3⟩] := by simp [refs_mappingAt, merged, entryRefs, refs]
  refine ⟨.branch there ⟨by decide +kernel, by decide +kernel⟩ fun x hx => ?_, ?_, fun r hr hm => ?_⟩
  · rw [List.mem_singleton.1 hx]
    exact .leaf rfl
  · rw [whole]
    exact List.nodup_singleton _
  · rw [whole, List.mem_singleton] at hm
    subst hm
    obtain ⟨data, keys, cs, rfl, hr'⟩ := hb.root
    rw [root] at hr'
    cases hr'
    exact hb.stands.unmentioned (by simp [value]) none hr

/-- One of the handlers settles first, or the other. -/
def order (path path' : String) : List Edit :=
  [.settled path (.ok five.plain), .merged (merged.map fun m => (m.1, m.2.plain)), .settled path' (.ok five.plain)]

theorem runs {path path' : String}
    (there : (settle path start).store.cell? ⟨3⟩ = some (.dict (.ofFields [("z", .int 8)])))
    (root : (settle path start).store.record? (.ref ⟨0⟩) = some (⟨1⟩, .schedule 0 a))
    (none : (settle path start).store.cells.all fun
      | .list xs => xs.all (· != .ref ⟨3⟩)
      | .dict t => t.values.all (· != .ref ⟨3⟩)
      | _ => true)
    (comes : (Scope.setState 0 a (.ref ⟨3⟩) env (settle path start)).1 = .value ()) :
    Runs env 0 a (.ref ⟨0⟩) Known start (order path path') (settle path' (merge (settle path start))) :=
  .edit (.settles path (five_offers _)) <|
    .edit (.merges (merged_offers there root none) (Prod.ext comes rfl)) <|
      .edit (.settles path' (five_offers _)) <| .done _

end Pair

end ReactiveScopes
