import ReactiveScopes.Proofs.Edits
import ReactiveScopes.Proofs.Upkeep

/-!
# Arrivals

What storing at a path, a handler that settles and a merge make of the data of a scope. Each stores along the
tree, or leaves it as it is where the path cannot be written; what the library and quiet client code do
besides changes nothing about it.
-/
namespace ReactiveScopes

open Eff Datum

variable {κ α β : Type} {env : Env κ} {e : Nat} {a record : Value} {known : Session κ → Prop}
  {quiet posts : Value → Prop} {n x : Placed} {w w' : Session κ} {path : String}

namespace Store

variable {s s' : Store}

/-- Data that are handed over: they stand in the store and share no cell with those that are there. -/
structure Offers (s : Store) (n x : Placed) : Prop where
  stands : x.Stands s
  single : x.refs.Nodup
  apart : ∀ r ∈ n.refs, r ∉ x.refs

theorem Bears.written (h : s.Bears e a record n)
    (hw : Written s s' n x (n.stored Ref.mk s.cells.size path x)) :
    s'.Bears e a record (n.stored Ref.mk s.cells.size path x) := by
  obtain ⟨⟨data, keys, cs, rfl, hr⟩, stands, single⟩ := h
  refine ⟨?_, hw.stands, hw.nodup⟩
  obtain ⟨keys', cs', hn⟩ := stored_root Ref.mk s.cells.size data keys cs path x
  refine ⟨data, keys', cs', hn, ?_⟩
  obtain ⟨r, rfl, hc⟩ := Store.look_of_record? hr
  have outside : r ∉ (branch data (.dict keys) cs).refs := by
    intro hm
    obtain ⟨c, hc', hne⟩ := stands.container hm
    exact hne _ _ (Option.some.inj (hc'.symm.trans hc))
  have bound : r.index < s.cells.size := (Array.getElem?_eq_some_iff.1 hc).1
  simp [Store.record?, Store.look, hw.frame r outside bound, hc]

theorem Bears.record? {data : Ref} (h : s.Bears e a record n) (root : n.value = .ref data) :
    s.record? record = some (data, .schedule e a) := by
  obtain ⟨data', keys, cs, rfl, hr⟩ := h.root
  cases root
  exact hr

end Store

namespace Record

variable {data : Ref} {keys : List Value} {cs : List Placed} {p : String}

/-- Storing under a text of a record's data is storing into them, and then at most a report. -/
theorem setItem_written (stands : (branch data (.dict keys) cs).Stands w.store)
    (single : (branch data (.dict keys) cs).refs.Nodup) (hx : w.store.Offers (branch data (.dict keys) cs) x)
    (h : (branch data (.dict keys) cs).assign p x = some n) :
    ∃ s', ∃ b : Bool, Written w.store s' (branch data (.dict keys) cs) x n ∧ ∀ hook env,
      setItem data hook (.text p) x.value env w =
        (if b then report hook (.text p) else pure ()) env (w.having s') := by
  obtain ⟨s', run, written, _⟩ := assign_written stands hx.stands single hx.single hx.apart h
  cases stands with
  | branch cell shows below =>
    obtain ⟨t, _, rfl, _⟩ := shows.cases.resolve_left fun h => nomatch h.1
    have stored (env : Env κ) : Path.assign (.ref data) p x.value env w =
        (.value (), w.having (w.store.put data (.dict (t.insert (.text p) x.value)))) := by
      unfold Path.assign
      rw [bind_store]
      simp only [Store.look, cell]
      rfl
    have hf : fields w.store data = t := by simp [fields, Store.mapping?, Store.look, cell]
    refine ⟨s', changed s' (t.get? (.text p)) x.value, written, fun hook env => ?_⟩
    have hs : s' = w.store.put data (.dict (t.insert (.text p) x.value)) :=
      congrArg (·.2.store) ((run env).symm.trans (stored env))
    rw [hs, ← hf]
    rfl

section Segments

variable {hook : Hook} {v : Value} {env : Env κ} {q : String} {qs : List String}

/-- Storing at a path of one segment is storing under a text. -/
theorem setPath_single (h : segments path = [p]) :
    setPath data hook (.text path) v env w = setItem data hook (.text p) v env w := by
  have text : w.store.segmentsOf (.text path) = [p] := h
  unfold setPath
  rw [bind_store, text]

/-- Storing at a longer one is writing along it, and then a report. -/
theorem setPath_long (h : segments path = p :: q :: qs) :
    setPath data hook (.text path) v env w =
      (do Path.write (.ref data) (p :: q :: qs) v; report hook (.text p)) env w := by
  have text : w.store.segmentsOf (.text path) = p :: q :: qs := h
  unfold setPath
  rw [bind_store, text]

end Segments

/-- Storing at a path of a record that can be written writes the data, and then there is at most a report. -/
theorem setPath_stores (stands : (branch data (.dict keys) cs).Stands w.store)
    (single : (branch data (.dict keys) cs).refs.Nodup) (hx : w.store.Offers (branch data (.dict keys) cs) x)
    (h : (branch data (.dict keys) cs).write Ref.mk w.store.cells.size (segments path) x = some n) :
    ∃ s', ∃ b : Bool, Written w.store s' (branch data (.dict keys) cs) x n ∧ ∀ hook env,
      setPath data hook (.text path) x.value env w =
        (if b then report hook (rootOf path) else pure ()) env (w.having s') := by
  unfold rootOf
  rcases hp : segments path with _ | ⟨p, _ | ⟨q, qs⟩⟩ <;> rw [hp] at h
  · exact absurd hp (segments_ne_nil path)
  · obtain ⟨s', b, written, run⟩ := setItem_written stands single hx h
    exact ⟨s', b, written, fun hook env => (setPath_single hp).trans (run hook env)⟩
  · obtain ⟨s', run, written⟩ :=
      write_written stands hx.stands single hx.single hx.apart rfl (List.cons_ne_nil p (q :: qs)) h
    exact ⟨s', true, written, fun hook env => (setPath_long hp).trans (bind_value (run env) _)⟩

variable (path) in
/-- Storing at a path of a record writes the data, or leaves them as they are if the path cannot be written.
After that comes at most a report. -/
theorem setPath_written (env : Env κ) (hb : w.store.Bears e a record n)
    (hr : w.store.record? record = some (data, .schedule e a)) (hx : w.store.Offers n x) :
    ∃ s', Written w.store s' n x (n.stored Ref.mk w.store.cells.size path x) ∧
      (setPath data (.schedule e a) (.text path) x.value env w = Scheduler.request e a env (w.having s') ∨
        ∃ o, setPath data (.schedule e a) (.text path) x.value env w = (o, w.having s')) := by
  obtain ⟨⟨_, keys, cs, rfl, hr'⟩, stands, single⟩ := hb
  cases hr.symm.trans hr'
  unfold Datum.stored
  cases hw : (branch data (.dict keys) cs).write Ref.mk w.store.cells.size (segments path) x with
  | some t =>
    obtain ⟨s', b, written, run⟩ := setPath_stores stands single hx hw
    refine ⟨s', written, ?_⟩
    cases b with
    | true => exact .inl (run _ env)
    | false => exact .inr ⟨_, run _ env⟩
  | none =>
    obtain ⟨f, s', run, _, same, more⟩ := write_fails stands rfl (segments_ne_nil path) hw x.value env
    refine ⟨s', .unchanged stands single same more, .inr ⟨.fault f, ?_⟩⟩
    rcases hp : segments path with _ | ⟨p, _ | ⟨q, qs⟩⟩ <;> rw [hp] at hw run
    · exact absurd hp (segments_ne_nil path)
    · cases hw
    · rw [setPath_long hp]
      change Eff.bind (Path.write (.ref data) _ _) _ env w = _
      unfold Eff.bind
      rw [show Path.write (.ref data) _ x.value env w = _ from run]

end Record

namespace Keeps

variable {I : Session κ → Prop}

theorem kept_bind {m : Eff κ α} {k : α → Eff κ β} (hm : I (m env w).2) (hk : ∀ a, Keeps I loose env (k a)) :
    I ((m >>= k) env w).2 :=
  kept_goingOn hk hm

theorem kept_contain {m : Eff κ α} {p : Fault → Bool} {handle : Fault → Eff κ α} (hm : I (m env w).2)
    (hh : ∀ f, Keeps I loose env (handle f)) : I ((Eff.contain m p handle) env w).2 := by
  unfold Eff.contain
  refine kept_bind ?_ fun r => ?_
  · unfold Eff.attempt
    rcases h : m env w with ⟨_ | _ | _ | _, w'⟩ <;> rw [h] at hm <;> exact hm
  · split <;> infer_instance

end Keeps

namespace Setting

open Keeps

variable (setting : Setting e a known quiet posts) (peaceful : env.Peaceful e a record known quiet posts)

include setting peaceful

/-- Whatever is made of the data as something is stored at a path lasts. -/
theorem setPath_upholds {P : Store → Prop} (lasting : Store.Lasting P) {data : Ref} (hw : known w)
    (held : (w.engine e).records.get? a = some record) (hb : w.store.Bears e a record n)
    (hr : w.store.record? record = some (data, .schedule e a)) (hx : w.store.Offers n x)
    (stored : ∀ {s'}, Written w.store s' n x (n.stored Ref.mk w.store.cells.size path x) → P s') :
    Session.Upholds known e a record P (Record.setPath data (.schedule e a) (.text path) x.value env w).2 := by
  obtain ⟨s', written, run⟩ := Record.setPath_written path env hb hr hx
  have there : Session.Upholds known e a record P (w.having s') :=
    ⟨setting.having s' hw, held, stored written⟩
  rcases run with run | ⟨o, run⟩
  · have := setting.keeps_request lasting peaceful
    rw [run]
    exact kept _ there
  · rw [run]
    exact there

/-- The result of a handler is stored at its path. -/
theorem writeBack_minds (hw : Session.Minds known e a record n w) (hx : w.store.Offers n x) :
    Session.Minds known e a record (n.returned Ref.mk w.store.cells.size path x)
      (Handler.writeBack record (.text path) x.value env w).2 := by
  have none : x.value.isNone = x.isNone := by cases x <;> rfl
  have asked : truthy (.text path) env w = (.value (path != ""), w) := rfl
  unfold Handler.writeBack returned
  rw [bind_value asked, none]
  by_cases hp : path = "" ∨ x.isNone
  · rw [if_pos hp, if_neg (by simpa [or_comm, imp_iff_not_or] using hp)]
    exact hw
  · rw [if_neg hp, if_pos (by simpa [and_comm] using hp)]
    obtain ⟨data, keys, cs, hn, hr⟩ := hw.store.root
    have (b : Notice) : Keeps (Session.Minds known e a record (n.stored Ref.mk w.store.cells.size path x)) loose env
        (notice b) :=
      setting.keeps_log _ _ _ (.notice b)
    refine kept_contain ?_ fun f => inferInstance
    unfold Handler.writeInto
    rw [Eff.bind_store, hr]
    exact setting.setPath_upholds peaceful (Store.bears_lasting e a record _) hw.known hw.held hw.store hr hx
      hw.store.written

/-- A handler that settles with data stores them and flushes. -/
theorem settle_minds (named : a.isNone = false) (hw : Session.Minds known e a record n w)
    (hx : w.store.Offers n x) :
    Session.Minds known e a record (n.returned Ref.mk w.store.cells.size path x)
      (Task.settle ⟨record, .text path, .flush e a⟩ (.ok x.value) env w).2 := by
  have := setting.keeps_flush (n := n.returned Ref.mk w.store.cells.size path x) peaceful named
  unfold Task.settle
  exact kept_bind (setting.writeBack_minds peaceful hw hx) fun _ => inferInstance

omit peaceful in
/-- A handler that fails changes nothing. -/
theorem settle_error (hw : Session.Minds known e a record n w) (job : Settlement) (f : Fault) :
    Session.Minds known e a record n (Task.settle job (.error f) env w).2 := by
  have (b : Notice) : Keeps (Session.Minds known e a record n) loose env (notice b) :=
    setting.keeps_log _ _ _ (.notice b)
  have : Keeps (Session.Minds known e a record n) loose env (Task.settle job (.error f)) := by
    unfold Task.settle
    infer_instance
  exact kept _ hw

end Setting

section Merging

variable {s s' : Store} {t : Mapping} {u : Ref} {k : String} {m : Placed} {us : List (String × Placed)}

/-- The cells that the values of some entries take up. -/
def entryRefs (us : List (String × Placed)) : List Ref := us.flatMap fun m => m.2.refs

/-- The mapping that some entries make up. -/
def mappingAt (u : Ref) (us : List (String × Placed)) : Placed :=
  branch u (.dict (us.map fun m => .text m.1)) (us.map Prod.snd)

theorem refs_mappingAt (u : Ref) (us : List (String × Placed)) : (mappingAt u us).refs = u :: entryRefs us := by
  rw [mappingAt, refs, List.flatMap_map]
  rfl

/-- Entries of a mapping, which is not part of the data of a record, are still to be stored into them. -/
structure Store.Merges (s : Store) (e : Nat) (a record : Value) (u : Ref) (t : Mapping)
    (us : List (String × Placed)) (n : Placed) : Prop where
  bears : s.Bears e a record n
  mapping : s.cell? u = some (.dict t)
  entries : ∀ m ∈ us, t.get? (.text m.1) = some m.2.value
  stands : ∀ m ∈ us, m.2.Stands s
  single : (u :: entryRefs us).Nodup
  apart : ∀ r ∈ n.refs, r ∉ u :: entryRefs us

theorem Store.merges_lasting (e : Nat) (a record : Value) (u : Ref) (t : Mapping) (us : List (String × Placed))
    (n : Placed) : Store.Lasting fun s => s.Merges e a record u t us n := by
  intro s s' h kept
  exact ⟨Store.bears_lasting e a record n h.bears kept, kept h.mapping, h.entries,
    fun m hm => (h.stands m hm).lasts kept, h.single, h.apart⟩

namespace Store.Merges

theorem offers (h : s.Merges e a record u t ((k, m) :: us) n) : s.Offers n m where
  stands := h.stands (k, m) List.mem_cons_self
  single := (List.nodup_append'.1 (List.nodup_cons.1 h.single).2).1
  apart r hr hm := h.apart r hr (List.mem_cons_of_mem _ (List.mem_append_left _ hm))

/-- Once an entry is stored the others are still to come. -/
theorem next (h : s.Merges e a record u t ((k, m) :: us) n)
    (hw : Written s s' n m (n.stored Ref.mk s.cells.size k m)) :
    s'.Merges e a record u t us (n.stored Ref.mk s.cells.size k m) := by
  obtain ⟨hu, single⟩ := List.nodup_cons.1 h.single
  obtain ⟨_, rest, disjoint⟩ := List.nodup_append'.1 single
  have bound : ∀ r ∈ u :: entryRefs us, r.index < s.cells.size := by
    intro r hr
    rcases List.mem_cons.1 hr with rfl | hr
    · exact (Array.getElem?_eq_some_iff.1 h.mapping).1
    · obtain ⟨m', hm', hr⟩ := List.mem_flatMap.1 hr
      exact (h.stands m' (List.mem_cons_of_mem _ hm')).bound hr
  have later : ∀ r ∈ u :: entryRefs us, r ∈ u :: entryRefs ((k, m) :: us) := by
    intro r hr
    exact (List.mem_cons.1 hr).elim (fun hr => hr ▸ List.mem_cons_self)
      fun hr => List.mem_cons_of_mem _ (List.mem_append_right _ hr)
  have same : ∀ r ∈ u :: entryRefs us, s'.cell? r = s.cell? r := fun r hr =>
    hw.frame r (fun hn => h.apart r hn (later r hr)) (bound r hr)
  refine ⟨h.bears.written hw, (same u List.mem_cons_self).trans h.mapping,
    fun m hm => h.entries m (List.mem_cons_of_mem _ hm), fun m' hm' => ?_, ?_, fun r hr hm => ?_⟩
  · refine (h.stands m' (List.mem_cons_of_mem _ hm')).frame fun r hr => same r ?_
    exact List.mem_cons_of_mem _ (List.mem_flatMap.2 ⟨m', hm', hr⟩)
  · exact List.nodup_cons.2 ⟨fun hm => hu (List.mem_append_right _ hm), rest⟩
  · rcases hw.origin r hr with hn | hx | hi
    · exact h.apart r hn (later r hm)
    · rcases List.mem_cons.1 hm with rfl | hm
      · exact hu (List.mem_append_left _ hx)
      · exact disjoint hx hm
    · exact absurd (bound r hm) (by omega)

end Store.Merges

variable (setting : Setting e a known quiet posts) (peaceful : env.Peaceful e a record known quiet posts)

include setting peaceful

/-- A merge that comes to its end has stored every entry, one after another. -/
theorem Setting.setEach_minds {data : Ref} (root : n.value = .ref data)
    (hw : Session.Upholds known e a record (·.Merges e a record u t us n) w)
    (run : Scope.setEach data (.schedule e a) (.ref u) t.size (us.map fun m => .text m.1) env w =
      (.value (), w')) :
    ∃ n', Session.Minds known e a record n' w' ∧
      n'.plain = us.foldl (fun p m => p.put m.1 m.2.plain) n.plain := by
  have found {w : Session κ} {n us} (hw : Session.Upholds known e a record (·.Merges e a record u t us n) w) :
      ((w.store.mapping? (.ref u)).getD .empty) = t := by
    simp [Store.mapping?, Store.look, hw.store.mapping]
  induction us generalizing n w with
  | nil =>
    rw [List.map_nil, Scope.setEach.eq_def] at run
    dsimp only at run
    rw [Eff.bind_store, found hw, if_neg (fun h => h rfl)] at run
    cases run
    exact ⟨n, ⟨hw.known, hw.held, hw.store.bears⟩, rfl⟩
  | cons m us ih =>
    rw [List.map_cons, Scope.setEach.eq_def] at run
    dsimp only at run
    rw [Eff.bind_store] at run
    simp only [found hw, ne_eq, not_true_eq_false, if_false, hw.store.entries m List.mem_cons_self,
      Option.getD_some] at run
    obtain ⟨_, w₁, stored, run⟩ := value_of_bind run
    have kept : Session.Upholds known e a record
        (·.Merges e a record u t us (n.stored Ref.mk w.store.cells.size m.1 m.2)) w₁ := by
      have (b : Notice) := setting.keeps_log env record
        (·.Merges e a record u t us (n.stored Ref.mk w.store.cells.size m.1 m.2)) (.notice b)
      rw [show w₁ = _ from (congrArg Prod.snd stored).symm]
      refine Keeps.kept_contain ?_ fun f => this .keyNotWritten
      exact setting.setPath_upholds peaceful (Store.merges_lasting e a record u t us _) hw.known hw.held
        hw.store.bears (hw.store.bears.record? root) hw.store.offers hw.store.next
    have same : (n.stored Ref.mk w.store.cells.size m.1 m.2).value = .ref data := by
      obtain ⟨_, keys, cs, rfl, _⟩ := hw.store.bears.root
      obtain ⟨keys', cs', hn⟩ := stored_root Ref.mk w.store.cells.size _ keys cs m.1 m.2
      rw [hn]
      exact root
    obtain ⟨n', minds, hn'⟩ := ih same kept run
    exact ⟨n', minds, by rw [hn', plain_stored]; rfl⟩

/-- Merging a mapping of plain data stores each of its entries. -/
theorem Setting.setState_minds (named : a.isNone = false) (hw : Session.Minds known e a record n w)
    (hx : w.store.Offers n (mappingAt u us)) (run : Scope.setState e a (.ref u) env w = (.value (), w')) :
    ∃ n', Session.Minds known e a record n' w' ∧
      n'.plain = us.foldl (fun p m => p.put m.1 m.2.plain) n.plain := by
  obtain ⟨data, keys, cs, rfl, hr⟩ := hw.store.root
  have found : Scope.find e a env w = (.value (some (a, record)), w) := by
    rcases Scope.find_own env named hw.held with found | found
    · obtain ⟨_, _, h, _⟩ := value_of_bind run
      rw [found] at h
      cases h
    · exact found
  have apart := hx.apart
  have single := hx.single
  rw [refs_mappingAt] at apart single
  cases hx.stands with
  | branch cell shows below =>
    obtain ⟨t, ht, rfl, hv⟩ := shows.cases.resolve_left fun h => nomatch h.1
    have hk : us.map (fun m => .text m.1) = t.keys := Shape.dict.inj ht
    have entries : ∀ m ∈ us, t.get? (.text m.1) = some m.2.value := by
      intro m hm
      have hz : t.entries = us.map fun m => (.text m.1, m.2.value) := by
        rw [t.entries_eq, ← hk, ← hv, List.map_map, List.zip_map']
        rfl
      exact t.get?_of_mem (hz ▸ List.mem_map_of_mem hm)
    have mapping : w.store.mapping? (.ref u) = some t := by simp [Store.mapping?, Store.look, cell]
    unfold Scope.setState at run
    rw [bind_value found] at run
    dsimp only at run
    rw [Eff.bind_store, mapping, hr] at run
    dsimp only at run
    rw [← hk] at run
    exact setting.setEach_minds peaceful rfl ⟨hw.known, hw.held, hw.store, cell, entries,
      fun m hm => below _ (List.mem_map_of_mem hm), single, apart⟩ run

end Merging

end ReactiveScopes
