import ReactiveScopes.Proofs.Graph
import ReactiveScopes.Run

/-!
# Reading back what was written

In a graph that nowhere leads back into itself the way to a slot does not pass through the container that the slot is
in, so writing there leaves it as it is. What was written is then found along the same segments, and writing it once
more changes nothing.
-/
namespace ReactiveScopes

open Eff

variable {κ : Type} {w w' : Session κ} {s s' : Store} {root r : Ref} {c d : Cell} {v u x path : Value} {p : String}
  {ps : List String} {hook : Hook} {env : Env κ}

/-- What was stored in a slot is there. -/
theorem Cell.Stores.at? (h : c.Stores p x d) : d.at? p = some x := by
  cases h with
  | key t =>
    change (t.insert (.text p) x).get? (.text p) = some x
    rw [Table.get?_insert, if_pos rfl]
  | @item xs i names =>
    have bound := position?_lt names
    simp only [Cell.at?, List.length_set, names, Option.bind_some, List.getElem?_set_self bound]
  | @append xs names =>
    have slot : Shape.list.slot xs.length p = some xs.length := by simp [Shape.slot, names]
    have again : (Shape.list.add p).slot (max xs.length (xs.length + 1)) p = some xs.length :=
      Shape.slot_add trivial slot
    have other : ¬ (xs.length : Int) = ((xs.length + 1 : Nat) : Int) := by omega
    rw [Nat.max_eq_right (Nat.le_succ _)] at again
    simp only [Shape.add, Shape.slot, names, if_neg other] at again
    simp [Cell.at?, again]

/-- Storing in a slot what is there already changes nothing. -/
theorem Path.storeItem_self {xs : List Value} (h : (Cell.list xs).at? p = some x) : storeItem xs p x = .ok xs := by
  obtain ⟨i, hi, held⟩ := Option.bind_eq_some_iff.1 h
  have bound := position?_lt hi
  have slot : Shape.list.slot xs.length p = some i := by
    unfold Shape.slot
    dsimp only
    split
    · next hj => simp [position?, hj] at hi
    · next j hj =>
      split
      · next last =>
        rw [last] at hj
        simp [position?_length hj] at hi
      · exact hi
  rw [Shape.storeItem_slot slot x, storeAt_self held]

theorem Path.assign_self (cell : w.store.look v = some c) (found : c.at? p = some x) (env : Env κ) :
    assign v p x env w = (.value (), w) := by
  cases v with
  | ref r =>
    unfold assign
    rw [bind_store, cell]
    cases c with
    | list xs =>
      dsimp only
      rw [storeItem_self found]
      change (Outcome.value (), { w with store := w.store.put r (.list xs) }) = _
      rw [Store.put_self cell]
    | dict t =>
      change (Outcome.value (), { w with store := w.store.put r (.dict (t.insert (.text p) x)) }) = _
      rw [Table.insert_self found, Store.put_self cell]
    | _ => cases found
  | _ => cases cell

namespace Store

/-- What a value leads to never leads back to itself. -/
def Acyclic (s : Store) (v : Value) : Prop := ∀ {u}, s.Below v u → ¬ Relation.TransGen s.Holds u u

/-- Lists and dictionaries that a value leads to are as they were. -/
def Spares (s : Store) (v : Value) (s' : Store) : Prop := ∀ u, s.Below v u → s'.look u = s.look u

/-- Every cell holds only cells that come after it. -/
def Forward (s : Store) : Prop :=
  ∀ i : Fin s.cells.size, s.cells[i].inside.all fun v => v.ref?.all fun r => i.val < r.index

instance (s : Store) : Decidable s.Forward := inferInstanceAs (Decidable (∀ _, _))

theorem Forward.acyclic (h : s.Forward) (v : Value) : s.Acyclic v := by
  have step {a : Ref} {x : Value} (holds : s.Holds (.ref a) x) {b : Ref} (hx : x = .ref b) : a.index < b.index := by
    obtain ⟨c, cell, inside⟩ := holds
    obtain ⟨bound, hc⟩ := Array.getElem?_eq_some_iff.1 cell
    have all := List.all_eq_true.1 (h ⟨a.index, bound⟩) x (by simpa [hc] using inside)
    subst hx
    simpa [Value.ref?] using all
  have later {u x : Value} (path : Relation.TransGen s.Holds u x) {b : Ref} (hx : x = .ref b) :
      ∃ a, u = .ref a ∧ a.index < b.index := by
    induction path generalizing b with
    | @single x holds =>
      cases u with
      | ref a => exact ⟨a, rfl, step holds hx⟩
      | _ =>
        obtain ⟨c, cell, -⟩ := holds
        cases cell
    | @tail y x before holds ih =>
      cases y with
      | ref y =>
        obtain ⟨a, rfl, lt⟩ := ih rfl
        exact ⟨a, rfl, Nat.lt_trans lt (step holds hx)⟩
      | _ =>
        obtain ⟨c, cell, -⟩ := holds
        cases cell
  intro u _ cycle
  cases u with
  | ref a =>
    obtain ⟨b, same, lt⟩ := later cycle rfl
    cases same
    exact Nat.lt_irrefl _ lt
  | _ =>
    obtain ⟨y, ⟨c, cell, -⟩, -⟩ := Relation.TransGen.head'_iff.1 cycle
    cases cell

/-- A path that writing leaves as it is: one that is no cell, a tuple, or a list that is no part of the graph. The
segments in it are no cells. -/
inductive Aside (s : Store) (v : Value) : Value → Prop
  | bare {path : Value} (plain : path.ref? = none) : Aside s v path
  | tuple {path : Value} {items : List Value} (cell : s.look path = some (.tuple items))
      (plain : ∀ a ∈ items, a.ref? = none) : Aside s v path
  | list {path : Value} {items : List Value} (cell : s.look path = some (.list items)) (apart : ¬ s.Below v path)
      (plain : ∀ a ∈ items, a.ref? = none) : Aside s v path

theorem Spares.of_holds (h : s.Spares v s') (holds : s.Holds v u) : s.Spares u s' :=
  fun u below => h u (.head holds below)

namespace Way

theorem leads (h : s.Way v ps x) : s.Below v x := by
  induction h with
  | here v => exact .refl
  | step cell found on ih => exact .head ⟨_, cell, Cell.inside_of_at? found⟩ ih

theorem spared (h : s.Way v ps x) (spares : s.Spares v s') : s'.Way v ps x := by
  induction h with
  | here v => exact .here v
  | step cell found on ih =>
    have holds : s.Holds _ _ := ⟨_, cell, Cell.inside_of_at? found⟩
    exact .step ((spares _ .refl).trans cell) found (ih (spares.of_holds holds))

theorem append {qs : List String} (h : s.Way v ps u) (h' : s.Way u qs x) : s.Way v (ps ++ qs) x := by
  induction h with
  | here v => exact h'
  | step cell found on ih => exact .step cell found (ih h')

/-- No container before the last one on the way is the last one. -/
theorem outlasts (h : s.Way v ps (.ref r)) (acyclic : s.Acyclic v)
    (others : ∀ a, a ≠ r → a.index < s.cells.size → s'.cell? a = s.cell? a) : s'.Way v ps (.ref r) := by
  generalize hu : Value.ref r = u at h
  induction h with
  | here v => exact .here v
  | @step v _ x c p ps cell found on ih =>
    subst hu
    have holds : s.Holds v _ := ⟨c, cell, Cell.inside_of_at? found⟩
    have apart : v ≠ .ref r := by
      rintro rfl
      exact acyclic .refl (Relation.TransGen.head' holds on.leads)
    refine .step ?_ found (ih (fun below => acyclic (.head holds below)) rfl)
    cases v with
    | ref a =>
      have bound : a.index < s.cells.size := (Array.getElem?_eq_some_iff.1 cell).1
      exact (others a (fun h => apart (h ▸ rfl)) bound).trans cell
    | _ => cases cell

theorem readAlong (h : s.Way v ps x) : s.readAlong v ps = .ok x := by
  induction h with
  | here v =>
    unfold Store.readAlong
    rfl
  | @step v u x c p ps cell found on ih =>
    have child := Path.child_at? cell (Cell.isBranch_of_at? found) p
    rw [found, Option.getD_some] at child
    rw [Store.readAlong, child]
    · exact ih
    · rintro rfl
      cases cell

/-- Writing along the way what it leads to changes nothing. -/
theorem write_self (h : w.store.Way v ps x) (env : Env κ) : Path.write v ps x env w = (.value (), w) := by
  induction h with
  | here v => rfl
  | @step v u x c p ps cell found on ih =>
    cases on with
    | here => exact Path.assign_self cell found env
    | @step _ y _ c' q qs cell' found' on' =>
      have branch := Cell.isBranch_of_at? found
      have child := Path.child_at? cell branch p
      rw [found, Option.getD_some] at child
      have below : Path.below? w.store v p = some u := by
        unfold Path.below?
        rw [if_pos (Path.isContainer_of_branch cell branch), child]
        exact if_pos (Path.isContainer_of_branch cell' (Cell.isBranch_of_at? found'))
      unfold Path.write
      rw [bind_store, below]
      exact ih

end Way

theorem Chain.way {n : Nat} (h : s.Chain x n ps v) : s.Way v ps x := by
  induction h with
  | last n => exact .here x
  | @link n p ps v cell on ih =>
    refine .step (v := .ref ⟨n⟩) cell ?_ ih
    exact Table.get?_insert _ _ _ _ |>.trans (if_pos rfl)

/-- What was written into a graph is found along the same segments. -/
theorem Wrote.way (h : s.Wrote v x ps s') (acyclic : s.Acyclic v) (hps : ps ≠ []) : s'.Way v ps x := by
  cases h with
  | nothing => exact absurd rfl hps
  | slot leads cell stores stored others chain size beside =>
    exact (leads.outlasts acyclic others).append (.step stored stores.at? chain.way)

/-- The text of what is no cell is the same everywhere. -/
theorem textOf_bare (h : v.ref? = none) (s s' : Store) : s.textOf v = s'.textOf v := by
  have fuel (s : Store) : ∃ n, 2 * s.depth = n + 1 := ⟨2 * s.cells.size + 1, by unfold depth; omega⟩
  obtain ⟨n, hn⟩ := fuel s
  obtain ⟨n', hn'⟩ := fuel s'
  cases v with
  | ref r => cases h
  | text t => rfl
  | constant k => rfl
  | bool b => cases b <;> simp [textOf, shown, hn, hn', showWithin]
  | _ => simp [textOf, shown, hn, hn', showWithin]

/-- Such a path names the same segments afterwards. -/
theorem Wrote.segmentsOf (h : s.Wrote v x ps s') (aside : s.Aside v path) : s'.segmentsOf path = s.segmentsOf path := by
  have texts {items : List Value} (plain : ∀ a ∈ items, a.ref? = none) :
      items.map s'.textOf = items.map s.textOf :=
    List.map_congr_left fun a ha => textOf_bare (plain a ha) s' s
  cases h with
  | nothing => rfl
  | @slot way rest p r c d head s' leads cell stores stored others chain size beside =>
    have kept {a : Value} {b : Cell} (ha : s.look a = some b) (apart : a ≠ .ref r) : s'.look a = some b := by
      cases a with
      | ref a =>
        have bound : a.index < s.cells.size := (Array.getElem?_eq_some_iff.1 ha).1
        exact (others a (fun h => apart (h ▸ rfl)) bound).trans ha
      | _ => cases ha
    cases aside with
    | bare plain =>
      have look (s : Store) : s.sequence? path = none := by
        unfold sequence?
        cases path with
        | ref r => cases plain
        | _ => rfl
      unfold Store.segmentsOf
      rw [look, look, textOf_bare plain s' s]
    | tuple at_ plain =>
      have apart : path ≠ .ref r := by
        rintro rfl
        cases at_.symm.trans cell
        cases stores
      unfold Store.segmentsOf sequence?
      rw [at_, kept at_ apart]
      exact texts plain
    | list at_ outside plain =>
      have apart : path ≠ .ref r := by
        rintro rfl
        exact outside leads.leads
      unfold Store.segmentsOf sequence?
      rw [at_, kept at_ apart]
      exact texts plain

/-- A dictionary stays one. -/
theorem Wrote.dict (h : s.Wrote v x ps s') {t : Mapping} (dict : s.cell? root = some (.dict t)) :
    ∃ t', s'.cell? root = some (.dict t') := by
  cases h with
  | nothing => exact ⟨t, dict⟩
  | @slot way rest p r c d head s' leads cell stores stored others chain size beside =>
    by_cases same : root = r
    · subst same
      cases cell.symm.trans dict
      cases stores
      exact ⟨_, stored⟩
    · exact ⟨t, (others root same (Array.getElem?_eq_some_iff.1 dict).1).trans dict⟩

end Store

/-- What a hook does leaves alone what a value leads to. -/
def Hook.LeavesAlone (hook : Hook) (v : Value) (env : Env κ) : Prop :=
  ∀ key (w : Session κ), w.store.Spares v (Record.report hook key env w).2.store

/-- Once the segments lead to the value in the data of a record, writing it there again leaves the store to the hook. -/
theorem Record.setPath_self {t : Mapping} (dict : w.store.cell? root = some (.dict t))
    (names : w.store.segmentsOf path = ps) (hps : ps ≠ []) (way : w.store.Way (.ref root) ps x) (hook : Hook)
    (env : Env κ) :
    setPath root hook path x env w = (.value (), w) ∨
      ∃ key, setPath root hook path x env w = report hook key env w := by
  unfold setPath
  rw [bind_store, names]
  rcases ps with _ | ⟨p, _ | ⟨q, qs⟩⟩
  · exact absurd rfl hps
  · refine .inl ?_
    cases way with
    | step cell found on =>
      cases on
      cases cell.symm.trans dict
      have held : fields w.store root = t := by simp [fields, Store.mapping?, Store.look, dict]
      have item : setItem root hook (.text p) x env w =
          (if changed (w.store.put root (.dict ((fields w.store root).insert (.text p) x)))
              ((fields w.store root).get? (.text p)) x then report hook (.text p) else pure ()) env
            (w.having (w.store.put root (.dict ((fields w.store root).insert (.text p) x)))) := rfl
      have there : t.get? (.text p) = some x := found
      dsimp only
      rw [item, held, there, Table.insert_self there, Store.put_self dict]
      have same : changed w.store (some x) x = false := by simp [changed, Store.identical_self]
      rw [same]
      rfl
  · exact .inr ⟨.text p, bind_value (way.write_self env) _⟩

/-- In a graph that nowhere leads back into itself, a write along a path of at least one segment that returns can be
read back along the same segments, and so by the path itself if that still names them: then the value is the one that
was written, and writing it again changes nothing. A path that is no part of the graph, nor anything in it, names the
same segments. A record whose hook leaves its data alone does the same. -/
theorem set_path_reads_back (graph : w.store.Graph root) (acyclic : w.store.Acyclic (.ref root)) {path : Value}
    (given : path ≠ .none) (segments : w.store.segmentsOf path ≠ []) (x : Value) :
    (∀ env w', Path.set (.ref root) path x env w = (.value (), w') →
      w'.store.readAlong (.ref root) (w.store.segmentsOf path) = .ok x ∧
      (w.store.Aside (.ref root) path → w'.store.segmentsOf path = w.store.segmentsOf path) ∧
      (w'.store.segmentsOf path = w.store.segmentsOf path →
        w'.store.getPath (.ref root) path = .ok x ∧
        ∀ env', Path.set (.ref root) path x env' w' = (.value (), w'))) ∧
    ∀ (hook : Hook) env w', hook.LeavesAlone (.ref root) env →
      Record.setPath root hook path x env w = (.value (), w') →
        w'.store.readAlong (.ref root) (w.store.segmentsOf path) = .ok x ∧
        (w'.store.segmentsOf path = w.store.segmentsOf path →
          w'.store.getPath (.ref root) path = .ok x ∧
          w'.store.Spares (.ref root) (Record.setPath root hook path x env w').2.store) := by
  obtain ⟨t, dict⟩ := graph.dict
  have get {s : Store} (way : s.Way (.ref root) (w.store.segmentsOf path) x)
      (same : s.segmentsOf path = w.store.segmentsOf path) : s.getPath (.ref root) path = .ok x := by
    rw [← same] at way
    unfold Store.getPath
    split
    · exact absurd rfl given
    · exact way.readAlong
  refine ⟨fun env w' returned => ?_, fun hook env w' spares returned => ?_⟩
  · rcases Path.write_slot (κ := κ) (w.store.segmentsOf path) dict rfl graph.plain x with
      ⟨f, s', _, _, run⟩ | ⟨s', wrote, run⟩
    · cases (run env w rfl).symm.trans returned
    · cases (run env w rfl).symm.trans returned
      have way := wrote.way acyclic segments
      refine ⟨way.readAlong, wrote.segmentsOf, fun same => ⟨get way same, fun env' => ?_⟩⟩
      unfold Path.set
      rw [bind_store, same]
      exact way.write_self (w := w.having s') env'
  · rcases Record.setPath_slot (κ := κ) graph path x with ⟨f, s', _, run⟩ | ⟨s', p, ps, names, wrote, ends⟩
    · cases (run hook env w rfl).symm.trans returned
    · have spared : s'.Spares (.ref root) w'.store := by
        rcases ends hook env w rfl with told | ⟨-, silent⟩
        · have spared := spares (.text p) (w.having s')
          rwa [← told, returned] at spared
        · cases silent.symm.trans returned
          exact fun _ _ => rfl
      have way : w'.store.Way (.ref root) (w.store.segmentsOf path) x := by
        rw [names]
        exact (wrote.way acyclic (List.cons_ne_nil p ps)).spared spared
      obtain ⟨t', dict'⟩ := wrote.dict dict
      refine ⟨way.readAlong, fun same => ⟨get way same, ?_⟩⟩
      rcases Record.setPath_self ((spared _ .refl).trans dict') same segments way hook env with silent | ⟨key, told⟩
      · rw [silent]
        exact fun _ _ => rfl
      · rw [told]
        exact spares key w'

/-- Calls do not matter where there is nobody to be told. -/
def Env.unused : Env Unit := .within (fun _ => { body := fun _ => .quit }) 0

/-- A dictionary that holds a list twice; beside it a path to what comes behind the item of the list. -/
def Session.shared : Session Unit where
  memory := ()
  store := { cells := #[.dict (Mapping.ofFields [("a", .ref ⟨1⟩), ("b", .ref ⟨1⟩)]), .list [.int 1],
    .tuple [.text "b", .int 1]] }

theorem set_path_reads_back_shared :
    (Path.set (.ref ⟨0⟩) (.ref ⟨2⟩) (.ref ⟨0⟩) Env.unused Session.shared).2.store.getPath (.ref ⟨0⟩) (.ref ⟨2⟩) =
        .ok (.ref ⟨0⟩) ∧
      (Record.setPath ⟨0⟩ .none (.text "b.1.c") (.int 5) Env.unused Session.shared).2.store.getPath (.ref ⟨0⟩)
        (.text "b.1.c") = .ok (.int 5) := by
  have graph : Session.shared.store.Graph ⟨0⟩ := .of_isPlain rfl (by decide +kernel)
  have acyclic : Session.shared.store.Acyclic (.ref ⟨0⟩) := Store.Forward.acyclic (by decide +kernel) _
  have aside : Session.shared.store.Aside (.ref ⟨0⟩) (.ref ⟨2⟩) := .tuple rfl (by decide +kernel)
  have told : Hook.none.LeavesAlone (.ref ⟨0⟩) Env.unused := fun _ _ _ _ => rfl
  refine ⟨?_, ?_⟩
  · have returned : (Path.set (.ref ⟨0⟩) (.ref ⟨2⟩) (.ref ⟨0⟩) Env.unused Session.shared).1 = .value () := by
      decide +kernel
    obtain ⟨-, names, get⟩ := (set_path_reads_back graph acyclic (by decide +kernel) (by decide +kernel)
      (.ref ⟨0⟩)).1 Env.unused _ (Prod.ext returned rfl)
    exact (get (names aside)).1
  · have returned : (Record.setPath ⟨0⟩ .none (.text "b.1.c") (.int 5) Env.unused Session.shared).1 = .value () := by
      decide +kernel
    obtain ⟨-, get⟩ := (set_path_reads_back graph acyclic (by decide +kernel) (by decide +kernel) (.int 5)).2
      .none Env.unused _ told (Prod.ext returned rfl)
    exact (get rfl).1

/-- Beside a dictionary an empty tuple, and in it a list that is the path to itself. -/
def Session.unplaced : Session Unit where
  memory := ()
  store := { cells := #[.dict (Mapping.ofFields [("p", .ref ⟨2⟩)]), .tuple [], .list [.text "p", .text "0"]] }

/-- Reads from a record what was just written there, once its hook has emptied it. -/
def Act.emptied : Act Unit Value := do
  let record ← Act.ask (.wrap .none (some (.client "clear")))
  let _ ← Act.ask (.record record (.setPath (.text "a") (.int 5)))
  Act.ask (.record record (.getPath (.text "a")))

/-- Without segments nothing is written, a list may be the path to itself, and a hook may take out what was written. -/
theorem set_path_not_read_back :
    Session.unplaced.store.Graph ⟨0⟩ ∧ Session.unplaced.store.Acyclic (.ref ⟨0⟩) ∧
    (Path.set (.ref ⟨0⟩) (.ref ⟨1⟩) (.int 5) Env.unused Session.unplaced).1 = .value () ∧
    (Path.set (.ref ⟨0⟩) (.ref ⟨1⟩) (.int 5) Env.unused Session.unplaced).2.store.getPath (.ref ⟨0⟩) (.ref ⟨1⟩) =
      .ok (.ref ⟨0⟩) ∧
    (Path.set (.ref ⟨0⟩) (.ref ⟨2⟩) (.int 5) Env.unused Session.unplaced).1 = .value () ∧
    (Path.set (.ref ⟨0⟩) (.ref ⟨2⟩) (.int 5) Env.unused Session.unplaced).2.store.getPath (.ref ⟨0⟩) (.ref ⟨2⟩) =
      .ok .none ∧
    (Session.run (fun _ => { body := fun _ => Act.ask (.record (.ref ⟨1⟩) .clear) }) 10 Act.emptied
      { memory := () }).1 = .value .none := by
  refine ⟨.of_isPlain rfl (by decide +kernel), Store.Forward.acyclic (by decide +kernel) _, ?_⟩
  decide +kernel

end ReactiveScopes
