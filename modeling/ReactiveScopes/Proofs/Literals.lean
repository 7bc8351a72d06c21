import Mathlib.Data.List.Perm.Subperm
import ReactiveScopes.Proofs.PlainDict
import ReactiveScopes.Proofs.Shorthand

/-!
# Data as expressions

JSON data in which no list begins with a text are an expression that stands for them. Compiling takes them apart into
literals of arrays and objects, and evaluating these puts the same data together in cells that are all new.
-/
namespace ReactiveScopes

open Eff Datum

variable {κ : Type} {w w' : Session κ} {s s' s'' : Store} {r : Ref} {v : Value} {shape : Shape} {t x y : Placed}
  {cs : List Placed}

namespace Table

variable {α β : Type} [DecidableEq α]

/-- Entries stored under keys that are all different are there as they were given. -/
theorem entries_ofList {es : List (α × β)} (distinct : (es.map Prod.fst).Nodup) : (ofList es).entries = es := by
  have new {k : α} {b : β} {es : List (α × β)} (hk : k ∉ es.map Prod.fst) : storeIn k b es = es ++ [(k, b)] := by
    induction es with
    | nil => rfl
    | cons e es ih =>
      obtain ⟨other, hk⟩ := not_or.1 fun h => hk (List.mem_cons.2 h)
      rw [storeIn, if_neg (Ne.symm other), ih hk]
      rfl
  suffices h : ∀ (es : List (α × β)) (t : Table α β), ((t.entries ++ es).map Prod.fst).Nodup →
      (es.foldl (fun t e => t.insert e.1 e.2) t).entries = t.entries ++ es from h es .empty distinct
  intro es
  induction es with
  | nil => simp
  | cons e es ih =>
    intro t distinct
    have hk : e.1 ∉ t.entries.map Prod.fst := by
      rw [List.map_append, List.map_cons] at distinct
      exact fun hm => List.disjoint_of_nodup_append distinct hm List.mem_cons_self
    have stored : (t.insert e.1 e.2).entries = t.entries ++ [e] := new hk
    rw [List.foldl_cons, ih _ (by rwa [stored, List.append_assoc]), stored, List.append_assoc]
    rfl

end Table

namespace Store

/-- The same store with more cells. -/
def Appends (s s' : Store) : Prop := ∃ cells : Array Cell, s' = { s with cells := s.cells ++ cells }

namespace Appends

theorem refl (s : Store) : s.Appends s := ⟨#[], by simp⟩

theorem trans (h : s.Appends s') (h' : s'.Appends s'') : s.Appends s'' := by
  obtain ⟨cells, rfl⟩ := h
  obtain ⟨cells', rfl⟩ := h'
  exact ⟨cells ++ cells', by simp⟩

theorem alloc (s : Store) (c : Cell) : s.Appends (s.alloc c).2 := ⟨#[c], by simp [Store.alloc]⟩

theorem kept (h : s.Appends s') {c : Cell} (cell : s.cell? r = some c) : s'.cell? r = some c := by
  obtain ⟨cells, rfl⟩ := h
  obtain ⟨bound, -⟩ := Array.getElem?_eq_some_iff.1 cell
  exact (Array.getElem?_append_left bound).trans cell

theorem size_le (h : s.Appends s') : s.cells.size ≤ s'.cells.size := by
  obtain ⟨cells, rfl⟩ := h
  simp

theorem absent (h : s.Appends s') (gone : s'.cell? r = none) : s.cell? r = none := by
  cases cell : s.cell? r with
  | none => rfl
  | some c => cases gone.symm.trans (h.kept cell)

end Appends

end Store

namespace Datum

/-- No list begins with a text, so none of them is the application of an operator. -/
inductive Headless {α : Type} : Datum α → Prop
  | leaf (v : Value) : Headless (leaf v)
  | branch {a : α} {shape : Shape} {cs : List (Datum α)}
      (head : shape = .list → ∀ t, cs.head? ≠ some (.leaf (.text t))) (below : ∀ c ∈ cs, Headless c) :
      Headless (branch a shape cs)

/-- The expression that data are. -/
def expr {α : Type} : Datum α → Expr
  | leaf v => .literal v
  | branch _ .list cs => .array (cs.map expr)
  | branch _ (.dict keys) cs => .object ((keys.map fun k => k.text?.getD "").zip (cs.map expr))

section Trees

/-- Rows of data with the same values are the same if each of them is told by its value. -/
theorem eq_of_values {as bs : List Placed} (tell : ∀ a ∈ as, ∀ b ∈ bs, a.value = b.value → a = b)
    (values : as.map value = bs.map value) : as = bs := by
  induction as generalizing bs with
  | nil => exact (List.map_eq_nil_iff.1 values.symm).symm
  | cons a as ih =>
    cases bs with
    | nil => cases values
    | cons b bs =>
      obtain ⟨first, others⟩ := List.cons.inj values
      have rest : as = bs :=
        ih (fun a ha b hb => tell a (List.mem_cons_of_mem _ ha) b (List.mem_cons_of_mem _ hb)) others
      rw [tell a List.mem_cons_self b List.mem_cons_self first, rest]

/-- A value stands for the same data wherever it is met. -/
theorem Stands.unique (h : t.Stands s) (h' : x.Stands s) (same : t.value = x.value) : t = x := by
  induction h generalizing x with
  | @leaf v bare =>
    cases h' with
    | leaf _ => exact congrArg Datum.leaf same
    | branch _ _ _ =>
      change v = .ref _ at same
      subst same
      cases bare
  | @branch r shape cs c cell shows below ih =>
    cases h' with
    | @leaf v bare =>
      change Value.ref r = v at same
      subst same
      cases bare
    | @branch r' shape' cs' c' cell' shows' below' =>
      cases same
      cases cell.symm.trans cell'
      obtain ⟨rfl, values⟩ : shape = shape' ∧ cs.map value = cs'.map value := by
        rcases shows.cases with ⟨rfl, rfl⟩ | ⟨t, rfl, rfl, hv⟩
        · rcases shows'.cases with ⟨rfl, hc⟩ | ⟨_, _, hc, _⟩
          · exact ⟨rfl, Cell.list.inj hc⟩
          · cases hc
        · rcases shows'.cases with ⟨_, hc⟩ | ⟨t', rfl, hc, hv'⟩
          · cases hc
          · cases hc
            exact ⟨rfl, hv.trans hv'.symm⟩
      rw [eq_of_values (fun a ha b hb same => ih a ha (below' b hb) same) values]

/-- What lies below a branch takes up fewer cells. -/
theorem length_refs_lt (r : Ref) (shape : Shape) {c : Placed} (hc : c ∈ cs) :
    c.refs.length < (branch r shape cs).refs.length := by
  rw [refs, List.length_cons]
  exact Nat.lt_succ_of_le (refs_sublist hc).length_le

/-- Data are no part of themselves. -/
theorem Stands.self_not_below (h : t.Stands s) (ht : t = .branch r shape cs) {c : Placed} (hc : c ∈ cs) :
    r ∉ c.refs := by
  intro hr
  cases h with
  | leaf bare => cases ht
  | branch cell shows below =>
    cases ht
    have whole : (Datum.branch r shape cs).Stands s := .branch cell shows below
    obtain ⟨shape', cs', c', cell', shows', below', part⟩ := (below c hc).part hr
    rw [Stands.unique (.branch cell' shows' below') whole rfl] at part
    exact absurd (length_refs_lt r shape hc) (Nat.not_lt.2 part.length_le)

/-- There are no more cells to pass than there are cells. -/
theorem length_le_size {passed : List Ref} (single : passed.Nodup) (bound : ∀ r ∈ passed, r.index < s.cells.size) :
    passed.length ≤ s.cells.size := by
  have inside : passed.map Ref.index ⊆ List.range s.cells.size := by
    intro i hi
    obtain ⟨r, hr, rfl⟩ := List.mem_map.1 hi
    exact List.mem_range.2 (bound r hr)
  have distinct : (passed.map Ref.index).Nodup :=
    single.map fun a b same => by cases a; cases b; cases same; rfl
  simpa using (distinct.subperm inside).length_le

end Trees

section Compiling

variable {β : Type} {f : β → Raw} {g : β → Expr} {bs : List β}

theorem compileAll_map (h : ∀ b ∈ bs, (f b).compile = (g b, [])) : Raw.compileAll (bs.map f) = (bs.map g, []) := by
  induction bs with
  | nil => rfl
  | cons b bs ih =>
    rw [List.map_cons, Raw.compileAll, h b List.mem_cons_self, ih fun c hc => h c (List.mem_cons_of_mem _ hc)]
    rfl

theorem compileFields_zip (names : List String) (h : ∀ b ∈ bs, (f b).compile = (g b, [])) :
    Raw.compileFields (names.zip (bs.map f)) = (names.zip (bs.map g), []) := by
  induction bs generalizing names with
  | nil => cases names <;> rfl
  | cons b bs ih =>
    cases names with
    | nil => rfl
    | cons name names =>
      rw [List.map_cons, List.zip_cons_cons, Raw.compileFields, h b List.mem_cons_self,
        ih names fun c hc => h c (List.mem_cons_of_mem _ hc)]
      rfl

/-- A list whose head is no text is compiled item by item. -/
theorem compile_list (head : ∀ b ∈ bs.head?, (f b).word? = none) (h : ∀ b ∈ bs, (f b).compile = (g b, [])) :
    (Raw.list (bs.map f)).compile = (.array (bs.map g), []) := by
  cases bs with
  | nil =>
    unfold Raw.compile
    rfl
  | cons b bs =>
    rw [List.map_cons, Raw.compile, compileAll_map fun c hc => h c (List.mem_cons_of_mem _ hc)]
    dsimp only
    rw [head b rfl, h b List.mem_cons_self]
    rfl

theorem ofValueWithin_dict {t : Mapping} (cell : s.cell? r = some (.dict t)) (fuel : Nat) :
    Raw.ofValueWithin s (fuel + 1) (.ref r) =
      .object ((t.keys.map s.textOf).zip (t.values.map (Raw.ofValueWithin s fuel))) := by
  rw [List.zip_map, ← t.entries_eq]
  unfold Raw.ofValueWithin
  dsimp only
  rw [show s.look (.ref r) = some (.dict t) from cell]
  rfl

/-- Only a text is a word. -/
theorem word?_ofValueWithin (fuel : Nat) (h : v.text? = none) : (Raw.ofValueWithin s fuel v).word? = none := by
  cases fuel with
  | zero => rfl
  | succ fuel =>
    cases v with
    | text t => cases h
    | constant c => cases h
    | ref r =>
      unfold Raw.ofValueWithin
      dsimp only
      split <;> rfl
    | _ =>
      unfold Raw.ofValueWithin
      rfl

/-- What JSON data begin with is a text, or no text stands for it. -/
theorem IsJson.text? (json : t.IsJson) (h : ∀ p, t ≠ .leaf (.text p)) : t.value.text? = none := by
  cases json with
  | branch _ _ => rfl
  | @leaf v scalar =>
    cases v with
    | text p => exact absurd rfl (h p)
    | constant c => cases scalar
    | _ => rfl

/-- Data compile to the expression that they are. On the way down no cell is passed twice, so the size of the store
bounds how far down they go. -/
theorem Stands.compileWithin (h : t.Stands s) (json : t.IsJson) (headless : t.Headless) {passed : List Ref} {fuel : Nat}
    (single : passed.Nodup) (apart : ∀ r ∈ passed, r.index < s.cells.size ∧ r ∉ t.refs)
    (enough : s.cells.size < fuel + passed.length) : (Raw.ofValueWithin s fuel t.value).compile = (t.expr, []) := by
  induction h generalizing passed fuel with
  | @leaf v bare =>
    have few : passed.length ≤ s.cells.size := length_le_size single fun r hr => (apart r hr).1
    obtain ⟨fuel, rfl⟩ : ∃ n, fuel = n + 1 := ⟨fuel - 1, by omega⟩
    cases json with
    | leaf scalar =>
      rw [expr]
      cases v <;> first | rfl | cases scalar
  | @branch r shape cs c cell shows below ih =>
    have few : passed.length ≤ s.cells.size := length_le_size single fun r hr => (apart r hr).1
    obtain ⟨fuel, rfl⟩ : ∃ n, fuel = n + 1 := ⟨fuel - 1, by omega⟩
    have stands : (Datum.branch r shape cs).Stands s := .branch cell shows below
    have whole : (Datum.branch r shape cs).refs = r :: cs.flatMap refs := by rw [refs]
    cases json with
    | branch keyed inner =>
    cases headless with
    | branch head under =>
    have parts : ∀ c ∈ cs, (Raw.ofValueWithin s fuel c.value).compile = (c.expr, []) := by
      intro c hc
      have fresh : r ∉ passed := fun hr => (apart r hr).2 (whole ▸ List.mem_cons_self)
      refine ih c hc (inner c hc) (under c hc) (List.nodup_cons.2 ⟨fresh, single⟩) (fun a ha => ?_) ?_
      · rcases List.mem_cons.1 ha with rfl | ha
        · exact ⟨stands.bound (whole ▸ List.mem_cons_self), stands.self_not_below rfl hc⟩
        · refine ⟨(apart a ha).1, fun below => (apart a ha).2 ?_⟩
          exact whole ▸ List.mem_cons_of_mem _ (List.mem_flatMap.2 ⟨c, hc, below⟩)
      · rw [List.length_cons]
        omega
    rcases shows.cases with ⟨rfl, rfl⟩ | ⟨t, rfl, rfl, values⟩
    · rw [value, ofValueWithin_list cell, List.map_map, expr]
      refine compile_list (fun c hc => word?_ofValueWithin fuel ?_) parts
      refine (inner c (List.mem_of_mem_head? hc)).text? ?_
      rintro p rfl
      exact head rfl p hc
    · have names : t.keys.map s.textOf = t.keys.map fun k => k.text?.getD "" := by
        refine List.map_congr_left fun k hk => ?_
        obtain ⟨p, rfl⟩ := keyed k hk
        rfl
      have fields := compileFields_zip (f := Raw.ofValueWithin s fuel ∘ value)
        (t.keys.map fun k => k.text?.getD "") parts
      rw [value, ofValueWithin_dict cell, names, ← values, List.map_map, expr, Raw.compile, fields]

theorem Stands.compile (h : t.Stands s) (json : t.IsJson) (headless : t.Headless) :
    (Raw.ofValue s t.value).compile = (t.expr, []) :=
  h.compileWithin json headless List.nodup_nil (List.forall_mem_nil _) (by simp [Store.depth])

end Compiling

section Evaluating

/-- From `s` on the data `x` have been made anew: `y` is the same in cells that are new, each of them taken up once. -/
structure Anew (s s' : Store) (x y : Placed) : Prop where
  same : y.plain = x.plain
  stands : y.Stands s'
  single : y.refs.Nodup
  fresh : ∀ r ∈ y.refs, s.cell? r = none
  appends : s.Appends s'

/-- The same of several data, one after another. -/
structure RowAnew (s s' : Store) (xs ys : List Placed) : Prop where
  same : ys.map plain = xs.map plain
  stands : ∀ y ∈ ys, y.Stands s'
  single : (ys.flatMap refs).Nodup
  fresh : ∀ r ∈ ys.flatMap refs, s.cell? r = none
  appends : s.Appends s'

variable {xs ys : List Placed} {c : Context}

theorem RowAnew.nil (s : Store) : RowAnew s s [] [] :=
  ⟨rfl, List.forall_mem_nil _, List.nodup_nil, List.forall_mem_nil _, .refl s⟩

theorem RowAnew.cons (first : Anew s s' x y) (rest : RowAnew s' s'' xs ys) : RowAnew s s'' (x :: xs) (y :: ys) where
  same := by rw [List.map_cons, List.map_cons, first.same, rest.same]
  stands := List.forall_mem_cons.2 ⟨first.stands.lasts rest.appends.kept, rest.stands⟩
  single := by
    rw [List.flatMap_cons]
    refine List.nodup_append'.2 ⟨first.single, rest.single, fun r hr hr' => ?_⟩
    have there := first.stands.bound hr
    exact absurd (Array.getElem?_eq_none_iff.1 (rest.fresh r hr')) (Nat.not_le.2 there)
  fresh r hr := by
    rw [List.flatMap_cons] at hr
    exact (List.mem_append.1 hr).elim (first.fresh r) fun hr => first.appends.absent (rest.fresh r hr)
  appends := first.appends.trans rest.appends

/-- A new cell for the branch that the data below are put into. -/
theorem RowAnew.branch {d : Cell} (row : RowAnew s s' cs ys) (shows : shape.Shows d (ys.map value)) (r : Ref) :
    Anew s (s'.alloc d).2 (.branch r shape cs) (.branch ⟨s'.cells.size⟩ shape ys) where
  same := by
    unfold plain
    rw [Datum.map, Datum.map]
    exact congrArg (Datum.branch () shape) row.same
  stands := .branch Store.cell?_alloc_new shows fun y hy => (row.stands y hy).lasts (Store.Appends.alloc s' d).kept
  single := by
    rw [refs]
    refine List.nodup_cons.2 ⟨fun hr => ?_, row.single⟩
    obtain ⟨y, hy, hr⟩ := List.mem_flatMap.1 hr
    exact Nat.lt_irrefl _ ((row.stands y hy).bound hr)
  fresh a ha := by
    rw [refs] at ha
    rcases List.mem_cons.1 ha with rfl | ha
    · exact row.appends.absent (Array.getElem?_eq_none_iff.2 (Nat.le_refl _))
    · exact row.fresh a ha
  appends := row.appends.trans (.alloc s' d)

/-- The fields of an object are evaluated like the items of an array. -/
theorem evalFields_zip {env : Env κ} {es : List Expr} {vs : List Value} {names : List String}
    (long : names.length = es.length) (ran : Evaluation.evalAll c es env w = (.value vs, w')) :
    Evaluation.evalFields c (names.zip es) env w = (.value (names.zip vs), w') := by
  induction es generalizing names vs w with
  | nil =>
    cases List.length_eq_zero_iff.1 long
    cases ran
    rfl
  | cons e es ih =>
    cases names with
    | nil => cases long
    | cons name names =>
      rw [Evaluation.evalAll] at ran
      obtain ⟨v, w₁, first, ran⟩ := value_of_bind ran
      obtain ⟨us, w₂, others, ran⟩ := value_of_bind ran
      cases ran
      rw [List.zip_cons_cons, Evaluation.evalFields]
      exact (bind_value first _).trans (bind_value (ih (Nat.succ.inj long) others) _)

/-- An object whose fields have these texts as names is a dictionary with these keys. -/
theorem shows_ofFields {keys : List Value} {vs : List Value} (distinct : keys.Nodup)
    (keyed : ∀ k ∈ keys, ∃ p, k = .text p) (long : keys.length = vs.length) :
    (Shape.dict keys).Shows (.dict (Mapping.ofFields ((keys.map fun k => k.text?.getD "").zip vs))) vs := by
  generalize named : keys.map (fun k => k.text?.getD "") = names
  have texts : names.map Value.text = keys := by
    rw [← named, List.map_map]
    refine (List.map_congr_left fun k hk => ?_).trans (List.map_id keys)
    obtain ⟨p, rfl⟩ := keyed k hk
    rfl
  have pairs : (names.zip vs).map (Prod.map Value.text id) = keys.zip vs := by
    rw [← List.zip_map, texts, List.map_id]
  have first : (keys.zip vs).map Prod.fst = keys := List.map_fst_zip (Nat.le_of_eq long)
  have whole : (Mapping.ofFields (names.zip vs)).entries = keys.zip vs := by
    change (Table.ofList ((names.zip vs).map (Prod.map Value.text id))).entries = _
    rw [pairs]
    exact Table.entries_ofList (by rwa [first])
  constructor
  · rw [Table.keys, whole, first]
  · rw [Table.values, whole, List.map_snd_zip (Nat.le_of_eq long.symm)]

/-- One after another the items of a list of data are made anew. -/
theorem evalAll_anew (each : ∀ x ∈ xs, ∀ s : Store, ∃ (y : Placed) (s' : Store),
      s.Gives (Evaluation.eval c x.expr : Eff κ Value) (.value y.value) s' ∧ Anew s s' x y) (s : Store) :
    ∃ (ys : List Placed) (s' : Store),
      s.Gives (Evaluation.evalAll c (xs.map expr) : Eff κ (List Value)) (.value (ys.map value)) s' ∧
        RowAnew s s' xs ys := by
  induction xs generalizing s with
  | nil =>
    refine ⟨[], s, ?_, .nil s⟩
    rw [List.map_nil, Evaluation.evalAll]
    exact .pure _
  | cons x xs ih =>
    obtain ⟨y, s₁, first, anew⟩ := each x List.mem_cons_self s
    obtain ⟨ys, s', rest, row⟩ := ih (fun x hx => each x (List.mem_cons_of_mem _ hx)) s₁
    refine ⟨y :: ys, s', ?_, .cons anew row⟩
    rw [List.map_cons, Evaluation.evalAll]
    exact .bind first (.bind rest (.pure _))

/-- The expression that data are evaluates to the same data made anew, whatever the context. -/
theorem Stands.eval (h : x.Stands s) (json : x.IsJson) (c : Context) (s₁ : Store) :
    ∃ (y : Placed) (s' : Store), s₁.Gives (Evaluation.eval c x.expr : Eff κ Value) (.value y.value) s' ∧
      Anew s₁ s' x y := by
  induction h generalizing s₁ with
  | @leaf v bare =>
    refine ⟨.leaf v, s₁, ?_, rfl, .leaf bare, ?_, ?_, .refl s₁⟩
    · rw [expr, Evaluation.eval]
      exact .pure v
    all_goals
      rw [refs]
      simp
  | @branch r shape cs d cell shows below ih =>
    cases json with
    | branch keyed inner =>
    obtain ⟨ys, s', ran, row⟩ := evalAll_anew (fun x hx => ih x hx (inner x hx)) s₁
    have long : ys.length = cs.length := by simpa using congrArg List.length row.same
    rcases shows.cases with ⟨rfl, rfl⟩ | ⟨t, rfl, rfl, values⟩
    · have shown : Shape.list.Shows (.list (ys.map value)) (ys.map value) := rfl
      refine ⟨_, _, ?_, row.branch shown r⟩
      rw [expr, Evaluation.eval]
      exact .bind ran (s'.gives_alloc _)
    · have keys : t.keys.length = cs.length := by
        have same := congrArg List.length values
        simpa [Table.keys, Table.values] using same.symm
      have shown := shows_ofFields t.nodup_keys keyed (keys.trans (long.symm.trans (List.length_map value).symm))
      refine ⟨_, _, ?_, row.branch shown r⟩
      rw [expr, Evaluation.eval]
      have fields : s₁.Gives (Evaluation.evalFields c ((t.keys.map fun k => k.text?.getD "").zip (cs.map expr)) :
          Eff κ (List (String × Value))) (.value ((t.keys.map fun k => k.text?.getD "").zip (ys.map value))) s' :=
        fun env w hw => evalFields_zip (by simp [keys]) (ran env w hw)
      exact .bind fields (s'.gives_alloc _)

end Evaluating

end Datum

namespace Build

theorem bind_ok {α β : Type} {m : Build α} {a : α} (h : m s = .ok (a, s')) (k : α → Build β) :
    (m >>= k) s = k a s' := by
  change (do let x ← m s; k x.1 x.2) = _
  rw [h]
  rfl

/-- An expression is put into a cell once its parts have been put into a tuple. -/
theorem alloc_expr {m : Build (List Value)} {vs : List Value} (h : m s = .ok (vs, s')) (appends : s.Appends s')
    (e : Expr) (parts : Value → List Value) : ∃ r ps s'',
      (do let v ← tuple (← m); alloc (.expr e (parts v)) : Build Value) s = .ok (.ref r, s'') ∧
        s''.cell? r = some (.expr e ps) ∧ s.Appends s'' := by
  let s₁ := (s'.alloc (.tuple vs)).2
  have made : tuple vs s' = .ok (.ref ⟨s'.cells.size⟩, s₁) := rfl
  refine ⟨_, _, (s₁.alloc _).2, (bind_ok h _).trans (bind_ok made _), Store.cell?_alloc_new, ?_⟩
  exact (appends.trans (.alloc s' _)).trans (.alloc s₁ _)

mutual

/-- An expression can be put into the store, where it is in a cell of its own. -/
theorem expr_appends : ∀ (e : Expr) (s : Store), ∃ r parts s',
    Build.expr e s = .ok (.ref r, s') ∧ s'.cell? r = some (.expr e parts) ∧ s.Appends s'
  | .literal v, s => ⟨_, _, _, rfl, Store.cell?_alloc_new, .alloc s _⟩
  | .invalid reason, s => ⟨_, _, _, rfl, Store.cell?_alloc_new, .alloc s _⟩
  | .apply op args, s => by
    obtain ⟨vs, s', ran, appends⟩ := exprs_appends args s
    unfold Build.expr
    exact alloc_expr ran appends _ fun v => [.constant op.constant, v]
  | .array items, s => by
    obtain ⟨vs, s', ran, appends⟩ := exprs_appends items s
    unfold Build.expr
    exact alloc_expr ran appends _ fun v => [v]
  | .object fields, s => by
    obtain ⟨vs, s', ran, appends⟩ := exprFields_appends fields s
    unfold Build.expr
    exact alloc_expr ran appends _ fun v => [v]

theorem exprs_appends : ∀ (es : List Expr) (s : Store), ∃ vs s', Build.exprs es s = .ok (vs, s') ∧ s.Appends s'
  | [], s => ⟨[], s, rfl, .refl s⟩
  | e :: es, s => by
    obtain ⟨r, parts, s₁, first, -, appends⟩ := expr_appends e s
    obtain ⟨vs, s₂, rest, appends'⟩ := exprs_appends es s₁
    refine ⟨.ref r :: vs, s₂, ?_, appends.trans appends'⟩
    unfold Build.exprs
    exact (bind_ok first _).trans (bind_ok rest _)

theorem exprFields_appends : ∀ (fs : List (String × Expr)) (s : Store), ∃ vs s',
    Build.exprFields fs s = .ok (vs, s') ∧ s.Appends s'
  | [], s => ⟨[], s, rfl, .refl s⟩
  | (k, e) :: fs, s => by
    obtain ⟨r, parts, s₁, first, -, appends⟩ := expr_appends e s
    let s₂ := (s₁.alloc (.tuple [.text k, .ref r])).2
    have made : tuple [.text k, .ref r] s₁ = .ok (.ref ⟨s₁.cells.size⟩, s₂) := rfl
    obtain ⟨vs, s₃, rest, appends'⟩ := exprFields_appends fs s₂
    refine ⟨.ref ⟨s₁.cells.size⟩ :: vs, s₃, ?_, (appends.trans (.alloc s₁ _)).trans appends'⟩
    unfold Build.exprFields
    exact (bind_ok first _).trans ((bind_ok made _).trans (bind_ok rest _))

end

end Build

/-- A value that is compiled to the expression that the data are: the data themselves, or an expression already. -/
inductive Node (s : Store) (x : Placed) : Value → Prop
  | data (stands : x.Stands s) : Node s x x.value
  | compiled {v : Value} {parts : List Value} (look : s.look v = some (.expr x.expr parts)) : Node s x v

/-- Whatever the state, the capabilities and the client, evaluating the node gives the data anew and changes nothing. -/
def Session.Denotes (w : Session κ) (node : Value) (x : Placed) : Prop :=
  ∀ (state : Value) (c : Capabilities) (pub : Value) (env : Env κ), ∃ (y : Placed) (s' : Store),
    reduce node state (.capabilities c) pub env w = (.value y.value, w.having s') ∧ Anew w.store s' x y

namespace Node

variable {node : Value} {s₀ : Store}

theorem compile (h : Node s x node) (json : x.IsJson) (headless : x.Headless) :
    (Raw.ofValue s node).compile = (x.expr, []) := by
  cases h with
  | data stands => exact stands.compile json headless
  | @compiled _ parts look =>
    cases node with
    | ref r =>
      have raw : Raw.ofValue s (.ref r) = .compiled x.expr := by
        unfold Raw.ofValue Store.depth Raw.ofValueWithin
        dsimp only
        rw [look]
      rw [raw]
      unfold Raw.compile
      rfl
    | _ => cases look

theorem compileValue (h : Node w.store x node) (json : x.IsJson) (headless : x.Headless) (env : Env κ) :
    Scope.compileValue node env w = (.value x.expr, w) := by
  unfold Scope.compileValue
  rw [bind_store, h.compile json headless]
  rfl

theorem denotes (h : Node w.store x node) (stood : x.Stands s₀) (json : x.IsJson) (headless : x.Headless) :
    w.Denotes node x := by
  intro state c pub env
  obtain ⟨y, s', ran, anew⟩ := stood.eval (κ := κ) json ⟨state, c, pub⟩ w.store
  exact ⟨y, s', (bind_value (h.compileValue json headless env) _).trans (ran env w rfl), anew⟩

/-- Compiling the node always ends with a node for the same data in a cell of its own. -/
theorem compiles (h : Node w.store x node) (json : x.IsJson) (headless : x.Headless) :
    ∃ r parts s', (∀ env : Env κ, performPlain (.compile node) env w = (.value (.ref r), w.having s')) ∧
      s'.cell? r = some (.expr x.expr parts) ∧ w.store.Appends s' := by
  obtain ⟨r, parts, s', built, cell, appends⟩ := Build.expr_appends x.expr w.store
  refine ⟨r, parts, s', fun env => ?_, cell, appends⟩
  refine (bind_value (h.compileValue json headless env) _).trans ?_
  unfold build
  rw [built]
  rfl

end Node

end ReactiveScopes
