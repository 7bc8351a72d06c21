import ReactiveScopes.Proofs.Literals
import ReactiveScopes.Proofs.OwnWrites

/-!
# Data that denote themselves

Each evaluation of plain data is made of cells of its own. So what is written into one result is found neither in the
node nor in another result, unless something has been written there before that they have in common: a path stores the
value itself, and a result that was stored in another one is part of both.
-/
namespace ReactiveScopes

open Eff Datum

variable {κ : Type} {w w' : Session κ} {s s' : Store} {H : Ref → Prop} {r : Ref} {a b u v z node : Value}
  {ps : List String} {nodes rs later earlier : List Value} {x y : Placed}

namespace Store

/-- No list and no dictionary is part of what both values lead to. -/
def Unshared (s : Store) (a b : Value) : Prop :=
  ∀ r c, s.cell? r = some c → c.isBranch → s.Below a (.ref r) → ¬ s.Below b (.ref r)

theorem Unshared.symm (h : s.Unshared a b) : s.Unshared b a :=
  fun r c cell branch hb ha => h r c cell branch ha hb

section Spares

theorem Spares.below (h : s.Spares v s') (below : s'.Below v u) : s.Below v u := below_of_look h below

theorem Spares.tame (h : s.Spares v s') (tame : s.Tame H v) : s'.Tame H v := by
  intro r below
  obtain ⟨free, c, cell, plain⟩ := tame r (h.below below)
  exact ⟨free, c, (h _ (h.below below)).trans cell, plain⟩

theorem Spares.unshared (ha : s.Spares a s') (hb : s.Spares b s') (h : s.Unshared a b) : s'.Unshared a b := by
  intro r c cell branch below below'
  have same : s'.cell? r = s.cell? r := ha _ (ha.below below)
  exact h r c (same.symm.trans cell) branch (ha.below below) (hb.below below')

end Spares

section Writing

variable (wrote : s.Wrote v u ps s')

include wrote

/-- What has no list and no dictionary in common with a value is left alone when something is written below that. -/
theorem Wrote.spares (tame : s.Tame H b) (unshared : s.Unshared v b) : s.Spares b s' := by
  intro y below
  cases wrote with
  | nothing => rfl
  | @slot way rest p r c d head s' leads cell stores stored others chain size beside =>
    cases y with
    | ref a =>
      obtain ⟨-, c', cell', -⟩ := tame a below
      have other : a ≠ r := by
        rintro rfl
        have branch : c.isBranch := by cases stores <;> rfl
        exact unshared a c cell branch leads.leads below
      exact others a other (Array.getElem?_eq_some_iff.1 cell').1
    | _ => rfl

/-- What shares nothing with a value, nor with what is written below it, shares nothing with it afterwards. -/
theorem Wrote.unshared (ta : s.Tame H a) (tu : s.Tame H u) (tb : s.Tame H b) (spares : s.Spares b s')
    (hab : s.Unshared a b) (hub : s.Unshared u b) : s'.Unshared a b := by
  intro r c cell branch below below'
  have there := spares.below below'
  obtain ⟨-, c', cell', -⟩ := tb r there
  have same : s'.cell? r = s.cell? r := spares _ there
  rcases wrote.below_of ta tu below with before | before | ⟨m, hm, lower, -⟩
  · exact hab r c (same.symm.trans cell) branch before there
  · exact hub r c (same.symm.trans cell) branch before there
  · cases hm
    exact absurd (Array.getElem?_eq_some_iff.1 cell').1 (Nat.not_lt.2 lower)

end Writing

end Store

/-- What can be written below, if anything can: a scalar, or a list or dictionary. -/
def Store.Yielded (s : Store) (v : Value) : Prop :=
  v.json?.isSome ∨ ∃ r c, v = .ref r ∧ s.cell? r = some c ∧ c.isBranch

namespace Path

/-- Writing below what an evaluation has given stores in one slot of a container in it, or nowhere. -/
theorem set_yielded (tame : s.Tame H v) (yielded : s.Yielded v) (path u : Value) :
    ∃ (o : Outcome Unit) (s' : Store), (s.Extends s' ∨ s.Wrote v u (s.segmentsOf path) s') ∧
      s.Gives (Path.set v path u : Eff κ Unit) o s' := by
  rcases yielded with scalar | ⟨r, c, rfl, cell, branch⟩
  · cases names : s.segmentsOf path with
    | nil =>
      refine ⟨.value (), s, .inl .refl, .read ?_⟩
      rw [names]
      exact .pure ()
    | cons p ps =>
      obtain ⟨s', more, run⟩ := Path.write_scalar (κ := κ) (s := s) scalar p ps u
      refine ⟨.fault .unsupported, s', .inl more, .read ?_⟩
      rwa [names]
  · rcases Path.write_slot (κ := κ) (s.segmentsOf path) cell branch tame.record? u with
      ⟨f, s', -, kept, run⟩ | ⟨s', wrote, run⟩
    · exact ⟨_, s', .inl kept, .read run⟩
    · exact ⟨_, s', .inr wrote, .read run⟩

end Path

namespace Datum

section Reaching

variable {t : Placed}

theorem Stands.mem_refs (h : t.Stands s) (same : t.value = .ref r) : r ∈ t.refs := by
  cases h with
  | leaf bare =>
    change _ = Value.ref r at same
    subst same
    cases bare
  | branch _ _ _ =>
    cases same
    rw [refs]
    exact List.mem_cons_self

/-- The cells of data are lists and dictionaries that lead to none but cells of the data. -/
theorem Stands.closed (h : t.Stands s) (hr : r ∈ t.refs) :
    ∃ c, s.cell? r = some c ∧ c.isBranch ∧ ∀ a, .ref a ∈ c.inside → a ∈ t.refs := by
  obtain ⟨shape, cs, c, cell, shows, below, part⟩ := h.part hr
  have inside : c.isBranch ∧ c.inside = cs.map value := by
    rcases shows.cases with ⟨_, rfl⟩ | ⟨t, _, rfl, values⟩
    · exact ⟨rfl, rfl⟩
    · exact ⟨rfl, values.symm⟩
  refine ⟨c, cell, inside.1, fun a ha => part.subset (mem_refs_branch.2 (.inr ?_))⟩
  rw [inside.2] at ha
  obtain ⟨x, hx, same⟩ := List.mem_map.1 ha
  exact ⟨x, hx, (below x hx).mem_refs same⟩

theorem Stands.tame (h : t.Stands s) : s.Tame (fun _ => False) t.value :=
  .of_cells t.refs (fun _ hr => ⟨id, h.closed hr⟩) fun _ => h.mem_refs

theorem Stands.mem_refs_of_below (h : t.Stands s) (below : s.Below t.value z) (hz : z = .ref r) : r ∈ t.refs := by
  induction below generalizing r with
  | refl => exact h.mem_refs hz
  | @tail y z _ holds ih =>
    subst hz
    obtain ⟨c, look, inside⟩ := holds
    cases y with
    | ref a =>
      obtain ⟨c', cell, -, inner⟩ := h.closed (ih rfl)
      cases cell.symm.trans look
      exact inner r inside
    | _ => cases look

theorem Stands.below_of_mem (h : t.Stands s) (hr : r ∈ t.refs) : s.Below t.value (.ref r) := by
  induction h with
  | leaf bare =>
    rw [refs] at hr
    cases hr
  | @branch r' shape cs c cell shows below ih =>
    rw [refs] at hr
    rcases List.mem_cons.1 hr with rfl | hr
    · exact .refl
    · obtain ⟨x, hx, hr⟩ := List.mem_flatMap.1 hr
      refine .head ⟨c, cell, ?_⟩ (ih x hx hr)
      rcases shows.cases with ⟨_, rfl⟩ | ⟨t, _, rfl, values⟩
      · exact List.mem_map_of_mem hx
      · rw [Cell.inside, ← values]
        exact List.mem_map_of_mem hx

end Reaching

theorem Anew.yielded (h : Anew s s' x y) (json : x.IsJson) : s'.Yielded y.value := by
  have same := h.same
  cases h.stands with
  | @leaf v bare =>
    cases json with
    | leaf scalar =>
      unfold plain at same
      rw [Datum.map, Datum.map] at same
      cases same
      exact .inl scalar
    | branch _ _ =>
      unfold plain at same
      rw [Datum.map, Datum.map] at same
      cases same
  | branch cell shows below =>
    refine .inr ⟨_, _, rfl, cell, ?_⟩
    rcases shows.cases with ⟨_, rfl⟩ | ⟨t, _, rfl, values⟩ <;> rfl

end Datum

theorem Node.spared (h : Node s x node) (spares : s.Spares node s') : Node s' x node := by
  cases h with
  | data stands => exact .data (stands.frame fun r hr => spares _ (stands.below_of_mem hr))
  | compiled look => exact .compiled ((spares _ .refl).trans look)

/-- A compiled expression leads to nothing else. -/
theorem Store.eq_of_below_expr {e : Expr} {parts : List Value} (cell : s.cell? r = some (.expr e parts))
    (below : s.Below (.ref r) z) : z = .ref r := by
  induction below with
  | refl => rfl
  | tail _ holds ih =>
    obtain ⟨c, look, inside⟩ := holds
    rw [ih] at look
    cases cell.symm.trans look
    cases inside

namespace Datum

/-- Nodes for the same data, and what evaluations of them have yielded: no two of all these have a list or a dictionary
in common. -/
structure Kept (x : Placed) (nodes rs : List Value) (s : Store) : Prop where
  compile : ∀ node ∈ nodes, Node s x node
  stood : ∃ s₀, x.Stands s₀
  tame : ∀ a ∈ nodes ++ rs, s.Tame (fun _ => False) a
  unshared : (nodes ++ rs).Pairwise s.Unshared
  yielded : ∀ v ∈ rs, s.Yielded v

/-- Nodes for the data, what evaluations of them have yielded so far, the latest first, and the session that has come of
it. A node may be compiled, and what is no longer of interest may be left out. Meanwhile anything may happen that leaves
alone what the nodes and the results lead to; and a value without records that has nothing in common with the others may
be written into one of the results, whether the path begins there or leads there from elsewhere. -/
inductive Course (x : Placed) : List Value → List Value → Session κ → Prop
  | given {w : Session κ} (stands : x.Stands w.store) : Course x [x.value] [] w
  | compiled {nodes rs : List Value} {node v : Value} {w w' : Session κ} {env : Env κ} (course : Course x nodes rs w)
      (among : node ∈ nodes) (ran : performPlain (.compile node) env w = (.value v, w')) : Course x (v :: nodes) rs w'
  | evaluated {nodes rs : List Value} {node state pub v : Value} {c : Capabilities} {w w' : Session κ} {env : Env κ}
      (course : Course x nodes rs w) (among : node ∈ nodes)
      (ran : reduce node state (.capabilities c) pub env w = (.value v, w')) : Course x nodes (v :: rs) w'
  | written {nodes later earlier : List Value} {u v : Value} {ps : List String} {w w' : Session κ}
      (course : Course x nodes (later ++ v :: earlier) w) (tame : w.store.Tame (fun _ => False) u)
      (unshared : ∀ b ∈ nodes ++ (later ++ earlier), w.store.Unshared u b) (wrote : w.store.Wrote v u ps w'.store) :
      Course x nodes (later ++ v :: earlier) w'
  | meanwhile {nodes rs : List Value} {w w' : Session κ} (course : Course x nodes rs w)
      (spares : ∀ b ∈ nodes ++ rs, w.store.Spares b w'.store) : Course x nodes rs w'
  | leaving {nodes nodes' rs rs' : List Value} {w : Session κ} (course : Course x nodes rs w)
      (fewer : nodes'.Sublist nodes) (fewer' : rs'.Sublist rs) : Course x nodes' rs' w

namespace Kept

theorem of_stands (h : x.Stands s) : Kept x [x.value] [] s where
  compile := List.forall_mem_singleton.2 (.data h)
  stood := ⟨s, h⟩
  tame := List.forall_mem_singleton.2 h.tame
  unshared := List.pairwise_singleton _ _
  yielded := List.forall_mem_nil _

theorem spared (h : Kept x nodes rs s) (spares : ∀ b ∈ nodes ++ rs, s.Spares b s') : Kept x nodes rs s' where
  compile node hn := (h.compile node hn).spared (spares node (List.mem_append_left _ hn))
  stood := h.stood
  tame a ha := (spares a ha).tame (h.tame a ha)
  unshared := h.unshared.imp_of_mem fun ha hb => (spares _ ha).unshared (spares _ hb)
  yielded v hv := by
    refine (h.yielded v hv).imp_right fun ⟨r, c, same, cell, isBranch⟩ => ?_
    subst same
    exact ⟨r, c, rfl, (spares _ (List.mem_append_right _ hv) _ .refl).trans cell, isBranch⟩

theorem sublist {nodes' rs' : List Value} (h : Kept x nodes rs s) (fewer : nodes'.Sublist nodes)
    (fewer' : rs'.Sublist rs) : Kept x nodes' rs' s where
  compile node hn := h.compile node (fewer.subset hn)
  stood := h.stood
  tame a ha := h.tame a ((fewer.append fewer').subset ha)
  unshared := h.unshared.sublist (fewer.append fewer')
  yielded v hv := h.yielded v (fewer'.subset hv)

theorem appended (h : Kept x nodes rs s) (appends : s.Appends s') : Kept x nodes rs s' :=
  h.spared fun b hb _ => (h.tame b hb).spares ⟨appends.size_le, fun _ => appends.kept⟩

/-- What is new has nothing in common with what was there. -/
theorem unshared_new (h : Kept x nodes rs s) (appends : s.Appends s')
    (new : ∀ r c, s'.cell? r = some c → c.isBranch → s'.Below v (.ref r) → s.cell? r = none) :
    ∀ b ∈ nodes ++ rs, s'.Unshared v b := by
  intro b hb r c cell branch below below'
  have spares : s.Spares b s' := fun _ => (h.tame b hb).spares ⟨appends.size_le, fun _ => appends.kept⟩
  obtain ⟨-, c', there, -⟩ := h.tame b hb r (spares.below below')
  cases there.symm.trans (new r c cell branch below)

theorem compiled {parts : List Value} (h : Kept x nodes rs s) (appends : s.Appends s')
    (cell : s'.cell? r = some (.expr x.expr parts)) : Kept x (.ref r :: nodes) rs s' := by
  have kept := h.appended appends
  have look : s'.look (.ref r) = some (.expr x.expr parts) := cell
  refine ⟨List.forall_mem_cons.2 ⟨.compiled look, kept.compile⟩, h.stood, ?_, ?_, kept.yielded⟩
  · refine List.forall_mem_cons.2 ⟨fun a below => ?_, kept.tame⟩
    cases Store.eq_of_below_expr cell below
    exact ⟨id, _, cell, by simp⟩
  · refine List.pairwise_cons.2 ⟨h.unshared_new appends fun a c there branch below => ?_, kept.unshared⟩
    cases Store.eq_of_below_expr cell below
    cases cell.symm.trans there
    cases branch

theorem evaluated (h : Kept x nodes rs s) (json : x.IsJson) (anew : Anew s s' x y) :
    Kept x nodes (y.value :: rs) s' := by
  have kept := h.appended anew.appends
  refine ⟨kept.compile, h.stood, fun a ha => ?_, ?_, List.forall_mem_cons.2 ⟨anew.yielded json, kept.yielded⟩⟩
  · rcases List.mem_cons.1 (List.perm_middle.subset ha) with rfl | ha
    · exact anew.stands.tame
    · exact kept.tame a ha
  · rw [List.pairwise_middle Store.Unshared.symm]
    refine List.pairwise_cons.2 ⟨h.unshared_new anew.appends fun r c _ _ below => ?_, kept.unshared⟩
    exact anew.fresh r (anew.stands.mem_refs_of_below below rfl)

/-- A result is among all that is kept, and so are the others. -/
theorem mem_of_other (hb : b ∈ nodes ++ (later ++ earlier)) : b ∈ nodes ++ (later ++ v :: earlier) := by
  simp only [List.mem_append, List.mem_cons] at hb ⊢
  tauto

section Writing

variable (h : Kept x nodes (later ++ v :: earlier) s)

include h

theorem apart :
    (∀ b ∈ nodes ++ (later ++ earlier), s.Unshared v b) ∧ (nodes ++ (later ++ earlier)).Pairwise s.Unshared := by
  have pairs := h.unshared
  rw [← List.append_assoc, List.pairwise_middle Store.Unshared.symm, List.append_assoc] at pairs
  exact List.pairwise_cons.1 pairs

/-- All but the result that is written into are left alone. -/
theorem spares (wrote : s.Wrote v u ps s') : ∀ b ∈ nodes ++ (later ++ earlier), s.Spares b s' :=
  fun b hb => wrote.spares (h.tame b (mem_of_other hb)) (h.apart.1 b hb)

theorem written (tame : s.Tame (fun _ => False) u) (unshared : ∀ b ∈ nodes ++ (later ++ earlier), s.Unshared u b)
    (wrote : s.Wrote v u ps s') : Kept x nodes (later ++ v :: earlier) s' := by
  have evolves : s.Evolves (fun _ => False) s' := .of_wrote (fun _ no => no.elim) tame wrote
  have spares := h.spares wrote
  obtain ⟨single, others⟩ := h.apart
  refine ⟨fun node hn => (h.compile node hn).spared (spares node (List.mem_append_left _ hn)), h.stood,
    fun a ha => evolves.tame (h.tame a ha), ?_, fun a ha => ?_⟩
  · rw [← List.append_assoc, List.pairwise_middle Store.Unshared.symm, List.append_assoc]
    refine List.pairwise_cons.2 ⟨fun b hb => ?_, others.imp_of_mem fun ha hb => ?_⟩
    · have tv : s.Tame (fun _ => False) v := h.tame v (by simp)
      exact wrote.unshared tv tame (h.tame b (mem_of_other hb)) (spares b hb) (single b hb) (unshared b hb)
    · exact (spares _ ha).unshared (spares _ hb)
  · refine (h.yielded a ha).imp_right fun ⟨r, c, same, cell, isBranch⟩ => ?_
    obtain ⟨c', cell', becomes⟩ := evolves.cells id cell
    refine ⟨r, c', same, cell', ?_⟩
    cases becomes <;> first | rfl | exact isBranch

end Writing

end Kept

theorem Course.kept (json : x.IsJson) (headless : x.Headless) {w : Session κ} (course : Course x nodes rs w) :
    Kept x nodes rs w.store := by
  induction course with
  | given stands => exact .of_stands stands
  | compiled course among ran ih =>
    obtain ⟨r, parts, s', compiles, cell, appends⟩ := (ih.compile _ among).compiles json headless
    cases (compiles _).symm.trans ran
    exact ih.compiled appends cell
  | evaluated course among ran ih =>
    obtain ⟨s₀, stood⟩ := ih.stood
    obtain ⟨y, s', evaluates, anew⟩ := (ih.compile _ among).denotes stood json headless _ _ _ _
    cases evaluates.symm.trans ran
    exact ih.evaluated json anew
  | written course tame unshared wrote ih => exact ih.written tame unshared wrote
  | meanwhile course spares ih => exact ih.spared spares
  | leaving course fewer fewer' ih => exact ih.sublist fewer fewer'

end Datum

/-- JSON data in which no list begins with a text denote themselves. Whatever has been done with them, the data and what
they have been compiled to evaluate to the same data, in cells that were not there before, and nothing else changes,
whatever the state and the capabilities are; compiling them always gives such a node. Writing along a path into a result
leaves alone what the nodes and the other results lead to, so evaluating a node afterwards gives the same. If what was
written holds no record, and no list and no dictionary of a node or another result, that goes on to be so. -/
theorem plain_data_denote_themselves (json : x.IsJson) (headless : x.Headless) (course : Course x nodes rs w) :
    (∀ node ∈ nodes, w.Denotes node x ∧ ∀ env : Env κ, ∃ v s',
      performPlain (.compile node) env w = (.value v, w.having s') ∧ w.store.Appends s' ∧ (w.having s').Denotes v x) ∧
    ∀ (later : List Value) (v : Value) (earlier : List Value), rs = later ++ v :: earlier →
      ∀ (path u : Value) (env : Env κ) o w', Path.set v path u env w = (o, w') →
        (∀ b ∈ nodes ++ (later ++ earlier), w.store.Spares b w'.store) ∧ (∀ node ∈ nodes, w'.Denotes node x) ∧
        (w.store.Tame (fun _ => False) u → (∀ b ∈ nodes ++ (later ++ earlier), w.store.Unshared u b) →
          Course x nodes rs w') := by
  have kept := course.kept json headless
  obtain ⟨s₀, stood⟩ := kept.stood
  refine ⟨fun node hn => ⟨(kept.compile node hn).denotes stood json headless, fun env => ?_⟩, ?_⟩
  · obtain ⟨r, parts, s', compiles, cell, appends⟩ := (kept.compile node hn).compiles json headless
    have look : s'.look (.ref r) = some (.expr x.expr parts) := cell
    exact ⟨_, s', compiles env, appends, Node.denotes (w := w.having s') (.compiled look) stood json headless⟩
  · rintro later v earlier rfl path u env o w' ran
    have hv : v ∈ nodes ++ (later ++ v :: earlier) := by simp
    obtain ⟨o', s', became, sets⟩ := Path.set_yielded (kept.tame v hv) (kept.yielded v (by simp)) path u
    cases (sets env w rfl).symm.trans ran
    have spares : ∀ b ∈ nodes ++ (later ++ earlier), w.store.Spares b s' := by
      rcases became with more | wrote
      · exact fun b hb _ => (kept.tame b (Kept.mem_of_other hb)).spares (.of_extends _ more)
      · exact kept.spares wrote
    refine ⟨spares, fun node hn => ?_, fun tame unshared => ?_⟩
    · exact ((kept.compile node hn).spared (spares node (List.mem_append_left _ hn))).denotes (w := w.having s') stood
        json headless
    · rcases became with more | wrote
      · exact .meanwhile course fun b hb _ => (kept.tame b hb).spares (.of_extends _ more)
      · exact .written course tame unshared wrote

/-- A list of a number and an empty dictionary under one key, and an empty text under another. -/
def Datum.parcel : Placed :=
  .branch ⟨0⟩ (.dict [.text "a", .text "b"])
    [.branch ⟨1⟩ .list [.leaf (.int 1), .branch ⟨2⟩ (.dict []) []], .leaf (.text "")]

/-- A session that holds these data and nothing else. -/
def Session.parcel : Session Unit where
  memory := ()
  store := { cells := #[.dict (Mapping.ofFields [("a", .ref ⟨1⟩), ("b", .text "")]), .list [.int 1, .ref ⟨2⟩],
    .dict .empty] }

/-- Evaluates a node without any state. -/
def Session.reduced (w : Session Unit) (node : Value) : Outcome Value × Session Unit :=
  reduce node .none (.capabilities {}) .none Env.unused w

theorem Session.parcel_stands :
    Datum.parcel.Stands Session.parcel.store ∧ Datum.parcel.IsJson ∧ Datum.parcel.Headless := by
  refine ⟨?_, ?_, ?_⟩
  · refine .branch (c := .dict (Mapping.ofFields [("a", .ref ⟨1⟩), ("b", .text "")])) rfl
      ⟨by decide +kernel, by decide +kernel⟩ ?_
    refine List.forall_mem_cons.2 ⟨?_, List.forall_mem_singleton.2 (.leaf rfl)⟩
    refine .branch (c := .list [.int 1, .ref ⟨2⟩]) rfl rfl ?_
    refine List.forall_mem_cons.2 ⟨.leaf rfl, List.forall_mem_singleton.2 ?_⟩
    exact .branch (c := .dict .empty) rfl ⟨rfl, rfl⟩ (List.forall_mem_nil _)
  · refine .branch (by simp [Shape.Keyed]) (List.forall_mem_cons.2 ⟨?_, List.forall_mem_singleton.2 (.leaf rfl)⟩)
    refine .branch trivial (List.forall_mem_cons.2 ⟨.leaf rfl, List.forall_mem_singleton.2 ?_⟩)
    exact .branch (by simp [Shape.Keyed]) (List.forall_mem_nil _)
  · refine .branch nofun (List.forall_mem_cons.2 ⟨?_, List.forall_mem_singleton.2 (.leaf _)⟩)
    refine .branch (fun _ t => by simp) (List.forall_mem_cons.2 ⟨.leaf _, List.forall_mem_singleton.2 ?_⟩)
    exact .branch nofun (List.forall_mem_nil _)

theorem plain_data_denote_themselves_parcel :
    let w₁ := (performPlain (.compile (.ref ⟨0⟩)) Env.unused Session.parcel).2
    let w₂ := (w₁.reduced (.ref ⟨12⟩)).2
    let w₃ := (w₂.reduced (.ref ⟨0⟩)).2
    let w₄ := (Path.set (.ref ⟨18⟩) (.text "a.1.k") (.int 5) Env.unused w₃).2
    w₄.store.getPath (.ref ⟨18⟩) (.text "a.1.k") = .ok (.int 5) ∧ w₃.store.Spares (.ref ⟨15⟩) w₄.store ∧
      w₄.Denotes (.ref ⟨0⟩) Datum.parcel ∧ w₄.Denotes (.ref ⟨12⟩) Datum.parcel := by
  intro w₁ w₂ w₃ w₄
  obtain ⟨stands, json, headless⟩ := Session.parcel_stands
  have compiled : (performPlain (.compile (.ref ⟨0⟩)) Env.unused Session.parcel).1 = .value (.ref ⟨12⟩) := by
    decide +kernel
  have first : (w₁.reduced (.ref ⟨12⟩)).1 = .value (.ref ⟨15⟩) := by decide +kernel
  have second : (w₂.reduced (.ref ⟨0⟩)).1 = .value (.ref ⟨18⟩) := by decide +kernel
  have set : (Path.set (.ref ⟨18⟩) (.text "a.1.k") (.int 5) Env.unused w₃).1 = .value () := by decide +kernel
  have read : w₄.store.getPath (.ref ⟨18⟩) (.text "a.1.k") = .ok (.int 5) := by decide +kernel
  have given : Course Datum.parcel [.ref ⟨0⟩] [] Session.parcel := .given stands
  have made : Course Datum.parcel [.ref ⟨12⟩, .ref ⟨0⟩] [] w₁ :=
    .compiled given List.mem_cons_self (Prod.ext compiled rfl)
  have once : Course Datum.parcel [.ref ⟨12⟩, .ref ⟨0⟩] [.ref ⟨15⟩] w₂ :=
    .evaluated made List.mem_cons_self (Prod.ext first rfl)
  have twice : Course Datum.parcel [.ref ⟨12⟩, .ref ⟨0⟩] [.ref ⟨18⟩, .ref ⟨15⟩] w₃ :=
    .evaluated once (List.mem_cons_of_mem _ List.mem_cons_self) (Prod.ext second rfl)
  obtain ⟨spares, denotes, -⟩ := (plain_data_denote_themselves json headless twice).2 [] (.ref ⟨18⟩) [.ref ⟨15⟩] rfl
    (.text "a.1.k") (.int 5) Env.unused _ w₄ (Prod.ext set rfl)
  exact ⟨read, spares _ (by simp), denotes _ (by simp), denotes _ (by simp)⟩

/-- A result that was written into another one is part of both, and what is then written into the one is found in the
other. Who is told of what is written into a record that was put into a result may write into another one. -/
theorem result_written_into_another :
    let telling : Env Unit :=
      .within (fun _ => { body := fun _ => Act.ask (.setPath (.ref ⟨8⟩) (.text "told") (.bool true)) }) 10
    let set (path : String) (u : Value) (w : Session Unit) := Path.set (.ref ⟨5⟩) (.text path) u telling w
    let w₁ := (Session.parcel.reduced (.ref ⟨0⟩)).2
    let w₂ := (w₁.reduced (.ref ⟨0⟩)).2
    let both := (set "z" (.ref ⟨8⟩) w₂).2
    let holding := (set "z" (.ref ⟨10⟩) (Client.wrap .none (some (.client "tell")) telling w₂).2).2
    (Datum.parcel.Stands Session.parcel.store ∧ Datum.parcel.IsJson ∧ Datum.parcel.Headless) ∧
    (Session.parcel.reduced (.ref ⟨0⟩)).1 = .value (.ref ⟨5⟩) ∧ (w₁.reduced (.ref ⟨0⟩)).1 = .value (.ref ⟨8⟩) ∧
    ((set "z" (.ref ⟨8⟩) w₂).1 = .value () ∧ both.store.getPath (.ref ⟨8⟩) (.text "a.1.k") = .ok .none ∧
      (set "z.a.1.k" (.int 5) both).1 = .value () ∧
      (set "z.a.1.k" (.int 5) both).2.store.getPath (.ref ⟨8⟩) (.text "a.1.k") = .ok (.int 5)) ∧
    holding.store.record? (.ref ⟨10⟩) = some (⟨9⟩, .fn (.client "tell")) ∧
      holding.store.getPath (.ref ⟨5⟩) (.text "z") = .ok (.ref ⟨10⟩) ∧
      holding.store.getPath (.ref ⟨8⟩) (.text "told") = .ok .none ∧
      (set "z.k" (.int 5) holding).1 = .value () ∧
      (set "z.k" (.int 5) holding).2.store.getPath (.ref ⟨8⟩) (.text "told") = .ok (.bool true) :=
  ⟨Session.parcel_stands, by decide +kernel⟩

end ReactiveScopes
