import ReactiveScopes.Proofs.Conduct.Passes

/-!
# Attributes that mirror an expression

A directive that is bound to an attribute stores each value of its expression there. What it stores depends on what the
attribute holds by then, and that is what the directive has stored before. So the attribute mirrors the expression until
the expression is true for once: with that the attribute holds a truth value, and it keeps to truth values ever after.
-/
namespace ReactiveScopes

open Eff

variable {κ : Type} {s s' : Store} {target v x y : Value} {name : String} {env : Env κ} {w w' : Session κ}

namespace Store

theorem attachedTo_attach (s : Store) (v : Value) (name : String) (x : Value) :
    (s.attach v name x).attachedTo v name = some x := by
  simp [attach, attachedTo, Table.get?_insert]

/-- An attribute that has been set is read back. -/
theorem attribute?_setAttribute (set : s.setAttribute v name x = .ok s') : s'.attribute? v name = .ok (some x) := by
  cases v with
  | constant c =>
    rw [setAttribute] at set
    split at set
    · cases set
    · next free =>
      cases set
      simp [attribute?, attachedTo_attach, Option.not_isSome_iff_eq_none.1 free]
  | fn f =>
    cases set
    simp [attribute?, attachedTo_attach]
  | scope a =>
    cases set
    simp [attribute?, attachedTo_attach]
  | promise n =>
    rw [setAttribute] at set
    split at set
    · next task =>
      cases set
      simp [attribute?, attachedTo_attach, show (s.attach (.promise n) name x).awaitables = s.awaitables from rfl, task]
    · cases set
  | ref r =>
    rw [setAttribute] at set
    split at set
    · next o cell =>
      split at set
      · cases set
      · next free =>
        cases set
        have bound : r.index < s.cells.size := (Array.getElem?_eq_some_iff.1 cell).1
        have quiet : o.raising.get? name = none := by simpa [Table.contains] using free
        simp [attribute?, cell?_put bound, Object.read?, quiet, Table.get?_insert]
    · cases set
    · cases set
    · cases set
    · cases set
    · next part n members _ _ cell =>
      split at set
      · cases set
      · next free =>
        cases set
        have own : members.get? name = none := by simpa [Table.contains] using free
        have same : (s.attach (.ref r) name x).cell? r = s.cell? r := rfl
        simp [attribute?, same, cell, own, attachedTo_attach]
    · cases set
  | none | bool | int | float | nan | text | method | sealed => cases set

end Store

/-- An update of an attribute that goes through. -/
theorem Update.apply_attribute (went : (Update.attribute target name).apply v env w = (.value (), w')) :
    ∃ current s', w.store.attribute? target name = .ok current ∧ w' = { w with store := s' } ∧
      s'.attribute? target name = .ok (some (attributeValue w.store (current.getD .none) v)) := by
  change applyAttribute target name v env w = _ at went
  unfold applyAttribute at went
  rw [bind_store] at went
  cases read : w.store.attribute? target name with
  | error f =>
    rw [read] at went
    cases went
  | ok current =>
    rw [read, bind_ofExcept_ok] at went
    unfold setAttribute at went
    rw [bind_store] at went
    cases set : w.store.setAttribute target name (attributeValue w.store (current.getD .none) v) with
    | error f =>
      rw [set] at went
      cases went
    | ok s' =>
      rw [set] at went
      cases went
      exact ⟨current, s', rfl, rfl, Store.attribute?_setAttribute set⟩

namespace Mirror

/-- What an attribute that holds `current` becomes, given whether the value is true. -/
def next (truth : Bool) (current v : Value) : Value :=
  match current, v with
  | .bool _, _ => .bool truth
  | _, .bool false => .none
  | _, _ => v

/-- What an attribute holds after a directive has stored some values, the latest first. With each comes whether it was
true by then. -/
def held (first : Value) : List (Value × Bool) → Value
  | [] => first
  | (v, b) :: h => next b (held first h) v

variable {first : Value} {h : List (Value × Bool)} {b : Bool}

/-- What is stored is up to what the attribute holds. -/
theorem held_cons (first : Value) (h : List (Value × Bool)) (v : Value) (s : Store) :
    held first ((v, s.truthy v) :: h) = Update.attributeValue s (held first h) v := rfl

theorem next_free {current : Value} (free : ∀ b, current ≠ .bool b) (v : Value) :
    next b current v = if v = .bool false then .none else v := by
  unfold next
  split
  · next c => exact absurd rfl (free c)
  · simp
  · next other => exact (if_neg other).symm

/-- An attribute holds a truth value from the first time on that the value was `true`. -/
theorem held_isBool_iff (nonbool : ∀ b, first ≠ .bool b) :
    (∃ b, held first h = .bool b) ↔ .bool true ∈ h.map Prod.fst := by
  induction h with
  | nil => simpa [held] using nonbool
  | cons m h ih =>
    obtain ⟨v, b⟩ := m
    by_cases settled : .bool true ∈ h.map Prod.fst
    · obtain ⟨c, hc⟩ := ih.2 settled
      simp [held, hc, next, settled]
    · have free (c : Bool) : held first h ≠ .bool c := fun hc => settled (ih.1 ⟨c, hc⟩)
      rw [List.map_cons, List.mem_cons, or_iff_left settled, held, next_free free]
      cases v with
      | bool c => cases c <;> simp
      | _ => simp

/-- The latest value decides, together with whether one before it was `true`. -/
theorem held_latest (nonbool : ∀ b, first ≠ .bool b) (v : Value) (b : Bool) :
    held first ((v, b) :: h) =
      if .bool true ∈ h.map Prod.fst then .bool b else if v = .bool false then .none else v := by
  rw [held]
  by_cases settled : .bool true ∈ h.map Prod.fst
  · obtain ⟨c, hc⟩ := (held_isBool_iff nonbool).2 settled
    rw [if_pos settled, hc]
    rfl
  · rw [if_neg settled]
    exact next_free (fun c hc => settled ((held_isBool_iff nonbool).1 ⟨c, hc⟩)) v

/-- Whatever happens besides, it leaves the attribute as it is. -/
structure Apart (target : Value) (name : String) (w w' : Session κ) : Prop where
  made : ∀ {n : Nat} {c : Closure}, w.closures[n]? = some c → w'.closures[n]? = some c
  reads : w'.store.attribute? target name = w.store.attribute? target name

theorem Apart.of_append (more : Array Closure) (closures : w'.closures = w.closures ++ more)
    (reads : w'.store.attribute? target name = w.store.attribute? target name) : Apart target name w w' where
  made {n c} hn := by
    rw [closures, Array.getElem?_append_left (Array.getElem?_eq_some_iff.1 hn).1]
    exact hn
  reads := reads

/-- A directive has been bound to an attribute, and from then on its callable has been called in passes. With the course
go the values that the expression has taken, the latest first, and whether they were true. -/
inductive Course (host : Host κ) (d : Directive) (target : Value) (name : String) (first : Value) :
    Fn → List (Value × Bool) → Session κ → Prop where
  | bound {w w₁ w₂ w₃ w' : Session κ} {env : Env κ} {u : Fn} {v : Value} {current : Option Value}
      (ran : d.bind env w = (.value u, w')) (found : w.store.attribute? target name = .ok current)
      (start : current.getD .none = first)
      (watched : Scope.watch d.engine d.evaluation.scope (.fn (.made w.closures.size)) env (w.closing (.refresh d)) =
        (.value u, w₁))
      (gave : Scope.evaluate d.engine d.evaluation env w₁ = (.value v, w₂))
      (apart : Apart target name (w.closing (.refresh d)) w₂) (went : d.update.apply v env w₂ = (.value (), w₃)) :
      Course host d target name first (.made w.closures.size) [(v, w₂.store.truthy v)] w'
  | called {w w₁ w' : Session κ} {budget : Nat} {again : Fn} {h : List (Value × Bool)} {x v : Value}
      (course : Course host d target name first again h w)
      (ran : callFn again [] (Env.within host (budget + 1)) w = (.value x, w'))
      (gave : Scope.evaluate d.engine d.evaluation (Env.within host budget) w = (.value v, w₁))
      (apart : Apart target name w w₁) : Course host d target name first again ((v, w₁.store.truthy v) :: h) w'
  | meanwhile {w w' : Session κ} {again : Fn} {h : List (Value × Bool)}
      (course : Course host d target name first again h w) (apart : Apart target name w w') :
      Course host d target name first again h w'

variable {host : Host κ} {d : Directive} {again : Fn}

/-- Binding ends with the update that it makes. -/
theorem bind_update {w₁ w₂ w₃ : Session κ} {u : Fn} (ran : d.bind env w = (.value u, w'))
    (watched : Scope.watch d.engine d.evaluation.scope (.fn (.made w.closures.size)) env (w.closing (.refresh d)) =
      (.value u, w₁))
    (gave : Scope.evaluate d.engine d.evaluation env w₁ = (.value v, w₂))
    (went : d.update.apply v env w₂ = (.value (), w₃)) : w' = w₃ := by
  have refreshed : d.refresh env w₁ = (.value (), w₃) := (bind_value gave _).trans went
  unfold Directive.bind at ran
  rw [bind_close, bind_value watched, bind_value (contain_value refreshed)] at ran
  cases ran
  rfl

/-- The callable of a directive evaluates and updates. -/
theorem callFn_refresh {n budget : Nat} (made : w.closures[n]? = some (.refresh d))
    (ran : callFn (.made n) [] (Env.within host (budget + 1)) w = (.value x, w')) :
    d.refresh (Env.within host budget) w = (.value (), w') := by
  change applyValue host (.fn (.made n)) [] ⟨callWithin host budget, budget⟩ w = _ at ran
  unfold applyValue at ran
  dsimp only at ran
  rw [bind_read, made] at ran
  obtain ⟨_, w₁, refreshed, done⟩ := value_of_bind ran
  cases done
  exact refreshed

/-- What the values so far say of the attribute. -/
structure Kept (d : Directive) (target : Value) (name : String) (first : Value) (again : Fn) (h : List (Value × Bool))
    (w : Session κ) : Prop where
  made : ∃ n, again = .made n ∧ w.closures[n]? = some (.refresh d)
  nonempty : h ≠ []
  holds : w.store.attribute? target name = .ok (some (held first h))

/-- A value comes to the attribute. -/
theorem Kept.update {w₁ : Session κ} {current : Option Value} (update : d.update = .attribute target name)
    (made : ∃ n, again = .made n ∧ w₁.closures[n]? = some (.refresh d))
    (reads : w₁.store.attribute? target name = .ok current) (holds : current.getD .none = held first h)
    (went : d.update.apply v env w₁ = (.value (), w')) :
    Kept d target name first again ((v, w₁.store.truthy v) :: h) w' := by
  rw [update] at went
  obtain ⟨current', s', reads', rfl, set⟩ := Update.apply_attribute went
  rw [reads] at reads'
  cases reads'
  exact ⟨made, List.cons_ne_nil _ _, by rw [held_cons, ← holds]; exact set⟩

theorem Course.kept (update : d.update = .attribute target name) (course : Course host d target name first again h w) :
    Kept d target name first again h w := by
  induction course with
  | @bound w w₁ w₂ w₃ w' env u v current ran found start watched gave apart went =>
    obtain rfl := bind_update ran watched gave went
    have reads : w₂.store.attribute? target name = .ok current := apart.reads.trans found
    exact .update update ⟨_, rfl, apart.made Array.getElem?_push_size⟩ reads start went
  | called _ ran gave apart ih =>
    obtain ⟨n, rfl, hn⟩ := ih.made
    have refreshed := callFn_refresh hn ran
    unfold Directive.refresh at refreshed
    rw [bind_value gave] at refreshed
    exact .update update ⟨n, rfl, apart.made hn⟩ (apart.reads.trans ih.holds) rfl refreshed
  | meanwhile _ apart ih =>
    obtain ⟨n, rfl, hn⟩ := ih.made
    exact ⟨⟨n, rfl, apart.made hn⟩, ih.nonempty, apart.reads.trans ih.holds⟩

end Mirror

open Mirror

/-- A directive that is bound to an attribute which holds no truth value, and which nothing else sets, has at all times
stored the latest value of its expression there, with `none` in the place of `false`, as long as no value before it was
`true`. After one that was, the attribute holds whether the latest value is true. -/
theorem attribute_mirrors_until_true {d : Directive} {host : Host κ} {first : Value} {again : Fn}
    {h : List (Value × Bool)} (update : d.update = .attribute target name) (nonbool : ∀ b, first ≠ .bool b)
    (course : Course host d target name first again h w) :
    ∃ v b earlier, h = (v, b) :: earlier ∧
      (.bool true ∉ earlier.map Prod.fst → v ≠ .bool false →
        w.store.attribute? target name = .ok (some v)) ∧
      (.bool true ∉ earlier.map Prod.fst → v = .bool false →
        w.store.attribute? target name = .ok (some .none)) ∧
      (.bool true ∈ earlier.map Prod.fst → w.store.attribute? target name = .ok (some (.bool b))) := by
  have kept := course.kept update
  obtain ⟨⟨v, b⟩, earlier, rfl⟩ := List.exists_cons_of_ne_nil kept.nonempty
  have holds := kept.holds
  rw [held_latest nonbool] at holds
  refine ⟨v, b, earlier, rfl, fun free other => ?_, fun free cleared => ?_, fun settled => ?_⟩
  · rwa [if_neg free, if_neg other] at holds
  · rwa [if_neg free, if_pos cleared] at holds
  · rwa [if_pos settled] at holds

-- A widget without a label, and a scope with a label that changes.
namespace Mirror.Label

def host : Host Unit := fun _ => { body := fun _ => .done .none }

def scope : Value := .scope "a"

def widget : Value := .ref ⟨0⟩

def start : Session Unit where
  memory := ()
  store := { cells := #[.object { name := "w" }, .dict (Mapping.ofFields [("label", .text "Save")]),
    .record ⟨1⟩ (.schedule 0 scope)] }
  engines := Table.empty.insert 0 { records := Table.empty.insert scope (.ref ⟨2⟩) }

def directive : Directive where
  engine := 0
  evaluation := { scope := scope, source := .text "label", extras := .capabilities { el := widget } }
  update := .attribute widget "label"

def bound : Session Unit := (directive.bind (Env.within host 9) start).2

def evaluated (w : Session Unit) : Session Unit := (Scope.evaluate 0 directive.evaluation (Env.within host 9) w).2

def write (v : Value) (w : Session Unit) : Session Unit :=
  (w.run host 9 (.ask (.record (.ref ⟨2⟩) (.setItem (.text "label") v)))).2

def called (w : Session Unit) : Session Unit := (callFn (.made 0) [] (Env.within host 10) w).2

def watched : Session Unit :=
  (Scope.watch 0 scope (.fn (.made 0)) (Env.within host 9) (start.closing (.refresh directive))).2

theorem course : Course host directive widget "label" .none (.made 0)
    [(.int 5, true), (.bool false, false), (.text "Save", true)]
    (called (write (.int 5) (called (write (.bool false) bound)))) := by
  have first : Course host directive widget "label" .none (.made 0) [(.text "Save", true)] bound := by
    have ran : directive.bind (Env.within host 9) start = (.value (.made 1), bound) := rfl
    have found : start.store.attribute? widget "label" = .ok none := rfl
    have registered : Scope.watch 0 scope (.fn (.made 0)) (Env.within host 9) (start.closing (.refresh directive)) =
      (.value (.made 1), watched) := rfl
    have gave : Scope.evaluate 0 directive.evaluation (Env.within host 9) watched =
      (.value (.text "Save"), evaluated watched) := rfl
    have apart : Apart widget "label" (start.closing (.refresh directive)) (evaluated watched) :=
      .of_append #[.unsubscribe 0 scope (.fn (.made 0))] rfl rfl
    have went : directive.update.apply (.text "Save") (Env.within host 9) (evaluated watched) = (.value (), bound) :=
      rfl
    exact .bound ran found rfl registered gave apart went
  have second : Course host directive widget "label" .none (.made 0) [(.bool false, false), (.text "Save", true)]
      (called (write (.bool false) bound)) := by
    have changed : Apart widget "label" bound (write (.bool false) bound) := .of_append #[.pass 0 scope] rfl rfl
    have ran : callFn (.made 0) [] (Env.within host 10) (write (.bool false) bound) =
      (.value .none, called (write (.bool false) bound)) := rfl
    have gave : Scope.evaluate 0 directive.evaluation (Env.within host 9) (write (.bool false) bound) =
      (.value (.bool false), evaluated (write (.bool false) bound)) := rfl
    exact (first.meanwhile changed).called ran gave (.of_append #[] rfl rfl)
  have changed : Apart widget "label" (called (write (.bool false) bound))
      (write (.int 5) (called (write (.bool false) bound))) := .of_append #[] rfl rfl
  have ran : callFn (.made 0) [] (Env.within host 10) (write (.int 5) (called (write (.bool false) bound))) =
    (.value .none, called (write (.int 5) (called (write (.bool false) bound)))) := rfl
  have gave : Scope.evaluate 0 directive.evaluation (Env.within host 9)
      (write (.int 5) (called (write (.bool false) bound))) =
    (.value (.int 5), evaluated (write (.int 5) (called (write (.bool false) bound)))) := rfl
  exact (second.meanwhile changed).called ran gave (.of_append #[] rfl rfl)

end Mirror.Label

open Mirror.Label in
/-- A label that is cleared for a while shows the number that comes after it. -/
theorem attribute_mirrors_until_true_label :
    (called (write (.int 5) (called (write (.bool false) bound)))).store.attribute? widget "label" =
      .ok (some (.int 5)) := by
  obtain ⟨v, b, earlier, values, shows, -, -⟩ :=
    attribute_mirrors_until_true (κ := Unit) (d := directive) rfl (fun b => by simp) course
  cases values
  exact shows (by simp) (by simp)

open Mirror.Label in
/-- A label whose expression has been `true` holds the truth of a number that comes after it. -/
theorem attribute_keeps_truth_value :
    start.store.attribute? widget "label" = .ok none ∧
      (Scope.evaluate 0 directive.evaluation (Env.within host 9)
        (write (.int 5) (called (write (.bool true) bound)))).1 = .value (.int 5) ∧
      (called (write (.int 5) (called (write (.bool true) bound)))).store.attribute? widget "label" =
        .ok (some (.bool true)) :=
  ⟨rfl, rfl, rfl⟩

end ReactiveScopes
