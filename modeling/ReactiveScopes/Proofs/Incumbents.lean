import ReactiveScopes.Proofs.Conduct.Passes

/-!
# Who holds an office

The named handlers and the publish function are the offices of an engine. Each is held by one callable at most, the one
that was appointed last. An appointment gives a callable that dismisses whom it appointed, and that may be called at any
time and any number of times. It looks at who holds the office by then, and so it never dismisses a successor.
-/
namespace ReactiveScopes

open Eff

variable {κ : Type} {e : Nat} {f : Value} {u : Fn}

/-- What an engine has one callable for. -/
inductive Office where
  | handler (name : String)
  | publisher
  deriving DecidableEq

namespace Office

variable {o : Office} {w w₀ w' : Session κ} {env : Env κ}

def holder (x : Engine) : Office → Option Value
  | handler name => x.handlers.get? name
  | publisher => if x.pub.isNone then none else some x.pub

/-- What the callable does that an appointment gives. -/
def dismissal (e : Nat) (f : Value) : Office → Closure
  | handler name => .unregister e name f
  | publisher => .detach e f

/-- The engine when a callable has taken an office. -/
def fill (o : Office) (f : Value) (x : Engine) : Engine :=
  match o with
  | handler name => { x with handlers := x.handlers.insert name f }
  | publisher => { x with pub := f }

/-- The engine when a callable holds an office no longer. -/
def clear (o : Office) (f : Value) (x : Engine) : Engine :=
  match o with
  | handler name => if x.handlers.get? name = some f then { x with handlers := x.handlers.erase name } else x
  | publisher => if x.pub = f then { x with pub := .none } else x

theorem isNone_of_isCallable (callable : f.isCallable) : f.isNone = false := by
  cases f <;> first | rfl | cases callable

theorem holder_fill (callable : f.isCallable) (o q : Office) (x : Engine) :
    q.holder (o.fill f x) = if o = q then some f else q.holder x := by
  cases o with
  | handler name =>
    cases q with
    | handler other => simp [holder, fill, Table.get?_insert]
    | publisher => exact (if_neg nofun).symm
  | publisher =>
    cases q with
    | handler other => simp [holder, fill]
    | publisher => simp [holder, fill, isNone_of_isCallable callable]

theorem holder_clear (f : Value) (o q : Office) (x : Engine) :
    q.holder (o.clear f x) = if o = q ∧ q.holder x = some f then none else q.holder x := by
  cases o with
  | handler name =>
    cases q with
    | handler other =>
      by_cases held : x.handlers.get? name = some f
      · by_cases same : name = other
        · subst same
          simp [holder, clear, held, Table.get?_erase]
        · simp [holder, clear, held, same, Table.get?_erase]
      · by_cases same : name = other
        · subst same
          simp [holder, clear, held]
        · simp [holder, clear, held, same]
    | publisher => by_cases held : x.handlers.get? name = some f <;> simp [holder, clear, held]
  | publisher =>
    cases q with
    | handler other => by_cases held : x.pub = f <;> simp [holder, clear, held]
    | publisher =>
      by_cases held : x.pub = f
      · simp [holder, clear, held, Value.isNone]
      · cases vacant : x.pub.isNone <;> simp [holder, clear, held, vacant]

/-- Something that offices undergo. -/
inductive Move where
  /-- A callable is appointed, which gives another one. -/
  | appoint (o : Office) (f : Value) (u : Fn)
  /-- What an appointment of a callable gave is called. -/
  | dismiss (o : Office) (f : Value)
  deriving DecidableEq

/-- Whatever else happens, it concerns no office of the engine. -/
structure Apart (e : Nat) (w w' : Session κ) : Prop where
  made : ∀ {n : Nat} {c : Closure}, w.closures[n]? = some c → w'.closures[n]? = some c
  offices : ∀ o : Office, o.holder (w'.engine e) = o.holder (w.engine e)

/-- A run and the moves that it made, the latest first. -/
inductive Course (host : Host κ) (e : Nat) (w₀ : Session κ) : List Move → Session κ → Prop where
  | start : Course host e w₀ [] w₀
  | register {h : List Move} {w w' : Session κ} {env : Env κ} {name f : Value} {n : String} {u : Fn}
      (course : Course host e w₀ h w) (named : name.text? = some n)
      (ran : Handler.register e name f env w = (.value u, w')) :
      Course host e w₀ (.appoint (.handler n) f u :: h) w'
  | refused {h : List Move} {w w' : Session κ} {env : Env κ} {name f : Value} {x : Fault}
      (course : Course host e w₀ h w) (ran : Handler.register e name f env w = (.fault x, w')) :
      Course host e w₀ h w'
  | attach {h : List Move} {w w' : Session κ} {env : Env κ} {f : Value} {u : Fn} (course : Course host e w₀ h w)
      (callable : f.isCallable) (ran : Scope.attachPub e f env w = (.value u, w')) :
      Course host e w₀ (.appoint .publisher f u :: h) w'
  | dismiss {h : List Move} {w w' : Session κ} {budget : Nat} {o : Office} {f v : Value} {u : Fn}
      (course : Course host e w₀ h w) (given : .appoint o f u ∈ h)
      (ran : callFn u [] (Env.within host budget) w = (.value v, w')) : Course host e w₀ (.dismiss o f :: h) w'
  | meanwhile {h : List Move} {w w' : Session κ} (course : Course host e w₀ h w) (apart : Apart e w w') :
      Course host e w₀ h w'

/-- Who holds an office after some moves, the latest first. -/
def incumbent (first : Option Value) (o : Office) : List Move → Option Value
  | [] => first
  | .appoint q f _ :: h => if q = o then some f else incumbent first o h
  | .dismiss q f :: h => if q = o ∧ incumbent first o h = some f then none else incumbent first o h

/-- The last one to be appointed holds an office, unless it has been dismissed since. -/
theorem incumbent_appointed {first : Option Value} {later earlier : List Move} (last : ∀ g r, .appoint o g r ∉ later) :
    incumbent first o (later ++ .appoint o f u :: earlier) = if .dismiss o f ∈ later then none else some f := by
  induction later with
  | nil => simp [incumbent]
  | cons m later ih =>
    have ih := ih fun g r h => last g r (List.mem_cons_of_mem _ h)
    rw [List.cons_append]
    cases m with
    | appoint q g r =>
      have other : q ≠ o := by
        rintro rfl
        exact last g r List.mem_cons_self
      simp [incumbent, other, ih]
    | dismiss q g =>
      by_cases gone : .dismiss o f ∈ later
      · simp [incumbent, ih, gone]
      · by_cases own : q = o ∧ g = f
        · obtain ⟨rfl, rfl⟩ := own
          simp [incumbent, ih, gone]
        · have other : ¬ (o = q ∧ f = g) := fun same => own ⟨same.1.symm, same.2.symm⟩
          simp [incumbent, ih, gone, other, eq_comm]

/-- An office that nobody was appointed to is as it was. -/
theorem incumbent_unappointed {first : Option Value} {h : List Move} (never : ∀ f u, .appoint o f u ∉ h)
    (kept : ∀ f, .dismiss o f ∉ h) : incumbent first o h = first := by
  induction h with
  | nil => rfl
  | cons m h ih =>
    have ih := ih (fun f u hm => never f u (List.mem_cons_of_mem _ hm)) fun f hm => kept f (List.mem_cons_of_mem _ hm)
    cases m with
    | appoint q f u =>
      have other : q ≠ o := by
        rintro rfl
        exact never f u List.mem_cons_self
      simp [incumbent, other, ih]
    | dismiss q f =>
      have other : q ≠ o := by
        rintro rfl
        exact kept f List.mem_cons_self
      simp [incumbent, other, ih]

/-- The callable that registering gives, and the session it leaves. -/
theorem register_eq {name : Value} {n : String} (named : name.text? = some n)
    (ran : Handler.register e name f env w = (.value u, w')) :
    f.isCallable ∧ u = .made w.closures.size ∧
      w' = (w.modifyEngine e ((handler n).fill f)).closing ((handler n).dismissal e f) := by
  unfold Handler.register at ran
  rw [named] at ran
  dsimp only at ran
  split at ran
  · cases ran
  · split at ran
    · cases ran
    · next callable =>
      cases ran
      exact ⟨by simpa using callable, rfl, rfl⟩

/-- Registering fails before anything has happened. -/
theorem register_refused {name : Value} {x : Fault} (ran : Handler.register e name f env w = (.fault x, w')) :
    w' = w := by
  unfold Handler.register at ran
  rcases hn : name.text? with _ | n <;> rw [hn] at ran <;> dsimp only at ran
  · cases ran
    rfl
  · split at ran
    · cases ran
      rfl
    · split at ran
      · cases ran
        rfl
      · cases ran

theorem attachPub_eq (callable : f.isCallable) (ran : Scope.attachPub e f env w = (.value u, w')) :
    u = .made w.closures.size ∧ w' = (w.modifyEngine e (publisher.fill f)).closing (publisher.dismissal e f) := by
  unfold Scope.attachPub at ran
  rw [if_pos callable] at ran
  cases ran
  exact ⟨rfl, rfl⟩

/-- Calling what an appointment gave. -/
theorem callFn_dismissal {host : Host κ} {n : Nat} (made : w.closures[n]? = some (o.dismissal e f)) (budget : Nat) :
    callFn (.made n) [] (Env.within host (budget + 1)) w = (.value .none, w.modifyEngine e (o.clear f)) := by
  change applyValue host (.fn (.made n)) [] ⟨callWithin host budget, budget⟩ w = _
  unfold applyValue
  dsimp only
  rw [bind_read, made]
  cases o <;> rfl

/-- What the moves so far say of a session. -/
structure Kept (e : Nat) (w₀ : Session κ) (h : List Move) (w : Session κ) : Prop where
  made : ∀ {o f u}, .appoint o f u ∈ h → f.isCallable ∧ ∃ n, u = .made n ∧ w.closures[n]? = some (o.dismissal e f)
  appointed : ∀ {o f}, .dismiss o f ∈ h → ∃ u, .appoint o f u ∈ h
  holds : ∀ o : Office, o.holder (w.engine e) = incumbent (o.holder (w₀.engine e)) o h

namespace Kept

variable {h : List Move}

theorem appoint (kept : Kept e w₀ h w) (callable : f.isCallable) (o : Office) :
    Kept e w₀ (.appoint o f (.made w.closures.size) :: h)
      ((w.modifyEngine e (o.fill f)).closing (o.dismissal e f)) where
  made {q g r} hr := by
    rcases List.mem_cons.1 hr with hnew | hold
    · cases hnew
      exact ⟨callable, _, rfl, Array.getElem?_push_size⟩
    · obtain ⟨called, n, rfl, hn⟩ := kept.made hold
      have bound : n < w.closures.size := (Array.getElem?_eq_some_iff.1 hn).1
      refine ⟨called, n, rfl, ?_⟩
      rw [← hn]
      exact (Array.getElem?_push_lt bound).trans (Array.getElem?_eq_getElem bound).symm
  appointed {q g} hd := by
    obtain ⟨r, hr⟩ := kept.appointed (by simpa using hd)
    exact ⟨r, List.mem_cons_of_mem _ hr⟩
  holds q := by
    have filled : ((w.modifyEngine e (o.fill f)).closing (o.dismissal e f)).engine e = o.fill f (w.engine e) := by
      change (w.modifyEngine e (o.fill f)).engine e = _
      rw [Session.engine_modifyEngine, if_pos rfl]
    rw [filled, holder_fill callable, incumbent, kept.holds]

theorem dismiss (kept : Kept e w₀ h w) (given : .appoint o f u ∈ h) :
    Kept e w₀ (.dismiss o f :: h) (w.modifyEngine e (o.clear f)) where
  made hr := kept.made (by simpa using hr)
  appointed {q g} hd := by
    rcases List.mem_cons.1 hd with hnew | hold
    · cases hnew
      exact ⟨u, List.mem_cons_of_mem _ given⟩
    · obtain ⟨r, hr⟩ := kept.appointed hold
      exact ⟨r, List.mem_cons_of_mem _ hr⟩
  holds q := by
    rw [Session.engine_modifyEngine, if_pos rfl, holder_clear, incumbent, kept.holds]

theorem apart (kept : Kept e w₀ h w) (apart : Apart e w w') : Kept e w₀ h w' where
  made hr := by
    obtain ⟨callable, n, rfl, hn⟩ := kept.made hr
    exact ⟨callable, n, rfl, apart.made hn⟩
  appointed := kept.appointed
  holds o := (apart.offices o).trans (kept.holds o)

end Kept

theorem Course.kept {h : List Move} {host : Host κ} (course : Course host e w₀ h w) : Kept e w₀ h w := by
  induction course with
  | start =>
    exact { made := fun hu => (List.not_mem_nil hu).elim
            appointed := fun hd => (List.not_mem_nil hd).elim
            holds := fun _ => rfl }
  | register _ named ran ih =>
    obtain ⟨callable, rfl, rfl⟩ := register_eq named ran
    exact ih.appoint callable _
  | refused _ ran ih => exact register_refused ran ▸ ih
  | attach _ callable ran ih =>
    obtain ⟨rfl, rfl⟩ := attachPub_eq callable ran
    exact ih.appoint callable _
  | @dismiss h w w' budget o f v u _ given ran ih =>
    obtain ⟨-, n, rfl, hn⟩ := ih.made given
    cases budget with
    | zero => cases ran
    | succ budget =>
      rw [callFn_dismissal hn] at ran
      cases ran
      exact ih.dismiss given
  | meanwhile _ apart ih => exact ih.apart apart

end Office

open Office

/-- At any time of any run an office is held by the callable that was appointed last, unless a callable that an
appointment of the same one to it gave has been called since; then nobody holds it. An office that nobody was appointed
to is as it was. What an appointment gave can be called at any time: it vacates its office if that is held by the one
it is for, and does nothing else. -/
theorem dismissals_spare_successors {h : List Move} {host : Host κ} {w₀ w : Session κ}
    (course : Course host e w₀ h w) :
    (∀ later o f u earlier, h = later ++ .appoint o f u :: earlier → (∀ g r, .appoint o g r ∉ later) →
      o.holder (w.engine e) = if .dismiss o f ∈ later then none else some f) ∧
    (∀ o : Office, (∀ f u, .appoint o f u ∉ h) → o.holder (w.engine e) = o.holder (w₀.engine e)) ∧
    ∀ o f u, .appoint o f u ∈ h → ∀ budget, ∃ w',
      callFn u [] (Env.within host (budget + 1)) w = (.value .none, w') ∧ w' = w.modifyEngine e (o.clear f) ∧
      ∀ q : Office, q.holder (w'.engine e) =
        if o = q ∧ q.holder (w.engine e) = some f then none else q.holder (w.engine e) := by
  have kept := course.kept
  refine ⟨?_, ?_, ?_⟩
  · rintro later o f u earlier rfl last
    rw [kept.holds]
    exact incumbent_appointed last
  · intro o never
    rw [kept.holds]
    refine incumbent_unappointed never fun f hd => ?_
    obtain ⟨u, hu⟩ := kept.appointed hd
    exact never f u hu
  · intro o f u given budget
    obtain ⟨-, n, rfl, hn⟩ := kept.made given
    refine ⟨_, callFn_dismissal hn budget, rfl, fun q => ?_⟩
    rw [Session.engine_modifyEngine, if_pos rfl]
    exact holder_clear f o q _

-- A handler and a publish function are replaced, and only then what the appointment of the first ones gave is called.
namespace Office.Succession

def older : Value := .fn (.client "older")

def newer : Value := .fn (.client "newer")

def host : Host Unit := fun _ => { body := fun _ => return .none }

def env : Env Unit := Env.within host 5

def start : Session Unit where
  memory := ()

def register (f : Value) (w : Session Unit) : Session Unit := (Handler.register 0 (.text "save") f env w).2

def attach (f : Value) (w : Session Unit) : Session Unit := (Scope.attachPub 0 f env w).2

def call (n : Nat) (w : Session Unit) : Session Unit := (callFn (.made n) [] env w).2

def replaced : Session Unit := attach newer (attach older (register newer (register older start)))

/-- The late dismissals, and then that of the newer handler. -/
def ended : Session Unit := call 1 (call 2 (call 0 replaced))

def save : Office := .handler "save"

def moves : List Move :=
  [.dismiss save newer, .dismiss .publisher older, .dismiss save older, .appoint .publisher newer (.made 3),
    .appoint .publisher older (.made 2), .appoint save newer (.made 1), .appoint save older (.made 0)]

theorem course : Course host 0 start moves ended := by
  have one : Handler.register 0 (.text "save") older env start = (.value (.made 0), register older start) := rfl
  have two : Handler.register 0 (.text "save") newer env (register older start) =
    (.value (.made 1), register newer (register older start)) := rfl
  have three : Scope.attachPub 0 older env (register newer (register older start)) =
    (.value (.made 2), attach older (register newer (register older start))) := rfl
  have four : Scope.attachPub 0 newer env (attach older (register newer (register older start))) =
    (.value (.made 3), replaced) := rfl
  have five : callFn (.made 0) [] env replaced = (.value .none, call 0 replaced) := rfl
  have six : callFn (.made 2) [] env (call 0 replaced) = (.value .none, call 2 (call 0 replaced)) := rfl
  have seven : callFn (.made 1) [] env (call 2 (call 0 replaced)) = (.value .none, ended) := rfl
  have registered : Course host 0 start _ (register newer (register older start)) :=
    (Course.start.register rfl one).register rfl two
  have appointed : Course host 0 start _ replaced := (registered.attach rfl three).attach rfl four
  exact ((appointed.dismiss (by decide) five).dismiss (by decide) six).dismiss (by decide) seven

end Office.Succession

/-- The newer publish function stays, and the newer handler goes only when it is dismissed itself. -/
theorem dismissals_spare_successors_late :
    ((Succession.call 0 Succession.replaced).engine 0).handlers.get? "save" = some Succession.newer ∧
    (Succession.ended.engine 0).handlers.get? "save" = none ∧
    Office.publisher.holder (Succession.ended.engine 0) = some Succession.newer := by
  obtain ⟨last, -, -⟩ := dismissals_spare_successors Succession.course
  have handler := last [.dismiss Succession.save Succession.newer, .dismiss .publisher Succession.older,
    .dismiss Succession.save Succession.older, .appoint .publisher Succession.newer (.made 3),
    .appoint .publisher Succession.older (.made 2)] Succession.save Succession.newer (.made 1) _ rfl
    (by simp [Succession.save])
  have publisher := last [.dismiss Succession.save Succession.newer, .dismiss .publisher Succession.older,
    .dismiss Succession.save Succession.older] .publisher Succession.newer (.made 3) _ rfl (by simp [Succession.save])
  refine ⟨rfl, ?_, ?_⟩
  · exact handler.trans (if_pos (by decide))
  · exact publisher.trans (if_neg (by decide))

end ReactiveScopes
