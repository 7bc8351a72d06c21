import ReactiveScopes.Proofs.RightSides

/-!
# Kinds of source texts

A shorthand, a JSON expression and a name are told apart by one character each: JSON begins with a bracket or a brace,
which neither of the others does, and a shorthand holds a sign or a mark, for which a name has no room. So no text is
of two kinds, and the order in which they are tried does not matter. In particular the name of a path, with dots or
without, is no expression, whatever word it is: what it comes to is left to the handlers and to the state.
-/
namespace ReactiveScopes

namespace Comparison

variable {cs : List Char} {j : Json}

theorem isPath_of_isName (h : isName cs) : IsPath cs := by
  obtain ⟨start, all⟩ := Bool.and_eq_true_iff.1 h
  refine ⟨start, fun c hc => ?_⟩
  unfold isPathChar
  rw [List.all_eq_true.1 all c hc, Bool.true_or]

theorem IsPath.solid (h : IsPath cs) : Solid cs := by
  obtain ⟨c, tail, rfl, -⟩ := h.cons
  exact .of_all (List.cons_ne_nil c tail) fun d hd => isBlank_of_isPathChar (h.2 d hd)

theorem IsPath.trim (h : IsPath cs) : Text.trim cs = cs := by
  simpa using trim_solid (List.forall_mem_nil _) h.solid (List.forall_mem_nil _)

/-- Shorthand in its two forms. -/
theorem expression?_cases (h : expression? cs = some j) :
    (∃ x : Split, x.text = cs) ∨ ∃ x : Negation, x.text = cs := by
  rcases Option.or_eq_some_iff.1 h with h | ⟨-, h⟩
  · obtain ⟨x, hx, -⟩ := comparison?_eq_some_iff.1 h
    exact .inl ⟨x, hx⟩
  · obtain ⟨x, hx, -⟩ := negation?_eq_some_iff.1 h
    exact .inr ⟨x, hx⟩

/-- A shorthand holds a character that no path has: the mark, or the first one of a sign. -/
theorem exists_foreign_of_expression? (h : expression? cs = some j) : ∃ c ∈ cs, isPathChar c = false := by
  rcases expression?_cases h with ⟨x, rfl⟩ | ⟨x, rfl⟩
  · have filled : x.sign.toList ≠ [] := by
      have all : ∀ s ∈ signs, s.toList ≠ [] := by decide
      exact all _ x.isSign
    obtain ⟨c, more, sign⟩ := List.exists_cons_of_ne_nil filled
    have foreign := (Shorthand.sign_head x.isSign [] c (by simp [sign])).1
    exact ⟨c, by simp [Split.text, sign], foreign⟩
  · exact ⟨'!', List.mem_cons_self, rfl⟩

/-- After its blanks, a shorthand begins with a path or with the mark. -/
theorem head_of_expression? (h : expression? cs = some j) :
    ∃ c, (Text.dropBlanks cs).head? = some c ∧ (isNameStart c ∨ c = '!') := by
  rcases expression?_cases h with ⟨x, rfl⟩ | ⟨x, rfl⟩
  · obtain ⟨c, tail, path, start⟩ := x.isPath.cons
    have solid := isBlank_of_isPathChar (x.isPath.2 c (by simp [path]))
    have begins : Text.dropBlanks x.text = x.path ++ (x.before ++ (x.sign.toList ++ x.rest)) :=
      (Json.span_run (fun b hb => x.blanks b (by simp [hb])) (by simpa [path] using solid)).2
    exact ⟨c, by rw [begins, path]; rfl, .inl start⟩
  · exact ⟨'!', rfl, .inr rfl⟩

/-- A path has no room for a sign and does not begin with the mark. -/
theorem IsPath.expression? (h : IsPath cs) : expression? cs = none := by
  refine Option.eq_none_iff_forall_ne_some.2 fun j hj => ?_
  obtain ⟨c, hc, foreign⟩ := exists_foreign_of_expression? hj
  rw [h.2 c hc] at foreign
  cases foreign

end Comparison

namespace Source

open Comparison

variable {cs : List Char} {name : String}

theorem looksLikeJson_iff :
    looksLikeJson cs ↔ (Text.dropBlanks cs).head? = some '[' ∨ (Text.dropBlanks cs).head? = some '\x7b' := by
  unfold looksLikeJson
  split
  · next h => simp [h]
  · next h => simp [h]
  · next bracket brace =>
    constructor
    · intro h
      cases h
    · rintro (h | h)
      · obtain ⟨tail, h⟩ := List.head?_eq_some_iff.1 h
        exact absurd h (bracket tail)
      · obtain ⟨tail, h⟩ := List.head?_eq_some_iff.1 h
        exact absurd h (brace tail)

/-- Text that begins otherwise is not taken for JSON. -/
theorem looksLikeJson_of_head {c : Char} (h : (Text.dropBlanks cs).head? = some c) (bracket : c ≠ '[')
    (brace : c ≠ '\x7b') : looksLikeJson cs = false := by
  cases json : looksLikeJson cs with
  | false => rfl
  | true =>
    rw [looksLikeJson_iff, h, Option.some.injEq, Option.some.injEq] at json
    exact absurd json (not_or.2 ⟨bracket, brace⟩)

theorem looksLikeJson_expression? {j : Json} (h : expression? cs = some j) : looksLikeJson cs = false := by
  obtain ⟨c, head, start⟩ := head_of_expression? h
  apply looksLikeJson_of_head head
  all_goals
    rintro rfl
    revert start
    decide

theorem looksLikeJson_path (h : IsPath cs) : looksLikeJson cs = false := by
  obtain ⟨c, tail, rfl, start⟩ := h.cons
  have solid : Text.isBlank c = false := isBlank_of_isPathChar (h.2 c List.mem_cons_self)
  have head : (Text.dropBlanks (c :: tail)).head? = some c := by simp [Text.dropBlanks, solid]
  apply looksLikeJson_of_head head
  all_goals
    rintro rfl
    cases start

theorem compile?_path (h : IsPath name.toList) : compile? name = .ok none := by
  unfold compile? raw?
  rw [h.expression?, looksLikeJson_path h]
  rfl

end Source

section Evaluating

open Eff Comparison

variable {κ : Type} {w : Session κ} {e : Nat} {ev : Evaluation} {name source : String}

/-- Compiling a path changes at most the cache. -/
theorem Scope.compileText_path (h : IsPath name.toList) (recalls : w.Recalls name) :
    ∃ cache, (∀ env, compileText name env w = (.value none, w.caching cache)) ∧ (w.caching cache).Recalls name := by
  have compiled := Source.compile?_path h
  cases known : w.compiled.get? name with
  | some x =>
    have same := recalls x known
    rw [compiled] at same
    cases same
    refine ⟨w.compiled, fun env => ?_, recalls⟩
    unfold compileText
    rw [bind_read, known]
    rfl
  | none =>
    refine ⟨w.compiled.insert name none, fun env => ?_, fun x hx => ?_⟩
    · unfold compileText
      rw [bind_read, known]
      dsimp only
      rw [compiled]
      rfl
    · rw [Session.caching, Table.get?_insert, if_pos rfl] at hx
      cases hx
      rw [compiled]
      rfl

/-- A text that is a path between its blanks is left to the handlers and to the state: it invokes the handler of that
name, or else it is read in the state. -/
theorem Scope.resolve_path (h : IsPath name.toList) (recalls : w.Recalls name) (text : ev.source = .text source)
    (trimmed : Text.trim source.toList = name.toList) :
    ∃ cache, (w.caching cache).Recalls name ∧ ∀ record c env,
      (isName name.toList → (w.engine e).handlers.contains name →
        resolve e ev record c env w =
          (do
            let path ← if ev.path.isNone && !c.el.isNone then statePathOf e c.el else pure ev.path
            invokeHandler e name ev.scope c.event path) env (w.caching cache)) ∧
      (¬ (isName name.toList ∧ (w.engine e).handlers.contains name) → ∀ data hook,
        w.store.record? record = some (data, hook) →
          resolve e ev record c env w = build (Build.getPath (.ref data) (.text name)) env (w.caching cache)) := by
  obtain ⟨cache, run, recalls⟩ := compileText_path h recalls
  refine ⟨cache, recalls, fun record c env => ?_⟩
  have compiled : (compileText name).attempt env w = (.value (.ok none), w.caching cache) := by
    unfold attempt
    rw [run env]
  have same : (w.caching cache).engine e = w.engine e := rfl
  unfold resolve
  rw [bind_engine, text]
  dsimp only [Value.text?]
  rw [trimmed, String.ofList_toList, bind_value compiled]
  dsimp only
  rw [bind_engine, same]
  constructor
  · intro named known
    rw [if_pos (Bool.and_eq_true_iff.2 ⟨named, known⟩)]
  · intro unknown data hook stands
    have stands : (w.caching cache).store.record? record = some (data, hook) := stands
    rw [if_neg (mt Bool.and_eq_true_iff.1 unknown), bind_store, stands]

/-- No text is of two kinds: a shorthand, what is taken for JSON, the bare name of a handler. The name of a path is
neither shorthand nor JSON and compiles to no expression. So a source that is such a name, with blanks around it or
without, invokes the handler that is registered under it, if it has no dots, and reads the path in the state otherwise,
whatever the name is. -/
theorem source_kinds_are_disjoint (name : String) :
    (¬ ((expression? name.toList).isSome ∧ Source.looksLikeJson name.toList) ∧
      ¬ ((expression? name.toList).isSome ∧ isName name.toList) ∧
      ¬ (Source.looksLikeJson name.toList ∧ isName name.toList)) ∧
    (IsPath name.toList → Source.compile? name = .ok none ∧
      ∀ (w : Session κ) (e : Nat) (ev : Evaluation) (source : String), w.Recalls name → ev.source = .text source →
        Text.trim source.toList = name.toList →
        ∃ cache, ∀ (record : Value) (c : Capabilities) (env : Env κ),
          (isName name.toList → (w.engine e).handlers.contains name →
            Scope.resolve e ev record c env w =
              (do
                let path ← if ev.path.isNone && !c.el.isNone then Scope.statePathOf e c.el else pure ev.path
                Scope.invokeHandler e name ev.scope c.event path) env (w.caching cache)) ∧
          (¬ (isName name.toList ∧ (w.engine e).handlers.contains name) → ∀ data hook,
            w.store.record? record = some (data, hook) →
              Scope.resolve e ev record c env w =
                build (Build.getPath (.ref data) (.text name)) env (w.caching cache))) := by
  refine ⟨⟨?_, ?_, ?_⟩, fun path => ⟨Source.compile?_path path, fun w e ev source recalls text trimmed => ?_⟩⟩
  · rintro ⟨shorthand, json⟩
    obtain ⟨j, hj⟩ := Option.isSome_iff_exists.1 shorthand
    rw [Source.looksLikeJson_expression? hj] at json
    cases json
  · rintro ⟨shorthand, named⟩
    rw [(isPath_of_isName named).expression?] at shorthand
    cases shorthand
  · rintro ⟨json, named⟩
    rw [Source.looksLikeJson_path (isPath_of_isName named)] at json
    cases json
  · obtain ⟨cache, -, resolves⟩ := Scope.resolve_path path recalls text trimmed
    exact ⟨cache, resolves⟩

namespace Words

def scope : Value := .scope "s"

/-- A state whose keys are words of the expressions, and a handler that is named as an operator. -/
def session : Session Unit where
  memory := ()
  store := { cells := #[.dict (Mapping.ofFields [("get", .int 1)]), .dict (Mapping.ofFields [("true", .ref ⟨0⟩)]),
    .record ⟨1⟩ (.schedule 0 scope)] }
  engines := Table.empty.insert 0
    { records := Table.empty.insert scope (.ref ⟨2⟩), handlers := Table.empty.insert "set" (.fn (.client "f")) }

/-- The client's function gives two. -/
def env : Env Unit := .within (fun _ => { body := fun _ => .done (.int 2) }) 3

end Words

theorem source_kinds_are_disjoint_words :
    (Scope.resolve 0 ⟨Words.scope, .text "\tset\n", .mapping .none, .none⟩ (.ref ⟨2⟩) {} Words.env Words.session).1 =
        .value (.int 2) ∧
      (Scope.resolve 0 ⟨Words.scope, .text " true.get", .mapping .none, .none⟩ (.ref ⟨2⟩) {} Words.env
        Words.session).1 = .value (.int 1) := by
  have named : isName "set".toList := by decide
  have dotted : ¬ (isName "true.get".toList ∧ (Words.session.engine 0).handlers.contains "true.get") := by decide
  constructor
  · obtain ⟨-, path⟩ := @source_kinds_are_disjoint Unit "set"
    obtain ⟨cache, resolves⟩ := (path (isPath_of_isName named)).2 Words.session 0
      ⟨Words.scope, .text "\tset\n", .mapping .none, .none⟩ "\tset\n" nofun rfl rfl
    rw [(resolves (.ref ⟨2⟩) {} Words.env).1 named rfl]
    rfl
  · obtain ⟨-, path⟩ := @source_kinds_are_disjoint Unit "true.get"
    obtain ⟨cache, resolves⟩ := (path (by decide)).2 Words.session 0
      ⟨Words.scope, .text " true.get", .mapping .none, .none⟩ " true.get" nofun rfl rfl
    have read : (build (Build.getPath (.ref ⟨1⟩) (.text "true.get")) Words.env Words.session).1 = .value (.int 1) := by
      decide +kernel
    rw [(resolves (.ref ⟨2⟩) {} Words.env).2 dotted ⟨1⟩ (.schedule 0 Words.scope) rfl,
      (IgnoresCache.build _).run Words.session cache]
    exact read

end Evaluating

end ReactiveScopes
