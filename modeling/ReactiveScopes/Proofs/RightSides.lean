import Mathlib.Data.List.Basic
import Mathlib.Data.List.TakeWhile
import ReactiveScopes.Proofs.Shorthand

/-!
# What may stand right of a sign

The texts that are shorthand are described by their parts: a negated path, or a path, a sign and anything at all
behind it that is on one line. The left side is always a path name. The right side is one unless it is a number, a
truth value or a quoted text; but text of any other form is taken for a path as well, with whatever blanks, signs and
brackets it holds, and so it is no bar to the shorthand.
-/
namespace ReactiveScopes

mutual

/-- The paths that are read in an expression. -/
def Json.paths : Json → List String
  | .arr [.str "get", .str path] => [path]
  | .arr items => pathsIn items
  | .obj fields => pathsUnder fields
  | _ => []

def Json.pathsIn : List Json → List String
  | [] => []
  | j :: js => j.paths ++ pathsIn js

def Json.pathsUnder : List (String × Json) → List String
  | [] => []
  | (_, j) :: fs => j.paths ++ pathsUnder fs

end

namespace Comparison

section Cutting

/-- A text cut where its first run of such characters ends. -/
theorem cut_run (p : Char → Bool) (cs : List Char) :
    (∀ c ∈ cs.takeWhile p, p c) ∧ cs.takeWhile p ++ cs.dropWhile p = cs ∧
      ∀ c ∈ (cs.dropWhile p).head?, p c = false := by
  refine ⟨fun c hc => List.mem_takeWhile_imp hc, List.takeWhile_append_dropWhile, ?_⟩
  intro c hc
  have hfirst := List.head?_dropWhile_not p cs
  rw [Option.mem_def.mp hc] at hfirst
  exact hfirst

/-- What is left of a text between its blanks: nothing, or text without blanks at its ends. -/
theorem trim_append (cs : List Char) :
    ∃ before after, (∀ c ∈ before, Text.isBlank c) ∧ (∀ c ∈ after, Text.isBlank c) ∧
      before ++ (Text.trim cs ++ after) = cs ∧ (Text.trim cs ≠ [] → Solid (Text.trim cs)) := by
  obtain ⟨hbefore, hleft, hfirst⟩ := cut_run Text.isBlank cs
  obtain ⟨hafter, hright, hlast⟩ := cut_run Text.isBlank (Text.dropBlanks cs).reverse
  have hcore : Text.trim cs ++ ((Text.dropBlanks cs).reverse.takeWhile Text.isBlank).reverse =
      Text.dropBlanks cs := by
    have hback := congrArg List.reverse hright
    rwa [List.reverse_append, List.reverse_reverse] at hback
  refine ⟨_, _, hbefore, fun c hc => hafter c (List.mem_reverse.mp hc), by rw [hcore]; exact hleft, ?_⟩
  intro hne
  constructor
  · refine ⟨_, List.head?_eq_some_head hne, hfirst _ ?_⟩
    change _ ∈ (Text.dropBlanks cs).head?
    rw [← hcore, List.head?_append, List.head?_eq_some_head hne]
    rfl
  · refine ⟨_, List.getLast?_eq_some_getLast hne, hlast _ ?_⟩
    have hends : (Text.dropBlanks (Text.dropBlanks cs).reverse).head? = (Text.trim cs).getLast? := by
      simp [Text.trim, Text.trimRight]
    change _ ∈ (Text.dropBlanks (Text.dropBlanks cs).reverse).head?
    rw [hends, List.getLast?_eq_some_getLast hne]
    rfl

theorem after?_eq_some_iff {start cs rest : List Char} : after? start cs = some rest ↔ cs = start ++ rest := by
  induction start generalizing cs with
  | nil => simp [after?]
  | cons p start ih =>
    cases cs with
    | nil => simp [after?]
    | cons c cs =>
      by_cases hp : p = c
      · subst hp
        simp [after?, ih]
      · simp [after?, hp, Ne.symm hp]

theorem readPath?_eq_some_iff {cs path rest : List Char} :
    readPath? cs = some (path, rest) ↔
      IsPath path ∧ cs = path ++ rest ∧ ∀ c ∈ rest.head?, isPathChar c = false := by
  constructor
  · intro h
    unfold readPath? at h
    split at h
    · next hstart =>
      simp only [Option.some.injEq, Prod.mk.injEq] at h
      obtain ⟨rfl, rfl⟩ := h
      obtain ⟨hall, hcut, hrest⟩ := cut_run isPathChar cs
      refine ⟨⟨?_, hall⟩, hcut.symm, hrest⟩
      cases cs with
      | nil => simp at hstart
      | cons c cs =>
        have hc : isNameStart c := by simpa using hstart
        simp [isPathChar, isNameChar, hc]
    · cases h
  · rintro ⟨hpath, rfl, hrest⟩
    exact readPath?_append hpath hrest

end Cutting

section RightSides

/-- What is right of a sign: text on one line with blanks around it, or, where there are only blanks, the last of them
that is no line feed. -/
inductive RightSide : List Char → List Char → Prop
  | text {before core after : List Char} (hb : ∀ c ∈ before, Text.isBlank c) (solid : Solid core)
      (line : '\n' ∉ core) (ha : ∀ c ∈ after, Text.isBlank c) : RightSide (before ++ (core ++ after)) core
  | blank {before after : List Char} {c : Char} (hb : ∀ c ∈ before, Text.isBlank c) (hc : Text.isBlank c)
      (line : c ≠ '\n') (ha : ∀ a ∈ after, a = '\n') : RightSide (before ++ c :: after) [c]

theorem RightSide.line {cs right : List Char} (h : RightSide cs right) : '\n' ∉ right := by
  cases h with
  | text hb solid line ha => exact line
  | blank hb hc line ha => simpa using line.symm

theorem trim_blank {cs : List Char} (h : ∀ c ∈ cs, Text.isBlank c) : Text.trim cs = [] := by
  have hdrop : Text.dropBlanks cs = [] := List.dropWhile_eq_nil_iff.mpr h
  rw [Text.trim, hdrop]
  rfl

theorem RightSide.of_rightSide? {cs right : List Char} (h : rightSide? cs = some right) : RightSide cs right := by
  obtain ⟨before, after, hb, ha, hcs, hsolid⟩ := trim_append cs
  unfold rightSide? at h
  split at h
  · next hnil =>
    have hblank : ∀ c ∈ cs, Text.isBlank c := by
      intro c hc
      rw [← hcs, hnil, List.nil_append, List.mem_append] at hc
      exact hc.elim (hb c) (ha c)
    obtain ⟨c, hfind, rfl⟩ := Option.map_eq_some_iff.mp h
    obtain ⟨hline, last, front, hrev, hfeeds⟩ := List.find?_eq_some_iff_append.mp hfind
    have hparts : cs = front.reverse ++ c :: last.reverse := by
      have := congrArg List.reverse hrev
      simpa using this
    subst hparts
    refine .blank (fun a ha => hblank a (by simp_all)) (hblank c (by simp)) (by simpa using hline) ?_
    intro a ha
    simpa using hfeeds a (by simpa using ha)
  · next hne =>
    split at h
    · cases h
    · next hline =>
      cases h
      have line : '\n' ∉ Text.trim cs := by simpa using hline
      have text := RightSide.text hb (hsolid hne) line ha
      rwa [hcs] at text

/-- Of blanks the last one is taken that is not the end of a line. -/
theorem rightSide?_blank {before after : List Char} {c : Char} (hb : ∀ a ∈ before, Text.isBlank a) (hc : Text.isBlank c)
    (line : c ≠ '\n') (ha : ∀ a ∈ after, a = '\n') : rightSide? (before ++ c :: after) = some [c] := by
  have hfeed : ∀ a ∈ after, Text.isBlank a := by
    intro a h
    rw [ha a h]
    decide
  have htrim : Text.trim (before ++ c :: after) = [] := trim_blank (by
    intro a h
    simp only [List.mem_append, List.mem_cons] at h
    rcases h with h | rfl | h
    · exact hb a h
    · exact hc
    · exact hfeed a h)
  have hfind : (before ++ c :: after).reverse.find? (· != '\n') = some c := by
    refine List.find?_eq_some_iff_append.mpr ⟨by simpa using line, after.reverse, before.reverse, by simp, ?_⟩
    intro a h
    simpa using ha a (by simpa using h)
  simp only [rightSide?, htrim, hfind, Option.map_some]

theorem rightSide?_eq_some_iff {cs right : List Char} : rightSide? cs = some right ↔ RightSide cs right := by
  refine ⟨.of_rightSide?, fun h => ?_⟩
  cases h with
  | text hb solid line ha => exact rightSide?_solid hb solid line ha
  | blank hb hc line ha => exact rightSide?_blank hb hc line ha

/-- The first sign that fits is the longest one that has something on its right. -/
theorem findSome?_sign_iff {cs right : List Char} {sign : String} :
    (signs.findSome? fun tried => do some (tried, ← rightSide? (← after? tried.toList cs))) = some (sign, right) ↔
      sign ∈ signs ∧ ∃ rest, cs = sign.toList ++ rest ∧ rightSide? rest = some right ∧
        ∀ more, rest = '=' :: more → sign ++ "=" ∈ signs → rightSide? more = none := by
  constructor
  · intro h
    obtain ⟨tried, hmem, hfits⟩ := List.exists_of_findSome?_eq_some h
    obtain ⟨rest, hafter, hfits⟩ := Option.bind_eq_some_iff.mp hfits
    obtain ⟨side, hside, heq⟩ := Option.bind_eq_some_iff.mp hfits
    simp only [Option.some.injEq, Prod.mk.injEq] at heq
    obtain ⟨rfl, rfl⟩ := heq
    obtain rfl := after?_eq_some_iff.mp hafter
    refine ⟨hmem, rest, rfl, hside, ?_⟩
    rintro more rfl hlonger
    cases hmore : rightSide? more with
    | none => rfl
    | some other =>
      -- the longer sign comes first among the signs, so it would have been found
      exfalso
      simp only [signs, List.mem_cons, List.not_mem_nil, or_false] at hmem hlonger
      rcases hmem with rfl | rfl | rfl | rfl | rfl | rfl | rfl <;> simp [signs, after?, hmore] at h hlonger
  · rintro ⟨hmem, rest, rfl, hside, hlongest⟩
    have hafter : (after? ['='] rest).bind rightSide? = none ∨ sign ++ "=" ∉ signs := by
      by_cases hlonger : sign ++ "=" ∈ signs
      · refine .inl (Option.bind_eq_none_iff.mpr fun more hmore => ?_)
        exact hlongest more (after?_eq_some_iff.mp hmore) hlonger
      · exact .inr hlonger
    simp only [signs, List.mem_cons, List.not_mem_nil, or_false] at hmem hafter
    rcases hmem with rfl | rfl | rfl | rfl | rfl | rfl | rfl <;>
      simp_all [signs, after?]

end RightSides

section Reading

theorem number?_operand {cs : List Char} {j : Json} (h : number? cs = some j) : Operand cs j := by
  -- the minus is taken off first, and then the digits up to the first character that is none
  have hparts : ∃ negative ds, cs = minus negative ++ ds ∧
      number? cs = if ds.takeWhile Text.isDigit = [] then none
        else numberBefore negative (ds.takeWhile Text.isDigit) (ds.dropWhile Text.isDigit) := by
    by_cases hminus : ∃ ds, cs = '-' :: ds
    · obtain ⟨ds, rfl⟩ := hminus
      refine ⟨true, ds, rfl, ?_⟩
      rw [number?]
      simp only [List.isEmpty_iff]
      rfl
    · refine ⟨false, cs, rfl, ?_⟩
      rw [number?]
      · simp only [List.isEmpty_iff]
        rfl
      · intro ds hds
        exact hminus ⟨ds, hds⟩
  obtain ⟨negative, ds, rfl, hread⟩ := hparts
  rw [hread] at h
  split at h
  · cases h
  · next hne =>
    have hds : IsDigits (ds.takeWhile Text.isDigit) := ⟨hne, (cut_run Text.isDigit ds).1⟩
    have hcut := (cut_run Text.isDigit ds).2.1
    unfold numberBefore at h
    split at h
    · next hrest =>
      cases h
      rw [hrest, List.append_nil] at hcut
      rw [hcut] at hds ⊢
      exact .int negative hds
    · next fs hrest =>
      split at h
      · cases h
      · next hfs =>
        cases h
        rw [hrest] at hcut
        have hfraction : IsDigits fs := by
          simp only [Bool.or_eq_true, List.isEmpty_iff, Bool.not_eq_true', not_or, Bool.not_eq_false] at hfs
          exact ⟨hfs.1, List.all_eq_true.mp hfs.2⟩
        have written := Operand.fraction negative hds hfraction
        rwa [hcut] at written
    · cases h

theorem unquoted?_eq_some {cs inside : List Char} (h : unquoted? cs = some inside) :
    ∃ q, (q = '\'' ∨ q = '"') ∧ cs = q :: (inside ++ [q]) := by
  unfold unquoted? at h
  split at h
  · cases h
  · next q rest =>
    split at h
    · next hquoted =>
      cases h
      simp only [Bool.and_eq_true, Bool.or_eq_true, beq_iff_eq] at hquoted
      obtain ⟨hq, hlast⟩ := hquoted
      have hrest : rest.dropLast ++ [q] = rest := List.dropLast_append_getLast? q hlast
      exact ⟨q, hq, by rw [hrest]⟩
    · cases h

/-- What is taken for a path and is no path name is no operand. -/
theorem not_operand {cs : List Char} (hread : operand cs = getNode cs) (hname : ¬ IsPath cs) (j : Json) :
    ¬ Operand cs j := by
  intro h
  have hnode := h.read.symm.trans hread
  cases h with
  | path hpath => exact hname hpath
  | _ => cases hnode

/-- Text that is no operand is taken for a path all the same. -/
theorem operand_cases {cs : List Char} (line : '\n' ∉ cs) :
    Operand cs (operand cs) ∨ operand cs = getNode cs ∧ ¬ IsPath cs := by
  unfold operand
  split
  · next n hn => exact .inl (number?_operand hn)
  · by_cases ht : cs = "true".toList
    · rw [if_pos ht, ht]
      exact .inl (.truth true)
    · by_cases hf : cs = "false".toList
      · rw [if_neg ht, if_pos hf, hf]
        exact .inl (.truth false)
      · rw [if_neg ht, if_neg hf]
        cases hq : unquoted? cs with
        | some inside =>
          obtain ⟨q, hquote, rfl⟩ := unquoted?_eq_some hq
          exact .inl (.quoted hquote fun h => line (by simp [h]))
        | none =>
          by_cases hpath : IsPath cs
          · exact .inl (.path hpath ht hf)
          · exact .inr ⟨rfl, hpath⟩

theorem paths_getNode (path : List Char) : (getNode path).paths = [String.ofList path] := by
  simp [getNode, Json.paths]

/-- The paths of an operand are path names. -/
theorem Operand.paths {cs : List Char} {j : Json} (h : Operand cs j) : ∀ p ∈ j.paths, IsPath p.toList := by
  cases h with
  | path h =>
    intro p hp
    rw [paths_getNode] at hp
    obtain rfl : p = String.ofList cs := by simpa using hp
    simpa using h
  | _ => simp [Json.paths]

/-- A comparison told by its parts: a path, a sign, and what is right of it, with blanks before the path and the sign.
A longer sign would have nothing on its right. -/
structure Split where
  path : List Char
  sign : String
  rest : List Char
  right : List Char
  lead : List Char := []
  before : List Char := []
  isPath : IsPath path
  isSign : sign ∈ signs
  side : RightSide rest right
  longest : ∀ more, rest = '=' :: more → sign ++ "=" ∈ signs → ∀ other, ¬ RightSide more other
  blanks : ∀ c ∈ lead ++ before, Text.isBlank c

namespace Split

def text (x : Split) : List Char := x.lead ++ (x.path ++ (x.before ++ (x.sign.toList ++ x.rest)))

def node (x : Split) : Json := .arr [.str x.sign, getNode x.path, operand x.right]

/-- What is right of the sign is a number, a truth value, quoted text or a path name. -/
def Proper (x : Split) : Prop := ∃ j, Operand x.right j

theorem paths_node (x : Split) : x.node.paths = String.ofList x.path :: (operand x.right).paths := by
  simp [node, Json.paths, Json.pathsIn, paths_getNode]

end Split

/-- A negation told by its parts, with blanks around the path. -/
structure Negation where
  path : List Char
  before : List Char := []
  trail : List Char := []
  isPath : IsPath path
  blanks : ∀ c ∈ before ++ trail, Text.isBlank c

namespace Negation

def text (x : Negation) : List Char := '!' :: (x.before ++ (x.path ++ x.trail))

def node (x : Negation) : Json := .arr [.str "!", getNode x.path]

theorem paths_node (x : Negation) : x.node.paths = [String.ofList x.path] := by
  simp [node, Json.paths, Json.pathsIn, paths_getNode]

end Negation

/-- What is read as a comparison is written as one. -/
theorem exists_split_of_comparison? {cs : List Char} {j : Json} (h : comparison? cs = some j) :
    ∃ x : Split, x.text = cs ∧ x.node = j := by
  obtain ⟨⟨path, behind⟩, hpath, h⟩ := Option.bind_eq_some_iff.mp h
  obtain ⟨⟨sign, right⟩, hsign, h⟩ := Option.bind_eq_some_iff.mp h
  cases h
  obtain ⟨hlead, hcs, -⟩ := cut_run Text.isBlank cs
  obtain ⟨hbefore, hbehind, -⟩ := cut_run Text.isBlank behind
  obtain ⟨isPath, htext, -⟩ := readPath?_eq_some_iff.mp hpath
  obtain ⟨isSign, rest, hrest, hside, hlongest⟩ := findSome?_sign_iff.mp hsign
  refine ⟨{ path, sign, rest, right, isPath, isSign
            lead := cs.takeWhile Text.isBlank
            before := behind.takeWhile Text.isBlank
            side := rightSide?_eq_some_iff.mp hside
            longest := ?_
            blanks := ?_ }, ?_, rfl⟩
  · intro more hmore hlonger other hother
    have := hlongest more hmore hlonger
    rw [rightSide?_eq_some_iff.mpr hother] at this
    cases this
  · intro c hc
    exact (List.mem_append.mp hc).elim (hlead c) (hbefore c)
  · dsimp only [Split.text]
    rw [← hrest]
    change cs.takeWhile _ ++ (path ++ (behind.takeWhile _ ++ behind.dropWhile _)) = cs
    rw [hbehind, ← htext]
    exact hcs

/-- What is written as a comparison is read as one. -/
theorem comparison?_text (x : Split) : comparison? x.text = some x.node := by
  obtain ⟨first, tail, hcons, -⟩ := x.isPath.cons
  have hsign := Shorthand.sign_head x.isSign x.rest
  have hlead : Text.dropBlanks x.text = x.path ++ (x.before ++ (x.sign.toList ++ x.rest)) := by
    refine (Json.span_run (fun c hc => x.blanks c (by simp [hc])) ?_).2
    have hfirst := isBlank_of_isPathChar (x.isPath.2 first (by simp [hcons]))
    simpa [hcons] using hfirst
  have hbefore : Text.dropBlanks (x.before ++ (x.sign.toList ++ x.rest)) = x.sign.toList ++ x.rest :=
    (Json.span_run (fun c hc => x.blanks c (by simp [hc])) fun c hc => (hsign c hc).2).2
  have hspaces : ∀ c ∈ x.before, Text.isBlank c := fun c hc => x.blanks c (by simp [hc])
  have hpath := readPath?_append x.isPath
    (Json.head_after_blanks (fun _ => isPathChar_of_isBlank) hspaces fun c hc => (hsign c hc).1)
  have hfound : (signs.findSome? fun tried => do
      some (tried, ← rightSide? (← after? tried.toList (x.sign.toList ++ x.rest)))) = some (x.sign, x.right) := by
    refine findSome?_sign_iff.mpr ⟨x.isSign, x.rest, rfl, rightSide?_eq_some_iff.mpr x.side, ?_⟩
    intro more hmore hlonger
    cases hother : rightSide? more with
    | none => rfl
    | some other => exact absurd (rightSide?_eq_some_iff.mp hother) (x.longest more hmore hlonger other)
  simp only [Option.bind_eq_bind] at hfound
  rw [comparison?, hlead, hpath]
  simp only [Option.bind_eq_bind, Option.bind_some, hbefore, hfound]
  rfl

theorem comparison?_eq_some_iff {cs : List Char} {j : Json} :
    comparison? cs = some j ↔ ∃ x : Split, x.text = cs ∧ x.node = j := by
  refine ⟨exists_split_of_comparison?, ?_⟩
  rintro ⟨x, rfl, rfl⟩
  exact comparison?_text x

theorem negation?_eq_some_iff {cs : List Char} {j : Json} :
    negation? cs = some j ↔ ∃ x : Negation, x.text = cs ∧ x.node = j := by
  constructor
  · intro h
    unfold negation? at h
    split at h
    · next cs =>
      obtain ⟨⟨path, trail⟩, hpath, h⟩ := Option.bind_eq_some_iff.mp h
      dsimp only at h
      split at h
      · next htrail =>
        cases h
        obtain ⟨hbefore, hcs, -⟩ := cut_run Text.isBlank cs
        obtain ⟨isPath, htext, -⟩ := readPath?_eq_some_iff.mp hpath
        refine ⟨{ path, trail, isPath, before := cs.takeWhile Text.isBlank, blanks := ?_ }, ?_, rfl⟩
        · intro c hc
          exact (List.mem_append.mp hc).elim (hbefore c) (List.all_eq_true.mp htrail c)
        · dsimp only [Negation.text]
          rw [← htext]
          exact congrArg _ hcs
      · cases h
    · cases h
  · rintro ⟨x, rfl, rfl⟩
    obtain ⟨first, tail, hcons, -⟩ := x.isPath.cons
    have htrail : ∀ c ∈ x.trail, Text.isBlank c := fun c hc => x.blanks c (by simp [hc])
    have hbefore : Text.dropBlanks (x.before ++ (x.path ++ x.trail)) = x.path ++ x.trail := by
      refine (Json.span_run (fun c hc => x.blanks c (by simp [hc])) ?_).2
      have hfirst := isBlank_of_isPathChar (x.isPath.2 first (by simp [hcons]))
      simpa [hcons] using hfirst
    have hpath : readPath? (x.path ++ x.trail) = some (x.path, x.trail) := by
      refine readPath?_append x.isPath ?_
      intro c hc
      exact isPathChar_of_isBlank (htrail c (List.mem_of_mem_head? hc))
    have hall : x.trail.all Text.isBlank = true := List.all_eq_true.mpr htrail
    simp only [Negation.text, negation?, hbefore, hpath, Option.bind_eq_bind, Option.bind_some, hall, if_true]
    rfl

/-- A negated text is no comparison, since no path begins with the mark. -/
theorem comparison?_negation (x : Negation) : comparison? x.text = none := by
  have hmark : Text.dropBlanks x.text = x.text := by
    simp only [Negation.text, Text.dropBlanks]
    rfl
  rw [comparison?, hmark]
  rfl

end Reading

/-- A text is no shorthand exactly if it is neither a negated path nor a path with a sign and anything on its right.
The paths that a negation reads are names. So are those that a comparison reads if what is right of the sign is a
number, a truth value, quoted text or such a name, and only then: any other text there is read as a path that is no
name. -/
theorem foreign_sides_become_paths (cs : List Char) :
    (expression? cs = none ↔ (∀ x : Split, x.text ≠ cs) ∧ ∀ x : Negation, x.text ≠ cs) ∧
    (∀ x : Negation, x.text = cs → expression? cs = some x.node ∧ ∀ p ∈ x.node.paths, IsPath p.toList) ∧
    ∀ x : Split, x.text = cs → expression? cs = some x.node ∧
      (x.Proper → ∀ p ∈ x.node.paths, IsPath p.toList) ∧
      (¬ x.Proper → x.node = .arr [.str x.sign, getNode x.path, getNode x.right] ∧ ¬ IsPath x.right) := by
  refine ⟨?_, ?_, ?_⟩
  · rw [expression?, Option.or_eq_none_iff]
    constructor
    · rintro ⟨hcomparison, hnegation⟩
      constructor
      · intro x hx
        rw [comparison?_eq_some_iff.mpr ⟨x, hx, rfl⟩] at hcomparison
        cases hcomparison
      · intro x hx
        rw [negation?_eq_some_iff.mpr ⟨x, hx, rfl⟩] at hnegation
        cases hnegation
    · rintro ⟨hsplit, hnegated⟩
      constructor
      · refine Option.eq_none_iff_forall_ne_some.mpr fun j hj => ?_
        obtain ⟨x, hx, -⟩ := comparison?_eq_some_iff.mp hj
        exact hsplit x hx
      · refine Option.eq_none_iff_forall_ne_some.mpr fun j hj => ?_
        obtain ⟨x, hx, -⟩ := negation?_eq_some_iff.mp hj
        exact hnegated x hx
  · rintro x rfl
    constructor
    · rw [expression?, comparison?_negation, negation?_eq_some_iff.mpr ⟨x, rfl, rfl⟩]
      rfl
    · intro p hp
      rw [x.paths_node] at hp
      obtain rfl : p = String.ofList x.path := by simpa using hp
      simpa using x.isPath
  · rintro x rfl
    refine ⟨?_, ?_, ?_⟩
    · rw [expression?, comparison?_eq_some_iff.mpr ⟨x, rfl, rfl⟩]
      rfl
    · rintro ⟨j, hj⟩ p hp
      rw [x.paths_node, hj.read] at hp
      rcases List.mem_cons.mp hp with rfl | hp
      · simpa using x.isPath
      · exact hj.paths p hp
    · intro foreign
      rcases operand_cases x.side.line with proper | ⟨hread, hname⟩
      · exact absurd ⟨_, proper⟩ foreign
      · exact ⟨by rw [Split.node, hread], hname⟩

/-- A comparison that is not complete: it is split at a sign one shorter, with the rest of the longer one right
of it. -/
def shortened : Split where
  path := ['x']
  sign := ">"
  rest := ['=']
  right := ['=']
  before := [' ']
  isPath := by decide
  isSign := by decide
  side := rightSide?_eq_some_iff.mp (by decide)
  longest := by
    rintro more heq - other hother
    obtain rfl : more = [] := by simpa using heq.symm
    cases rightSide?_eq_some_iff.mpr hother
  blanks := Json.forall_of_all (by decide)

theorem foreign_sides_become_paths_shortened :
    expression? "x >=".toList = some (.arr [.str ">", getNode ['x'], getNode ['=']]) ∧ ¬ IsPath ['='] := by
  have hread : operand ['='] = getNode ['='] := rfl
  have foreign : ¬ shortened.Proper := fun ⟨j, hj⟩ => not_operand hread (by decide) j hj
  obtain ⟨-, -, hsplit⟩ := foreign_sides_become_paths "x >=".toList
  obtain ⟨hread, -, hforeign⟩ := hsplit shortened rfl
  obtain ⟨hnode, hname⟩ := hforeign foreign
  exact ⟨hnode ▸ hread, hname⟩

/-- Two words right of a sign are read as one path. -/
theorem words_become_a_path :
    (∃ j, expression? "count == a b".toList = some j ∧ j.paths = ["count", "a b"]) ∧
      (∀ j, ¬ Operand "a b".toList j) ∧ ¬ IsPath "a b".toList := by
  have hname : ¬ IsPath "a b".toList := by decide
  have hread : expression? "count == a b".toList =
    some (.arr [.str "==", getNode "count".toList, getNode "a b".toList]) := rfl
  refine ⟨⟨_, hread, ?_⟩, not_operand rfl hname, hname⟩
  simp [Json.paths, Json.pathsIn, paths_getNode]

end Comparison

end ReactiveScopes
