import Mathlib.Tactic.Common
import ReactiveScopes.Proofs.Isolation
import ReactiveScopes.Proofs.Spelling

/-!
# Comparisons as they are written

A comparison is a path, a sign and a right side with any blanks around them. Every such text is read as
the expression it stands for, whatever its quoted text holds: the path is the longest one, no longer
sign fits where a shorter one was written, and the right side is what is left between the blanks.
Evaluating the text and evaluating that expression come to the same.
-/
namespace ReactiveScopes.Comparison

section Characters

theorem toNat_of_isNameStart {c : Char} (h : isNameStart c) :
    c.toNat = 0x24 ∨ 0x41 ≤ c.toNat ∧ c.toNat ≤ 0x7A := by
  simp only [isNameStart, Bool.or_eq_true, Bool.and_eq_true, decide_eq_true_eq, beq_iff_eq, Char.le_def,
    UInt32.le_iff_toNat_le] at h
  unfold Char.toNat
  rcases h with ((h | h) | rfl) | rfl
  · change 0x61 ≤ c.val.toNat ∧ c.val.toNat ≤ 0x7A at h
    omega
  · change 0x41 ≤ c.val.toNat ∧ c.val.toNat ≤ 0x5A at h
    omega
  · decide
  · decide

theorem toNat_of_isPathChar {c : Char} (h : isPathChar c) :
    0x24 ≤ c.toNat ∧ c.toNat ≤ 0x39 ∨ 0x41 ≤ c.toNat ∧ c.toNat ≤ 0x7A := by
  simp only [isPathChar, isNameChar, Bool.or_eq_true, Bool.and_eq_true, decide_eq_true_eq, beq_iff_eq,
    Char.le_def, UInt32.le_iff_toNat_le] at h
  rcases h with (h | h) | rfl
  · have := toNat_of_isNameStart h
    omega
  · change 0x30 ≤ c.toNat ∧ c.toNat ≤ 0x39 at h
    omega
  · decide

theorem isBlank_of_isPathChar {c : Char} (h : isPathChar c) : Text.isBlank c = false := by
  have := toNat_of_isPathChar h
  exact Json.isBlank_of_visible (by omega)

theorem isPathChar_of_isBlank {c : Char} (h : Text.isBlank c) : isPathChar c = false := by
  cases hp : isPathChar c with
  | false => rfl
  | true => rw [isBlank_of_isPathChar hp] at h; cases h

/-- No digit of any script is a blank, and those of other scripts come after all the characters that
have a meaning in a comparison. -/
theorem toNat_of_isDigit {c : Char} (h : Text.isDigit c) :
    Text.isBlank c = false ∧ (0x30 ≤ c.toNat ∧ c.toNat ≤ 0x39 ∨ 0x660 ≤ c.toNat) := by
  obtain ⟨z, hz⟩ : ∃ z, Text.zeroDigits.find? (fun z => z ≤ c.toNat && c.toNat ≤ z + 9) = some z := by
    simpa [Text.isDigit, Text.digitValue?, Option.isSome_iff_exists] using h
  have hmem := List.mem_of_find?_eq_some hz
  have hrange := List.find?_some hz
  simp only [Bool.and_eq_true, decide_eq_true_eq] at hrange
  have hstart : ∀ z ∈ Text.zeroDigits, z = 0x30 ∨ 0x660 ≤ z := by decide
  have hblank : ∀ z ∈ Text.zeroDigits, ∀ r ∈ Text.blankRanges, z + 9 < r.1 ∨ r.2 < z := by decide
  constructor
  · simp only [Text.isBlank, List.any_eq_false, Bool.and_eq_true, decide_eq_true_eq]
    intro r hr
    have := hblank z hmem r hr
    omega
  · have := hstart z hmem
    omega

theorem isDigit_of_isNameStart {c : Char} (h : isNameStart c) : Text.isDigit c = false := by
  cases hd : Text.isDigit c with
  | false => rfl
  | true =>
    have := toNat_of_isNameStart h
    have := (toNat_of_isDigit hd).2
    omega

end Characters

section Operands

/-- A path name. -/
def IsPath (cs : List Char) : Prop := cs.head?.any isNameStart ∧ ∀ c ∈ cs, isPathChar c

instance (cs : List Char) : Decidable (IsPath cs) :=
  decidable_of_iff (cs.head?.any isNameStart ∧ cs.all isPathChar) (by simp [IsPath])

/-- A run of digits of any script. -/
def IsDigits (ds : List Char) : Prop := ds ≠ [] ∧ ∀ d ∈ ds, Text.isDigit d

def minus (negative : Bool) : List Char := if negative then ['-'] else []

/-- What may stand on the right side of a comparison, and the operand it is. -/
inductive Operand : List Char → Json → Prop
  | int (negative : Bool) {ds : List Char} (h : IsDigits ds) :
      Operand (minus negative ++ ds)
        (.int (if negative then -(Text.natOfDigits ds : Int) else Text.natOfDigits ds))
  | fraction (negative : Bool) {ds fs : List Char} (h : IsDigits ds) (hf : IsDigits fs) :
      Operand (minus negative ++ (ds ++ '.' :: fs))
        (.float (Number.ofDecimal negative (Text.natOfDigits (ds ++ fs)) (-(fs.length : Int))))
  | truth (b : Bool) : Operand (if b then "true" else "false").toList (.bool b)
  | quoted {q : Char} (hq : q = '\'' ∨ q = '"') {inside : List Char} (h : '\n' ∉ inside) :
      Operand (q :: (inside ++ [q])) (.str (String.ofList inside))
  | path {cs : List Char} (h : IsPath cs) (ht : cs ≠ "true".toList) (hf : cs ≠ "false".toList) :
      Operand cs (getNode cs)

/-- What a number is whose digits are followed by `rest`, which begins with none. -/
def numberBefore (negative : Bool) (ds rest : List Char) : Option Json :=
  match rest with
  | [] => some (.int (if negative then -(Text.natOfDigits ds : Int) else Text.natOfDigits ds))
  | '.' :: fs =>
    if fs.isEmpty || !fs.all Text.isDigit then none
    else some (.float (Number.ofDecimal negative (Text.natOfDigits (ds ++ fs)) (-(fs.length : Int))))
  | _ => none

theorem number?_digits (negative : Bool) {ds rest : List Char} (h : IsDigits ds)
    (hrest : ∀ c ∈ rest.head?, Text.isDigit c = false) :
    number? (minus negative ++ (ds ++ rest)) = numberBefore negative ds rest := by
  obtain ⟨hne, hds⟩ := h
  obtain ⟨htake, hdrop⟩ := Json.span_run hds hrest
  cases negative with
  | true =>
    rw [minus, if_pos rfl, List.singleton_append, number?]
    simp only [htake, hdrop, List.isEmpty_iff, hne, if_false]
    rfl
  | false =>
    obtain ⟨d, tail, hcons⟩ := List.exists_cons_of_ne_nil hne
    have hminus : d ≠ '-' := by
      rintro rfl
      have := (toNat_of_isDigit (hds '-' (by simp [hcons]))).2
      revert this
      decide
    have htext : minus false ++ (ds ++ rest) = d :: (tail ++ rest) := by simp [minus, hcons]
    have hwhole : d :: (tail ++ rest) = ds ++ rest := by simp [hcons]
    rw [htext, number?, hwhole]
    · simp only [htake, hdrop, List.isEmpty_iff, hne, if_false]
      rfl
    · simpa using hminus

theorem number?_none {c : Char} {cs : List Char} (hd : Text.isDigit c = false) (hm : c ≠ '-') :
    number? (c :: cs) = none := by
  rw [number?]
  · simp [hd]
  · simpa using hm

theorem IsDigits.fraction {fs : List Char} (h : IsDigits fs) :
    (fs.isEmpty || !fs.all Text.isDigit) = false := by
  simpa [h.1] using h.2

theorem IsPath.cons {cs : List Char} (h : IsPath cs) : ∃ c tail, cs = c :: tail ∧ isNameStart c := by
  obtain ⟨hstart, -⟩ := h
  cases cs with
  | nil => simp at hstart
  | cons c tail => exact ⟨c, tail, rfl, by simpa using hstart⟩

theorem unquoted?_none {c : Char} {cs : List Char} (h : c ≠ '\'' ∧ c ≠ '"') : unquoted? (c :: cs) = none := by
  simp [unquoted?, h.1, h.2]

theorem unquoted?_quoted {q : Char} (hq : q = '\'' ∨ q = '"') (inside : List Char) :
    unquoted? (q :: (inside ++ [q])) = some inside := by
  simp [unquoted?, hq]

/-- The operand of a text whose first character begins no number. -/
theorem operand_of_not_number {c : Char} {cs : List Char} (hd : Text.isDigit c = false) (hm : c ≠ '-')
    (ht : c :: cs ≠ "true".toList) (hf : c :: cs ≠ "false".toList) :
    operand (c :: cs) =
      ((unquoted? (c :: cs)).map fun inside => .str (String.ofList inside)).getD (getNode (c :: cs)) := by
  rw [operand, number?_none hd hm]
  simp only [if_neg ht, if_neg hf]
  cases unquoted? (c :: cs) <;> rfl

theorem Operand.read {cs : List Char} {j : Json} (h : Operand cs j) : operand cs = j := by
  cases h with
  | int negative h =>
    have hnumber := @number?_digits negative _ [] h (by simp)
    rw [List.append_nil] at hnumber
    rw [operand, hnumber]
    rfl
  | @fraction negative ds fs h hf =>
    have hnumber := @number?_digits negative _ ('.' :: fs) h (by simp; decide)
    rw [operand, hnumber, numberBefore, hf.fraction]
    rfl
  | truth b => cases b <;> rfl
  | @quoted q hq inside h =>
    have hcons : ∀ s : List Char, s.head? ≠ some '\'' → s.head? ≠ some '"' → q :: (inside ++ [q]) ≠ s := by
      rintro s h₁ h₂ rfl
      rcases hq with rfl | rfl <;> simp at h₁ h₂
    have hquote := unquoted?_quoted hq inside
    rw [operand_of_not_number (by rcases hq with rfl | rfl <;> decide)
      (by rcases hq with rfl | rfl <;> decide) (hcons _ (by decide) (by decide))
      (hcons _ (by decide) (by decide)), hquote]
    rfl
  | path h ht hf =>
    obtain ⟨c, tail, rfl, hc⟩ := h.cons
    have hrange := toNat_of_isNameStart hc
    have hne : ∀ d : Char, d.toNat = 0x2D ∨ d.toNat = 0x27 ∨ d.toNat = 0x22 → c ≠ d := by
      rintro d hd rfl
      omega
    rw [operand_of_not_number (isDigit_of_isNameStart hc) (hne '-' (by decide)) ht hf,
      unquoted?_none ⟨hne '\'' (by decide), hne '"' (by decide)⟩]
    rfl

end Operands

section Sides

/-- Text that begins and ends with something else than a blank. -/
structure Solid (cs : List Char) : Prop where
  head : ∃ c, cs.head? = some c ∧ Text.isBlank c = false
  last : ∃ c, cs.getLast? = some c ∧ Text.isBlank c = false

theorem Solid.of_all {cs : List Char} (hne : cs ≠ []) (h : ∀ c ∈ cs, Text.isBlank c = false) : Solid cs where
  head := ⟨cs.head hne, List.head?_eq_some_head hne, h _ (List.head_mem hne)⟩
  last := ⟨cs.getLast hne, List.getLast?_eq_some_getLast hne, h _ (List.getLast_mem hne)⟩

theorem trim_solid {before core after : List Char} (hb : ∀ c ∈ before, Text.isBlank c) (hc : Solid core)
    (ha : ∀ c ∈ after, Text.isBlank c) : Text.trim (before ++ (core ++ after)) = core := by
  obtain ⟨first, hfirst, hf⟩ := hc.head
  obtain ⟨last, hlast, hl⟩ := hc.last
  have hleft : Text.dropBlanks (before ++ (core ++ after)) = core ++ after :=
    (Json.span_run hb (by simpa [hfirst] using hf)).2
  have hright : Text.dropBlanks (after.reverse ++ core.reverse) = core.reverse :=
    (Json.span_run (by simpa using ha) (by simpa [List.head?_reverse, hlast] using hl)).2
  simp [Text.trim, Text.trimRight, hleft, hright]

theorem rightSide?_solid {before core after : List Char} (hb : ∀ c ∈ before, Text.isBlank c) (hc : Solid core)
    (hn : '\n' ∉ core) (ha : ∀ c ∈ after, Text.isBlank c) :
    rightSide? (before ++ (core ++ after)) = some core := by
  obtain ⟨first, hfirst, -⟩ := hc.head
  have hline : core.contains '\n' = false := by simpa using hn
  rw [rightSide?, trim_solid hb hc ha]
  cases core with
  | nil => simp at hfirst
  | cons c core => simp only [hline]; rfl

theorem minus_not_blank (negative : Bool) : ∀ c ∈ minus negative, Text.isBlank c = false := by
  cases negative <;> exact Json.forall_of_all (by decide)

theorem IsDigits.not_blank {ds : List Char} (h : IsDigits ds) : ∀ d ∈ ds, Text.isBlank d = false :=
  fun d hd => (toNat_of_isDigit (h.2 d hd)).1

theorem newline_not_mem {cs : List Char} (h : ∀ c ∈ cs, Text.isBlank c = false) : '\n' ∉ cs := by
  intro hmem
  exact absurd (h '\n' hmem) (by decide)

/-- Quoted text alone may hold blanks, but none at its ends and no line feed. -/
theorem Operand.solid {cs : List Char} {j : Json} (h : Operand cs j) : Solid cs ∧ '\n' ∉ cs := by
  have of_all : cs ≠ [] → (∀ c ∈ cs, Text.isBlank c = false) → Solid cs ∧ '\n' ∉ cs :=
    fun hne hall => ⟨Solid.of_all hne hall, newline_not_mem hall⟩
  cases h with
  | int negative h =>
    refine of_all (by simp [h.1]) fun c hc => ?_
    rcases List.mem_append.mp hc with hc | hc
    · exact minus_not_blank negative c hc
    · exact h.not_blank c hc
  | fraction negative h hf =>
    refine of_all (by simp) fun c hc => ?_
    simp only [List.mem_append, List.mem_cons] at hc
    rcases hc with hc | hc | rfl | hc
    · exact minus_not_blank negative c hc
    · exact h.not_blank c hc
    · decide
    · exact hf.not_blank c hc
  | truth b => exact of_all (by cases b <;> decide) (by cases b <;> exact Json.forall_of_all (by decide))
  | @quoted q hq inside h =>
    have hblank : Text.isBlank q = false := by rcases hq with rfl | rfl <;> decide
    refine ⟨⟨⟨q, rfl, hblank⟩, ⟨q, by simp [List.getLast?_cons], hblank⟩⟩, ?_⟩
    rcases hq with rfl | rfl <;> simp [h]
  | path h =>
    obtain ⟨c, tail, rfl, -⟩ := h.cons
    exact of_all (by simp) fun c hc => isBlank_of_isPathChar (h.2 c hc)

theorem head_minus_ne {negative : Bool} {ds rest : List Char} (h : IsDigits ds) :
    (minus negative ++ (ds ++ rest)).head? ≠ some '=' := by
  obtain ⟨d, tail, rfl⟩ := List.exists_cons_of_ne_nil h.1
  have hd := (toNat_of_isDigit (h.2 d (by simp))).2
  cases negative with
  | true => simp [minus]
  | false =>
    rintro heq
    obtain rfl : d = '=' := by simpa [minus] using heq
    revert hd
    decide

/-- No operand makes a sign longer. -/
theorem Operand.head_ne {cs : List Char} {j : Json} (h : Operand cs j) : cs.head? ≠ some '=' := by
  cases h with
  | @int negative ds h => simpa using @head_minus_ne negative ds [] h
  | fraction negative h hf => exact head_minus_ne h
  | truth b => cases b <;> decide
  | quoted hq h => rcases hq with rfl | rfl <;> simp
  | path h =>
    obtain ⟨c, tail, rfl, hc⟩ := h.cons
    rintro heq
    obtain rfl : c = '=' := by simpa using heq
    exact absurd hc (by decide)

end Sides

section Texts

theorem readPath?_append {x rest : List Char} (hx : IsPath x) (hrest : ∀ c ∈ rest.head?, isPathChar c = false) :
    readPath? (x ++ rest) = some (x, rest) := by
  obtain ⟨htake, hdrop⟩ := Json.span_run hx.2 hrest
  obtain ⟨c, tail, rfl, hc⟩ := hx.cons
  rw [readPath?, htake, hdrop]
  simp [hc]

/-- The sign that was written is the first one that fits. -/
theorem findSome?_sign {sign : String} (hs : sign ∈ signs) {rest right : List Char}
    (hne : rest.head? ≠ some '=') (hr : rightSide? rest = some right) :
    (signs.findSome? fun tried => do
      some (tried, ← rightSide? (← after? tried.toList (sign.toList ++ rest)))) = some (sign, right) := by
  have hlonger : after? ['='] rest = none := by
    cases rest with
    | nil => rfl
    | cons c rest => simpa [after?, eq_comm] using hne
  simp only [signs, List.mem_cons, List.not_mem_nil, or_false] at hs
  rcases hs with rfl | rfl | rfl | rfl | rfl | rfl | rfl <;>
    simp [signs, after?, hlonger, hr]

/-- A comparison as it is written: a path, a sign and a right side, and the blanks before, between and
after them. -/
structure Shorthand where
  path : List Char
  sign : String
  right : List Char
  operand : Json
  lead : List Char := []
  before : List Char := []
  after : List Char := []
  trail : List Char := []
  isPath : IsPath path
  isSign : sign ∈ signs
  isOperand : Operand right operand
  blanks : ∀ c ∈ lead ++ (before ++ (after ++ trail)), Text.isBlank c

namespace Shorthand

/-- The text without the blanks around it. -/
def core (x : Shorthand) : List Char := x.path ++ (x.before ++ (x.sign.toList ++ (x.after ++ x.right)))

def text (x : Shorthand) : List Char := x.lead ++ (x.core ++ x.trail)

/-- The expression it stands for. -/
def node (x : Shorthand) : Json := .arr [.str x.sign, getNode x.path, x.operand]

variable (x : Shorthand)

theorem lead_blank : ∀ c ∈ x.lead, Text.isBlank c := fun c hc => x.blanks c (by simp [hc])

theorem before_blank : ∀ c ∈ x.before, Text.isBlank c := fun c hc => x.blanks c (by simp [hc])

theorem after_blank : ∀ c ∈ x.after, Text.isBlank c := fun c hc => x.blanks c (by simp [hc])

theorem trail_blank : ∀ c ∈ x.trail, Text.isBlank c := fun c hc => x.blanks c (by simp [hc])

theorem sign_head {sign : String} (hs : sign ∈ signs) (rest : List Char) :
    ∀ c ∈ (sign.toList ++ rest).head?, isPathChar c = false ∧ Text.isBlank c = false := by
  simp only [signs, List.mem_cons, List.not_mem_nil, or_false] at hs
  rcases hs with rfl | rfl | rfl | rfl | rfl | rfl | rfl <;> simp <;> decide

/-- What follows the path. -/
def rest : List Char := x.before ++ (x.sign.toList ++ (x.after ++ (x.right ++ x.trail)))

theorem core_trail : x.core ++ x.trail = x.path ++ x.rest := by simp [core, rest]

theorem dropBlanks_text : Text.dropBlanks x.text = x.path ++ x.rest := by
  obtain ⟨first, tail, hpath, -⟩ := x.isPath.cons
  have hfirst := isBlank_of_isPathChar (x.isPath.2 first (by simp [hpath]))
  rw [← core_trail]
  exact (Json.span_run x.lead_blank (by simpa [core, hpath] using hfirst)).2

theorem readPath?_rest : readPath? (x.path ++ x.rest) = some (x.path, x.rest) :=
  readPath?_append x.isPath
    (Json.head_after_blanks (fun _ => isPathChar_of_isBlank) x.before_blank
      fun c hc => (sign_head x.isSign _ c hc).1)

theorem dropBlanks_rest :
    Text.dropBlanks x.rest = x.sign.toList ++ (x.after ++ (x.right ++ x.trail)) :=
  (Json.span_run x.before_blank fun c hc => (sign_head x.isSign _ c hc).2).2

/-- The right side does not make the sign longer. -/
theorem right_head_ne : (x.after ++ (x.right ++ x.trail)).head? ≠ some '=' := by
  have hright : ∀ c ∈ (x.right ++ x.trail).head?, (c == '=') = false := by
    obtain ⟨r, hr, -⟩ := x.isOperand.solid.1.head
    have hne := x.isOperand.head_ne
    rw [hr] at hne
    simpa [hr] using hne
  have hall := Json.head_after_blanks (p := (· == '=')) (fun c hc => by
    cases heq : c == '=' with
    | false => rfl
    | true =>
      rw [beq_iff_eq.mp heq] at hc
      exact absurd hc (by decide)) x.after_blank hright
  intro heq
  exact absurd (hall '=' (by simp [heq])) (by decide)

theorem comparison?_text : comparison? x.text = some x.node := by
  obtain ⟨hsolid, hline⟩ := x.isOperand.solid
  have hsign := findSome?_sign x.isSign x.right_head_ne
    (rightSide?_solid x.after_blank hsolid hline x.trail_blank)
  simp only [Option.bind_eq_bind] at hsign
  rw [comparison?, x.dropBlanks_text, x.readPath?_rest]
  simp only [Option.bind_eq_bind, Option.bind_some, x.dropBlanks_rest, hsign, x.isOperand.read]
  rfl

theorem expression?_text : expression? x.text = some x.node := by
  rw [expression?, x.comparison?_text]
  rfl

/-- The same comparison without the blanks around it. -/
def bare : Shorthand :=
  { x with
    lead := []
    trail := []
    blanks := fun c hc => x.blanks c (by
      simp only [List.nil_append, List.append_nil, List.mem_append] at hc ⊢
      tauto) }

theorem expression?_core : expression? x.core = some x.node := by
  have htext : x.bare.text = x.core := by simp [text, bare, core]
  rw [← htext]
  exact x.bare.expression?_text

theorem trim_text : Text.trim x.text = x.core := by
  obtain ⟨first, tail, hpath, -⟩ := x.isPath.cons
  obtain ⟨last, hlast, hl⟩ := x.isOperand.solid.1.last
  have hfirst := isBlank_of_isPathChar (x.isPath.2 first (by simp [hpath]))
  have hsolid : Solid x.core :=
    ⟨⟨first, by simp [core, hpath], hfirst⟩, ⟨last, by simp [core, List.getLast?_append, hlast], hl⟩⟩
  exact trim_solid x.lead_blank hsolid x.trail_blank

end Shorthand

end Texts

end ReactiveScopes.Comparison

namespace ReactiveScopes

open Eff

variable {κ α β : Type} {env : Env κ}

section Caching

/-- The same session with other texts compiled. -/
def Session.caching (w : Session κ) (c : Table String (Option Expr)) : Session κ := { w with compiled := c }

/-- An operation that neither asks which texts have been compiled nor compiles any. -/
structure Eff.IgnoresCache (m : Eff κ α) (env : Env κ) : Prop where
  run : ∀ w c, m env (w.caching c) = ((m env w).1, (m env w).2.caching c)

namespace Eff.IgnoresCache

theorem pure (a : α) : IgnoresCache (Pure.pure a : Eff κ α) env := ⟨fun _ _ => rfl⟩

theorem raise (f : Fault) : IgnoresCache (Eff.raise f : Eff κ α) env := ⟨fun _ _ => rfl⟩

theorem ofExcept (r : Except Fault α) : IgnoresCache (Eff.ofExcept r : Eff κ α) env := by
  cases r with
  | ok a => exact pure a
  | error f => exact raise f

theorem store : IgnoresCache (Eff.store : Eff κ Store) env := ⟨fun _ _ => rfl⟩

theorem notice (n : Notice) : IgnoresCache (Eff.notice n : Eff κ Unit) env := ⟨fun _ _ => rfl⟩

theorem build (m : Build α) : IgnoresCache (Eff.build m : Eff κ α) env where
  run w c := by
    simp only [Eff.build, Session.caching]
    cases m w.store <;> rfl

theorem bind {m : Eff κ α} {k : α → Eff κ β} (hm : IgnoresCache m env) (hk : ∀ a, IgnoresCache (k a) env) :
    IgnoresCache (m >>= k) env where
  run w c := by
    change Eff.bind m k env (w.caching c) = ((Eff.bind m k env w).1, (Eff.bind m k env w).2.caching c)
    rw [Eff.bind, Eff.bind, hm.run w c]
    rcases m env w with ⟨o, w'⟩
    cases o with
    | value a => exact (hk a).run w' c
    | fault | stopped | exhausted => rfl

theorem attempt {m : Eff κ α} (hm : IgnoresCache m env) : IgnoresCache m.attempt env where
  run w c := by
    rw [Eff.attempt, Eff.attempt, hm.run w c]
    rcases m env w with ⟨o, w'⟩
    cases o <;> rfl

theorem contain {m : Eff κ α} {P : Fault → Bool} {handle : Fault → Eff κ α} (hm : IgnoresCache m env)
    (hh : ∀ f, IgnoresCache (handle f) env) : IgnoresCache (Eff.contain m P handle) env := by
  refine bind hm.attempt fun r => ?_
  cases r with
  | ok a => exact pure a
  | error f =>
    by_cases hf : P f
    · simpa [hf] using hh f
    · simpa [hf] using raise f

end Eff.IgnoresCache

theorem Eff.contain_congr {m m' : Eff κ α} {P : Fault → Bool} {handle : Fault → Eff κ α} {w w' : Session κ}
    (h : m env w = m' env w') : contain m P handle env w = contain m' P handle env w' := by
  have hattempt : m.attempt env w = m'.attempt env w' := by simp only [attempt, h]
  change Eff.bind m.attempt _ env w = Eff.bind m'.attempt _ env w'
  simp only [Eff.bind, hattempt]

theorem Evaluation.get_ignoresCache (c : Context) (path : Value) :
    (Evaluation.get c path : Eff κ Value).IgnoresCache env := by
  refine .bind .store fun s => ?_
  split
  · split
    · refine .bind (.ofExcept _) fun base => ?_
      split
      · exact .pure base
      · exact .build _
    · exact .build _
  · exact .build _

theorem Evaluation.binary_ignoresCache (op : Operator) (a b : Value) :
    (Evaluation.binary op a b : Eff κ Value).IgnoresCache env := by
  have hcheck (s : Store) (r : Except Fault Bool) (f : Bool → Value) :
      (do return f (← ofExcept r) : Eff κ Value).IgnoresCache env :=
    .bind (.ofExcept r) fun x => .pure (f x)
  refine .bind .store fun s => ?_
  cases op <;> first | exact .pure _ | exact .build _ | exact hcheck s _ _

end Caching

section Meaning

open Comparison

/-- The operand of a comparison: a constant, or what a path leads to. -/
inductive Expr.IsSide : Expr → Prop
  | literal (v : Value) : IsSide (.literal v)
  | get (path : Value) : IsSide (.apply .get [.literal path])

theorem Expr.IsSide.ignoresCache {x : Expr} (h : x.IsSide) (c : Context) :
    (Evaluation.eval c x : Eff κ Value).IgnoresCache env := by
  cases h with
  | literal v =>
    rw [Evaluation.eval]
    exact .pure v
  | get path =>
    rw [Evaluation.eval, Evaluation.apply, Evaluation.eval]
    exact .contain (.bind (.pure path) fun p => Evaluation.get_ignoresCache c p)
      fun _ => .bind (.notice _) fun _ => .pure _

theorem compile_getNode (path : List Char) :
    (Raw.ofJson (getNode path)).compile = (.apply .get [.literal (.text (String.ofList path))], []) := rfl

theorem Comparison.Operand.compile {cs : List Char} {j : Json} (h : Operand cs j) :
    ∃ x : Expr, x.IsSide ∧ (Raw.ofJson j).compile = (x, []) := by
  cases h with
  | int | fraction | truth | quoted => exact ⟨_, .literal _, rfl⟩
  | path => exact ⟨_, .get _, compile_getNode cs⟩

/-- Every sign is an operator on two operands that both are evaluated. -/
theorem sign_operator {sign : String} (hs : sign ∈ signs) :
    ∃ op : Operator, Operator.ofSymbol? sign = some op ∧ op.accepts 2 = true ∧
      ∀ (c : Context) (a b : Expr), (Evaluation.apply c op [a, b] : Eff κ Value) =
        Evaluation.eval c a >>= fun v => Evaluation.eval c b >>= fun u => Evaluation.binary op v u := by
  simp only [signs, List.mem_cons, List.not_mem_nil, or_false] at hs
  rcases hs with rfl | rfl | rfl | rfl | rfl | rfl | rfl <;>
    exact ⟨_, rfl, rfl, fun _ _ _ => by rw [Evaluation.apply] <;> nofun⟩

theorem Comparison.Shorthand.compile (x : Shorthand) : ∃ y : Expr, (Raw.ofJson x.node).compile = (y, []) ∧
    ∀ c : Context, (Evaluation.eval c y : Eff κ Value).IgnoresCache env := by
  obtain ⟨right, hside, hright⟩ := x.isOperand.compile
  obtain ⟨op, hop, harity, happly⟩ := sign_operator (κ := κ) x.isSign
  have hleft : Expr.IsSide (.apply .get [.literal (.text (String.ofList x.path))]) := .get _
  refine ⟨.apply op [.apply .get [.literal (.text (String.ofList x.path))], right], ?_, fun c => ?_⟩
  · have hlist : Raw.ofJson x.node =
        .list [.scalar (.text x.sign), Raw.ofJson (getNode x.path), Raw.ofJson x.operand] := rfl
    rw [hlist, Raw.compile]
    simp only [Raw.word?, Value.text?, hop, Raw.compileAll, compile_getNode, hright, List.length_cons,
      List.length_nil, harity, if_true, List.nil_append]
  · have hboth : (Evaluation.apply c op [.apply .get [.literal (.text (String.ofList x.path))], right] :
        Eff κ Value).IgnoresCache env := by
      rw [happly]
      exact .bind (hleft.ignoresCache c) fun a => .bind (hside.ignoresCache c) fun b =>
        Evaluation.binary_ignoresCache op a b
    rw [Evaluation.eval]
    exact .contain hboth fun _ => .bind (.notice _) fun _ => .pure _

end Meaning

section Evaluating

open Comparison

mutual

/-- A value of the store that is a JSON value. -/
def Store.Shows (s : Store) : Json → Value → Prop
  | .null, v => v = .none
  | .bool b, v => v = .bool b
  | .int i, v => v = .int i
  | .float x, v => v = .ofFloat x
  | .str t, v => v = .text t
  | .arr items, v => ∃ r us, v = .ref r ∧ s.cell? r = some (.list us) ∧ s.ShowsItems items us
  | .obj fields, v => ∃ r t, v = .ref r ∧ s.cell? r = some (.dict t) ∧ s.ShowsFields fields t.entries

def Store.ShowsItems (s : Store) : List Json → List Value → Prop
  | [], us => us = []
  | j :: js, us => ∃ v vs, us = v :: vs ∧ s.Shows j v ∧ s.ShowsItems js vs

def Store.ShowsFields (s : Store) : List (String × Json) → List (Value × Value) → Prop
  | [], es => es = []
  | (k, j) :: fs, es => ∃ v rest, es = (.text k, v) :: rest ∧ s.Shows j v ∧ s.ShowsFields fs rest

end

variable {s s' : Store}

mutual

theorem Store.Shows.kept (hs : s.Extends s') : ∀ {j : Json} {v : Value}, s.Shows j v → s'.Shows j v
  | .null, _, h | .bool _, _, h | .int _, _, h | .float _, _, h | .str _, _, h => h
  | .arr _, _, ⟨r, us, hv, hr, hus⟩ => ⟨r, us, hv, hs.kept hr, hus.kept hs⟩
  | .obj _, _, ⟨r, t, hv, hr, ht⟩ => ⟨r, t, hv, hs.kept hr, ht.kept hs⟩

theorem Store.ShowsItems.kept (hs : s.Extends s') :
    ∀ {js : List Json} {us : List Value}, s.ShowsItems js us → s'.ShowsItems js us
  | [], _, h => h
  | _ :: _, _, ⟨v, vs, hus, hv, hvs⟩ => ⟨v, vs, hus, hv.kept hs, hvs.kept hs⟩

theorem Store.ShowsFields.kept (hs : s.Extends s') :
    ∀ {fs : List (String × Json)} {es : List (Value × Value)}, s.ShowsFields fs es → s'.ShowsFields fs es
  | [], _, h => h
  | (_, _) :: _, _, ⟨v, rest, hes, hv, hrest⟩ => ⟨v, rest, hes, hv.kept hs, hrest.kept hs⟩

end

theorem ofValueWithin_list {r : Ref} {vs : List Value} (h : s.cell? r = some (.list vs)) (fuel : Nat) :
    Raw.ofValueWithin s (fuel + 1) (.ref r) = .list (vs.map (Raw.ofValueWithin s fuel)) := by
  simp [Raw.ofValueWithin, Store.look, h]

/-- The node of a path is a list of two texts. -/
theorem Store.Shows.getNode {path : List Char} {v : Value} (h : s.Shows (getNode path) v) :
    ∃ r, v = .ref r ∧ s.cell? r = some (.list [.text "get", .text (String.ofList path)]) := by
  obtain ⟨r, us, rfl, hr, _, _, rfl, hget, _, _, rfl, hpath, hnil⟩ := h
  cases hget
  cases hpath
  cases hnil
  exact ⟨r, rfl, hr⟩

theorem Store.Shows.ofValue_getNode {path : List Char} {v : Value} (h : s.Shows (Comparison.getNode path) v)
    (fuel : Nat) : Raw.ofValueWithin s (fuel + 2) v = Raw.ofJson (Comparison.getNode path) := by
  obtain ⟨r, rfl, hr⟩ := h.getNode
  rw [ofValueWithin_list hr]
  rfl

theorem ofValueWithin_float (x : Float) (fuel : Nat) :
    Raw.ofValueWithin s (fuel + 1) (.ofFloat x) = .scalar (.ofFloat x) := by
  unfold Value.ofFloat
  split <;> rfl

theorem Comparison.Operand.ofValue {cs : List Char} {j : Json} (hj : Operand cs j) {v : Value} (h : s.Shows j v)
    (fuel : Nat) : Raw.ofValueWithin s (fuel + 2) v = Raw.ofJson j := by
  cases hj with
  | int | truth | quoted => cases h; rfl
  | fraction => cases h; exact ofValueWithin_float _ (fuel + 1)
  | path => exact h.ofValue_getNode fuel

/-- The node of a comparison takes two lists at least, so that it is read to its end. -/
theorem Comparison.Shorthand.ofValue (x : Shorthand) {v : Value} (h : s.Shows x.node v) :
    Raw.ofValue s v = Raw.ofJson x.node := by
  obtain ⟨r, us, rfl, hr, _, _, rfl, hsign, left, _, rfl, hleft, right, _, rfl, hright, hnil⟩ := h
  cases hsign
  cases hnil
  obtain ⟨g, rfl, hg⟩ := hleft.getNode
  have hne : r.index ≠ g.index := by
    intro heq
    have hsame : r = g := by cases r; cases g; simp_all
    rw [hsame, hg] at hr
    simp at hr
  have hr' : r.index < s.cells.size := (Array.getElem?_eq_some_iff.mp hr).1
  have hg' : g.index < s.cells.size := (Array.getElem?_eq_some_iff.mp hg).1
  obtain ⟨fuel, hfuel⟩ : ∃ fuel, s.depth = fuel + 3 := ⟨s.cells.size - 2, by unfold Store.depth; omega⟩
  rw [Raw.ofValue, hfuel, ofValueWithin_list hr]
  simp only [List.map_cons, List.map_nil, hleft.ofValue_getNode fuel, x.isOperand.ofValue hright fuel]
  rfl

variable {w w' : Session κ} {e : Nat} {ev : Evaluation} {record : Value} {c : Capabilities}

/-- The cache holds for a text, if anything, what compiling the text gives. -/
def Session.Recalls (w : Session κ) (text : String) : Prop :=
  ∀ known, w.compiled.get? text = some known → (Source.compile? text).map (Option.map Prod.fst) = .ok known

theorem compile?_core (x : Shorthand) {y : Expr} (hy : (Raw.ofJson x.node).compile = (y, [])) :
    Source.compile? (String.ofList x.core) = .ok (some (y, [])) := by
  simp [Source.compile?, Source.raw?, x.expression?_core, Except.map, hy]

/-- Compiling the text of a comparison changes at most the cache. -/
theorem compileText_core (x : Shorthand) {y : Expr} (hy : (Raw.ofJson x.node).compile = (y, []))
    (hw : w.Recalls (String.ofList x.core)) :
    ∃ cache, Scope.compileText (String.ofList x.core) env w = (.value (some y), w.caching cache) := by
  have hcompile := compile?_core x hy
  unfold Scope.compileText
  rw [bind_read]
  cases hknown : w.compiled.get? (String.ofList x.core) with
  | some known =>
    have hsame := hw known hknown
    rw [hcompile] at hsame
    cases hsame
    exact ⟨w.compiled, rfl⟩
  | none =>
    dsimp only
    rw [hcompile]
    exact ⟨_, rfl⟩

theorem Session.Recalls.insert {name : String} {known : Option Expr} (hw : ∀ text, w.Recalls text)
    (h : (Source.compile? name).map (Option.map Prod.fst) = .ok known) (text : String) :
    (w.caching (w.compiled.insert name known)).Recalls text := by
  intro k hk
  rw [Session.caching, Table.get?_insert] at hk
  split at hk
  · next heq =>
    cases hk
    rw [← heq]
    exact h
  · exact hw text k hk

/-- The cache is only ever filled with what compiling gives. -/
theorem compileText_recalls (hw : ∀ text, w.Recalls text) (name text : String) :
    (Scope.compileText name env w).2.Recalls text := by
  unfold Scope.compileText
  rw [bind_read]
  cases hknown : w.compiled.get? name with
  | some known => exact hw text
  | none =>
    dsimp only
    cases hcompile : Source.compile? name with
    | error f => exact hw text
    | ok compiled =>
      rw [bind_ofExcept_ok]
      cases compiled with
      | none => exact Session.Recalls.insert hw (by rw [hcompile]; rfl) text
      | some compiled =>
        obtain ⟨j, hj⟩ := Fence.forM_notice compiled.2 env w
        dsimp only
        rw [bind_value hj]
        exact Session.Recalls.insert (w := { w with journal := j }) hw (by rw [hcompile]; rfl) text

/-- Whatever extras come to, they add to the store at most. -/
theorem ofExtras_extends {extras : Extras} (h : Capabilities.ofExtras extras env w = (.value c, w')) :
    w.store.Extends w'.store ∧ w'.compiled = w.compiled := by
  cases extras with
  | capabilities c =>
    cases h
    exact ⟨.refl, rfl⟩
  | mapping v =>
    have htruthy : (truthy v : Eff κ Bool) env w = (.value (w.store.truthy v), w) := rfl
    unfold Capabilities.ofExtras at h
    dsimp only at h
    rw [bind_value htruthy] at h
    cases hv : w.store.truthy v with
    | false =>
      rw [hv] at h
      cases h
      exact ⟨.refl, rfl⟩
    | true =>
      rw [hv, if_neg (by simp), bind_store] at h
      cases ht : w.store.mapping? v with
      | none =>
        rw [ht] at h
        cases h
      | some t =>
        rw [ht] at h
        cases h
        exact ⟨.alloc rfl, rfl⟩

/-- The node of a comparison is evaluated as its expression. -/
theorem resolve_node (x : Shorthand) {y : Expr} (hy : (Raw.ofJson x.node).compile = (y, []))
    {node : Value} (hnode : w.store.Shows x.node node) :
    Scope.resolve e { ev with source := node } record c env w =
      Evaluation.eval ⟨record, c, (w.engine e).pub⟩ y env w := by
  have hcompile : Scope.compileValue node env w = (.value y, w) := by
    unfold Scope.compileValue
    rw [bind_store, x.ofValue hnode, hy]
    rfl
  obtain ⟨r, -, rfl, -⟩ := hnode
  unfold Scope.resolve
  rw [bind_engine]
  dsimp only [Value.text?]
  rw [bind_value hcompile]

/-- The text of a comparison is evaluated as its expression, once that has been compiled. -/
theorem resolve_text (x : Shorthand) {y : Expr} (hy : (Raw.ofJson x.node).compile = (y, []))
    (hw : w.Recalls (String.ofList x.core)) :
    ∃ cache, Scope.resolve e { ev with source := .text (String.ofList x.text) } record c env w =
      Evaluation.eval ⟨record, c, (w.engine e).pub⟩ y env (w.caching cache) := by
  obtain ⟨cache, hcompile⟩ := @compileText_core κ env w x y hy hw
  have hattempt : (Scope.compileText (String.ofList x.core)).attempt env w =
      (.value (.ok (some y)), w.caching cache) := by simp only [attempt, hcompile]
  refine ⟨cache, ?_⟩
  unfold Scope.resolve
  rw [bind_engine]
  dsimp only [Value.text?]
  rw [String.toList_ofList, x.trim_text, bind_value hattempt]

/-- Two computations that begin alike, and go on alike but for the cache, are alike but for the cache. -/
theorem bind_caching {m : Eff κ α} {k k' : α → Eff κ β}
    (h : ∀ a w₁, m env w = (.value a, w₁) →
      ∃ cache, k a env w₁ = ((k' a env w₁).1, (k' a env w₁).2.caching cache)) :
    ∃ cache, (m >>= k) env w = (((m >>= k') env w).1, ((m >>= k') env w).2.caching cache) := by
  rcases hm : m env w with ⟨o, w₁⟩
  cases o with
  | value a =>
    rw [bind_value hm, bind_value hm]
    exact h a w₁ hm
  | fault | stopped | exhausted =>
    refine ⟨w₁.compiled, ?_⟩
    change Eff.bind m k env w = ((Eff.bind m k' env w).1, (Eff.bind m k' env w).2.caching w₁.compiled)
    simp only [Eff.bind, hm]
    rfl

/-- What follows once the state has been found. -/
theorem evaluate_text_of_node (x : Shorthand) {node : Value}
    (hfound : ∀ found w₀, Scope.find e ev.scope env w = (.value found, w₀) →
      w₀.Recalls (String.ofList x.core) ∧ w₀.store.Shows x.node node) :
    ∃ cache, Scope.evaluate e { ev with source := .text (String.ofList x.text) } env w =
      ((Scope.evaluate e { ev with source := node } env w).1,
        (Scope.evaluate e { ev with source := node } env w).2.caching cache) := by
  obtain ⟨y, hy, hignores⟩ := @Shorthand.compile κ env x
  unfold Scope.evaluate
  dsimp only
  refine bind_caching fun found w₀ hfind => ?_
  obtain ⟨hw, hnode⟩ := hfound found w₀ hfind
  cases found with
  | none => exact ⟨w₀.compiled, rfl⟩
  | some found =>
    dsimp only
    refine bind_caching fun c w₁ hextras => ?_
    obtain ⟨hext, hcompiled⟩ := ofExtras_extends hextras
    have hw₁ : w₁.Recalls (String.ofList x.core) := by
      unfold Session.Recalls
      rw [hcompiled]
      exact hw
    have hvalue := @resolve_node κ env w₁ e ev found.2 c x y hy node (hnode.kept hext)
    obtain ⟨cache, htext⟩ := @resolve_text κ env w₁ e ev found.2 c x y hy hw₁
    rw [contain_congr hvalue, contain_congr htext]
    refine ⟨cache, (IgnoresCache.contain (hignores _) fun f => ?_).run w₁ cache⟩
    exact .bind (.notice _) fun _ => .pure _

/-- A name that holds a sign, quotes and blanks at its ends, and an expression that compares it. -/
def Session.named : Session Unit where
  memory := ()
  store := { cells := #[.dict (Mapping.ofFields [("name", .text " x > 'y' ")]), .record ⟨0⟩ .none,
    .list [.text "get", .text "name"], .list [.text "==", .ref ⟨2⟩, .text " x > 'y' "]] }
  engines := Table.empty.insert 0 { records := Table.empty.insert (.scope "s") (.ref ⟨1⟩) }

/-- The same comparison as it may be written. -/
def nameComparison : Shorthand where
  path := "name".toList
  sign := "=="
  right := "\" x > 'y' \"".toList
  operand := .str " x > 'y' "
  lead := ['\t']
  before := [' ']
  trail := ['\n']
  isPath := by decide
  isSign := by decide
  isOperand := @Operand.quoted '"' (.inr rfl) " x > 'y' ".toList (by decide)
  blanks := Json.forall_of_all (by decide)

def Env.brief : Env Unit := .within (fun _ => { body := fun _ => .quit }) 2

end Evaluating

end ReactiveScopes
