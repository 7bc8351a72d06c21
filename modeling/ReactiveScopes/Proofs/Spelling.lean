import ReactiveScopes.Json.Reader
import ReactiveScopes.Text.Blank

/-!
# The spelling of numbers, names and strings

How a number, a name or a string may be written in JSON text, told apart from the scanner: a number by
its parts, a string by what may stand between its quotes. The scanner reads each of them as what it
spells, whatever follows the closing quote.
-/
namespace ReactiveScopes.Json

section Runs

/-- What holds of all characters of a text can be found out one by one. -/
theorem forall_of_all {p : Char → Prop} [DecidablePred p] {cs : List Char} (h : cs.all fun c => decide (p c)) :
    ∀ c ∈ cs, p c :=
  fun c hc => of_decide_eq_true (List.all_eq_true.mp h c hc)

/-- A run ends where the first character that does not belong to it stands. -/
theorem span_run {p : Char → Bool} {run rest : List Char} (hrun : ∀ c ∈ run, p c)
    (hrest : ∀ c ∈ rest.head?, p c = false) :
    (run ++ rest).takeWhile p = run ∧ (run ++ rest).dropWhile p = rest := by
  rw [List.takeWhile_append_of_pos hrun, List.dropWhile_append_of_pos hrun]
  cases rest with
  | nil => simp
  | cons c rest => simp [hrest c (by simp)]

/-- A run that no blank goes on ends before blanks and before what does not go on with it. -/
theorem head_after_blanks {p : Char → Bool} (hp : ∀ c, Text.isBlank c → p c = false) {blanks rest : List Char}
    (hb : ∀ c ∈ blanks, Text.isBlank c) (hrest : ∀ c ∈ rest.head?, p c = false) :
    ∀ c ∈ (blanks ++ rest).head?, p c = false := by
  cases blanks with
  | nil => simpa using hrest
  | cons b blanks =>
    intro c hc
    obtain rfl : b = c := by simpa using hc
    exact hp b (hb b (by simp))

/-- No blank stands among the visible characters of ASCII. -/
theorem isBlank_of_visible {c : Char} (h : 0x21 ≤ c.toNat ∧ c.toNat ≤ 0x7E) : Text.isBlank c = false := by
  simp [Text.isBlank, Text.blankRanges]
  omega

end Runs

section Words

/-- A run of digits. -/
structure Digits where
  chars : List Char
  ne_nil : chars ≠ []
  digits : ∀ c ∈ chars, isAsciiDigit c

/-- The exponent of a number; `sign` is `true` for a minus, `false` for a plus. -/
structure Exponent where
  capital : Bool
  sign : Option Bool
  digits : Digits

/-- A number as it is spelled; only a lone zero may lead. -/
structure Numeral where
  negative : Bool
  whole : Digits
  fraction : Option Digits
  exponent : Option Exponent
  lead : whole.chars.head? = some '0' → whole.chars.length ≤ 1

def Exponent.signText (e : Exponent) : List Char :=
  match e.sign with
  | none => []
  | some true => ['-']
  | some false => ['+']

def Exponent.text (e : Exponent) : List Char :=
  (if e.capital then 'E' else 'e') :: (e.signText ++ e.digits.chars)

def Exponent.value (e : Exponent) : Int :=
  if e.sign = some true then -(natOfAscii e.digits.chars : Int) else natOfAscii e.digits.chars

namespace Numeral

def fractionText (n : Numeral) : List Char :=
  match n.fraction with
  | none => []
  | some ds => '.' :: ds.chars

def exponentText (n : Numeral) : List Char := (n.exponent.map Exponent.text).getD []

def text (n : Numeral) : List Char :=
  (if n.negative then ['-'] else []) ++ (n.whole.chars ++ (n.fractionText ++ n.exponentText))

/-- A number with a fraction or an exponent is a double, any other one is whole. -/
def value (n : Numeral) : Json :=
  match n.fraction, n.exponent with
  | none, none =>
    .int (if n.negative then -(natOfAscii n.whole.chars : Int) else natOfAscii n.whole.chars)
  | fraction, exponent =>
    let places := (fraction.map Digits.chars).getD []
    .float (Number.ofDecimal n.negative (natOfAscii (n.whole.chars ++ places))
      ((exponent.map Exponent.value).getD 0 - places.length))

end Numeral

/-- The values that have a name. -/
def names : List (String × Json) :=
  [("null", .null), ("true", .bool true), ("false", .bool false), ("NaN", .float (0.0 / 0.0)),
   ("Infinity", .float (1.0 / 0.0)), ("-Infinity", .float (-1.0 / 0.0))]

/-- The words that stand for a value. -/
inductive Word : List Char → Json → Prop
  | name {s : String} {v : Json} (h : (s, v) ∈ names) : Word s.toList v
  | number (n : Numeral) : Word n.text n.value

theorem readExponent?_text (e : Exponent) : readExponent? e.text = some (some e.value) := by
  obtain ⟨capital, sign, ⟨ds, hne, hds⟩⟩ := e
  have hall : ds.all isAsciiDigit = true := List.all_eq_true.mpr hds
  -- without a sign the first digit must not be taken for one
  obtain ⟨d, ds, rfl⟩ := List.exists_cons_of_ne_nil hne
  have hd : isAsciiDigit d = true := hds d (by simp)
  have hminus : d ≠ '-' := by rintro rfl; simp [isAsciiDigit] at hd
  have hplus : d ≠ '+' := by rintro rfl; simp [isAsciiDigit] at hd
  rcases sign with _ | _ | _ <;> cases capital <;>
    simp_all [readExponent?, Exponent.text, Exponent.signText, Exponent.value]

theorem Exponent.text_head (e : Exponent) : ∀ c ∈ e.text.head?, isAsciiDigit c = false := by
  intro c hc
  cases h : e.capital <;> simp [Exponent.text, h] at hc <;> subst hc <;> decide

theorem Numeral.exponentText_head (n : Numeral) :
    ∀ c ∈ n.exponentText.head?, isAsciiDigit c = false := by
  cases h : n.exponent with
  | none => simp [exponentText, h]
  | some e => simpa [exponentText, h] using e.text_head

theorem readExponent?_numeral (n : Numeral) :
    readExponent? n.exponentText = some (n.exponent.map Exponent.value) := by
  cases h : n.exponent with
  | none => simp [Numeral.exponentText, h, readExponent?]
  | some e => simp [Numeral.exponentText, h, readExponent?_text]

theorem readFraction?_numeral (n : Numeral) :
    readFraction? (n.fractionText ++ n.exponentText) =
      some (n.fraction.map Digits.chars, n.exponentText) := by
  cases h : n.fraction with
  | none =>
    have hpoint : ∀ cs, n.exponentText ≠ '.' :: cs := by
      cases he : n.exponent with
      | none => simp [Numeral.exponentText, he]
      | some e => cases hc : e.capital <;> simp [Numeral.exponentText, he, Exponent.text, hc]
    simp only [Numeral.fractionText, h, List.nil_append, readFraction?, Option.map_none]
  | some ds =>
    obtain ⟨htake, hdrop⟩ := span_run ds.digits n.exponentText_head
    simp [Numeral.fractionText, h, readFraction?, htake, hdrop, ds.ne_nil]

theorem readNumber?_text (n : Numeral) : readNumber? n.text = some n.value := by
  have hrest : ∀ c ∈ (n.fractionText ++ n.exponentText).head?, isAsciiDigit c = false := by
    cases h : n.fraction with
    | none => simpa [Numeral.fractionText, h] using n.exponentText_head
    | some ds => simp [Numeral.fractionText, h]; decide
  obtain ⟨htake, hdrop⟩ := span_run n.whole.digits hrest
  obtain ⟨d, ds, hds⟩ := List.exists_cons_of_ne_nil n.whole.ne_nil
  have hminus : d ≠ '-' := by
    rintro rfl
    simpa [isAsciiDigit] using n.whole.digits '-' (by simp [hds])
  have hlead : ¬ (n.whole.chars.head? = some '0' ∧ 1 < n.whole.chars.length) := by
    rintro ⟨hzero, hlong⟩
    have := n.lead hzero
    omega
  have hnonempty : (n.whole.chars.isEmpty || (n.whole.chars.head? == some '0' &&
      decide (n.whole.chars.length > 1))) = false := by simpa [n.whole.ne_nil] using hlead
  cases hn : n.negative with
  | true =>
    have htext : n.text = '-' :: (n.whole.chars ++ (n.fractionText ++ n.exponentText)) := by
      simp [Numeral.text, hn]
    rw [htext, readNumber?]
    simp only [htake, hdrop, hnonempty, readFraction?_numeral, readExponent?_numeral,
      Option.bind_eq_bind, Option.bind_some]
    cases hf : n.fraction <;> cases he : n.exponent <;> simp [Numeral.value, hf, he, hn]
  | false =>
    have htext : n.text = d :: (ds ++ (n.fractionText ++ n.exponentText)) := by
      simp [Numeral.text, hn, hds]
    have hwhole : d :: (ds ++ (n.fractionText ++ n.exponentText)) =
        n.whole.chars ++ (n.fractionText ++ n.exponentText) := by simp [hds]
    rw [htext, readNumber?, hwhole]
    · simp only [htake, hdrop, hnonempty, readFraction?_numeral, readExponent?_numeral,
        Option.bind_eq_bind, Option.bind_some]
      cases hf : n.fraction <;> cases he : n.exponent <;> simp [Numeral.value, hf, he, hn]
    · simpa using hminus

/-- No number is taken for a name. -/
theorem readWord?_of_readNumber? {cs : List Char} {v : Json} (h : readNumber? cs = some v) :
    readWord? cs = some v := by
  have hne : ∀ s : String, readNumber? s.toList = none → String.ofList cs ≠ s := by
    rintro s hs rfl
    rw [String.toList_ofList, h] at hs
    cases hs
  have hnull := hne "null" (by decide)
  have htrue := hne "true" (by decide)
  have hfalse := hne "false" (by decide)
  have hnan := hne "NaN" (by decide)
  have hinf := hne "Infinity" (by decide)
  have hminf := hne "-Infinity" (by decide)
  simp [readWord?, h]

theorem Word.read {cs : List Char} {v : Json} (h : Word cs v) : readWord? cs = some v := by
  cases h with
  | name h =>
    simp only [names, List.mem_cons, Prod.mk.injEq, List.not_mem_nil, or_false] at h
    rcases h with ⟨rfl, rfl⟩ | ⟨rfl, rfl⟩ | ⟨rfl, rfl⟩ | ⟨rfl, rfl⟩ | ⟨rfl, rfl⟩ | ⟨rfl, rfl⟩ <;> rfl
  | number n => exact readWord?_of_readNumber? (readNumber?_text n)

theorem isWordChar_of_digit {c : Char} (h : isAsciiDigit c) : isWordChar c := by
  simp [isWordChar, h]

theorem Numeral.text_word (n : Numeral) : ∀ c ∈ n.text, isWordChar c := by
  have hdigits : ∀ (ds : Digits), ∀ c ∈ ds.chars, isWordChar c :=
    fun ds c hc => isWordChar_of_digit (ds.digits c hc)
  have hfraction : ∀ c ∈ n.fractionText, isWordChar c := by
    intro c hc
    cases h : n.fraction with
    | none => simp [fractionText, h] at hc
    | some ds =>
      simp only [fractionText, h, List.mem_cons] at hc
      rcases hc with rfl | hc
      · decide
      · exact hdigits ds c hc
  have hexponent : ∀ c ∈ n.exponentText, isWordChar c := by
    intro c hc
    cases h : n.exponent with
    | none => simp [exponentText, h] at hc
    | some e =>
      simp only [exponentText, h, Exponent.text, Option.map_some, Option.getD_some, List.mem_cons,
        List.mem_append] at hc
      rcases hc with rfl | hc | hc
      · cases e.capital <;> decide
      · rcases hs : e.sign with _ | _ | _ <;> simp [Exponent.signText, hs] at hc <;> subst hc <;> decide
      · exact hdigits e.digits c hc
  intro c hc
  simp only [text, List.mem_append] at hc
  rcases hc with hc | hc | hc | hc
  · cases hn : n.negative <;> simp [hn] at hc
    subst hc
    decide
  · exact hdigits n.whole c hc
  · exact hfraction c hc
  · exact hexponent c hc

theorem Word.chars {cs : List Char} {v : Json} (h : Word cs v) : cs ≠ [] ∧ ∀ c ∈ cs, isWordChar c := by
  cases h with
  | name h =>
    revert h
    simp only [names, List.mem_cons, Prod.mk.injEq, List.not_mem_nil, or_false]
    rintro (⟨rfl, -⟩ | ⟨rfl, -⟩ | ⟨rfl, -⟩ | ⟨rfl, -⟩ | ⟨rfl, -⟩ | ⟨rfl, -⟩) <;>
      exact ⟨by decide, forall_of_all (by decide)⟩
  | number n => exact ⟨by simp [Numeral.text, n.whole.ne_nil], n.text_word⟩

end Words

section Strings

/-- What may stand after a backslash, beside a numeric escape, and what it means. -/
def shortEscapes : List (Char × Char) :=
  [('"', '"'), ('\\', '\\'), ('/', '/'), ('b', Char.ofNat 8), ('f', Char.ofNat 12), ('n', '\n'),
   ('r', '\r'), ('t', '\t')]

/-- The hexadecimal digits and their values. -/
def nibbles : List (Char × Nat) :=
  "0123456789abcdefABCDEF".toList.zip (List.range 16 ++ [10, 11, 12, 13, 14, 15])

/-- Four hexadecimal digits and the number they write. -/
inductive Code : List Char → Nat → Prop
  | mk {a b c d : Char} {i j k l : Nat} (ha : (a, i) ∈ nibbles) (hb : (b, j) ∈ nibbles)
      (hc : (c, k) ∈ nibbles) (hd : (d, l) ∈ nibbles) :
      Code [a, b, c, d] (16 * (16 * (16 * i + j) + k) + l)

/-- Characters that a string may hold as they are. -/
def IsPlain (c : Char) : Prop := c ≠ '"' ∧ c ≠ '\\' ∧ 0x20 ≤ c.toNat

instance (c : Char) : Decidable (IsPlain c) := inferInstanceAs (Decidable (_ ∧ _))

/-- What may stand between the quotes of a string, and the characters it spells. -/
inductive Spells : List Char → List Char → Prop
  | nil : Spells [] []
  | plain {c : Char} {body cs : List Char} (hc : IsPlain c) (h : Spells body cs) :
      Spells (c :: body) (c :: cs)
  | short {e c : Char} {body cs : List Char} (he : (e, c) ∈ shortEscapes) (h : Spells body cs) :
      Spells ('\\' :: e :: body) (c :: cs)
  | code {c : Char} {ds body cs : List Char} (hd : Code ds c.toNat) (h : Spells body cs) :
      Spells ('\\' :: 'u' :: (ds ++ body)) (c :: cs)
  | pair {c : Char} {hi lo : Nat} {ds es body cs : List Char} (hhi : hi < 0x400) (hlo : lo < 0x400)
      (hc : c.toNat = 0x10000 + hi * 0x400 + lo) (hd : Code ds (0xD800 + hi)) (he : Code es (0xDC00 + lo))
      (h : Spells body cs) : Spells ('\\' :: 'u' :: (ds ++ ('\\' :: 'u' :: (es ++ body)))) (c :: cs)

theorem Spells.plain_all {cs : List Char} (h : ∀ c ∈ cs, IsPlain c) : Spells cs cs := by
  induction cs with
  | nil => exact .nil
  | cons c cs ih => exact .plain (h c (by simp)) (ih fun c hc => h c (by simp [hc]))

theorem Spells.append {body body' cs cs' : List Char} (h : Spells body cs) (h' : Spells body' cs') :
    Spells (body ++ body') (cs ++ cs') := by
  induction h with
  | nil => exact h'
  | plain hc _ ih => exact .plain hc ih
  | short he _ ih => exact .short he ih
  | code hd _ ih => simpa using Spells.code hd ih
  | pair hhi hlo hc hd he _ ih => simpa using Spells.pair hhi hlo hc hd he ih

theorem charOf_toNat (c : Char) : Text.charOf c.toNat = c := by
  have h : c.toNat.isValidChar := c.valid
  simp [Text.charOf, h, Char.ofNat_toNat]

theorem hexValue?_of_mem {c : Char} {n : Nat} (h : (c, n) ∈ nibbles) : hexValue? c = some n := by
  have hall : ∀ p ∈ nibbles, hexValue? p.1 = some p.2 := by decide
  exact hall (c, n) h

theorem simpleEscape?_of_mem {e c : Char} (h : (e, c) ∈ shortEscapes) :
    e ≠ 'u' ∧ simpleEscape? e = some c := by
  have hall : ∀ p ∈ shortEscapes, p.1 ≠ 'u' ∧ simpleEscape? p.1 = some p.2 := by decide
  exact hall (e, c) h

theorem scan_cons (s : Scan) (c : Char) (cs : List Char) :
    scan s (c :: cs) = (s.step c).bind fun p => (scan p.1 cs).map (p.2 ++ ·) := by
  rw [scan]
  cases s.step c with
  | none => rfl
  | some p => cases hp : scan p.1 cs <;> simp [hp]

theorem scan_silent {s s' : Scan} {c : Char} (h : s.step c = some (s', [])) (cs : List Char) :
    scan s (c :: cs) = scan s' cs := by
  simp [scan_cons, h]

theorem step_nibble {c : Char} {n : Nat} (hc : (c, n) ∈ nibbles) (read : List Char) (high : Option Nat)
    {digits : Nat} (hd : digits ≠ 3) (value : Nat) :
    Scan.step (.code read high digits value) c = some (.code read high (digits + 1) (16 * value + n), []) := by
  simp [Scan.step, hexValue?_of_mem hc, hd]

theorem step_lastNibble {c : Char} {n : Nat} (hc : (c, n) ∈ nibbles) (read : List Char) (high : Option Nat)
    (value : Nat) :
    Scan.step (.code read high 3 value) c = some (Scan.ofCode read high (16 * value + n), []) := by
  simp [Scan.step, hexValue?_of_mem hc]

theorem scan_code {ds : List Char} {n : Nat} (hd : Code ds n) (read : List Char) (high : Option Nat)
    (rest : List Char) :
    scan (.text read high) ('\\' :: 'u' :: (ds ++ rest)) = scan (Scan.ofCode read high n) rest := by
  have hback : Scan.step (.text read high) '\\' = some (.escape read high, []) := by simp [Scan.step]
  have hu : Scan.step (.escape read high) 'u' = some (.code read high 0 0, []) := by simp [Scan.step]
  cases hd with
  | mk ha hb hc hd =>
    simp only [List.cons_append, List.nil_append]
    rw [scan_silent hback, scan_silent hu, scan_silent (step_nibble ha read high (by decide) 0),
      scan_silent (step_nibble hb read high (by decide) _), scan_silent (step_nibble hc read high (by decide) _),
      scan_silent (step_lastNibble hd read high _), Nat.mul_zero, Nat.zero_add]

/-- No character has the number of a surrogate. -/
theorem Scan.ofCode_char (read : List Char) (c : Char) :
    Scan.ofCode read none c.toNat = .text (c :: read) none := by
  have hvalid : c.toNat < 0xD800 ∨ 0xDFFF < c.toNat ∧ c.toNat < 0x110000 := c.valid
  have hhigh : (decide (0xD800 ≤ c.toNat) && decide (c.toNat < 0xDC00)) = false := by
    simp; omega
  simp [Scan.ofCode, hhigh, settle, charOf_toNat]

theorem Scan.ofCode_high {hi : Nat} (hhi : hi < 0x400) (read : List Char) :
    Scan.ofCode read none (0xD800 + hi) = .text read (some (0xD800 + hi)) := by
  have hhigh : 0xD800 + hi < 0xDC00 := by omega
  simp [Scan.ofCode, hhigh, settle]

theorem Scan.ofCode_low {hi lo : Nat} (hlo : lo < 0x400) (read : List Char) :
    Scan.ofCode read (some (0xD800 + hi)) (0xDC00 + lo) =
      .text (Text.charOf (0x10000 + hi * 0x400 + lo) :: read) none := by
  have hlow : 0xDC00 + lo < 0xE000 := by omega
  simp [Scan.ofCode, hlow]

theorem scan_spells {body cs : List Char} (h : Spells body cs) (read rest : List Char) :
    scan (.text read none) (body ++ '"' :: rest) =
      (scan .between rest).map (.text (String.ofList (read.reverse ++ cs)) :: ·) := by
  induction h generalizing read with
  | nil => simp [scan_cons, Scan.step, settle]
  | @plain c body cs hc h ih =>
    obtain ⟨hquote, hback, hctrl⟩ := hc
    have hstep : Scan.step (.text read none) c = some (.text (c :: read) none, []) := by
      simp [Scan.step, hquote, hback, Nat.not_lt.mpr hctrl, settle]
    rw [List.cons_append, scan_silent hstep, ih, List.reverse_cons, List.append_assoc]
    rfl
  | @short e c body cs he h ih =>
    obtain ⟨hu, he⟩ := simpleEscape?_of_mem he
    have hback : Scan.step (.text read none) '\\' = some (.escape read none, []) := by
      simp [Scan.step]
    have hstep : Scan.step (.escape read none) e = some (.text (c :: read) none, []) := by
      simp [Scan.step, hu, he, settle]
    rw [List.cons_append, List.cons_append, scan_silent hback, scan_silent hstep, ih,
      List.reverse_cons, List.append_assoc]
    rfl
  | @code c ds body cs hd h ih =>
    rw [List.cons_append, List.cons_append, List.append_assoc, scan_code hd, Scan.ofCode_char, ih,
      List.reverse_cons, List.append_assoc]
    rfl
  | @pair c hi lo ds es body cs hhi hlo hc hd he h ih =>
    have hsplit : '\\' :: 'u' :: (ds ++ ('\\' :: 'u' :: (es ++ body))) ++ '"' :: rest =
        '\\' :: 'u' :: (ds ++ ('\\' :: 'u' :: (es ++ (body ++ '"' :: rest)))) := by simp
    rw [hsplit, scan_code hd, Scan.ofCode_high hhi, scan_code he, Scan.ofCode_low hlo, ← hc,
      charOf_toNat, ih, List.reverse_cons, List.append_assoc]
    rfl

end Strings

end ReactiveScopes.Json
