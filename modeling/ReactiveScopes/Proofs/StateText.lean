import Mathlib.Data.List.TakeWhile
import ReactiveScopes.Proofs.JsonText

/-!
# State text with relaxed lexemes

The second chance of a state declaration is two rewrites of its whole text, neither of which knows where
a string begins. The first one turns every single-quoted string into a double-quoted one; text with one
apostrophe or none it leaves alone. The second one quotes whatever looks like a key after a brace or a
comma, inside strings too. On rows of lexemes whose strings hold nothing that looks like a key, both do
to the lexemes what they are meant to do, so that the text reads as the object it spells.
-/
namespace ReactiveScopes.Json

open Lexeme

section Requoting

theorem requote_append {as : List Char} (h : ∀ c ∈ as, c ≠ '\'') (bs : List Char) :
    requote 0 (as ++ bs) = as ++ requote 0 bs := by
  induction as with
  | nil => rfl
  | cons a as ih =>
    have ha : a ≠ '\'' := h a (by simp)
    simp [requote, ha, ih fun c hc => h c (by simp [hc])]

theorem requote_skip (as bs : List Char) : requote as.length (as ++ bs) = requote 0 bs := by
  induction as with
  | nil => rfl
  | cons a as ih => simpa [requote] using ih

theorem singleQuoted?_append {body : List Char} (h : ∀ c ∈ body, IsPlain c ∧ c ≠ '\'')
    (rest : List Char) : singleQuoted? (body ++ '\'' :: rest) = some body := by
  induction body with
  | nil => rfl
  | cons c body ih =>
    obtain ⟨⟨-, hback, -⟩, hquote⟩ := h c (by simp)
    have hrest := ih fun c hc => h c (by simp [hc])
    rw [List.cons_append, singleQuoted?, hrest]
    · rfl
    · exact hquote
    all_goals intros; contradiction

theorem flatMap_protectQuote {body : List Char} (h : ∀ c ∈ body, c ≠ '"') :
    body.flatMap protectQuote = body := by
  induction body with
  | nil => rfl
  | cons c body ih =>
    simp [protectQuote, h c (by simp), ih fun c hc => h c (by simp [hc])]

theorem requote_single {body : List Char} (h : ∀ c ∈ body, IsPlain c ∧ c ≠ '\'') (rest : List Char) :
    requote 0 ((single body).text ++ rest) = (double body).text ++ requote 0 rest := by
  have htext : (single body).text ++ rest = '\'' :: (body ++ '\'' :: rest) := by simp [text]
  have hskip : requote (body.length + 1) (body ++ '\'' :: rest) = requote 0 rest := by
    simpa using requote_skip (body ++ ['\'']) rest
  rw [htext, requote]
  simp [singleQuoted?_append h, flatMap_protectQuote fun c hc => (h c hc).1.1, hskip, text]

/-- A single-quoted string is closed by an apostrophe. -/
theorem apostrophe_mem {cs body : List Char} (h : singleQuoted? cs = some body) : '\'' ∈ cs := by
  fun_induction singleQuoted? cs generalizing body with
  | case1 | case3 | case5 => cases h
  | case2 => simp
  | case4 c cs _ ih =>
    obtain ⟨tail, htail, -⟩ := Option.map_eq_some_iff.mp h
    simp [ih htail]
  | case6 c cs _ _ _ _ ih =>
    obtain ⟨tail, htail, -⟩ := Option.map_eq_some_iff.mp h
    simp [ih htail]

/-- One apostrophe opens no string that is ever closed. -/
theorem requote_of_count {cs : List Char} (h : cs.count '\'' ≤ 1) : requote 0 cs = cs := by
  induction cs with
  | nil => rfl
  | cons c cs ih =>
    have hrest : cs.count '\'' ≤ 1 := (List.count_le_count_cons).trans h
    by_cases hc : c = '\''
    · have hnone : '\'' ∉ cs := by
        rw [hc, List.count_cons_self] at h
        exact List.count_eq_zero.mp (by omega)
      cases hq : singleQuoted? cs with
      | none => simp [requote, hc, hq, ih hrest]
      | some body => exact absurd (apostrophe_mem hq) hnone
    · simp [requote, hc, ih hrest]

/-- A single-quoted string becomes a double-quoted one. -/
def Lexeme.requoted : Lexeme → Lexeme
  | single body => double body
  | l => l

theorem Lexeme.Reads.requoted {l : Lexeme} {t : Token} (h : l.Reads t) : l.requoted.Reads t := by
  cases h with
  | single h => exact .double (Spells.plain_all fun c hc => (h c hc).1)
  | mark m => exact .mark m
  | word h => exact .word h
  | double h => exact .double h
  | bare h => exact .bare h

theorem Lexeme.Precedes.requoted {l l' : Lexeme} (h : Precedes l l') :
    Precedes l.requoted l'.requoted := by
  cases h <;> constructor <;> assumption

/-- Rewriting lexemes one by one keeps a row that reads as a value. -/
theorem Row.map {v : Json} {ls : List Lexeme} (h : Row v ls) {f : Lexeme → Lexeme}
    (hmark : ∀ m, f (mark m) = mark m) (hreads : ∀ l t, Reads l t → Reads (f l) t)
    (hnext : ∀ l l', Precedes l l' → Precedes (f l) (f l')) : Row v (ls.map f) := by
  constructor
  · have hchain := List.isChain_map_of_isChain f hnext h.chain
    simpa [hmark] using hchain
  · obtain ⟨ts, hts, hread⟩ := h.reads
    refine ⟨ts, ?_, hread⟩
    rw [List.forall₂_map_left_iff]
    exact hts.imp hreads

theorem Row.requoted {v : Json} {ls : List Lexeme} (h : Row v ls) : Row v (ls.map Lexeme.requoted) :=
  h.map (fun _ => rfl) (fun _ _ => Reads.requoted) fun _ _ => Precedes.requoted

theorem ne_of_accepts {p : Char → Bool} {c d : Char} (hc : p c) (hd : p d = false) : c ≠ d := by
  rintro rfl
  rw [hc] at hd
  cases hd

theorem Lexeme.Reads.requote {l : Lexeme} {t : Token} (h : l.Reads t)
    (hd : ∀ body, l ≠ Lexeme.double body) (rest : List Char) :
    requote 0 (l.text ++ rest) = l.requoted.text ++ Json.requote 0 rest := by
  cases h with
  | mark m =>
    refine requote_append (fun c hc => ?_) rest
    obtain rfl : c = m.char := by simpa [text] using hc
    cases m <;> decide
  | word h => exact requote_append (fun c hc => ne_of_accepts (h.chars.2 c hc) rfl) rest
  | double => exact absurd rfl (hd _)
  | single h => exact requote_single h rest
  | bare h => exact requote_append (fun c hc => ne_of_accepts (h.2 c hc) rfl) rest

/-- A row without double-quoted strings is rewritten lexeme by lexeme. -/
theorem Spaced.requoted {ls : List Lexeme} {cs : List Char} {ts : List Token} (h : Spaced ls cs)
    (hts : List.Forall₂ Lexeme.Reads ls ts) (hd : ∀ body, double body ∉ ls) :
    Spaced (ls.map Lexeme.requoted) (requote 0 cs) := by
  induction h generalizing ts with
  | @last blanks hb =>
    have hsame := requote_append (fun c hc => ne_of_accepts (hb c hc) rfl) []
    rw [List.append_nil] at hsame
    simpa [hsame, requote] using Spaced.last hb
  | @next blanks l ls cs hb h ih =>
    cases hts with
    | cons ht hts =>
      have hl : ∀ body, l ≠ double body := by
        rintro body rfl
        exact hd body (by simp)
      rw [requote_append fun c hc => ne_of_accepts (hb c hc) rfl, ht.requote hl]
      exact .next hb (ih hts fun body hbody => hd body (by simp [hbody]))

end Requoting

section Keys

/-- Text that begins like a bare key: an identifier between blanks and a colon after it. -/
def KeyLike (cs : List Char) : Prop :=
  ∃ before key after rest, cs = before ++ (key ++ (after ++ ':' :: rest)) ∧
    (∀ c ∈ before, Text.isBlank c) ∧ IsKey key ∧ ∀ c ∈ after, Text.isBlank c

/-- Text in which nothing that looks like a key follows a brace or a comma. -/
def Keyless (cs : List Char) : Prop :=
  ∀ as c bs, cs = as ++ c :: bs → (c = '\x7b' ∨ c = ',') → ¬ KeyLike bs

theorem isBlank_of_isSpace {c : Char} (h : isSpace c) : Text.isBlank c := by
  simp only [isSpace, Bool.or_eq_true, beq_iff_eq] at h
  rcases h with ((rfl | rfl) | rfl) | rfl <;> decide

theorem toNat_of_isKeyChar {c : Char} (h : isKeyChar c) : 0x2D ≤ c.toNat ∧ c.toNat ≤ 0x7A := by
  simp only [isKeyChar, isKeyStart, isAsciiDigit, Bool.or_eq_true, Bool.and_eq_true, decide_eq_true_eq,
    beq_iff_eq, Char.le_def, UInt32.le_iff_toNat_le] at h
  rcases h with (((h | h) | rfl) | h) | rfl
  · exact ⟨(by decide : 0x2D ≤ 'a'.toNat).trans h.1, h.2⟩
  · exact ⟨(by decide : 0x2D ≤ 'A'.toNat).trans h.1, h.2.trans (by decide)⟩
  · decide
  · exact ⟨(by decide : 0x2D ≤ '0'.toNat).trans h.1, h.2.trans (by decide)⟩
  · decide

theorem isBlank_of_isKeyChar {c : Char} (h : isKeyChar c) : Text.isBlank c = false := by
  have hrange := toNat_of_isKeyChar h
  exact isBlank_of_visible (by omega)

theorem isBlank_of_isWordChar {c : Char} (h : isWordChar c) : Text.isBlank c = false := by
  by_cases hk : isKeyChar c
  · exact isBlank_of_isKeyChar hk
  · have hsign : c = '+' ∨ c = '.' := by
      simp only [isWordChar, isKeyChar, isKeyStart, Bool.or_eq_true, beq_iff_eq] at h hk
      tauto
    rcases hsign with rfl | rfl <;> decide

theorem isKeyChar_of_isBlank {c : Char} (h : Text.isBlank c) : isKeyChar c = false := by
  cases hk : isKeyChar c with
  | false => rfl
  | true => rw [isBlank_of_isKeyChar hk] at h; cases h

theorem isWordChar_of_isBlank {c : Char} (h : Text.isBlank c) : isWordChar c = false := by
  cases hw : isWordChar c with
  | false => rfl
  | true => rw [isBlank_of_isWordChar hw] at h; cases h

theorem IsKey.cons {key : List Char} (hk : IsKey key) :
    ∃ c cs, key = c :: cs ∧ isKeyStart c ∧ isKeyChar c := by
  obtain ⟨hstart, hchars⟩ := hk
  cases key with
  | nil => simp at hstart
  | cons c cs => exact ⟨c, cs, rfl, by simpa using hstart, hchars c (by simp)⟩

theorem bareKey?_append {before key after : List Char} (hb : ∀ c ∈ before, Text.isBlank c)
    (hk : IsKey key) (ha : ∀ c ∈ after, Text.isBlank c) (rest : List Char) :
    bareKey? (before ++ (key ++ (after ++ ':' :: rest))) = some (before, key, after) := by
  obtain ⟨c, cs, hcons, hstart, hchar⟩ := hk.cons
  have hbefore := @span_run Text.isBlank before (key ++ (after ++ ':' :: rest)) hb
    (by simpa [hcons] using isBlank_of_isKeyChar hchar)
  have hend : ∀ c ∈ (after ++ ':' :: rest).head?, isKeyChar c = false :=
    head_after_blanks (fun _ => isKeyChar_of_isBlank) ha (by simp; decide)
  have hkey := span_run hk.2 hend
  have hafter := @span_run Text.isBlank after (':' :: rest) ha (by simp; decide)
  simp only [bareKey?, hbefore, hkey, hafter]
  simp [hcons, hstart]

theorem keyLike_of_bareKey? {cs before key after : List Char}
    (h : bareKey? cs = some (before, key, after)) : KeyLike cs := by
  simp only [bareKey?, Option.ite_none_right_eq_some, Bool.and_eq_true, beq_iff_eq] at h
  obtain ⟨⟨hstart, hcolon⟩, -⟩ := h
  obtain ⟨rest, hrest⟩ := List.head?_eq_some_iff.mp hcolon
  have hblanks : ∀ xs : List Char, ∀ c ∈ xs.takeWhile Text.isBlank, Text.isBlank c :=
    fun xs c hc => List.mem_takeWhile_imp hc
  have hkey : IsKey ((cs.dropWhile Text.isBlank).takeWhile isKeyChar) :=
    ⟨hstart, fun c hc => List.mem_takeWhile_imp hc⟩
  refine ⟨_, _, _, rest, ?_, hblanks cs, hkey, hblanks ((cs.dropWhile Text.isBlank).dropWhile isKeyChar)⟩
  rw [← hrest, List.takeWhile_append_dropWhile, List.takeWhile_append_dropWhile,
    List.takeWhile_append_dropWhile]

theorem keyLike_iff {cs : List Char} : KeyLike cs ↔ (bareKey? cs).isSome := by
  constructor
  · rintro ⟨before, key, after, rest, rfl, hb, hk, ha⟩
    simp [bareKey?_append hb hk ha]
  · intro h
    obtain ⟨found, hfound⟩ := Option.isSome_iff_exists.mp h
    exact keyLike_of_bareKey? hfound

instance : DecidablePred KeyLike := fun _ => decidable_of_iff _ keyLike_iff.symm

theorem keyless_cons {c : Char} {cs : List Char} :
    Keyless (c :: cs) ↔ ((c = '\x7b' ∨ c = ',') → ¬ KeyLike cs) ∧ Keyless cs := by
  constructor
  · intro h
    exact ⟨h [] c cs rfl, fun as d bs hcs => h (c :: as) d bs (by rw [hcs, List.cons_append])⟩
  · rintro ⟨hhead, htail⟩ as d bs hcs
    cases as with
    | nil =>
      obtain ⟨rfl, rfl⟩ := List.cons.inj hcs
      exact hhead
    | cons a as => exact htail as d bs (List.cons.inj hcs).2

instance decidableKeyless : DecidablePred Keyless
  | [] => isTrue (by rintro as c bs hcs; simp at hcs)
  | _ :: cs =>
    have := decidableKeyless cs
    decidable_of_iff _ keyless_cons.symm

theorem quoteKeys_append {xs : List Char} {rest : List Char}
    (h : ∀ as c bs, xs = as ++ c :: bs → (c = '\x7b' ∨ c = ',') → bareKey? (bs ++ rest) = none) :
    quoteKeys 0 (xs ++ rest) = xs ++ quoteKeys 0 rest := by
  induction xs with
  | nil => rfl
  | cons x xs ih =>
    have hrest := ih fun as c bs hcs => h (x :: as) c bs (by rw [hcs, List.cons_append])
    have hhead := h [] x xs rfl
    by_cases hx : x = '\x7b' ∨ x = ','
    · simp [quoteKeys, hhead hx, hrest]
    · have hne : (x == '\x7b' || x == ',') = false := by simpa using hx
      simp [quoteKeys, hne, hrest]

theorem quoteKeys_plain {xs : List Char} (h : ∀ c ∈ xs, c ≠ '\x7b' ∧ c ≠ ',') (rest : List Char) :
    quoteKeys 0 (xs ++ rest) = xs ++ quoteKeys 0 rest := by
  apply quoteKeys_append
  rintro as c bs rfl hc
  have := h c (by simp)
  rcases hc with rfl | rfl <;> simp at this

theorem quoteKeys_blanks {blanks : List Char} (hb : ∀ c ∈ blanks, isSpace c) (rest : List Char) :
    quoteKeys 0 (blanks ++ rest) = blanks ++ quoteKeys 0 rest :=
  quoteKeys_plain (fun c hc => ⟨ne_of_accepts (hb c hc) rfl, ne_of_accepts (hb c hc) rfl⟩) rest

theorem quoteKeys_skip (as bs : List Char) : quoteKeys as.length (as ++ bs) = quoteKeys 0 bs := by
  induction as with
  | nil => rfl
  | cons a as ih => simpa [quoteKeys] using ih

/-- What looks like a key up to a quotation mark is a key of the text before the mark. -/
theorem KeyLike.before_quote {cs rest : List Char} (h : KeyLike (cs ++ '"' :: rest)) : KeyLike cs := by
  obtain ⟨before, key, after, tail, heq, hb, hk, ha⟩ := h
  have hquote : '"' ∉ before ++ (key ++ (after ++ [':'])) := by
    simp only [List.mem_append, List.mem_singleton, not_or]
    exact ⟨fun h => ne_of_accepts (hb _ h) (by decide) rfl, fun h => ne_of_accepts (hk.2 _ h) rfl rfl,
      fun h => ne_of_accepts (ha _ h) (by decide) rfl, by decide⟩
  have hsplit : cs ++ '"' :: rest = (before ++ (key ++ (after ++ [':']))) ++ tail := by simp [heq]
  obtain ⟨xs, hxs, -⟩ | ⟨xs, hxs, hrest⟩ := List.append_eq_append_iff.mp hsplit.symm
  · exact ⟨before, key, after, xs, by simp [hxs], hb, hk, ha⟩
  · cases xs with
    | nil => exact ⟨before, key, after, [], by simpa using hxs.symm, hb, hk, ha⟩
    | cons x xs =>
      obtain rfl : '"' = x := by simpa using (List.cons.inj hrest).1
      exact absurd (by simp [hxs]) hquote

theorem quoteKeys_double {body : List Char} (h : Keyless body) (rest : List Char) :
    quoteKeys 0 ((double body).text ++ rest) = (double body).text ++ quoteKeys 0 rest := by
  have hbody : quoteKeys 0 (body ++ '"' :: rest) = body ++ quoteKeys 0 ('"' :: rest) := by
    apply quoteKeys_append
    rintro as c bs hcs hc
    cases hkey : bareKey? (bs ++ '"' :: rest) with
    | none => rfl
    | some found => exact absurd (keyLike_of_bareKey? hkey).before_quote (h as c bs hcs hc)
  simp [text, quoteKeys, hbody]

theorem quoteKeys_key {m : Mark} (hm : m.bringsKey) {before key after : List Char}
    (hb : ∀ c ∈ before, isSpace c) (hk : IsKey key) (ha : ∀ c ∈ after, isSpace c) (rest : List Char) :
    quoteKeys 0 (m.char :: (before ++ (key ++ (after ++ ':' :: rest)))) =
      m.char :: (before ++ ((double key).text ++ (after ++ ':' :: quoteKeys 0 rest))) := by
  have hkey := bareKey?_append (fun c hc => isBlank_of_isSpace (hb c hc)) hk
    (fun c hc => isBlank_of_isSpace (ha c hc)) rest
  have hskip : quoteKeys (before.length + key.length + after.length + 1)
      (before ++ (key ++ (after ++ ':' :: rest))) = quoteKeys 0 rest := by
    simpa [Nat.add_assoc] using quoteKeys_skip (before ++ (key ++ (after ++ [':']))) rest
  have hopens : (m.char == '\x7b' || m.char == ',') = true := by
    rcases hm with rfl | rfl <;> rfl
  simp [quoteKeys, hopens, hkey, hskip, text]

end Keys

section Rows

/-- A bare key becomes a quoted one. -/
def Lexeme.keyed : Lexeme → Lexeme
  | bare key => double key
  | l => l

/-- A string in which nothing looks like a key after a brace or a comma, or no string at all. -/
def Lexeme.isKeyless : Lexeme → Prop
  | double body | single body => Keyless body
  | _ => True

theorem IsKey.plain {key : List Char} (hk : IsKey key) : ∀ c ∈ key, IsPlain c := by
  intro c hc
  have hchar := hk.2 c hc
  have hctrl : 0x20 ≤ c.toNat := (by decide : 0x20 ≤ 0x2D).trans (toNat_of_isKeyChar hchar).1
  exact ⟨ne_of_accepts hchar rfl, ne_of_accepts hchar rfl, hctrl⟩

theorem Lexeme.Reads.keyed {l : Lexeme} {t : Token} (h : l.Reads t) : l.keyed.Reads t := by
  cases h with
  | bare h => exact .double (Spells.plain_all h.plain)
  | mark m => exact .mark m
  | word h => exact .word h
  | double h => exact .double h
  | single h => exact .single h

theorem Lexeme.Precedes.keyed {l l' : Lexeme} (h : Precedes l l') : Precedes l.keyed l'.keyed := by
  cases h <;> constructor
  assumption

theorem Row.keyed {v : Json} {ls : List Lexeme} (h : Row v ls) : Row v (ls.map Lexeme.keyed) :=
  h.map (fun _ => rfl) (fun _ _ => Reads.keyed) fun _ _ => Precedes.keyed

theorem Spaced.inv {l : Lexeme} {ls : List Lexeme} {cs : List Char} (h : Spaced (l :: ls) cs) :
    ∃ blanks rest, cs = blanks ++ (l.text ++ rest) ∧ (∀ c ∈ blanks, isSpace c) ∧ Spaced ls rest := by
  cases h with
  | next hb h => exact ⟨_, _, rfl, hb, h⟩

theorem KeyLike.dropBlanks {cs : List Char} (h : KeyLike cs) :
    ∃ key after rest, cs.dropWhile Text.isBlank = key ++ (after ++ ':' :: rest) ∧ IsKey key ∧
      ∀ c ∈ after, Text.isBlank c := by
  obtain ⟨before, key, after, rest, rfl, hb, hk, ha⟩ := h
  obtain ⟨c, cs, hcons, -, hchar⟩ := hk.cons
  refine ⟨key, after, rest, (span_run hb ?_).2, hk, ha⟩
  simpa [hcons] using isBlank_of_isKeyChar hchar

theorem Spaced.dropBlanks {l : Lexeme} {ls : List Lexeme} {cs : List Char} (h : Spaced (l :: ls) cs)
    {c : Char} (hl : l.text.head? = some c) (hc : Text.isBlank c = false) :
    ∃ rest, cs.dropWhile Text.isBlank = l.text ++ rest ∧ Spaced ls rest := by
  obtain ⟨blanks, rest, rfl, hb, h⟩ := h.inv
  refine ⟨rest, (span_run (fun c hc => isBlank_of_isSpace (hb c hc)) ?_).2, h⟩
  simpa [hl] using hc

/-- A lexeme that cannot begin an identifier is not taken for a key. -/
theorem Spaced.not_keyLike {l : Lexeme} {ls : List Lexeme} {cs : List Char} (h : Spaced (l :: ls) cs)
    {c : Char} (hl : l.text.head? = some c) (hb : Text.isBlank c = false) (hs : isKeyStart c = false) :
    ¬ KeyLike cs := by
  intro hkey
  obtain ⟨key, after, rest, hcs, hk, -⟩ := hkey.dropBlanks
  obtain ⟨k, ks, rfl, hstart, -⟩ := hk.cons
  obtain ⟨cs', hcs', -⟩ := h.dropBlanks hl hb
  obtain ⟨tail, htail⟩ := List.head?_eq_some_iff.mp hl
  rw [hcs, htail] at hcs'
  obtain rfl := (List.cons.inj hcs').1
  rw [hstart] at hs
  cases hs

/-- Two runs that neither rest goes on with are the same run. -/
theorem rest_eq_of_append_eq {p q : Char → Bool} {as bs xs ys : List Char} (h : as ++ xs = bs ++ ys)
    (has : ∀ c ∈ as, p c) (hbs : ∀ c ∈ bs, q c) (hxs : ∀ c ∈ xs.head?, q c = false)
    (hys : ∀ c ∈ ys.head?, p c = false) : xs = ys := by
  obtain ⟨zs, rfl, rfl⟩ | ⟨zs, rfl, rfl⟩ := List.append_eq_append_iff.mp h
  · cases zs with
    | nil => rfl
    | cons z zs =>
      have hz := hxs z (by simp)
      rw [hbs z (by simp)] at hz
      cases hz
  · cases zs with
    | nil => rfl
    | cons z zs =>
      have hz := hys z (by simp)
      rw [has z (by simp)] at hz
      cases hz

/-- A word is not taken for a key, since no colon follows it. -/
theorem Spaced.word_not_keyLike {w : List Char} {v : Json} {ls : List Lexeme} {cs : List Char}
    (h : Spaced (word w :: ls) cs) (hw : Word w v) (hc : (word w :: ls).IsChain Precedes) :
    ¬ KeyLike cs := by
  intro hkey
  obtain ⟨key, after, rest, hcs, hk, ha⟩ := hkey.dropBlanks
  obtain ⟨hne, hchars⟩ := hw.chars
  obtain ⟨c, w, rfl⟩ := List.exists_cons_of_ne_nil hne
  obtain ⟨cs', hcs', h⟩ := h.dropBlanks rfl (isBlank_of_isWordChar (hchars c (by simp)))
  have hnotKey : ∀ d ∈ cs'.head?, isKeyChar d = false := by
    intro d hd
    rcases h.head hc (by simp) d hd with hs | ⟨m, rfl⟩
    · exact isKeyChar_of_isBlank (isBlank_of_isSpace hs)
    · cases m <;> decide
  have hrest : after ++ ':' :: rest = cs' :=
    rest_eq_of_append_eq (hcs.symm.trans hcs') hk.2 hchars
      (head_after_blanks (fun _ => isWordChar_of_isBlank) ha (by simp; decide)) hnotKey
  subst hrest
  cases ls with
  | nil =>
    cases h with
    | last hb => exact absurd (hb ':' (by simp)) (by decide)
  | cons l ls =>
    rw [List.isChain_cons_cons] at hc
    cases hc.1 with
    | @afterWord _ m hm =>
      have hmark : Text.isBlank m.char = false := by cases m <;> decide
      obtain ⟨tail, htail, -⟩ := h.dropBlanks rfl hmark
      rw [(span_run ha (by simp; decide)).2] at htail
      have hchar : ':' = m.char := (List.cons.inj htail).1
      cases m <;> simp [Mark.char] at hchar hm

theorem Spaced.bareKey?_eq_none {ls : List Lexeme} {cs : List Char} {ts : List Token}
    (h : Spaced ls cs) (hts : List.Forall₂ Lexeme.Reads ls ts) (hc : ls.IsChain Precedes)
    (hbare : ∀ key, ls.head? ≠ some (bare key)) : bareKey? cs = none := by
  have hkey : ¬ KeyLike cs := by
    cases hts with
    | nil =>
      rintro ⟨before, key, after, rest, rfl, -⟩
      cases h with
      | last hb => exact absurd (hb ':' (by simp)) (by decide)
    | cons ht hts =>
      cases ht with
      | mark m => exact h.not_keyLike (c := m.char) rfl (by cases m <;> decide) (by cases m <;> decide)
      | double => exact h.not_keyLike (c := '"') rfl (by decide) (by decide)
      | single => exact h.not_keyLike (c := '\'') rfl (by decide) (by decide)
      | word hw => exact h.word_not_keyLike hw hc
      | bare => exact absurd rfl (hbare _)
  cases hfound : bareKey? cs with
  | none => rfl
  | some found => exact absurd (keyLike_of_bareKey? hfound) hkey

theorem Lexeme.Precedes.bringsKey {l : Lexeme} {key : List Char} (h : Precedes l (Lexeme.bare key)) :
    ∃ m : Mark, m.bringsKey ∧ l = mark m := by
  cases h with
  | bare hm => exact ⟨_, hm, rfl⟩

/-- A bare key stands between a brace or a comma and a colon. -/
theorem bare_between {l : Lexeme} {key : List Char} {ls : List Lexeme}
    (hc : (l :: bare key :: ls ++ [mark .comma]).IsChain Precedes) :
    ∃ (m : Mark) (ms : List Lexeme), m.bringsKey ∧ l = mark m ∧ ls = mark .colon :: ms := by
  obtain ⟨m, hm, rfl⟩ := (List.isChain_cons_cons.mp hc).1.bringsKey
  cases ls with
  | nil => cases hc.tail.rel
  | cons l ls =>
    cases (List.isChain_cons_cons.mp hc.tail).1
    exact ⟨m, ls, hm, rfl, rfl⟩

/-- A bare key follows a brace or a comma only. -/
theorem not_bare_after {m : Mark} {ls ms : List Lexeme} (hm : ¬ m.bringsKey)
    (hc : (mark m :: (ls ++ ms)).IsChain Precedes) (key : List Char) : ls.head? ≠ some (bare key) := by
  intro hkey
  obtain ⟨ls, rfl⟩ := List.head?_eq_some_iff.mp hkey
  obtain ⟨m', hm', heq⟩ := (List.isChain_cons_cons.mp hc).1.bringsKey
  obtain rfl : m = m' := by simpa using heq
  exact hm hm'

/-- Where no bare key comes next, a lexeme is left as it is. -/
theorem Lexeme.Reads.quoteKeys {l : Lexeme} {t : Token} (ht : l.Reads t) (hkeyless : l.isKeyless)
    (hsingle : ∀ body, l ≠ Lexeme.single body) (hbare : ∀ key, l ≠ Lexeme.bare key)
    {rest : List Char} (hnone : bareKey? rest = none) :
    Json.quoteKeys 0 (l.text ++ rest) = l.keyed.text ++ Json.quoteKeys 0 rest := by
  cases ht with
  | mark m =>
    apply quoteKeys_append
    rintro as c bs hcs -
    obtain ⟨rfl, -, rfl⟩ : as = [] ∧ m.char = c ∧ bs = [] := by
      cases as <;> simp_all [text]
    exact hnone
  | word hw =>
    exact quoteKeys_plain (fun c hc =>
      ⟨ne_of_accepts (hw.chars.2 c hc) rfl, ne_of_accepts (hw.chars.2 c hc) rfl⟩) rest
  | double => exact quoteKeys_double hkeyless rest
  | single => exact absurd rfl (hsingle _)
  | bare => exact absurd rfl (hbare _)

/-- A row without single-quoted strings is rewritten lexeme by lexeme. -/
theorem Spaced.keyed {ls : List Lexeme} {cs : List Char} {ts : List Token} (h : Spaced ls cs)
    (hts : List.Forall₂ Lexeme.Reads ls ts) (hc : (ls ++ [mark .comma]).IsChain Precedes)
    (hs : ∀ body, single body ∉ ls) (hkeys : ∀ l ∈ ls, l.isKeyless)
    (hbare : ∀ key, ls.head? ≠ some (bare key)) :
    Spaced (ls.map Lexeme.keyed) (quoteKeys 0 cs) := by
  -- a mark and the key after it are rewritten in one step, so the rest may be two lexemes further
  induction hn : ls.length using Nat.strong_induction_on generalizing ls cs ts with
  | _ n ih =>
    cases hts with
    | nil =>
      cases h with
      | last hb =>
        have hsame := quoteKeys_blanks hb []
        rw [List.append_nil] at hsame
        simpa [hsame, quoteKeys] using Spaced.last hb
    | @cons l t ls ts ht hts =>
      obtain ⟨blanks, rest, rfl, hb, hrow⟩ := h.inv
      rw [quoteKeys_blanks hb]
      by_cases hkey : ∃ key, ls.head? = some (bare key)
      · obtain ⟨key, hkey⟩ := hkey
        obtain ⟨ls, rfl⟩ := List.head?_eq_some_iff.mp hkey
        obtain ⟨m, ls, hm, rfl, rfl⟩ := bare_between hc
        obtain ⟨before, rest, rfl, hbefore, hrow⟩ := hrow.inv
        obtain ⟨after, rest, rfl, hafter, hrow⟩ := hrow.inv
        obtain _ | ⟨hk, _ | ⟨-, hts⟩⟩ := hts
        have hk : IsKey key := by
          cases hk with
          | bare hk => exact hk
        have hcolon : (mark .colon :: (ls ++ [mark .comma])).IsChain Precedes := hc.tail.tail
        have hrest := ih ls.length (by simp at hn; omega) hrow hts hcolon.tail
          (fun body hbody => hs body (by simp [hbody])) (fun l hl => hkeys l (by simp [hl]))
          (not_bare_after (by simp [Mark.bringsKey]) hcolon) rfl
        have hquoted := quoteKeys_key hm hbefore hk hafter rest
        exact hquoted ▸ .next hb (.next hbefore (.next hafter hrest))
      · have hnext : ∀ key, ls.head? ≠ some (bare key) := by simpa using hkey
        have hrest := ih ls.length (by simp at hn; omega) hrow hts hc.tail
          (fun body hbody => hs body (by simp [hbody])) (fun l hl => hkeys l (by simp [hl])) hnext rfl
        have hnone : bareKey? rest = none :=
          hrow.bareKey?_eq_none hts hc.tail.left_of_append hnext
        have hstep := ht.quoteKeys (hkeys l (by simp)) (fun body hl => hs body (by simp [hl]))
          (fun key hl => hbare key (by simp [hl])) hnone
        rw [hstep]
        exact .next hb hrest

/-- After its strings have been requoted, a row is normalized into one without relaxed lexemes. -/
theorem Row.normalized {v : Json} {ls : List Lexeme} {cs : List Char} (h : Row v ls)
    (hcs : Spaced ls (requote 0 cs)) (hs : ∀ body, single body ∉ ls) (hkeys : ∀ l ∈ ls, l.isKeyless) :
    read? (normalize cs) = some v := by
  obtain ⟨ts, hts, -⟩ := h.reads
  have hfirst : ∀ key, ls.head? ≠ some (bare key) :=
    not_bare_after (by simp [Mark.bringsKey]) h.chain
  have hstrict : ∀ l ∈ ls.map Lexeme.keyed, l.isRelaxed = false := by
    simp only [List.mem_map, forall_exists_index, and_imp, forall_apply_eq_imp_iff₂]
    intro l hl
    cases l with
    | single body => exact absurd hl (hs body)
    | _ => rfl
  exact h.keyed.read hstrict (hcs.keyed hts h.chain.tail hs hkeys hfirst)

/-- The second chance is for text that the first one does not read, and no other text is relaxed. -/
theorem Row.stateFields {fields : List (String × Json)} {ls : List Lexeme} {s : String}
    (h : Row (.obj fields) ls) (hcs : Spaced ls s.toList)
    (hsecond : read? (normalize s.toList) = some (.obj fields)) :
    Source.stateFields (.text s) = .ok fields := by
  by_cases hs : ∃ l ∈ ls, l.isRelaxed
  · have hfirst := h.unread hs hcs
    simp [Source.stateFields, Source.read?, hfirst, hsecond]
  · have hfirst := h.read (by simpa using hs) hcs
    simp [Source.stateFields, Source.read?, hfirst]

end Rows

section Declarations

/-- A list with a string that holds a comma, and an object in the object. -/
def nestedRow : List (String × Lexeme) :=
  [("", mark .openObject), ("", bare "ok".toList), ("", mark .colon), (" ", mark .openList),
   ("", word "true".toList), ("", mark .comma), (" ", single "a, b".toList), ("", mark .closeList),
   ("", mark .comma), ("\n ", bare "n-1".toList), (" ", mark .colon), ("", mark .openObject),
   ("", mark .closeObject), ("", mark .closeObject)]

theorem nestedRow_written : Written
    (.value (.obj [("ok", .arr [.bool true, .str "a, b"]), ("n-1", .obj [])]))
    (nestedRow.map Prod.snd) := by
  have htrue : Written (.value (.bool true)) [word "true".toList] := .word (.name (by simp [names]))
  have htext : Written (.value (.str "a, b")) [single "a, b".toList] :=
    .single (forall_of_all (by decide))
  have hlist := htrue.list (htext.item .lastItem)
  have hok : Written (.field "ok" (.arr [.bool true, .str "a, b"])) _ :=
    @Written.bareKey "ok".toList _ _ (by decide) hlist
  have hn : Written (.field "n-1" (.obj [])) _ :=
    @Written.bareKey "n-1".toList _ _ (by decide) .noFields
  exact .object (by decide) hok (hn.anotherField .lastField)

/-- A bare key and a quoted one, a string with an apostrophe, an escape, a comma and a colon. -/
def quotedRow : List (String × Lexeme) :=
  [("", mark .openObject), (" ", bare "a".toList), ("", mark .colon), ("", double "it's, \\n1: x".toList),
   ("", mark .comma), ("", double "b".toList), ("", mark .colon), (" ", word "null".toList),
   ("", mark .closeObject)]

theorem quotedRow_written :
    Written (.value (.obj [("a", .str "it's, \n1: x"), ("b", .null)])) (quotedRow.map Prod.snd) := by
  have hspells : Spells "it's, \\n1: x".toList "it's, \n1: x".toList :=
    (@Spells.plain_all "it's, ".toList (forall_of_all (by decide))).append
      (.short (by decide) (@Spells.plain_all "1: x".toList (forall_of_all (by decide))))
  have ha : Written (.field "a" (.str "it's, \n1: x")) _ :=
    @Written.bareKey "a".toList _ _ (by decide) (.double hspells)
  have hb : Written (.field "b" .null) [double "b".toList, mark .colon, word "null".toList] :=
    .quotedKey (Spells.plain_all (forall_of_all (by decide))) (.word (.name (by simp [names])))
  exact .object (by decide) ha (hb.anotherField .lastField)

/-- Two strings with an apostrophe each. -/
def splitRow : List (String × Lexeme) :=
  [("", mark .openObject), ("", bare "a".toList), ("", mark .colon), (" ", mark .openList),
   ("", double "A','C".toList), ("", mark .closeList), ("", mark .closeObject)]

end Declarations

end ReactiveScopes.Json
