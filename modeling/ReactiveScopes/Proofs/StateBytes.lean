import Mathlib.Algebra.Group.Nat.Defs
import Mathlib.Tactic.SplitIfs
import ReactiveScopes.Proofs.Spelling
import ReactiveScopes.Run

/-!
# State declared as bytes

The octets of a character tell how many they are and what it is, whatever follows them, so bytes that were written from
a text in UTF-8 are read back as that text, strictly and leniently alike. A document shows its encoding by a mark or by
zero octets; bytes written from a text that begins with no mark and holds no zero character show neither and are taken
for UTF-8. So a declaration in bytes is read as its text is: at once, at the second chance, or not at all.
-/
namespace ReactiveScopes

namespace Text

namespace Utf8

variable {surrogates : Bool} {n k : Nat} {o : Open} {rest : List UInt8}

section Characters

/-- The last octets of the character with number `n`, six bits in each. -/
def tails : Nat → Nat → List UInt8
  | 0, _ => []
  | k + 1, n => UInt8.ofNat (n / 64 ^ k % 64 + 0x80) :: tails k n

/-- Inside the character with number `n`: its last `k + 1` octets are owed, and the next of them is in bounds. -/
structure Open.Awaits (o : Open) (k n : Nat) : Prop where
  owed : o.owed = k + 1
  value : o.value = n / 64 ^ (k + 1)
  low : o.low ≤ n / 64 ^ k % 64 + 0x80
  high : n / 64 ^ k % 64 + 0x80 ≤ o.high

theorem toNat_octet (h : n < 0x100) : (UInt8.ofNat n).toNat = n := by
  rw [UInt8.toNat_ofNat', Nat.mod_eq_of_lt h]

theorem mem_tails {b : UInt8} (h : b ∈ tails k n) : 0x80 ≤ b.toNat ∧ b.toNat ≤ 0xBF := by
  induction k with
  | zero => cases h
  | succ k ih =>
    rcases List.mem_cons.mp h with rfl | h
    · rw [toNat_octet (by omega)]
      omega
    · exact ih h

/-- One more octet of an open character. -/
theorem read_next (h : n < 64) (low : o.low ≤ n + 0x80) (high : n + 0x80 ≤ o.high) :
    read surrogates (some o) (UInt8.ofNat (n + 0x80) :: rest) =
      if o.owed ≤ 1 then .char (charOf (o.value * 64 + n)) :: read surrogates none rest
      else
        read surrogates (some ⟨o.owed - 1, 0x80, 0xBF, o.value * 64 + n, UInt8.ofNat (n + 0x80) :: o.octets⟩)
          rest := by
  have octet : (UInt8.ofNat (n + 0x80)).toNat = n + 0x80 := toNat_octet (by omega)
  rw [read]
  simp only [octet, low, high, decide_true, Bool.and_self, if_true, Nat.add_sub_cancel]

theorem read_tails (h : o.Awaits k n) :
    read surrogates (some o) (tails (k + 1) n ++ rest) = .char (charOf n) :: read surrogates none rest := by
  induction k generalizing o with
  | zero =>
    have last : o.owed ≤ 1 := by
      have := h.owed
      omega
    have whole : o.value * 64 + n / 64 ^ 0 % 64 = n := by
      rw [h.value]
      omega
    rw [tails, List.cons_append, read_next (by omega) h.low h.high, if_pos last, whole]
    rfl
  | succ k ih =>
    have more : ¬ o.owed ≤ 1 := by
      have := h.owed
      omega
    rw [tails, List.cons_append, read_next (by omega) h.low h.high, if_neg more]
    apply ih
    constructor
    · have := h.owed
      dsimp only
      omega
    · dsimp only
      rw [h.value, Nat.pow_succ 64 (k + 1), ← Nat.div_div_eq_div_mul]
      omega
    · exact Nat.le_add_left _ _
    · dsimp only
      omega

/-- An opened character is one that awaits its tails if the number begun and the bounds are its own. -/
theorem opened {low high value : Nat} {octets : List UInt8} (begun : value = n / 64 ^ (k + 1))
    (above : low ≤ n / 64 ^ k % 64 + 0x80) (below : n / 64 ^ k % 64 + 0x80 ≤ high) :
    ∃ o, Start.open ⟨k + 1, low, high, value, octets⟩ = .open o ∧ o.Awaits k n :=
  ⟨_, rfl, rfl, begun, above, below⟩

theorem first_single (h : n < 0x80) : first surrogates (UInt8.ofNat n) = .char (Char.ofNat n) := by
  unfold first
  simp only [toNat_octet (show n < 0x100 by omega), h, if_true]

theorem first_double (h : 0x80 ≤ n ∧ n < 0x800) :
    ∃ o, first surrogates (UInt8.ofNat (n / 64 % 32 + 0xC0)) = .open o ∧ o.Awaits 0 n := by
  have octet : (UInt8.ofNat (n / 64 % 32 + 0xC0)).toNat = n / 64 + 0xC0 := by
    rw [toNat_octet (by omega)]
    omega
  unfold first
  simp only [octet, Bool.and_eq_true, decide_eq_true_eq]
  rw [if_neg (by omega), if_pos (by omega)]
  exact opened (by omega) (by omega) (by omega)

/-- The first of three octets: the least one and the one before the surrogates bound the second. -/
theorem first_triple (h : 0x800 ≤ n ∧ n < 0x10000) (scalar : n < 0xD800 ∨ 0xE000 ≤ n) :
    ∃ o, first surrogates (UInt8.ofNat (n / 4096 % 16 + 0xE0)) = .open o ∧ o.Awaits 1 n := by
  have octet : (UInt8.ofNat (n / 4096 % 16 + 0xE0)).toNat = n / 4096 + 0xE0 := by
    rw [toNat_octet (by omega)]
    omega
  unfold first
  simp only [octet, Bool.and_eq_true, decide_eq_true_eq, beq_iff_eq]
  rw [if_neg (by omega), if_neg (by omega)]
  by_cases least : n / 4096 = 0
  · rw [if_pos (by omega)]
    exact opened (by omega) (by omega) (by omega)
  rw [if_neg (by omega)]
  by_cases beside : n / 4096 = 0xD
  · rw [if_pos (by omega)]
    exact opened (by omega) (by omega) (by split <;> omega)
  · rw [if_neg (by omega), if_pos (by omega)]
    exact opened (by omega) (by omega) (by omega)

/-- The first of four octets: the least and the greatest one bound the second. -/
theorem first_quadruple (h : 0x10000 ≤ n ∧ n < 0x110000) :
    ∃ o, first surrogates (UInt8.ofNat (n / 262144 % 8 + 0xF0)) = .open o ∧ o.Awaits 2 n := by
  have octet : (UInt8.ofNat (n / 262144 % 8 + 0xF0)).toNat = n / 262144 + 0xF0 := by
    rw [toNat_octet (by omega)]
    omega
  unfold first
  simp only [octet, Bool.and_eq_true, decide_eq_true_eq, beq_iff_eq]
  rw [if_neg (by omega), if_neg (by omega), if_neg (by omega), if_neg (by omega), if_neg (by omega)]
  by_cases least : n / 262144 = 0
  · rw [if_pos (by omega)]
    exact opened (by omega) (by omega) (by omega)
  rw [if_neg (by omega)]
  by_cases greatest : n / 262144 = 4
  · rw [if_pos (by omega)]
    exact opened (by omega) (by omega) (by omega)
  · rw [if_neg (by omega), if_pos (by omega)]
    exact opened (by omega) (by omega) (by omega)

theorem first_open {b : UInt8} (h : first surrogates b = .open o) : 0xC2 ≤ b.toNat ∧ b.toNat ≤ 0xF4 := by
  unfold first at h
  simp only [Bool.and_eq_true, decide_eq_true_eq, beq_iff_eq] at h
  split_ifs at h
  all_goals omega

/-- The octets of a character: a single one, or a first one and the tails that it announces. -/
theorem utf8EncodeChar_cases (surrogates : Bool) (c : Char) :
    (c.toNat < 0x80 ∧ String.utf8EncodeChar c = [UInt8.ofNat c.toNat]) ∨
      ∃ k lead o, String.utf8EncodeChar c = lead :: tails (k + 1) c.toNat ∧
        first surrogates lead = .open o ∧ o.Awaits k c.toNat := by
  have scalar : c.toNat < 0xD800 ∨ 0xDFFF < c.toNat ∧ c.toNat < 0x110000 := c.valid
  have number : c.val.toNat = c.toNat := rfl
  unfold String.utf8EncodeChar
  simp only [number]
  split
  · exact .inl ⟨by omega, rfl⟩
  refine .inr ?_
  split
  · obtain ⟨o, opens, awaits⟩ := @first_double surrogates c.toNat (by omega)
    exact ⟨0, _, o, by simp [tails], opens, awaits⟩
  split
  · obtain ⟨o, opens, awaits⟩ := @first_triple surrogates c.toNat (by omega) (by omega)
    exact ⟨1, _, o, by simp [tails], opens, awaits⟩
  · obtain ⟨o, opens, awaits⟩ := @first_quadruple surrogates c.toNat (by omega)
    exact ⟨2, _, o, by simp [tails], opens, awaits⟩

/-- The octets of a character are read as the character, whatever follows them. -/
theorem read_utf8EncodeChar (surrogates : Bool) (c : Char) (rest : List UInt8) :
    read surrogates none (String.utf8EncodeChar c ++ rest) = .char c :: read surrogates none rest := by
  rcases utf8EncodeChar_cases surrogates c with ⟨single, octets⟩ | ⟨k, lead, o, octets, opens, awaits⟩
  · rw [octets, List.singleton_append, read]
    simp only [first_single single, Char.ofNat_toNat]
  · rw [octets, List.cons_append, read]
    simp only [opens]
    rw [read_tails awaits, Json.charOf_toNat]

end Characters

section Texts

/-- The bytes of a text. -/
def ofText (s : String) : List UInt8 := s.toUTF8.data.toList

theorem ofText_eq (s : String) : ofText s = s.toList.flatMap String.utf8EncodeChar := by
  have written : s.toUTF8 = s.toList.utf8Encode := by simp
  rw [ofText, written, List.utf8Encode, List.toList_data_toByteArray]

theorem read_ofText (surrogates : Bool) (s : String) : read surrogates none (ofText s) = s.toList.map .char := by
  rw [ofText_eq]
  induction s.toList with
  | nil => rfl
  | cons c cs ih => rw [List.flatMap_cons, read_utf8EncodeChar, ih, List.map_cons]

theorem decode?_ofText (s : String) : decode? (ofText s) = some s.toList := by
  rw [decode?, read_ofText]
  induction s.toList with
  | nil => rfl
  | cons c cs ih =>
    rw [List.map_cons, List.mapM_cons, ih]
    rfl

theorem decodeLossy_ofText (s : String) : decodeLossy (ofText s) = s.toList := by
  rw [decodeLossy, read_ofText, List.map_map]
  exact List.map_id _

end Texts

end Utf8

section Documents

variable {s : String} {b : UInt8} {bytes : List UInt8}

/-- Among the octets of a character there is none of those that the marks of wider encodings are made of, and no zero
unless it is the zero character. -/
theorem octet_bounds {c : Char} (h : b ∈ String.utf8EncodeChar c) : b.toNat < 0xFE ∧ (b = 0 → c = '\x00') := by
  rcases Utf8.utf8EncodeChar_cases true c with ⟨single, octets⟩ | ⟨k, lead, o, octets, opens, -⟩
  · rw [octets, List.mem_singleton] at h
    have number : b.toNat = c.toNat := by rw [h, Utf8.toNat_octet (by omega)]
    refine ⟨by omega, ?_⟩
    rintro rfl
    rw [← Char.ofNat_toNat c, ← number]
    rfl
  · have bounds : 0x80 ≤ b.toNat ∧ b.toNat ≤ 0xF4 := by
      rw [octets, List.mem_cons] at h
      rcases h with rfl | h
      · have := Utf8.first_open opens
        omega
      · have := Utf8.mem_tails h
        omega
    refine ⟨by omega, ?_⟩
    rintro rfl
    exact absurd bounds.1 (by decide)

/-- Every mark but that of UTF-8 holds an octet that UTF-8 has in no character, or a zero. -/
theorem marks_wide : ∀ m ∈ marks, m.1 = [0xEF, 0xBB, 0xBF] ∨ ∃ b ∈ m.1, b = 0 ∨ 0xFE ≤ b.toNat := by
  decide

/-- Where no zeros stand there is nothing to tell UTF-16 and UTF-32 by. -/
theorem decodeUnmarked?_nonzero (nonzero : ∀ b ∈ bytes, b ≠ 0) : decodeUnmarked? bytes = Utf8.decode? bytes := by
  unfold decodeUnmarked?
  split
  · next a b _ _ _ =>
    have ha : a ≠ 0 := nonzero a (by simp)
    have hb : b ≠ 0 := nonzero b (by simp)
    simp only [beq_iff_eq, ha, hb, if_false]
  · next a b =>
    have ha : a ≠ 0 := nonzero a (by simp)
    have hb : b ≠ 0 := nonzero b (by simp)
    simp only [beq_iff_eq, ha, hb, if_false]
  · rfl

/-- Bytes without zeros and without octets of the wider marks are read in UTF-8, unless its own mark begins them. -/
theorem decodeDocument?_narrow (narrow : ∀ b ∈ bytes, b ≠ 0 ∧ b.toNat < 0xFE)
    (unmarked : ¬ [0xEF, 0xBB, 0xBF] <+: bytes) : decodeDocument? bytes = Utf8.decode? bytes := by
  have markless : (marks.find? fun m => m.1.isPrefixOf bytes) = none := by
    rw [List.find?_eq_none]
    intro m hm begins
    rw [List.isPrefixOf_iff_prefix] at begins
    rcases marks_wide m hm with own | ⟨b, hb, wide⟩
    · exact unmarked (own ▸ begins)
    · obtain ⟨nonzero, bound⟩ := narrow b (begins.subset hb)
      rcases wide with zero | wide
      · exact nonzero zero
      · omega
  rw [decodeDocument?, markless]
  exact decodeUnmarked?_nonzero fun b hb => (narrow b hb).1

/-- Only a text that begins with the mark is written with it. -/
theorem ofText_unmarked (h : s.toList.head? ≠ some '\uFEFF') : ¬ [0xEF, 0xBB, 0xBF] <+: Utf8.ofText s := by
  rintro ⟨rest, marked⟩
  have mark : ([0xEF, 0xBB, 0xBF] : List UInt8) = String.utf8EncodeChar '\uFEFF' := rfl
  have begins := Utf8.read_ofText true s
  rw [← marked, mark, Utf8.read_utf8EncodeChar] at begins
  cases written : s.toList with
  | nil =>
    rw [written] at begins
    cases begins
  | cons c cs =>
    rw [written, List.map_cons] at begins
    obtain rfl := Piece.char.inj (List.cons.inj begins).1
    exact h (by rw [written]; rfl)

theorem decodeDocument?_ofText (nonzero : '\x00' ∉ s.toList) (unmarked : s.toList.head? ≠ some '\uFEFF') :
    decodeDocument? (Utf8.ofText s) = some s.toList := by
  have narrow : ∀ b ∈ Utf8.ofText s, b ≠ 0 ∧ b.toNat < 0xFE := by
    intro b hb
    rw [Utf8.ofText_eq] at hb
    obtain ⟨c, hc, hb⟩ := List.mem_flatMap.mp hb
    obtain ⟨bound, zero⟩ := octet_bounds hb
    exact ⟨fun h => nonzero (zero h ▸ hc), bound⟩
  rw [decodeDocument?_narrow narrow (ofText_unmarked unmarked), Utf8.decode?_ofText]

end Documents

end Text

section Declarations

open Eff Json Text

variable {κ : Type} {env : Env κ} {w : Session κ} {e : Nat} {scope v : Value} {s : String}

/-- Where the bytes of a text show no other encoding, the strict reading and the second chance both meet the text. -/
theorem Json.Source.stateFields_ofText (nonzero : '\x00' ∉ s.toList) (unmarked : s.toList.head? ≠ some '\uFEFF') :
    (Source.bytes (Utf8.ofText s)).stateFields = (Source.text s).stateFields := by
  have strict : readBytes? (Utf8.ofText s) = Json.read? s.toList := by
    rw [readBytes?, decodeDocument?_ofText nonzero unmarked]
    rfl
  simp only [Source.stateFields, Source.read?, strict, Utf8.decodeLossy_ofText]

/-- A declaration that gives no fields is refused as an unsuitable value. -/
theorem Json.Source.isValueFault_of_stateFields {src : Source} {f : Fault} (h : src.stateFields = .error f) :
    f.isValueFault := by
  unfold Source.stateFields at h
  split at h <;> cases h <;> rfl

/-- The data of a declaration in bytes are those of the text that gives the same fields. -/
theorem Scope.initialData_bytes {bytes : List UInt8} (shown : w.store.look v = some (.bytes bytes))
    (same : (Source.bytes bytes).stateFields = (Source.text s).stateFields) :
    initialData v env w = initialData (.text s) env w := by
  obtain ⟨r, rfl⟩ : ∃ r, v = .ref r := by
    cases v with
    | ref r => exact ⟨r, rfl⟩
    | _ => cases shown
  unfold initialData
  rw [bind_store, bind_store, shown]
  simp only [Value.text?, same]

/-- A scope may as well be declared in bytes: it is given the same record, or none, with the same notices. -/
theorem Scope.init_bytes {bytes : List UInt8} (shown : w.store.look v = some (.bytes bytes))
    (same : (Source.bytes bytes).stateFields = (Source.text s).stateFields) :
    init e scope v env w = init e scope (.text s) env w := by
  unfold init
  rw [bind_engine, bind_engine]
  cases (w.engine e).records.get? scope with
  | some record => rfl
  | none =>
    change Eff.bind _ _ env w = Eff.bind _ _ env w
    unfold Eff.bind
    rw [initialData_bytes shown same]

/-- Bytes that were written from a text in UTF-8 declare the state that the text declares, or are refused as the text
is, whether the text is JSON, is read at the second chance or is not read at all. It must hold no zero character and
begin with no mark, which would show another encoding or be dropped. A scope that is given the bytes is therefore
initialised, or not, as if it were given the text. -/
theorem state_bytes_mean_their_text (s : String) (nonzero : '\x00' ∉ s.toList)
    (unmarked : s.toList.head? ≠ some '\uFEFF') :
    ((∃ fields, (Source.bytes (Utf8.ofText s)).stateFields = .ok fields ∧
        (Source.text s).stateFields = .ok fields) ∨
      ∃ f, (Source.bytes (Utf8.ofText s)).stateFields = .error f ∧ (Source.text s).stateFields = .error f ∧
        f.isValueFault) ∧
      ∀ (env : Env κ) (w : Session κ) (e : Nat) (scope v : Value),
        w.store.look v = some (.bytes (Utf8.ofText s)) →
          Scope.init e scope v env w = Scope.init e scope (.text s) env w := by
  have same := Source.stateFields_ofText nonzero unmarked
  constructor
  · cases read : (Source.text s).stateFields with
    | ok fields => exact .inl ⟨fields, same.trans read, rfl⟩
    | error f => exact .inr ⟨f, same.trans read, rfl, Source.isValueFault_of_stateFields read⟩
  · intro env w e scope v shown
    exact Scope.init_bytes shown same

/-- State text that is no JSON, with characters of every length. -/
def wideText : String := "\x7bk: 'é€😀'\x7d"

/-- A session in which the bytes of that text stand. -/
def Session.wide : Session Unit where
  memory := ()
  store := { cells := #[.bytes [0x7B, 0x6B, 0x3A, 0x20, 0x27, 0xC3, 0xA9, 0xE2, 0x82, 0xAC, 0xF0, 0x9F, 0x98, 0x80,
    0x27, 0x7D]] }

theorem state_bytes_mean_their_text_wide :
    (Source.bytes (Utf8.ofText wideText)).stateFields = .ok [("k", .str "é€😀")] ∧
      (Scope.init 0 (.scope "s") (.ref ⟨0⟩) (.within (fun _ => { body := fun _ => .quit }) 2) Session.wide).1 =
        .value (.ref ⟨2⟩) := by
  have shown : Session.wide.store.look (.ref ⟨0⟩) = some (.bytes (Utf8.ofText wideText)) := by
    rw [Utf8.ofText_eq]
    rfl
  have read : (Source.text wideText).stateFields = .ok [("k", .str "é€😀")] := rfl
  obtain ⟨agree, scopes⟩ := @state_bytes_mean_their_text Unit wideText (by decide) (by decide)
  constructor
  · rcases agree with ⟨fields, bytes, text⟩ | ⟨f, -, text, -⟩
    · rw [bytes, ← text, read]
    · rw [read] at text
      cases text
  · rw [scopes _ _ _ _ _ shown]
    decide +kernel

end Declarations

end ReactiveScopes
