import Mathlib.Data.List.Chain
import ReactiveScopes.Json.Relaxed
import ReactiveScopes.Proofs.Spelling

/-!
# Rows of lexemes

A text that stands for a value is a row of lexemes with blanks between them. Beside the lexemes of the
standard there are two relaxed ones: a string between single quotes, and a key without quotes. The
grammar relates values to rows of lexemes. A row without relaxed lexemes reads back as its value; a row
with one is not read at all, so that a declaration never means two things.
-/
namespace ReactiveScopes.Json

section Lexemes

/-- The marks between values. -/
inductive Mark where
  | openList
  | closeList
  | openObject
  | closeObject
  | comma
  | colon

namespace Mark

def char : Mark → Char
  | openList => '['
  | closeList => ']'
  | openObject => '\x7b'
  | closeObject => '\x7d'
  | comma => ','
  | colon => ':'

def token : Mark → Token
  | openList => .openList
  | closeList => .closeList
  | openObject => .openObject
  | closeObject => .closeObject
  | comma => .comma
  | colon => .colon

/-- A key may follow. -/
def bringsKey (m : Mark) : Prop := m = openObject ∨ m = comma

theorem not_word (m : Mark) : isWordChar m.char = false := by cases m <;> decide

theorem begin (m : Mark) : Scan.begin m.char = some (.between, [m.token]) := by cases m <;> rfl

end Mark

/-- An identifier. -/
def IsKey (cs : List Char) : Prop := cs.head?.any isKeyStart ∧ ∀ c ∈ cs, isKeyChar c

instance (cs : List Char) : Decidable (IsKey cs) :=
  decidable_of_iff (cs.head?.any isKeyStart ∧ cs.all isKeyChar) (by simp [IsKey])

/-- A piece of text between blanks: the last two are the relaxed ones. -/
inductive Lexeme where
  | mark (m : Mark)
  | word (cs : List Char)
  | double (body : List Char)
  | single (body : List Char)
  | bare (key : List Char)

namespace Lexeme

def text : Lexeme → List Char
  | mark m => [m.char]
  | word cs => cs
  | double body => '"' :: (body ++ ['"'])
  | single body => '\'' :: (body ++ ['\''])
  | bare key => key

def isRelaxed : Lexeme → Bool
  | single _ | bare _ => true
  | _ => false

/-- What a lexeme is read as, if it is read. Between single quotes every character stands for itself. -/
inductive Reads : Lexeme → Token → Prop
  | mark (m : Mark) : Reads (mark m) m.token
  | word {cs : List Char} {v : Json} (h : Word cs v) : Reads (word cs) (.atom v)
  | double {body cs : List Char} (h : Spells body cs) : Reads (double body) (.text (String.ofList cs))
  | single {body : List Char} (h : ∀ c ∈ body, IsPlain c ∧ c ≠ '\'') :
      Reads (single body) (.text (String.ofList body))
  | bare {key : List Char} (h : IsKey key) : Reads (bare key) (.text (String.ofList key))

/-- Which lexemes may be neighbours. -/
inductive Precedes : Lexeme → Lexeme → Prop
  | marks (m m' : Mark) : Precedes (mark m) (mark m')
  | word (m : Mark) (cs : List Char) : Precedes (mark m) (word cs)
  | double (m : Mark) (body : List Char) : Precedes (mark m) (double body)
  | single (m : Mark) (body : List Char) : Precedes (mark m) (single body)
  | bare {m : Mark} (hm : m.bringsKey) (key : List Char) : Precedes (mark m) (bare key)
  | afterWord (cs : List Char) {m : Mark} (hm : m ≠ .colon) : Precedes (word cs) (mark m)
  | afterDouble (body : List Char) (m : Mark) : Precedes (double body) (mark m)
  | afterSingle (body : List Char) (m : Mark) : Precedes (single body) (mark m)
  | afterBare (key : List Char) : Precedes (bare key) (mark .colon)

/-- What may follow a whole value. -/
def Ends (ls : List Lexeme) : Prop :=
  ls.IsChain Precedes ∧ ∀ l ∈ ls.head?, ∃ m : Mark, m ≠ .colon ∧ l = mark m

theorem Ends.mark {m : Mark} {ls : List Lexeme} (hm : m ≠ .colon) (h : (Lexeme.mark m :: ls).IsChain Precedes) :
    Ends (Lexeme.mark m :: ls) :=
  ⟨h, by simpa using hm⟩

theorem Ends.after {ls : List Lexeme} (h : Ends ls) {l : Lexeme}
    (hl : ∀ m : Mark, m ≠ .colon → Precedes l (Lexeme.mark m)) : (l :: ls).IsChain Precedes := by
  rw [List.isChain_cons]
  constructor
  · intro l' hl'
    obtain ⟨m, hm, rfl⟩ := h.2 l' hl'
    exact hl m hm
  · exact h.1

theorem Ends.afterMark {ls : List Lexeme} (h : Ends ls) (m : Mark) :
    (Lexeme.mark m :: ls).IsChain Precedes :=
  h.after fun m' _ => .marks m m'

end Lexeme

/-- A row of lexemes with any blanks between them, before them and after them. -/
inductive Spaced : List Lexeme → List Char → Prop
  | last {blanks : List Char} (hb : ∀ c ∈ blanks, isSpace c) : Spaced [] blanks
  | next {blanks : List Char} {l : Lexeme} {ls : List Lexeme} {cs : List Char}
      (hb : ∀ c ∈ blanks, isSpace c) (h : Spaced ls cs) : Spaced (l :: ls) (blanks ++ (l.text ++ cs))

/-- The text of a row, each lexeme after its blanks. -/
def spread : List (String × Lexeme) → List Char
  | [] => []
  | (blanks, l) :: row => blanks.toList ++ (l.text ++ spread row)

theorem spaced_spread {row : List (String × Lexeme)} (h : row.all fun p => p.1.toList.all isSpace) :
    Spaced (row.map Prod.snd) (spread row) := by
  induction row with
  | nil => exact @Spaced.last [] (by simp)
  | cons p row ih =>
    rw [List.all_cons, Bool.and_eq_true] at h
    exact .next (List.all_eq_true.mp h.1) (ih h.2)

/-- What a row of lexemes spells: a value, a field, or what follows an item or a field up to the end of
its container. -/
inductive Part where
  | value (v : Json)
  | field (key : String) (v : Json)
  | items (vs : List Json)
  | fields (fs : List (String × Json))

open Lexeme in
/-- The spellings of a value. The keys of an object are distinct. -/
inductive Written : Part → List Lexeme → Prop
  | word {cs : List Char} {v : Json} (h : Word cs v) : Written (.value v) [.word cs]
  | double {body cs : List Char} (h : Spells body cs) :
      Written (.value (.str (String.ofList cs))) [.double body]
  | single {body : List Char} (h : ∀ c ∈ body, IsPlain c ∧ c ≠ '\'') :
      Written (.value (.str (String.ofList body))) [.single body]
  | noItems : Written (.value (.arr [])) [mark .openList, mark .closeList]
  | list {v : Json} {vs : List Json} {ls ms : List Lexeme} (h : Written (.value v) ls)
      (hs : Written (.items vs) ms) :
      Written (.value (.arr (v :: vs))) (mark .openList :: (ls ++ (ms ++ [mark .closeList])))
  | noFields : Written (.value (.obj [])) [mark .openObject, mark .closeObject]
  | object {k : String} {v : Json} {fs : List (String × Json)} {ls ms : List Lexeme}
      (hk : (((k, v) :: fs).map Prod.fst).Nodup) (h : Written (.field k v) ls)
      (hs : Written (.fields fs) ms) :
      Written (.value (.obj ((k, v) :: fs))) (mark .openObject :: (ls ++ (ms ++ [mark .closeObject])))
  | quotedKey {body cs : List Char} {v : Json} {ls : List Lexeme} (hk : Spells body cs)
      (h : Written (.value v) ls) :
      Written (.field (String.ofList cs) v) (.double body :: mark .colon :: ls)
  | bareKey {key : List Char} {v : Json} {ls : List Lexeme} (hk : IsKey key)
      (h : Written (.value v) ls) :
      Written (.field (String.ofList key) v) (.bare key :: mark .colon :: ls)
  | lastItem : Written (.items []) []
  | item {v : Json} {vs : List Json} {ls ms : List Lexeme} (h : Written (.value v) ls)
      (hs : Written (.items vs) ms) : Written (.items (v :: vs)) (mark .comma :: (ls ++ ms))
  | lastField : Written (.fields []) []
  | anotherField {k : String} {v : Json} {fs : List (String × Json)} {ls ms : List Lexeme}
      (h : Written (.field k v) ls) (hs : Written (.fields fs) ms) :
      Written (.fields ((k, v) :: fs)) (mark .comma :: (ls ++ ms))

end Lexemes

section Neighbours

open Lexeme

/-- How the row of a part continues to a row of neighbours. -/
def Part.Joins (p : Part) (ls : List Lexeme) : Prop :=
  ∀ rest, Ends rest →
    match p with
    | .value _ => ∀ m, (mark m :: (ls ++ rest)).IsChain Precedes
    | .field _ _ => ∀ m : Mark, m.bringsKey → (mark m :: (ls ++ rest)).IsChain Precedes
    | .items _ | .fields _ => Ends (ls ++ rest)

theorem Written.joins {p : Part} {ls : List Lexeme} (h : Written p ls) : p.Joins ls := by
  induction h with
  | word h =>
    intro rest hr m
    exact (hr.after fun m' hm' => .afterWord _ hm').cons_cons (.word m _)
  | double h =>
    intro rest hr m
    exact (hr.after fun m' _ => .afterDouble _ m').cons_cons (.double m _)
  | single h =>
    intro rest hr m
    exact (hr.after fun m' _ => .afterSingle _ m').cons_cons (.single m _)
  | noItems =>
    intro rest hr m
    exact ((hr.afterMark .closeList).cons_cons (.marks .openList .closeList)).cons_cons (.marks m _)
  | @list v vs ls ms h hs ih ihs =>
    intro rest hr m
    have hclose : Ends (mark .closeList :: rest) := Ends.mark (by simp) (hr.afterMark .closeList)
    have hopen := ih _ (ihs _ hclose) .openList
    simpa using hopen.cons_cons (.marks m .openList)
  | noFields =>
    intro rest hr m
    exact ((hr.afterMark .closeObject).cons_cons (.marks .openObject .closeObject)).cons_cons (.marks m _)
  | @object k v fs ls ms hk h hs ih ihs =>
    intro rest hr m
    have hclose : Ends (mark .closeObject :: rest) := Ends.mark (by simp) (hr.afterMark .closeObject)
    have hopen := ih _ (ihs _ hclose) .openObject (.inl rfl)
    simpa using hopen.cons_cons (.marks m .openObject)
  | quotedKey hk h ih =>
    intro rest hr m hm
    exact ((ih rest hr .colon).cons_cons (.afterDouble _ .colon)).cons_cons (.double m _)
  | bareKey hk h ih =>
    intro rest hr m hm
    exact ((ih rest hr .colon).cons_cons (.afterBare _)).cons_cons (.bare hm _)
  | lastItem => exact fun rest hr => hr
  | @item v vs ls ms h hs ih ihs =>
    intro rest hr
    have hchain := ih _ (ihs rest hr) .comma
    simpa using Ends.mark (by simp) hchain
  | lastField => exact fun rest hr => hr
  | @anotherField k v fs ls ms h hs ih ihs =>
    intro rest hr
    have hchain := ih _ (ihs rest hr) .comma (.inr rfl)
    simpa using Ends.mark (by simp) hchain

end Neighbours

section Reading

open Reader

theorem Reader.run_through {r r' : Reader} {ts : List Token} (h : r.run ts = some r') (us : List Token) :
    r.run (ts ++ us) = r'.run us := by
  simp only [Reader.run] at h ⊢
  rw [List.foldlM_append, h]
  rfl

theorem setField_append {k : String} {v : Json} {fields : List (String × Json)}
    (h : k ∉ fields.map Prod.fst) : setField k v fields = fields ++ [(k, v)] := by
  induction fields with
  | nil => rfl
  | cons f fields ih =>
    simp only [List.map_cons, List.mem_cons, not_or] at h
    simp [setField, Ne.symm h.1, ih h.2]

/-- Storing fields with distinct keys keeps them as they are. -/
theorem foldl_setField {fs done : List (String × Json)} (h : ((done ++ fs).map Prod.fst).Nodup) :
    fs.foldl (fun acc f => setField f.1 f.2 acc) done = done ++ fs := by
  induction fs generalizing done with
  | nil => simp
  | cons f fs ih =>
    have hnew : f.1 ∉ done.map Prod.fst := by
      simp only [List.map_append, List.map_cons, List.nodup_append, List.mem_cons] at h
      intro hf
      exact h.2.2 f.1 hf f.1 (.inl rfl) rfl
    rw [List.foldl_cons, setField_append hnew, ih (by simpa using h)]
    simp

/-- The tokens of a part bring the reader from where the part may begin to its end; those of items and
fields are read together with the mark that closes their container. -/
def Part.ReadFrom (p : Part) (ts : List Token) : Prop :=
  match p with
  | .value v => ts.head? ≠ some .closeList ∧ ts ≠ [] ∧
      ∀ stack, Reader.run ⟨stack, .value⟩ ts = some ⟨stack, .after v⟩
  | .field k v => ∀ stack fields,
      Reader.run ⟨stack, .key fields⟩ ts = some ⟨.object fields k :: stack, .after v⟩ ∧
      Reader.run ⟨stack, .keyOrClose fields⟩ ts = some ⟨.object fields k :: stack, .after v⟩
  | .items vs => ∀ stack done v,
      Reader.run ⟨.list done :: stack, .after v⟩ (ts ++ [.closeList]) =
        some ⟨stack, .after (.arr ((v :: done).reverse ++ vs))⟩
  | .fields fs => ∀ stack done k v,
      Reader.run ⟨.object done k :: stack, .after v⟩ (ts ++ [.closeObject]) =
        some ⟨stack, .after (.obj (fs.foldl (fun acc f => setField f.1 f.2 acc) (setField k v done)))⟩

/-- After the mark that opens a list, a value may begin as anywhere else. -/
theorem Reader.run_itemOrClose {ts : List Token} (hne : ts ≠ []) (hc : ts.head? ≠ some .closeList)
    (stack : List Frame) : Reader.run ⟨stack, .itemOrClose⟩ ts = Reader.run ⟨stack, .value⟩ ts := by
  cases ts with
  | nil => contradiction
  | cons t ts => cases t <;> first | rfl | simp at hc

theorem Written.readFrom {p : Part} {ls : List Lexeme} (h : Written p ls) :
    ∃ ts, List.Forall₂ Lexeme.Reads ls ts ∧ p.ReadFrom ts := by
  induction h with
  | word h => exact ⟨_, .cons (.word h) .nil, by simp, by simp, fun stack => rfl⟩
  | double h => exact ⟨_, .cons (.double h) .nil, by simp, by simp, fun stack => rfl⟩
  | single h => exact ⟨_, .cons (.single h) .nil, by simp, by simp, fun stack => rfl⟩
  | noItems =>
    refine ⟨_, .cons (.mark .openList) (.cons (.mark .closeList) .nil), ?_, by simp, fun stack => rfl⟩
    simp [Mark.token]
  | @list v vs ls ms h hs ih ihs =>
    obtain ⟨ts, hts, hopen, hne, hrun⟩ := ih
    obtain ⟨us, hus, hrest⟩ := ihs
    have hends := List.rel_append hus (.cons (.mark .closeList) .nil)
    refine ⟨_, .cons (.mark .openList) (List.rel_append hts hends), by simp [Mark.token], by simp,
      fun stack => ?_⟩
    have hfirst : Reader.run ⟨.list [] :: stack, .itemOrClose⟩ ts =
        some ⟨.list [] :: stack, .after v⟩ := by rw [Reader.run_itemOrClose hne hopen, hrun]
    calc Reader.run ⟨.list [] :: stack, .itemOrClose⟩ (ts ++ (us ++ [.closeList]))
        = Reader.run ⟨.list [] :: stack, .after v⟩ (us ++ [.closeList]) := Reader.run_through hfirst _
      _ = some ⟨stack, .after (.arr (v :: vs))⟩ := hrest stack [] v
  | noFields =>
    refine ⟨_, .cons (.mark .openObject) (.cons (.mark .closeObject) .nil), ?_, by simp, fun stack => rfl⟩
    simp [Mark.token]
  | @object k v fs ls ms hk h hs ih ihs =>
    obtain ⟨ts, hts, hrun⟩ := ih
    obtain ⟨us, hus, hrest⟩ := ihs
    have hends := List.rel_append hus (.cons (.mark .closeObject) .nil)
    refine ⟨_, .cons (.mark .openObject) (List.rel_append hts hends), by simp [Mark.token], by simp,
      fun stack => ?_⟩
    have hfields : fs.foldl (fun acc f => setField f.1 f.2 acc) [(k, v)] = (k, v) :: fs :=
      foldl_setField (by simpa using hk)
    calc Reader.run ⟨stack, .keyOrClose []⟩ (ts ++ (us ++ [.closeObject]))
        = Reader.run ⟨.object [] k :: stack, .after v⟩ (us ++ [.closeObject]) :=
          Reader.run_through (hrun stack []).2 _
      _ = some ⟨stack, .after (.obj ((k, v) :: fs))⟩ := by rw [hrest, setField, hfields]
  | quotedKey hk h ih =>
    obtain ⟨ts, hts, -, -, hrun⟩ := ih
    exact ⟨_, .cons (.double hk) (.cons (.mark .colon) hts), fun stack fields =>
      ⟨hrun (.object fields _ :: stack), hrun (.object fields _ :: stack)⟩⟩
  | bareKey hk h ih =>
    obtain ⟨ts, hts, -, -, hrun⟩ := ih
    exact ⟨_, .cons (.bare hk) (.cons (.mark .colon) hts), fun stack fields =>
      ⟨hrun (.object fields _ :: stack), hrun (.object fields _ :: stack)⟩⟩
  | lastItem => exact ⟨[], .nil, fun stack done v => by rw [List.append_nil]; rfl⟩
  | @item v vs ls ms h hs ih ihs =>
    obtain ⟨ts, hts, -, -, hrun⟩ := ih
    obtain ⟨us, hus, hrest⟩ := ihs
    refine ⟨_, .cons (.mark .comma) (List.rel_append hts hus), fun stack done w => ?_⟩
    calc Reader.run ⟨.list (w :: done) :: stack, .value⟩ (ts ++ us ++ [.closeList])
        = Reader.run ⟨.list (w :: done) :: stack, .after v⟩ (us ++ [.closeList]) := by
          rw [List.append_assoc, Reader.run_through (hrun _)]
      _ = some ⟨stack, .after (.arr ((w :: done).reverse ++ v :: vs))⟩ := by
          rw [hrest, List.reverse_cons, List.append_assoc]; rfl
  | lastField => exact ⟨[], .nil, fun stack done k v => rfl⟩
  | @anotherField k v fs ls ms h hs ih ihs =>
    obtain ⟨ts, hts, hrun⟩ := ih
    obtain ⟨us, hus, hrest⟩ := ihs
    refine ⟨_, .cons (.mark .comma) (List.rel_append hts hus), fun stack done j w => ?_⟩
    calc Reader.run ⟨stack, .key (setField j w done)⟩ (ts ++ us ++ [.closeObject])
        = Reader.run ⟨.object (setField j w done) k :: stack, .after v⟩ (us ++ [.closeObject]) := by
          rw [List.append_assoc, Reader.run_through (hrun _ _).1]
      _ = _ := hrest _ _ _ _

end Reading

section Scanning

open Lexeme

theorem isWordChar_of_isSpace {c : Char} (h : isSpace c) : isWordChar c = false := by
  simp only [isSpace, Bool.or_eq_true, beq_iff_eq] at h
  rcases h with ((rfl | rfl) | rfl) | rfl <;> decide

theorem scan_space {c : Char} (h : isSpace c) (cs : List Char) :
    scan .between (c :: cs) = scan .between cs :=
  scan_silent (by simp [Scan.step, Scan.begin, h]) cs

theorem scan_blanks {blanks : List Char} (hb : ∀ c ∈ blanks, isSpace c) (cs : List Char) :
    scan .between (blanks ++ cs) = scan .between cs := by
  induction blanks with
  | nil => rfl
  | cons c blanks ih =>
    rw [List.cons_append, scan_space (hb c (by simp)), ih fun c hc => hb c (by simp [hc])]

theorem scan_inWord {cs rest : List Char} (hcs : ∀ c ∈ cs, isWordChar c)
    (hrest : ∀ c ∈ rest.head?, isWordChar c = false) (read : List Char) :
    scan (.word read) (cs ++ rest) =
      (readWord? (read.reverse ++ cs)).bind fun v => (scan .between rest).map (.atom v :: ·) := by
  induction cs generalizing read with
  | nil =>
    cases rest with
    | nil => cases hv : readWord? read.reverse <;> simp [scan, Scan.finish?, hv]
    | cons c rest =>
      have hc : isWordChar c = false := hrest c (by simp)
      cases hv : readWord? read.reverse with
      | none => simp [scan_cons, Scan.step, hc, hv]
      | some v =>
        cases hb : Scan.begin c <;> simp [scan_cons, Scan.step, hc, hv, hb, Function.comp_def]
  | cons c cs ih =>
    have hstep : Scan.step (.word read) c = some (.word (c :: read), []) := by
      simp [Scan.step, hcs c (by simp)]
    rw [List.cons_append, scan_silent hstep, ih (fun c hc => hcs c (by simp [hc]))]
    simp

theorem step_word {c : Char} (hc : isWordChar c) : Scan.step .between c = some (.word [c], []) := by
  have hspace : isSpace c = false := by
    cases hs : isSpace c with
    | false => rfl
    | true => rw [isWordChar_of_isSpace hs] at hc; cases hc
  simp [Scan.step, Scan.begin, hspace, hc]

theorem scan_word {cs rest : List Char} (hne : cs ≠ []) (hcs : ∀ c ∈ cs, isWordChar c)
    (hrest : ∀ c ∈ rest.head?, isWordChar c = false) :
    scan .between (cs ++ rest) =
      (readWord? cs).bind fun v => (scan .between rest).map (.atom v :: ·) := by
  obtain ⟨c, cs, rfl⟩ := List.exists_cons_of_ne_nil hne
  rw [List.cons_append, scan_silent (step_word (hcs c (by simp))),
    scan_inWord (fun c hc => hcs c (by simp [hc])) hrest]
  rfl

theorem scan_mark (m : Mark) (rest : List Char) :
    scan .between ((mark m).text ++ rest) = (scan .between rest).map (m.token :: ·) := by
  simp [text, scan_cons, Scan.step, m.begin]

theorem scan_double {body cs : List Char} (h : Spells body cs) (rest : List Char) :
    scan .between ((double body).text ++ rest) =
      (scan .between rest).map (.text (String.ofList cs) :: ·) := by
  have hopen : Scan.step .between '"' = some (.text [] none, []) := by rfl
  have htext : (double body).text ++ rest = '"' :: (body ++ '"' :: rest) := by simp [text]
  rw [htext, scan_silent hopen, scan_spells h]
  rfl

theorem eq_underscore {c : Char} (hk : isKeyChar c) (hw : isWordChar c = false) : c = '_' := by
  simp only [isKeyChar, isKeyStart, isWordChar, Bool.or_eq_true, Bool.or_eq_false_iff, beq_iff_eq] at hk hw
  obtain ⟨⟨⟨⟨⟨hdigit, hlower⟩, hupper⟩, -⟩, hminus⟩, -⟩ := hw
  rcases hk with (((hk | hk) | hk) | hk) | hk
  · rw [hlower] at hk; cases hk
  · rw [hupper] at hk; cases hk
  · exact hk
  · rw [hdigit] at hk; cases hk
  · simp [hk] at hminus

theorem scan_inKey {key rest : List Char} (hk : ∀ c ∈ key, isKeyChar c)
    (hrest : ∀ c ∈ rest.head?, isWordChar c = false) (read : List Char) :
    scan (.word read) (key ++ rest) = none ∨
      ∃ v, scan (.word read) (key ++ rest) = (scan .between rest).map (.atom v :: ·) := by
  induction key generalizing read with
  | nil =>
    rw [scan_inWord (by simp) hrest]
    cases readWord? (read.reverse ++ []) with
    | none => exact .inl rfl
    | some v => exact .inr ⟨v, rfl⟩
  | cons c key ih =>
    cases hw : isWordChar c with
    | true =>
      have hstep : Scan.step (.word read) c = some (.word (c :: read), []) := by simp [Scan.step, hw]
      rw [List.cons_append, scan_silent hstep]
      exact ih (fun c hc => hk c (by simp [hc])) _
    | false =>
      -- an underscore belongs to no word and begins none
      obtain rfl := eq_underscore (hk c (by simp)) hw
      have hbegin : Scan.begin '_' = none := rfl
      left
      cases hv : readWord? read.reverse <;> simp [scan_cons, Scan.step, hw, hv, hbegin]

/-- An identifier is not scanned, or it is taken for a word. -/
theorem scan_bare {key rest : List Char} (hk : IsKey key)
    (hrest : ∀ c ∈ rest.head?, isWordChar c = false) :
    scan .between (key ++ rest) = none ∨
      ∃ v, scan .between (key ++ rest) = (scan .between rest).map (.atom v :: ·) := by
  obtain ⟨hstart, hchars⟩ := hk
  obtain ⟨c, key, rfl⟩ := List.exists_cons_of_ne_nil (show key ≠ [] by rintro rfl; simp at hstart)
  cases hw : isWordChar c with
  | true =>
    rw [List.cons_append, scan_silent (step_word hw)]
    exact scan_inKey (fun c hc => hchars c (by simp [hc])) hrest _
  | false =>
    obtain rfl := eq_underscore (hchars c (by simp)) hw
    exact .inl rfl

theorem Lexeme.Precedes.toMark {l l' : Lexeme} (h : Precedes l l') (hl : ∀ m, l ≠ mark m) :
    ∃ m, l' = mark m := by
  cases h with
  | marks m | word m | double m | single m | bare => exact absurd rfl (hl _)
  | afterWord | afterDouble | afterSingle | afterBare => exact ⟨_, rfl⟩

/-- Where a lexeme that is no mark ends, a blank or a mark stands. -/
theorem Spaced.head {l : Lexeme} {ls : List Lexeme} {cs : List Char} (h : Spaced ls cs)
    (hc : (l :: ls).IsChain Precedes) (hl : ∀ m, l ≠ mark m) :
    ∀ c ∈ cs.head?, isSpace c ∨ ∃ m : Mark, c = m.char := by
  intro c hcs
  cases h with
  | last hb => exact .inl (hb c (List.mem_of_mem_head? hcs))
  | @next blanks l' ls cs hb h =>
    cases blanks with
    | cons b blanks =>
      obtain rfl : b = c := by simpa using hcs
      exact .inl (hb b (by simp))
    | nil =>
      rw [List.isChain_cons_cons] at hc
      obtain ⟨m, rfl⟩ := hc.1.toMark hl
      exact .inr ⟨m, by simpa [text, eq_comm] using hcs⟩

theorem Spaced.head_not_word {l : Lexeme} {ls : List Lexeme} {cs : List Char} (h : Spaced ls cs)
    (hc : (l :: ls).IsChain Precedes) (hl : ∀ m, l ≠ mark m) :
    ∀ c ∈ cs.head?, isWordChar c = false := by
  intro c hcs
  rcases h.head hc hl c hcs with hs | ⟨m, rfl⟩
  · exact isWordChar_of_isSpace hs
  · exact m.not_word

theorem Lexeme.Reads.scanned {l : Lexeme} {t : Token} (ht : Lexeme.Reads l t) (hl : l.isRelaxed = false)
    {ls : List Lexeme} {cs : List Char} (h : Spaced ls cs) (hc : (l :: ls).IsChain Precedes) :
    scan .between (l.text ++ cs) = (scan .between cs).map (t :: ·) := by
  cases ht with
  | mark m => exact scan_mark m cs
  | word hw =>
    obtain ⟨hne, hchars⟩ := hw.chars
    have hscan := scan_word hne hchars (h.head_not_word hc (by simp))
    rwa [hw.read] at hscan
  | double hs => exact scan_double hs cs
  | single | bare => simp [isRelaxed] at hl

/-- A row without relaxed lexemes is scanned lexeme by lexeme. -/
theorem Spaced.scanned {ls : List Lexeme} {cs : List Char} {ts : List Token} (h : Spaced ls cs)
    (hts : List.Forall₂ Lexeme.Reads ls ts) (hc : ls.IsChain Precedes)
    (hs : ∀ l ∈ ls, l.isRelaxed = false) : scan .between cs = some ts := by
  induction h generalizing ts with
  | last hb =>
    cases hts
    simpa [scan, Scan.finish?] using scan_blanks hb []
  | @next blanks l ls cs hb h ih =>
    cases hts with
    | cons ht hts =>
      rw [scan_blanks hb, ht.scanned (hs l (by simp)) h hc,
        ih hts hc.tail fun l hl => hs l (by simp [hl])]
      rfl

/-- An atom that a colon follows is read nowhere: where the atom may stand, the colon may not. -/
theorem Reader.run_atom_colon (r : Reader) (v : Json) (ts : List Token) :
    r.run (.atom v :: .colon :: ts) = none := by
  obtain ⟨stack, expect⟩ := r
  cases expect with
  | after w => rcases stack with _ | ⟨_ | _, stack⟩ <;> rfl
  | _ => rcases stack with _ | ⟨_ | _, stack⟩ <;> rfl

/-- A row with a relaxed lexeme is not read. -/
theorem Spaced.unread {ls : List Lexeme} {cs : List Char} {ts : List Token} (h : Spaced ls cs)
    (hts : List.Forall₂ Lexeme.Reads ls ts) (hc : (ls ++ [mark .comma]).IsChain Precedes)
    (hs : ∃ l ∈ ls, l.isRelaxed) (r : Reader) : (scan .between cs).bind r.run = none := by
  induction h generalizing ts r with
  | last hb => simp at hs
  | @next blanks l ls cs hb h ih =>
    rw [scan_blanks hb]
    have hchain : (l :: ls).IsChain Precedes := hc.left_of_append
    cases hts with
    | @cons _ t _ ts ht hts =>
      cases hl : l.isRelaxed with
      | false =>
        have hrest : ∃ l ∈ ls, l.isRelaxed := by simpa [hl] using hs
        rw [ht.scanned hl h hchain]
        cases hstep : r.step t with
        | none => cases scan .between cs <;> simp [Reader.run, hstep]
        | some r' =>
          have := ih hts hc.tail hrest r'
          cases hscan : scan .between cs <;> simp_all [Reader.run]
      | true =>
        cases ht with
        | mark | word | double => simp [isRelaxed] at hl
        | single => rfl
        | bare hk =>
          -- a colon follows, whatever the key is taken for
          rcases scan_bare hk (h.head_not_word hchain (by simp)) with hnone | ⟨v, hv⟩
          · rw [text, hnone]; rfl
          · rw [text, hv]
            cases h with
            | last hb => cases hc.rel
            | @next blanks l ls cs hb h =>
              cases hc.rel
              rw [scan_blanks hb, scan_mark .colon]
              cases scan .between cs with
              | none => rfl
              | some us => exact r.run_atom_colon v us

/-- A row of neighbours that reads as a value, were its relaxed lexemes read as well. -/
structure Row (v : Json) (ls : List Lexeme) : Prop where
  chain : (mark .openList :: (ls ++ [mark .comma])).IsChain Precedes
  reads : ∃ ts, List.Forall₂ Lexeme.Reads ls ts ∧ ofTokens? ts = some v

theorem Written.row {v : Json} {ls : List Lexeme} (h : Written (.value v) ls) : Row v ls := by
  constructor
  · have hcomma : Ends [mark .comma] := Ends.mark (by simp) (.singleton _)
    exact h.joins _ hcomma .openList
  · obtain ⟨ts, hts, -, -, hrun⟩ := h.readFrom
    have hread : ofTokens? ts = some v := by
      simp only [ofTokens?]
      rw [hrun []]
      rfl
    exact ⟨ts, hts, hread⟩

theorem Row.read {v : Json} {ls : List Lexeme} {cs : List Char} (h : Row v ls)
    (hs : ∀ l ∈ ls, l.isRelaxed = false) (hcs : Spaced ls cs) : read? cs = some v := by
  obtain ⟨ts, hts, hread⟩ := h.reads
  have hscan : tokens? cs = some ts := hcs.scanned hts h.chain.tail.left_of_append hs
  simp [read?, hscan, hread]

theorem Row.unread {v : Json} {ls : List Lexeme} {cs : List Char} (h : Row v ls)
    (hs : ∃ l ∈ ls, l.isRelaxed) (hcs : Spaced ls cs) : read? cs = none := by
  obtain ⟨ts, hts, -⟩ := h.reads
  have hrun : (tokens? cs).bind (Reader.run {}) = none := hcs.unread hts h.chain.tail hs {}
  cases hscan : tokens? cs with
  | none => simp [read?, hscan]
  | some us =>
    have hus : Reader.run {} us = none := by rwa [hscan] at hrun
    simp [read?, hscan, ofTokens?, hus]

end Scanning

end ReactiveScopes.Json
