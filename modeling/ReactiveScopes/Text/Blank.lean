/-!
# Blank characters

Which characters separate words. The set is the Unicode property `White_Space` together with the
four information separators U+001C to U+001F, as trimming and the comparison shorthand use it.
JSON text has a narrower set of its own.
-/
namespace ReactiveScopes.Text

/-- Ranges of blank characters, in order, both ends included. -/
def blankRanges : List (Nat × Nat) :=
  [(0x9, 0xD), (0x1C, 0x20), (0x85, 0x85), (0xA0, 0xA0), (0x1680, 0x1680), (0x2000, 0x200A),
   (0x2028, 0x2029), (0x202F, 0x202F), (0x205F, 0x205F), (0x3000, 0x3000)]

def isBlank (c : Char) : Bool :=
  blankRanges.any fun (lo, hi) => lo ≤ c.toNat && c.toNat ≤ hi

theorem isBlank_of_isWhitespace {c : Char} (h : c.isWhitespace) : isBlank c := by
  simp only [Char.isWhitespace, Bool.or_eq_true, decide_eq_true_eq] at h
  rcases h with (((rfl | rfl) | rfl) | rfl) <;> decide

def dropBlanks (cs : List Char) : List Char := cs.dropWhile isBlank

def trimRight (cs : List Char) : List Char := (dropBlanks cs.reverse).reverse

def trim (cs : List Char) : List Char := trimRight (dropBlanks cs)

/-- The words of a text: its maximal runs of characters that are not blank. -/
def words (cs : List Char) : List (List Char) :=
  let step (c : Char) : List Char × List (List Char) → List Char × List (List Char)
    | ([], ws) => if isBlank c then ([], ws) else ([c], ws)
    | (w, ws) => if isBlank c then ([], w :: ws) else (c :: w, ws)
  match cs.foldr step ([], []) with
  | ([], ws) => ws
  | (w, ws) => w :: ws

end ReactiveScopes.Text
