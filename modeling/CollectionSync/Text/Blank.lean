import CollectionSync.Text.CodeSet

/-! Blank characters: the Unicode property White_Space, and trimming by it. -/

namespace CollectionSync.Text

/-- Characters with the property White_Space. -/
def blankSet : CodeSet where changes := [
  9, 14, 32, 33, 133, 134, 160, 161, 5760, 5761, 8192, 8203, 8232, 8234, 8239, 8240, 8287, 8288,
  12288, 12289]

def isBlank (c : Char) : Bool := blankSet.contains c

/-- Control characters are the category Cc: the two blocks that ASCII and Latin-1 reserve. -/
def isControl (c : Char) : Bool := c.toNat < 32 || (127 ≤ c.toNat && c.toNat < 160)

def isDigit (c : Char) : Bool := '0' ≤ c && c ≤ '9'

theorem isDigit_iff_toNat {c : Char} : isDigit c = true ↔ 48 ≤ c.toNat ∧ c.toNat ≤ 57 := by
  rw [isDigit, Bool.and_eq_true, decide_eq_true_eq, decide_eq_true_eq]
  exact Iff.rfl

theorem isBlank_of_isDigit {c : Char} (h : isDigit c = true) : isBlank c = false := by
  have hrange := isDigit_iff_toNat.mp h
  have hchanges : ∀ change ∈ blankSet.changes, change ≤ 48 ∨ 57 < change := by decide
  have hsame : isBlank c = isBlank '0' := CodeSet.contains_congr fun change hmem => by
    have := hchanges change hmem
    have hzero : '0'.toNat = 48 := rfl
    omega
  rw [hsame]
  decide

/-- Drops blanks at the front. -/
def trimStart (s : List Char) : List Char := s.dropWhile isBlank

/-- Drops blanks at the end. -/
def trimEnd (s : List Char) : List Char := (s.reverse.dropWhile isBlank).reverse

def trim (s : List Char) : List Char := trimEnd (trimStart s)

/-- A text of blanks only, the empty one included. -/
def isBlankText (s : String) : Bool := s.toList.all isBlank

end CollectionSync.Text
