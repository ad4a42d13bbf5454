/-! Sets of characters given by the code points at which membership changes. A character belongs
to the set when an odd number of changes lie at or below it, so a table is one ascending list and
no interval has to be searched for. -/

namespace CollectionSync.Text

/-- The ascending code points at which membership flips, starting from "outside". -/
structure CodeSet where
  changes : List Nat

def CodeSet.contains (set : CodeSet) (c : Char) : Bool :=
  set.changes.countP (· ≤ c.toNat) % 2 == 1

/-- Characters belong alike where no change lies between them. -/
theorem CodeSet.contains_congr {set : CodeSet} {c d : Char}
    (h : ∀ change ∈ set.changes, change ≤ c.toNat ↔ change ≤ d.toNat) :
    set.contains c = set.contains d := by
  have hcount : set.changes.countP (· ≤ c.toNat) = set.changes.countP (· ≤ d.toNat) :=
    List.countP_congr fun change hmem => by simpa using h change hmem
  rw [contains, contains, hcount]

end CollectionSync.Text
