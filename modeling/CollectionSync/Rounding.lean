/-! Rounding to whole numbers, a half to the even neighbour. -/

namespace CollectionSync.Rounding

/-- The whole number nearest to `n / d`; of two equally near ones the even one. -/
def nearest (n d : Nat) : Nat :=
  if 2 * (n % d) > d ∨ (2 * (n % d) = d ∧ n / d % 2 = 1) then n / d + 1 else n / d

/-- The result lies at most half a unit from the quotient. -/
theorem nearest_within_half (n d : Nat) (h : 0 < d) :
    2 * n ≤ (2 * nearest n d + 1) * d ∧ 2 * nearest n d * d ≤ 2 * n + d := by
  have eq : d * (n / d) + n % d = n := Nat.div_add_mod n d
  have lt : n % d < d := Nat.mod_lt n h
  unfold nearest
  generalize n % d = r at *
  generalize n / d = q at *
  subst eq
  split <;> constructor <;> grind

/-- The whole number nearest to `n` that has a significand of 53 bits, as a double does. -/
def toDouble (n : Nat) : Nat :=
  let scale := Nat.pow 2 (n.log2 - 52)
  nearest n scale * scale

/-- The whole number nearest to a double that is neither negative nor infinite. Its bits hold a
significand of 53 bits, or 52 for the smallest exponent, and the power of two that scales it. -/
def nearestWhole (x : Float) : Nat :=
  let bits := x.toBits.toNat
  let hidden := 1 <<< 52
  let exponent := bits / hidden % 2048
  let significand := bits % hidden + if exponent = 0 then 0 else hidden
  let scale := max exponent 1
  if scale ≥ 1075 then significand <<< (scale - 1075)
  else nearest significand (1 <<< (1075 - scale))

end CollectionSync.Rounding
