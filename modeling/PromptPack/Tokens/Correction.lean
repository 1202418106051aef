/-!
# The correction of counts

Counts made offline run low, so they are scaled by the binary fraction nearest to 1.18. The
product is rounded to a significand of 53 bits, ties to even, and then cut to a whole number. All
of it is done in exact whole numbers.
-/

namespace PromptPack.Correction

/-- The bits of a significand. -/
def precision : Nat := 53

/-- The number nearest to `n` that has no more than `bits` significant bits; of two equally near
ones the even one. -/
def roundSignificant (bits n : Nat) : Nat :=
  let unit := Nat.pow 2 (n.log2 + 1 - bits)
  let quotient := n / unit
  let rest := n % unit
  let up := unit < 2 * rest || (unit == 2 * rest && quotient % 2 == 1)
  (if up then quotient + 1 else quotient) * unit

/-- The denominator of the factor. -/
def denominator : Nat := Nat.pow 2 52

/-- The numerator of the factor. -/
def numerator : Nat := Nat.pow 2 52 + 810647932926689

/-- The corrected count. -/
def apply (raw : Nat) : Nat :=
  roundSignificant precision (roundSignificant precision raw * numerator) / denominator

end PromptPack.Correction
