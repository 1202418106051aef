import Mathlib.Tactic.Ring
import PromptPack.Proofs.Tokens.Tally
/-!
# Corrected counts are exact

The factor of the correction is a binary fraction a little below 1.18, so the product falls short of each whole
number that the exact product reaches. Rounding a product goes to the nearest number with so many significant
bits (`roundSignificant_nearest`), and so by no more than half the spacing around the product. That is more than
what the factor lacks, and less than what the exact product lacks of the next whole number, so what is cut off
in the end is exactly the fraction (`corrected_counts_are_exact`).
-/

namespace PromptPack.Correction

variable {bits n m : Nat}

/-- The number has no more than so many significant bits. -/
def Fits (bits n : Nat) : Prop := ∃ significand exponent, significand < 2 ^ bits ∧ n = significand * 2 ^ exponent

/-- How far apart the numbers with so many significant bits are that stand around `n`. -/
def spacing (bits n : Nat) : Nat := 2 ^ (n.log2 + 1 - bits)

/-- How far apart two numbers are. -/
def distance (n m : Nat) : Nat := (n - m) + (m - n)

/-- Of the numbers with so many significant bits none is nearer to `n` than `r`, and where another one is as near
the significand of `r` is even. -/
structure NearestEven (bits n r : Nat) : Prop where
  fits : Fits bits r
  nearest : ∀ m, Fits bits m → distance n r ≤ distance n m
  even : ∀ m, Fits bits m → m ≠ r → distance n m = distance n r → 2 * spacing bits n ∣ r

/-! ## Rounding -/

theorem spacing_pos (bits n : Nat) : 0 < spacing bits n := Nat.two_pow_pos _

/-- Rounding goes up or down to a multiple of the spacing, whichever is nearer, and to the even one when both are
as near. -/
theorem roundSignificant_cases (bits n : Nat) :
    ∃ quotient rest, n = quotient * spacing bits n + rest ∧ rest < spacing bits n ∧
      ((roundSignificant bits n = quotient * spacing bits n ∧
          (2 * rest < spacing bits n ∨ 2 * rest = spacing bits n ∧ quotient % 2 = 0)) ∨
        roundSignificant bits n = (quotient + 1) * spacing bits n ∧
          (spacing bits n < 2 * rest ∨ 2 * rest = spacing bits n ∧ quotient % 2 = 1)) := by
  refine ⟨n / spacing bits n, n % spacing bits n, (Nat.div_add_mod' n _).symm, Nat.mod_lt _ (spacing_pos bits n), ?_⟩
  have hround : roundSignificant bits n =
      (if spacing bits n < 2 * (n % spacing bits n) ||
          (spacing bits n == 2 * (n % spacing bits n) && n / spacing bits n % 2 == 1)
        then n / spacing bits n + 1 else n / spacing bits n) * spacing bits n := rfl
  rw [hround]
  split
  · rename_i hup
    refine .inr ⟨rfl, ?_⟩
    simp only [Bool.or_eq_true, Bool.and_eq_true, decide_eq_true_eq, beq_iff_eq] at hup
    omega
  · rename_i hdown
    refine .inl ⟨rfl, ?_⟩
    simp only [Bool.or_eq_true, Bool.and_eq_true, decide_eq_true_eq, beq_iff_eq] at hdown
    omega

theorem spacing_dvd_roundSignificant (bits n : Nat) : spacing bits n ∣ roundSignificant bits n := by
  obtain ⟨quotient, rest, -, -, ⟨heq, -⟩ | ⟨heq, -⟩⟩ := roundSignificant_cases bits n
  · exact heq ▸ Nat.dvd_mul_left _ _
  · exact heq ▸ Nat.dvd_mul_left _ _

/-- Rounding moves a number by half the spacing at most. -/
theorem two_mul_distance_roundSignificant_le (bits n : Nat) :
    2 * distance n (roundSignificant bits n) ≤ spacing bits n := by
  obtain ⟨quotient, rest, hn, hrest, ⟨heq, hnear⟩ | ⟨heq, hnear⟩⟩ := roundSignificant_cases bits n
  · rw [heq, distance]
    omega
  · rw [heq, distance, Nat.succ_mul quotient]
    omega

/-- Two multiples of a number that are less than it apart are the same. -/
theorem eq_of_dvd_of_distance_lt {u : Nat} (hn : u ∣ n) (hm : u ∣ m) (hlt : distance n m < u) : n = m := by
  have hdown : n - m = 0 := Nat.eq_zero_of_dvd_of_lt (Nat.dvd_sub hn hm) (by unfold distance at hlt; omega)
  have hup : m - n = 0 := Nat.eq_zero_of_dvd_of_lt (Nat.dvd_sub hm hn) (by unfold distance at hlt; omega)
  omega

/-- Of the multiples of the spacing none is nearer. -/
theorem distance_roundSignificant_le_of_dvd (hdvd : spacing bits n ∣ m) :
    distance n (roundSignificant bits n) ≤ distance n m := by
  have hround := spacing_dvd_roundSignificant bits n
  have herror := two_mul_distance_roundSignificant_le bits n
  by_cases hnear : distance m (roundSignificant bits n) < spacing bits n
  · rw [eq_of_dvd_of_distance_lt hdvd hround hnear]
  · unfold distance at *
    omega

/-- A number with few bits rounds to itself. -/
theorem roundSignificant_eq_self (h : n.log2 < bits) : roundSignificant bits n = n := by
  have hspacing : spacing bits n = 1 := by
    rw [spacing, Nat.sub_eq_zero_of_le h, Nat.pow_zero]
  have herror := two_mul_distance_roundSignificant_le bits n
  rw [hspacing, distance] at herror
  omega

theorem roundSignificant_eq_self_of_lt (h : n < 2 ^ bits) : roundSignificant bits n = n := by
  rcases Nat.eq_zero_or_pos n with rfl | hpos
  · obtain ⟨quotient, rest, hn, -, ⟨heq, -⟩ | ⟨heq, hnear⟩⟩ := roundSignificant_cases bits 0
    · omega
    · have := spacing_pos bits 0
      have hrest : rest = 0 := by omega
      omega
  · exact roundSignificant_eq_self ((Nat.log2_lt (Nat.ne_of_gt hpos)).2 h)

/-- From the leading bit of `n` on a number that has no more than so many significant bits is a multiple of the
spacing around `n`. -/
theorem Fits.spacing_dvd (hfits : Fits bits m) (hle : 2 ^ n.log2 ≤ m) : spacing bits n ∣ m := by
  obtain ⟨significand, exponent, hlt, rfl⟩ := hfits
  refine Dvd.dvd.mul_left (Nat.pow_dvd_pow 2 ?_) significand
  have hpow : 2 ^ n.log2 < 2 ^ (bits + exponent) := by
    rw [Nat.pow_add]
    exact Nat.lt_of_le_of_lt hle ((Nat.mul_lt_mul_right (Nat.two_pow_pos exponent)).2 hlt)
  have := (Nat.pow_lt_pow_iff_right Nat.one_lt_two).1 hpow
  omega

theorem fits_roundSignificant (hbits : 0 < bits) (n : Nat) : Fits bits (roundSignificant bits n) := by
  obtain ⟨quotient, rest, hn, hrest, hcases⟩ := roundSignificant_cases bits n
  -- The quotient has no more than so many bits, as the spacing is cut off from `n`.
  have hquotient : quotient < 2 ^ bits := by
    have hlt : quotient * spacing bits n < 2 ^ bits * spacing bits n := by
      calc quotient * spacing bits n ≤ n := by omega
        _ < 2 ^ (n.log2 + 1) := Nat.lt_log2_self
        _ ≤ 2 ^ (bits + (n.log2 + 1 - bits)) := Nat.pow_le_pow_right Nat.two_pos (by omega)
        _ = 2 ^ bits * spacing bits n := Nat.pow_add _ _ _
    exact Nat.lt_of_mul_lt_mul_right hlt
  rcases hcases with ⟨heq, -⟩ | ⟨heq, -⟩
  · exact ⟨quotient, _, hquotient, heq⟩
  · rcases Nat.lt_or_eq_of_le (Nat.succ_le_of_lt hquotient) with hlt | hfull
    · exact ⟨quotient + 1, _, hlt, heq⟩
    · -- The carry goes through all bits, and one of them is left.
      refine ⟨1, bits + (n.log2 + 1 - bits), Nat.one_lt_two_pow (by omega), ?_⟩
      rw [heq, Nat.one_mul, Nat.pow_add, ← hfull]
      rfl

/-- The rounded number is the nearest one, and the even one of two. -/
theorem roundSignificant_nearest (hbits : 0 < bits) (n : Nat) : NearestEven bits n (roundSignificant bits n) := by
  -- A number below the leading bit of `n` is farther away than the one that has this bit alone.
  have hfar {m : Nat} (hfits : Fits bits m) : spacing bits n ∣ m ∨ roundSignificant bits n = n ∨
      (m < 2 ^ n.log2 ∧ 2 ^ n.log2 ≤ n ∧ spacing bits n ∣ 2 ^ n.log2) := by
    rcases Nat.lt_or_ge m (2 ^ n.log2) with hlt | hge
    · rcases Nat.lt_or_ge n.log2 bits with hfew | hmany
      · exact .inr (.inl (roundSignificant_eq_self hfew))
      · have hne : n ≠ 0 := by
          rintro rfl
          rw [Nat.log2_zero] at hmany
          omega
        exact .inr (.inr ⟨hlt, Nat.log2_self_le hne, Nat.pow_dvd_pow 2 (by omega)⟩)
    · exact .inl (hfits.spacing_dvd hge)
  refine ⟨fits_roundSignificant hbits n, fun m hfits => ?_, fun m hfits hne htie => ?_⟩
  · rcases hfar hfits with hdvd | heq | ⟨hlt, hle, hdvd⟩
    · exact distance_roundSignificant_le_of_dvd hdvd
    · rw [heq, distance]
      omega
    · have := distance_roundSignificant_le_of_dvd hdvd
      unfold distance at *
      omega
  · rcases hfar hfits with hdvd | heq | ⟨hlt, hle, hdvd⟩
    · have hapart : spacing bits n ≤ distance m (roundSignificant bits n) :=
        Nat.not_lt.1 fun hlt => hne (eq_of_dvd_of_distance_lt hdvd (spacing_dvd_roundSignificant bits n) hlt)
      have herror := two_mul_distance_roundSignificant_le bits n
      have hhalf : 2 * distance n (roundSignificant bits n) = spacing bits n := by
        unfold distance at *
        omega
      obtain ⟨quotient, rest, hn, hrest, ⟨heq, hnear⟩ | ⟨heq, hnear⟩⟩ := roundSignificant_cases bits n
      · rw [heq, distance] at hhalf
        rw [heq]
        exact Nat.mul_dvd_mul_right (Nat.dvd_of_mod_eq_zero (by omega)) _
      · rw [heq, distance, Nat.succ_mul quotient] at hhalf
        rw [heq]
        exact Nat.mul_dvd_mul_right (Nat.dvd_of_mod_eq_zero (by omega)) _
    · rw [heq, distance, distance] at htie
      omega
    · have := distance_roundSignificant_le_of_dvd hdvd
      unfold distance at *
      omega

/-! ## The factor -/

/-- The factor is nearest to 1.18 and below it. -/
theorem numerator_eq : 100 * numerator + 28 = 118 * denominator := rfl

/-- What the product with the factor lacks of the exact one. -/
theorem product_eq (raw : Nat) :
    100 * (raw * numerator) + 28 * raw = (100 * (raw * 118 / 100) + raw * 118 % 100) * denominator := by
  rw [Nat.div_add_mod]
  calc 100 * (raw * numerator) + 28 * raw = raw * (100 * numerator + 28) := by ring
    _ = raw * 118 * denominator := by rw [numerator_eq]; ring

theorem denominator_eq : denominator = 4503599627370496 := rfl

/-- The spacing around a product is at least as wide as the product's share of the factor's lack, and divides
the denominator. -/
theorem spacing_product {raw : Nat} (hpos : 0 < raw) (hsmall : raw < 2 ^ 46) :
    56 * raw < 100 * spacing precision (raw * numerator) ∧ spacing precision (raw * numerator) ≤ 2 ^ 46 ∧
      spacing precision (raw * numerator) ∣ denominator := by
  have hnumerator : numerator = 5314247560297185 := rfl
  have hle : denominator ≤ raw * numerator := by rw [hnumerator, denominator_eq]; omega
  have hlt : raw * numerator < 2 ^ 99 := by rw [hnumerator]; omega
  have hne : raw * numerator ≠ 0 := by rw [denominator_eq] at hle; omega
  have hlow : 52 ≤ (raw * numerator).log2 := (Nat.le_log2 hne).2 hle
  have hhigh : (raw * numerator).log2 < 99 := (Nat.log2_lt hne).2 hlt
  have htop : raw * numerator < spacing precision (raw * numerator) * 2 ^ 53 := by
    calc raw * numerator < 2 ^ ((raw * numerator).log2 + 1) := Nat.lt_log2_self
      _ = spacing precision (raw * numerator) * 2 ^ 53 := by
        rw [spacing, ← Nat.pow_add]
        congr 1
        show (raw * numerator).log2 + 1 = (raw * numerator).log2 + 1 - 53 + 53
        omega
  refine ⟨?_, ?_, ?_⟩
  · rw [hnumerator] at htop ⊢
    omega
  · exact Nat.pow_le_pow_right Nat.two_pos (by show (raw * numerator).log2 + 1 - 53 ≤ 46; omega)
  · exact Nat.pow_dvd_pow 2 (by show (raw * numerator).log2 + 1 - 53 ≤ 52; omega)

/-- Cutting off the fraction of the rounded product gives the whole part of the exact one. -/
theorem roundSignificant_product_div {raw : Nat} (hsmall : raw < 2 ^ 46) :
    roundSignificant precision (raw * numerator) / denominator = raw * 118 / 100 := by
  rcases Nat.eq_zero_or_pos raw with rfl | hpos
  · rfl
  obtain ⟨hlack, hspacing, hdvd⟩ := spacing_product hpos hsmall
  have hround := spacing_dvd_roundSignificant precision (raw * numerator)
  have herror := two_mul_distance_roundSignificant_le precision (raw * numerator)
  have hproduct := product_eq raw
  have hrest : raw * 118 % 100 < 100 := Nat.mod_lt _ (by decide)
  have heven : raw * 118 % 100 % 2 = 0 := by omega
  have hwhole : spacing precision (raw * numerator) ∣ raw * 118 / 100 * denominator := hdvd.mul_left _
  generalize raw * numerator = product at *
  generalize raw * 118 / 100 = whole at *
  generalize raw * 118 % 100 = rest at *
  rw [denominator_eq] at *
  rcases Nat.eq_zero_or_pos rest with rfl | hrest'
  · -- The exact product is whole; the rounding makes up for what the factor lacks.
    have heq : roundSignificant precision product = whole * 4503599627370496 := by
      refine eq_of_dvd_of_distance_lt hround hwhole ?_
      unfold distance at *
      omega
    rw [heq, Nat.mul_div_cancel _ (by decide)]
  · -- The exact product is at least two hundredths away from either whole number.
    refine Nat.div_eq_of_lt_le ?_ ?_
    · unfold distance at herror
      omega
    · unfold distance at herror
      omega

theorem apply_eq {raw : Nat} (hsmall : raw < 2 ^ 46) : apply raw = raw * 118 / 100 := by
  have hraw : roundSignificant precision raw = raw :=
    roundSignificant_eq_self_of_lt (Nat.lt_trans hsmall (by decide))
  rw [apply, hraw, roundSignificant_product_div hsmall]

/-- A corrected count of fewer than `2 ^ 46` tokens is what remains of the exact product with 1.18 when its
fraction is cut off, although the product is made with the binary fraction nearest to 1.18, which is below it,
and is rounded to the nearest number of 53 significant bits, ties to even. So no multiple of fifty is off by one. -/
theorem corrected_counts_are_exact (t : Tally) (s : String) (hcorrected : t.counter.corrected = true)
    (hsmall : (t.rawCount s).1 < 2 ^ 46) :
    (100 * numerator + 28 = 118 * 2 ^ 52 ∧ ∃ product, NearestEven 53 ((t.rawCount s).1 * numerator) product ∧
        (t.count s).1 = product / 2 ^ 52) ∧
      (t.count s).1 = (t.rawCount s).1 * 118 / 100 ∧
      ∀ k, (t.rawCount s).1 = 50 * k → (t.count s).1 = 59 * k := by
  have hcount : (t.count s).1 = apply (t.rawCount s).1 := by
    rw [Tally.count_eq, TokenCounter.shown, if_pos hcorrected]
  have hexact : (t.count s).1 = (t.rawCount s).1 * 118 / 100 := by rw [hcount, apply_eq hsmall]
  refine ⟨⟨rfl, _, roundSignificant_nearest (by decide) _, ?_⟩, hexact, fun k hk => ?_⟩
  · rw [hexact]
    exact (roundSignificant_product_div hsmall).symm
  · rw [hexact, hk]
    omega

/-- Fifty tokens are shown as fifty-nine. -/
theorem corrected_count_of_fifty :
    let t := Tally.new ⟨.o200k, fun s => s.toList.map Char.toNat, true⟩
    let s := String.ofList (List.replicate 50 'a')
    t.counter.corrected = true ∧ (t.rawCount s).1 < 2 ^ 46 ∧ (t.rawCount s).1 = 50 * 1 ∧ (t.count s).1 = 59 * 1 := by
  intro t s
  have hraw : (t.rawCount s).1 = 50 := by simp [t, s, Tally.new, Tally.rawCount, TokenCounter.rawCount]
  have hsmall : (t.rawCount s).1 < 2 ^ 46 := by rw [hraw]; decide
  exact ⟨rfl, hsmall, hraw, (corrected_counts_are_exact t s rfl hsmall).2.2 1 hraw⟩

end PromptPack.Correction
