import Mathlib.Algebra.Order.Field.Basic
import Mathlib.Algebra.Order.Field.Rat
import Mathlib.Algebra.Order.Ring.Abs
import Mathlib.Data.Nat.Log
import Mathlib.Tactic.FieldSimp
import Mathlib.Tactic.Linarith
import Mathlib.Tactic.Positivity
import Mathlib.Tactic.Ring
import ProtoBindings.Number.Real

namespace ProtoBindings.Number

section Quotient

variable {n d : Nat}

theorem roundQuotient_near (pos : 0 < d) : |(roundQuotient n d : ℚ) - n / d| ≤ 1 / 2 := by
  have positive : (0 : ℚ) < d := by exact_mod_cast pos
  have whole : ((d * (n / d) + n % d : ℕ) : ℚ) = n := by rw [Nat.div_add_mod]
  have below : ((n % d : ℕ) : ℚ) < d := by exact_mod_cast Nat.mod_lt n pos
  have split : (n : ℚ) / d = (n / d : ℕ) + (n % d : ℕ) / d := by
    rw [← whole]
    push_cast
    field_simp
  rw [roundQuotient, split, abs_le]
  split
  · rename_i up
    have half : (d : ℚ) ≤ 2 * (n % d : ℕ) := by
      exact_mod_cast up.elim Nat.le_of_lt fun tie => tie.1.le
    have share : 1 / 2 ≤ ((n % d : ℕ) : ℚ) / d := by
      rw [div_le_div_iff₀ two_pos positive]
      linarith
    have most : ((n % d : ℕ) : ℚ) / d ≤ 1 := (div_le_one positive).mpr below.le
    push_cast
    constructor <;> linarith
  · rename_i down
    have half : 2 * ((n % d : ℕ) : ℚ) ≤ d := by
      rw [not_or, not_lt] at down
      exact_mod_cast down.1
    have share : ((n % d : ℕ) : ℚ) / d ≤ 1 / 2 := by
      rw [div_le_div_iff₀ positive two_pos]
      linarith
    have least : 0 ≤ ((n % d : ℕ) : ℚ) / d := div_nonneg (Nat.cast_nonneg _) positive.le
    constructor <;> linarith

/-- No whole number is nearer to a number than one that is no more than a half away. -/
theorem near_best {q : ℤ} {x : ℚ} (near : |(q : ℚ) - x| ≤ 1 / 2) (k : ℤ) :
    |(q : ℚ) - x| ≤ |(k : ℚ) - x| := by
  rcases eq_or_ne k q with rfl | other
  · exact le_rfl
  · have apart : (1 : ℚ) ≤ |(k : ℚ) - q| := by exact_mod_cast Int.one_le_abs (sub_ne_zero.mpr other)
    have around := abs_sub_le (k : ℚ) x q
    rw [abs_sub_comm x] at around
    linarith

theorem eq_of_near {a b : ℕ} (near : |(a : ℚ) - b| < 1) : a = b := by
  have same : |(a : ℤ) - b| < 1 := by exact_mod_cast near
  exact_mod_cast sub_eq_zero.mp (Int.abs_lt_one_iff.mp same)

theorem roundQuotient_eq {q : ℕ} (pos : 0 < d) (near : |(q : ℚ) - n / d| < 1 / 2) :
    roundQuotient n d = q := by
  have rounded := roundQuotient_near (n := n) pos
  have around := abs_sub_le (roundQuotient n d : ℚ) (n / d) q
  rw [abs_sub_comm (n / d : ℚ) q] at around
  exact eq_of_near (by linarith)

theorem roundQuotient_mul_right {k : ℕ} (pos : 0 < k) :
    roundQuotient (n * k) (d * k) = roundQuotient n d := by
  have more : d * k < 2 * (n % d * k) ↔ d < 2 * (n % d) := by
    rw [← Nat.mul_assoc, Nat.mul_lt_mul_right pos]
  have tie : d * k = 2 * (n % d * k) ↔ d = 2 * (n % d) := by
    rw [← Nat.mul_assoc, Nat.mul_left_inj pos.ne']
  rw [roundQuotient, roundQuotient, Nat.mul_div_mul_right _ _ pos, Nat.mul_mod_mul_right]
  simp only [more, tie]

end Quotient

/-- The number that a ratio is. -/
def Ratio.toRat (r : Ratio) : ℚ := r.numerator / r.denominator

namespace Format

variable {f : Format} {m E S : ℕ} {r : Ratio}

/-- What a magnitude counts, as a number. -/
def number (f : Format) (m : ℕ) : ℚ := (f.value m).numerator / (f.value m).denominator

/-- A magnitude as an exponent and a significand. That of the least exponent may lack its leading bit, and
    any may be one too large, which makes it the least of the next exponent. -/
structure Parts (f : Format) (m E S : ℕ) : Prop where
  whole : m = (E - 1) * f.step + S
  exponent : 1 ≤ E
  least : E = 1 ∨ f.step ≤ S
  most : S ≤ 2 * f.step

theorem step_pos (f : Format) : 0 < f.step := Nat.two_pow_pos _

theorem double_step : double.step = 2 ^ 52 := rfl

theorem double_infinity : double.infinity = 2047 * 2 ^ 52 := rfl

theorem double_signBit : double.signBit = 2 ^ 63 := rfl

theorem double_scale : double.scale = 1075 := rfl

theorem infinity_lt_signBit : double.infinity < double.signBit := by
  rw [double_infinity, double_signBit]
  decide

theorem single_step : single.step = 2 ^ 23 := rfl

theorem single_infinity : single.infinity = 255 * 2 ^ 23 := rfl

theorem single_signBit : single.signBit = 2 ^ 31 := rfl

theorem exists_parts (f : Format) (m : ℕ) : ∃ E S, f.Parts m E S ∧ S < 2 * f.step := by
  have pos := f.step_pos
  have small := Nat.mod_lt m pos
  have split := Nat.div_add_mod m f.step
  rcases Nat.eq_zero_or_pos (m / f.step) with zero | positive
  · rw [zero] at split
    exact ⟨1, m, ⟨by simp, le_rfl, .inl rfl, by omega⟩, by omega⟩
  · refine ⟨m / f.step, f.step + m % f.step, ⟨?_, positive, .inr (by omega), by omega⟩, by omega⟩
    rw [← Nat.add_assoc, ← Nat.succ_mul, Nat.succ_eq_add_one, Nat.sub_add_cancel positive, Nat.mul_comm, split]

theorem value_low {t : ℕ} (small : t < f.step) : f.value t = ⟨t * 2, 2 ^ f.scale⟩ := by
  rw [value, Nat.div_eq_of_lt small]
  rfl

theorem value_high {t : ℕ} (small : t < f.step) :
    f.value (E * f.step + f.step + t) = ⟨(f.step + t) * 2 ^ (E + 1), 2 ^ f.scale⟩ := by
  have regroup : E * f.step + f.step + t = f.step * (E + 1) + t := by ring
  have quotient : (f.step * (E + 1) + t) / f.step = E + 1 := by
    rw [Nat.mul_add_div f.step_pos, Nat.div_eq_of_lt small, Nat.add_zero]
  rw [value, regroup, quotient, Nat.mul_add_mod, Nat.mod_eq_of_lt small, if_neg (Nat.succ_ne_zero E),
    max_eq_left (Nat.le_add_left 1 E)]
  rfl

theorem Parts.number (parts : f.Parts m E S) : f.number m = S * 2 ^ E / 2 ^ f.scale := by
  obtain ⟨rfl, exponent, least, most⟩ := parts
  obtain ⟨E, rfl⟩ := Nat.exists_eq_add_of_le' exponent
  rw [Format.number, Nat.add_sub_cancel]
  rcases Nat.lt_or_ge S f.step with low | high
  · obtain rfl : E = 0 := by omega
    rw [Nat.zero_mul, Nat.zero_add, value_low low]
    push_cast
    ring
  rcases Nat.lt_or_ge S (2 * f.step) with small | large
  · obtain ⟨t, rfl⟩ := Nat.exists_eq_add_of_le high
    rw [← Nat.add_assoc, value_high (by omega)]
    push_cast
    ring
  · obtain rfl : S = 2 * f.step := by omega
    have next : E * f.step + 2 * f.step = (E + 1) * f.step + f.step + 0 := by ring
    rw [next, value_high f.step_pos]
    push_cast
    ring

/-- The exponent that a positive number gets: the least one, or that of its leading bit. -/
def exponentOf (f : Format) (r : Ratio) : ℕ :=
  max 1 ((r.numerator * 2 ^ f.scale / r.denominator).log2 + 1 - f.precision)

def significandOf (f : Format) (r : Ratio) : ℕ :=
  roundQuotient (r.numerator * 2 ^ f.scale) (r.denominator * 2 ^ f.exponentOf r)

/-- What a number is rounded to where no magnitude is too large. -/
def rounded (f : Format) (r : Ratio) : ℕ := (f.exponentOf r - 1) * f.step + f.significandOf r

theorem nearest_eq (f : Format) (r : Ratio) : f.nearest r = min f.infinity (f.rounded r) := rfl

theorem nearest_eq_rounded (finite : f.nearest r < f.infinity) : f.nearest r = f.rounded r := by
  rw [nearest_eq] at finite ⊢
  omega

/-- What a number gets for its significand before that is rounded. -/
def exactSignificand (f : Format) (r : Ratio) : ℚ := r.toRat * 2 ^ f.scale / 2 ^ f.exponentOf r

theorem significandOf_near (pos : 0 < r.denominator) :
    |(f.significandOf r : ℚ) - f.exactSignificand r| ≤ 1 / 2 := by
  have near := roundQuotient_near (n := r.numerator * 2 ^ f.scale)
    (Nat.mul_pos pos (Nat.two_pow_pos (f.exponentOf r)))
  have same : f.exactSignificand r = (r.numerator * 2 ^ f.scale : ℕ) /
      (r.denominator * 2 ^ f.exponentOf r : ℕ) := by
    rw [exactSignificand, Ratio.toRat]
    push_cast
    rw [div_mul_eq_mul_div, div_div]
  rw [same]
  exact near

theorem two_step (regular : 0 < f.precision) : 2 * f.step = 2 ^ f.precision := by
  obtain ⟨p, same⟩ := Nat.exists_eq_add_of_le' regular
  rw [step, same, Nat.add_sub_cancel, Nat.pow_eq, ← Nat.pow_succ']

theorem exactSignificand_lt (regular : 0 < f.precision) (pos : 0 < r.denominator) :
    f.exactSignificand r < 2 * f.step := by
  have most : r.numerator * 2 ^ f.scale / r.denominator < 2 ^ (f.exponentOf r + f.precision) := by
    refine Nat.lt_of_lt_of_le Nat.lt_log2_self (Nat.pow_le_pow_right two_pos ?_)
    have := le_max_right 1 ((r.numerator * 2 ^ f.scale / r.denominator).log2 + 1 - f.precision)
    rw [exponentOf]
    omega
  rw [Nat.div_lt_iff_lt_mul pos] at most
  have most : (r.numerator : ℚ) * 2 ^ f.scale < 2 ^ (f.exponentOf r + f.precision) * r.denominator := by
    exact_mod_cast most
  have twice : 2 * (f.step : ℚ) = 2 ^ f.precision := by exact_mod_cast two_step regular
  have positive : (0 : ℚ) < r.denominator := by exact_mod_cast pos
  rw [exactSignificand, Ratio.toRat, twice, div_mul_eq_mul_div, div_div, div_lt_iff₀ (by positivity)]
  calc (r.numerator : ℚ) * 2 ^ f.scale < 2 ^ (f.exponentOf r + f.precision) * r.denominator := most
    _ = 2 ^ f.precision * (r.denominator * 2 ^ f.exponentOf r) := by ring

theorem step_le_exactSignificand (regular : 0 < f.precision) (pos : 0 < r.denominator)
    (large : f.exponentOf r ≠ 1) : f.step ≤ f.exactSignificand r := by
  have leading : (r.numerator * 2 ^ f.scale / r.denominator).log2 =
      f.exponentOf r + (f.precision - 1) := by
    rw [exponentOf] at large ⊢
    omega
  have nonzero : r.numerator * 2 ^ f.scale / r.denominator ≠ 0 := by
    intro zero
    have positive : 1 ≤ f.exponentOf r := le_max_left _ _
    rw [zero, Nat.log2_zero] at leading
    omega
  have least := Nat.log2_self_le nonzero
  rw [leading, Nat.le_div_iff_mul_le pos] at least
  have least : 2 ^ (f.exponentOf r + (f.precision - 1)) * (r.denominator : ℚ) ≤
      r.numerator * 2 ^ f.scale := by exact_mod_cast least
  have power : (f.step : ℚ) = 2 ^ (f.precision - 1) := by rw [step]; push_cast [Nat.pow_eq]; rfl
  have positive : (0 : ℚ) < r.denominator := by exact_mod_cast pos
  rw [exactSignificand, Ratio.toRat, power, div_mul_eq_mul_div, div_div, le_div_iff₀ (by positivity)]
  calc (2 : ℚ) ^ (f.precision - 1) * (r.denominator * 2 ^ f.exponentOf r)
      = 2 ^ (f.exponentOf r + (f.precision - 1)) * r.denominator := by ring
    _ ≤ r.numerator * 2 ^ f.scale := least

theorem parts_of_ratio (regular : 0 < f.precision) (pos : 0 < r.denominator) :
    f.Parts (f.rounded r) (f.exponentOf r) (f.significandOf r) := by
  have near := abs_le.mp (significandOf_near (f := f) pos)
  have small := exactSignificand_lt regular pos
  refine ⟨rfl, le_max_left _ _, ?_, ?_⟩
  · refine or_iff_not_imp_left.mpr fun large => ?_
    have least := step_le_exactSignificand regular pos large
    have above : (f.step : ℚ) < f.significandOf r + 1 := by linarith
    have above : f.step < f.significandOf r + 1 := by exact_mod_cast above
    omega
  · have below : (f.significandOf r : ℚ) < 2 * f.step + 1 := by linarith
    have below : f.significandOf r < 2 * f.step + 1 := by exact_mod_cast below
    omega

theorem exactSignificand_mul (f : Format) (r : Ratio) :
    f.exactSignificand r * (2 ^ f.exponentOf r / 2 ^ f.scale) = r.toRat := by
  rw [exactSignificand]
  field_simp

theorem number_rounded (regular : 0 < f.precision) (pos : 0 < r.denominator) :
    f.number (f.rounded r) = f.significandOf r * (2 ^ f.exponentOf r / 2 ^ f.scale) := by
  rw [(parts_of_ratio regular pos).number, mul_div_assoc]

/-- Rounding moves a number by half a unit of the last place at most. -/
theorem nearest_near (regular : 0 < f.precision) (pos : 0 < r.denominator)
    (finite : f.nearest r < f.infinity) :
    |f.number (f.nearest r) - r.toRat| ≤ 1 / 2 * (2 ^ f.exponentOf r / 2 ^ f.scale) := by
  have unit : (0 : ℚ) ≤ 2 ^ f.exponentOf r / 2 ^ f.scale := by positivity
  rw [nearest_eq_rounded finite, number_rounded regular pos, ← exactSignificand_mul, ← sub_mul, abs_mul,
    abs_of_nonneg unit]
  exact mul_le_mul_of_nonneg_right (significandOf_near pos) unit

/-- No magnitude of the format is nearer to a number than the one that it is rounded to. -/
theorem rounded_best (regular : 0 < f.precision) (pos : 0 < r.denominator) (m : ℕ) :
    |f.number (f.rounded r) - r.toRat| ≤ |f.number m - r.toRat| := by
  obtain ⟨E, S, parts, small⟩ := f.exists_parts m
  have unit : (0 : ℚ) ≤ 2 ^ f.exponentOf r / 2 ^ f.scale := by positivity
  have best := near_best (q := f.significandOf r) (significandOf_near (f := f) pos)
  rw [number_rounded regular pos, ← exactSignificand_mul, ← sub_mul, abs_mul, abs_of_nonneg unit]
  rcases Nat.lt_or_ge E (f.exponentOf r) with short | long
  · obtain ⟨k, shorter⟩ := Nat.exists_eq_add_of_lt short
    have large := step_le_exactSignificand regular pos (by have := parts.exponent; omega)
    have same : f.number m = (S / 2 ^ (k + 1) : ℚ) * (2 ^ f.exponentOf r / 2 ^ f.scale) := by
      rw [parts.number, shorter]
      field_simp
      ring
    have below : (S / 2 ^ (k + 1) : ℚ) ≤ f.step := by
      have small : (S : ℚ) < 2 * f.step := by exact_mod_cast small
      have power : (1 : ℚ) ≤ 2 ^ k := one_le_pow₀ one_le_two
      rw [div_le_iff₀ (by positivity), pow_succ]
      nlinarith
    have toStep : |(f.significandOf r : ℚ) - f.exactSignificand r| ≤ |f.step - f.exactSignificand r| :=
      mod_cast best f.step
    rw [same, ← sub_mul, abs_mul, abs_of_nonneg unit]
    refine mul_le_mul_of_nonneg_right (toStep.trans ?_) unit
    rw [abs_of_nonpos (sub_nonpos.mpr large), abs_of_nonpos (sub_nonpos.mpr (below.trans large))]
    linarith
  · obtain ⟨k, rfl⟩ := Nat.exists_eq_add_of_le long
    have same : f.number m = (S * 2 ^ k : ℕ) * (2 ^ f.exponentOf r / 2 ^ f.scale) := by
      rw [parts.number]
      push_cast
      ring
    rw [same, ← sub_mul, abs_mul, abs_of_nonneg unit]
    exact mul_le_mul_of_nonneg_right (mod_cast best (S * 2 ^ k : ℕ)) unit

/-- What a magnitude counts is rounded to that magnitude. -/
theorem nearest_exact (regular : 0 < f.precision) (pos : 0 < r.denominator) (m : ℕ)
    (finite : m ≤ f.infinity) (same : f.number m = r.toRat) : f.nearest r = m := by
  obtain ⟨E, S, parts, small⟩ := f.exists_parts m
  have whole : f.exactSignificand r * 2 ^ f.exponentOf r = S * 2 ^ E := by
    have scaled : (2 : ℚ) ^ f.scale ≠ 0 := by positivity
    have numbers := (exactSignificand_mul f r).trans (same.symm.trans parts.number)
    rw [← mul_div_assoc] at numbers
    exact (div_left_inj' scaled).mp numbers
  have narrow := exactSignificand_lt (f := f) regular pos
  have small : (S : ℚ) < 2 * f.step := by exact_mod_cast small
  have exponents : f.exponentOf r = E := by
    have positive : 1 ≤ f.exponentOf r := le_max_left _ _
    have power (k : ℕ) : (1 : ℚ) ≤ 2 ^ k := one_le_pow₀ one_le_two
    rcases Nat.lt_trichotomy (f.exponentOf r) E with short | same | long
    · obtain ⟨k, longer⟩ := Nat.exists_eq_add_of_lt short
      have least : (f.step : ℚ) ≤ S := by exact_mod_cast parts.least.resolve_left (by omega)
      have significand : f.exactSignificand r = S * (2 ^ k * 2) := by
        have scale : (2 : ℚ) ^ f.exponentOf r ≠ 0 := by positivity
        refine mul_right_cancel₀ scale (whole.trans ?_)
        rw [longer]
        ring
      have := power k
      nlinarith
    · exact same
    · obtain ⟨k, longer⟩ := Nat.exists_eq_add_of_lt long
      have large := step_le_exactSignificand (f := f) regular pos (by have := parts.exponent; omega)
      have significand : f.exactSignificand r * (2 ^ k * 2) = S := by
        have scale : (2 : ℚ) ^ E ≠ 0 := by positivity
        refine mul_right_cancel₀ scale (Eq.trans ?_ whole)
        rw [longer]
        ring
      have := power k
      nlinarith
  have significands : f.significandOf r = S := by
    have scale : (2 : ℚ) ^ E ≠ 0 := by positivity
    rw [exponents] at whole
    have near := significandOf_near (f := f) pos
    rw [mul_right_cancel₀ scale whole] at near
    exact eq_of_near (near.trans_lt (by norm_num))
  rw [nearest_eq, rounded, exponents, significands, ← parts.whole, min_eq_right finite]

theorem nearest_mul_right (f : Format) {n d k : ℕ} (pos : 0 < k) :
    f.nearest ⟨n * k, d * k⟩ = f.nearest ⟨n, d⟩ := by
  have exponents : f.exponentOf ⟨n * k, d * k⟩ = f.exponentOf ⟨n, d⟩ := by
    rw [exponentOf, exponentOf, Nat.mul_right_comm n, Nat.mul_div_mul_right _ _ pos]
  have significands : f.significandOf ⟨n * k, d * k⟩ = f.significandOf ⟨n, d⟩ := by
    rw [significandOf, significandOf, exponents, Nat.mul_right_comm n, Nat.mul_right_comm d,
      roundQuotient_mul_right pos]
  rw [nearest_eq, nearest_eq, rounded, rounded, exponents, significands]

/-- Ratios of one value are rounded alike. -/
theorem nearest_congr (f : Format) {r r' : Ratio} (pos : 0 < r.denominator) (pos' : 0 < r'.denominator)
    (same : r.numerator * r'.denominator = r'.numerator * r.denominator) : f.nearest r = f.nearest r' := by
  rw [← f.nearest_mul_right (n := r.numerator) (d := r.denominator) pos', same,
    Nat.mul_comm r.denominator, f.nearest_mul_right pos]

theorem value_denominator (f : Format) (m : ℕ) : 0 < (f.value m).denominator := Nat.two_pow_pos _

theorem nearest_value (regular : 0 < f.precision) {m : ℕ} (finite : m ≤ f.infinity) :
    f.nearest (f.value m) = m :=
  nearest_exact regular (value_denominator f m) m finite rfl

theorem number_zero (f : Format) : f.number 0 = 0 := by
  have parts : f.Parts 0 1 0 := ⟨by simp, le_rfl, .inl rfl, Nat.zero_le _⟩
  rw [parts.number, Nat.cast_zero, zero_mul, zero_div]

theorem number_mono (f : Format) {m n : ℕ} (order : m ≤ n) : f.number m ≤ f.number n := by
  obtain ⟨E, S, parts, small⟩ := f.exists_parts m
  obtain ⟨E', S', parts', small'⟩ := f.exists_parts n
  have scale : (0 : ℚ) < 2 ^ f.scale := by positivity
  rw [parts.number, parts'.number, div_le_div_iff_of_pos_right scale]
  have whole := parts.whole
  have whole' := parts'.whole
  have positive := parts.exponent
  have positive' := parts'.exponent
  rcases Nat.lt_trichotomy E E' with less | rfl | more
  · have large : f.step ≤ S' := parts'.least.resolve_left (by omega)
    have next : 2 ^ (E + 1) ≤ 2 ^ E' := Nat.pow_le_pow_right two_pos less
    have product : S * 2 ^ E ≤ S' * 2 ^ E' := by
      calc S * 2 ^ E ≤ 2 * f.step * 2 ^ E := Nat.mul_le_mul_right _ small.le
        _ = f.step * 2 ^ (E + 1) := by ring
        _ ≤ S' * 2 ^ E' := Nat.mul_le_mul large next
    exact_mod_cast product
  · have less : S ≤ S' := by omega
    exact_mod_cast Nat.mul_le_mul_right (2 ^ E) less
  · exfalso
    have large : f.step ≤ S := parts.least.resolve_left (by omega)
    have below : E' * f.step ≤ (E - 1) * f.step := Nat.mul_le_mul_right _ (by omega)
    have split : E' * f.step = (E' - 1) * f.step + f.step := by
      rw [← Nat.succ_mul, Nat.succ_eq_add_one, Nat.sub_add_cancel positive']
    omega

theorem number_pos (f : Format) {m : ℕ} (nonzero : 0 < m) : 0 < f.number m := by
  obtain ⟨E, S, parts, -⟩ := f.exists_parts m
  have significand : 0 < S := by
    rcases parts.least with rfl | large
    · have whole := parts.whole
      omega
    · exact f.step_pos.trans_le large
  rw [parts.number]
  positivity

/-- The next magnitude is away by a share of what it counts. -/
theorem number_succ_le (f : Format) (m : ℕ) :
    f.number (m + 1) ≤ 2 * f.step * (f.number (m + 1) - f.number m) := by
  obtain ⟨E, S, parts, small⟩ := f.exists_parts m
  have next : f.Parts (m + 1) E (S + 1) :=
    ⟨by rw [parts.whole, Nat.add_assoc], parts.exponent, parts.least.imp_right Nat.le_succ_of_le, small⟩
  have most : (S : ℚ) + 1 ≤ 2 * f.step := by exact_mod_cast small
  have unit : (0 : ℚ) ≤ 2 ^ E / 2 ^ f.scale := by positivity
  have apart : f.number (m + 1) - f.number m = 2 ^ E / 2 ^ f.scale := by
    rw [next.number, parts.number]
    push_cast
    ring
  rw [apart, next.number, mul_div_assoc]
  push_cast
  exact mul_le_mul_of_nonneg_right most unit

/-- Other magnitudes are away from one by a share of what it counts. -/
theorem number_le_apart (f : Format) {m n : ℕ} (other : n ≠ m) :
    f.number m ≤ 2 * f.step * |f.number n - f.number m| := by
  have positive : (0 : ℚ) ≤ 2 * f.step := by positivity
  rcases Nat.lt_or_gt_of_ne other with less | more
  · obtain ⟨k, rfl⟩ := Nat.exists_eq_add_of_lt less
    have order := f.number_mono (Nat.le_add_right n k)
    have apart : f.number (n + k + 1) - f.number (n + k) ≤ |f.number n - f.number (n + k + 1)| := by
      rw [abs_sub_comm]
      exact (sub_le_sub_left order _).trans (le_abs_self _)
    exact (f.number_succ_le _).trans (mul_le_mul_of_nonneg_left apart positive)
  · have order := f.number_mono (Nat.succ_le_of_lt more)
    have next := f.number_mono (Nat.le_succ m)
    have apart : f.number (m + 1) - f.number m ≤ |f.number n - f.number m| :=
      (sub_le_sub_right order _).trans (le_abs_self _)
    exact next.trans ((f.number_succ_le m).trans (mul_le_mul_of_nonneg_left apart positive))

/-- What is close enough to what a magnitude counts is rounded to that magnitude. -/
theorem nearest_of_close (regular : 0 < f.precision) (pos : 0 < r.denominator) {m : ℕ}
    (finite : m ≤ f.infinity) (close : 4 * f.step * |f.number m - r.toRat| < f.number m) :
    f.nearest r = m := by
  have best := rounded_best (f := f) regular pos m
  have around := abs_sub_le (f.number (f.rounded r)) r.toRat (f.number m)
  rw [abs_sub_comm r.toRat] at around
  have step : (0 : ℚ) < f.step := by exact_mod_cast f.step_pos
  have same : f.rounded r = m := by
    by_contra other
    have apart := f.number_le_apart other
    have most : 2 * f.step * |f.number (f.rounded r) - f.number m| ≤
        2 * f.step * (2 * |f.number m - r.toRat|) :=
      mul_le_mul_of_nonneg_left (by linarith) (by positivity)
    linarith
  rw [nearest_eq, same, min_eq_right finite]

/-- The order of magnitudes is that of the numbers that they count. -/
theorem le_of_number (regular : 0 < f.precision) {m n : ℕ} (finite : m ≤ f.infinity)
    (finite' : n ≤ f.infinity) (order : f.number m ≤ f.number n) : m ≤ n := by
  by_contra less
  have same : f.number n = f.number m := le_antisymm (f.number_mono (Nat.le_of_not_le less)) order
  have first := nearest_exact regular (value_denominator f m) n finite' same
  rw [nearest_value regular finite] at first
  omega

/-- Each finite magnitude of single precision is one of double precision. -/
theorem exists_double {m : ℕ} (finite : m < single.infinity) :
    ∃ m' < double.infinity, double.number m' = single.number m := by
  obtain ⟨E, S, parts, small⟩ := single.exists_parts m
  have singleStep := single_step
  have doubleStep := double_step
  have top := double_infinity
  have exponent : E < 255 := by
    have whole := parts.whole
    have least := parts.least
    have singleTop := single_infinity
    rw [singleStep] at whole least
    omega
  rcases Nat.eq_zero_or_pos S with rfl | positive
  · exact ⟨0, by omega, by rw [number_zero, parts.number, Nat.cast_zero, zero_mul, zero_div]⟩
  -- The significand is moved up until its leading bit is where that of a double is.
  · have least := Nat.log2_self_le (Nat.pos_iff_ne_zero.mp positive)
    have most : S < 2 ^ (S.log2 + 1) := Nat.lt_log2_self
    have short : S.log2 ≤ 23 := by
      have := (Nat.pow_lt_pow_iff_right (a := 2) (by decide)).mp
        (least.trans_lt (by rw [singleStep, ← Nat.pow_succ'] at small; exact small))
      omega
    obtain ⟨k, shift⟩ : ∃ k, S.log2 + k = 52 := ⟨52 - S.log2, by omega⟩
    have low : 2 ^ 52 ≤ S * 2 ^ k := by
      rw [← shift, Nat.pow_add]
      exact Nat.mul_le_mul_right _ least
    have high : S * 2 ^ k < 2 * 2 ^ 52 := by
      have := Nat.mul_lt_mul_of_pos_right most (Nat.two_pow_pos k)
      rw [← Nat.pow_add, show S.log2 + 1 + k = 53 by omega] at this
      exact this
    have moved : double.Parts ((E + 925 - k - 1) * double.step + S * 2 ^ k) (E + 925 - k) (S * 2 ^ k) :=
      ⟨rfl, by have := parts.exponent; omega, .inr (by omega), by omega⟩
    refine ⟨_, ?_, moved.number.trans ?_⟩
    · rw [doubleStep, top]
      omega
    · have exponents : (2 : ℚ) ^ k * 2 ^ (E + 925 - k) = 2 ^ E * 2 ^ 925 := by
        rw [← pow_add, ← pow_add]
        congr 1
        omega
      have scales : (2 : ℚ) ^ double.scale = 2 ^ single.scale * 2 ^ 925 := by
        rw [← pow_add]
        rfl
      rw [parts.number, scales]
      push_cast
      rw [mul_assoc, exponents]
      field_simp

section Conversion

variable {bits t i : ℕ} {negative : Bool}

theorem isNegative_withSign (small : m < f.signBit) : f.isNegative (f.withSign negative m) = negative := by
  cases negative
  · exact decide_eq_false (Nat.not_le.mpr small)
  · exact decide_eq_true (Nat.le_add_right _ _)

theorem magnitude_withSign (small : m < f.signBit) : f.magnitude (f.withSign negative m) = m := by
  cases negative
  · exact Nat.mod_eq_of_lt small
  · exact (Nat.add_mod_left _ _).trans (Nat.mod_eq_of_lt small)

theorem withSign_magnitude (fits : bits < 2 * f.signBit) :
    f.withSign (f.isNegative bits) (f.magnitude bits) = bits := by
  rw [isNegative, magnitude]
  rcases Nat.lt_or_ge bits f.signBit with positive | negative
  · rw [decide_eq_false (Nat.not_le.mpr positive), Nat.mod_eq_of_lt positive]
    rfl
  · rw [decide_eq_true negative, Nat.mod_eq_sub_mod negative, Nat.mod_eq_of_lt (by omega)]
    exact Nat.add_sub_cancel' negative

/-- A bit that is set already changes nothing. -/
theorem or_leading (least : 2 ^ i ≤ t) (most : t < 2 * 2 ^ i) : t ||| 2 ^ i = t := by
  obtain ⟨low, rfl⟩ := Nat.exists_eq_add_of_le least
  have split := Nat.two_pow_add_eq_or_of_lt (show low < 2 ^ i by omega) 1
  rw [Nat.mul_one] at split
  rw [split, Nat.or_comm, ← Nat.or_assoc, Nat.or_self]

/-- A pattern of single precision that is no signalling NaN. -/
structure IsQuiet (bits : ℕ) : Prop where
  fits : bits < 2 * single.signBit
  quiet : single.isNaN bits = true → single.infinity + 2 ^ 22 ≤ single.magnitude bits

theorem isNaN_iff : f.isNaN bits = true ↔ f.infinity < f.magnitude bits := decide_eq_true_iff

theorem convert_finite {s : Format} (ordinary : s.magnitude bits < s.infinity) :
    s.convert f bits = f.withSign (s.isNegative bits) (f.nearest (s.value (s.magnitude bits))) := by
  have number : s.isNaN bits = false := decide_eq_false (by omega)
  have finite : s.isInfinite bits = false := beq_eq_false_iff_ne.mpr ordinary.ne
  rw [convert, number, finite]
  rfl

theorem convert_infinite {s : Format} (infinite : s.magnitude bits = s.infinity) :
    s.convert f bits = f.withSign (s.isNegative bits) f.infinity := by
  have number : s.isNaN bits = false := decide_eq_false (by omega)
  have isInfinite : s.isInfinite bits = true := beq_iff_eq.mpr infinite
  rw [convert, number, isInfinite]
  rfl

theorem convert_nan {s : Format} (nan : s.infinity < s.magnitude bits) :
    s.convert f bits = f.withSign (s.isNegative bits)
      (f.infinity + (s.magnitude bits % s.step * f.step / s.step ||| f.step / 2)) := by
  have isNaN : s.isNaN bits = true := decide_eq_true nan
  rw [convert, isNaN]
  rfl

/-- Double precision holds what single precision does. -/
theorem convert_convert (isQuiet : IsQuiet bits) :
    double.convert single (single.convert double bits) = bits := by
  have infinity := infinity_lt_signBit
  refine Eq.trans ?_ (withSign_magnitude isQuiet.fits)
  rcases Nat.lt_trichotomy (single.magnitude bits) single.infinity with ordinary | infinite | nan
  · obtain ⟨m, finite, same⟩ := exists_double ordinary
    have there : double.nearest (single.value (single.magnitude bits)) = m :=
      nearest_exact (by decide) (value_denominator _ _) m finite.le same
    have back : single.nearest (double.value m) = single.magnitude bits :=
      nearest_exact (by decide) (value_denominator _ _) _ ordinary.le same.symm
    have small : m < double.signBit := finite.trans infinity
    rw [convert_finite ordinary, there, convert_finite (by rwa [magnitude_withSign small]),
      magnitude_withSign small, isNegative_withSign small, back]
  · rw [convert_infinite infinite, convert_infinite (magnitude_withSign infinity),
      isNegative_withSign infinity, infinite]
  · obtain ⟨payload, parts⟩ : ∃ payload, single.magnitude bits = single.infinity + payload :=
      Nat.exists_eq_add_of_le nan.le
    have split := parts
    have quiet := isQuiet.quiet (decide_eq_true nan)
    have bound : single.magnitude bits < single.signBit := Nat.mod_lt _ (by decide)
    rw [single_infinity] at split quiet
    rw [single_signBit] at bound
    have top := double_infinity
    have sign := double_signBit
    have moved : single.magnitude bits % 2 ^ 23 * 2 ^ 52 / 2 ^ 23 = payload * 2 ^ 29 := by omega
    have there := or_leading (t := payload * 2 ^ 29) (i := 51) (by omega) (by omega)
    have back := or_leading (t := payload) (i := 22) (by omega) (by omega)
    have small : double.infinity + payload * 2 ^ 29 < double.signBit := by omega
    have low : (double.infinity + payload * 2 ^ 29) % double.step = payload * 2 ^ 29 := by
      rw [double_infinity, double_step, Nat.add_comm, Nat.add_mul_mod_self_right,
        Nat.mod_eq_of_lt (by omega)]
    have restored : payload * 2 ^ 29 * 2 ^ 23 / 2 ^ 52 = payload := by
      rw [Nat.mul_assoc, ← Nat.pow_add]
      exact Nat.mul_div_cancel _ (Nat.two_pow_pos 52)
    have carried : double.infinity + (single.magnitude bits % single.step * double.step / single.step |||
        double.step / 2) = double.infinity + payload * 2 ^ 29 := by
      rw [single_step, double_step, moved, show 2 ^ 52 / 2 = 2 ^ 51 by norm_num, there]
    rw [convert_nan nan, carried,
      convert_nan (by rw [magnitude_withSign small]; omega), magnitude_withSign small,
      isNegative_withSign small, low, single_step, double_step, restored,
      show 2 ^ 23 / 2 = 2 ^ 22 by norm_num, back, parts]

theorem nearest_le (f : Format) (r : Ratio) : f.nearest r ≤ f.infinity := min_le_left _ _

theorem isQuiet_withSign {payload : ℕ} (most : payload < 2 ^ 23) (quiet : payload = 0 ∨ 2 ^ 22 ≤ payload) :
    IsQuiet (single.withSign negative (single.infinity + payload)) := by
  have sign := single_signBit
  have top := single_infinity
  have small : single.infinity + payload < single.signBit := by omega
  refine ⟨by rw [withSign]; split <;> omega, fun isNaN => ?_⟩
  rw [isNaN_iff, magnitude_withSign small] at isNaN
  rw [magnitude_withSign small]
  omega

theorem quiet_payload (most : t < 2 ^ 23) : t ||| 2 ^ 22 < 2 ^ 23 ∧ 2 ^ 22 ≤ t ||| 2 ^ 22 :=
  ⟨Nat.or_lt_two_pow most (by decide), Nat.right_le_or⟩

/-- What is converted to single precision is quiet. -/
theorem isQuiet_convert (bits : ℕ) : IsQuiet (double.convert single bits) := by
  have sign := single_signBit
  have top := single_infinity
  rcases Nat.lt_trichotomy (double.magnitude bits) double.infinity with ordinary | infinite | nan
  · rw [convert_finite ordinary]
    have most := nearest_le single (double.value (double.magnitude bits))
    have small := most.trans_lt (show single.infinity < single.signBit by omega)
    refine ⟨by rw [withSign]; split <;> omega, fun isNaN => ?_⟩
    rw [isNaN_iff, magnitude_withSign small] at isNaN
    omega
  · rw [convert_infinite infinite]
    exact isQuiet_withSign (by decide) (Or.inl (Eq.refl 0))
  · have short : double.magnitude bits % double.step * single.step / double.step < 2 ^ 23 := by
      rw [Nat.div_lt_iff_lt_mul double.step_pos, Nat.mul_comm]
      exact Nat.mul_lt_mul_of_pos_left (Nat.mod_lt _ double.step_pos) (by decide)
    obtain ⟨most, least⟩ := quiet_payload short
    rw [convert_nan nan]
    exact isQuiet_withSign most (.inr least)

theorem widened (payload : ℕ) : payload * double.step / single.step = payload <<< 29 := by
  have steps : double.step = 2 ^ 29 * single.step := rfl
  rw [steps, ← Nat.mul_assoc, Nat.mul_div_cancel _ single.step_pos, Nat.shiftLeft_eq]

/-- A signalling NaN is converted like a quiet one. -/
theorem exists_quiet (fits : bits < 2 * single.signBit) :
    ∃ quiet, IsQuiet quiet ∧ single.convert double quiet = single.convert double bits := by
  rcases Nat.lt_or_ge single.infinity (single.magnitude bits) with nan | number
  · have small : single.magnitude bits % single.step < 2 ^ 23 := Nat.mod_lt _ single.step_pos
    obtain ⟨most, least⟩ := quiet_payload small
    refine ⟨single.withSign (single.isNegative bits) _, isQuiet_withSign most (.inr least), ?_⟩
    have inside : single.infinity + (single.magnitude bits % single.step ||| 2 ^ 22) < single.signBit := by
      have sign := single_signBit
      have top := single_infinity
      omega
    have low : (single.infinity + (single.magnitude bits % single.step ||| 2 ^ 22)) % single.step =
        single.magnitude bits % single.step ||| 2 ^ 22 := by
      rw [show single.infinity = single.step * 255 by decide, Nat.mul_add_mod]
      exact Nat.mod_eq_of_lt most
    rw [convert_nan nan, convert_nan (by rw [magnitude_withSign inside]; omega), magnitude_withSign inside,
      isNegative_withSign inside, low, widened, widened, Nat.shiftLeft_or_distrib,
      show 2 ^ 22 <<< 29 = double.step / 2 by rfl, Nat.or_assoc, Nat.or_self]
  · exact ⟨bits, ⟨fits, fun isNaN => absurd (isNaN_iff.mp isNaN) (Nat.not_lt.mpr number)⟩, rfl⟩

end Conversion

end Format

end ProtoBindings.Number
