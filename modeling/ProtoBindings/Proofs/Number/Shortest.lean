import ProtoBindings.Number.Shortest
import ProtoBindings.Proofs.Number.Decimal

namespace ProtoBindings.Number

open Format (number)

section Digits

/-- The leading exponent of a value is that of its first digit. -/
theorem leadingExponent_spec {r : Ratio} (nonzero : 0 < r.numerator) (pos : 0 < r.denominator) :
    (10 : ℚ) ^ leadingExponent r ≤ r.toRat ∧ r.toRat < 10 ^ (leadingExponent r + 1) := by
  obtain ⟨n, d⟩ := r
  dsimp only at nonzero pos
  have positive : (0 : ℚ) < d := by exact_mod_cast pos
  have positive' : (0 : ℚ) < n := by exact_mod_cast nonzero
  rw [leadingExponent, Ratio.toRat]
  dsimp only
  split
  · rename_i large
    have quotient : 0 < n / d := Nat.div_pos large pos
    obtain ⟨L, length⟩ := Nat.exists_eq_add_one.mpr (decimalLength_pos (n / d))
    have least := pow_le_of_decimalLength quotient
    have most := lt_pow_decimalLength (n / d)
    rw [length, Nat.add_sub_cancel, Nat.le_div_iff_mul_le pos] at least
    rw [length, Nat.div_lt_iff_lt_mul pos] at most
    rw [length]
    push_cast
    rw [add_sub_cancel_right, zpow_natCast, ← Nat.cast_succ, zpow_natCast, le_div_iff₀ positive,
      div_lt_iff₀ positive]
    exact ⟨by exact_mod_cast least, by exact_mod_cast most⟩
  · rename_i small
    have quotient : 0 < (d - 1) / n := Nat.div_pos (by omega) nonzero
    obtain ⟨L, length⟩ := Nat.exists_eq_add_one.mpr (decimalLength_pos ((d - 1) / n))
    have least := pow_le_of_decimalLength quotient
    have most := lt_pow_decimalLength ((d - 1) / n)
    rw [length, Nat.add_sub_cancel, Nat.le_div_iff_mul_le nonzero] at least
    rw [length, Nat.div_lt_iff_lt_mul nonzero] at most
    rw [length]
    push_cast
    have next : -((L : ℤ) + 1) + 1 = -(L : ℤ) := by ring
    have lower : d ≤ n * 10 ^ (L + 1) := by
      rw [Nat.mul_comm]
      omega
    have upper : n * 10 ^ L < d := by
      rw [Nat.mul_comm]
      omega
    rw [next, ← Nat.cast_succ, zpow_neg, zpow_neg, zpow_natCast, zpow_natCast, inv_eq_one_div,
      inv_eq_one_div, div_le_div_iff₀ (by positivity) positive, div_lt_div_iff₀ positive (by positivity),
      one_mul]
    exact ⟨by exact_mod_cast lower, by exact_mod_cast upper⟩

theorem number_lt {m : ℕ} (finite : m < double.infinity) : double.number m < 2 ^ 1024 := by
  obtain ⟨E, S, parts, small⟩ := double.exists_parts m
  have step := Format.double_step
  have exponent : E ≤ 2046 := by
    have top := Format.double_infinity
    have whole := parts.whole
    have least := parts.least
    rw [step] at whole least
    omega
  have significand : (S : ℚ) < 2 ^ 53 := by
    rw [step, ← Nat.pow_succ'] at small
    exact_mod_cast small
  rw [parts.number, div_lt_iff₀ (by positivity), Format.double_scale]
  calc (S : ℚ) * 2 ^ E ≤ S * 2 ^ 2046 :=
        mul_le_mul_of_nonneg_left (pow_le_pow_right₀ one_le_two exponent) (Nat.cast_nonneg S)
    _ < 2 ^ 53 * 2 ^ 2046 := mul_lt_mul_of_pos_right significand (by positivity)
    _ = 2 ^ 1024 * 2 ^ 1075 := by rw [← pow_add, ← pow_add]

theorem le_number {m : ℕ} (nonzero : 0 < m) : 1 / 2 ^ 1074 ≤ double.number m := by
  have first : double.Parts 1 1 1 :=
    ⟨by simp, le_rfl, .inl rfl, Nat.mul_pos two_pos double.step_pos⟩
  refine le_trans (le_of_eq ?_) (double.number_mono nonzero)
  rw [first.number, Format.double_scale, pow_succ _ 1074, Nat.cast_one]
  field_simp

theorem two_pow_le_ten_pow (k : ℕ) : (2 : ℚ) ^ (3 * k) ≤ 10 ^ k := by
  rw [pow_mul]
  exact pow_le_pow_left₀ (by norm_num) (by norm_num) k

theorem value_numerator {m : ℕ} (nonzero : 0 < m) : 0 < (double.value m).numerator := by
  have positive := double.number_pos nonzero
  rw [number, div_pos_iff_of_pos_right (by exact_mod_cast Format.value_denominator double m)] at positive
  exact_mod_cast positive

theorem leadingExponent_range {m : ℕ} (nonzero : 0 < m) (finite : m < double.infinity) :
    -360 < leadingExponent (double.value m) ∧ leadingExponent (double.value m) < 360 := by
  obtain ⟨least, most⟩ :=
    leadingExponent_spec (value_numerator nonzero) (Format.value_denominator double m)
  have large : (double.value m).toRat < 2 ^ 1024 := number_lt finite
  have small : 1 / 2 ^ 1074 ≤ (double.value m).toRat := le_number nonzero
  constructor
  · have below : (10 : ℚ) ^ (-358 : ℤ) ≤ 1 / 2 ^ 1074 := by
      rw [zpow_neg, zpow_ofNat, inv_eq_one_div]
      exact one_div_le_one_div_of_le (by positivity) (two_pow_le_ten_pow 358)
    have order := (zpow_lt_zpow_iff_right₀ (by norm_num : (1 : ℚ) < 10)).mp
      ((below.trans small).trans_lt most)
    omega
  · have above : (2 : ℚ) ^ 1024 ≤ 10 ^ (342 : ℤ) := by
      rw [zpow_ofNat]
      exact (pow_le_pow_right₀ one_le_two (by decide)).trans (two_pow_le_ten_pow 342)
    have order := (zpow_lt_zpow_iff_right₀ (by norm_num : (1 : ℚ) < 10)).mp
      (least.trans_lt (large.trans_le above))
    omega

theorem ten_zpow (e : ℤ) : (10 : ℚ) ^ e.toNat / 10 ^ (-e).toNat = 10 ^ e := by
  rcases Int.le_total 0 e with plus | minus
  · obtain ⟨k, rfl⟩ := Int.eq_ofNat_of_zero_le plus
    simp
  · obtain ⟨k, same⟩ := Int.eq_ofNat_of_zero_le (Int.neg_nonneg.mpr minus)
    obtain rfl : e = -k := by omega
    simp

theorem Decimal.toRat_value (n : ℕ) (e : ℤ) : (Decimal.value ⟨n, e⟩).toRat = n * 10 ^ e := by
  rw [← ten_zpow, Ratio.toRat, value]
  push_cast [Nat.pow_eq]
  rw [mul_div_assoc]

/-- Seventeen digits are enough for a double to be found again. -/
theorem toDouble_of_digits {m : ℕ} {e : ℤ} {n : ℕ} (finite : m < double.infinity)
    (low : 10 ^ 16 * (10 : ℚ) ^ e ≤ double.number m) (high : double.number m < 10 ^ 17 * 10 ^ e)
    (range : -400 < e ∧ e < 380) (near : |(n : ℚ) - double.number m / 10 ^ e| ≤ 1 / 2) :
    Decimal.toDouble ⟨n, e⟩ = m := by
  have unit : (0 : ℚ) < 10 ^ e := zpow_pos (by norm_num) e
  have least := (le_div_iff₀ unit).mpr low
  have most := (div_lt_iff₀ unit).mpr high
  obtain ⟨below, above⟩ := abs_le.mp near
  have nonzero : 0 < n := by
    have : (0 : ℚ) < n := by linarith
    exact_mod_cast this
  have length : decimalLength n ≤ 18 := by
    have : (n : ℚ) < 10 ^ 18 := by linarith
    exact (decimalLength_le_iff (by decide)).mpr (by exact_mod_cast this)
  -- Half a unit of the last digit is less than half the distance between two doubles.
  have close : 4 * double.step * |double.number m - (Decimal.value ⟨n, e⟩).toRat| < double.number m := by
    have distance : |double.number m - n * 10 ^ e| = 10 ^ e * |(n : ℚ) - double.number m / 10 ^ e| := by
      rw [← abs_of_pos unit, ← abs_mul, abs_of_pos unit, mul_sub, mul_div_cancel₀ _ unit.ne',
        abs_sub_comm, mul_comm (n : ℚ)]
    have step : (double.step : ℚ) = 2 ^ 52 := by
      rw [Format.double_step]
      norm_num
    rw [Decimal.toRat_value, distance, step]
    calc 4 * 2 ^ 52 * ((10 : ℚ) ^ e * |(n : ℚ) - double.number m / 10 ^ e|)
        ≤ 4 * 2 ^ 52 * (10 ^ e * (1 / 2)) := by gcongr
      _ = 2 ^ 53 * 10 ^ e := by ring
      _ < 10 ^ 16 * 10 ^ e := mul_lt_mul_of_pos_right (by norm_num) unit
      _ ≤ double.number m := low
  have rounded := Format.nearest_of_close (by decide) (Nat.pow_pos (by decide)) finite.le close
  have inside : ¬ (n = 0 ∨ e + decimalLength n < -400) := by omega
  have inside' : ¬ 400 < e + decimalLength n := by omega
  rw [Decimal.toDouble]
  dsimp only
  rw [if_neg inside, if_neg inside', rounded]

theorem roundQuotient_scaled (m : ℕ) (e : ℤ) :
    |(roundQuotient ((double.value m).numerator * Nat.pow 10 (-e).toNat)
      ((double.value m).denominator * Nat.pow 10 e.toNat) : ℚ) - double.number m / 10 ^ e| ≤ 1 / 2 := by
  have pos : 0 < (double.value m).denominator * Nat.pow 10 e.toNat :=
    Nat.mul_pos (Format.value_denominator double m) (Nat.pow_pos (by decide))
  have near := roundQuotient_near (n := (double.value m).numerator * Nat.pow 10 (-e).toNat) pos
  have same : double.number m / 10 ^ e = ((double.value m).numerator * Nat.pow 10 (-e).toNat : ℕ) /
      ((double.value m).denominator * Nat.pow 10 e.toNat : ℕ) := by
    rw [← ten_zpow, number, div_div_div_eq]
    push_cast [Nat.pow_eq]
    rfl
  rw [same]
  exact near

/-- The digits that are found read back as the magnitude. -/
theorem toDouble_shortest {m : ℕ} (nonzero : 0 < m) (finite : m < double.infinity) :
    (shortest m).toDouble = m := by
  have back {e : ℤ} {d : Decimal} (found : readBack? m e = some d) : d.toDouble = m :=
    of_decide_eq_true (List.find?_some (p := fun d : Decimal => decide (d.toDouble = m)) found)
  -- The search has an end: the last exponent that is tried leaves seventeen digits.
  have enough : readBack? m (leadingExponent (double.value m) - 16) ≠ none := by
    obtain ⟨low, high⟩ := leadingExponent_spec (value_numerator nonzero) (Format.value_denominator double m)
    obtain ⟨least, most⟩ := leadingExponent_range nonzero finite
    generalize leadingExponent (double.value m) = leading at *
    have ten : (10 : ℚ) ≠ 0 := by norm_num
    have first : (10 : ℚ) ^ 16 * 10 ^ (leading - 16) = 10 ^ leading := by
      rw [← zpow_natCast, ← zpow_add₀ ten]
      congr 1
      omega
    have last : (10 : ℚ) ^ (leading + 1) = 10 ^ 17 * 10 ^ (leading - 16) := by
      rw [← zpow_natCast, ← zpow_add₀ ten]
      congr 1
      omega
    have read := toDouble_of_digits finite (first.trans_le low) (high.trans_eq last) (by omega)
      (roundQuotient_scaled m _)
    rw [readBack?, List.map_cons,
      List.find?_cons_of_pos (p := fun d : Decimal => decide (d.toDouble = m)) (decide_eq_true read)]
    exact Option.some_ne_none _
  rw [shortest]
  cases found : (List.range 17).findSome? fun n : ℕ =>
      readBack? m (leadingExponent (double.value m) - n) with
  | some d =>
    obtain ⟨n, -, read⟩ := List.exists_of_findSome?_eq_some found
    exact back read
  | none =>
    have missed := List.findSome?_eq_none_iff.mp found 16 (by decide)
    rw [Nat.cast_ofNat] at missed
    exact absurd missed enough

end Digits

section Layout

variable {digits : List Char} {leading : ℤ} {negative : Bool}

theorem exists_zeros (digits : List Char) :
    ∃ k, dropTrailingZeros digits ++ List.replicate k '0' = digits := by
  have parts := List.takeWhile_append_dropWhile (p := fun c => decide (c = '0')) (l := digits.reverse)
  have zeros : digits.reverse.takeWhile (fun c => decide (c = '0')) = List.replicate _ '0' :=
    List.eq_replicate_of_mem fun c member =>
      of_decide_eq_true (List.mem_takeWhile_imp (p := fun c => decide (c = '0')) member)
  refine ⟨(digits.reverse.takeWhile fun c => decide (c = '0')).length, List.reverse_injective ?_⟩
  rw [List.reverse_append, List.reverse_replicate, dropTrailingZeros, List.reverse_reverse, ← zeros]
  exact parts

theorem signed?_exponent (leading : ℤ) :
    signed? ((if leading < 0 then '-' else '+') :: padded 2 leading.natAbs) = some leading := by
  have present : padded 2 leading.natAbs ≠ [] := by
    rw [padded]
    exact List.append_ne_nil_of_right_ne_nil _ Nat.toDigits_ne_nil
  have all : (padded 2 leading.natAbs).all isDigit = true :=
    List.all_eq_true.mpr fun _ => isDigit_of_mem_padded
  have read : digits? (padded 2 leading.natAbs) = some leading.natAbs := by
    rw [digits?, if_pos ⟨present, all⟩, digitsValue_padded]
  split
  · have same : -(leading.natAbs : ℤ) = leading := by omega
    rw [signed?, takeSign]
    dsimp only
    rw [read]
    exact congrArg some same
  · have same : (leading.natAbs : ℤ) = leading := by omega
    rw [signed?, takeSign]
    dsimp only
    rw [read]
    exact congrArg some same

theorem isPlain_exponent (leading : ℤ) {c : Char}
    (member : c ∈ 'e' :: (if leading < 0 then '-' else '+') :: padded 2 leading.natAbs) : IsPlain c := by
  rcases List.mem_cons.mp member with rfl | member
  · exact ⟨by decide, by decide, by decide⟩
  rcases List.mem_cons.mp member with rfl | member
  · split <;> exact ⟨by decide, by decide, by decide⟩
  · exact isPlain_of_isDigit (isDigit_of_mem_padded member)

/-- What digits are read as, if the first of them stands for a given power of ten. -/
def readingOf (negative : Bool) (digits : List Char) (leading : ℤ) : ℕ :=
  double.withSign negative (Decimal.toDouble ⟨digitsValue digits, leading + 1 - digits.length⟩)

variable (all : ∀ c ∈ digits, isDigit c = true) (present : digits ≠ [])
include all

theorem real?_smallLayout (small : -4 ≤ leading ∧ leading < 0) :
    real? (withMinus negative (layout digits leading)) = some (readingOf negative digits leading) := by
  have fraction (c : Char) (member : c ∈ List.replicate (-leading - 1).toNat '0' ++ digits) :
      isDigit c = true :=
    (List.mem_append.mp member).elim isDigit_of_mem_zeros (all c)
  have read : real? (withMinus negative (['0'] ++ '.' :: _)) = _ :=
    real?_point isDigit_zero fraction (List.cons_ne_nil _ _)
  have places : -((List.replicate (-leading - 1).toNat '0' ++ digits).length : ℤ) =
      leading + 1 - digits.length := by
    rw [List.length_append, List.length_replicate]
    omega
  rw [places, List.singleton_append, List.singleton_append, digitsValue_zero, digitsValue_zeros] at read
  rwa [layout, if_pos small]

include present

theorem real?_middleLayout (middle : 0 ≤ leading ∧ leading < 16) :
    real? (withMinus negative (layout digits leading)) = some (readingOf negative digits leading) := by
  have large : ¬ (-4 ≤ leading ∧ leading < 0) := by omega
  obtain ⟨places, same⟩ : ∃ places : ℕ, leading.toNat + 1 = places := ⟨_, rfl⟩
  rw [layout, if_neg large, if_pos middle]
  dsimp only
  rw [same]
  rcases Nat.lt_or_ge places digits.length with inside | short
  · have length : (digits.take places).length = places := List.length_take_of_le inside.le
    have rest : digits.drop places ≠ [] := List.ne_nil_of_length_pos (by rw [List.length_drop]; omega)
    have front : digits.take places ≠ [] := List.ne_nil_of_length_pos (by omega)
    have read : real? (withMinus negative (digits.take places ++ '.' :: digits.drop places)) = _ :=
      real?_point (fun c member => all c (List.mem_of_mem_take member))
        (fun c member => all c (List.mem_of_mem_drop member)) front
    have exponent : -((digits.drop places).length : ℤ) = leading + 1 - digits.length := by
      rw [List.length_drop]
      omega
    rw [List.take_append_drop, exponent] at read
    rw [if_neg rest, length, Nat.sub_self, List.replicate_zero, List.append_nil]
    exact read
  · obtain ⟨k, zeros⟩ := Nat.exists_eq_add_of_le short
    have whole (c : Char) (member : c ∈ digits ++ List.replicate k '0') : isDigit c = true :=
      (List.mem_append.mp member).elim (all c) isDigit_of_mem_zeros
    have read : real? (withMinus negative (digits ++ List.replicate k '0' ++ '.' :: ['0'])) = _ :=
      real?_point whole isDigit_zero (List.append_ne_nil_of_left_ne_nil present _)
    have exponent : -((['0'].length : ℕ) : ℤ) = leading + 1 - digits.length - ((k + 1 : ℕ) : ℤ) := by
      rw [List.length_singleton]
      omega
    have value : digitsValue (digits ++ List.replicate k '0' ++ ['0']) =
        digitsValue digits * 10 ^ (k + 1) := by
      rw [List.append_assoc, ← List.replicate_succ', digitsValue_append_zeros]
    rw [value, exponent, Decimal.toDouble_shift] at read
    rw [List.take_of_length_le short, List.drop_of_length_le short, if_pos rfl, zeros,
      Nat.add_sub_cancel_left]
    exact read

theorem real?_scientificLayout (outside : ¬ (-4 ≤ leading ∧ leading < 0))
    (outside' : ¬ (0 ≤ leading ∧ leading < 16)) :
    real? (withMinus negative (layout digits leading)) = some (readingOf negative digits leading) := by
  obtain ⟨c, rest, rfl⟩ := List.exists_cons_of_ne_nil present
  have first := all c List.mem_cons_self
  have plain (d : Char) (member : d ∈ c :: rest) : IsPlain d := isPlain_of_isDigit (all d member)
  have width : List.replicate (2 - (Nat.toDigits 10 leading.natAbs).length) '0' ++
      Nat.toDigits 10 leading.natAbs = padded 2 leading.natAbs := rfl
  rw [layout, if_neg outside, if_neg outside']
  dsimp only
  rw [width]
  have exponent := signed?_exponent leading
  have plainExponent (d : Char) := isPlain_exponent leading (c := d)
  generalize (if leading < 0 then '-' else '+') :: padded 2 leading.natAbs = tail at *
  have read : exponent? ('e' :: tail) = some leading := exponent
  cases rest with
  | nil =>
    have text : [c].take 1 ++ (if [c].length ≤ 1 then [] else ['.']) ++ [c].drop 1 ++ 'e' :: tail =
        [c] ++ 'e' :: tail := rfl
    have exact : leading + 1 - ([c].length : ℤ) = leading := by simp
    have shown (d : Char) (member : d ∈ [c] ++ 'e' :: tail) : IsPlain d :=
      (List.mem_append.mp member).elim (plain d) (plainExponent d)
    rw [text, real?_digit List.singleton_append first shown,
      decimal?_whole all present (by simp [isDigit]) (by simp), read, Option.map_some, Option.map_some,
      readingOf, exact]
  | cons d rest =>
    have point : (if (c :: d :: rest).length ≤ 1 then [] else ['.']) = ['.'] := if_neg (by simp)
    have text : (c :: d :: rest).take 1 ++ ['.'] ++ (c :: d :: rest).drop 1 ++ 'e' :: tail =
        [c] ++ '.' :: (d :: rest ++ 'e' :: tail) := by simp
    have places : leading - ((d :: rest).length : ℤ) = leading + 1 - ((c :: d :: rest).length : ℤ) := by
      simp only [List.length_cons]
      omega
    have whole (b : Char) (member : b ∈ [c]) : isDigit b = true :=
      all b (List.mem_cons.mpr (.inl (List.mem_singleton.mp member)))
    have fraction (b : Char) (member : b ∈ d :: rest) : isDigit b = true :=
      all b (List.mem_cons_of_mem c member)
    have shown (b : Char) (member : b ∈ [c] ++ '.' :: (d :: rest ++ 'e' :: tail)) : IsPlain b := by
      rcases List.mem_append.mp member with isFirst | later
      · exact isPlain_of_isDigit (whole b isFirst)
      rcases List.mem_cons.mp later with rfl | later
      · exact isPlain_point
      rcases List.mem_append.mp later with digit | mark
      · exact isPlain_of_isDigit (fraction b digit)
      · exact plainExponent b mark
    rw [point, text, real?_digit List.singleton_append first shown,
      decimal?_fraction whole fraction (List.cons_ne_nil _ _) (by simp [isDigit]), read, Option.map_some,
      Option.map_some, readingOf, places]
    rfl

/-- Digits that are laid out around a point are read as the number that they make. -/
theorem real?_layout (leading : ℤ) :
    real? (withMinus negative (layout digits leading)) = some (readingOf negative digits leading) := by
  by_cases small : -4 ≤ leading ∧ leading < 0
  · exact real?_smallLayout all small
  by_cases middle : 0 ≤ leading ∧ leading < 16
  · exact real?_middleLayout all present middle
  · exact real?_scientificLayout all present small middle

end Layout

/-- A decimal that is laid out without the zeros at its end is read as the double nearest to it. -/
theorem real?_decimal {n : ℕ} (nonzero : n ≠ 0) (e : ℤ) (negative : Bool) :
    real? (withMinus negative (layout (dropTrailingZeros (Nat.toDigits 10 n))
      (e + (Nat.toDigits 10 n).length - 1))) =
        some (double.withSign negative (Decimal.toDouble ⟨n, e⟩)) := by
  have written := digitsValue_toDigits n
  have digits (c : Char) (member : c ∈ Nat.toDigits 10 n) : isDigit c = true :=
    isDigit_of_mem_toDigits member
  generalize Nat.toDigits 10 n = text at *
  obtain ⟨k, split⟩ := exists_zeros text
  generalize dropTrailingZeros text = front at *
  subst split
  rw [digitsValue_append_zeros] at written
  have present : front ≠ [] := by
    rintro rfl
    exact nonzero (written.symm.trans (Nat.zero_mul _))
  have exponent : e + (front ++ List.replicate k '0').length - 1 + 1 - front.length = e + k := by
    rw [List.length_append, List.length_replicate]
    omega
  have shifted := Decimal.toDouble_shift (digitsValue front) (e + k) k
  rw [written, add_sub_cancel_right] at shifted
  rw [real?_layout (fun c member => digits c (List.mem_append_left _ member)) present, readingOf, exponent,
    shifted]

/-- A real is read back from the text that it is shown as, if it is not NaN. -/
theorem real?_realText {bits : ℕ} (fits : bits < 2 ^ 64) (ordered : double.isNaN bits = false) :
    real? (realText bits).toList = some bits := by
  have most : double.magnitude bits ≤ double.infinity := Nat.not_lt.mp (of_decide_eq_false ordered)
  have restored : double.withSign (double.isNegative bits) (double.magnitude bits) = bits :=
    Format.withSign_magnitude (fits.trans_le (by decide))
  have text (body : List Char) :
      (String.ofList (if double.isNegative bits then '-' :: body else body)).toList =
        withMinus (double.isNegative bits) body := String.toList_ofList
  rw [realText, ordered]
  dsimp only
  rw [if_neg Bool.false_ne_true, text]
  generalize double.isNegative bits = negative at *
  split
  · rename_i infinite
    rw [← restored, beq_iff_eq.mp infinite]
    cases negative <;> decide +kernel
  split
  · rename_i zero
    have read : real? (withMinus negative (['0'] ++ '.' :: ['0'])) = _ :=
      real?_point isDigit_zero isDigit_zero (List.cons_ne_nil _ _)
    have nothing : Decimal.toDouble ⟨digitsValue (['0'] ++ ['0']), -((['0'].length : ℕ) : ℤ)⟩ = 0 :=
      Decimal.toDouble_zero _
    rw [nothing] at read
    rw [← restored, zero]
    exact read
  · rename_i infinite zero
    have finite := Nat.lt_of_le_of_ne most fun same => infinite (beq_iff_eq.mpr same)
    have found := toDouble_shortest (Nat.pos_of_ne_zero zero) finite
    generalize shortest (double.magnitude bits) = d at found ⊢
    obtain ⟨n, e⟩ := d
    have nonzero : n ≠ 0 := by
      rintro rfl
      exact zero (found.symm.trans (Decimal.toDouble_zero e))
    rw [real?_decimal nonzero, found, restored]

end ProtoBindings.Number
