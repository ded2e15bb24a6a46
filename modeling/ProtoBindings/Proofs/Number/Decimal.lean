import Mathlib.Data.List.Induction
import ProtoBindings.Proofs.Number.Numeral

namespace ProtoBindings.Number

namespace Format

variable {f : Format} {r : Ratio}

/-- Rounding moves a number by a share of it, or by next to nothing. -/
theorem nearest_relative (regular : 0 < f.precision) (pos : 0 < r.denominator)
    (finite : f.nearest r < f.infinity) :
    |f.number (f.nearest r) - r.toRat| ≤ r.toRat / (2 * f.step) + 1 / 2 ^ f.scale := by
  have near := nearest_near regular pos finite
  have step : (0 : ℚ) < f.step := by exact_mod_cast f.step_pos
  have scale : (0 : ℚ) < 1 / 2 ^ f.scale := by positivity
  by_cases least : f.exponentOf r = 1
  · have share : 0 ≤ r.toRat / (2 * f.step) := by
      rw [Ratio.toRat]
      positivity
    rw [least] at near
    have half : (1 : ℚ) / 2 * (2 ^ 1 / 2 ^ f.scale) = 1 / 2 ^ f.scale := by ring
    rw [half] at near
    linarith
  · have large := step_le_exactSignificand regular pos least
    have unit : (0 : ℚ) ≤ 2 ^ f.exponentOf r / 2 ^ f.scale := by positivity
    have part := mul_le_mul_of_nonneg_right large unit
    rw [exactSignificand_mul] at part
    have share : (1 : ℚ) / 2 * (2 ^ f.exponentOf r / 2 ^ f.scale) ≤ r.toRat / (2 * f.step) := by
      rw [le_div_iff₀ (by positivity)]
      linarith
    linarith

theorem exponentOf_le {k : ℕ} (pos : 0 < r.denominator) (bound : r.numerator ≤ 2 ^ k * r.denominator) :
    f.exponentOf r ≤ max 1 (k + f.scale + 1 - f.precision) := by
  have small : r.numerator * 2 ^ f.scale / r.denominator < 2 ^ (k + f.scale + 1) := by
    rw [Nat.div_lt_iff_lt_mul pos]
    calc r.numerator * 2 ^ f.scale ≤ 2 ^ k * r.denominator * 2 ^ f.scale := Nat.mul_le_mul_right _ bound
      _ = 2 ^ (k + f.scale) * r.denominator := by ring
      _ < 2 ^ (k + f.scale + 1) * r.denominator :=
        Nat.mul_lt_mul_of_pos_right (Nat.pow_lt_pow_right one_lt_two (Nat.lt_succ_self _)) pos
  have leading : (r.numerator * 2 ^ f.scale / r.denominator).log2 ≤ k + f.scale := by
    rcases Nat.eq_zero_or_pos (r.numerator * 2 ^ f.scale / r.denominator) with zero | positive
    · rw [zero, Nat.log2_zero]
      exact Nat.zero_le _
    · exact Nat.le_of_lt_succ ((Nat.log2_lt positive.ne').mpr small)
  rw [exponentOf]
  omega

/-- What is not too large is not rounded to infinity. -/
theorem nearest_finite {k : ℕ} (regular : 0 < f.precision) (pos : 0 < r.denominator)
    (bound : r.toRat ≤ 2 ^ k) (room : max 1 (k + f.scale + 1 - f.precision) + 2 < Nat.pow 2 f.exponentBits) :
    f.nearest r < f.infinity := by
  have bound : r.numerator ≤ 2 ^ k * r.denominator := by
    have positive : (0 : ℚ) < r.denominator := by exact_mod_cast pos
    rw [Ratio.toRat, div_le_iff₀ positive] at bound
    exact_mod_cast bound
  have exponent := exponentOf_le (f := f) pos bound
  have significand := (parts_of_ratio (f := f) regular pos).most
  rw [nearest_eq]
  refine (min_le_right _ _).trans_lt ?_
  calc f.rounded r ≤ (f.exponentOf r - 1) * f.step + 2 * f.step := Nat.add_le_add_left significand _
    _ = (f.exponentOf r - 1 + 2) * f.step := (Nat.add_mul _ _ _).symm
    _ < f.infinity := Nat.mul_lt_mul_of_pos_right (by omega) f.step_pos

variable {m k n : ℕ}

theorem times_toRat (f : Format) (m k : ℕ) :
    (⟨(f.value m).numerator * k, (f.value m).denominator⟩ : Ratio).toRat = f.number m * k := by
  rw [Ratio.toRat, number]
  push_cast
  ring

theorem times_relative (regular : 0 < f.precision) (finite : f.times m k < f.infinity) :
    |f.number (f.times m k) - f.number m * k| ≤ f.number m * k / (2 * f.step) + 1 / 2 ^ f.scale := by
  rw [← times_toRat]
  exact nearest_relative regular (value_denominator f m) finite

theorem times_finite {j : ℕ} (regular : 0 < f.precision) (bound : f.number m * k ≤ 2 ^ j)
    (room : max 1 (j + f.scale + 1 - f.precision) + 2 < Nat.pow 2 f.exponentBits) :
    f.times m k < f.infinity := by
  rw [← times_toRat] at bound
  exact nearest_finite regular (value_denominator f m) bound room

theorem round_eq (near : |(n : ℚ) - f.number m| < 1 / 2) : f.round m = n :=
  roundQuotient_eq (value_denominator f m) near

end Format

section Length

variable {n k : ℕ}

theorem decimalLength_pos (n : ℕ) : 0 < decimalLength n :=
  List.length_pos_of_ne_nil Nat.toDigits_ne_nil

theorem decimalLength_le_iff (pos : 0 < k) : decimalLength n ≤ k ↔ n < 10 ^ k :=
  Nat.length_toDigits_le_iff (by decide) pos

theorem lt_pow_decimalLength (n : ℕ) : n < 10 ^ decimalLength n :=
  (decimalLength_le_iff (decimalLength_pos n)).mp le_rfl

theorem pow_le_of_decimalLength (nonzero : 0 < n) : 10 ^ (decimalLength n - 1) ≤ n := by
  by_contra less
  rcases Nat.eq_zero_or_pos (decimalLength n - 1) with one | more
  · rw [one] at less
    omega
  · have := (decimalLength_le_iff more).mpr (Nat.not_le.mp less)
    omega

theorem decimalLength_eq {L : ℕ} (least : 10 ^ L ≤ n) (most : n < 10 ^ (L + 1)) :
    decimalLength n = L + 1 := by
  have upper := (decimalLength_le_iff (Nat.succ_pos L)).mpr most
  have lower := (Nat.pow_lt_pow_iff_right (by decide)).mp (least.trans_lt (lt_pow_decimalLength n))
  omega

theorem decimalLength_mul_pow (nonzero : 0 < n) (k : ℕ) :
    decimalLength (n * 10 ^ k) = decimalLength n + k := by
  have positive := decimalLength_pos n
  have least := pow_le_of_decimalLength nonzero
  have most := lt_pow_decimalLength n
  have pow : 0 < 10 ^ k := Nat.pow_pos (by decide)
  have split : decimalLength n - 1 + k + 1 = decimalLength n + k := by omega
  rw [← split]
  refine decimalLength_eq ?_ ?_
  · rw [Nat.pow_add]
    exact Nat.mul_le_mul_right _ least
  · rw [split, Nat.pow_add]
    exact Nat.mul_lt_mul_of_pos_right most pow

theorem Decimal.toDouble_zero (e : ℤ) : toDouble ⟨0, e⟩ = 0 := by
  simp [toDouble]

/-- Zeros at the end of the digits change nothing, if the exponent makes up for them. -/
theorem Decimal.toDouble_shift (n : ℕ) (e : ℤ) (k : ℕ) :
    toDouble ⟨n * 10 ^ k, e - k⟩ = toDouble ⟨n, e⟩ := by
  rcases Nat.eq_zero_or_pos n with rfl | positive
  · rw [Nat.zero_mul, toDouble_zero, toDouble_zero]
  have length := decimalLength_mul_pow positive k
  have places : e - k + (decimalLength (n * 10 ^ k) : ℕ) = e + decimalLength n := by
    rw [length]
    push_cast
    ring
  have shifted : n * 10 ^ k ≠ 0 := (Nat.mul_pos positive (Nat.pow_pos (by decide))).ne'
  have values : double.nearest (value ⟨n * 10 ^ k, e - k⟩) = double.nearest (value ⟨n, e⟩) := by
    refine Format.nearest_congr double (Nat.pow_pos (by decide)) (Nat.pow_pos (by decide)) ?_
    simp only [value, Nat.pow_eq, Nat.mul_assoc, ← Nat.pow_add]
    congr 2
    omega
  simp only [toDouble, places, shifted, positive.ne', values]

end Length

section Reading

variable {whole fraction rest cs : List Char} {c : Char} {bits : ℕ} {negative : Bool}

theorem Decimal.toDouble_le (d : Decimal) : d.toDouble ≤ double.infinity := by
  rw [toDouble]
  split
  · exact Nat.zero_le _
  split
  · exact le_rfl
  · exact Format.nearest_le _ _

theorem named?_lt (found : named? cs = some bits) : bits < double.signBit := by
  have infinity := Format.double_infinity
  have step := Format.double_step
  have sign := Format.double_signBit
  rw [named?] at found
  split at found
  · cases found
    omega
  · cases found
    omega
  · cases found
    omega
  · cases found

theorem Format.withSign_lt {f : Format} {m : ℕ} (small : m < f.signBit) :
    f.withSign negative m < 2 * f.signBit := by
  rw [withSign]
  split <;> omega

/-- What is read is a bit pattern of double precision. -/
theorem real?_lt (found : real? cs = some bits) : bits < 2 ^ 64 := by
  have size : 2 * double.signBit = 2 ^ 64 := rfl
  have infinity := Format.infinity_lt_signBit
  rw [real?] at found
  generalize takeSign (plainNumeral cs) = parts at found
  obtain ⟨magnitude, read, rfl⟩ := Option.map_eq_some_iff.mp found
  refine size ▸ Format.withSign_lt ?_
  cases named : named? parts.2 with
  | some m =>
    rw [named] at read
    cases read
    exact named?_lt named
  | none =>
    rw [named] at read
    obtain ⟨d, -, rfl⟩ := Option.map_eq_some_iff.mp read
    exact d.toDouble_le.trans_lt infinity

/-- What may stand after the digits of a numeral. -/
def exponent? : List Char → Option Int
  | [] => some 0
  | mark :: tail => if mark = 'e' ∨ mark = 'E' then signed? tail else none

theorem takeWhile_digits (digits : ∀ c ∈ cs, isDigit c = true)
    (stops : ∀ c ∈ rest.head?, isDigit c = false) :
    (cs ++ rest).takeWhile isDigit = cs ∧ (cs ++ rest).dropWhile isDigit = rest := by
  rw [List.takeWhile_append_of_pos digits, List.dropWhile_append_of_pos digits]
  cases rest with
  | nil => simp
  | cons c rest => simp [stops c rfl]

theorem decimal?_whole (isWhole : ∀ c ∈ whole, isDigit c = true) (present : whole ≠ [])
    (stops : ∀ c ∈ rest.head?, isDigit c = false) (noPoint : rest.head? ≠ some '.') :
    decimal? (whole ++ rest) = (exponent? rest).map fun e => ⟨digitsValue whole, e⟩ := by
  obtain ⟨taken, dropped⟩ := takeWhile_digits isWhole stops
  rw [decimal?]
  simp only [taken, dropped]
  cases rest with
  | nil => simp [present, exponent?]
  | cons mark tail =>
    have other : mark ≠ '.' := fun same => noPoint (congrArg some same)
    simp [present, exponent?, other]

theorem decimal?_fraction (isWhole : ∀ c ∈ whole, isDigit c = true)
    (isFraction : ∀ c ∈ fraction, isDigit c = true) (present : whole ≠ [])
    (stops : ∀ c ∈ rest.head?, isDigit c = false) : decimal? (whole ++ '.' :: (fraction ++ rest)) =
      (exponent? rest).map fun e => ⟨digitsValue (whole ++ fraction), e - fraction.length⟩ := by
  have point : ∀ c ∈ ('.' :: (fraction ++ rest)).head?, isDigit c = false := by
    rintro _ ⟨⟩
    decide
  obtain ⟨taken, dropped⟩ := takeWhile_digits isWhole point
  obtain ⟨taken', dropped'⟩ := takeWhile_digits isFraction stops
  rw [decimal?]
  simp only [taken, dropped, taken', dropped']
  cases rest with
  | nil => simp [present, exponent?]
  | cons mark tail => simp [present, exponent?]

theorem named?_digit (digit : isDigit c = true) : named? (c :: cs) = none := by
  have lower : c.toLower = c := by
    refine dif_neg fun capital => ?_
    have most : c.toNat ≤ 57 := (isDigit_iff.mp digit).2
    exact absurd most (Nat.not_le.mpr (Nat.lt_of_lt_of_le (by decide) capital.1))
  have first (word : String) (letter : Char) (rest : List Char) (isWord : word.toList = letter :: rest)
      (noDigit : isDigit letter = false) : String.ofList ((c :: cs).map Char.toLower) ≠ word := by
    rintro rfl
    rw [String.toList_ofList, List.map_cons, lower] at isWord
    cases isWord
    rw [digit] at noDigit
    cases noDigit
  rw [named?]
  split
  · rename_i same
    exact absurd same (first _ _ _ rfl (by decide))
  · rename_i same
    exact absurd same (first _ _ _ rfl (by decide))
  · rename_i same
    exact absurd same (first _ _ _ rfl (by decide))
  · rfl

theorem real?_digit {text : List Char} (isText : text = c :: cs) (first : isDigit c = true)
    (plain : ∀ d ∈ text, IsPlain d) : real? (withMinus negative text) =
      (decimal? text).map fun d => double.withSign negative d.toDouble := by
  subst isText
  rw [real?, plainNumeral_eq fun _ => isPlain_withMinus plain, takeSign_withMinus _ first]
  dsimp only
  rw [named?_digit first]
  exact Option.map_map ..

theorem isPlain_point : IsPlain '.' := ⟨by decide, by decide, by decide⟩

/-- A numeral with a point is read as the double nearest to it. -/
theorem real?_point (isWhole : ∀ c ∈ whole, isDigit c = true)
    (isFraction : ∀ c ∈ fraction, isDigit c = true) (present : whole ≠ []) :
    real? (withMinus negative (whole ++ '.' :: fraction)) = some (double.withSign negative
      (Decimal.toDouble ⟨digitsValue (whole ++ fraction), -fraction.length⟩)) := by
  have plain (c : Char) (member : c ∈ whole ++ '.' :: fraction) : IsPlain c := by
    rcases List.mem_append.mp member with isIn | isIn
    · exact isPlain_of_isDigit (isWhole c isIn)
    · rcases List.mem_cons.mp isIn with rfl | isIn
      · exact isPlain_point
      · exact isPlain_of_isDigit (isFraction c isIn)
  have read : decimal? (whole ++ '.' :: (fraction ++ [])) = _ :=
    decimal?_fraction isWhole isFraction present nofun
  rw [List.append_nil] at read
  obtain ⟨c, rest, rfl⟩ := List.exists_cons_of_ne_nil present
  rw [real?_digit List.cons_append (isWhole c List.mem_cons_self) plain, read]
  simp [exponent?]

theorem digitsValue_lt (digits : ∀ c ∈ cs, isDigit c = true) : digitsValue cs < 10 ^ cs.length := by
  induction cs using List.reverseRecOn with
  | nil => decide
  | append_singleton cs c ih =>
    have before := ih fun d member => digits d (List.mem_append_left _ member)
    have last := (isDigit_iff.mp (digits c (by simp))).2
    have value : digitsValue (cs ++ [c]) = digitsValue cs * 10 + (c.toNat - '0'.toNat) := by
      rw [digitsValue, List.foldl_append]
      rfl
    have zero : '0'.toNat = 48 := rfl
    rw [value, List.length_append, List.length_singleton, Nat.pow_succ]
    omega

theorem nearest_zero {d : ℕ} (pos : 0 < d) : double.nearest ⟨0, d⟩ = 0 :=
  Format.nearest_exact (by decide) pos 0 (Nat.zero_le _) (by simp [Format.number_zero, Ratio.toRat])

theorem Decimal.toDouble_fraction {v L : ℕ} (small : v < 10 ^ L) (short : L ≤ 9) :
    Decimal.toDouble ⟨v, -L⟩ = double.nearest ⟨v, 10 ^ L⟩ := by
  have value : Decimal.value ⟨v, -L⟩ = ⟨v, 10 ^ L⟩ := by
    have up : (-(L : Int)).toNat = 0 := by omega
    rw [Decimal.value, up, Int.neg_neg, Int.toNat_natCast, Nat.pow_eq, Nat.pow_zero, Nat.mul_one]
    rfl
  have length : decimalLength v ≤ 10 := by
    refine (Nat.length_toDigits_le_iff (by decide) (by decide)).mpr (small.trans_le ?_)
    exact Nat.pow_le_pow_right (by decide) (by omega)
  rw [toDouble, value]
  dsimp only
  split
  · rename_i tiny
    rcases tiny with rfl | tiny
    · exact (nearest_zero (Nat.pow_pos (by decide))).symm
    · omega
  · rw [if_neg (by omega)]

end Reading

end ProtoBindings.Number
