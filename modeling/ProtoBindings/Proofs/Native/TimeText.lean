import ProtoBindings.Native.TimeText
import ProtoBindings.Proofs.Native.Duration
import ProtoBindings.Proofs.Number.Decimal
import ProtoBindings.Proofs.Text.CodePoints

namespace ProtoBindings.Native

open Number (double digitsValue isDigit padded signedBy withMinus)
open Number.Format (number)
open Text (CodePoints)

theorem share_finite {v d : ℕ} (pos : 0 < d) (share : v ≤ d) : double.nearest ⟨v, d⟩ < double.infinity := by
  have most : (v : ℚ) / d ≤ 1 := (div_le_one (by exact_mod_cast pos)).mpr (by exact_mod_cast share)
  exact Number.Format.nearest_finite (k := 0) (by decide) pos (most.trans_eq (pow_zero 2).symm)
    (by decide)

/-- A share of one, times a billion, is what it is after both are rounded to doubles. -/
theorem round_times {v d n : ℕ} (pos : 0 < d) (share : v ≤ d) (count : n * d = v * 1000000000) :
    double.times (double.nearest ⟨v, d⟩) 1000000000 < double.infinity ∧
      double.round (double.times (double.nearest ⟨v, d⟩) 1000000000) = n := by
  have regular : 0 < double.precision := by decide
  have step : (double.step : ℚ) = 2 ^ 52 := by
    rw [Number.Format.double_step]
    norm_num
  have tiny : (1 : ℚ) / 2 ^ double.scale ≤ 1 / 2 ^ 53 :=
    one_div_le_one_div_of_le (by positivity) (pow_le_pow_right₀ one_le_two (by decide))
  have positive : (0 : ℚ) < d := by exact_mod_cast pos
  have most : (v : ℚ) / d ≤ 1 := (div_le_one positive).mpr (by exact_mod_cast share)
  have wanted : (n : ℚ) = v / d * 1000000000 := by
    rw [div_mul_eq_mul_div, eq_div_iff positive.ne']
    exact_mod_cast count
  have first :=
    Number.Format.nearest_relative (f := double) (r := ⟨v, d⟩) regular pos (share_finite pos share)
  generalize double.nearest ⟨v, d⟩ = m at *
  rw [show (⟨v, d⟩ : Number.Ratio).toRat = v / d from rfl, step, abs_le] at first
  have product : double.times m 1000000000 < double.infinity :=
    Number.Format.times_finite (j := 31) regular (by push_cast; linarith) (by decide)
  have second := Number.Format.times_relative (f := double) regular product
  rw [step, abs_le] at second
  push_cast at second
  refine ⟨product, Number.Format.round_eq ?_⟩
  rw [wanted, abs_lt]
  constructor <;> linarith

/-- Nine digits after the point or less are read as exactly so many nanoseconds. -/
theorem readNanos_fraction {negative : Bool} {fraction : List Char} {numeral : CodePoints}
    (written : numeral.chars = withMinus negative ('0' :: '.' :: fraction))
    (digits : ∀ c ∈ fraction, isDigit c = true) (short : fraction.length ≤ 9) :
    readNanos numeral = .ok (signedBy negative (digitsValue fraction * 10 ^ (9 - fraction.length))) := by
  have small := Number.digitsValue_lt digits
  have read : Number.real? (withMinus negative (['0'] ++ '.' :: fraction)) = _ :=
    Number.real?_point Number.isDigit_zero digits (List.cons_ne_nil _ _)
  rw [List.singleton_append, List.singleton_append, Number.digitsValue_zero,
    Number.Decimal.toDouble_fraction small short] at read
  have pos : 0 < 10 ^ fraction.length := Nat.pow_pos (by decide)
  have count : digitsValue fraction * 10 ^ (9 - fraction.length) * 10 ^ fraction.length =
      digitsValue fraction * 1000000000 := by
    rw [Nat.mul_assoc, ← Nat.pow_add, Nat.sub_add_cancel short]
  obtain ⟨finite, rounded⟩ := round_times pos small.le count
  have inside := share_finite pos small.le
  have noSign : double.nearest ⟨digitsValue fraction, 10 ^ fraction.length⟩ < double.signBit :=
    inside.trans Number.Format.infinity_lt_signBit
  rw [readNanos, Number.readReal, written, read]
  dsimp only
  rw [Number.Format.magnitude_withSign noSign, Number.Format.isNegative_withSign noSign, if_neg inside.ne,
    if_neg finite.ne, rounded]
  rfl

namespace Duration

section Text

variable {negative : Bool} {n : ℕ} {fraction : List Char}

theorem point_not_mem (negative : Bool) (n : ℕ) : '.' ∉ withMinus negative (Nat.toDigits 10 n) := by
  have digits : '.' ∉ Nat.toDigits 10 n := fun member =>
    absurd (Number.isDigit_of_mem_toDigits member) (by decide)
  cases negative with
  | true => simpa [withMinus] using digits
  | false => exact digits

theorem head?_withMinus (negative : Bool) (n : ℕ) (rest : List Char) :
    (withMinus negative (Nat.toDigits 10 n) ++ rest).head? = some '-' ↔ negative = true := by
  cases negative with
  | true => exact iff_of_true rfl rfl
  | false =>
    obtain ⟨c, cs, digits⟩ := List.exists_cons_of_ne_nil (Nat.toDigits_ne_nil (b := 10) (n := n))
    have first : isDigit c = true := Number.isDigit_of_mem_toDigits (digits ▸ List.mem_cons_self)
    refine iff_of_false ?_ nofun
    rw [withMinus, if_neg nofun, digits]
    rintro ⟨⟩
    exact absurd first (by decide)

/-- A whole number of seconds with at most nine digits after the point is read as exactly that. -/
theorem ofCodes_text (few : n < 10 ^ Number.maxDigits) (digits : ∀ c ∈ fraction, isDigit c = true)
    (short : fraction.length ≤ 9) {codes : CodePoints}
    (written : codes = (withMinus negative (Nat.toDigits 10 n) ++ '.' :: fraction ++ ['s']).map Char.toNat) :
    ofCodes codes = (validate ⟨signedBy negative n,
      signedBy negative (digitsValue fraction * 10 ^ (9 - fraction.length))⟩).mapError
        fun e => .content codes.toText (.invalid e) := by
  have last : codes.getLast? = some 's'.toNat := by
    rw [written, List.map_append, List.map_singleton, List.getLast?_concat]
  have body :
      codes.dropLast = (withMinus negative (Nat.toDigits 10 n) ++ '.' :: fraction).map Char.toNat := by
    rw [written, List.map_append, List.map_singleton, List.dropLast_concat]
  have parts :
      CodePoints.cut '.' ((withMinus negative (Nat.toDigits 10 n) ++ '.' :: fraction).map Char.toNat) =
        ((withMinus negative (Nat.toDigits 10 n)).map Char.toNat, fraction.map Char.toNat) :=
    Text.CodePoints.cut_map_toNat (point_not_mem negative n)
  have point : CodePoints.has '.' codes.dropLast = true := by
    rw [body, Text.CodePoints.has_map_toNat]
    simp
  have head : codes.head? = some '-'.toNat ↔ negative = true := by
    rw [written, List.append_assoc, List.head?_map, ← head?_withMinus negative n ('.' :: fraction ++ ['s'])]
    constructor
    · intro same
      obtain ⟨c, first, isMinus⟩ := Option.map_eq_some_iff.mp same
      rw [first, Char.toNat_inj.mp isMinus]
    · intro same
      rw [same]
      rfl
  have seconds : Number.readInteger ((withMinus negative (Nat.toDigits 10 n)).map Char.toNat) =
      .ok (signedBy negative n) := by
    rw [Number.readInteger_printed (Text.CodePoints.chars_map_toNat _), if_pos few]
  have nanos : readNanos (.ofText ((if codes.head? = some '-'.toNat then "-" else "") ++ "0.") ++
      fraction.map Char.toNat) =
      .ok (signedBy negative (digitsValue fraction * 10 ^ (9 - fraction.length))) := by
    refine readNanos_fraction ?_ digits short
    simp only [head]
    cases negative with
    | true => exact Text.CodePoints.chars_map_toNat ('-' :: '0' :: '.' :: fraction)
    | false => exact Text.CodePoints.chars_map_toNat ('0' :: '.' :: fraction)
  rw [ofCodes, if_neg (not_not.mpr last)]
  dsimp only
  rw [body] at point ⊢
  rw [parts, point]
  dsimp only
  rw [seconds, nanos]
  rfl

end Text

structure InRange (d : Duration) : Prop extends d.OneSigned where
  least : -315576000000 ≤ d.seconds
  most : d.seconds ≤ 315576000000

theorem validate_eq_ok {d e : Duration} : validate d = .ok e ↔ e = d ∧ d.InRange := by
  simp only [validate, Result.unless_eq_ok, Except.ok.injEq, not_or, not_and]
  constructor
  · rintro ⟨seconds, nanos, signs, rfl⟩
    exact ⟨rfl, ⟨by omega, by omega, by omega⟩, by omega, by omega⟩
  · rintro ⟨rfl, ⟨signs, lower, upper⟩, least, most⟩
    exact ⟨by omega, by omega, by omega, rfl⟩

/-- The text of a duration, with nine digits after the point. -/
def text (d : Duration) : List Char :=
  withMinus (decide (d.seconds < 0 ∨ d.nanos < 0)) (Nat.toDigits 10 d.seconds.natAbs) ++
    '.' :: padded 9 d.nanos.natAbs ++ ['s']

/-- A duration is read back from its text, to the nanosecond. -/
theorem ofCodes_written {d : Duration} (inRange : d.InRange) : ofCodes (d.text.map Char.toNat) = .ok d := by
  obtain ⟨⟨signs, lower, upper⟩, least, most⟩ := inRange
  have length : (padded 9 d.nanos.natAbs).length = 9 :=
    Number.length_padded (by decide) (show d.nanos.natAbs < 10 ^ 9 by omega)
  have few : d.seconds.natAbs < 10 ^ Number.maxDigits :=
    Nat.lt_of_lt_of_le (m := 10 ^ 12) (by omega) (Nat.pow_le_pow_right (by decide) (by decide))
  have seconds : signedBy (decide (d.seconds < 0 ∨ d.nanos < 0)) d.seconds.natAbs = d.seconds := by
    simp only [signedBy, decide_eq_true_eq]
    omega
  have nanos : signedBy (decide (d.seconds < 0 ∨ d.nanos < 0)) d.nanos.natAbs = d.nanos := by
    simp only [signedBy, decide_eq_true_eq]
    omega
  rw [text, ofCodes_text few (fun _ => Number.isDigit_of_mem_padded) length.le rfl, length,
    Number.digitsValue_padded, seconds, Nat.sub_self, Nat.pow_zero, Nat.mul_one, nanos,
    validate_eq_ok.mpr ⟨rfl, ⟨signs, lower, upper⟩, least, most⟩]
  rfl

theorem inRange_of_ofCodes {codes : CodePoints} {d : Duration} (read : ofCodes codes = .ok d) : d.InRange := by
  have valid {x : Except DurationError Duration} {f : DurationError → DurationTextError} {e : Duration}
      (isValid : x = validate e) (made : x.mapError f = .ok d) : d.InRange := by
    obtain ⟨rfl, inRange⟩ := validate_eq_ok.mp (isValid ▸ Result.mapError_eq_ok.mp made)
    exact inRange
  rw [ofCodes] at read
  split at read
  · cases read
  · obtain ⟨seconds, -, read⟩ := Result.bind_eq_ok.mp read
    dsimp only at read
    split at read <;> obtain ⟨nanos, -, made⟩ := Result.bind_eq_ok.mp read
    · exact valid rfl made
    · exact valid rfl made

end Duration

end ProtoBindings.Native
