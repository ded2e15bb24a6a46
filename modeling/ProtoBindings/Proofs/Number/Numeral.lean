import Mathlib.Data.List.TakeWhile
import ProtoBindings.Number.Numeral
import ProtoBindings.Proofs.Number.Real

namespace ProtoBindings.Number

variable {n : Nat} {c : Char} {cs : List Char}

theorem isDigit_iff : isDigit c = true ↔ 48 ≤ c.toNat ∧ c.toNat ≤ 57 := by
  rw [isDigit, Bool.and_eq_true, decide_eq_true_eq, decide_eq_true_eq]
  exact Iff.rfl

theorem isDigit_of_mem_toDigits (member : c ∈ Nat.toDigits 10 n) : isDigit c = true := by
  have digit := Nat.isDigit_of_mem_toDigits (by decide) (by decide) member
  rw [Char.isDigit, Bool.and_eq_true, decide_eq_true_eq, decide_eq_true_eq] at digit
  exact isDigit_iff.mpr digit

theorem digitsValue_toDigits (n : Nat) : digitsValue (Nat.toDigits 10 n) = n := by
  have value : digitsValue (Nat.toDigits 10 n) = Nat.ofDigitChars 10 (Nat.toDigits 10 n) 0 := by
    simp only [digitsValue, Nat.ofDigitChars, Nat.mul_comm]
  rw [value, Nat.ofDigitChars_ten_toDigits]

theorem digitsValue_append (front back : List Char) :
    digitsValue (front ++ back) = digitsValue front * 10 ^ back.length + digitsValue back := by
  induction back using List.reverseRecOn with
  | nil => simp [digitsValue]
  | append_singleton back c ih =>
    have last (cs : List Char) : digitsValue (cs ++ [c]) = digitsValue cs * 10 + (c.toNat - '0'.toNat) := by
      rw [digitsValue, List.foldl_append]
      rfl
    rw [← List.append_assoc, last, last, ih, List.length_append, List.length_singleton, Nat.pow_succ]
    ring

theorem digitsValue_zero : digitsValue ('0' :: cs) = digitsValue cs := rfl

theorem digitsValue_zeros (k : Nat) (cs : List Char) :
    digitsValue (List.replicate k '0' ++ cs) = digitsValue cs := by
  induction k with
  | zero => rfl
  | succ k ih => rw [List.replicate_succ, List.cons_append, digitsValue_zero, ih]

theorem digitsValue_append_zeros (cs : List Char) (k : Nat) :
    digitsValue (cs ++ List.replicate k '0') = digitsValue cs * 10 ^ k := by
  have none : digitsValue (List.replicate k '0') = 0 := by
    rw [← List.append_nil (List.replicate k '0'), digitsValue_zeros]
    rfl
  rw [digitsValue_append, none, List.length_replicate, Nat.add_zero]

/-- The digits of a number after as many zeros as make up the width. -/
def padded (width n : Nat) : List Char :=
  List.replicate (width - (Nat.toDigits 10 n).length) '0' ++ Nat.toDigits 10 n

theorem digitsValue_padded (width n : Nat) : digitsValue (padded width n) = n := by
  rw [padded, digitsValue_zeros, digitsValue_toDigits]

theorem isDigit_zero : ∀ c ∈ ['0'], isDigit c = true :=
  List.forall_mem_singleton.mpr rfl

theorem isDigit_of_mem_zeros {k : Nat} (member : c ∈ List.replicate k '0') : isDigit c = true := by
  rw [List.eq_of_mem_replicate member]
  decide

theorem isDigit_of_mem_padded {width : Nat} (member : c ∈ padded width n) : isDigit c = true :=
  (List.mem_append.mp member).elim isDigit_of_mem_zeros isDigit_of_mem_toDigits

theorem length_padded {width : Nat} (positive : 0 < width) (small : n < 10 ^ width) :
    (padded width n).length = width := by
  have length := (Nat.length_toDigits_le_iff (by decide) positive).mpr small
  rw [padded, List.length_append, List.length_replicate, Nat.sub_add_cancel length]

theorem digits?_toDigits (n : Nat) : digits? (Nat.toDigits 10 n) = some n := by
  have digits : (Nat.toDigits 10 n).all isDigit = true :=
    List.all_eq_true.mpr fun _ => isDigit_of_mem_toDigits
  rw [digits?, if_pos ⟨Nat.toDigits_ne_nil, digits⟩, digitsValue_toDigits]

def signedBy (negative : Bool) (n : Nat) : Int := if negative then -n else n

theorem signedBy_natAbs (n : Int) : signedBy (decide (n < 0)) n.natAbs = n := by
  simp only [signedBy, decide_eq_true_eq]
  omega

def withMinus (negative : Bool) (digits : List Char) : List Char :=
  if negative then '-' :: digits else digits

theorem withMinus_append (negative : Bool) (front back : List Char) :
    withMinus negative (front ++ back) = withMinus negative front ++ back := by
  cases negative <;> rfl

/-- The decimal digits of a number, after a minus if it is negative. -/
def digitsOf (n : Int) : List Char := withMinus (decide (n < 0)) (Nat.toDigits 10 n.natAbs)

theorem toList_toString (n : Int) : (toString n).toList = digitsOf n := by
  cases n with
  | ofNat m =>
    have positive : ¬ Int.ofNat m < 0 := Int.not_lt.mpr (Int.natCast_nonneg m)
    rw [digitsOf, decide_eq_false positive]
    exact Nat.toList_repr
  | negSucc m =>
    rw [digitsOf, decide_eq_true (Int.negSucc_lt_zero m)]
    exact (String.toList_append ..).trans (congrArg ('-' :: ·) Nat.toList_repr)

theorem takeSign_digit (digit : isDigit c = true) : takeSign (c :: cs) = (false, c :: cs) := by
  rw [takeSign.eq_def]
  split
  · rename_i same
    cases same
    exact absurd digit (by decide)
  · rename_i same
    cases same
    exact absurd digit (by decide)
  · rfl

theorem takeSign_withMinus (negative : Bool) (digit : isDigit c = true) :
    takeSign (withMinus negative (c :: cs)) = (negative, c :: cs) := by
  cases negative with
  | true => rfl
  | false => exact takeSign_digit digit

theorem signed?_withMinus (negative : Bool) (n : Nat) :
    signed? (withMinus negative (Nat.toDigits 10 n)) = some (signedBy negative n) := by
  obtain ⟨c, cs, digits⟩ := List.exists_cons_of_ne_nil (Nat.toDigits_ne_nil (b := 10) (n := n))
  have first : isDigit c = true := isDigit_of_mem_toDigits (digits ▸ List.mem_cons_self)
  rw [signed?, digits, takeSign_withMinus negative first]
  dsimp only
  rw [← digits, digits?_toDigits]
  rfl

/-- What a numeral keeps as it is. -/
structure IsPlain (c : Char) : Prop where
  ascii : c.toNat < 128
  shown : isNumeralBlank c = false
  noJoint : c ≠ '_'

theorem IsPlain.plainDigit_eq (plain : IsPlain c) : plainDigit c = c := by
  have table : ∀ code : Fin 128, plainDigit (Char.ofNat code) = Char.ofNat code := by decide +kernel
  have entry := table ⟨c.toNat, plain.ascii⟩
  rwa [Char.ofNat_toNat] at entry

theorem joinDigits_eq (noJoint : '_' ∉ cs) : joinDigits cs = cs := by
  fun_induction joinDigits cs with
  | case1 | case2 => simp at noJoint
  | case3 a rest _ ih => rw [ih (List.not_mem_of_not_mem_cons noJoint)]
  | case4 => rfl

theorem dropWhile_eq_self {p : Char → Bool} (none : ∀ c ∈ cs, p c = false) : cs.dropWhile p = cs := by
  cases cs with
  | nil => rfl
  | cons c rest => exact List.dropWhile_cons_of_neg (by simp [none c List.mem_cons_self])

theorem plainNumeral_eq (all : ∀ c ∈ cs, IsPlain c) : plainNumeral cs = cs := by
  have shown (c : Char) (member : c ∈ cs) : isNumeralBlank c = false := (all c member).shown
  have noJoint : '_' ∉ cs := fun member => (all '_' member).noJoint rfl
  rw [plainNumeral, dropWhile_eq_self shown,
    dropWhile_eq_self fun c member => shown c (List.mem_reverse.mp member), List.reverse_reverse,
    List.map_congr_left fun c member => (all c member).plainDigit_eq, List.map_id', joinDigits_eq noJoint]

theorem isPlain_of_isDigit (digit : isDigit c = true) : IsPlain c := by
  have ascii : c.toNat < 128 := by
    have := isDigit_iff.mp digit
    omega
  have table : ∀ code : Fin 128, isDigit (Char.ofNat code) = true →
      isNumeralBlank (Char.ofNat code) = false ∧ Char.ofNat code ≠ '_' := by decide +kernel
  have entry := table ⟨c.toNat, ascii⟩
  rw [Char.ofNat_toNat] at entry
  obtain ⟨shown, noJoint⟩ := entry digit
  exact ⟨ascii, shown, noJoint⟩

theorem isPlain_withMinus {negative : Bool} (all : ∀ c ∈ cs, IsPlain c) (member : c ∈ withMinus negative cs) :
    IsPlain c := by
  cases negative with
  | true =>
    rcases List.mem_cons.mp member with rfl | member
    · exact ⟨by decide, by decide, by decide⟩
    · exact all c member
  | false => exact all c member

theorem integer?_digits (present : cs ≠ []) (digits : ∀ c ∈ cs, isDigit c = true) :
    integer? cs = some (digitsValue cs : Int) := by
  obtain ⟨c, rest, rfl⟩ := List.exists_cons_of_ne_nil present
  rw [integer?, plainNumeral_eq fun d member => isPlain_of_isDigit (digits d member), signed?,
    takeSign_digit (digits c List.mem_cons_self)]
  dsimp only
  rw [digits?, if_pos ⟨present, List.all_eq_true.mpr digits⟩]
  rfl

theorem readInteger_digits {text : Text.CodePoints} (written : text.chars = cs) (present : cs ≠ [])
    (digits : ∀ c ∈ cs, isDigit c = true) (few : cs.length ≤ maxDigits) :
    readInteger text = .ok (digitsValue cs : Int) := by
  have read := integer?_digits present digits
  have all : cs.takeWhile isDigit = cs := List.takeWhile_eq_self_iff.mpr digits
  have length : leadingDigits cs = cs.length := by
    obtain ⟨c, rest, rfl⟩ := List.exists_cons_of_ne_nil present
    rw [leadingDigits, takeSign_digit (digits c List.mem_cons_self)]
    dsimp only
    rw [all, List.drop_length]
    rfl
  rw [readInteger, written, plainNumeral_eq fun d member => isPlain_of_isDigit (digits d member), length,
    if_neg (Nat.not_lt.mpr few), read]

section Printed

variable (negative : Bool) (n : Nat)

theorem plainNumeral_printed :
    plainNumeral (withMinus negative (Nat.toDigits 10 n)) = withMinus negative (Nat.toDigits 10 n) :=
  plainNumeral_eq fun _ => isPlain_withMinus fun _ digit => isPlain_of_isDigit (isDigit_of_mem_toDigits digit)

theorem integer?_printed : integer? (withMinus negative (Nat.toDigits 10 n)) = some (signedBy negative n) := by
  rw [integer?, plainNumeral_printed, signed?_withMinus]

theorem leadingDigits_printed : leadingDigits (withMinus negative (Nat.toDigits 10 n)) = decimalLength n := by
  obtain ⟨c, cs, digits⟩ := List.exists_cons_of_ne_nil (Nat.toDigits_ne_nil (b := 10) (n := n))
  have all (d : Char) (member : d ∈ c :: cs) : isDigit d = true := isDigit_of_mem_toDigits (digits ▸ member)
  rw [decimalLength, digits, leadingDigits, takeSign_withMinus negative (all c List.mem_cons_self)]
  dsimp only
  rw [List.takeWhile_eq_self_iff.mpr all, List.drop_length]
  rfl

variable {n} {negative}

/-- The digits of a number are read back as the number, if they are not too many. -/
theorem readInteger_printed {text : Text.CodePoints}
    (printed : text.chars = withMinus negative (Nat.toDigits 10 n)) : readInteger text =
      if n < 10 ^ maxDigits then .ok (signedBy negative n) else .error (.tooLong (decimalLength n)) := by
  have few : decimalLength n ≤ maxDigits ↔ n < 10 ^ maxDigits :=
    Nat.length_toDigits_le_iff (by decide) (by decide)
  rw [readInteger, printed, plainNumeral_printed, leadingDigits_printed, integer?_printed]
  split
  · rename_i many
    rw [if_neg (fun small => absurd (few.mpr small) (Nat.not_le.mpr many))]
  · rename_i short
    rw [if_pos (few.mp (Nat.not_lt.mp short))]

end Printed

theorem readInteger_toString {n : Int} {text : Text.CodePoints} (printed : text.chars = (toString n).toList) :
    readInteger text =
      if n.natAbs < 10 ^ maxDigits then .ok n else .error (.tooLong (decimalLength n.natAbs)) := by
  rw [toList_toString, digitsOf] at printed
  rw [readInteger_printed printed, signedBy_natAbs]

end ProtoBindings.Number
