import Mathlib.Data.List.Basic
import Mathlib.Data.Nat.Notation
import ProtoBindings.Text.Base64

namespace ProtoBindings.Text.Base64

open Wire (Bytes)

/-- Characters for the numbers below 64, each read as its number. -/
def Writes (digit : Nat → Char) : Prop := ∀ n < 64, digit? (digit n) = some n

def standardDigit (n : Nat) : Char :=
  "ABCDEFGHIJKLMNOPQRSTUVWXYZabcdefghijklmnopqrstuvwxyz0123456789+/".toList.getD n '='

def urlDigit (n : Nat) : Char :=
  "ABCDEFGHIJKLMNOPQRSTUVWXYZabcdefghijklmnopqrstuvwxyz0123456789-_".toList.getD n '='

theorem writes_standardDigit : Writes standardDigit := by
  unfold Writes
  decide +kernel

theorem writes_urlDigit : Writes urlDigit := by
  unfold Writes
  decide +kernel

/-- Four digits for three bytes, and for one or two bytes at the end two or three. -/
def written (digit : Nat → Char) : Bytes → List Char
  | a :: b :: c :: rest =>
    digit (a.toNat / 4) :: digit (a.toNat % 4 * 16 + b.toNat / 16) ::
      digit (b.toNat % 16 * 4 + c.toNat / 64) :: digit (c.toNat % 64) :: written digit rest
  | [a, b] =>
    [digit (a.toNat / 4), digit (a.toNat % 4 * 16 + b.toNat / 16), digit (b.toNat % 16 * 4)]
  | [a] => [digit (a.toNat / 4), digit (a.toNat % 4 * 16)]
  | [] => []

variable {digit : Nat → Char} {c : Char} {group : List Nat} {count n pads : Nat} {rest : List Char}

theorem ne_padding (isDigit : digit? c = some n) : c ≠ '=' := by
  rintro rfl
  cases isDigit

theorem read_digit (isDigit : digit? c = some n) (short : group.length < 3) :
    read count group pads (c :: rest) = read (count + 1) (group ++ [n]) 0 rest := by
  match group, short with
  | [], _ | [_], _ | [_, _], _ => simp [read, ne_padding isDigit, isDigit]

theorem read_fourth {a b d : Nat} (isDigit : digit? c = some n) :
    read count [a, b, d] pads (c :: rest) = (read (count + 1) [] 0 rest).map fun later =>
      (a * 4 + b / 16).toUInt8 :: (b % 16 * 16 + d / 4).toUInt8 :: (d % 4 * 64 + n).toUInt8 :: later := by
  simp [read, ne_padding isDigit, isDigit]

theorem read_padding : read count [] 0 (List.replicate pads '=') = .ok [] := by
  induction pads with
  | zero => rfl
  | succ pads ih => simp [List.replicate_succ, read, ih]

theorem toUInt8_eq {a : UInt8} (value : n = a.toNat) : n.toUInt8 = a := by
  rw [value]
  exact UInt8.ofNat_toNat

theorem read_two_left {a b : Nat} :
    read count [a, b] 0 (List.replicate (pads + 2) '=') = .ok [(a * 4 + b / 16).toUInt8] := by
  simp [List.replicate_succ, read]

theorem read_three_left {a b d : Nat} : read count [a, b, d] 0 (List.replicate (pads + 1) '=') =
    .ok [(a * 4 + b / 16).toUInt8, (b % 16 * 16 + d / 4).toUInt8] := by
  simp [List.replicate_succ, read]

/-- What is written is read back with the padding that completes the last group, and with more. -/
theorem read_written (writes : Writes digit) (bytes : Bytes) (count : Nat)
    (enough : 4 ≤ (written digit bytes).length % 4 + pads ∨ (written digit bytes).length % 4 = 0) :
    read count [] 0 (written digit bytes ++ List.replicate pads '=') = .ok bytes := by
  fun_induction written digit bytes generalizing count with
  | case1 a b c rest ih =>
    have boundA := a.toNat_lt
    have boundB := b.toNat_lt
    have boundC := c.toNat_lt
    simp only [List.cons_append]
    rw [read_digit (writes _ (by omega)) (by decide), read_digit (writes _ (by omega)) (by simp),
      read_digit (writes _ (by omega)) (by simp), List.nil_append, List.singleton_append,
      List.cons_append, List.singleton_append, read_fourth (writes _ (by omega)),
      ih _ (by simpa [Nat.add_assoc] using enough), Except.map, toUInt8_eq (a := a) (by omega),
      toUInt8_eq (a := b) (by omega), toUInt8_eq (a := c) (by omega)]
  | case2 a b =>
    have boundA := a.toNat_lt
    have boundB := b.toNat_lt
    obtain ⟨pads, rfl⟩ : ∃ more, pads = more + 1 := ⟨pads - 1, by simp at enough; omega⟩
    simp only [List.cons_append, List.nil_append]
    rw [read_digit (writes _ (by omega)) (by decide), read_digit (writes _ (by omega)) (by simp),
      read_digit (writes _ (by omega)) (by simp), List.nil_append, List.singleton_append,
      List.cons_append, List.singleton_append, read_three_left, toUInt8_eq (a := a) (by omega),
      toUInt8_eq (a := b) (by omega)]
  | case3 a =>
    have boundA := a.toNat_lt
    obtain ⟨pads, rfl⟩ : ∃ more, pads = more + 2 := ⟨pads - 2, by simp at enough; omega⟩
    simp only [List.cons_append, List.nil_append]
    rw [read_digit (writes _ (by omega)) (by decide), read_digit (writes _ (by omega)) (by simp),
      List.nil_append, List.singleton_append, read_two_left, toUInt8_eq (a := a) (by omega)]
  | case4 => exact read_padding

theorem utf8Size_digit (isDigit : digit? c = some n) : c.utf8Size = 1 := by
  refine Char.utf8Size_eq_one_iff.mpr (show c ≤ '\x7f' from ?_)
  rw [digit?] at isDigit
  split at isDigit
  · rename_i capital
    exact Char.le_trans capital.2 (by decide)
  split at isDigit
  · rename_i small
    exact Char.le_trans small.2 (by decide)
  split at isDigit
  · rename_i numeral
    exact Char.le_trans numeral.2 (by decide)
  split at isDigit
  · rename_i extra
    rcases extra with rfl | rfl <;> decide
  split at isDigit
  · rename_i extra
    rcases extra with rfl | rfl <;> decide
  · cases isDigit

theorem utf8ByteSize_ofList {cs : List Char} (each : ∀ c ∈ cs, c.utf8Size = 1) :
    (String.ofList cs).utf8ByteSize = cs.length := by
  induction cs with
  | nil => rfl
  | cons c cs ih =>
    obtain ⟨first, others⟩ := List.forall_mem_cons.mp each
    rw [String.ofList_cons, String.utf8ByteSize_append, String.utf8ByteSize_singleton, first, ih others,
      List.length_cons, Nat.add_comm]

theorem utf8Size_written (writes : Writes digit) (bytes : Bytes) :
    ∀ c ∈ written digit bytes, c.utf8Size = 1 := by
  fun_induction written digit bytes with
  | case1 a b c rest ih =>
    have boundA := a.toNat_lt
    have boundB := b.toNat_lt
    have boundC := c.toNat_lt
    simp only [List.forall_mem_cons]
    exact ⟨utf8Size_digit (writes _ (by omega)), utf8Size_digit (writes _ (by omega)),
      utf8Size_digit (writes _ (by omega)), utf8Size_digit (writes _ (by omega)), ih⟩
  | case2 a b =>
    have boundA := a.toNat_lt
    have boundB := b.toNat_lt
    simp only [List.forall_mem_cons]
    exact ⟨utf8Size_digit (writes _ (by omega)), utf8Size_digit (writes _ (by omega)),
      utf8Size_digit (writes _ (by omega)), by simp⟩
  | case3 a =>
    have boundA := a.toNat_lt
    simp only [List.forall_mem_cons]
    exact ⟨utf8Size_digit (writes _ (by omega)), utf8Size_digit (writes _ (by omega)), by simp⟩
  | case4 => simp

/-- Texts of either alphabet are read back, with their padding, with a part of it and without it. -/
theorem decode_written (writes : Writes digit) (bytes : Bytes) (pads : Nat) :
    decode (String.ofList (written digit bytes ++ List.replicate pads '=')) = .ok bytes := by
  have each : ∀ c ∈ written digit bytes ++ List.replicate pads '=', c.utf8Size = 1 := by
    rw [List.forall_mem_append]
    refine ⟨utf8Size_written writes bytes, fun c isPad => ?_⟩
    rw [List.eq_of_mem_replicate isPad]
    decide
  rw [decode, String.toList_ofList, utf8ByteSize_ofList each, List.append_assoc,
    ← List.replicate_add]
  refine read_written writes bytes 0 ?_
  rw [List.length_append, List.length_replicate]
  omega

end ProtoBindings.Text.Base64
