import Mathlib.Algebra.Group.Nat.Defs
import Mathlib.Data.List.Forall2
import ProtoBindings.Wire.Entry

namespace ProtoBindings.Wire

section Varint

variable {n : Nat} (rest : Bytes)

theorem toNat_toUInt8 (byte : n < 256) : n.toUInt8.toNat = n := by
  rw [Nat.toUInt8, UInt8.toNat_ofNat', Nat.mod_eq_of_lt byte]

theorem readVarint_last (limit : Nat) (small : n < 128) :
    readVarint (limit + 1) (n.toUInt8 :: rest) = some (n, rest) := by
  have byte := toNat_toUInt8 (show n < 256 by omega)
  have last : n.toUInt8 < 128 := by
    rw [UInt8.lt_iff_toNat_lt, byte]
    exact small
  rw [readVarint, if_pos last, byte]

theorem readVarint_more {limit low high : Nat} {bytes after : Bytes} (small : low < 128)
    (others : readVarint limit bytes = some (high, after)) :
    readVarint (limit + 1) ((128 + low).toUInt8 :: bytes) = some (low + 128 * high, after) := by
  have byte := toNat_toUInt8 (show 128 + low < 256 by omega)
  have more : ¬ (128 + low).toUInt8 < 128 := by
    rw [UInt8.lt_iff_toNat_lt, byte]
    exact Nat.not_lt.mpr (Nat.le_add_right 128 low)
  rw [readVarint, if_neg more, others, Option.map_some, byte, Nat.add_sub_cancel_left]

theorem readVarint_varint {limit : Nat} (fits : n < 128 ^ (limit + 1)) :
    readVarint (limit + 1) (varint n ++ rest) = some (n, rest) := by
  induction limit generalizing n with
  | zero =>
    have small : n < 128 := fits
    rw [varint, if_pos small]
    exact readVarint_last rest 0 small
  | succ limit ih =>
    rw [varint]
    split
    · rename_i small
      exact readVarint_last rest _ small
    · have high : n / 128 < 128 ^ (limit + 1) := by
        rw [Nat.pow_succ] at fits
        exact Nat.div_lt_of_lt_mul (by rwa [Nat.mul_comm])
      have others := readVarint_more (Nat.mod_lt n (by decide)) (ih high)
      rwa [Nat.mod_add_div] at others

end Varint

section Field

variable {number : Nat}

theorem readTag_tag {wireType : Nat} (isType : wireType < 8) (fits : number < 536870912)
    (rest : Bytes) : readTag (tag number wireType ++ rest) = some (number, wireType, rest) := by
  have inBytes : number * 8 + wireType < 128 ^ (4 + 1) := by omega
  have inTag : number * 8 + wireType < 4294967296 := by omega
  rw [readTag, tag, tagBytes, readVarint_varint rest inBytes, Option.bind_some]
  dsimp only
  rw [if_pos inTag]
  congr 2
  · omega
  · congr 1
    omega

theorem readContent_written {content : Bytes} (fits : content.length < 2147483648) (rest : Bytes) :
    readContent (varint content.length ++ (content ++ rest)) = some (content, rest) := by
  have inBytes : content.length < 128 ^ (4 + 1) := by omega
  have within : content.length ≤ (content ++ rest).length := by
    rw [List.length_append]
    exact Nat.le_add_right _ _
  rw [readContent, tagBytes, readVarint_varint _ inBytes, Option.bind_some]
  dsimp only
  rw [if_pos ⟨fits, within⟩, List.take_left, List.drop_left]

theorem readToken_tag {wireType : Nat} (isType : wireType < 8) (fits : number < 536870912)
    (rest : Bytes) : readToken (tag number wireType ++ rest) = readPayload number wireType rest := by
  rw [readToken, readTag_tag isType fits, Option.bind_some]

/-- The bytes are read as one entry, whatever follows them. -/
def Reads (field : Bytes) (entry : Entry) : Prop :=
  ∀ rest, readToken (field ++ rest) = some (.entry entry, rest)

theorem reads_varintField {value : Nat} (numbered : number < 536870912)
    (fits : value < 18446744073709551616) :
    Reads (varintField number value) ⟨number, .varint value⟩ := by
  intro rest
  have inBytes : value < 128 ^ (9 + 1) := by omega
  rw [varintField, List.append_assoc, readToken_tag (by decide) numbered, readPayload, valueBytes,
    readVarint_varint rest inBytes, Option.map_some]
  dsimp only
  rw [Nat.mod_eq_of_lt fits]

theorem reads_contentField {content : Bytes} (numbered : number < 536870912)
    (fits : content.length < 2147483648) :
    Reads (contentField number content) ⟨number, .bytes content⟩ := by
  intro rest
  rw [contentField, List.append_assoc, List.append_assoc, readToken_tag (by decide) numbered,
    readPayload, readContent_written fits rest, Option.map_some]

theorem length_fixed (width n : Nat) : (fixed width n).length = width := by
  induction width generalizing n with
  | zero => rfl
  | succ width ih => rw [fixed, List.length_cons, ih]

theorem fixedValue_fixed {width n : Nat} (fits : n < 256 ^ width) : fixedValue (fixed width n) = n := by
  induction width generalizing n with
  | zero =>
    rw [Nat.pow_zero, Nat.lt_one_iff] at fits
    rw [fits]
    rfl
  | succ width ih =>
    have high : n / 256 < 256 ^ width := by
      rw [Nat.pow_succ] at fits
      exact Nat.div_lt_of_lt_mul (by rwa [Nat.mul_comm])
    rw [fixed, fixedValue, ih high, toNat_toUInt8 (Nat.mod_lt n (by decide)), Nat.mod_add_div]

theorem fixedValue_lt (bytes : Bytes) : fixedValue bytes < 256 ^ bytes.length := by
  induction bytes with
  | nil => decide
  | cons b rest ih =>
    have byte := b.toNat_lt
    rw [fixedValue, List.length_cons, Nat.pow_succ]
    omega

theorem readFixed_fixed {width n : Nat} (fits : n < 256 ^ width) (rest : Bytes) :
    readFixed width (fixed width n ++ rest) = some (n, rest) := by
  have length := length_fixed width n
  have enough : ¬ (fixed width n ++ rest).length < width := by
    rw [List.length_append, length]
    omega
  rw [readFixed, if_neg enough, List.take_left' length, List.drop_left' length, fixedValue_fixed fits]

theorem reads_fixed64 {n : Nat} (numbered : number < 536870912) (fits : n < 256 ^ 8) :
    Reads (tag number 1 ++ fixed 8 n) ⟨number, .fixed64 n⟩ := by
  intro rest
  rw [List.append_assoc, readToken_tag (by decide) numbered, readPayload, readFixed_fixed fits,
    Option.map_some]

theorem reads_fixed32 {n : Nat} (numbered : number < 536870912) (fits : n < 256 ^ 4) :
    Reads (tag number 5 ++ fixed 4 n) ⟨number, .fixed32 n⟩ := by
  intro rest
  rw [List.append_assoc, readToken_tag (by decide) numbered, readPayload, readFixed_fixed fits,
    Option.map_some]

end Field

section Message

theorem scanTokens_cons {bytes rest : Bytes} {token : Token}
    (found : readToken bytes = some (token, rest)) :
    scanTokens bytes = ⟨token :: (scanTokens rest).items, (scanTokens rest).complete⟩ := by
  have present : bytes ≠ [] := by
    rintro rfl
    cases found
  rw [scanTokens, if_neg present]
  split
  · rename_i none
    rw [found] at none
    cases none
  · rename_i other after same
    rw [found] at same
    cases same
    rfl

theorem scanTokens_flatten {fields : List Bytes} {entries : List Entry}
    (written : List.Forall₂ Reads fields entries) :
    scanTokens fields.flatten = ⟨entries.map .entry, true⟩ := by
  induction written with
  | nil => rw [List.flatten_nil, scanTokens, if_pos rfl]; rfl
  | cons first _ ih =>
    rw [List.flatten_cons, scanTokens_cons (first _), ih]
    rfl

theorem outsideGroups_entries (depth : Nat) {entries : List Entry}
    (numbered : ∀ e ∈ entries, e.number ≠ 0) :
    outsideGroups depth true [] (entries.map .entry) = ⟨entries, true⟩ := by
  induction entries with
  | nil => rfl
  | cons e rest ih =>
    have first : e.number ≠ 0 := numbered e List.mem_cons_self
    have others := ih fun other isOther => numbered other (List.mem_cons_of_mem _ isOther)
    rw [List.map_cons, outsideGroups, if_neg first, others]

/-- A message of fields is read as their entries, in order. -/
theorem scan_flatten (depth : Nat) {fields : List Bytes} {entries : List Entry}
    (written : List.Forall₂ Reads fields entries) (numbered : ∀ e ∈ entries, e.number ≠ 0) :
    scan depth fields.flatten = ⟨entries, true⟩ := by
  rw [scan, scanTokens_flatten written]
  exact outsideGroups_entries depth numbered

end Message

end ProtoBindings.Wire
