import ProtoBindings.Native.MessageWire
import ProtoBindings.Proofs.Number.Real
import ProtoBindings.Proofs.Result
import ProtoBindings.Proofs.Text.Utf8
import ProtoBindings.Proofs.Wire.Scan

namespace ProtoBindings.Number

variable {bits : Nat} {n m : Int}

theorem fitSigned_eq_ok : fitSigned bits n = .ok m ↔
    n = m ∧ -(2 ^ (bits - 1) : Int) ≤ n ∧ n < 2 ^ (bits - 1) := by
  rw [fitSigned, Nat.pow_eq]
  push_cast
  split
  · rename_i inside
    exact Except.ok.injEq n m ▸ (and_iff_left inside).symm
  · rename_i outside
    exact iff_of_false nofun fun fits => outside fits.2

theorem fitUnsigned_eq_ok : fitUnsigned bits n = .ok m ↔ n = m ∧ 0 ≤ n ∧ n < 2 ^ bits := by
  rw [fitUnsigned, Nat.pow_eq]
  push_cast
  split
  · rename_i inside
    exact Except.ok.injEq n m ▸ (and_iff_left inside).symm
  · rename_i outside
    exact iff_of_false nofun fun fits => outside fits.2

end ProtoBindings.Number

namespace ProtoBindings.Native

open Number (OutOfRange fitSigned fitUnsigned)
open Number.Format (IsQuiet)
open Wire (Bytes Entry Payload Reads)

/-- What a wrapper can hold. A value of single precision is one that single precision has. -/
def WrapperKind.Holds : WrapperKind → Scalar → Prop
  | .double, .real bits => bits < 2 ^ 64
  | .float, .real bits => ∃ narrow, IsQuiet narrow ∧ bits = ofSingle narrow
  | .int64, .number n => -2 ^ 63 ≤ n ∧ n < 2 ^ 63
  | .uint64, .number n => 0 ≤ n ∧ n < 2 ^ 64
  | .int32, .number n => -2 ^ 31 ≤ n ∧ n < 2 ^ 31
  | .uint32, .number n => 0 ≤ n ∧ n < 2 ^ 32
  | .bool, .truth _ | .string, .text _ | .bytes, .data _ => True
  | _, _ => False

/-- Whole numbers are taken if they are in range, and kept as they are. -/
theorem Wrapper.ofInt_eq_ok {kind : WrapperKind} (whole : kind ∈ [.int64, .uint64, .int32, .uint32])
    {n : Int} {w : Wrapper} :
    Wrapper.ofInt kind n = .ok w ↔ w = ⟨kind, .number n⟩ ∧ kind.Holds (.number n) := by
  have made (fit : Except OutOfRange Int) {fits : Prop} (inRange : ∀ m, fit = .ok m ↔ n = m ∧ fits) :
      (fit >>= fun fitted => pure ⟨kind, .number fitted⟩) = .ok w ↔ w = ⟨kind, .number n⟩ ∧ fits := by
    simp only [Result.bind_eq_ok, Result.pure_eq_ok, inRange]
    constructor
    · rintro ⟨_, ⟨rfl, inside⟩, rfl⟩
      exact ⟨rfl, inside⟩
    · rintro ⟨rfl, inside⟩
      exact ⟨n, ⟨rfl, inside⟩, rfl⟩
  simp only [List.mem_cons, List.not_mem_nil, or_false] at whole
  rcases whole with rfl | rfl | rfl | rfl
  · exact made _ fun _ => Number.fitSigned_eq_ok
  · exact made _ fun _ => Number.fitUnsigned_eq_ok
  · exact made _ fun _ => Number.fitSigned_eq_ok
  · exact made _ fun _ => Number.fitUnsigned_eq_ok

theorem Wrapper.ofReal_holds {kind : WrapperKind} (real : kind = .double ∨ kind = .float) {bits : Nat}
    (fits : bits < 2 ^ 64) : kind.Holds (ofReal kind bits).value := by
  rcases real with rfl | rfl
  · exact fits
  · exact ⟨_, Number.Format.isQuiet_convert bits, rfl⟩

namespace MessageKind

variable {kind : MessageKind}

theorem ofWire_flatten {fields : List Bytes} {entries : List Entry}
    (written : List.Forall₂ Reads fields entries) (numbered : ∀ e ∈ entries, e.number ≠ 0)
    (texts : kind.hasText → ∀ content ∈ Wire.contentsAt 1 entries, ∃ s, Text.Utf8.encode s = content) :
    kind.ofWire fields.flatten = .ok (kind.ofEntries entries) := by
  have scanned := Wire.scan_flatten Wire.maxDepth written numbered
  have noFault : ¬ (kind.hasText ∧
      (Wire.contentsAt 1 entries).any (fun text => (Text.Utf8.decode? text).isNone) = true) := by
    rintro ⟨hasText, bad⟩
    obtain ⟨content, member, none⟩ := List.any_eq_true.mp bad
    obtain ⟨s, written⟩ := texts hasText content member
    rw [Text.Utf8.decode?_eq_some.mpr written] at none
    cases none
  rw [ofWire, scanned]
  exact (if_neg noFault).trans (if_pos rfl)

theorem ofWire_nil (kind : MessageKind) : kind.ofWire [] = .ok (kind.ofEntries []) :=
  ofWire_flatten .nil nofun nofun

/-- A message that is written as one field is read as what this field holds. -/
theorem ofWire_field {field : Bytes} {p : Payload} (reads : Reads field ⟨1, p⟩)
    (texts : kind.hasText → ∀ content, p = .bytes content → ∃ s, Text.Utf8.encode s = content) :
    kind.ofWire field = .ok (kind.ofEntries [⟨1, p⟩]) := by
  have whole := ofWire_flatten (.cons reads .nil) (by simp) fun hasText content member => by
    cases p with
    | bytes held =>
      obtain rfl : content = held := by simpa [Wire.contentsAt] using member
      exact texts hasText content rfl
    | varint | fixed64 | fixed32 => simp [Wire.contentsAt] at member
  rwa [List.flatten_singleton] at whole

/-- What is left out of the wire is what is read where there is nothing. -/
theorem ofWire_optional {omitted : Prop} [Decidable omitted] {field : Bytes} {p : Payload} {m : Message}
    (reads : ¬ omitted → Reads field ⟨1, p⟩) (absent : omitted → kind.ofEntries [] = m)
    (present : kind.ofEntries [⟨1, p⟩] = m)
    (texts : kind.hasText → ∀ content, p = .bytes content → ∃ s, Text.Utf8.encode s = content) :
    kind.ofWire (if omitted then [] else field) = .ok m := by
  split
  · rename_i missing
    rw [ofWire_nil, absent missing]
  · rename_i written
    rw [ofWire_field (reads written) texts, present]

/-- What is read is made of entries in range, and of texts if the kind has one. -/
theorem entries_of_ofWire {bytes : Bytes} {m : Message} (read : kind.ofWire bytes = .ok m) :
    ∃ entries, m = kind.ofEntries entries ∧ (∀ e ∈ entries, e.payload.Fits) ∧
      (kind.hasText → ∀ content ∈ Wire.contentsAt 1 entries, ∃ s, Text.Utf8.encode s = content) := by
  rw [ofWire] at read
  split at read
  · cases read
  · rename_i noFault
    split at read
    · cases read
      refine ⟨_, rfl, fun e => Wire.scan_fits, fun hasText content member => ?_⟩
      have valid : Text.Utf8.decode? content ≠ none := fun none =>
        noFault ⟨hasText, List.any_eq_true.mpr ⟨content, member, Option.isNone_iff_eq_none.mpr none⟩⟩
      obtain ⟨s, decoded⟩ := Option.ne_none_iff_exists'.mp valid
      exact ⟨s, Text.Utf8.decode?_eq_some.mp decoded⟩
    · cases read

end MessageKind

section Read

variable {entries : List Entry}

theorem getLast?_getD_induction {P : α → Prop} {xs : List α} {x : α} (absent : P x)
    (present : ∀ y ∈ xs, P y) : P (xs.getLast?.getD x) := by
  cases last : xs.getLast? with
  | none => exact absent
  | some y => exact present y (List.mem_of_getLast? last)

theorem lastVarint_lt (fits : ∀ e ∈ entries, e.payload.Fits) (number : Nat) :
    lastVarint number entries < 2 ^ 64 :=
  getLast?_getD_induction (P := (· < 2 ^ 64)) (by decide) fun _ member =>
    fits _ (Wire.mem_varintsAt.mp member)

theorem signed_range (bits n : Nat) :
    -2 ^ bits ≤ Wire.signed (bits + 1) n ∧ Wire.signed (bits + 1) n < 2 ^ bits := by
  have modulus : ((Nat.pow 2 (bits + 1) : Nat) : Int) = 2 ^ bits * 2 := by
    rw [Nat.pow_eq, Int.natCast_pow, Int.pow_succ]
    rfl
  have least := Int.le_bmod (x := n) (Nat.two_pow_pos (bits + 1))
  have most := Int.bmod_lt (x := n) (Nat.two_pow_pos (bits + 1))
  rw [← Nat.pow_eq, modulus] at least most
  rw [Wire.signed]
  omega

/-- What is read from the wire is something that the wrapper can hold. -/
theorem Scalar.ofEntries_holds (fits : ∀ e ∈ entries, e.payload.Fits) (kind : WrapperKind) :
    kind.Holds (.ofEntries kind entries) := by
  cases kind with
  | double =>
    exact getLast?_getD_induction (P := (· < 2 ^ 64)) (by decide) fun _ member =>
      fits _ (Wire.mem_fixed64sAt.mp member)
  | float =>
    have narrow : (Wire.fixed32sAt 1 entries).getLast?.getD 0 < 2 * Number.single.signBit :=
      getLast?_getD_induction (P := (· < 2 ^ 32)) (by decide) fun _ member =>
        fits _ (Wire.mem_fixed32sAt.mp member)
    obtain ⟨quiet, isQuiet, same⟩ := Number.Format.exists_quiet narrow
    exact ⟨quiet, isQuiet, same.symm⟩
  | int64 => exact signed_range 63 _
  | int32 => exact signed_range 31 _
  | uint64 => exact ⟨Int.natCast_nonneg _, by exact_mod_cast lastVarint_lt fits 1⟩
  | uint32 => exact ⟨Int.natCast_nonneg _, by exact_mod_cast Nat.mod_lt _ (by decide)⟩
  | bool | string | bytes => trivial

end Read

/-- Sizes that the wire has room for. -/
def Scalar.IsShort : Scalar → Prop
  | .text s => (Text.Utf8.encode s).length < 2 ^ 31
  | .data content => content.length < 2 ^ 31
  | _ => True

theorem lastContent_length {entries : List Entry} (fits : ∀ e ∈ entries, e.payload.Fits) (number : Nat) :
    (lastContent number entries).length < 2 ^ 31 :=
  getLast?_getD_induction (P := fun content => content.length < 2 ^ 31) (by decide) fun _ member =>
    fits _ (Wire.mem_contentsAt.mp member)

theorem Scalar.ofEntries_isShort {entries : List Entry} {kind : WrapperKind}
    (fits : ∀ e ∈ entries, e.payload.Fits) (texts : (MessageKind.wrapper kind).hasText →
      ∀ content ∈ Wire.contentsAt 1 entries, ∃ s, Text.Utf8.encode s = content) :
    (Scalar.ofEntries kind entries).IsShort := by
  cases kind with
  | string =>
    have written : ∃ s, Text.Utf8.encode s = lastContent 1 entries :=
      getLast?_getD_induction (P := fun content => ∃ s, Text.Utf8.encode s = content)
        ⟨"", Text.Utf8.encode_eq ""⟩ (texts rfl)
    obtain ⟨s, same⟩ := written
    have short := lastContent_length fits 1
    rw [← same] at short
    rwa [ofEntries, ← same, Text.Utf8.decodeDropping_encode]
  | bytes => exact lastContent_length fits 1
  | double | float | int64 | uint64 | int32 | uint32 | bool => trivial

theorem signed_wrapped {bits : Nat} {n : Int} (divides : (2 ^ bits : Int) ∣ 18446744073709551616)
    (least : -2 ^ bits ≤ n * 2) (most : n * 2 < 2 ^ bits) :
    Wire.signed bits (n % 18446744073709551616).toNat = n := by
  have modulus : ((Nat.pow 2 bits : Nat) : Int) = 2 ^ bits := Int.natCast_pow 2 bits
  rw [← modulus] at divides least most
  rw [Wire.signed, Int.toNat_of_nonneg (Int.emod_nonneg n (by decide)), Int.bmod_def,
    Int.emod_emod_of_dvd n divides, ← Int.bmod_def]
  exact Int.bmod_eq_of_le_mul_two least most

namespace Wrapper

theorem ofWire_number {kind : WrapperKind} {n : Int} (noText : (MessageKind.wrapper kind).hasText = false)
    (absent : Scalar.ofEntries kind [] = .number 0)
    (present : Scalar.ofEntries kind [⟨1, .varint (n % 18446744073709551616).toNat⟩] = .number n) :
    (MessageKind.wrapper kind).ofWire (toWire ⟨kind, .number n⟩) = .ok (.wrapper ⟨kind, .number n⟩) := by
  refine MessageKind.ofWire_optional (fun _ => Wire.reads_varintField (by decide) (by omega)) ?_ ?_ ?_
  · rintro rfl
    rw [MessageKind.ofEntries, absent]
  · rw [MessageKind.ofEntries, present]
  · intro hasText
    rw [noText] at hasText
    cases hasText

/-- A wrapper is read back from the wire as it was written. -/
theorem ofWire_toWire {w : Wrapper} (holds : w.kind.Holds w.value) (short : w.value.IsShort) :
    (MessageKind.wrapper w.kind).ofWire w.toWire = .ok (.wrapper w) := by
  obtain ⟨kind, value⟩ := w
  cases kind <;> cases value <;> try contradiction
  case double.real bits =>
    have fits : bits < 256 ^ 8 := holds
    refine MessageKind.ofWire_optional (fun _ => Wire.reads_fixed64 (by decide) fits) ?_ rfl nofun
    rintro rfl
    rfl
  case float.real bits =>
    -- The value is kept as a double, so the way to the wire narrows what the way back widens.
    obtain ⟨narrow, isQuiet, rfl⟩ := holds
    have restored : toSingle (ofSingle narrow) = narrow := Number.Format.convert_convert isQuiet
    have fits : narrow < 256 ^ 4 := isQuiet.fits
    have zero : ofSingle 0 = 0 := by decide +kernel
    refine MessageKind.ofWire_optional (p := .fixed32 narrow) (fun _ => ?_) ?_ rfl nofun
    · rw [if_pos rfl, restored]
      exact Wire.reads_fixed32 (by decide) fits
    · intro none
      rw [none]
      exact congrArg (fun bits => Message.wrapper ⟨.float, .real bits⟩) zero
  case int64.number n =>
    obtain ⟨least, most⟩ : -2 ^ 63 ≤ n ∧ n < 2 ^ 63 := holds
    exact ofWire_number rfl rfl (congrArg Scalar.number (signed_wrapped (by decide) (by omega) (by omega)))
  case uint64.number n =>
    obtain ⟨least, most⟩ : 0 ≤ n ∧ n < 2 ^ 64 := holds
    have kept : ((n % 18446744073709551616).toNat : Int) = n := by omega
    exact ofWire_number rfl rfl (congrArg Scalar.number kept)
  case int32.number n =>
    obtain ⟨least, most⟩ : -2 ^ 31 ≤ n ∧ n < 2 ^ 31 := holds
    exact ofWire_number rfl rfl (congrArg Scalar.number (signed_wrapped (by decide) (by omega) (by omega)))
  case uint32.number n =>
    obtain ⟨least, most⟩ : 0 ≤ n ∧ n < 2 ^ 32 := holds
    have kept : (((n % 18446744073709551616).toNat % 4294967296 : Nat) : Int) = n := by omega
    exact ofWire_number rfl rfl (congrArg Scalar.number kept)
  case bool.truth b =>
    cases b
    · exact MessageKind.ofWire_nil _
    · exact MessageKind.ofWire_field (Wire.reads_varintField (by decide) (by decide)) nofun
  case string.text s =>
    have size : (Text.Utf8.encode s).length < 2147483648 := short
    have kept (s : String) := congrArg (fun s => Message.wrapper ⟨.string, .text s⟩)
      (Text.Utf8.decodeDropping_encode s)
    refine MessageKind.ofWire_optional (fun _ => Wire.reads_contentField (by decide) size) ?_ (kept s) ?_
    · rintro rfl
      have nothing := kept ""
      rwa [show Text.Utf8.encode "" = [] from Text.Utf8.encode_eq ""] at nothing
    · rintro - _ ⟨⟩
      exact ⟨s, rfl⟩
  case bytes.data content =>
    have size : content.length < 2147483648 := short
    refine MessageKind.ofWire_optional (fun _ => Wire.reads_contentField (by decide) size) ?_ rfl nofun
    rintro rfl
    rfl

/-- What is read from the wire, however it was written, is written so that it is read again. -/
theorem ofWire_toWire_of_ofWire {kind : WrapperKind} {bytes : Bytes} {m : Message}
    (read : (MessageKind.wrapper kind).ofWire bytes = .ok m) :
    ∃ w : Wrapper, m = .wrapper w ∧ w.kind = kind ∧ kind.Holds w.value ∧
      (MessageKind.wrapper kind).ofWire w.toWire = .ok (.wrapper w) := by
  obtain ⟨entries, rfl, fits, texts⟩ := MessageKind.entries_of_ofWire read
  have holds := Scalar.ofEntries_holds fits kind
  have again := ofWire_toWire (w := ⟨kind, _⟩) holds (Scalar.ofEntries_isShort fits texts)
  exact ⟨_, rfl, rfl, holds, again⟩

end Wrapper

end ProtoBindings.Native
