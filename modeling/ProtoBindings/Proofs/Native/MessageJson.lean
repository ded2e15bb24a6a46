import ProtoBindings.Native.MessageJson
import ProtoBindings.Proofs.Json.Text
import ProtoBindings.Proofs.Native.TimestampText
import ProtoBindings.Proofs.Native.Wrapper
import ProtoBindings.Proofs.Text.Base64

namespace ProtoBindings.Native

open Json (Value)
open Number (double single)
open Text (CodePoints)
open Wire (Bytes)

section Read

variable {value : Value} {kind : WrapperKind}

theorem readRealOf_lt {bits : Nat} (fits : ∀ given, value = .real given → given < 2 ^ 64)
    (read : readRealOf kind value = .ok bits) : bits < 2 ^ 64 := by
  have sign := Number.Format.double_signBit
  have top := Number.Format.infinity_lt_signBit
  cases value with
  | real given =>
    obtain ⟨-, -, -, made⟩ := (Result.unless_eq_ok.trans
      (and_congr_right' (Result.unless_eq_ok.trans (and_congr_right' Result.unless_eq_ok)))).mp read
    cases made
    exact fits _ rfl
  | integer n =>
    rw [readRealOf] at read
    split at read
    · cases read
    · cases read
      have most := (Number.Format.nearest_le double ⟨n.natAbs, 1⟩).trans_lt top
      have small : double.withSign (decide (n < 0)) (double.nearest ⟨n.natAbs, 1⟩) < 2 * double.signBit :=
        Number.Format.withSign_lt most
      omega
  | truth b =>
    cases read
    have one := (Number.Format.nearest_le double ⟨1, 1⟩).trans_lt top
    split <;> omega
  | text codes =>
    rw [readRealOf] at read
    split at read
    · cases read
    split at read
    · rename_i bits found
      cases read
      exact Number.real?_lt found
    · cases read
  | null | array | object => cases read

/-- What is read from JSON is something that the wrapper can hold. -/
theorem Wrapper.ofJson_holds {w : Wrapper} (fits : ∀ given, value = .real given → given < 2 ^ 64)
    (read : Wrapper.ofJson kind value = .ok w) : w.kind = kind ∧ kind.Holds w.value := by
  have whole (isWhole : kind ∈ [.int64, .uint64, .int32, .uint32]) (read : (do
      let n ← readWhole value
      (ofInt kind n).mapError fun e => ScalarError.misfit (.range e)) = .ok w) :
      w.kind = kind ∧ kind.Holds w.value := by
    obtain ⟨n, -, fitted⟩ := Result.bind_eq_ok.mp read
    obtain ⟨rfl, holds⟩ := (ofInt_eq_ok isWhole).mp (Result.mapError_eq_ok.mp fitted)
    exact ⟨rfl, holds⟩
  cases kind with
  | double =>
    obtain ⟨bits, real, rfl⟩ := Result.map_eq_ok.mp read
    exact ⟨rfl, ofReal_holds (.inl rfl) (readRealOf_lt fits real)⟩
  | float =>
    obtain ⟨bits, real, rfl⟩ := Result.map_eq_ok.mp read
    exact ⟨rfl, ofReal_holds (.inr rfl) (readRealOf_lt fits real)⟩
  | int64 => exact whole (by decide) read
  | uint64 => exact whole (by decide) read
  | int32 => exact whole (by decide) read
  | uint32 => exact whole (by decide) read
  | bool | string | bytes =>
    obtain ⟨content, -, rfl⟩ := Result.map_eq_ok.mp read
    exact ⟨rfl, trivial⟩

end Read

def Message.kind : Message → MessageKind
  | wrapper content => .wrapper content.kind
  | timestamp _ => .timestamp
  | duration _ => .duration
  | empty => .empty
  | sourceContext _ => .sourceContext

def Message.Valid : Message → Prop
  | wrapper content => content.kind.Holds content.value
  | timestamp content => content.InRange
  | duration content => content.InRange
  | empty | sourceContext _ => True

theorem readTimestamp_inRange {value : Value} {t : Timestamp} (read : readTimestamp value = .ok t) :
    t.InRange := by
  cases value with
  | text codes => exact Timestamp.inRange_of_ofCodes (Result.mapError_eq_ok.mp read)
  | _ => cases read

theorem readDuration_inRange {value : Value} {d : Duration} (read : readDuration value = .ok d) :
    d.InRange := by
  cases value with
  | text codes => exact Duration.inRange_of_ofCodes (Result.mapError_eq_ok.mp read)
  | _ => cases read

/-- Whatever is accepted as JSON of a kind is a valid message of this kind. -/
theorem MessageKind.ofJson_valid {kind : MessageKind} {ignoreUnknown : Bool} {source : String}
    {m : Message} (read : kind.ofJson ignoreUnknown source = .ok m) : m.kind = kind ∧ m.Valid := by
  obtain ⟨value, parsed, made⟩ := Result.bind_eq_ok.mp read
  have allowed := (Json.parse_eq_ok.mp (Result.mapError_eq_ok.mp parsed)).2.2
  cases kind with
  | wrapper wrapped =>
    obtain ⟨w, found, rfl⟩ := Result.map_eq_ok.mp (Result.mapError_eq_ok.mp made)
    obtain ⟨rfl, holds⟩ := Wrapper.ofJson_holds (fun _ real => (real ▸ allowed).real_lt) found
    exact ⟨rfl, holds⟩
  | timestamp =>
    obtain ⟨t, found, rfl⟩ := Result.map_eq_ok.mp made
    exact ⟨rfl, readTimestamp_inRange found⟩
  | duration =>
    obtain ⟨d, found, rfl⟩ := Result.map_eq_ok.mp made
    exact ⟨rfl, readDuration_inRange found⟩
  | empty =>
    obtain ⟨_, -, rest⟩ := Result.bind_eq_ok.mp made
    obtain ⟨_, -, ⟨⟩⟩ := Result.bind_eq_ok.mp rest
    exact ⟨rfl, trivial⟩
  | sourceContext =>
    obtain ⟨_, -, rest⟩ := Result.bind_eq_ok.mp made
    obtain ⟨_, -, ⟨⟩⟩ := Result.bind_eq_ok.mp rest
    exact ⟨rfl, trivial⟩


theorem payload_lt (narrow : Nat) : double.infinity + (single.magnitude narrow % single.step *
    double.step / single.step ||| double.step / 2) < double.signBit := by
  have top := Number.Format.double_infinity
  have sign := Number.Format.double_signBit
  have step := Number.Format.double_step
  have half : double.step / 2 < 2 ^ 52 := by omega
  have payload : single.magnitude narrow % single.step * double.step / single.step < 2 ^ 52 := by
    rw [Nat.div_lt_iff_lt_mul single.step_pos, ← step, Nat.mul_comm]
    exact Nat.mul_lt_mul_of_pos_left (Nat.mod_lt _ single.step_pos) double.step_pos
  have kept := Nat.or_lt_two_pow payload half
  omega

theorem ofSingle_lt (narrow : Nat) : ofSingle narrow < 2 ^ 64 := by
  have sign := Number.Format.double_signBit
  have top := Number.Format.infinity_lt_signBit
  have small {m : Nat} (less : m < double.signBit) :
      double.withSign (single.isNegative narrow) m < 2 ^ 64 :=
    (Number.Format.withSign_lt less).trans_le (by omega)
  rcases Nat.lt_trichotomy (single.magnitude narrow) single.infinity with ordinary | infinite | nan
  · rw [ofSingle, Number.Format.convert_finite ordinary]
    exact small ((Number.Format.nearest_le _ _).trans_lt (by omega))
  · rw [ofSingle, Number.Format.convert_infinite infinite]
    exact small (by omega)
  · rw [ofSingle, Number.Format.convert_nan nan]
    exact small (payload_lt narrow)

theorem WrapperKind.Holds.lt {kind : WrapperKind} {bits : Nat} (holds : kind.Holds (.real bits)) :
    bits < 2 ^ 64 := by
  cases kind with
  | double => exact holds
  | float =>
    obtain ⟨narrow, -, rfl⟩ := holds
    exact ofSingle_lt narrow
  | _ => exact holds.elim

/-- A value that the wrapper can hold is not changed by its precision. -/
theorem WrapperKind.Holds.ofReal {kind : WrapperKind} {bits : Nat} (holds : kind.Holds (.real bits)) :
    Wrapper.ofReal kind bits = ⟨kind, .real bits⟩ := by
  cases kind with
  | double => rfl
  | float =>
    obtain ⟨narrow, isQuiet, rfl⟩ := holds
    have restored : toSingle (ofSingle narrow) = narrow := Number.Format.convert_convert isQuiet
    rw [Wrapper.ofReal, if_pos rfl, restored]
  | _ => exact holds.elim

theorem magnitude_ofSingle {narrow : Nat} (ordinary : single.magnitude narrow < single.infinity) :
    double.magnitude (ofSingle narrow) < double.infinity ∧
      double.number (double.magnitude (ofSingle narrow)) = single.number (single.magnitude narrow) := by
  have infinity := Number.Format.infinity_lt_signBit
  obtain ⟨m, finite, same⟩ := Number.Format.exists_double ordinary
  have there : double.nearest (single.value (single.magnitude narrow)) = m :=
    Number.Format.nearest_exact (by decide) (Number.Format.value_denominator _ _) m finite.le same
  rw [ofSingle, Number.Format.convert_finite ordinary, there,
    Number.Format.magnitude_withSign (finite.trans infinity)]
  exact ⟨finite, same⟩

/-- What is above the limit is not in single precision. -/
theorem magnitude_le_singleLimit {narrow : Nat}
    (finite : double.magnitude (ofSingle narrow) < double.infinity) :
    double.magnitude (ofSingle narrow) ≤ singleLimit := by
  have infinity := Number.Format.infinity_lt_signBit
  have ordinary : single.magnitude narrow < single.infinity := by
    rcases Nat.lt_trichotomy (single.magnitude narrow) single.infinity with ordinary | infinite | nan
    · exact ordinary
    · rw [ofSingle, Number.Format.convert_infinite infinite,
        Number.Format.magnitude_withSign infinity] at finite
      exact absurd finite (Nat.lt_irrefl _)
    · rw [ofSingle, Number.Format.convert_nan nan,
        Number.Format.magnitude_withSign (payload_lt narrow)] at finite
      exact absurd finite (Nat.not_lt.mpr (Nat.le_add_right _ _))
  have largest : single.magnitude (single.infinity - 1) = single.infinity - 1 := by decide
  obtain ⟨-, same⟩ := magnitude_ofSingle ordinary
  have inside : single.magnitude (single.infinity - 1) < single.infinity := by decide
  obtain ⟨less, most⟩ := magnitude_ofSingle inside
  have order := single.number_mono (Nat.le_sub_one_of_lt ordinary)
  rw [← same, ← largest, ← most] at order
  exact (Number.Format.le_of_number (by decide) finite.le less.le order).trans (Nat.mod_le _ _)

theorem readBareReal_finite {kind : WrapperKind} {bits : Nat} (holds : kind.Holds (.real bits))
    (finite : double.magnitude bits < double.infinity) : readBareReal kind bits = .ok bits := by
  have number : double.isNaN bits = false := decide_eq_false (by omega)
  have noInfinity : double.isInfinite bits = false := beq_eq_false_iff_ne.mpr finite.ne
  have inside : ¬ (kind = .float ∧ singleLimit < double.magnitude bits) := by
    rintro ⟨rfl, beyond⟩
    obtain ⟨narrow, -, rfl⟩ := holds
    exact absurd beyond (Nat.not_lt.mpr (magnitude_le_singleLimit finite))
  rw [readBareReal, number, noInfinity, if_neg inside]
  rfl

/-- A text of the standard alphabet with its padding. -/
def base64Text (content : Bytes) : String :=
  .ofList (Text.Base64.written Text.Base64.standardDigit content ++
    List.replicate ((3 - content.length % 3) % 3) '=')

def infinityText (negative : Bool) : String := if negative then "-Infinity" else "Infinity"

def realValue (bits : Nat) : Value :=
  if double.isInfinite bits then .text (.ofText (infinityText (double.isNegative bits)))
  else .real bits

/-- What a wrapper is written as in JSON. Integers of 64 bits are texts there. -/
def Wrapper.jsonValue (w : Wrapper) : Value :=
  match w.value with
  | .number n =>
    if w.kind = .int64 ∨ w.kind = .uint64 then .text (.ofText (toString n)) else .integer n
  | .real bits => realValue bits
  | .truth b => .truth b
  | .text s => .text (.ofText s)
  | .data content => .text (.ofText (base64Text content))

/-- A NaN loses its payload in JSON. -/
def Scalar.IsOrdered : Scalar → Prop
  | .real bits => double.isNaN bits = false
  | _ => True

theorem readRealOf_realValue {kind : WrapperKind} {bits : Nat} (holds : kind.Holds (.real bits))
    (ordered : double.isNaN bits = false) :
    readRealOf kind (realValue bits) = .ok bits := by
  have most : double.magnitude bits ≤ double.infinity := Nat.not_lt.mp (of_decide_eq_false ordered)
  rw [realValue]
  split
  · rename_i infinite
    have same : double.withSign (double.isNegative bits) double.infinity = bits := by
      rw [← beq_iff_eq.mp infinite]
      exact Number.Format.withSign_magnitude (holds.lt.trans_le (by decide))
    generalize double.isNegative bits = negative at same
    subst same
    rw [readRealOf, Text.CodePoints.toText_ofText, CodePoints.ofText, Text.CodePoints.chars_map_toNat]
    have read : Number.real? (infinityText negative).toList =
        some (double.withSign negative double.infinity) := by
      cases negative <;> decide +kernel
    have other : infinityText negative ≠ "nan" := by
      cases negative <;> decide
    rw [if_neg other, read]
  · rename_i finite
    rw [Bool.not_eq_true] at finite
    exact readBareReal_finite holds (Nat.lt_of_le_of_ne most (beq_eq_false_iff_ne.mp finite))

theorem mem_toString {n : Int} {c : Char} (member : c ∈ (toString n).toList) :
    c = '-' ∨ Number.isDigit c = true := by
  rw [Number.toList_toString, Number.digitsOf, Number.withMinus] at member
  split at member
  · rcases List.mem_cons.mp member with minus | digit
    · exact .inl minus
    · exact .inr (Number.isDigit_of_mem_toDigits digit)
  · exact .inr (Number.isDigit_of_mem_toDigits member)

theorem readWhole_text {n : Int} (few : n.natAbs < 10 ^ Number.maxDigits) :
    readWhole (.text (.ofText (toString n))) = .ok n := by
  have noBlank : (toString n).toList.contains ' ' = false := by
    rw [Bool.eq_false_iff, Ne, List.contains_iff_mem]
    intro member
    rcases mem_toString member with minus | digit
    · exact absurd minus (by decide)
    · exact absurd digit (by decide)
  have read := Number.readInteger_toString (n := n) (Text.CodePoints.chars_map_toNat _)
  rw [if_pos few] at read
  rw [readWhole, Text.CodePoints.toText_ofText, noBlank, CodePoints.ofText, read]
  rfl

theorem few_digits {n : Int} (inside : n.natAbs < 10 ^ 20) : n.natAbs < 10 ^ Number.maxDigits :=
  inside.trans_le (Nat.pow_le_pow_right (by decide) (by decide))

theorem readText_ofText (s : String) : readText (.text (.ofText s)) = .ok s := by
  rw [readText, Text.CodePoints.hasHalf_ofText, Text.CodePoints.toText_ofText]
  rfl

theorem readData_base64Text (content : Bytes) :
    readData (.text (.ofText (base64Text content))) = .ok content := by
  have noHalf : ∀ code ∈ CodePoints.ofText (base64Text content), (!Text.isHalf code) = true := by
    intro code member
    have half := List.any_eq_false.mp (Text.CodePoints.hasHalf_ofText (base64Text content)) code member
    rw [Bool.not_eq_true] at half
    rw [half]
    rfl
  rw [readData, List.takeWhile_eq_self_iff.mpr noHalf, Text.CodePoints.toText_ofText, base64Text,
    Text.Base64.decode_written Text.Base64.writes_standardDigit, List.drop_length]
  rfl

/-- A wrapper is read back from what it is written as, if it is not NaN. -/
theorem Wrapper.ofJson_jsonValue {w : Wrapper} (holds : w.kind.Holds w.value)
    (ordered : w.value.IsOrdered) : Wrapper.ofJson w.kind w.jsonValue = .ok w := by
  obtain ⟨kind, value⟩ := w
  have whole {n : Int} (isWhole : kind ∈ [.int64, .uint64, .int32, .uint32])
      (holds : kind.Holds (.number n)) (read : readWhole (jsonValue ⟨kind, .number n⟩) = .ok n) :
      (do
        let n ← readWhole (jsonValue ⟨kind, .number n⟩)
        (ofInt kind n).mapError fun e => ScalarError.misfit (.range e)) = .ok ⟨kind, .number n⟩ := by
    rw [read, Result.ok_bind, (ofInt_eq_ok isWhole).mpr ⟨rfl, holds⟩]
    rfl
  have real {bits : Nat} (holds : kind.Holds (.real bits)) (ordered : double.isNaN bits = false) :
      (readRealOf kind (realValue bits)).map (ofReal kind) = .ok ⟨kind, .real bits⟩ := by
    rw [readRealOf_realValue holds ordered, Except.map, holds.ofReal]
  cases kind <;> cases value <;> try contradiction
  case double.real bits => exact real holds ordered
  case float.real bits => exact real holds ordered
  case int64.number n =>
    obtain ⟨least, most⟩ : -2 ^ 63 ≤ n ∧ n < 2 ^ 63 := holds
    exact whole (by decide) ⟨least, most⟩ (readWhole_text (few_digits (by omega)))
  case uint64.number n =>
    obtain ⟨least, most⟩ : 0 ≤ n ∧ n < 2 ^ 64 := holds
    exact whole (by decide) ⟨least, most⟩ (readWhole_text (few_digits (by omega)))
  case int32.number n => exact whole (by decide) holds rfl
  case uint32.number n => exact whole (by decide) holds rfl
  case bool.truth b => rfl
  case string.text s => exact congrArg (Except.map _) (readText_ofText s)
  case bytes.data content => exact congrArg (Except.map _) (readData_base64Text content)

theorem readFields_fileName (ignoreUnknown : Bool) (s : String) :
    readFields .sourceContext ignoreUnknown "" [(.text (.ofText "fileName"), .ok (.text (.ofText s)))] =
      .ok s := by
  have name : fieldName .sourceContext ignoreUnknown (.text (.ofText "fileName")) =
      .ok (some "fileName") := by
    rw [fieldName, Text.CodePoints.hasHalf_ofText, Text.CodePoints.toText_ofText]
    rfl
  have content : readFileName "fileName" (.text (.ofText s)) = .ok s := by
    change (readText (.text (.ofText s))).mapError _ = _
    rw [readText_ofText]
    rfl
  rw [readFields, name]
  change (readFileName "fileName" (.text (.ofText s)) >>= fun read =>
    readFields .sourceContext ignoreUnknown read []) = .ok s
  rw [content]
  rfl

def Message.jsonValue : Message → Value
  | wrapper content => content.jsonValue
  | timestamp content => .text (content.text.map Char.toNat)
  | duration content => .text (content.text.map Char.toNat)
  | empty => .object []
  | sourceContext fileName => .object [(.ofText "fileName", .text (.ofText fileName))]

def Message.IsOrdered : Message → Prop
  | wrapper content => content.value.IsOrdered
  | _ => True

variable {m : Message}

/-- A valid message is read back from what it is written as, if it is not NaN. -/
theorem MessageKind.ofJsonValue_jsonValue (valid : m.Valid) (ordered : m.IsOrdered)
    (ignoreUnknown : Bool) : m.kind.ofJsonValue ignoreUnknown m.jsonValue = .ok m := by
  cases m with
  | wrapper content =>
    have read : Wrapper.ofJson content.kind content.jsonValue = .ok content :=
      Wrapper.ofJson_jsonValue valid ordered
    rw [Message.kind, Message.jsonValue, ofJsonValue, read]
    rfl
  | timestamp content =>
    have read := Timestamp.ofCodes_written (t := content) valid
    rw [Message.kind, Message.jsonValue, ofJsonValue, readTimestamp, read]
    rfl
  | duration content =>
    have read := Duration.ofCodes_written (d := content) valid
    rw [Message.kind, Message.jsonValue, ofJsonValue, readDuration, read]
    rfl
  | empty => rfl
  | sourceContext fileName =>
    have read := readFields_fileName ignoreUnknown fileName
    rw [Message.kind, Message.jsonValue, ofJsonValue]
    change (do return Message.sourceContext (← readFields .sourceContext ignoreUnknown "" _)) = _
    rw [List.map_cons, List.map_nil, read]
    rfl

theorem Message.jsonValue_allowed (valid : m.Valid) : m.jsonValue.Allowed 0 := by
  cases m with
  | wrapper content =>
    obtain ⟨kind, value⟩ := content
    cases value with
    | number n =>
      rw [jsonValue, Wrapper.jsonValue]
      dsimp only
      split
      · exact .text
      · exact .scalar trivial
    | real bits =>
      have holds : kind.Holds (.real bits) := valid
      change (realValue bits).Allowed 0
      rw [realValue]
      split
      · exact .text
      · exact .scalar holds.lt
    | truth b => exact .scalar trivial
    | text | data => exact .text
  | timestamp | duration => exact .text
  | empty => exact .object (by decide) (by decide) nofun
  | sourceContext fileName =>
    refine .object (by decide) (by simp) ?_
    simp only [List.mem_singleton, forall_eq]
    exact .text

/-- A valid message is read from every way of writing it, if it is not NaN. -/
theorem MessageKind.ofJson_written (valid : m.Valid) (ordered : m.IsOrdered) (ignoreUnknown : Bool)
    {source : String} (written : Json.Spaced m.jsonValue.tokens source.toList) :
    m.kind.ofJson ignoreUnknown source = .ok m := by
  rw [ofJson, Json.parse_written (Message.jsonValue_allowed valid) written]
  exact ofJsonValue_jsonValue valid ordered ignoreUnknown

end ProtoBindings.Native
