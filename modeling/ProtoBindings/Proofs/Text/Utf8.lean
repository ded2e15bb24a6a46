import Mathlib.Data.List.Basic
import ProtoBindings.Text.Utf8

namespace ProtoBindings.Text.Utf8

variable {a b : UInt8} {bytes rest : Bytes} {c : Char} {cs : List Char} {least code n more : Nat} {s : String}

section Parts

theorem toNat_byte (small : n < 256) : (UInt8.ofNat n).toNat = n := by
  rw [UInt8.toNat_ofNat']
  omega

theorem continuation?_eq_some : continuation? b = some n ↔ n < 64 ∧ b = UInt8.ofNat (n + 128) := by
  simp only [continuation?, UInt8.le_iff_toNat_le, UInt8.lt_iff_toNat_lt, ← UInt8.toNat_inj,
    UInt8.reduceToNat]
  constructor
  · intro found
    split at found
    · rename_i inRange
      obtain rfl := Option.some.inj found
      rw [toNat_byte (by omega)]
      omega
    · cases found
  · rintro ⟨small, same⟩
    rw [toNat_byte (by omega)] at same
    rw [if_pos (by omega), same, Nat.add_sub_cancel]

theorem charFrom?_eq_some : charFrom? least code = some c ↔ least ≤ code ∧ c.toNat = code := by
  rw [charFrom?, Option.dite_none_right_eq_some]
  constructor
  · rintro ⟨valid, found⟩
    obtain rfl := Option.some.inj found
    exact ⟨valid.1, rfl⟩
  · rintro ⟨long, rfl⟩
    exact ⟨⟨long, c.valid⟩, rfl⟩

end Parts

section Characters

theorem encodeChar_one (small : c.toNat < 0x80) : String.utf8EncodeChar c = [UInt8.ofNat c.toNat] :=
  if_pos (Nat.le_of_lt_succ small)

theorem encodeChar_two (least : 0x80 ≤ c.toNat) (most : c.toNat < 0x800) : String.utf8EncodeChar c =
    [UInt8.ofNat (c.toNat / 0x40 + 0xC0), UInt8.ofNat (c.toNat % 0x40 + 0x80)] := by
  have high : c.toNat / 0x40 % 0x20 = c.toNat / 0x40 := by omega
  rw [← high]
  exact (if_neg (by exact Nat.not_le.mpr least)).trans (if_pos (Nat.le_of_lt_succ most))

theorem encodeChar_three (least : 0x800 ≤ c.toNat) (most : c.toNat < 0x10000) :
    String.utf8EncodeChar c = [UInt8.ofNat (c.toNat / 0x1000 + 0xE0),
      UInt8.ofNat (c.toNat / 0x40 % 0x40 + 0x80), UInt8.ofNat (c.toNat % 0x40 + 0x80)] := by
  have high : c.toNat / 0x1000 % 0x10 = c.toNat / 0x1000 := by omega
  rw [← high]
  exact (if_neg (Nat.not_le.mpr (by exact Nat.lt_of_lt_of_le (by decide) least))).trans
    ((if_neg (Nat.not_le.mpr least)).trans (if_pos (Nat.le_of_lt_succ most)))

theorem encodeChar_four (least : 0x10000 ≤ c.toNat) : String.utf8EncodeChar c =
    [UInt8.ofNat (c.toNat / 0x40000 + 0xF0), UInt8.ofNat (c.toNat / 0x1000 % 0x40 + 0x80),
      UInt8.ofNat (c.toNat / 0x40 % 0x40 + 0x80), UInt8.ofNat (c.toNat % 0x40 + 0x80)] := by
  have most : c.toNat < 0x110000 := by
    rcases c.valid with below | ⟨_, below⟩
    · exact Nat.lt_trans below (by decide)
    · exact below
  have high : c.toNat / 0x40000 % 8 = c.toNat / 0x40000 := by omega
  rw [← high]
  exact (if_neg (Nat.not_le.mpr (by exact Nat.lt_of_lt_of_le (by decide) least))).trans
    ((if_neg (Nat.not_le.mpr (by exact Nat.lt_of_lt_of_le (by decide) least))).trans
      (if_neg (Nat.not_le.mpr least)))

end Characters

section Leading

theorem eq_cons_of_head (first : bytes[0]? = some b) : ∃ tail, bytes = b :: tail := by
  cases bytes with
  | nil => cases first
  | cons a tail => exact ⟨tail, congrArg (· :: tail) (Option.some.inj first)⟩

theorem eq_byte (value : a.toNat = n) : a = UInt8.ofNat n := by
  rw [← value, UInt8.ofNat_toNat]

theorem encodeChar_byte (ascii : a.toNat < 0x80) :
    String.utf8EncodeChar (Char.ofNat a.toNat) = [a] := by
  have valid : a.toNat.isValidChar := .inl (Nat.lt_trans a.toNat_lt (by decide))
  have value : (Char.ofNat a.toNat).toNat = a.toNat := by
    rw [Char.ofNat, dif_pos valid]
    rfl
  rw [encodeChar_one (by omega), value, UInt8.ofNat_toNat]

/-- What is read as the first character is written in the bytes that are taken. -/
theorem encoded_of_leading (found : leading? bytes = some (c, more)) : ∃ rest,
    bytes = String.utf8EncodeChar c ++ rest ∧ (String.utf8EncodeChar c).length = more + 1 := by
  -- One case for each length that a first byte announces.
  cases bytes with
  | nil => cases found
  | cons a bytes =>
    simp only [leading?, UInt8.le_iff_toNat_le, UInt8.lt_iff_toNat_lt, UInt8.reduceToNat,
      Option.bind_eq_bind, Option.pure_def] at found
    split at found
    · rename_i ascii
      cases found
      exact ⟨bytes, by rw [encodeChar_byte ascii]; exact ⟨rfl, rfl⟩⟩
    split at found
    · simp only [Option.bind_eq_some_iff, Option.some.injEq, Prod.mk.injEq, charFrom?_eq_some] at found
      obtain ⟨_, first, b, isB, char, ⟨least, value⟩, rfl, rfl⟩ := found
      obtain ⟨rest, rfl⟩ := eq_cons_of_head first
      obtain ⟨smallB, rfl⟩ := continuation?_eq_some.mp isB
      have lead : a = UInt8.ofNat (char.toNat / 0x40 + 0xC0) := eq_byte (by omega)
      have last : b = char.toNat % 0x40 := by omega
      refine ⟨rest, ?_⟩
      rw [encodeChar_two (by omega) (by omega), ← lead, ← last]
      exact ⟨rfl, rfl⟩
    split at found
    · simp only [Option.bind_eq_some_iff, Option.some.injEq, Prod.mk.injEq, charFrom?_eq_some] at found
      obtain ⟨_, first, b, isB, _, second, d, isD, char, ⟨least, value⟩, rfl, rfl⟩ := found
      obtain ⟨behind, rfl⟩ := eq_cons_of_head first
      obtain ⟨rest, rfl⟩ := eq_cons_of_head (show behind[0]? = _ from second)
      obtain ⟨smallB, rfl⟩ := continuation?_eq_some.mp isB
      obtain ⟨smallD, rfl⟩ := continuation?_eq_some.mp isD
      have lead : a = UInt8.ofNat (char.toNat / 0x1000 + 0xE0) := eq_byte (by omega)
      have middle : b = char.toNat / 0x40 % 0x40 := by omega
      have last : d = char.toNat % 0x40 := by omega
      refine ⟨rest, ?_⟩
      rw [encodeChar_three (by omega) (by omega), ← lead, ← middle, ← last]
      exact ⟨rfl, rfl⟩
    split at found
    · simp only [Option.bind_eq_some_iff, Option.some.injEq, Prod.mk.injEq, charFrom?_eq_some] at found
      obtain ⟨_, first, b, isB, _, second, d, isD, _, third, e, isE, char, ⟨least, value⟩, rfl, rfl⟩ :=
        found
      obtain ⟨behind, rfl⟩ := eq_cons_of_head first
      obtain ⟨behind, rfl⟩ := eq_cons_of_head (show behind[0]? = _ from second)
      obtain ⟨rest, rfl⟩ := eq_cons_of_head (show behind[0]? = _ from third)
      obtain ⟨smallB, rfl⟩ := continuation?_eq_some.mp isB
      obtain ⟨smallD, rfl⟩ := continuation?_eq_some.mp isD
      obtain ⟨smallE, rfl⟩ := continuation?_eq_some.mp isE
      have lead : a = UInt8.ofNat (char.toNat / 0x40000 + 0xF0) := eq_byte (by omega)
      have second : b = char.toNat / 0x1000 % 0x40 := by omega
      have third : d = char.toNat / 0x40 % 0x40 := by omega
      have last : e = char.toNat % 0x40 := by omega
      refine ⟨rest, ?_⟩
      rw [encodeChar_four (by omega), ← lead, ← second, ← third, ← last]
      exact ⟨rfl, rfl⟩
    · cases found

theorem continuation?_low (small : n < 0x40) : continuation? (UInt8.ofNat (n + 0x80)) = some n :=
  continuation?_eq_some.mpr ⟨small, rfl⟩

theorem toNat_lt_max (c : Char) : c.toNat < 0x110000 := by
  rcases c.valid with below | ⟨_, below⟩
  · exact Nat.lt_trans below (by decide)
  · exact below

theorem leading?_encodeChar (c : Char) (rest : Bytes) : leading? (String.utf8EncodeChar c ++ rest) =
    some (c, (String.utf8EncodeChar c).length - 1) := by
  have most := toNat_lt_max c
  have last := continuation?_low (Nat.mod_lt c.toNat (by decide : 0x40 > 0))
  rcases Nat.lt_or_ge c.toNat 0x80 with small | large
  · have lead : (UInt8.ofNat c.toNat).toNat = c.toNat := toNat_byte (by omega)
    rw [encodeChar_one small, List.singleton_append, leading?]
    simp only [UInt8.lt_iff_toNat_lt, lead, UInt8.reduceToNat]
    rw [if_pos small, Char.ofNat_toNat]
    rfl
  rcases Nat.lt_or_ge c.toNat 0x800 with small | large'
  · have lead : (UInt8.ofNat (c.toNat / 0x40 + 0xC0)).toNat = c.toNat / 0x40 + 0xC0 :=
      toNat_byte (by omega)
    have whole : charFrom? 0x80 ((c.toNat / 0x40 + 0xC0 - 0xC0) * 0x40 + c.toNat % 0x40) = some c :=
      charFrom?_eq_some.mpr (by omega)
    rw [encodeChar_two large small, List.cons_append, leading?]
    simp only [UInt8.le_iff_toNat_le, UInt8.lt_iff_toNat_lt, lead, UInt8.reduceToNat]
    rw [if_neg (by omega), if_pos (by omega)]
    simp only [List.cons_append, List.getElem?_cons_zero, Option.bind_eq_bind, Option.bind_some, last,
      whole]
    rfl
  have middle := continuation?_low (Nat.mod_lt (c.toNat / 0x40) (by decide : 0x40 > 0))
  rcases Nat.lt_or_ge c.toNat 0x10000 with small | large''
  · have lead : (UInt8.ofNat (c.toNat / 0x1000 + 0xE0)).toNat = c.toNat / 0x1000 + 0xE0 :=
      toNat_byte (by omega)
    have whole : charFrom? 0x800 (((c.toNat / 0x1000 + 0xE0 - 0xE0) * 0x40 + c.toNat / 0x40 % 0x40) *
        0x40 + c.toNat % 0x40) = some c :=
      charFrom?_eq_some.mpr (by omega)
    rw [encodeChar_three large' small, List.cons_append, leading?]
    simp only [UInt8.le_iff_toNat_le, UInt8.lt_iff_toNat_lt, lead, UInt8.reduceToNat]
    rw [if_neg (by omega), if_neg (by omega), if_pos (by omega)]
    simp only [List.cons_append, List.getElem?_cons_zero, List.getElem?_cons_succ, Option.bind_eq_bind,
      Option.bind_some, middle, last, whole]
    rfl
  · have second := continuation?_low (Nat.mod_lt (c.toNat / 0x1000) (by decide : 0x40 > 0))
    have lead : (UInt8.ofNat (c.toNat / 0x40000 + 0xF0)).toNat = c.toNat / 0x40000 + 0xF0 :=
      toNat_byte (by omega)
    have whole : charFrom? 0x10000 ((((c.toNat / 0x40000 + 0xF0 - 0xF0) * 0x40 +
        c.toNat / 0x1000 % 0x40) * 0x40 + c.toNat / 0x40 % 0x40) * 0x40 + c.toNat % 0x40) = some c :=
      charFrom?_eq_some.mpr (by omega)
    rw [encodeChar_four large'', List.cons_append, leading?]
    simp only [UInt8.le_iff_toNat_le, UInt8.lt_iff_toNat_lt, lead, UInt8.reduceToNat]
    rw [if_neg (by omega), if_neg (by omega), if_neg (by omega), if_pos (by omega)]
    simp only [List.cons_append, List.getElem?_cons_zero, List.getElem?_cons_succ, Option.bind_eq_bind,
      Option.bind_some, second, middle, last, whole]
    rfl

end Leading

section Bytes

theorem toList_loop (bytes : ByteArray) (i : Nat) (read : List UInt8) :
    ByteArray.toList.loop bytes i read = read.reverse ++ bytes.data.toList.drop i := by
  fun_induction ByteArray.toList.loop bytes i read with
  | case1 i read inside ih =>
    have isThere : i < bytes.data.toList.length := inside
    have here : bytes.get! i = bytes.data.toList[i] := by
      rw [ByteArray.get!, getElem!_pos bytes.data i inside, Array.getElem_toList]
    rw [ih, here, List.reverse_cons, List.append_assoc, List.singleton_append,
      ← List.drop_eq_getElem_cons isThere]
  | case2 i read outside =>
    have beyond : bytes.data.toList.length ≤ i := Nat.not_lt.mp outside
    rw [List.drop_eq_nil_of_le beyond, List.append_nil]

theorem encode_eq (s : String) : encode s = s.toList.flatMap String.utf8EncodeChar := by
  rw [encode, String.toUTF8_eq_toByteArray, ← String.utf8Encode_toList, List.utf8Encode,
    ByteArray.toList, toList_loop]
  exact List.toList_data_toByteArray

end Bytes

theorem decodeChars_encodeChar (c : Char) (rest : Bytes) :
    decodeChars (String.utf8EncodeChar c ++ rest) = some c :: decodeChars rest := by
  have found := leading?_encodeChar c rest
  cases written : String.utf8EncodeChar c with
  | nil => exact absurd written String.utf8EncodeChar_ne_nil
  | cons a tail =>
    rw [written] at found
    rw [List.cons_append] at found ⊢
    rw [decodeChars, found]
    simp

theorem decodeChars_encode (s : String) : decodeChars (encode s) = s.toList.map some := by
  rw [encode_eq]
  induction s.toList with
  | nil => rw [List.flatMap_nil, decodeChars, List.map_nil]
  | cons c cs ih => rw [List.flatMap_cons, decodeChars_encodeChar, ih, List.map_cons]

/-- Where no byte is left over, the characters are written in these bytes. -/
theorem encoded_of_decodeChars (bytes : Bytes) : ∀ {cs : List Char}, decodeChars bytes = cs.map some →
    bytes = cs.flatMap String.utf8EncodeChar := by
  fun_induction decodeChars bytes with
  | case1 =>
    intro cs read
    rw [List.map_eq_nil_iff.mp read.symm, List.flatMap_nil]
  | case2 a bytes c more found ih =>
    intro cs read
    cases cs with
    | nil => cases read
    | cons d cs =>
      obtain ⟨same, later⟩ := List.cons.inj read
      obtain ⟨rest, whole, length⟩ := encoded_of_leading found
      cases same
      cases written : String.utf8EncodeChar c with
      | nil => exact absurd written String.utf8EncodeChar_ne_nil
      | cons b tail =>
        rw [written] at whole length
        obtain rfl : tail.length = more := Nat.succ.inj length
        have behind : bytes = tail ++ rest := (List.cons.inj whole).2
        rw [behind, List.drop_left] at ih later
        rw [List.flatMap_cons, written, ← ih later, whole]
  | case3 a bytes _ ih =>
    intro cs read
    cases cs <;> cases read

theorem mapM_id_eq_some {found : List (Option Char)} :
    found.mapM id = some cs ↔ found = cs.map some := by
  induction found generalizing cs with
  | nil => simp [List.nil_eq]
  | cons c found ih =>
    cases cs with
    | nil => simp [List.mapM_cons, Option.bind_eq_some_iff]
    | cons d cs => simp [List.mapM_cons, Option.bind_eq_some_iff, ih]

/-- A text is read from the bytes that it is written in, and from no others. -/
theorem decode?_eq_some : decode? bytes = some s ↔ encode s = bytes := by
  constructor
  · intro read
    obtain ⟨cs, found, rfl⟩ := Option.map_eq_some_iff.mp read
    rw [encode_eq, String.toList_ofList]
    exact (encoded_of_decodeChars bytes (mapM_id_eq_some.mp found)).symm
  · rintro rfl
    exact Option.map_eq_some_iff.mpr
      ⟨s.toList, mapM_id_eq_some.mpr (decodeChars_encode s), String.ofList_toList⟩

theorem decodeDropping_encode (s : String) : decodeDropping (encode s) = s := by
  rw [decodeDropping, decodeChars_encode, List.filterMap_map]
  simp

end ProtoBindings.Text.Utf8
