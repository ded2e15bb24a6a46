import Mathlib.Data.List.Basic
import ProtoBindings.Proofs.Wire.Written

namespace ProtoBindings.Wire

def Payload.Fits : Payload → Prop
  | .varint n | .fixed64 n => n < 2 ^ 64
  | .bytes content => content.length < 2 ^ 31
  | .fixed32 n => n < 2 ^ 32

theorem readFixed_lt {width n : Nat} {bytes rest : Bytes} (read : readFixed width bytes = some (n, rest)) :
    n < 256 ^ width := by
  rw [readFixed] at read
  split at read
  · cases read
  · rename_i enough
    cases read
    have most := fixedValue_lt (bytes.take width)
    rwa [List.length_take, Nat.min_eq_left (Nat.not_lt.mp enough)] at most

theorem readContent_length {bytes content rest : Bytes} (read : readContent bytes = some (content, rest)) :
    content.length < 2 ^ 31 := by
  obtain ⟨⟨size, after⟩, -, taken⟩ := Option.bind_eq_some_iff.mp read
  dsimp only at taken
  split at taken
  · rename_i fits
    cases taken
    exact Nat.lt_of_le_of_lt (List.length_take_le size after) fits.1
  · cases taken

theorem readPayload_fits {number wireType : Nat} {bytes rest : Bytes} {e : Entry}
    (read : readPayload number wireType bytes = some (.entry e, rest)) : e.payload.Fits := by
  rw [readPayload.eq_def] at read
  split at read
  · obtain ⟨_, -, made⟩ := Option.map_eq_some_iff.mp read
    cases made
    exact Nat.mod_lt _ (by decide)
  · obtain ⟨⟨n, after⟩, value, made⟩ := Option.map_eq_some_iff.mp read
    cases made
    exact readFixed_lt value
  · obtain ⟨⟨content, after⟩, value, made⟩ := Option.map_eq_some_iff.mp read
    cases made
    exact readContent_length value
  · cases read
  · cases read
  · obtain ⟨⟨n, after⟩, value, made⟩ := Option.map_eq_some_iff.mp read
    cases made
    exact readFixed_lt value
  · cases read

theorem readToken_fits {bytes rest : Bytes} {e : Entry} (read : readToken bytes = some (.entry e, rest)) :
    e.payload.Fits := by
  obtain ⟨_, -, payload⟩ := Option.bind_eq_some_iff.mp read
  exact readPayload_fits payload

theorem scanTokens_stuck {bytes : Bytes} (stuck : readToken bytes = none) :
    (scanTokens bytes).items = [] := by
  rw [scanTokens]
  split
  · rfl
  · split
    · rfl
    · rename_i read
      rw [stuck] at read
      cases read

theorem scanTokens_fits {bytes : Bytes} {e : Entry} (found : .entry e ∈ (scanTokens bytes).items) :
    e.payload.Fits := by
  induction bytes using scanTokens.induct with
  | case1 =>
    rw [scanTokens, if_pos rfl] at found
    cases found
  | case2 bytes present stuck =>
    rw [scanTokens_stuck stuck] at found
    cases found
  | case3 bytes present token rest read ih =>
    rw [scanTokens_cons read] at found
    rcases List.mem_cons.mp found with rfl | later
    · exact readToken_fits read
    · exact ih later

theorem mem_of_outsideGroups {depth : Nat} {complete : Bool} {groups : List Nat} {tokens : List Token}
    {e : Entry} (found : e ∈ (outsideGroups depth complete groups tokens).items) : .entry e ∈ tokens := by
  fun_induction outsideGroups depth complete groups tokens <;> grind

/-- The values of a message are in the range of their wire type. -/
theorem scan_fits {depth : Nat} {bytes : Bytes} {e : Entry} (found : e ∈ (scan depth bytes).items) :
    e.payload.Fits :=
  scanTokens_fits (mem_of_outsideGroups found)

section Values

variable {number n : Nat} {content : Bytes} {entries : List Entry}

theorem mem_varintsAt : n ∈ varintsAt number entries ↔ ⟨number, .varint n⟩ ∈ entries := by
  grind [varintsAt]

theorem mem_fixed64sAt : n ∈ fixed64sAt number entries ↔ ⟨number, .fixed64 n⟩ ∈ entries := by
  grind [fixed64sAt]

theorem mem_fixed32sAt : n ∈ fixed32sAt number entries ↔ ⟨number, .fixed32 n⟩ ∈ entries := by
  grind [fixed32sAt]

theorem mem_contentsAt : content ∈ contentsAt number entries ↔ ⟨number, .bytes content⟩ ∈ entries := by
  grind [contentsAt]

end Values

end ProtoBindings.Wire
