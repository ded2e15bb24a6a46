namespace ProtoBindings.Wire

abbrev Bytes := List UInt8

def varint (n : Nat) : Bytes :=
  if n < 128 then [n.toUInt8] else (128 + n % 128).toUInt8 :: varint (n / 128)
termination_by n

/-- A number of at most `limit` bytes, and the bytes after it. -/
def readVarint : (limit : Nat) → Bytes → Option (Nat × Bytes)
  | 0, _ => none
  | _ + 1, [] => none
  | limit + 1, b :: rest =>
    if b < 128 then some (b.toNat, rest)
    else (readVarint limit rest).map fun (high, after) => (b.toNat - 128 + 128 * high, after)

theorem readVarint_shorter {limit : Nat} {bytes after : Bytes} {n : Nat}
    (h : readVarint limit bytes = some (n, after)) : after.length < bytes.length := by
  induction limit generalizing bytes n after with
  | zero => simp [readVarint] at h
  | succ limit ih =>
    cases bytes with
    | nil => simp [readVarint] at h
    | cons b rest =>
      simp only [readVarint] at h
      split at h
      · cases h
        simp
      · obtain ⟨⟨high, after'⟩, hr, hp⟩ := Option.map_eq_some_iff.1 h
        cases hp
        exact Nat.lt_succ_of_lt (ih hr)

def fixed : (width : Nat) → Nat → Bytes
  | 0, _ => []
  | width + 1, n => (n % 256).toUInt8 :: fixed width (n / 256)

def fixedValue : Bytes → Nat
  | [] => 0
  | b :: rest => b.toNat + 256 * fixedValue rest

def readFixed (width : Nat) (bytes : Bytes) : Option (Nat × Bytes) :=
  if bytes.length < width then none else some (fixedValue (bytes.take width), bytes.drop width)

end ProtoBindings.Wire
