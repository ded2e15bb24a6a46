namespace ProtoBindings.Text.Utf8

abbrev Bytes := List UInt8

def continuation? (b : UInt8) : Option Nat :=
  if 0x80 ≤ b ∧ b < 0xC0 then some (b.toNat - 0x80) else none

def charFrom? (least code : Nat) : Option Char :=
  if h : least ≤ code ∧ code.isValidChar then some (Char.ofNatAux code h.2) else none

def leading? : Bytes → Option (Char × Nat)
  | [] => none
  | a :: rest =>
    if a < 0x80 then some (Char.ofNat a.toNat, 0)
    else if 0xC0 ≤ a ∧ a < 0xE0 then do
      let b ← continuation? (← rest[0]?)
      let c ← charFrom? 0x80 ((a.toNat - 0xC0) * 0x40 + b)
      return (c, 1)
    else if 0xE0 ≤ a ∧ a < 0xF0 then do
      let b ← continuation? (← rest[0]?)
      let c ← continuation? (← rest[1]?)
      let d ← charFrom? 0x800 (((a.toNat - 0xE0) * 0x40 + b) * 0x40 + c)
      return (d, 2)
    else if 0xF0 ≤ a ∧ a < 0xF8 then do
      let b ← continuation? (← rest[0]?)
      let c ← continuation? (← rest[1]?)
      let d ← continuation? (← rest[2]?)
      let e ← charFrom? 0x10000 ((((a.toNat - 0xF0) * 0x40 + b) * 0x40 + c) * 0x40 + d)
      return (e, 3)
    else none

def decodeChars : Bytes → List (Option Char)
  | [] => []
  | a :: rest =>
    match leading? (a :: rest) with
    | some (c, more) => some c :: decodeChars (rest.drop more)
    | none => none :: decodeChars rest
termination_by bytes => bytes.length
decreasing_by
  · simp only [List.length_drop, List.length_cons]; omega
  · exact Nat.lt_succ_self _

def decode? (bytes : Bytes) : Option String := ((decodeChars bytes).mapM id).map String.ofList

def decodeDropping (bytes : Bytes) : String := String.ofList ((decodeChars bytes).filterMap id)

def encode (s : String) : Bytes := s.toUTF8.toList

end ProtoBindings.Text.Utf8
