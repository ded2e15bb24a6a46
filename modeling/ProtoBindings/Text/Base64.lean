import ProtoBindings.Wire.Varint

namespace ProtoBindings.Text.Base64

open Wire (Bytes)

inductive Fault
  | leftOver (digits : Nat)
  | padding
  deriving DecidableEq, Repr

def Fault.message : Fault → String
  | leftOver digits => "Invalid base64-encoded string: number of data characters (" ++
      toString digits ++ ") cannot be 1 more than a multiple of 4"
  | padding => "Incorrect padding"

/-- There are two pairs of extra digits. -/
def digit? (c : Char) : Option Nat :=
  if 'A' ≤ c ∧ c ≤ 'Z' then some (c.toNat - 'A'.toNat)
  else if 'a' ≤ c ∧ c ≤ 'z' then some (c.toNat - 'a'.toNat + 26)
  else if '0' ≤ c ∧ c ≤ '9' then some (c.toNat - '0'.toNat + 52)
  else if c = '+' ∨ c = '-' then some 62
  else if c = '/' ∨ c = '_' then some 63
  else none

/-- Reading after `count` digits, of which those of the last group and the paddings since the last
    digit are at hand. A group ends at its fourth digit, or at the padding that completes it. -/
def read (count : Nat) (group : List Nat) (pads : Nat) : List Char → Except Fault Bytes
  | [] =>
    match group with
    | [] => .ok []
    | [_] => .error (.leftOver count)
    | _ => .error .padding
  | '=' :: rest =>
    match group with
    | [a, b] =>
      if pads = 0 then read count group 1 rest else .ok [(a * 4 + b / 16).toUInt8]
    | [a, b, c] => .ok [(a * 4 + b / 16).toUInt8, (b % 16 * 16 + c / 4).toUInt8]
    | _ => read count group pads rest
  | char :: rest =>
    match digit? char, group with
    | none, _ => read count group pads rest
    | some d, [a, b, c] =>
      (read (count + 1) [] 0 rest).map fun later => (a * 4 + b / 16).toUInt8 ::
        (b % 16 * 16 + c / 4).toUInt8 :: (c % 4 * 64 + d).toUInt8 :: later
    | some d, _ => read (count + 1) (group ++ [d]) 0 rest

/-- Padding is added up to the next multiple of four bytes, and four of it at a multiple. -/
def decode (s : String) : Except Fault Bytes :=
  read 0 [] 0 (s.toList ++ List.replicate (4 - s.utf8ByteSize % 4) '=')

end ProtoBindings.Text.Base64
