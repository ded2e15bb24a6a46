import ProtoBindings.Wire.Varint

namespace ProtoBindings.Wire

inductive Fault
  | malformed
  | tooDeep
  | badText
  deriving DecidableEq, Repr

def Fault.reason : Fault → String
  | malformed => "Wire format was corrupt"
  | tooDeep => "Exceeded upb_DecodeOptions_MaxDepth"
  | badText => "String field had bad UTF-8"

def Fault.message (messageName : String) (fault : Fault) : String :=
  "Error parsing message with type '" ++ messageName ++ "': " ++ fault.reason

inductive Payload
  | varint (n : Nat)
  | fixed64 (n : Nat)
  | bytes (content : Bytes)
  | fixed32 (n : Nat)
  deriving DecidableEq, Repr

structure Entry where
  number : Nat
  payload : Payload
  deriving DecidableEq, Repr

inductive Token
  | entry (e : Entry)
  | openGroup (number : Nat)
  | closeGroup (number : Nat)
  deriving DecidableEq, Repr

def tagBytes : Nat := 5

def valueBytes : Nat := 10

def readTag (bytes : Bytes) : Option (Nat × Nat × Bytes) :=
  (readVarint tagBytes bytes).bind fun (tag, rest) =>
    if tag < 4294967296 then some (tag / 8, tag % 8, rest) else none

def readContent (bytes : Bytes) : Option (Bytes × Bytes) :=
  (readVarint tagBytes bytes).bind fun (size, rest) =>
    if size < 2147483648 ∧ size ≤ rest.length then some (rest.take size, rest.drop size) else none

/-- A value keeps its 64 low bits. -/
def readPayload (number wireType : Nat) (bytes : Bytes) : Option (Token × Bytes) :=
  match wireType with
  | 0 => (readVarint valueBytes bytes).map fun (n, rest) =>
      (.entry ⟨number, .varint (n % 18446744073709551616)⟩, rest)
  | 1 => (readFixed 8 bytes).map fun (n, rest) => (.entry ⟨number, .fixed64 n⟩, rest)
  | 2 => (readContent bytes).map fun (content, rest) => (.entry ⟨number, .bytes content⟩, rest)
  | 3 => some (.openGroup number, bytes)
  | 4 => some (.closeGroup number, bytes)
  | 5 => (readFixed 4 bytes).map fun (n, rest) => (.entry ⟨number, .fixed32 n⟩, rest)
  | _ => none

def readToken (bytes : Bytes) : Option (Token × Bytes) :=
  (readTag bytes).bind fun (number, wireType, rest) => readPayload number wireType rest

theorem readTag_shorter {bytes rest : Bytes} {number wireType : Nat}
    (h : readTag bytes = some (number, wireType, rest)) : rest.length < bytes.length := by
  obtain ⟨⟨tag, after⟩, hv, hr⟩ := Option.bind_eq_some_iff.1 h
  dsimp only at hr
  split at hr
  · cases hr
    exact readVarint_shorter hv
  · cases hr

theorem readFixed_length_le {width : Nat} {bytes rest : Bytes} {n : Nat}
    (h : readFixed width bytes = some (n, rest)) : rest.length ≤ bytes.length := by
  unfold readFixed at h
  split at h
  · cases h
  · cases h
    simp

theorem readPayload_length_le {number wireType : Nat} {bytes rest : Bytes} {token : Token}
    (h : readPayload number wireType bytes = some (token, rest)) : rest.length ≤ bytes.length := by
  unfold readPayload at h
  split at h
  · obtain ⟨⟨n, after⟩, hv, hp⟩ := Option.map_eq_some_iff.1 h
    cases hp
    exact Nat.le_of_lt (readVarint_shorter hv)
  · obtain ⟨⟨n, after⟩, hv, hp⟩ := Option.map_eq_some_iff.1 h
    cases hp
    exact readFixed_length_le hv
  · obtain ⟨⟨content, after⟩, hv, hp⟩ := Option.map_eq_some_iff.1 h
    cases hp
    obtain ⟨⟨size, tail⟩, hs, ht⟩ := Option.bind_eq_some_iff.1 hv
    dsimp only at ht
    split at ht
    · cases ht
      have := readVarint_shorter hs
      simp only [List.length_drop]
      omega
    · cases ht
  · cases h
    exact Nat.le_refl _
  · cases h
    exact Nat.le_refl _
  · obtain ⟨⟨n, after⟩, hv, hp⟩ := Option.map_eq_some_iff.1 h
    cases hp
    exact readFixed_length_le hv
  · cases h

theorem readToken_shorter {bytes rest : Bytes} {token : Token}
    (h : readToken bytes = some (token, rest)) : rest.length < bytes.length := by
  obtain ⟨⟨number, wireType, after⟩, ht, hp⟩ := Option.bind_eq_some_iff.1 h
  exact Nat.lt_of_le_of_lt (readPayload_length_le hp) (readTag_shorter ht)

structure Scan (α : Type) where
  items : List α
  complete : Bool
  deriving DecidableEq, Repr

def scanTokens (bytes : Bytes) : Scan Token :=
  if bytes = [] then ⟨[], true⟩
  else
    match _h : readToken bytes with
    | none => ⟨[], false⟩
    | some (token, rest) =>
      let later := scanTokens rest
      ⟨token :: later.items, later.complete⟩
termination_by bytes.length
decreasing_by exact readToken_shorter _h

/-- The entries outside groups. `groups` are the open ones, the inmost first, and `depth` is how many
    there may be. -/
def outsideGroups (depth : Nat) (complete : Bool) : (groups : List Nat) → List Token → Scan Entry
  | [], [] => ⟨[], complete⟩
  | _ :: _, [] => ⟨[], false⟩
  | [], .entry e :: rest =>
    if e.number = 0 then ⟨[], false⟩
    else
      let later := outsideGroups depth complete [] rest
      ⟨e :: later.items, later.complete⟩
  | group :: groups, .entry _ :: rest => outsideGroups depth complete (group :: groups) rest
  | groups, .openGroup number :: rest =>
    if groups.length < depth ∧ (groups = [] → number ≠ 0) then
      outsideGroups depth complete (number :: groups) rest
    else ⟨[], false⟩
  | group :: groups, .closeGroup number :: rest =>
    if group = number then outsideGroups depth complete groups rest else ⟨[], false⟩
  | [], .closeGroup _ :: _ => ⟨[], false⟩

def scan (depth : Nat) (bytes : Bytes) : Scan Entry :=
  let tokens := scanTokens bytes
  outsideGroups depth tokens.complete [] tokens.items

def maxDepth : Nat := 100

def varintsAt (number : Nat) (entries : List Entry) : List Nat :=
  entries.filterMap fun
    | ⟨n, .varint value⟩ => if n = number then some value else none
    | _ => none

def fixed64sAt (number : Nat) (entries : List Entry) : List Nat :=
  entries.filterMap fun
    | ⟨n, .fixed64 value⟩ => if n = number then some value else none
    | _ => none

def fixed32sAt (number : Nat) (entries : List Entry) : List Nat :=
  entries.filterMap fun
    | ⟨n, .fixed32 value⟩ => if n = number then some value else none
    | _ => none

def contentsAt (number : Nat) (entries : List Entry) : List Bytes :=
  entries.filterMap fun
    | ⟨n, .bytes content⟩ => if n = number then some content else none
    | _ => none

def signed (bits n : Nat) : Int := Int.bmod n (Nat.pow 2 bits)

def tag (number wireType : Nat) : Bytes := varint (number * 8 + wireType)

def varintField (number value : Nat) : Bytes := tag number 0 ++ varint value

def contentField (number : Nat) (content : Bytes) : Bytes :=
  tag number 2 ++ varint content.length ++ content

end ProtoBindings.Wire
