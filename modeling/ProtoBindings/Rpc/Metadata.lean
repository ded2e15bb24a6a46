import ProtoBindings.Unicode.Case
import ProtoBindings.Wire.Varint

namespace ProtoBindings.Rpc

inductive MetadataValue
  | text (value : String)
  | data (value : Wire.Bytes)
  deriving DecidableEq, Repr

abbrev Metadata := List (String × MetadataValue)

def Metadata.value? (metadata : Metadata) (key : String) : Option MetadataValue :=
  metadata.lookup (Unicode.lower key)

structure Token where
  previous : Metadata
  isUsed : Bool := false
  deriving DecidableEq, Repr

inductive ResetError
  | usedToken
  | noSuchToken
  deriving DecidableEq, Repr

structure CallContext where
  current : Metadata := []
  tokens : List Token := []
  deriving DecidableEq, Repr

namespace CallContext

/-- Gives a token, which later puts back what was current before, once. -/
def attach (c : CallContext) (metadata : Metadata) : CallContext :=
  ⟨metadata, c.tokens ++ [{ previous := c.current }]⟩

def reset (c : CallContext) (index : Nat) : Except ResetError CallContext :=
  match c.tokens[index]? with
  | none => .error .noSuchToken
  | some token =>
    if token.isUsed then .error .usedToken
    else .ok ⟨token.previous, c.tokens.set index { token with isUsed := true }⟩

end CallContext

end ProtoBindings.Rpc
