namespace ProtoBindings.Rpc

inductive Supply (α ε : Type)
  | element (value : α)
  | failure (error : ε)
  deriving DecidableEq, Repr

structure Stream (α ε : Type) where
  supply : List (Supply α ε)
  isOpen : Bool := true
  converted : Nat := 0

inductive Answer (β ε : Type)
  | value (v : β)
  | failed (error : ε)
  | stop
  deriving DecidableEq, Repr

namespace Stream

def close {α ε : Type} (s : Stream α ε) : Stream α ε := { s with isOpen := false }

def next {α β ε : Type} (convert : α → Except ε β) (s : Stream α ε) : Answer β ε × Stream α ε :=
  match s.isOpen, s.supply with
  | false, _ | true, [] => (.stop, s.close)
  | true, .failure error :: _ => (.failed error, s.close)
  | true, .element value :: rest =>
    let later : Stream α ε := { s with supply := rest, converted := s.converted + 1 }
    match convert value with
    | .ok result => (.value result, later)
    | .error error => (.failed error, later.close)

end Stream

end ProtoBindings.Rpc
