namespace ProtoBindings.Number

def maxDigits : Nat := 4300

def digitLimit : String :=
  "Exceeds the limit (" ++ toString maxDigits ++ " digits) for integer string conversion"

def digitAdvice : String := "; use sys.set_int_max_str_digits() to increase the limit"

def tooManyDigits (digits : Nat) : String :=
  digitLimit ++ ": value has " ++ toString digits ++ " digits" ++ digitAdvice

def showing (n : Int) (message : String → String) : String :=
  if Nat.pow 10 maxDigits ≤ n.natAbs then digitLimit ++ digitAdvice else message (toString n)

structure OutOfRange where
  value : Int
  deriving DecidableEq, Repr

def OutOfRange.message (e : OutOfRange) : String := "Value out of range: " ++ toString e.value

def fitSigned (bits : Nat) (n : Int) : Except OutOfRange Int :=
  if -(Nat.pow 2 (bits - 1) : Int) ≤ n ∧ n < Nat.pow 2 (bits - 1) then .ok n else .error ⟨n⟩

def fitUnsigned (bits : Nat) (n : Int) : Except OutOfRange Int :=
  if 0 ≤ n ∧ n < Nat.pow 2 bits then .ok n else .error ⟨n⟩

end ProtoBindings.Number
