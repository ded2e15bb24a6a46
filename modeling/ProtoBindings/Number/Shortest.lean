import ProtoBindings.Number.Real

namespace ProtoBindings.Number

def leadingExponent (r : Ratio) : Int :=
  if r.denominator ≤ r.numerator then decimalLength (r.numerator / r.denominator) - 1
  else -(decimalLength ((r.denominator - 1) / r.numerator) : Int)

def distance (a b : Nat) : Nat := max a b - min a b

/-- Of the neighbours of a value among the multiples of a power of ten, the nearer one that reads back
    as the magnitude, the even one if both are equally near. -/
def readBack? (magnitude : Nat) (exponent : Int) : Option Decimal :=
  let r := double.value magnitude
  let numerator := r.numerator * Nat.pow 10 (-exponent).toNat
  let denominator := r.denominator * Nat.pow 10 exponent.toNat
  let low := numerator / denominator
  let nearer := roundQuotient numerator denominator
  let farther := if nearer = low then low + 1 else low
  ([nearer, farther].map (Decimal.mk · exponent)).find? (·.toDouble = magnitude)

def shortest (magnitude : Nat) : Decimal :=
  let leading := leadingExponent (double.value magnitude)
  ((List.range 17).findSome? fun (n : Nat) => readBack? magnitude (leading - n)).getD
    ⟨magnitude, 0⟩

def dropTrailingZeros (digits : List Char) : List Char :=
  (digits.reverse.dropWhile (· = '0')).reverse

/-- Digits around a point: positional where the point stands at most four places before the digits or
    within the first sixteen places, and otherwise with an exponent of two digits at least. -/
def layout (digits : List Char) (leading : Int) : List Char :=
  if -4 ≤ leading ∧ leading < 0 then
    '0' :: '.' :: (List.replicate (-leading - 1).toNat '0' ++ digits)
  else if 0 ≤ leading ∧ leading < 16 then
    let places := leading.toNat + 1
    let whole := digits.take places
    let fraction := digits.drop places
    whole ++ List.replicate (places - whole.length) '0' ++ '.' ::
      (if fraction = [] then ['0'] else fraction)
  else
    let exponent := Nat.toDigits 10 leading.natAbs
    let point := if digits.length ≤ 1 then [] else ['.']
    digits.take 1 ++ point ++ digits.drop 1 ++ 'e' :: (if leading < 0 then '-' else '+') ::
      (List.replicate (2 - exponent.length) '0' ++ exponent)

def realText (bits : Nat) : String :=
  let magnitude := double.magnitude bits
  if double.isNaN bits then "nan"
  else
    let body :=
      if double.isInfinite bits then "inf".toList
      else if magnitude = 0 then "0.0".toList
      else
        let decimal := shortest magnitude
        let digits := Nat.toDigits 10 decimal.digits
        layout (dropTrailingZeros digits) (decimal.exponent + digits.length - 1)
    String.ofList (if double.isNegative bits then '-' :: body else body)

end ProtoBindings.Number
