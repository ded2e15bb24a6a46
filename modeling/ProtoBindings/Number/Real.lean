namespace ProtoBindings.Number

/-- The quotient rounded to the nearest whole number; a tie goes to the even one. -/
def roundQuotient (numerator denominator : Nat) : Nat :=
  let quotient := numerator / denominator
  let twice := 2 * (numerator % denominator)
  if denominator < twice ∨ (denominator = twice ∧ quotient % 2 = 1) then quotient + 1 else quotient

structure Format where
  precision : Nat
  exponentBits : Nat
  deriving DecidableEq, Repr

def double : Format := ⟨53, 11⟩

def single : Format := ⟨24, 8⟩

structure Ratio where
  numerator : Nat
  denominator : Nat
  deriving DecidableEq, Repr

namespace Format

/-- The number of magnitudes with one exponent. -/
def step (f : Format) : Nat := Nat.pow 2 (f.precision - 1)

/-- The binary places after the point of the smallest magnitude, one exponent up. -/
def scale (f : Format) : Nat := Nat.pow 2 (f.exponentBits - 1) - 1 + (f.precision - 1)

def infinity (f : Format) : Nat := (Nat.pow 2 f.exponentBits - 1) * f.step

def signBit (f : Format) : Nat := Nat.pow 2 (f.exponentBits + f.precision - 1)

def isNegative (f : Format) (bits : Nat) : Bool := decide (f.signBit ≤ bits)

def magnitude (f : Format) (bits : Nat) : Nat := bits % f.signBit

def isNaN (f : Format) (bits : Nat) : Bool := decide (f.infinity < f.magnitude bits)

def isInfinite (f : Format) (bits : Nat) : Bool := f.magnitude bits == f.infinity

def withSign (f : Format) (negative : Bool) (magnitude : Nat) : Nat :=
  if negative then f.signBit + magnitude else magnitude

def value (f : Format) (magnitude : Nat) : Ratio :=
  let exponent := magnitude / f.step
  let significand := if exponent = 0 then magnitude else f.step + magnitude % f.step
  ⟨significand * Nat.pow 2 (max exponent 1), Nat.pow 2 f.scale⟩

/-- The magnitude nearest to a value; a tie goes to the even significand, and values too large for
    the format become infinite. -/
def nearest (f : Format) (r : Ratio) : Nat :=
  let scaled := r.numerator * Nat.pow 2 f.scale
  let exponent := max 1 ((scaled / r.denominator).log2 + 1 - f.precision)
  let significand := roundQuotient scaled (r.denominator * Nat.pow 2 exponent)
  min f.infinity ((exponent - 1) * f.step + significand)

def times (f : Format) (magnitude factor : Nat) : Nat :=
  let r := f.value magnitude
  f.nearest ⟨r.numerator * factor, r.denominator⟩

def round (f : Format) (magnitude : Nat) : Nat :=
  let r := f.value magnitude
  roundQuotient r.numerator r.denominator

def whole? (f : Format) (bits : Nat) : Option Int :=
  let r := f.value (f.magnitude bits)
  let n : Int := (r.numerator / r.denominator : Nat)
  if f.isNaN bits || f.isInfinite bits || decide (r.numerator % r.denominator ≠ 0) then none
  else some (if f.isNegative bits then -n else n)

/-- A value of one format in another. A NaN keeps the high bits of its payload and becomes quiet. -/
def convert (source target : Format) (bits : Nat) : Nat :=
  let magnitude := source.magnitude bits
  target.withSign (source.isNegative bits) <|
    if source.isNaN bits then
      let payload := (magnitude % source.step) * target.step / source.step
      target.infinity + (payload ||| target.step / 2)
    else if source.isInfinite bits then target.infinity
    else target.nearest (source.value magnitude)

end Format

structure Decimal where
  digits : Nat
  exponent : Int
  deriving DecidableEq, Repr

def decimalLength (n : Nat) : Nat := (Nat.toDigits 10 n).length

namespace Decimal

def value (d : Decimal) : Ratio := ⟨d.digits * Nat.pow 10 d.exponent.toNat, Nat.pow 10 (-d.exponent).toNat⟩

/-- The nearest double. What lies beyond 400 places on either side of the point is infinite or zero,
    and its value is not written out. -/
def toDouble (d : Decimal) : Nat :=
  let places := d.exponent + decimalLength d.digits
  if d.digits = 0 ∨ places < -400 then 0
  else if 400 < places then double.infinity
  else double.nearest d.value

end Decimal

end ProtoBindings.Number
