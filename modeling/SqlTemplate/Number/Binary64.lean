/-!
Doubles in exact arithmetic: every result is the double nearest to a quotient of natural numbers.
-/

namespace SqlTemplate

/-- A double-precision number of IEEE 754, by its bits. -/
structure Binary64 where
  bits : UInt64
deriving DecidableEq, Repr, Inhabited

namespace Binary64

/-- The weight of the sign among the 64 bits. -/
def signWeight : Nat := 0x8000000000000000

/-- The weight of the exponent field, which is also the number of fractions for each exponent. -/
def binade : Nat := 0x10000000000000

def isNegative (x : Binary64) : Bool := signWeight ≤ x.bits.toNat

/-- Exponent field and fraction field as one number, which grows with the absolute value. -/
def magnitude (x : Binary64) : Nat := x.bits.toNat % signWeight

/-- The magnitude of infinity. Those of the NaNs are larger. -/
def infiniteMagnitude : Nat := 2047 * binade

def isNaN (x : Binary64) : Bool := infiniteMagnitude < x.magnitude

def isInfinite (x : Binary64) : Bool := x.magnitude == infiniteMagnitude

def isFinite (x : Binary64) : Bool := x.magnitude < infiniteMagnitude

def ofMagnitude (negative : Bool) (magnitude : Nat) : Binary64 :=
  ⟨UInt64.ofNat (magnitude + if negative then signWeight else 0)⟩

def exponentField (x : Binary64) : Nat := x.magnitude / binade

/-- A finite number is `significand * 2 ^ exponent`, up to its sign. -/
def significand (x : Binary64) : Nat :=
  x.magnitude % binade + if x.exponentField = 0 then 0 else binade

def exponent (x : Binary64) : Int :=
  if x.exponentField = 0 then -1074 else x.exponentField - 1075

def numerator (x : Binary64) : Nat := x.significand * Nat.pow 2 x.exponent.toNat

def denominator (x : Binary64) : Nat := Nat.pow 2 (-x.exponent).toNat

/-- `num / den` rounded to an integer, a half to the even neighbour. -/
def roundDiv (num den : Nat) : Nat :=
  let quotient := num / den
  let twice := 2 * (num % den)
  if twice < den then quotient
  else if den < twice then quotient + 1
  else quotient + quotient % 2

/-- The greatest `e` with `2 ^ e ≤ num / den`. -/
def floorLog2 (num den : Nat) : Int :=
  let e : Int := (Nat.log2 num : Int) - Nat.log2 den
  if den * Nat.pow 2 e.toNat ≤ num * Nat.pow 2 (-e).toNat then e else e - 1

/-- The number nearest to `num / den`, a tie to the even significand. What lies beyond the largest
finite number becomes infinite. -/
def nearest (negative : Bool) (num den : Nat) : Binary64 :=
  if num = 0 then ofMagnitude negative 0
  else
    let exponent := max (floorLog2 num den - 52) (-1074)
    let significand :=
      roundDiv (num * Nat.pow 2 (-exponent).toNat) (den * Nat.pow 2 exponent.toNat)
    ofMagnitude negative
      (min ((exponent + 1074).toNat * binade + significand) infiniteMagnitude)

def mul (x y : Binary64) : Binary64 :=
  nearest (x.isNegative != y.isNegative) (x.numerator * y.numerator) (x.denominator * y.denominator)

def div (x y : Binary64) : Binary64 :=
  nearest (x.isNegative != y.isNegative) (x.numerator * y.denominator) (x.denominator * y.numerator)

/-- The number with the given bits of IEEE 754 single precision. -/
def ofSingle (bits : UInt32) : Binary64 :=
  let negative := decide (0x80000000 ≤ bits.toNat)
  let field := bits.toNat % 0x80000000 / 0x800000
  let fraction := bits.toNat % 0x800000
  if field = 255 then ofMagnitude negative (infiniteMagnitude + fraction * 0x20000000)
  else if field = 0 then nearest negative fraction (Nat.pow 2 149)
  else ofMagnitude negative ((field + 896) * binade + fraction * 0x20000000)

example : nearest false 1 10 = ⟨0x3FB999999999999A⟩ := by decide +kernel
example : nearest true 5 (Nat.pow 10 324) = ⟨0x8000000000000001⟩ := by decide +kernel
example : ofSingle 0x3DCCCCCD = ⟨0x3FB99999A0000000⟩ := by decide +kernel

end Binary64

end SqlTemplate
