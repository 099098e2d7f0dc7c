import SqlTemplate.Json

namespace SqlTemplate.JsonNumber

def powerOfTen (n : Nat) : Binary64 := Binary64.nearest false (Nat.pow 10 n) 1

/-- `x * 10 ^ exponent` for a number `x` that is not negative, by one product or quotient with a power
of ten; none if it is too large. Exponents below the range are approached in `steps` steps. -/
def scaled : (steps : Nat) → (x : Binary64) → (exponent : Int) → Option Binary64
  | 0, x, _ => some x
  | steps + 1, x, exponent =>
    if exponent.natAbs ≤ 308 then
      let factor := powerOfTen exponent.natAbs
      let y := if 0 ≤ exponent then x.mul factor else x.div factor
      if y.isFinite then some y else none
    else if x.magnitude = 0 then some x
    else if 0 ≤ exponent then none
    else scaled steps (x.div (powerOfTen 308)) (exponent + 308)

/-- The leading digits that fit 64 bits as one number, put after `significand`, and the digits left. -/
def leading (significand : Nat) : List Char → Nat × List Char
  | [] => (significand, [])
  | c :: cs =>
    let next := significand * 10 + (c.toNat - 48)
    if next < UInt64.size then leading next cs else (significand, c :: cs)

/-- A double from its digits before and after the point and its exponent. Digits beyond a
significand of 64 bits are dropped; none if the number is too large. -/
def double? (negative : Bool) (digits fraction : List Char) (exponent : Int) : Option Binary64 :=
  let (high, dropped) := leading 0 digits
  let (significand, unused) := leading high fraction
  let used := fraction.length - unused.length
  let x := Binary64.nearest false significand 1
  (scaled 4 x (dropped.length - used + exponent)).map fun y =>
    Binary64.ofMagnitude negative y.magnitude

/-- A number without a point or an exponent. Minus zero is a double. -/
def integer? (negative : Bool) (digits : List Char) : Option JsonNumber :=
  let n := Nat.ofDigitChars 10 digits 0
  if negative then
    if 0 < n && n ≤ 0x8000000000000000 then some (.whole (-(n : Int)))
    else (double? true digits [] 0).map .real
  else if n < UInt64.size then some (.whole n)
  else (double? false digits [] 0).map .real

def readDigits (cs : List Char) : Option (List Char × List Char) :=
  let digits := cs.takeWhile Char.isDigit
  if digits.isEmpty then none else some (digits, cs.dropWhile Char.isDigit)

def readSign : List Char → Bool × List Char
  | '-' :: cs => (true, cs)
  | cs => (false, cs)

def readFraction : List Char → Option (List Char × List Char)
  | '.' :: cs => readDigits cs
  | cs => some ([], cs)

def readExponent : List Char → Option (Option Int × List Char)
  | 'e' :: cs | 'E' :: cs => do
    let (negative, cs) := match cs with
      | '+' :: rest => (false, rest)
      | _ => readSign cs
    let (digits, rest) ← readDigits cs
    let n : Int := Nat.ofDigitChars 10 digits 0
    return (some (if negative then -n else n), rest)
  | cs => some (none, cs)

/-- Reads a number at the start of a text. It has no superfluous zero in front. -/
def read (cs : List Char) : Option (JsonNumber × List Char) := do
  let (negative, cs) := readSign cs
  let (digits, cs) ← readDigits cs
  if digits.head? = some '0' && 1 < digits.length then none
  let (fraction, cs) ← readFraction cs
  let (exponent, cs) ← readExponent cs
  let number ←
    if fraction.isEmpty && exponent.isNone then integer? negative digits
    else (double? negative digits fraction (exponent.getD 0)).map .real
  return (number, cs)

example : read "-0".toList = some (.real ⟨0x8000000000000000⟩, []) := by decide +kernel
example : read "18446744073709551615]".toList = some (.whole 18446744073709551615, [']']) := by
  decide +kernel
example : read "1e400".toList = none ∧ read "01".toList = none := by decide +kernel

end SqlTemplate.JsonNumber
