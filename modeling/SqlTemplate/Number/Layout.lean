import SqlTemplate.Number.Shortest

/-!
How the digits of a double are laid out in SQL text and in result rows.
-/

namespace SqlTemplate

structure Layout where
  tie : Tie
  /-- The exponents, of the first digit, that are written positionally. -/
  positional : Int → Bool
  /-- What follows a positional number without a fraction. -/
  wholeEnd : String

namespace Layout

/-- The digits with the point after the first `point` of them, zeros filling both gaps. -/
def pointed (layout : Layout) (digits : List Char) (point : Int) : List Char :=
  if point ≤ 0 then '0' :: '.' :: (List.replicate (-point).toNat '0' ++ digits)
  else if digits.length ≤ point.toNat then
    digits ++ List.replicate (point.toNat - digits.length) '0' ++ layout.wholeEnd.toList
  else digits.take point.toNat ++ '.' :: digits.drop point.toNat

/-- One digit before the point and a signed exponent. -/
def scientific (digits : List Char) (exponent : Int) : List Char :=
  let mantissa := digits.take 1 ++ (if digits.length ≤ 1 then [] else '.' :: digits.drop 1)
  let sign := if exponent < 0 then '-' else '+'
  mantissa ++ 'e' :: sign :: Nat.toDigits 10 exponent.natAbs

/-- A decimal written without its trailing zeros. -/
def decimal (layout : Layout) (d : Decimal) : List Char :=
  let all := Nat.toDigits 10 d.coefficient
  let digits := (all.reverse.dropWhile (· == '0')).reverse
  let point : Int := all.length + d.exponent
  if layout.positional (point - 1) then layout.pointed digits point
  else scientific digits (point - 1)

def text (layout : Layout) (x : Binary64) : String :=
  let unsigned :=
    if x.magnitude = 0 then '0' :: layout.wholeEnd.toList else layout.decimal (x.shortest layout.tie)
  String.ofList (if x.isNegative then '-' :: unsigned else unsigned)

/-- Numbers in SQL text have no exponent, and whole ones no point. -/
def sql : Layout := ⟨.upward, fun _ => true, ""⟩

/-- Numbers in result rows always show a fraction or an exponent. -/
def row : Layout := ⟨.toEven, fun e => -5 ≤ e && e ≤ 15, ".0"⟩

example : sql.text ⟨0x444B1AE4D6E2EF50⟩ = "1000000000000000000000" := by decide +kernel
example : sql.text ⟨0xBE7AD7F29ABCAF48⟩ = "-0.0000001" := by decide +kernel
example : row.text ⟨0x444B1AE4D6E2EF50⟩ = "1e+21" := by decide +kernel
example : row.text ⟨0x3FF8000000000000⟩ = "1.5" ∧ row.text ⟨0x8000000000000000⟩ = "-0.0" := by
  decide +kernel

end Layout

/-- The text of any number in SQL. -/
def Binary64.text (x : Binary64) : String :=
  if x.isNaN then "NaN"
  else if x.isInfinite then (if x.isNegative then "-inf" else "inf")
  else Layout.sql.text x

end SqlTemplate
