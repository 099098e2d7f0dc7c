import SqlTemplate.Number.Binary64

/-!
The shortest decimal that reads back as a double. It is sought on grids of powers of ten, the
coarsest first, among the two neighbours of the number there.
-/

namespace SqlTemplate

/-- Where a decimal lies halfway between two candidates, which of them is taken. -/
inductive Tie where
  | toEven
  | upward
deriving DecidableEq, Repr

/-- The decimal `coefficient * 10 ^ exponent`. -/
structure Decimal where
  coefficient : Nat
  exponent : Int
deriving DecidableEq, Repr

namespace Binary64

/-- A positive finite number with the interval of reals that round to it, all in quarters of its
last place. -/
structure Spread where
  low : Nat
  value : Nat
  high : Nat
  closed : Bool
  exponent : Int

/-- Below a power of two the neighbouring number is only half a place away. The ends of the interval
round to the number when its significand is even. -/
def spread (x : Binary64) : Spread :=
  let value := 4 * x.significand
  let narrow := x.significand = binade ∧ 1 < x.exponentField
  { low := value - if narrow then 1 else 2
    value := value
    high := value + 2
    closed := x.significand % 2 = 0
    exponent := x.exponent - 2 }

/-- The better of the two multiples of `10 ^ k` around the number, among those in its interval. -/
def Spread.onGrid (s : Spread) (tie : Tie) (k : Int) : Option Nat :=
  let num := Nat.pow 2 s.exponent.toNat * Nat.pow 10 (-k).toNat
  let den := Nat.pow 2 (-s.exponent).toNat * Nat.pow 10 k.toNat
  let within (n : Nat) : Bool :=
    if s.closed then s.low * num ≤ n * den && n * den ≤ s.high * num
    else s.low * num < n * den && n * den < s.high * num
  let below := s.value * num / den
  let above := below + 1
  let twice := 2 * s.value * num
  let middle := (below + above) * den
  match within below, within above with
  | true, true =>
    if twice < middle then some below
    else if middle < twice then some above
    else match tie with
      | .upward => some above
      | .toEven => some (if below % 2 = 0 then below else above)
  | true, false => some below
  | false, true => some above
  | false, false => none

/-- The first grid from `10 ^ k` downward that meets the interval, within `steps` grids. -/
def Spread.search (s : Spread) (tie : Tie) : (steps : Nat) → (k : Int) → Decimal
  | 0, k => ⟨0, k⟩
  | steps + 1, k =>
    match s.onGrid tie k with
    | some n => ⟨n, k⟩
    | none => s.search tie steps (k - 1)

/-- The shortest decimal that reads back as the positive finite number `x`, and of the shortest ones
the nearest. The search starts at a power of ten above `x`; seventeen digits always suffice. -/
def shortest (tie : Tie) (x : Binary64) : Decimal :=
  let log2 : Int := Nat.log2 x.significand + x.exponent
  x.spread.search tie 20 ((log2 + 1) * 30103 / 100000 + 1)

example : shortest .upward ⟨0x3FB999999999999A⟩ = ⟨1, -1⟩ := by decide +kernel
example : shortest .upward ⟨1⟩ = ⟨5, -324⟩ := by decide +kernel
example : shortest .upward ⟨0x4310000000000001⟩ = ⟨11258999068426243, -1⟩ := by decide +kernel
example : shortest .toEven ⟨0x4310000000000001⟩ = ⟨11258999068426242, -1⟩ := by decide +kernel

end Binary64

end SqlTemplate
