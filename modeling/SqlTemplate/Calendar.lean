/-!
Days and times of day, and the texts that stand for them in SQL.
-/

namespace SqlTemplate

/-- A day of the proleptic Gregorian calendar. -/
structure Date where
  year : Int
  month : Nat
  day : Nat
deriving DecidableEq, Repr

/-- A time of day. A leap second is second 59 with a billion nanoseconds or more. -/
structure Clock where
  hour : Nat
  minute : Nat
  second : Nat
  nanosecond : Nat
deriving DecidableEq, Repr

def paddedDecimal (width n : Nat) : String :=
  let digits := Nat.toDigits 10 n
  String.ofList (List.replicate (width - digits.length) '0' ++ digits)

/-- Years of up to four digits have no sign, all others have one. -/
def Date.yearText (d : Date) : String :=
  let digits := paddedDecimal 4 d.year.natAbs
  if d.year < 0 then "-" ++ digits
  else if d.year ≤ 9999 then digits
  else "+" ++ digits

def Date.text (d : Date) : String :=
  d.yearText ++ "-" ++ paddedDecimal 2 d.month ++ "-" ++ paddedDecimal 2 d.day

/-- The fraction of the second in 0, 3, 6 or 9 digits, as few as are exact. -/
def Clock.fractionText (c : Clock) : String :=
  let nanos := c.nanosecond % 1000000000
  if nanos = 0 then ""
  else if nanos % 1000000 = 0 then "." ++ paddedDecimal 3 (nanos / 1000000)
  else if nanos % 1000 = 0 then "." ++ paddedDecimal 6 (nanos / 1000)
  else "." ++ paddedDecimal 9 nanos

/-- Hour, minute and second, a leap second as second 60. -/
def Clock.text (c : Clock) : String :=
  paddedDecimal 2 c.hour ++ ":" ++ paddedDecimal 2 c.minute ++ ":" ++
    paddedDecimal 2 (c.second + c.nanosecond / 1000000000) ++ c.fractionText

def Date.textAt (d : Date) (c : Clock) : String := d.text ++ " " ++ c.text

/-- A moment of coordinated universal time, as RFC 3339 writes it. -/
def Date.momentText (d : Date) (c : Clock) : String := d.text ++ "T" ++ c.text ++ "+00:00"

example : (Date.mk 12024 2 29).text = "+12024-02-29" := by decide +kernel
example : (Clock.mk 23 59 59 1500000000).text = "23:59:60.500" := by decide +kernel

end SqlTemplate
