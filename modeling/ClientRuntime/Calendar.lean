import ClientRuntime.Instant

/-!
Instants as dates and times of day. A year has 365 days and every fourth one more, save for the
centuries that four hundred does not divide.
-/

namespace ClientRuntime

structure Date where
  year : Int
  month : Nat
  day : Nat
  deriving DecidableEq

/-- `n` in at least `width` digits. -/
def paddedDigits (width n : Nat) : String :=
  let digits := Nat.toDigits 10 n
  String.ofList (List.replicate (width - digits.length) '0' ++ digits)

namespace Date

/-- Days of four hundred years. -/
def cycleDays : Nat := 146097

/-- Days from the first of March of year 0 to the epoch. -/
def daysToEpoch : Nat := 719468

/-- The date some days after the epoch. Years are counted from March, so the day that some of them
have more comes last, and months of 31, 30, 31, 30 and 31 days follow each other. -/
def ofDays (days : Int) : Date :=
  let n := days + daysToEpoch
  let d := (n.emod cycleDays).toNat
  let years := (d - d / 1460 + d / 36524 - d / 146096) / 365
  let dayOfYear := d - (365 * years + years / 4 - years / 100)
  let month := (5 * dayOfYear + 2) / 153
  let day := dayOfYear - (153 * month + 2) / 5 + 1
  let year := n.fdiv cycleDays * 400 + years
  if month < 10 then ⟨year, month + 3, day⟩ else ⟨year + 1, month - 9, day⟩

/-- Years of four digits; all others have a sign. -/
def yearText (year : Int) : String :=
  if 0 ≤ year ∧ year ≤ 9999 then paddedDigits 4 year.toNat
  else (if year < 0 then "-" else "+") ++ paddedDigits 4 year.natAbs

def text (d : Date) : String :=
  "-".intercalate [yearText d.year, paddedDigits 2 d.month, paddedDigits 2 d.day]

end Date

namespace Instant

/-- Decimals of a second in groups of three, as many as it takes. -/
def decimals (nanos : Nat) : String :=
  if nanos = 0 then ""
  else if nanos % 1000000 = 0 then "." ++ paddedDigits 3 (nanos / 1000000)
  else if nanos % 1000 = 0 then "." ++ paddedDigits 6 (nanos / 1000)
  else "." ++ paddedDigits 9 nanos

/-- Date and time of day at the zero meridian. -/
def text (t : Instant) : String :=
  let second := (t.secs.emod 86400).toNat
  let parts := [second / 3600, second / 60 % 60, second % 60]
  (Date.ofDays (t.secs.fdiv 86400)).text ++ "T" ++
    ":".intercalate (parts.map (paddedDigits 2)) ++ decimals t.subsecNanos ++ "Z"

end Instant

end ClientRuntime
