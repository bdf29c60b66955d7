import ShaderHeaders.Text.Decimal
import ShaderHeaders.Text.Utf8

/-!
# Timestamps

A timestamp is an instant, counted in nanoseconds from 1970-01-01T00:00:00 UTC, and its date is
in the proleptic Gregorian calendar. To find the date, days are counted from 0000-03-01 in years
that begin in March, so that a leap day ends its year: an era of 400 years has 146097 days, a
century 36524 (the last of an era one more), four years 1461 (the last of a century one less)
and a year 365 (the last of four one more).

A timestamp is written as RFC 3339 with nanoseconds, in UTC: `YYYY-MM-DDTHH:MM:SS`, then a point
and the nine digits of the fraction of the second without their trailing zeros when the second
is not whole, then `Z`. The year has at least four digits, with `-` before a negative one.

Reading takes the strict form back: four digits of year from 0 to 9999, a month, a day within its
month, hours, minutes and seconds each of two digits and in range, the separators `-`, `T` and
`:`, an optional fraction of which the first nine digits count, and `Z` or an offset `+hh:mm` or
`-hh:mm`.

* `Calendar.civil` and `Calendar.daysFromCivil` go between days and dates;
* `Timestamp.render` writes a timestamp and `Timestamp.ofText?` reads one.
-/

namespace ShaderHeaders

/-- An instant, in nanoseconds since 1970-01-01T00:00:00 UTC. -/
structure Timestamp where
  nanoseconds : Int
  deriving DecidableEq, Repr

namespace Calendar

/-- Whether a year is a leap year. -/
def isLeap (y : Int) : Bool := y % 4 = 0 && (y % 100 ≠ 0 || y % 400 = 0)

/-- The days of a month (`1` to `12`) of a year. -/
def daysIn (m : Nat) (y : Int) : Nat :=
  if m = 2 then (if isLeap y then 29 else 28)
  else if m = 4 || m = 6 || m = 9 || m = 11 then 30
  else 31

/-- Days from 0000-03-01 to 1970-01-01. -/
def epochDays : Int := 719468

/-- The day of a March-based year on which a month begins, March being month `0`. -/
def monthStart (mp : Nat) : Nat := (153 * mp + 2) / 5

/-- The year within its era of a day of the era, with the day of that year: whole centuries
(the fourth takes the era's extra day), whole four-year cycles, then whole years (the fourth
takes the cycle's extra day). -/
def yearOfEra (doe : Nat) : Nat × Nat :=
  let c := min (doe / 36524) 3
  let doc := doe - c * 36524
  let q := doc / 1461
  let doq := doc - q * 1461
  let y := min (doq / 365) 3
  (c * 100 + q * 4 + y, doq - y * 365)

/-- The month (March `0`) of a day of a March-based year, and the day within it from `1`. -/
def monthDay (doy : Nat) : Nat × Nat :=
  let mp := (5 * doy + 2) / 153
  (mp, doy - monthStart mp + 1)

/-- The year, month and day of a day counted from 1970-01-01 (days before it are negative). -/
def civil (days : Int) : Int × Nat × Nat :=
  let z := days + epochDays
  let (yoe, doy) := yearOfEra (z % 146097).toNat
  let (mp, d) := monthDay doy
  if mp < 10 then (z / 146097 * 400 + yoe, mp + 3, d)
  else (z / 146097 * 400 + yoe + 1, mp - 9, d)

/-- The day, counted from 1970-01-01, of a year, month and day. -/
def daysFromCivil (y : Int) (m d : Nat) : Int :=
  let y' := if m ≤ 2 then y - 1 else y
  let mp := if m ≤ 2 then m + 9 else m - 3
  y' * 365 + y' / 4 - y' / 100 + y' / 400 + (monthStart mp + d - 1 : Nat) - epochDays

end Calendar

namespace Timestamp

open Calendar

/-- The nanoseconds in a second. -/
def nanosPerSecond : Int := 1000000000

/-- The whole seconds since the epoch. -/
def seconds (t : Timestamp) : Int := t.nanoseconds / nanosPerSecond

/-- The nanoseconds past the whole second. -/
def nanos (t : Timestamp) : Nat := (t.nanoseconds % nanosPerSecond).toNat

/-- The day of the timestamp, counted from 1970-01-01. -/
def day (t : Timestamp) : Int := t.seconds / 86400

/-- The second of its day. -/
def secondOfDay (t : Timestamp) : Nat := (t.seconds % 86400).toNat

/-- The year of the timestamp's date. -/
def year (t : Timestamp) : Int := (civil t.day).1

/-- Two decimal digits. -/
def two (n : Nat) : String := Decimal.zeroPad 2 n

/-- A year as time formats write it: at least four digits, `-` before a negative one. -/
def yearText (y : Int) : String :=
  if y < 0 then "-" ++ Decimal.zeroPad 4 y.natAbs else Decimal.zeroPad 4 y.toNat

/-- A fraction of nanoseconds with its trailing zeros dropped, and how many were dropped; at
most `fuel` are. -/
def trimZeros : Nat → Nat → Nat × Nat
  | 0, n => (n, 0)
  | fuel + 1, n =>
    if n ≠ 0 ∧ n % 10 = 0 then
      let (v, r) := trimZeros fuel (n / 10)
      (v, r + 1)
    else (n, 0)

/-- The fraction of a second after the point: its nine digits without the trailing zeros, or
nothing for a whole second. -/
def fractionText (ns : Nat) : String :=
  if ns = 0 then ""
  else
    let (v, r) := trimZeros 8 ns
    "." ++ Decimal.zeroPad (9 - r) v

/-- The timestamp written as RFC 3339 with nanoseconds, in UTC. -/
def render (t : Timestamp) : String :=
  let (y, m, d) := civil t.day
  let s := t.secondOfDay
  yearText y ++ "-" ++ two m ++ "-" ++ two d ++ "T" ++ two (s / 3600) ++ ":" ++
    two (s / 60 % 60) ++ ":" ++ two (s % 60) ++ fractionText t.nanos ++ "Z"

/-! ## Reading -/

/-- An ASCII digit. -/
def isDigit (b : UInt8) : Bool := 48 ≤ b && b ≤ 57

/-- The value of the digits read so far followed by one more byte, which must be a digit. -/
def digitStep (acc : Nat) (b : UInt8) : Option Nat :=
  if isDigit b then some (acc * 10 + (b.toNat - 48)) else none

/-- The value of a string of ASCII digits; `none` when a byte is not a digit. -/
def digitsValue (bs : List UInt8) : Option Nat := bs.foldlM digitStep 0

/-- A field of digits whose value lies from `lo` to `hi`. -/
def field (bs : List UInt8) (lo hi : Nat) : Option Nat := do
  let v ← digitsValue bs
  if lo ≤ v ∧ v ≤ hi then some v else none

/-- The nanoseconds of a fraction after the seconds, a point and digits of which the first nine
count, with what follows it; no fraction is nothing. -/
def fraction (bs : List UInt8) : Nat × List UInt8 :=
  match bs with
  | 46 :: b :: more =>
    if isDigit b then
      let ds := (b :: more).takeWhile isDigit
      let kept := ds.take 9
      ((digitsValue kept).getD 0 * Nat.pow 10 (9 - kept.length), (b :: more).dropWhile isDigit)
    else (0, bs)
  | _ => (0, bs)

/-- The offset from UTC, in seconds, of a zone: `Z`, or a sign, two digits of hours to 23, `:` and
two digits of minutes to 59. -/
def zone : List UInt8 → Option Int
  | [90] => some 0
  | [sign, h₁, h₂, 58, m₁, m₂] => do
    let hh ← field [h₁, h₂] 0 23
    let mm ← field [m₁, m₂] 0 59
    if sign = 43 then some ((hh * 60 + mm) * 60)
    else if sign = 45 then some (-((hh * 60 + mm) * 60))
    else none
  | _ => none

/-- Reads a timestamp written in the strict RFC 3339 form. -/
def ofText? (s : String) : Option Timestamp := do
  let bs := Utf8.bytes s
  guard (19 ≤ bs.length)
  let year ← field (bs.take 4) 0 9999
  let month ← field ((bs.drop 5).take 2) 1 12
  let day ← field ((bs.drop 8).take 2) 1 (daysIn month year)
  let hour ← field ((bs.drop 11).take 2) 0 23
  let minute ← field ((bs.drop 14).take 2) 0 59
  let second ← field ((bs.drop 17).take 2) 0 59
  guard (bs[4]? = some 45 ∧ bs[7]? = some 45 ∧ bs[10]? = some 84 ∧ bs[13]? = some 58 ∧
    bs[16]? = some 58)
  let (ns, rest) := fraction (bs.drop 19)
  let offset ← zone rest
  let secs := daysFromCivil year month day * 86400 + hour * 3600 + minute * 60 + second - offset
  pure ⟨secs * nanosPerSecond + ns⟩

/-- The zero time of a record that sets none: 0001-01-01T00:00:00Z. -/
def zero : Timestamp := ⟨-62135596800 * nanosPerSecond⟩

end Timestamp

end ShaderHeaders
