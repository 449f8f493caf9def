import LinkTemplate.Decimal.Binary64
import LinkTemplate.Failure

/-!
# Timestamps

The time of a record is written in UTC with milliseconds. It is given in microseconds since the
start of 1970 and kept as a double-precision number of seconds, from which the microseconds are
recovered by rounding; far from 1970 this moves a time by some microseconds. What is finer than
a millisecond is cut off toward the past.
-/

namespace LinkTemplate.Log.Timestamp

open Decimal

/-- A day of the Gregorian calendar. -/
structure Date where
  year : Int
  month : Nat
  day : Nat
  deriving DecidableEq

/-- The date of a day counted from 1 January 1970. Years are taken to start in March, so that
the day that leap years add is the last, and 400 years are the period of the calendar. -/
def dateOfDay (day : Int) : Date :=
  let shifted := day + 719468
  let era := shifted.fdiv 146097
  let dayOfEra := (shifted.fmod 146097).toNat
  let yearOfEra := (dayOfEra - dayOfEra / 1460 + dayOfEra / 36524 - dayOfEra / 146096) / 365
  let dayOfYear := dayOfEra - (365 * yearOfEra + yearOfEra / 4 - yearOfEra / 100)
  let monthFromMarch := (5 * dayOfYear + 2) / 153
  let month := if monthFromMarch < 10 then monthFromMarch + 3 else monthFromMarch - 9
  { year := era * 400 + yearOfEra + if month ≤ 2 then 1 else 0
    month
    day := dayOfYear - (153 * monthFromMarch + 2) / 5 + 1 }

/-- The microseconds that a double-precision number of seconds recovers. -/
def recovered (micros : Int) : Int :=
  match Binary64.nearest (micros < 0) micros.natAbs 1000000 with
  | .finite negative m q =>
    let (n, d) :=
      if q < 0 then (m * 1000000, Nat.pow 2 q.natAbs)
      else (m * 1000000 * Nat.pow 2 q.natAbs, 1)
    let size : Int := Binary64.roundHalfEven n d
    if negative then -size else size
  | _ => micros

/-- A number with zeros in front up to `width` digits. -/
def padded (width n : Nat) : Text :=
  List.replicate (width - (natText n).length) '0' ++ natText n

/-- The timestamp of a time in microseconds since the start of 1970. -/
def ofMicros (micros : Int) : Except Failure Text :=
  let millis := (recovered micros).fdiv 1000
  let date := dateOfDay (millis.fdiv 86400000)
  let ofDay := (millis.fmod 86400000).toNat
  if date.year < 1 ∨ 9999 < date.year then .error .timeOutOfRange
  else .ok (padded 4 date.year.toNat ++ '-' :: padded 2 date.month ++ '-' :: padded 2 date.day ++
    'T' :: padded 2 (ofDay / 3600000) ++ ':' :: padded 2 (ofDay / 60000 % 60) ++
    ':' :: padded 2 (ofDay / 1000 % 60) ++ '.' :: padded 3 (ofDay % 1000) ++ ['Z'])

end LinkTemplate.Log.Timestamp
