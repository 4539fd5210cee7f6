import Mathlib.Data.Int.DivMod

/-! Instants on the UTC axis and their text. Rows are compared by instant: a value
read back without its zone is taken as UTC before any comparison. -/
namespace StockContent.Storage

/-- Microseconds since 1970-01-01T00:00:00Z, for instants and durations alike. -/
abbrev Time := Int

/-- `timedelta(seconds=n)`. -/
def seconds (n : Int) : Time := n * 1000000

theorem seconds_pos {n : Int} (h : 0 < n) : 0 < seconds n := Int.mul_pos h (by decide)

/-- The proleptic Gregorian date of a day number, as (year, month, day). The year
starts in March while the date is computed, so that a leap day comes last. -/
def civilDate (day : Int) : Int × Int × Int :=
  let z := day + 719468
  let era := z / 146097
  let dayOfEra := z % 146097
  let yearOfEra := (dayOfEra - dayOfEra / 1460 + dayOfEra / 36524 - dayOfEra / 146096) / 365
  let dayOfYear := dayOfEra - (365 * yearOfEra + yearOfEra / 4 - yearOfEra / 100)
  let shifted := (5 * dayOfYear + 2) / 153
  let month := if shifted < 10 then shifted + 3 else shifted - 9
  (yearOfEra + era * 400 + (if month ≤ 2 then 1 else 0), month, dayOfYear - (153 * shifted + 2) / 5 + 1)

/-- A natural number in decimal, with leading zeros up to a width. -/
def padded (width : Nat) (n : Nat) : String :=
  let digits := Nat.toDigits 10 n
  String.ofList (List.replicate (width - digits.length) '0' ++ digits)

/-- `isoformat()` of an aware UTC instant; a zero fraction is left out. -/
def isoformat (t : Time) : String :=
  let (year, month, day) := civilDate (t / 86400000000)
  let ofDay := (t % 86400000000).toNat
  let fraction := ofDay % 1000000
  padded 4 year.toNat ++ "-" ++ padded 2 month.toNat ++ "-" ++ padded 2 day.toNat ++ "T" ++
    padded 2 (ofDay / 3600000000) ++ ":" ++ padded 2 (ofDay / 60000000 % 60) ++ ":" ++
    padded 2 (ofDay / 1000000 % 60) ++ (if fraction = 0 then "" else "." ++ padded 6 fraction) ++ "+00:00"

example : isoformat (seconds 1767225600 + 5) = "2026-01-01T00:00:00.000005+00:00" := by decide

end StockContent.Storage
