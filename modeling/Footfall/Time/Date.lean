/-!
Dates of the Gregorian calendar, extended backwards to the year 1, and their day numbers. Day 0 is
the first of January of the year 1, a Monday.
-/

namespace Footfall

structure Date where
  year : Nat
  month : Nat
  day : Nat
  deriving DecidableEq, Repr, Inhabited

/-- A number in decimal with at least the given count of digits. -/
def padded (width n : Nat) : String :=
  let digits := Nat.toDigits 10 n
  String.ofList (List.replicate (width - digits.length) '0' ++ digits)

namespace Date

def isLeap (year : Nat) : Bool := year % 4 == 0 && (year % 100 != 0 || year % 400 == 0)

def monthLengths (leap : Bool) : List Nat :=
  [31, if leap then 29 else 28, 31, 30, 31, 30, 31, 31, 30, 31, 30, 31]

def monthLength (year month : Nat) : Nat := (monthLengths (isLeap year)).getD (month - 1) 0

/-- A date that the calendar has, from the year 1 to the year 9999. -/
def IsReal (d : Date) : Prop :=
  1 ≤ d.year ∧ d.year ≤ 9999 ∧ 1 ≤ d.month ∧ d.month ≤ 12 ∧ 1 ≤ d.day ∧
    d.day ≤ monthLength d.year d.month

instance (d : Date) : Decidable d.IsReal := by unfold IsReal; infer_instance

def yearStart (year : Nat) : Nat :=
  let y := year - 1
  365 * y + y / 4 - y / 100 + y / 400

def dayOfYear (d : Date) : Nat :=
  ((monthLengths (isLeap d.year)).take (d.month - 1)).foldl (· + ·) 0 + (d.day - 1)

def number (d : Date) : Nat := yearStart d.year + d.dayOfYear

/-- Splits a day of the year into a month, counted from `m`, and the days before it in the
month. -/
def splitMonth : List Nat → Nat → Nat → Nat × Nat
  | [], m, n => (m, n)
  | l :: ls, m, n => if n < l then (m, n) else splitMonth ls (m + 1) (n - l)

/-- The year that holds a day, and the days before the day in that year: whole periods of 400, 100,
4 and 1 years are taken off in turn. -/
def splitYear (n : Nat) : Nat × Nat :=
  let r := n % 146097
  let centuries := min (r / 36524) 3
  let r₁ := r - 36524 * centuries
  let r₂ := r₁ % 1461
  let years := min (r₂ / 365) 3
  (400 * (n / 146097) + 100 * centuries + 4 * (r₁ / 1461) + years + 1, r₂ - 365 * years)

def ofNumber (n : Nat) : Date :=
  let (year, r) := splitYear n
  let (month, before) := splitMonth (monthLengths (isLeap year)) 1 r
  ⟨year, month, before + 1⟩

/-- The day of the week of a day number, Monday being 0. -/
def weekday (n : Nat) : Nat := n % 7

/-- The number of the week of the year; weeks start on Monday and days before the first Monday are
in week 0. -/
def weekOfYear (n : Nat) : Nat := ((splitYear n).2 + 7 - weekday n) / 7

def thursday (n : Nat) : Nat := n - weekday n + 3

/-- The year to which the week of a day belongs: the year of its Thursday. -/
def isoYear (n : Nat) : Nat := (splitYear (thursday n)).1

/-- The number of the week in its year, counted from 1. -/
def isoWeek (n : Nat) : Nat := (splitYear (thursday n)).2 / 7 + 1

def text (d : Date) : String :=
  padded 4 d.year ++ "-" ++ padded 2 d.month ++ "-" ++ padded 2 d.day

theorem splitMonth_le (ls : List Nat) (m n : Nat) : m ≤ (splitMonth ls m n).1 := by
  induction ls generalizing m n with
  | nil => simp [splitMonth]
  | cons l ls ih =>
    unfold splitMonth
    split
    · simp
    · exact Nat.le_trans (by omega) (ih (m + 1) (n - l))

theorem ofNumber_zero : ofNumber 0 = ⟨1, 1, 1⟩ := by decide

end Date

end Footfall
