import Footfall.Event.Record
import Footfall.Time.Window

/-!
Ranges of time. A range may be open on either side; its end covers the whole day unless it is exact.
-/

namespace Footfall

structure DateRange where
  start : Option Instant := none
  stop : Option Instant := none
  exact : Bool := false
  deriving DecidableEq, Repr, Inhabited

namespace DateRange

def last (r : DateRange) : Option Instant := r.stop.map (·.resolveEnd r.exact)

def isOrdered (r : DateRange) : Bool :=
  match r.start, r.last with
  | some a, some b => decide (a ≤ b)
  | _, _ => true

/-- A range without bounds on either side. -/
def isUnbounded (r : DateRange) : Bool := r.start.isNone && r.stop.isNone

/-- Whether an instant lies in the range; a missing bound imposes nothing. -/
def contains (r : DateRange) (t : Instant) : Bool :=
  r.start.all (fun a ↦ decide (a ≤ t)) && r.last.all (fun b ↦ decide (t ≤ b))

open Footfall.Field in
def read (v : Value) : Reading DateRange :=
  (record "DateRange" v).bind fun fields ↦
    (DateRange.mk <$> optional fields "start" none (nullable instantOrDate)
      <*> optional fields "end" none (nullable instantOrDate)
      <*> optional fields "end_is_exact" false truth).bind fun r ↦
    if r.isOrdered then .accepted r
    else .refuse (.rule "End date must be on or after start date")

def toValue (r : DateRange) : Value :=
  .object [("start", .ofOption .ofInstant r.start), ("end", .ofOption .ofInstant r.stop),
    ("end_is_exact", .bool r.exact)]

theorem isOrdered_of_read {v : Value} {r : DateRange} (h : read v = .accepted r) :
    r.isOrdered = true := by
  unfold read at h
  cases hr : Field.record "DateRange" v with
  | accepted fields =>
    rw [hr] at h
    simp only [Reading.bind] at h
    split at h
    · split at h
      · injection h with h
        subst h
        assumption
      · cases h
    all_goals cases h
  | rejected is => rw [hr] at h; cases h
  | failed e => rw [hr] at h; cases h

@[simp] theorem contains_unbounded (t : Instant) : contains {} t = true := rfl

end DateRange

end Footfall
