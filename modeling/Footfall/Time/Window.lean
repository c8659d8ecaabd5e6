import Footfall.Fault

/-!
Spans of time, rolling windows of days that end at some time, and the instants that values stand
for. A number of units may have a fraction; it is turned into whole microseconds once, at the end.
-/

namespace Footfall

def maxSpanDays : Int := 999999999

/-- The microseconds of a floating-point number of units. The whole part is exact; the fraction is
scaled first, and of what is then left a half goes to the even neighbour. -/
def microsOfReal (unit : Int) (x : Double) : Int :=
  let units := x.truncate?.getD 0
  let scaled := (x.add (Double.ofInt (-units))).mul (Double.ofInt unit)
  let base := units * unit + scaled.truncate?.getD 0
  let rest := (scaled.add (Double.ofInt (-(scaled.truncate?.getD 0)))).ratio?.getD (0, 1)
  let total := base * rest.2 + rest.1
  let n : Int := Double.roundHalfEven total.natAbs rest.2
  if total < 0 then -n else n

def microsOf (unit : Int) : Number → Except Fault Int
  | .whole n => .ok (n * unit)
  | .real .nan => .error .notANumber
  | .real (.infinite _) => .error .infinite
  | .real x => .ok (microsOfReal unit x)

/-- The span of a number of units of a name and a size, in microseconds. -/
def spanOf (name : String) (unit : Int) (v : Value) : Except Fault Int :=
  match v.number? with
  | none => .error (.spanKind name v)
  | some n => do
    let micros ← microsOf unit n
    let days := micros.fdiv Instant.dayLength
    if days < -0x80000000 ∨ 0x80000000 ≤ days then throw .hugeSpan
    else if days < -maxSpanDays ∨ maxSpanDays < days then throw (.longSpan days)
    else return micros

def spanOfDays (days : Value) : Except Fault Int := spanOf "days" Instant.dayLength days

def spanOfSeconds (seconds : Value) : Except Fault Int := spanOf "seconds" Instant.second seconds

def Instant.earlier (t : Instant) (micros : Int) : Except Fault Instant :=
  match t.shift? (-micros) with
  | some i => .ok i
  | none => .error .outsideCalendar

def Instant.daysBefore (t : Instant) (days : Value) : Except Fault Instant := do
  t.earlier (← spanOfDays days)

/-- The date a span earlier, of which whole days alone count. -/
def Date.earlier (d : Date) (micros : Int) : Except Fault Date := do
  return (← (Instant.ofDate d).earlier (micros.fdiv Instant.dayLength * Instant.dayLength)).date

def Timestamp.toInstant (t : Timestamp) : Except Fault Instant :=
  match t.toInstant? with
  | some i => .ok i
  | none => .error .outsideCalendar

/-- The instant that a value stands for: a time, or the midnight of a date. -/
def Value.toInstant : Value → Except Fault Instant
  | .time t => t.toInstant
  | .date d => .ok (.ofDate d)
  | v => .error (.dateKind v)

/-- The instant that a value stands for; null stands for none. -/
def Value.toInstantOrNone (v : Value) : Except Fault (Option Instant) :=
  if v.isNull then .ok none else some <$> v.toInstant

/-- The same time of day on the same clock a number of days earlier. -/
def Value.daysBefore (v : Value) (days : Value) : Except Fault Value := do
  let span ← spanOfDays days
  match v with
  | .time t => return .time ⟨← t.wall.earlier span, t.offset⟩
  | .date d => return .date (← d.earlier span)
  | v => throw (.notEarlier v)

/-- The end of a range: as given when it is exact, otherwise the end of its day. -/
def Instant.resolveEnd (t : Instant) (exact : Bool) : Instant := if exact then t else t.endOfDay

def defaultWindowDays : Int := 7

theorem Value.toInstant_time {t : Timestamp} {i : Instant} (h : t.toInstant? = some i) :
    (Value.time t).toInstant = .ok i := by
  simp only [Value.toInstant, Timestamp.toInstant, h]

theorem spanOf_int (name : String) {unit n : Int}
    (low : -maxSpanDays ≤ (n * unit).fdiv Instant.dayLength)
    (high : (n * unit).fdiv Instant.dayLength ≤ maxSpanDays) :
    spanOf name unit (.int n) = .ok (n * unit) := by
  unfold maxSpanDays at low high
  have h₁ : ¬((n * unit).fdiv Instant.dayLength < -0x80000000 ∨
      0x80000000 ≤ (n * unit).fdiv Instant.dayLength) := by omega
  have h₂ : ¬((n * unit).fdiv Instant.dayLength < -maxSpanDays ∨
      maxSpanDays < (n * unit).fdiv Instant.dayLength) := by unfold maxSpanDays; omega
  simp only [spanOf, Value.number?, microsOf, bind, Except.bind, h₁, h₂, if_false]
  rfl

theorem spanOfDays_int {n : Int} (low : -maxSpanDays ≤ n) (high : n ≤ maxSpanDays) :
    spanOfDays (.int n) = .ok (n * Instant.dayLength) := by
  have h : (n * (Instant.dayLength : Int)).fdiv Instant.dayLength = n := by
    rw [Int.fdiv_eq_ediv_of_nonneg _ (by simp [Instant.dayLength_eq])]
    exact Int.mul_ediv_cancel n (by simp [Instant.dayLength_eq])
  exact spanOf_int "days" (by rwa [h]) (by rwa [h])

end Footfall
