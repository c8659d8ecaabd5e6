import Footfall.Number.Front
import Footfall.Report.Chart
import Footfall.Report.Query
import Footfall.Store.Aggregate
import Footfall.Time.Bucket

/-!
The answer of a chart query over the rows of a table. Rows that meet all conditions are grouped by
their labels, and each group has one metric. Groups come in the order of their metrics, the greatest
first, and groups with equal metrics in the order of their labels; the days of a time series come in
their own order.
-/

namespace Footfall.Report

def cellOfField (field : String) (e : StoredEvent) : Cell :=
  ((Column.ofName? field).map e.cell).getD .null

def fieldText (field : String) (e : StoredEvent) : Option String := (cellOfField field e).asText

def Condition.holds (e : StoredEvent) : Condition → Bool
  | .number field n => cellOfField field e == .whole n
  | .since day => decide (Instant.ofDate day ≤ e.createdAt)
  | .before day => decide (e.createdAt < Instant.ofDate day)
  | .text field value => fieldText field e == some value

def Condition.isOnDay : Condition → Bool
  | .since _ | .before _ => true
  | .number .. | .text .. => false

/-- The label of events without a value. -/
def unknownLabel : String := "Unknown"

def labelOf (field : String) (e : StoredEvent) : String := (fieldText field e).getD unknownLabel

def Grouping.labels (e : StoredEvent) : Grouping → List (Option String)
  | .flow source target => [some (labelOf source e), some (labelOf target e)]
  | .days => [Granularity.day.storedLabel e.createdAt]
  | .values field => [some (labelOf field e)]

def Grouping.labelNames : Grouping → List String
  | .flow .. => ["source", "target"]
  | .days | .values _ => ["x"]

def Grouping.metricName : Grouping → String
  | .flow .. => "value"
  | .days | .values _ => "y"

/-- The number that a field holds, text counting by its front. -/
def fieldNumber (field : String) (e : StoredEvent) : Double :=
  match cellOfField field e with
  | .null => Double.zero
  | .whole n => Double.ofInt n
  | .text s => Numeral.frontReal s

/-- The value of a metric of a group. -/
inductive Measure
  | count (n : Nat)
  | real (x : Double)
  deriving DecidableEq, Repr

namespace Measure

def toValue : Measure → Value
  | .count n => .int n
  | .real .nan => .null
  | .real x => .float x

def compareDown : Measure → Measure → Ordering
  | .count a, .count b => compare b a
  | .real .nan, .real .nan => .eq
  | .real .nan, .real _ => .gt
  | .real _, .real .nan => .lt
  | .real a, .real b => if b.lt a then .lt else if a.lt b then .gt else .eq
  | .count _, .real _ => .lt
  | .real _, .count _ => .gt

end Measure

def Metric.measure (rows : Table) : Metric → Measure
  | .events => .count rows.length
  | .sessions => .count (distinct (rows.filterMap (·.context.rid))).length
  | .sum field => .real (Double.sum (rows.map (fieldNumber field)))
  | .average field => .real ((Double.sum (rows.map (fieldNumber field))).div (.ofInt rows.length))

/-- A group of events with its labels and its metric. -/
structure Group where
  labels : List (Option String)
  measure : Measure
  deriving DecidableEq, Repr

def Group.toFields (grouping : Grouping) (g : Group) : Fields :=
  grouping.labelNames.zip (g.labels.map Value.ofText) ++ [(grouping.metricName, g.measure.toValue)]

def compareLabel : Option String → Option String → Ordering
  | some a, some b => compare a b
  | some _, none => .gt
  | none, some _ => .lt
  | none, none => .eq

def compareLabels : List (Option String) → List (Option String) → Ordering
  | a :: as, b :: bs => (compareLabel a b).then (compareLabels as bs)
  | [], [] => .eq
  | [], _ :: _ => .lt
  | _ :: _, [] => .gt

def compareGroups : Grouping → Group → Group → Ordering
  | .days, a, b => compareLabels a.labels b.labels
  | _, a, b => (a.measure.compareDown b.measure).then (compareLabels a.labels b.labels)

/-- The order of creation, rows of one instant in the order of their numbers. -/
def isOlder (a b : StoredEvent) : Bool :=
  decide (a.createdAt < b.createdAt) || (a.createdAt == b.createdAt && decide (a.id ≤ b.id))

namespace ChartQuery

/-- The rows that meet all conditions. A condition on the day lets them be read in the order of
their creation. -/
def select (q : ChartQuery) (t : Table) : Table :=
  let rows := t.filter fun e ↦ q.conditions.all (·.holds e)
  if q.conditions.any (·.isOnDay) then rows.mergeSort isOlder else rows

def groups (q : ChartQuery) (t : Table) : List Group :=
  let rows := q.select t
  (distinct (rows.map (q.grouping.labels ·))).map fun ls ↦
    ⟨ls, q.metric.measure (rows.filter fun e ↦ q.grouping.labels e == ls)⟩

def isLimited (q : ChartQuery) : Bool := q.grouping != .days

/-- The groups of the answer in order; a time series is cut at the number of rows allowed. -/
def answer (q : ChartQuery) (t : Table) (maxRows : Int) : List Group :=
  let sorted := (q.groups t).mergeSort fun a b ↦ (compareGroups q.grouping a b).isLE
  Table.limited (if q.isLimited then q.limit else maxRows) sorted

def rows (q : ChartQuery) (t : Table) (maxRows : Int) : List Fields :=
  (q.answer t maxRows).map (Group.toFields q.grouping)

end ChartQuery

end Footfall.Report
