import Footfall.Query.Scope
import Footfall.Report.Query
import Footfall.Report.Widget

/-!
Compilation of a widget into a query. Every field that the query names is first checked: it has to
be a bare identifier and one of the columns that may be queried. Values never become names.
-/

namespace Footfall.Report

def isIdentifierStart (c : Char) : Bool := c.isAlpha || c == '_'
def isIdentifierRest (c : Char) : Bool := c.isAlphanum || c == '_'

/-- A letter or low line followed by letters, digits and low lines, all of ASCII. -/
def isIdentifier (s : String) : Bool :=
  match s.toList with
  | c :: rest => isIdentifierStart c && rest.all isIdentifierRest
  | [] => false

/-- The name of a field, if it is an identifier and among the columns. -/
def checkField (name : Value) (columns : List String) : Except Failure String :=
  match name with
  | .text s =>
    if !isIdentifier s then .error (.field name .pattern)
    else if s ∈ columns then .ok s
    else .error (.field name .available)
  | _ => .error (.field name .pattern)

def checkName (name : String) (columns : List String) : Except Failure String :=
  checkField (.text name) columns

/-- A limit outside 1 to 500 is brought to the nearer end; without a finite number it is 25. -/
def rowLimit : Number → Int
  | .whole n => min (max n 1) 500
  | .real x =>
    match x.floor? with
    | some n => min (max n 1) 500
    | none => 25

/-- The row limit of a value of unknown shape. A truth value is no number; a whole number too large
to be converted is a fault. -/
def clampLimit : Value → Except Fault Int
  | .bool _ => .ok 25
  | v =>
    match v.toReal with
    | .ok x => .ok (rowLimit (.real x))
    | .error .hugeForReal => .error .hugeForReal
    | .error _ => .ok 25

def dateOf? (s : Option String) : Option Date :=
  match (s.map String.toList).bind Time.readDate? with
  | some (.ok d) => some d
  | _ => none

def lastDate : Date := ⟨9999, 12, 31⟩

def nextDay (d : Date) : Except Fault Date :=
  if d = lastDate then .error .outsideCalendar else .ok (.ofNumber (d.number + 1))

/-- The conditions of a range of whole days, used only when both ends are dates. -/
def dayConditions (f : WidgetFilters) : Except Fault (List Condition) :=
  match dateOf? f.start, dateOf? f.stop with
  | some a, some b => return [.since a, .before (← nextDay b)]
  | _, _ => .ok []

def textFilters (f : WidgetFilters) : List (String × Option String) :=
  [("device_type", f.device), ("country", f.country), ("city", f.city), ("region", f.region),
   ("referer", f.source), ("page_url", f.page), ("event", f.event)]

def activeFilters (f : WidgetFilters) : List (String × String) :=
  (textFilters f).filterMap fun p ↦
    match p.2 with
    | some v => if v.isEmpty then none else some (p.1, v)
    | none => none

def textConditions (f : WidgetFilters) : List Condition :=
  (activeFilters f).map fun p ↦ .text p.1 p.2

def filterConditions : Option WidgetFilters → Except Fault (List Condition)
  | none => .ok []
  | some f => return (← dayConditions f) ++ textConditions f

/-- The conditions of a scope, whose site and team are converted to numbers. -/
def scopeConditions : Option Scope → Except Fault (List Condition)
  | none => .ok []
  | some s => return [.number "site_id" (← s.site.toWhole), .number "team_id" (← s.team.toWhole)]

def groupFields (w : Widget) : List String :=
  if w.chart = .sankey then [w.sourceField, w.targetField] else [w.xField]

def metricFields (w : Widget) : List String :=
  match w.aggregation with
  | .sum | .average => [w.yField]
  | .count | .uniqueUsers => []

/-- The fields that a widget's query names, in the order in which they are checked. -/
def referencedFields (w : Widget) : List String := groupFields w ++ metricFields w

def metricOf (w : Widget) : Metric :=
  match w.aggregation with
  | .count => .events
  | .uniqueUsers => .sessions
  | .sum => .sum w.yField
  | .average => .average w.yField

def groupingOf (w : Widget) : Grouping :=
  if w.chart = .sankey then .flow w.sourceField w.targetField
  else if w.xField = timeField then .days
  else .values w.xField

def checkFields (fields : List String) (columns : List String) : Except Failure Unit :=
  fields.forM fun f ↦ (checkName f columns).map fun _ ↦ ()

def Dialect.ofValue (v : Value) : Except Fault Dialect := do
  match (← v.asTextKey).bind Dialect.ofName? with
  | some d => return d
  | none => throw (.dialect v)

/-- The query of a widget in the named dialect, over the columns that may be queried. -/
def compile (w : Widget) (columns : List String) (filters : Option WidgetFilters)
    (dialect : Value) (scope : Option Scope) : Except Failure ChartQuery := do
  let d ← (Dialect.ofValue dialect).mapError .fault
  checkFields (referencedFields w) columns
  let tenant ← (scopeConditions scope).mapError .fault
  let filtered ← (filterConditions filters).mapError .fault
  return ⟨d, groupingOf w, metricOf w, tenant ++ filtered, rowLimit w.limit⟩

theorem rowLimit_mem (n : Number) : 1 ≤ rowLimit n ∧ rowLimit n ≤ 500 := by
  unfold rowLimit
  split
  · omega
  · split <;> omega

end Footfall.Report
