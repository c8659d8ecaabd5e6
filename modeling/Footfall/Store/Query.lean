import Footfall.Report.Answer
import Footfall.Report.Compile
import Footfall.Sql.Request
import Footfall.Sql.Select

/-!
Read-only queries as they are run: ad-hoc ones and those of charts. Both have to pass the guard, and
both are limited to a number of rows unless they limit themselves.
-/

namespace Footfall

inductive TableQuery
  | adHoc (query : Value)
  | chart (query : Report.ChartQuery)
  deriving BEq, Repr

/-- The number of rows asked for, within the number allowed. What counts as false asks for as many
as allowed. -/
def rowBound (asked allowed : Value) : Except Fault Value := do
  let first := if asked.isTruthy then asked else allowed
  return if ← allowed.lessThan first then allowed else first

namespace TableQuery

def check : TableQuery → Except Failure String
  | .adHoc query => Sql.checkValue query
  | .chart q => Sql.checkText q.text

/-- The rows over a table; none when the query cannot be run. A limit is given to a query that has
none of its own. -/
def rows? (q : TableQuery) (checked : String) (limit : Option Int) (t : Table) :
    Option (List Fields) :=
  match q with
  | .adHoc _ =>
    Sql.answer? (match limit with | some n => Sql.limitRows checked n | none => checked) t
  | .chart q =>
    if Sql.isRunnable checked && limit.all fitsTable then some (q.rows t (limit.getD (-1)))
    else none

/-- Runs a query over the rows that it may see, if there is a table. -/
def run (q : TableQuery) (maxRows : Value) (source : String) (view : Except Fault (Table → Table))
    (t : Option Table) : Except Failure (List Fields) := do
  let checked ← q.check
  let limit ← (Sql.neededLimit checked maxRows).mapError .fault
  let view ← view.mapError .fault
  match t.bind fun t ↦ q.rows? checked limit (view t) with
  | some rows => return rows
  | none => throw (.outage (.store source))

end TableQuery

namespace Table

def ofSite (t : Table) (site : Int) : Table := t.filter (·.site == site)

end Table

@[simp] theorem rowBound_int (m n : Int) :
    rowBound (.int m) (.int n) = .ok (.int (if m = 0 then n else min m n)) := by
  by_cases h : m = 0
  · subst h
    simp [rowBound, Value.isTruthy, bind, Except.bind, pure, Except.pure]
  · simp only [rowBound, Value.isTruthy, h, Value.lessThan_int, bind, Except.bind, pure, Except.pure,
      bne_iff_ne, ne_eq, not_false_eq_true, if_true, if_false, decide_eq_true_eq]
    by_cases hn : n < m
    · simp [hn, Int.min_eq_right (Int.le_of_lt hn)]
    · simp [hn, Int.min_eq_left (Int.not_lt.1 hn)]

end Footfall
