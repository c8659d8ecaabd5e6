import Footfall.Report.Widget

/-!
Chart data from the rows of a query: labels and metrics. A metric without a fraction becomes a whole
number, a missing one zero.
-/

namespace Footfall.Report

def metricNumber : Value → Except Fault Value
  | .null => .ok (.int 0)
  | v => do
    let x ← v.toReal
    match x.whole? with
    | some n => return .int n
    | none => return .float x

def cellOf (row : Value) (key : String) : Except Fault Value :=
  match row with
  | .object fields =>
    match Value.lookup fields key with
    | some v => .ok v
    | none => .error (.missingKey key)
  | v => .error (.itemKey v)

def shapeFlow (row : Value) : Except Fault Value := do
  let source ← cellOf row "source"
  let target ← cellOf row "target"
  let value ← metricNumber (← cellOf row "value")
  return .object [("source", .text source.plain), ("target", .text target.plain), ("value", value)]

def shapePoint (row : Value) : Except Fault Value := do
  let x ← cellOf row "x"
  let y ← metricNumber (← cellOf row "y")
  return .object [("x", x), ("y", y)]

def shapeRow (w : Widget) : Value → Except Fault Value :=
  if w.chart = .sankey then shapeFlow else shapePoint

def shape (w : Widget) (rows : List Value) : Except Fault (List Value) := rows.mapM (shapeRow w)

end Footfall.Report
