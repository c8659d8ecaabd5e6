import Footfall.Failure
import Footfall.Report.Query
import Footfall.Value.Convert

/-!
Ad-hoc queries as they arrive: values of unknown shape, with numbers of unknown shape. An empty value
is an empty query; any other value that is no text is a fault, and each step says so in its own way.
-/

namespace Footfall.Sql

def checkText (query : String) : Except Failure String :=
  match check query.toList with
  | .ok cs => .ok (String.ofList cs)
  | .error v => .error (.violation (.query v))

/-- The text of a query whose blanks are to be taken off. -/
def trimmable : Value → Except Fault String
  | .text s => .ok s
  | .bytes _ => .error .bytesPattern
  | v => .error (.noAttribute v "strip")

def searchable : Value → Except Fault String
  | .text s => .ok s
  | .bytes _ => .error .bytesPattern
  | v => .error (.notSearchable v)

def normalizeValue (query : Value) : Except Fault String :=
  return String.ofList (normalize (← trimmable query).toList)

def violationOfValue (query : Value) : Except Fault (Option Violation) :=
  if query.isTruthy then return violation (← searchable query).toList else return some .empty

def checkValue (query : Value) : Except Failure String :=
  if query.isTruthy then do checkText (← (trimmable query).mapError .fault) else checkText ""

/-- The limit that a query needs, whose value is looked at only when the query has none of its
own. -/
def neededLimit (query : String) (rows : Value) : Except Fault (Option Int) :=
  if hasLimit query.toList then .ok none else some <$> rows.toWhole

def limitRowsTo (query rows : Value) : Except Fault String := do
  let query ← searchable query
  return match ← neededLimit query rows with
    | none => query
    | some n => limitRows query n

/-- The query seen by one site, and by one team if any. -/
def scopeTo (query dialect site team : Value) : Except Fault String := do
  let s ← site.toWhole
  let t ← if team.isNull then pure none else some <$> team.toWhole
  return scope (← searchable query) (dialect == .text "sqlite") s t

@[simp] theorem checkValue_text (s : String) : checkValue (.text s) = checkText s := by
  by_cases h : s = ""
  · simp [checkValue, Value.isTruthy, h]
  · have h : s.isEmpty = false := by simpa using h
    simp only [checkValue, Value.isTruthy, h, trimmable]
    rfl

end Footfall.Sql
