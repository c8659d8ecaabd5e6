import Footfall.Http.Call
import Footfall.Service.Basic

/-!
What the service answers to calls. A call whose dates are wrong is refused before the service is
asked; work that never ends has no answer.
-/

namespace Footfall.Http

inductive DateIssue
  | form
  | order
  deriving DecidableEq, Repr

def DateIssue.message : DateIssue → String
  | .form => "Invalid date format. Use YYYY-MM-DD (e.g., 2024-01-15)"
  | .order => "End date must be on or after start date"

namespace Dates

/-- The date that a parameter gives; an empty one gives none. -/
def date : Option String → Except DateIssue (Option Date)
  | none => .ok none
  | some s =>
    if s.isEmpty then .ok none
    else
      match Time.readIsoDate? s.utf8ByteSize s.toList with
      | some d => .ok (some d)
      | none => .error .form

/-- Whether the second of two dates is not before the first. -/
def areOrdered : Option Date → Option Date → Bool
  | some a, some b => decide (a.number ≤ b.number)
  | _, _ => true

/-- The range from the first instant of one day to the last of another. -/
def range (d : Dates) : Except DateIssue DateRange := do
  let start ← date d.start
  let stop ← date d.stop
  if areOrdered start stop then
    return { start := start.map Instant.ofDate, stop := stop.map Instant.ofDate }
  else throw .order

end Dates

namespace Call

def badDates (i : DateIssue) : Response := .detail 400 i.message

def within {σ : Type} (d : Dates) (s : σ) (f : DateRange → Option Response × σ) :
    Option Response × σ :=
  match d.range with
  | .ok r => f r
  | .error i => (some (badDates i), s)

def finished {α σ : Type} (toValue : α → Value) (r : Work α × σ) : Option Response × σ :=
  (match r.1 with
    | .done result _ => some (.ofResult 200 (result.map toValue))
    | .unending => none,
   r.2)

/-- How many payloads were taken, and how many of them are stored. -/
def counted (accepted stored : Nat) : Value :=
  .object [("accepted", .int accepted), ("stored", .int stored)]

def accepted {α σ : Type} (count : Nat) (stored : α → Nat) (r : Except Failure α × σ) :
    Option Response × σ :=
  (some (.ofResult 202 (r.1.map fun a ↦ counted count (stored a))), r.2)

def filter (s : Option String) : Option String := s.filter (!Text.isBlankText ·)

/-- What is searched for, without its outer blanks. -/
def searched (s : Option String) : Option String := (s.map Text.strip).filter (!·.isEmpty)

def answer (s : Service) (now : Instant) (t : Tenant) : Call → Option Response × Service
  | .ingest payload => accepted 1 (fun e ↦ e.toList.length) (s.ingest now (.object payload))
  | .ingestMany payloads => accepted payloads.length List.length (s.ingestMany now payloads)
  | .dashboard site tag dates limit offset => within dates s fun r ↦
    finished Dashboard.toValue
      (s.dashboard now t (.ofWhole site) (.ofText tag) (some r) (.int limit) (.int offset))
  | .events site dates event country device referer limit offset => within dates s fun r ↦
    finished EventPage.toValue (s.list t (.int site)
      { start := r.start, stop := r.stop, event := filter event, country := filter country,
        device := filter device, referer := filter referer, limit, offset })
  | .stats site dates => within dates s fun r ↦
    finished SiteStats.toValue (s.stats t (.int site) (some r))
  | .summary site dates search sort direction limit offset => within dates s fun r ↦
    finished Summary.toValue (s.summary t (.int site)
      ⟨some r, searched search, sort, direction, SummaryOptions.clampLimit limit, max 0 offset⟩)
  | .series site dates granularity byEvent => within dates s fun r ↦
    finished TimeSeries.toValue (s.series t (.int site) (some r) granularity (.bool byEvent))
  | .widget site w filters => finished WidgetData.toValue (s.widget t (.int site) w filters)

end Call

def answer (s : Service) (now : Instant) (t : Tenant) (r : Request) : Option Response × Service :=
  match Call.read r with
  | .ok call => call.answer s now t
  | .error response => (some response, s)

end Footfall.Http
