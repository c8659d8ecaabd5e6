import Footfall.Failure
import Footfall.Query.Filters
import Footfall.Value.Order

/-!
Answers: pages of events with their counts, top values, summaries and time series.
-/

namespace Footfall

/-- The place of a page, and how many rows match in all. -/
structure Pagination where
  offset : Int
  limit : Int
  total : Int
  hasMore : Bool
  deriving DecidableEq, Repr

namespace Pagination

/-- Whether there is more is decided by the total, not by how full the page is. -/
def build (offset limit total : Int) : Pagination :=
  ⟨offset, limit, total, decide (offset + limit < total)⟩

def toValue (p : Pagination) : Value :=
  .object [("offset", .int p.offset), ("limit", .int p.limit), ("total", .int p.total),
    ("has_more", .bool p.hasMore)]

/-- The page of three values of unknown shape. They are added and compared as they come and only
then read as whole numbers. -/
def ofValues (offset limit total : Value) : Except Failure Pagination := do
  let more ← match Value.add offset limit with
    | .ok sum => (sum.lessThan total).mapError .fault
    | .error e => throw (.fault e)
  let fields := [("offset", offset), ("limit", limit), ("total", total)]
  (Pagination.mk <$> Field.required fields "offset" Field.whole
    <*> Field.required fields "limit" Field.whole <*> Field.required fields "total" Field.whole
    <*> pure more).get

@[simp] theorem hasMore_build (offset limit total : Int) :
    (build offset limit total).hasMore = decide (offset + limit < total) := rfl

end Pagination

/-- A page of a listing. A page that could not be fetched has no events; its place is told all the
same. -/
structure EventPage where
  events : Option (List StoredEvent)
  pagination : Pagination
  totalAllTime : Option Int
  deriving BEq, Repr

namespace EventPage

def isError (p : EventPage) : Bool := p.events.isNone

def empty (f : EventFilters) : EventPage := ⟨some [], .build f.offset f.limit 0, some 0⟩

def failed (f : EventFilters) : EventPage := ⟨none, .build f.offset f.limit 0, none⟩

def toValue (p : EventPage) : Value :=
  .object [("error", .bool p.isError),
    ("events", .ofOption (fun es ↦ .list (es.map StoredEvent.toValue)) p.events),
    ("pagination", p.pagination.toValue), ("total_all_time", .ofWhole p.totalAllTime)]

end EventPage

/-- The rows of a dashboard, with the range that was applied. -/
structure DashboardRows where
  rows : List StoredEvent
  matching : Int
  allTime : Int
  pagination : Pagination
  range : DateRange
  deriving BEq, Repr

namespace DashboardRows

def toValue (d : DashboardRows) : Value :=
  .object [("rows", .list (d.rows.map StoredEvent.toValue)), ("total_matching", .int d.matching),
    ("total_all_time", .int d.allTime), ("pagination", d.pagination.toValue),
    ("date_range", d.range.toValue)]

def empty (f : EventFilters) : DashboardRows := ⟨[], 0, 0, .build f.offset f.limit 0, f.range⟩

end DashboardRows

/-- How many events have a value; events without one are counted together. -/
structure ValueCount where
  value : Option String
  count : Nat
  deriving DecidableEq, Repr

def ValueCount.toValue (c : ValueCount) : Value :=
  .object [("value", .ofText c.value), ("count", .int c.count)]

structure SiteStats where
  total : Nat := 0
  events : List ValueCount := []
  countries : List ValueCount := []
  devices : List ValueCount := []
  referers : List ValueCount := []
  deriving DecidableEq, Repr, Inhabited

def SiteStats.toValue (s : SiteStats) : Value :=
  let counts cs := Value.list (cs.map ValueCount.toValue)
  .object [("total_events", .int s.total), ("events_by_type", counts s.events),
    ("events_by_country", counts s.countries), ("events_by_device", counts s.devices),
    ("top_referers", counts s.referers)]

structure SummaryRow where
  event : String
  count : Nat
  firstSeen : Instant
  lastSeen : Instant
  deriving DecidableEq, Repr

def SummaryRow.toValue (r : SummaryRow) : Value :=
  .object [("event", .text r.event), ("count", .int r.count), ("first_seen", .ofInstant r.firstSeen),
    ("last_seen", .ofInstant r.lastSeen)]

/-- A page of event names with their counts. -/
structure Summary where
  rows : List SummaryRow
  pagination : Pagination
  events : Nat
  names : Nat
  deriving DecidableEq, Repr

namespace Summary

def empty (o : SummaryOptions) : Summary := ⟨[], .build o.offset o.limit 0, 0, 0⟩

def toValue (s : Summary) : Value :=
  .object [("summary", .list (s.rows.map SummaryRow.toValue)), ("pagination", s.pagination.toValue),
    ("total_events", .int s.events), ("total_event_types", .int s.names)]

end Summary

/-- The count of one bucket, of all events or of those of one name. -/
structure SeriesPoint where
  label : String
  event : Option String
  count : Nat
  deriving DecidableEq, Repr

structure TimeSeries where
  points : List SeriesPoint
  granularity : Granularity
  byEvent : Bool
  deriving DecidableEq, Repr

/-- A series of points; whether it is divided by name is read as a truth value. -/
def TimeSeries.of (points : List SeriesPoint) (granularity : Granularity) (byEvent : Value) :
    Except Failure TimeSeries :=
  (TimeSeries.mk points granularity <$>
    Field.required [("by_event", byEvent)] "by_event" Field.truth).get

@[simp] theorem TimeSeries.of_bool (points : List SeriesPoint) (granularity : Granularity)
    (b : Bool) : of points granularity (.bool b) = .ok ⟨points, granularity, b⟩ := rfl

def SeriesPoint.toValue (p : SeriesPoint) : Value :=
  .object [("date", .text p.label), ("count", .int p.count), ("event", .ofText p.event)]

def TimeSeries.toValue (s : TimeSeries) : Value :=
  .object [("data", .list (s.points.map SeriesPoint.toValue)),
    ("granularity", .text s.granularity.name), ("by_event", .bool s.byEvent)]

end Footfall
