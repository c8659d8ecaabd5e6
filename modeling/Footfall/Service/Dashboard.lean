import Footfall.Query.Page

/-!
What a caller gets to see: the dashboard of a site, and the data of one widget.
-/

namespace Footfall

/-- A dashboard. It says apart from its rows whether the site has ever had an event, so that a new
site is not taken for one whose events are all outside the range. -/
structure Dashboard where
  site : Option Int
  team : Int
  range : DateRange
  rows : List StoredEvent
  pagination : Pagination
  allTime : Int := 0
  hasEvents : Bool := false
  deriving BEq, Repr

namespace Dashboard

/-- The dashboard of a site that the caller may not see. -/
def empty (team : Int) (range : DateRange) (pagination : Pagination) : Dashboard :=
  ⟨none, team, range, [], pagination, 0, false⟩

def toValue (d : Dashboard) : Value :=
  .object [("site_id", .ofWhole d.site), ("team_id", .int d.team), ("date_range", d.range.toValue),
    ("rows", .list (d.rows.map StoredEvent.toValue)), ("pagination", d.pagination.toValue),
    ("total_all_time", .int d.allTime), ("site_has_events", .bool d.hasEvents)]

end Dashboard

structure WidgetData where
  id : String
  chart : String
  query : String
  data : List Value
  deriving Repr

def WidgetData.toValue (d : WidgetData) : Value :=
  .object [("widget_id", .text d.id), ("chart_type", .text d.chart), ("query", .text d.query),
    ("data", .list d.data)]

end Footfall
