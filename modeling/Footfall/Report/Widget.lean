import Footfall.Event.Record
import Footfall.Failure

/-!
Widgets, the charts of a report, as they are stored: which fields a chart shows, how they are
aggregated and how it looks. The fields named in a widget are not to be trusted.
-/

namespace Footfall

inductive ChartType
  | bar
  | line
  | pie
  | funnel
  | sankey
  deriving DecidableEq, Repr, Inhabited

def ChartType.all : List ChartType := [.bar, .line, .pie, .funnel, .sankey]

def ChartType.name : ChartType → String
  | .bar => "bar"
  | .line => "line"
  | .pie => "pie"
  | .funnel => "funnel"
  | .sankey => "sankey"

inductive Aggregation
  | count
  | uniqueUsers
  | sum
  | average
  deriving DecidableEq, Repr, Inhabited

def Aggregation.all : List Aggregation := [.count, .uniqueUsers, .sum, .average]

def Aggregation.name : Aggregation → String
  | .count => "count"
  | .uniqueUsers => "unique_users"
  | .sum => "sum"
  | .average => "avg"

inductive Palette
  | primary
  | secondary
  | mixed
  | line
  | funnel
  deriving DecidableEq, Repr, Inhabited

def Palette.all : List Palette := [.primary, .secondary, .mixed, .line, .funnel]

def Palette.name : Palette → String
  | .primary => "primary"
  | .secondary => "secondary"
  | .mixed => "mixed"
  | .line => "line"
  | .funnel => "funnel"

/-- The place of a widget on the grid of its report. -/
structure Layout where
  x : Int := 0
  y : Int := 0
  w : Int := 6
  h : Int := 4
  deriving DecidableEq, Repr, Inhabited

structure Widget where
  id : String := ""
  title : String := ""
  chart : ChartType := .bar
  xField : String := ""
  yField : String := ""
  aggregation : Aggregation := .count
  sourceField : String := ""
  targetField : String := ""
  palette : Palette := .primary
  primaryColor : Option String := none
  secondaryColor : Option String := none
  limit : Number := .whole 25
  layout : Layout := {}
  deriving DecidableEq, Repr, Inhabited

structure Report where
  widgets : List Widget := []
  deriving DecidableEq, Repr, Inhabited

/-- A named report of one site and team. -/
structure ReportRecord where
  uuid : String
  site : Int
  team : Int
  name : String
  description : Option String
  report : Report
  deriving DecidableEq, Repr

/-- What the dashboard around a widget filters by. Dates that are not of the usual form count as not
given. -/
structure WidgetFilters where
  start : Option String := none
  stop : Option String := none
  device : Option String := none
  country : Option String := none
  city : Option String := none
  region : Option String := none
  source : Option String := none
  page : Option String := none
  event : Option String := none
  deriving DecidableEq, Repr, Inhabited

def Number.toValue : Number → Value
  | .whole n => .int n
  | .real x => .float x

open Footfall.Field

namespace Layout

def read (v : Value) : Reading Layout :=
  (record "WidgetLayout" v).bind fun fields ↦
    Layout.mk <$> optionalIn fields "x" 0 whole <*> optionalIn fields "y" 0 whole
      <*> optionalIn fields "w" 6 whole <*> optionalIn fields "h" 4 whole

def toValue (l : Layout) : Value :=
  .object [("x", .int l.x), ("y", .int l.y), ("w", .int l.w), ("h", .int l.h)]

end Layout

namespace Widget

def read (v : Value) : Reading Widget :=
  (record "ReportWidgetConfig" v).bind fun fields ↦
    let name key := optionalIn fields key "" text
    let color key := optionalIn fields key none (nullable text)
    Widget.mk <$> name "id" <*> name "title"
      <*> optionalIn fields "chart_type" .bar (choice ChartType.all ChartType.name)
      <*> name "x_field" <*> name "y_field"
      <*> optionalIn fields "aggregation" .count (choice Aggregation.all Aggregation.name)
      <*> name "source_field" <*> name "target_field"
      <*> optionalIn fields "color_palette" .primary (choice Palette.all Palette.name)
      <*> color "custom_primary_color" <*> color "custom_secondary_color"
      <*> optionalIn fields "limit" (.whole 25) (fun v ↦ (real v).map .real)
      <*> optionalIn fields "layout" {} Layout.read

/-- A widget of unknown shape; the first issue makes it a violation. -/
def ofValue (v : Value) : Except Failure Widget :=
  match read v with
  | .accepted w => .ok w
  | .rejected (i :: _) => .error (.violation (.widgetIssue i))
  | .rejected [] => .error (.rejected [])
  | .failed f => .error (.fault f)

def toValue (w : Widget) : Value :=
  .object [("id", .text w.id), ("title", .text w.title), ("chart_type", .text w.chart.name),
    ("x_field", .text w.xField), ("y_field", .text w.yField),
    ("aggregation", .text w.aggregation.name), ("source_field", .text w.sourceField),
    ("target_field", .text w.targetField), ("color_palette", .text w.palette.name),
    ("custom_primary_color", .ofText w.primaryColor),
    ("custom_secondary_color", .ofText w.secondaryColor), ("limit", w.limit.toValue),
    ("layout", w.layout.toValue)]

end Widget

namespace Report

def version : Int := 1

/-- A version is given as a number or truth value equal to the current one. -/
def isVersion (v : Value) : Bool := v.number?.any (Number.same (.whole version))

def readVersion (v : Value) : Reading Unit :=
  if isVersion v then .accepted () else .refuse (.literal (toString version))

def read (v : Value) : Reading Report :=
  (record "ReportConfig" v).bind fun fields ↦
    (fun _ widgets ↦ Report.mk widgets) <$> optionalIn fields "version" () readVersion
      <*> optionalIn fields "widgets" [] (list Widget.read)

def toValue (r : Report) : Value :=
  .object [("version", .int version), ("widgets", .list (r.widgets.map Widget.toValue))]

end Report

namespace ReportRecord

def read (v : Value) : Reading ReportRecord :=
  (record "ReportRecord" v).bind fun fields ↦
    ReportRecord.mk <$> requiredIn fields "uuid" text <*> requiredIn fields "site_id" whole
      <*> requiredIn fields "team_id" whole <*> requiredIn fields "name" text
      <*> optionalIn fields "description" none (nullable text)
      <*> requiredIn fields "config" Report.read

def toValue (r : ReportRecord) : Value :=
  .object [("uuid", .text r.uuid), ("site_id", .int r.site), ("team_id", .int r.team),
    ("name", .text r.name), ("description", .ofText r.description),
    ("config", r.report.toValue)]

end ReportRecord

namespace WidgetFilters

def read (v : Value) : Reading WidgetFilters :=
  (record "WidgetFilters" v).bind fun fields ↦
    let name key := optionalIn fields key none (nullable text)
    WidgetFilters.mk <$> name "start_date" <*> name "end_date" <*> name "device_type"
      <*> name "country" <*> name "city" <*> name "region" <*> name "source" <*> name "page_url"
      <*> name "event_name"

def toValue (f : WidgetFilters) : Value :=
  .object [("start_date", .ofText f.start), ("end_date", .ofText f.stop),
    ("device_type", .ofText f.device), ("country", .ofText f.country), ("city", .ofText f.city),
    ("region", .ofText f.region), ("source", .ofText f.source), ("page_url", .ofText f.page),
    ("event_name", .ofText f.event)]

end WidgetFilters

end Footfall
