import Footfall.Http.Response
import Footfall.Http.Target
import Footfall.Query.Filters
import Footfall.Report.Widget

/-!
The calls that the interface knows, read from requests. Parameters and bodies are checked completely
before anything is done; all that is wrong with them is told.
-/

namespace Footfall.Http

structure Request where
  method : String
  target : Target
  body : List UInt8
  deriving Repr

/-- The dates of a range, as they are written in parameters. -/
structure Dates where
  start : Option String
  stop : Option String
  deriving DecidableEq, Repr

inductive Call
  | ingest (payload : Fields)
  | ingestMany (payloads : List Value)
  | dashboard (site : Option Int) (tag : Option String) (dates : Dates) (limit offset : Int)
  | events (site : Int) (dates : Dates) (event country device referer : Option String)
      (limit offset : Int)
  | stats (site : Int) (dates : Dates)
  | summary (site : Int) (dates : Dates) (search : Option String) (sort : SummarySort)
      (direction : Direction) (limit offset : Int)
  | series (site : Int) (dates : Dates) (granularity : Granularity) (byEvent : Bool)
  | widget (site : Int) (widget : Widget) (filters : Option WidgetFilters)
  deriving Repr

namespace Call

open Footfall.Field

def fieldsOf (parameters : List (String × String)) : Fields :=
  parameters.foldl (fun fields p ↦ Value.put fields p.1 (.text p.2)) []

section

variable (fields : Fields)

def textParameter (name : String) : Reading (Option String) :=
  optional fields name none (nullable text)

def readDates : Reading Dates :=
  Dates.mk <$> textParameter fields "start" <*> textParameter fields "end"

def siteParameter : Reading Int := required fields "site_id" whole

def maxPage : Int := 1000

def pageLimit : Reading Int := optional fields "limit" 100 (atMost maxPage (atLeast 1 whole))

def pageOffset : Reading Int := optional fields "offset" 0 (atLeast 0 whole)

def readDashboard : Reading Call :=
  Call.dashboard <$> optional fields "site_id" none (nullable whole) <*> textParameter fields "tag_id"
    <*> readDates fields <*> pageLimit fields <*> pageOffset fields

def readEvents : Reading Call :=
  Call.events <$> siteParameter fields <*> readDates fields <*> textParameter fields "event_type"
    <*> textParameter fields "country" <*> textParameter fields "device_type"
    <*> textParameter fields "referer" <*> pageLimit fields <*> pageOffset fields

def readStats : Reading Call := Call.stats <$> siteParameter fields <*> readDates fields

def readSummary : Reading Call :=
  Call.summary <$> siteParameter fields <*> readDates fields <*> textParameter fields "search"
    <*> optional fields "sort_by" .count (choice SummarySort.all SummarySort.name)
    <*> optional fields "sort_direction" .descending (choice Direction.all Direction.name)
    <*> optional fields "limit" 50 whole <*> optional fields "offset" 0 whole

def readSeries : Reading Call :=
  Call.series <$> siteParameter fields <*> readDates fields
    <*> optional fields "granularity" .day (choice Granularity.all Granularity.name)
    <*> optional fields "by_event" false truth

end

/-- The place of a payload, read as one of the two shapes that it may have. -/
def oneShape : Step := .key "dict[str,any]"
def manyShape : Step := .key "list[dict[str,any]]"

def readPayload : Value → Reading Call
  | .object fields => .accepted (.ingest fields)
  | .list items =>
    match list object (.list items) with
    | .accepted _ => .accepted (.ingestMany items)
    | .rejected issues =>
      .rejected (⟨[oneShape], .objectKind⟩ :: issues.map (·.under manyShape))
    | .failed f => .failed f
  | _ => .rejected [⟨[oneShape], .objectKind⟩, ⟨[manyShape], .listKind⟩]

def readWidget (v : Value) : Reading Call :=
  (record "WidgetQueryRequest" v).bind fun fields ↦
    Call.widget <$> required fields "site_id" whole <*> required fields "widget" Widget.read
      <*> optional fields "filters" none (nullable WidgetFilters.read)

/-- The cause of an issue in a body, where a record may also be read from the attributes of a
value. -/
def inBody : Issue → Issue
  | ⟨path, .recordKind _⟩ => ⟨path, .attributesKind⟩
  | i => i

def bodyReading {α : Type} : Reading α → Reading α
  | .rejected issues => .rejected (issues.map fun i ↦ (inBody i).under (.key "body"))
  | r => r

def readBody (body : List UInt8) (read : Value → Reading Call) : Except Response (Reading Call) :=
  let missing : Reading Call := .rejected [⟨[.key "body"], .missing⟩]
  let unreadable := Response.detail 400 "There was an error parsing the body"
  if body.isEmpty then .ok missing
  else
    match Text.decode body with
    | .error _ => .error unreadable
    | .ok cs =>
      match Json.readChars cs with
      | .ok .null => .ok missing
      | .ok v => .ok (bodyReading (read v))
      | .error (.malformed _ position) =>
        .ok (.rejected [⟨[.key "body", .index position], .malformedDocument⟩])
      | .error (.tooLong _) => .error unreadable

/-- What is done with the parameters or the body of a request. -/
inductive Reader
  | parameters (read : Fields → Reading Call)
  | body (read : Value → Reading Call)

def routes : List ((String × String) × Reader) :=
  [(("GET", "/dashboard"), .parameters readDashboard),
   (("GET", "/events"), .parameters readEvents),
   (("GET", "/events/summary"), .parameters readSummary),
   (("GET", "/stats"), .parameters readStats),
   (("GET", "/timeseries"), .parameters readSeries),
   (("POST", "/events"), .body readPayload),
   (("POST", "/reports/widgets/query"), .body readWidget)]

def routeNames : List String := routes.map fun r ↦ r.1.1 ++ " " ++ r.1.2

def Reader.run (r : Request) : Reader → Except Response (Reading Call)
  | .parameters read =>
    .ok ((read (fieldsOf r.target.parameters)).under (.key "query"))
  | .body read => readBody r.body read

/-- Whether a path is that of a route; a line break at its end counts for nothing. -/
def isPathOf (path route : String) : Bool :=
  path == mount ++ route || path == mount ++ route ++ "\n"

def routesAt (path : String) : List ((String × String) × Reader) :=
  routes.filter fun r ↦ isPathOf path r.1.2

/-- The answer to a request for which there is no route. A path that only has slashes too many is
sent to the right one. -/
def unrouted (path : String) : Response :=
  if !(routesAt path).isEmpty then .detail 405 "Method Not Allowed"
  else if path.endsWith "/" && !(routesAt (withoutSlashes path)).isEmpty then .redirect
  else .detail 404 "Not Found"

/-- The call that a request makes, or the answer when it makes none. -/
def read (r : Request) : Except Response Call :=
  match (routesAt r.target.path).find? (·.1.1 == r.method) with
  | none =>
    let answer := unrouted r.target.path
    .error (if r.method = "HEAD" then answer.withoutBody else answer)
  | some route =>
    match route.2.run r with
    | .error response => .error response
    | .ok (.accepted call) => .ok call
    | .ok (.rejected issues) => .error (.refused issues)
    | .ok (.failed _) => .error .broken

end Call

end Footfall.Http
