import Footfall.Query.DateRange

/-!
What a request asks for: the filters of a listing, the options of a dashboard and those of a summary
by event name, and the size of the buckets of a time series.
-/

namespace Footfall

/-- Filters of a listing and the page of it. All filters that are present must hold. -/
structure EventFilters where
  start : Option Instant := none
  stop : Option Instant := none
  exact : Bool := false
  event : Option String := none
  country : Option String := none
  device : Option String := none
  referer : Option String := none
  limit : Int := 100
  offset : Int := 0
  deriving DecidableEq, Repr, Inhabited

namespace Field

/-- A text filter; blank text is no filter. -/
def filterText (v : Value) : Reading (Option String) :=
  match v with
  | .text s => .accepted (if Text.isBlankText s then none else some s)
  | v => nullable text v

end Field

namespace EventFilters

def range (f : EventFilters) : DateRange := ⟨f.start, f.stop, f.exact⟩

def last (f : EventFilters) : Option Instant := f.range.last

open Footfall.Field in
def read (v : Value) : Reading EventFilters :=
  (record "EventListFilters" v).bind fun fields ↦
    let time name := optional fields name none (nullable instantOrDate)
    let text name := optional fields name none filterText
    EventFilters.mk <$> time "start_date" <*> time "end_date"
      <*> optional fields "end_is_exact" false truth
      <*> text "event_type" <*> text "country" <*> text "device_type" <*> text "referer"
      <*> optional fields "limit" 100 (atLeast 1 whole)
      <*> optional fields "offset" 0 (atLeast 0 whole)

def named (f : EventFilters) : Fields :=
  [("start_date", .ofOption .ofInstant f.start), ("end_date", .ofOption .ofInstant f.stop),
   ("event_type", .ofText f.event), ("country", .ofText f.country),
   ("device_type", .ofText f.device), ("referer", .ofText f.referer)]

def active (f : EventFilters) : Fields := f.named.filter (!·.2.isNull)

def isEmpty (f : EventFilters) : Bool := f.active.isEmpty

def toValue (f : EventFilters) : Value :=
  .object (f.named ++ [("end_is_exact", .bool f.exact), ("limit", .int f.limit),
    ("offset", .int f.offset)])

end EventFilters

/-- A site as a request names it: by number, or by its public tag. -/
inductive SiteRef
  | number (n : Int)
  | tag (t : String)
  deriving DecidableEq, Repr, Inhabited

structure DashboardOptions where
  site : SiteRef
  team : Int
  range : Option DateRange := none
  limit : Int := 100
  offset : Int := 0
  deriving DecidableEq, Repr

namespace SiteRef

/-- A site that is named in exactly one of the two ways. -/
def ofEither? : Option Int → Option String → Option SiteRef
  | some n, none => some (.number n)
  | none, some t => some (.tag t)
  | _, _ => none

def number? : SiteRef → Option Int
  | .number n => some n
  | .tag _ => none

def tag? : SiteRef → Option String
  | .number _ => none
  | .tag t => some t

theorem ofEither?_number_tag (r : SiteRef) : ofEither? r.number? r.tag? = some r := by
  cases r <;> rfl

end SiteRef

namespace DashboardOptions

open Footfall.Field in
def read (v : Value) : Reading DashboardOptions :=
  (record "DashboardOptions" v).bind fun fields ↦
    let parts site tag team range limit offset :=
      (SiteRef.ofEither? site tag, fun ref ↦ DashboardOptions.mk ref team range limit offset)
    (parts <$> optional fields "site_id" none (nullable whole)
      <*> optional fields "tag_id" none (nullable text)
      <*> required fields "team_id" whole
      <*> optional fields "date_range" none (nullable DateRange.read)
      <*> optional fields "limit" 100 (atLeast 1 whole)
      <*> optional fields "offset" 0 (atLeast 0 whole)).bind fun p ↦
    match p.1 with
    | some ref => .accepted (p.2 ref)
    | none => .refuse (.rule "Exactly one of site_id or tag_id must be provided")

def toValue (o : DashboardOptions) : Value :=
  .object [("site_id", .ofWhole o.site.number?), ("tag_id", .ofText o.site.tag?),
    ("team_id", .int o.team), ("date_range", .ofOption DateRange.toValue o.range),
    ("limit", .int o.limit), ("offset", .int o.offset)]

end DashboardOptions

inductive SummarySort
  | count
  | firstSeen
  | lastSeen
  deriving DecidableEq, Repr, Inhabited

def SummarySort.all : List SummarySort := [.count, .firstSeen, .lastSeen]

def SummarySort.name : SummarySort → String
  | .count => "count"
  | .firstSeen => "first_seen"
  | .lastSeen => "last_seen"

inductive Direction
  | ascending
  | descending
  deriving DecidableEq, Repr, Inhabited

def Direction.all : List Direction := [.ascending, .descending]

def Direction.name : Direction → String
  | .ascending => "asc"
  | .descending => "desc"

structure SummaryOptions where
  range : Option DateRange := none
  search : Option String := none
  sort : SummarySort := .count
  direction : Direction := .descending
  limit : Int := 50
  offset : Int := 0
  deriving DecidableEq, Repr, Inhabited

namespace SummaryOptions

/-- A search without its outer blanks, which must not be empty. -/
def readSearch (v : Value) : Reading (Option String) :=
  match v with
  | .text s => let t := Text.strip s; .accepted (if t.isEmpty then none else some t)
  | v => Field.nullable Field.text v

/-- A conversion as part of reading: a number that cannot be told from a text is an issue, all else
that fails is a fault. -/
def converted (v : Value) (f : Int → Int) : Reading Int :=
  match v.toWhole with
  | .ok n => .accepted (f n)
  | .error e@(.notANumber) | .error e@(.numeral ..) | .error e@(.longNumeral _) =>
    .refuse (.rule e.message)
  | .error e => .failed e

/-- A limit is brought into its range rather than refused. -/
def clampLimit (n : Int) : Int := min (max 1 n) 500

def readLimit : Value → Reading Int
  | .null => .accepted 50
  | v => converted v clampLimit

def readOffset (v : Value) : Reading Int :=
  if v.isTruthy then converted v (max 0) else .accepted 0

open Footfall.Field in
def read (v : Value) : Reading SummaryOptions :=
  (record "EventSummaryOptions" v).bind fun fields ↦
    SummaryOptions.mk <$> optional fields "date_range" none (nullable DateRange.read)
      <*> optional fields "search" none readSearch
      <*> optional fields "sort_by" .count (choice SummarySort.all SummarySort.name)
      <*> optional fields "sort_direction" .descending (choice Direction.all Direction.name)
      <*> optional fields "limit" 50 readLimit
      <*> optional fields "offset" 0 readOffset

def toValue (o : SummaryOptions) : Value :=
  .object [("date_range", .ofOption DateRange.toValue o.range), ("search", .ofText o.search),
    ("sort_by", .text o.sort.name), ("sort_direction", .text o.direction.name),
    ("limit", .int o.limit), ("offset", .int o.offset)]

theorem clampLimit_mem (n : Int) : 1 ≤ clampLimit n ∧ clampLimit n ≤ 500 := by
  unfold clampLimit
  omega

end SummaryOptions

inductive Granularity
  | hour
  | day
  | week
  | month
  deriving DecidableEq, Repr, Inhabited

namespace Granularity

def all : List Granularity := [.hour, .day, .week, .month]

def name : Granularity → String
  | .hour => "hour"
  | .day => "day"
  | .week => "week"
  | .month => "month"

def ofValue (v : Value) : Except Fault Granularity :=
  match v with
  | .text s =>
    match all.find? fun g ↦ g.name == s with
    | some g => .ok g
    | none => .error (.granularity v)
  | v => .error (.granularity v)

end Granularity

end Footfall
