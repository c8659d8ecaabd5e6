import Footfall.Backend.Dispatch
import Footfall.Deadline
import Footfall.Event.Canonical
import Footfall.Report.Chart
import Footfall.Service.Dashboard

/-!
The service that callers use. Events are stored under the site and team that own their tag, whatever
they claim themselves. A read of a site that is not the caller's is empty, just as that of a site
that does not exist; widgets alone tell the caller that there is no such site.
-/

namespace Footfall

structure Service where
  dispatcher : Dispatcher := {}
  directory : Directory := {}
  timeout : TimeLimit := {}
  deriving Repr, Inhabited

namespace Service

variable {α β : Type}

/-- The site that a caller names in one of two ways, if it is the caller's. -/
def siteFor (s : Service) (t : Tenant) (number tag : Value) : Except Failure Site :=
  if number.isNull == tag.isNull then .error (.violation .siteIdentity)
  else do
    let found ← (if tag.isNull then s.directory.withNumber number
      else s.directory.withTag tag).mapError .fault
    match found.filter t.owns with
    | some site => return site
    | none => throw .notYours

/-- The site of a record's tag. A record that names another site is refused. -/
def siteOfRecord (s : Service) (r : EventRecord) : Except Failure Site :=
  match s.directory.find? (.tag r.tag) with
  | none => .error (.violation (.unknownTag r.tag))
  | some site =>
    if r.site.all (· == site.id) then .ok site else .error (.violation .siteOfTag)

/-- The backend of a kind does something, and is taken over as it is afterwards. -/
def onBackend (s : Service) (kind : StorageKind) (f : Backend → α × Backend) : α × Service :=
  let (a, b) := f (s.dispatcher.backend kind)
  (a, { s with dispatcher := s.dispatcher.save kind b })

def ingest (s : Service) (now : Instant) (payload : Value) :
    Except Failure (Option StoredEvent) × Service :=
  match Event.canonicalize payload with
  | .error e => (.error e, s)
  | .ok r =>
    match s.siteOfRecord r with
    | .error e => (.error e, s)
    | .ok site => s.onBackend site.storage (·.insert now (r.claimedBy site.id site.team))

/-- A site with the records that are to be stored for it. -/
abbrev Parcel := Site × List EventRecord

def addToParcel (parcels : Keyed Int Parcel) (site : Site) (r : EventRecord) : Keyed Int Parcel :=
  let (first, rs) := (parcels.find site.id).getD (site, [])
  parcels.put site.id (first, rs ++ [r.claimedBy site.id site.team])

/-- The records of each site, the sites in the order in which they first occur. -/
def parcelsOf (s : Service) (records : List EventRecord) : Except Failure (Keyed Int Parcel) :=
  records.foldlM (fun ps r ↦ return addToParcel ps (← s.siteOfRecord r) r) []

/-- Stores one parcel after the other, up to the first that cannot be stored. -/
def storeParcels (s : Service) (now : Instant) :
    List Parcel → Except Failure (List StoredEvent) × Service
  | [] => (.ok [], s)
  | (site, records) :: rest =>
    match s.onBackend site.storage (·.insertAll now records) with
    | (.error e, s) => (.error e, s)
    | (.ok rows, s) =>
      let (more, s) := storeParcels s now rest
      (more.map (rows ++ ·), s)

/-- Stores a batch of payloads. All are checked before any is stored. -/
def ingestMany (s : Service) (now : Instant) (payloads : List Value) :
    Except Failure (List StoredEvent) × Service :=
  match payloads.mapM Event.canonicalize >>= s.parcelsOf with
  | .error e => (.error e, s)
  | .ok parcels => s.storeParcels now (Keyed.values parcels)

/-- A backend does something within the time limit. If no time is left it does not begin. -/
def timed (s : Service) (kind : StorageKind) (f : Backend → Work α × Backend) : Work α × Service :=
  match s.timeout.start with
  | .error e => (.done (.error e), s)
  | .ok () =>
    let (w, s) := s.onBackend kind f
    (w.under s.timeout, s)

/-- Reads from a site of the caller; any other site is empty. -/
def read (s : Service) (t : Tenant) (site : Value) (empty : Except Failure α)
    (f : Scope → Backend → Work α × Backend) : Work α × Service :=
  match s.siteFor t site .null with
  | .error .notYours => (.done empty, s)
  | .error e => (.done (.error e), s)
  | .ok x => s.timed t.storage (f (.of (.number x.id) t.team))

def list (s : Service) (t : Tenant) (site : Value) (f : EventFilters) : Work EventPage × Service :=
  s.read t site (.ok (.empty f)) fun scope b ↦ b.list scope f

def stats (s : Service) (t : Tenant) (site : Value) (r : Option DateRange) :
    Work SiteStats × Service :=
  s.read t site (.ok {}) fun scope b ↦ b.stats scope r

def summary (s : Service) (t : Tenant) (site : Value) (o : SummaryOptions) :
    Work Summary × Service :=
  s.read t site (.ok (.empty o)) fun scope b ↦ b.summary scope o

def series (s : Service) (t : Tenant) (site : Value) (r : Option DateRange) (g : Granularity)
    (byEvent : Value) : Work TimeSeries × Service :=
  s.read t site (TimeSeries.of [] g byEvent) fun scope b ↦ b.series scope r g byEvent

/-- A dashboard from its rows, and from the answer whether there are any events. -/
def dashboardOf (site : Site) (t : Tenant) (d : DashboardRows) (hasEvents : Bool) : Dashboard :=
  ⟨some site.id, t.team, d.range, d.rows, d.pagination, d.allTime, hasEvents⟩

/-- The dashboard of a site of the caller. Only when there are no rows at all is the storage asked
whether the site has ever had an event. -/
def ownDashboard (s : Service) (now : Instant) (t : Tenant) (site : Site) (o : DashboardOptions) :
    Work Dashboard × Service :=
  match s.timed t.storage (·.dashboard now o) with
  | (.unending, s) => (.unending, s)
  | (.done (.error e) _, s) => (.done (.error e), s)
  | (.done (.ok d) _, s) =>
    if 0 < d.allTime then (.done (.ok (dashboardOf site t d true)), s)
    else
      match s.timed t.storage (·.hasAny (.of (.number site.id) t.team)) with
      | (.unending, s) => (.unending, s)
      | (.done r _, s) => (.done (r.map (dashboardOf site t d)), s)

/-- The options of a dashboard with a page of unknown shape. -/
def dashboardOptions (site : Site) (t : Tenant) (range : DateRange) (limit offset : Value) :
    Except Failure DashboardOptions :=
  let fields := [("limit", limit), ("offset", offset)]
  (DashboardOptions.mk (.number site.id) t.team (some range)
    <$> Field.required fields "limit" (Field.atLeast 1 Field.whole)
    <*> Field.required fields "offset" (Field.atLeast 0 Field.whole)).get

/-- The dashboard of a site that is named in one of two ways. -/
def dashboard (s : Service) (now : Instant) (t : Tenant) (number tag : Value)
    (range : Option DateRange) (limit offset : Value) : Work Dashboard × Service :=
  let range := range.getD {}
  match s.siteFor t number tag with
  | .error .notYours =>
    (.done ((Pagination.ofValues offset limit (.int 0)).map (.empty t.team range)), s)
  | .error e => (.done (.error e), s)
  | .ok site =>
    match dashboardOptions site t range limit offset with
    | .error e => (.done (.error e), s)
    | .ok o => s.ownDashboard now t site o

/-- The data of a chart from the rows of its query. -/
def chartData (w : Widget) (query : String) (rows : List Fields) : Except Failure WidgetData :=
  ((Report.shape w (rows.map .object)).mapError .fault).map fun data ↦
    ⟨w.id, w.chart.name, query, data⟩

/-- The data of a widget over a site of the caller. -/
def widget (s : Service) (t : Tenant) (site : Value) (w : Widget) (f : Option WidgetFilters) :
    Work WidgetData × Service :=
  match s.siteFor t site .null with
  | .error e => (.done (.error e), s)
  | .ok x =>
    let scope := Scope.of (.number x.id) t.team
    match (s.dispatcher.backend t.storage).compile scope w f with
    | .error e => (.done (.error e), s)
    | .ok q =>
      match s.timed t.storage (·.run scope (.chart q) .null) with
      | (.unending, s) => (.unending, s)
      | (.done r _, s) => (.done (r >>= chartData w q.text), s)

end Service

end Footfall
