import Footfall.Backend.Embedded
import Footfall.Backend.Server
import Footfall.Query.Window
import Footfall.Tenant

/-!
Backends: the storage of one kind, with the reads and writes that every kind has. Beside the two
that keep events there is the one that keeps none, so that dashboards of a kind without storage stay
empty, and there are the two ways in which a backend can be out of order: it never answers a read,
or it fails every call.
-/

namespace Footfall

inductive Engine
  | embedded (r : Registry)
  | server (s : Server)
  | absent
  | stalled
  | failing (e : Failure)
  deriving Repr, Inhabited

structure Backend where
  kind : StorageKind
  windowDays : Value := .int defaultWindowDays
  engine : Engine := .absent
  deriving Repr, Inhabited

namespace Backend

variable {α : Type}

/-- The backend of a kind without storage. -/
def stub (kind : StorageKind) : Backend := { kind := kind }

/-- Whether teams share a table, so that compiled queries need a scope. -/
def isShared (b : Backend) : Bool :=
  match b.engine with
  | .server _ => true
  | _ => false

def dialect (b : Backend) : Report.Dialect :=
  match b.engine with
  | .server s => s.dialect
  | _ => .sqlite

def columns : List String := Column.all.map Column.name

/-- Stores a batch. A backend that keeps no events takes them and answers with none. -/
def insertAll (b : Backend) (now : Instant) (records : List EventRecord) :
    Except Failure (List StoredEvent) × Backend :=
  match b.engine with
  | .embedded r =>
    let (rows, r) := r.insertAll now records
    (rows, { b with engine := .embedded r })
  | .server s =>
    let (rows, s) := s.insertAll now records
    (rows, { b with engine := .server s })
  | .absent | .stalled => (.ok [], b)
  | .failing e => (.error e, b)

def insert (b : Backend) (now : Instant) (record : EventRecord) :
    Except Failure (Option StoredEvent) × Backend :=
  let (rows, b) := b.insertAll now [record]
  (rows.map List.head?, b)

/-- Reads in the way of the storage. A site without a store reads as empty, once the request has
been checked. -/
def read (b : Backend) (s : Scope) (empty : Except Failure α) (check : Except Failure Unit)
    (own : Connection → Except Failure α × Connection) (shared : Server → Except Failure α) :
    Work α × Backend :=
  match b.engine with
  | .embedded r =>
    let (a, r) := r.read s (check >>= fun _ ↦ empty) own
    (a, { b with engine := .embedded r })
  | .server server => (.done (shared server) Work.storePauses, b)
  | .absent => (.done empty, b)
  | .stalled => (.unending, b)
  | .failing e => (.done (.error e), b)

def list (b : Backend) (s : Scope) (f : EventFilters) : Work EventPage × Backend :=
  b.read s (.ok (.empty f)) (.ok ()) (·.list f) (·.list s f)

def hasAny (b : Backend) (s : Scope) : Work Bool × Backend :=
  b.read s (.ok false) (.ok ()) (·.hasEvents) (·.read s fun t base ↦ .ok (t.hasAny base))

def stats (b : Backend) (s : Scope) (r : Option DateRange) : Work SiteStats × Backend :=
  b.read s (.ok {}) (.ok ()) (·.stats r) (·.read s fun t base ↦ .ok (t.stats r base))

def summary (b : Backend) (s : Scope) (o : SummaryOptions) : Work Summary × Backend :=
  b.read s (.ok (.empty o)) (.ok ()) (·.summary o)
    (·.read s fun t base ↦ (t.summary o base).mapError .fault)

def series (b : Backend) (s : Scope) (r : Option DateRange) (g : Granularity) (byEvent : Value) :
    Work TimeSeries × Backend :=
  b.read s (TimeSeries.of [] g byEvent) (.ok ()) (·.series r g byEvent)
    (·.read s fun t base ↦ t.series r g byEvent base)

/-- Runs a read-only query that sees the rows of one site and team. -/
def run (b : Backend) (s : Scope) (q : TableQuery) (limit : Value) : Work (List Fields) × Backend :=
  b.read s (.ok []) (q.check.map fun _ ↦ ()) (·.run q limit) (·.run s q limit)

/-- The rows of a dashboard from a page of the listing; a page that could not be fetched is an
outage. -/
def rowsOfPage (f : EventFilters) (source : String) (p : EventPage) :
    Except Failure DashboardRows :=
  match p.events with
  | none => .error (.outage (.noRows source))
  | some rows =>
    .ok ⟨rows, p.pagination.total, p.totalAllTime.getD 0, p.pagination, f.range⟩

def dashboard (b : Backend) (now : Instant) (o : DashboardOptions) :
    Work DashboardRows × Backend :=
  match b.engine, o.filters now b.windowDays with
  | .stalled, _ => (.unending, b)
  | .failing e, _ => (.done (.error e), b)
  | _, .error f => (.done (.error (.fault f)), b)
  | _, .ok f =>
    let s := Scope.of o.site o.team
    b.read s (.ok (.empty f)) (.ok ())
      (fun c ↦ let (p, c) := c.list f; (p >>= rowsOfPage f c.store.source, c))
      (fun server ↦ server.list s f >>= rowsOfPage f Server.source)

def compile (b : Backend) (s : Scope) (w : Widget) (f : Option WidgetFilters) :
    Except Failure Report.ChartQuery :=
  Report.compile w columns f (.text b.dialect.name) (if b.isShared then some s else none)

end Backend

end Footfall
