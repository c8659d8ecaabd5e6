import Footfall.Backend.Registry
import Footfall.Deadline

/-!
Storage with one store per site. A read of a site without a store, or whose store belongs to another
team, sees nothing. A batch is divided by site, and each part is stored in its own transaction.
-/

namespace Footfall

/-- The records of each site, the sites in the order in which they first occur. -/
def recordsBySite (records : List (Int × EventRecord)) : Keyed Int (List EventRecord) :=
  records.foldl (fun m p ↦ m.put p.1 ((m.find p.1).getD [] ++ [p.2])) []

namespace Registry

variable {α : Type}

def routed (r : EventRecord) : Except Failure (Int × EventRecord) :=
  match r.site with
  | some site => .ok (site, r)
  | none => .error (.violation .noSite)

/-- Stores the records of one site after the other, up to the first that cannot be stored. -/
def insertEach (r : Registry) (now : Instant) :
    List (Int × List EventRecord) → Except Failure (List StoredEvent) × Registry
  | [] => (.ok [], r)
  | (site, batch) :: rest =>
    let (s, r) := r.obtain site (batch.head?.map (·.tag)) (batch.head?.bind (·.team))
    let (result, c) := (r.connect s).insertAll now batch
    let r := r.save c
    match result with
    | .error e => (.error e, r)
    | .ok rows =>
      let (more, r) := insertEach r now rest
      (more.map (rows ++ ·), r)

def insertAll (r : Registry) (now : Instant) (records : List EventRecord) :
    Except Failure (List StoredEvent) × Registry :=
  match records.mapM routed with
  | .error e => (.error e, r)
  | .ok [] => (.error (.violation .noEvents), r)
  | .ok routed => r.insertEach now (recordsBySite routed)

/-- The store of the site of a scope: none if it belongs to another team. -/
def storeOf (r : Registry) (s : Scope) : Except Failure (Option SiteStore) × Registry :=
  let (found, r) := match s.site with
    | .text t => r.findByTag (.text t)
    | site => r.findByNumber site
  (found.map fun store ↦ store.filter fun store ↦ store.team.all s.isOfTeam, r)

/-- Reads from the store of a site; without a store there is an answer for that. -/
def read (r : Registry) (s : Scope) (absent : Except Failure α)
    (f : Connection → Except Failure α × Connection) : Work α × Registry :=
  match r.storeOf s with
  | (.error e, r) => (.done (.error e), r)
  | (.ok none, r) => (.done absent, r)
  | (.ok (some store), r) =>
    let (answer, c) := f (r.connect store)
    (.done answer Work.storePauses, r.save c)

end Registry

end Footfall
