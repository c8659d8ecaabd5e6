import Footfall.Keyed
import Footfall.Query.Scope
import Footfall.Store.Site

/-!
The stores of all sites. A store is opened when it is first written to; a read opens only a store
whose database is already there. When the databases are kept in a directory they outlive the
process, and the team and tag of a store are then found in its oldest row.
-/

namespace Footfall

/-- Open stores, the index of their public tags, and the databases that there are. A database may
be without a table. -/
structure Registry where
  persistent : Bool := false
  maxRows : Value := .int Settings.maxQueryRows
  stores : Keyed Int SiteStore := []
  tags : Keyed String Int := []
  databases : Keyed Int (Option Table) := []
  otherFiles : List String := []
  deriving BEq, Repr, Inhabited

namespace Registry

def files (r : Registry) : List String :=
  if r.persistent then
    ((Keyed.keys r.databases).map Settings.storeFile ++ r.otherFiles).mergeSort
      fun a b ↦ (compare a b).isLE
  else []

def persistedSites (r : Registry) : List Int := Settings.persistedSites r.files

def tableOf (r : Registry) (site : Int) : Option Table := (Keyed.find r.databases site).join

def connect (r : Registry) (s : SiteStore) : Connection := ⟨s, r.tableOf s.site⟩

/-- Takes over a store with its database, which is there once the store has made its table. -/
def save (r : Registry) (c : Connection) : Registry :=
  { r with
    stores := r.stores.put c.store.site c.store
    databases := if c.store.schemaReady then r.databases.put c.store.site c.table
      else r.databases }

def remember (r : Registry) (s : SiteStore) : Registry :=
  match s.tag with
  | none => r
  | some t => if t.isEmpty then r else { r with tags := r.tags.put t s.site }

/-- A store for a site that has none open, or the open one with what was not known of it. -/
def storeFor (r : Registry) (site : Int) (tag : Option String) (team : Option Int) : SiteStore :=
  match Keyed.find r.stores site with
  | none => { site := site, tag := tag, team := team, maxRows := r.maxRows }
  | some s => { s with tag := s.tag.or (tag.filter (!·.isEmpty)), team := s.team.or team }

/-- The store of a site, which is opened if need be. -/
def obtain (r : Registry) (site : Int) (tag : Option String) (team : Option Int) :
    SiteStore × Registry :=
  let s := r.storeFor site tag team
  (s, { r with stores := r.stores.put site s }.remember s)

def find (r : Registry) (site : Int) : Option SiteStore := Keyed.find r.stores site

/-- Opens the store of a site that has one, and finds out whose it is. -/
def reopen (r : Registry) (site : Int) : Except Failure (Option SiteStore) × Registry :=
  if (r.find site).isNone && !r.persistedSites.contains site then (.ok none, r)
  else
    let (s, r) := match r.find site with
      | some s => (s, r)
      | none => r.obtain site none none
    let (result, c) := (r.connect s).loadIdentity
    let r := r.save c
    match result with
    | .error e => (.error e, r)
    | .ok () => (.ok (some c.store), r.remember c.store)

/-- Opens one store after the other until one has the tag. -/
def search (r : Registry) (tag : Value) :
    List Int → Except Failure (Option SiteStore) × Registry
  | [] => (.ok none, r)
  | site :: rest =>
    match r.reopen site with
    | (.ok (some s), r) =>
      if (Value.ofText s.tag).same tag then (.ok (some s), r) else search r tag rest
    | (.ok none, r) => search r tag rest
    | (.error e, r) => (.error e, r)

/-- The sites with a file whose store is not open, in order. -/
def unopened (r : Registry) : List Int :=
  distinct (r.persistedSites.filter fun site ↦ (r.find site).isNone)

def findByTag (r : Registry) (tag : Value) : Except Failure (Option SiteStore) × Registry :=
  match tag.asTextKey with
  | .error f => (.error (.fault f), r)
  | .ok key =>
    match key.bind (Keyed.find r.tags) with
    | some site => r.reopen site
    | none => r.search tag r.unopened

/-- The store of a site that is named by a number. -/
def findByNumber (r : Registry) (site : Value) : Except Failure (Option SiteStore) × Registry :=
  match site.asNumberKey with
  | .error f => (.error (.fault f), r)
  | .ok none => (.ok none, r)
  | .ok (some n) => r.reopen n

/-- Ends the process and starts anew. Only what is in the directory remains. -/
def restart (r : Registry) : Registry :=
  { r with stores := [], tags := [], databases := if r.persistent then r.databases else [] }

def touch (r : Registry) (name : String) : Registry :=
  if r.files.contains name then r
  else
    match Settings.siteOfFile? name with
    | some site =>
      if Settings.storeFile site = name then
        { r with databases := r.databases.put site none }
      else { r with otherFiles := r.otherFiles ++ [name] }
    | none => { r with otherFiles := r.otherFiles ++ [name] }

/-- The databases after others have taken the table of a site away. -/
def dropTable (r : Registry) (site : Int) : Registry :=
  if (Keyed.find r.databases site).isSome then
    { r with databases := r.databases.put site none }
  else r

def openStores (r : Registry) : List SiteStore :=
  (Keyed.values r.stores).mergeSort fun a b ↦ decide (a.site ≤ b.site)

end Registry

end Footfall
