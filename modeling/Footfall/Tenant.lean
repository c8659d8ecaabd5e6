import Footfall.Event.Record

/-!
Sites, the teams that own them, and the kinds of storage that a team's events live in.
-/

namespace Footfall

inductive StorageKind
  | sqlite
  | postgres
  | singlestore
  | analyticsEngine
  deriving DecidableEq, Repr, Inhabited

namespace StorageKind

def all : List StorageKind := [.sqlite, .postgres, .singlestore, .analyticsEngine]

def name : StorageKind → String
  | .sqlite => "sqlite"
  | .postgres => "postgres"
  | .singlestore => "singlestore"
  | .analyticsEngine => "analytics_engine"

def ofValue? : Value → Option StorageKind
  | .text s => all.find? fun k ↦ k.name == s
  | _ => none

def read : Value → Reading StorageKind := Field.choice all name

end StorageKind

structure Site where
  id : Int
  team : Int
  tag : String
  domain : Option String := none
  name : Option String := none
  storage : StorageKind := .sqlite
  deriving DecidableEq, Repr

namespace Site

open Footfall.Field in
def read (v : Value) : Reading Site :=
  (record "Site" v).bind fun fields ↦
    Site.mk <$> required fields "site_id" whole <*> required fields "team_id" whole
      <*> required fields "tag_id" text <*> optional fields "domain" none (nullable text)
      <*> optional fields "name" none (nullable text)
      <*> optional fields "db_adapter" .sqlite StorageKind.read

def toValue (s : Site) : Value :=
  .object [("site_id", .int s.id), ("team_id", .int s.team), ("tag_id", .text s.tag),
    ("domain", .ofText s.domain), ("name", .ofText s.name),
    ("db_adapter", .text s.storage.name)]

end Site

/-- A caller: the team, where its events are stored, and the sites it may see. An empty list stands
for all sites of the team. -/
structure Tenant where
  team : Int
  storage : StorageKind := .sqlite
  sites : List Int := []
  deriving DecidableEq, Repr

namespace Tenant

open Footfall.Field in
def read (v : Value) : Reading Tenant :=
  (record "TenantContext" v).bind fun fields ↦
    Tenant.mk <$> required fields "team_id" whole
      <*> optional fields "db_adapter" .sqlite StorageKind.read
      <*> optional fields "site_ids" [] (list whole)

def toValue (t : Tenant) : Value :=
  .object [("team_id", .int t.team), ("db_adapter", .text t.storage.name),
    ("site_ids", .list (t.sites.map .int))]

def owns (t : Tenant) (s : Site) : Bool :=
  s.team == t.team && (t.sites.isEmpty || t.sites.contains s.id)

theorem team_of_owns {t : Tenant} {s : Site} (h : t.owns s) : s.team = t.team := by
  simp only [owns, Bool.and_eq_true, beq_iff_eq] at h
  exact h.1

end Tenant

end Footfall
