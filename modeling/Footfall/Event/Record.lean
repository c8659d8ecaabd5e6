import Footfall.Field.Read

/-!
Events of a site, before and after they are stored. A record that is not yet stored may lack its
site, its team and its times; a stored event has an id, a site and both times.
-/

namespace Footfall

abbrev Fields := List (String × Value)

/-- What an event says about the page, the device, the place and the session. -/
structure Context where
  pageUrl : Option String := none
  clientPageUrl : Option String := none
  referer : Option String := none
  queryParams : Option Fields := none
  customData : Option Fields := none
  botData : Option Fields := none
  browser : Option String := none
  operatingSystem : Option String := none
  deviceType : Option String := none
  screenWidth : Option Int := none
  screenHeight : Option Int := none
  country : Option String := none
  region : Option String := none
  city : Option String := none
  postal : Option String := none
  rid : Option String := none
  deriving BEq, Repr

structure EventRecord where
  site : Option Int
  tag : String
  account : Option Int
  team : Option Int
  event : String
  context : Context
  createdAt : Option Instant
  updatedAt : Option Instant
  deriving BEq, Repr

structure StoredEvent where
  id : Int
  site : Int
  tag : String
  account : Option Int
  team : Option Int
  event : String
  context : Context
  createdAt : Instant
  updatedAt : Instant
  deriving BEq, Repr

namespace Value

def ofOption {α : Type} (f : α → Value) : Option α → Value
  | none => .null
  | some a => f a

def ofText : Option String → Value := ofOption .text
def ofWhole : Option Int → Value := ofOption .int
def ofInstant (t : Instant) : Value := .time (.ofInstant t)

end Value

namespace Field

/-- A map of an event: an object, or text that holds one; blank text is no map. -/
def eventMap (v : Value) : Reading (Option Fields) :=
  match v with
  | .text s =>
    if Text.isBlankText s then .accepted none
    else
      match Json.read s with
      | .ok v => nullable object v
      | .error (.malformed ..) => .refuse (.rule "expected a JSON object")
      | .error e => .refuse (.rule e.message)
  | v => nullable object v

end Field

namespace Context

open Footfall.Field

def read (fields : Fields) : Reading Context :=
  let text name := optional fields name none (nullable Field.text)
  let map name := optional fields name none eventMap
  let size name := optional fields name none (nullable whole)
  Context.mk <$> text "page_url" <*> text "client_page_url" <*> text "referer"
    <*> map "query_params" <*> map "custom_data" <*> map "bot_data"
    <*> text "browser" <*> text "operating_system" <*> text "device_type"
    <*> size "screen_width" <*> size "screen_height"
    <*> text "country" <*> text "region" <*> text "city" <*> text "postal" <*> text "rid"

def toFields (c : Context) : Fields :=
  [("page_url", .ofText c.pageUrl), ("client_page_url", .ofText c.clientPageUrl),
   ("referer", .ofText c.referer), ("query_params", .ofOption .object c.queryParams),
   ("custom_data", .ofOption .object c.customData), ("bot_data", .ofOption .object c.botData),
   ("browser", .ofText c.browser), ("operating_system", .ofText c.operatingSystem),
   ("device_type", .ofText c.deviceType), ("screen_width", .ofWhole c.screenWidth),
   ("screen_height", .ofWhole c.screenHeight), ("country", .ofText c.country),
   ("region", .ofText c.region), ("city", .ofText c.city), ("postal", .ofText c.postal),
   ("rid", .ofText c.rid)]

end Context

namespace EventRecord

open Footfall.Field

def read (fields : Fields) : Reading EventRecord :=
  let time name := optional fields name none (nullable instant)
  let id name := optional fields name none (nullable whole)
  EventRecord.mk <$> id "site_id" <*> required fields "tag_id" text <*> id "account_id"
    <*> id "team_id" <*> required fields "event" text <*> Context.read fields
    <*> time "created_at" <*> time "updated_at"

def toFields (r : EventRecord) : Fields :=
  [("site_id", .ofWhole r.site), ("tag_id", .text r.tag), ("account_id", .ofWhole r.account),
   ("team_id", .ofWhole r.team), ("event", .text r.event)] ++ r.context.toFields ++
  [("created_at", .ofOption .ofInstant r.createdAt),
   ("updated_at", .ofOption .ofInstant r.updatedAt)]

/-- The record under the site and team that own its tag. -/
def claimedBy (r : EventRecord) (site team : Int) : EventRecord :=
  { r with site := some site, team := some team, account := some team }

end EventRecord

namespace StoredEvent

open Footfall.Field

def withAccount (fields : Fields) : Fields :=
  if (Value.get fields "account_id").isNull then
    Value.put fields "account_id" (Value.get fields "team_id")
  else fields

def readFields (fields : Fields) : Reading StoredEvent :=
  let id name := optional fields name none (nullable whole)
  let make site tag account team event context created updated id : StoredEvent :=
    ⟨id, site, tag, account, team, event, context, created, updated⟩
  make <$> required fields "site_id" whole <*> required fields "tag_id" text <*> id "account_id"
    <*> id "team_id" <*> required fields "event" text <*> Context.read fields
    <*> required fields "created_at" instant <*> required fields "updated_at" instant
    <*> required fields "id" whole

def read (v : Value) : Reading StoredEvent :=
  (record "StoredEvent" v).bind fun fields ↦ readFields (withAccount fields)

def toFields (e : StoredEvent) : Fields :=
  [("id", .int e.id), ("site_id", .int e.site), ("tag_id", .text e.tag),
   ("account_id", .ofWhole e.account), ("team_id", .ofWhole e.team), ("event", .text e.event)] ++
  e.context.toFields ++
  [("created_at", .ofInstant e.createdAt), ("updated_at", .ofInstant e.updatedAt)]

def toValue (e : StoredEvent) : Value := .object e.toFields

end StoredEvent

end Footfall
