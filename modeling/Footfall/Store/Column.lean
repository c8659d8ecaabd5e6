import Footfall.Event.Record
import Footfall.Json.Writer

/-!
The columns of the events table and the cells of a stored event. Maps are stored as JSON text, an
absent one as the text of null; instants are stored as text.
-/

namespace Footfall

inductive Cell
  | null
  | whole (n : Int)
  | text (s : String)
  deriving DecidableEq, Repr, Inhabited

def Cell.toValue : Cell → Value
  | .null => .null
  | .whole n => .int n
  | .text s => .text s

def Cell.asText : Cell → Option String
  | .null => none
  | .whole n => some (toString n)
  | .text s => some s

inductive Column
  | id | site | tag | team
  | event
  | pageUrl | clientPageUrl | referer | queryParams | customData | botData
  | browser | operatingSystem | deviceType | screenWidth | screenHeight
  | country | region | city | postal
  | rid
  | createdAt | updatedAt
  deriving DecidableEq, Repr, Inhabited

namespace Column

def all : List Column :=
  [.id, .site, .tag, .team, .event, .pageUrl, .clientPageUrl, .referer, .queryParams, .customData,
   .botData, .browser, .operatingSystem, .deviceType, .screenWidth, .screenHeight, .country,
   .region, .city, .postal, .rid, .createdAt, .updatedAt]

def name : Column → String
  | .id => "id"
  | .site => "site_id"
  | .tag => "tag_id"
  | .team => "team_id"
  | .event => "event"
  | .pageUrl => "page_url"
  | .clientPageUrl => "client_page_url"
  | .referer => "referer"
  | .queryParams => "query_params"
  | .customData => "custom_data"
  | .botData => "bot_data"
  | .browser => "browser"
  | .operatingSystem => "operating_system"
  | .deviceType => "device_type"
  | .screenWidth => "screen_width"
  | .screenHeight => "screen_height"
  | .country => "country"
  | .region => "region"
  | .city => "city"
  | .postal => "postal"
  | .rid => "rid"
  | .createdAt => "created_at"
  | .updatedAt => "updated_at"

def declaration : Column → String
  | .id | .site | .team | .screenWidth | .screenHeight => "INTEGER"
  | .tag | .browser | .operatingSystem | .country => "VARCHAR(64)"
  | .event => "VARCHAR(255)"
  | .pageUrl | .clientPageUrl | .referer => "TEXT"
  | .queryParams | .customData | .botData => "JSON"
  | .deviceType | .postal => "VARCHAR(32)"
  | .region | .city | .rid => "VARCHAR(128)"
  | .createdAt | .updatedAt => "DATETIME"

def isRequired : Column → Bool
  | .id | .site | .tag | .event | .createdAt | .updatedAt => true
  | _ => false

def ofName? (name : String) : Option Column := all.find? fun c ↦ c.name == name

theorem mem_all (c : Column) : c ∈ all := by cases c <;> decide

theorem ofName?_name (c : Column) : ofName? c.name = some c := by cases c <;> decide

def describe (c : Column) : Value :=
  .object [("name", .text c.name), ("type", .text c.declaration),
    ("nullable", .bool (!c.isRequired)), ("primary_key", .bool (c == .id)), ("default", .null)]

end Column

def Cell.ofText : Option String → Cell
  | none => .null
  | some s => .text s

def Cell.ofWhole : Option Int → Cell
  | none => .null
  | some n => .whole n

def Cell.ofMap (m : Option Fields) : Cell := .text (Json.write (.ofOption .object m))

namespace StoredEvent

def cell (e : StoredEvent) : Column → Cell
  | .id => .whole e.id
  | .site => .whole e.site
  | .tag => .text e.tag
  | .team => .ofWhole e.team
  | .event => .text e.event
  | .pageUrl => .ofText e.context.pageUrl
  | .clientPageUrl => .ofText e.context.clientPageUrl
  | .referer => .ofText e.context.referer
  | .queryParams => .ofMap e.context.queryParams
  | .customData => .ofMap e.context.customData
  | .botData => .ofMap e.context.botData
  | .browser => .ofText e.context.browser
  | .operatingSystem => .ofText e.context.operatingSystem
  | .deviceType => .ofText e.context.deviceType
  | .screenWidth => .ofWhole e.context.screenWidth
  | .screenHeight => .ofWhole e.context.screenHeight
  | .country => .ofText e.context.country
  | .region => .ofText e.context.region
  | .city => .ofText e.context.city
  | .postal => .ofText e.context.postal
  | .rid => .ofText e.context.rid
  | .createdAt => .text e.createdAt.storedText
  | .updatedAt => .text e.updatedAt.storedText

/-- The cell as text, as which charts show and compare it. -/
def textOf (e : StoredEvent) (c : Column) : Option String := (e.cell c).asText

end StoredEvent

end Footfall
