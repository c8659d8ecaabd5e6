import Footfall.Event.Record
import Footfall.Failure
import Footfall.Value.Convert
import Footfall.Value.Order

/-!
Settings of a deployment: where events are stored, where sites are looked up, and the defaults of
queries. They are given by name or read from the environment, and checked once.
-/

namespace Footfall

structure Settings where
  databaseUrl : Value := .null
  storeDir : Value := .null
  directoryDatabase : Value := .null
  directoryAccount : Value := .null
  directoryToken : Value := .null
  windowDays : Value := .int 7
  timeout : Value := .float (Double.ofInt 30)
  queryRows : Value := .int 500
  echo : Value := .bool false
  deriving Repr

namespace Settings

def maxQueryRows : Int := 500

def validate (s : Settings) : Except Failure Settings := do
  if ← (s.windowDays.lessThan (.int 1)).mapError .fault then
    throw (.setting (.windowDays s.windowDays))
  let enough ← (Value.atMost (.int 1) s.queryRows).mapError .fault
  if !enough || !(← (s.queryRows.atMost (.int maxQueryRows)).mapError .fault) then
    throw (.setting (.queryRows s.queryRows))
  if !s.timeout.isNull then
    if ← (s.timeout.atMost (.int 0)).mapError .fault then throw (.setting .timeout)
  return s

def put (s : Settings) (name : String) (v : Value) : Except Failure Settings :=
  match name with
  | "relational_database_url" => .ok { s with databaseUrl := v }
  | "durable_store_dir" => .ok { s with storeDir := v }
  | "d1_database_id" => .ok { s with directoryDatabase := v }
  | "cf_account_id" => .ok { s with directoryAccount := v }
  | "cf_api_token" => .ok { s with directoryToken := v }
  | "default_window_days" => .ok { s with windowDays := v }
  | "query_timeout_seconds" => .ok { s with timeout := v }
  | "max_query_rows" => .ok { s with queryRows := v }
  | "echo_sql" => .ok { s with echo := v }
  | _ => .error (.fault (.unknownSetting name))

def ofFields (fields : Fields) : Except Failure Settings := do
  (← fields.foldlM (fun s f ↦ put s f.1 f.2) {}).validate

def onWords : List String := ["1", "true", "yes"]

def isOn : Value → Except Fault Bool
  | .null => .ok false
  | .text s => .ok (String.ofList (Numeral.lower s.toList) ∈ onWords)
  | .bytes _ => .ok false
  | v => .error (.noAttribute v "lower")

/-- A variable of the environment; an empty one counts as not set. -/
def environmentValue (env : Fields) (name : String) : Value :=
  let v := Value.get env ("SITE_ANALYTICS_" ++ name)
  if v.isTruthy then v else .null

def ofEnvironment (env : Fields) : Except Failure Settings := do
  let get := environmentValue env
  let whole name (default : Int) : Except Failure Value :=
    let v := get name
    if v.isNull then .ok (.int default) else v.toWhole.mapError .fault |>.map .int
  let days ← whole "DEFAULT_WINDOW_DAYS" 7
  let seconds := get "QUERY_TIMEOUT_SECONDS"
  let timeout ← if seconds.isNull then pure (.float (Double.ofInt 30))
    else seconds.toReal.mapError .fault |>.map .float
  let rows ← whole "MAX_QUERY_ROWS" maxQueryRows
  let echo ← (isOn (get "ECHO_SQL")).mapError .fault
  Settings.validate
    { databaseUrl := get "DATABASE_URL", storeDir := get "STORE_DIR",
      directoryDatabase := get "D1_DATABASE_ID", directoryAccount := get "CF_ACCOUNT_ID",
      directoryToken := get "CF_API_TOKEN", windowDays := days, timeout := timeout,
      queryRows := rows, echo := .bool echo }

def hasDirectory (s : Settings) : Bool :=
  s.directoryDatabase.isTruthy && s.directoryAccount.isTruthy && s.directoryToken.isTruthy

def after? (front s : String) : Option String :=
  if front.toList.isPrefixOf s.toList then some (String.ofList (s.toList.drop front.length))
  else none

/-- The address of the server with the driver that is used; without an address it is the setting as
it was given. -/
def serverUrl (s : Settings) : Except Fault Value :=
  if !s.databaseUrl.isTruthy then .ok s.databaseUrl
  else
    match s.databaseUrl with
    | .text url =>
      match (after? "postgresql://" url).or (after? "postgres://" url) with
      | some rest => .ok (.text ("postgresql+asyncpg://" ++ rest))
      | none => .ok (.text url)
    | .bytes _ => .error .bytesFront
    | v => .error (.noAttribute v "startswith")

def storeFile (site : Int) : String := "site-" ++ toString site ++ ".db"

def joinPath (dir name : String) : String :=
  if dir.isEmpty || dir.toList.getLast? == some '/' then dir ++ name else dir ++ "/" ++ name

def pathIn (dir : Value) (name : String) : Except Fault String :=
  match dir with
  | .text dir => .ok (joinPath dir name)
  | .bytes _ => .error .mixedPath
  | v => .error (.notAPath v)

/-- The address of a site's store. Without a directory all stores are in memory. -/
def storeUrl (s : Settings) (site : Value) : Except Fault String := do
  if s.storeDir.isNull then return "sqlite+aiosqlite:///:memory:"
  let name := storeFile (← site.toWhole)
  return "sqlite+aiosqlite:///" ++ (← pathIn s.storeDir name)

def siteOfFile? (name : String) : Option Int :=
  match after? "site-" name with
  | none => none
  | some rest =>
    let ds := rest.toList.takeWhile Char.isDigit
    if !ds.isEmpty && rest.toList.dropWhile Char.isDigit == ".db".toList then
      some (Text.natural ds)
    else none

/-- The sites that have a file among those named, in order. -/
def persistedSites (files : List String) : List Int :=
  (files.filterMap siteOfFile?).mergeSort fun a b ↦ decide (a ≤ b)

def toValue (s : Settings) : Value :=
  .object [("relational_database_url", s.databaseUrl), ("durable_store_dir", s.storeDir),
    ("d1_database_id", s.directoryDatabase), ("cf_account_id", s.directoryAccount),
    ("cf_api_token", s.directoryToken), ("default_window_days", s.windowDays),
    ("query_timeout_seconds", s.timeout), ("max_query_rows", s.queryRows), ("echo_sql", s.echo)]

end Settings

end Footfall
