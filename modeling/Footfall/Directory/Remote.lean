import Footfall.Failure
import Footfall.Http.Address
import Footfall.Json.Writer
import Footfall.Query.Filters
import Footfall.Settings
import Footfall.Tenant

/-!
The remote directory of sites, which is asked over HTTP with one query per look-up. Its answers are
not to be trusted: any part of them may have another shape than expected.
-/

namespace Footfall

/-- The account in which the directory is kept, and the token to read it, as they were given. -/
structure RemoteDirectory where
  database : Value
  account : Value
  token : Value
  timeout : Value
  deriving Repr

/-- A query with its parameters. -/
structure DirectoryQuery where
  sql : Value
  params : Value
  deriving Repr

/-- How a request ended: without an answer, or with a status and a body. -/
inductive DirectoryResponse
  | lost
  | answered (status : Int) (body : List UInt8)
  deriving Repr

namespace DirectoryQuery

def columns : String := "
    SELECT s.site_id, s.tag_id, s.team_id, s.domain, s.name, t.db_adapter
    FROM sites s
    LEFT JOIN team t ON t.id = s.team_id
"

/-- The query for the rows with a value in a column. -/
def of (condition : String) (v : Value) : DirectoryQuery :=
  ⟨.text (columns ++ condition), .list [v]⟩

def byNumber (n : Value) : DirectoryQuery := of " WHERE s.site_id = ? LIMIT 1" n

def byTag (t : Value) : DirectoryQuery := of " WHERE s.tag_id = ? LIMIT 1" t

def byTeam (team : Value) : DirectoryQuery := of " WHERE s.team_id = ? ORDER BY s.site_id" team

end DirectoryQuery

namespace RemoteDirectory

/-- How long a request may take when the settings do not say. -/
def defaultTimeout : Value := .float (Double.ofInt 30)

def ofSettings (s : Settings) : RemoteDirectory :=
  ⟨s.directoryDatabase, s.directoryAccount, s.directoryToken,
    if s.timeout.isTruthy then s.timeout else defaultTimeout⟩

def origin : String := "https://api.cloudflare.com"

def basePath (d : RemoteDirectory) : String :=
  s!"/client/v4/accounts/{d.account.plain}/d1/database/{d.database.plain}"

def baseUrl (d : RemoteDirectory) : String := origin ++ d.basePath

def authorization (d : RemoteDirectory) : Except Fault String :=
  let s := "Bearer " ++ d.token.plain
  match Text.unencodable? 0 s.toList with
  | some e => .error (.unencodable e)
  | none => .ok s

/-- The request that a query is sent with. Its address is checked first, then what it is authorized
by, then its body. -/
def request (d : RemoteDirectory) (q : DirectoryQuery) : Except Fault Value := do
  let address ← (Http.Address.read origin (d.basePath ++ "/query")).mapError .address
  let authorization ← d.authorization
  let params := if q.params.isTruthy then q.params else .list []
  let body := Value.object [("sql", q.sql), ("params", params)]
  if let some v := Json.unwritable? body then throw (.unwritable v)
  return .object [("method", .text "POST"), ("url", .text address.text),
    ("authorization", .text authorization), ("content_type", .text "application/json"),
    ("json", body)]

def bodyValue (body : List UInt8) : Except Fault Value :=
  match Text.decode body with
  | .error e => .error (.undecodable e)
  | .ok cs =>
    match Json.readChars cs with
    | .ok v => .ok v
    | .error (.malformed p position) => .error (.document p (String.ofList cs) position)
    | .error (.tooLong n) => .error (.longNumeral n)

def isSuccess (status : Int) : Bool := decide (200 ≤ status ∧ status < 300)

def fieldsOf : Value → Except Fault Fields
  | .object fields => .ok fields
  | v => .error (.noAttribute v "get")

def firstOf : Value → Except Fault Value
  | .list (v :: _) => .ok v
  | .text s => .ok (.text (String.ofList (s.toList.take 1)))
  | .list [] | .object _ => .error .missingItem
  | v => .error (.noItems v)

def hasLength : Value → Bool
  | .text _ | .bytes _ | .list _ | .object _ => true
  | _ => false

def resultRows (results : Value) : Except Fault Value :=
  if !results.isTruthy then .ok (.list [])
  else if !hasLength results then .error (.noLength results)
  else do
    let first ← fieldsOf (← firstOf results)
    return (Value.lookup first "results").getD (.list [])

def rows (response : DirectoryResponse) : Except Failure Value :=
  match response with
  | .lost => .error (.outage .directory)
  | .answered status body =>
    if !isSuccess status then .error (.outage .directory)
    else do
      let answer ← (bodyValue body >>= fieldsOf).mapError .fault
      if !(Value.get answer "success").isTruthy then
        throw (.outage (.directoryQuery (Value.get answer "errors")))
      (resultRows ((Value.lookup answer "result").getD (.list []))).mapError .fault

/-- The storage that a row names; without a known name it is the embedded one. -/
def storageOf (row : Fields) : StorageKind :=
  (StorageKind.ofValue? (Value.get row "db_adapter")).getD .sqlite

def needed (row : Fields) (name : String) : Except Fault Value :=
  match Value.lookup row name with
  | some v => .ok v
  | none => .error (.missingKey name)

def siteOfRow (row : Value) : Except Failure Site := do
  let row ← (fieldsOf row).mapError .fault
  let id ← (needed row "site_id").mapError .fault
  let team ← (needed row "team_id").mapError .fault
  let tag ← (needed row "tag_id").mapError .fault
  (Site.read (.object [("site_id", id), ("team_id", team), ("tag_id", tag),
    ("domain", Value.get row "domain"), ("name", Value.get row "name"),
    ("db_adapter", .text (storageOf row).name)])).get

def site (response : DirectoryResponse) : Except Failure (Option Site) := do
  let rows ← rows response
  if rows.isTruthy then
    some <$> siteOfRow (← (firstOf rows).mapError .fault)
  else return none

def sites (response : DirectoryResponse) : Except Failure (List Site) := do
  (← (← rows response).items.mapError .fault).mapM siteOfRow

theorem rows_lost : rows .lost = .error (.outage .directory) := rfl

/-- An answer that is no success is an outage. -/
theorem rows_of_not_isSuccess {status : Int} (body : List UInt8) (h : isSuccess status = false) :
    rows (.answered status body) = .error (.outage .directory) := by
  simp [rows, h]

end RemoteDirectory

end Footfall
