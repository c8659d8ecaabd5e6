import Footfall.Field.Issue
import Footfall.Sql.Guard

/-!
The ways in which a request can fail. A violation is the caller's, an outage the store's; a request
for a site of another team fails in the same way as one for a site that does not exist.
-/

namespace Footfall

/-- The rule of the library that a request breaks. -/
inductive Violation
  | payloadKind
  | payloadField (name : String)
  | payloadIssue (issue : Issue)
  | unknownTag (tag : String)
  | siteOfTag
  | noEvents
  | noSite
  | noTenant
  | foreignSite (site : Int) (store : Int)
  | foreignTeam (team : Int) (store : Int)
  | nothingToDelete
  | siteIdentity
  | query (violation : Sql.Violation)
  | reportText (problem : Json.Problem)
  | reportKind
  | reportVersion (v : Value)
  | reportIssue (issue : Issue)
  | widgetIssue (issue : Issue)
  deriving Repr

def Issue.location (i : Issue) : String := ".".intercalate (i.path.map Step.text)

def Violation.message : Violation → String
  | .payloadKind => "Event payload must be a mapping"
  | .payloadField name => s!"Event payload is missing required field '{name}'"
  | .payloadIssue i => s!"Invalid event payload field '{i.location}': {i.cause.message}"
  | .unknownTag tag => s!"Unknown tag_id: {tag}"
  | .siteOfTag => "site_id does not match the site for this tag_id"
  | .noEvents => "No events provided"
  | .noSite => "site_id is required to route an event to its store"
  | .noTenant => "site_id and team_id are required to store an event"
  | .foreignSite site store =>
    s!"Event for site {site} cannot be written to the store of site {store}"
  | .foreignTeam team store =>
    s!"Event for team {team} cannot be written to the store of site {store}"
  | .nothingToDelete => "Must specify either older_than or event_type for deletion"
  | .siteIdentity => "Exactly one of site_id or tag_id must be provided"
  | .query v => v.message
  | .reportText p => "Report config is not valid JSON: " ++ p.message
  | .reportKind => "Report config must be a JSON object"
  | .reportVersion v => "Unsupported report config version: " ++ v.shown
  | .reportIssue i => "Invalid report config: " ++ i.cause.message
  | .widgetIssue i => "Invalid widget config: " ++ i.cause.message

/-- The rule that a field name of a widget breaks. -/
inductive FieldRule
  | pattern
  | available
  deriving DecidableEq, Repr

def FieldRule.message : FieldRule → String
  | .pattern => "Invalid field name"
  | .available => "Field is not available in site_events"

/-- Why a store or directory gave no answer. -/
inductive Outage
  | store (source : String)
  | noRows (source : String)
  | directory
  | directoryQuery (errors : Value)
  | reported (text : String)
  deriving Repr

def Outage.message : Outage → String
  | .store source => source ++ " is unavailable"
  | .noRows source => source ++ " did not return a row set"
  | .directory => "Site directory is unavailable"
  | .directoryQuery errors => "D1 query failed: " ++ errors.plain
  | .reported text => text

/-- The setting that is out of range. -/
inductive SettingFault
  | windowDays (v : Value)
  | queryRows (v : Value)
  | timeout
  deriving Repr

def SettingFault.message : SettingFault → String
  | .windowDays v => s!"default_window_days must be at least 1. Got {v.plain}."
  | .queryRows v => s!"max_query_rows must be between 1 and 500. Got {v.plain}."
  | .timeout => "query_timeout_seconds must be positive or None"

inductive Failure
  | violation (v : Violation)
  | field (name : Value) (rule : FieldRule)
  | notYours
  | outage (o : Outage)
  | deadline (seconds : Value)
  | other (text : String)
  | setting (s : SettingFault)
  | rejected (issues : List Issue)
  | fault (f : Fault)
  deriving Repr

def Failure.message : Failure → String
  | .violation v => v.message
  | .field name rule => rule.message ++ ": " ++ name.shown
  | .notYours => "Site not found for this team"
  | .outage o => o.message
  | .deadline seconds => s!"Operation exceeded deadline of {seconds.plain}s"
  | .other text => text
  | .setting s => s.message
  | .rejected issues => "\n".intercalate (issues.map (·.cause.message))
  | .fault f => f.message

def Reading.get {α : Type} : Reading α → Except Failure α
  | .accepted a => .ok a
  | .rejected is => .error (.rejected is)
  | .failed f => .error (.fault f)

theorem bind_eq_ok_iff {ε α β : Type} {x : Except ε α} {f : α → Except ε β} {b : β} :
    x >>= f = .ok b ↔ ∃ a, x = .ok a ∧ f a = .ok b := by
  cases x <;> simp [bind, Except.bind]

theorem mapError_eq_ok_iff {ε δ α : Type} {x : Except ε α} {f : ε → δ} {a : α} :
    x.mapError f = .ok a ↔ x = .ok a := by
  cases x with
  | error e => exact iff_of_false (fun h ↦ by cases h) fun h ↦ by cases h
  | ok b =>
    change (.ok b : Except δ α) = .ok a ↔ _
    simp only [Except.ok.injEq]

end Footfall
