import Footfall.Failure
import Footfall.Event.Record

/-!
Answers to requests. What a caller did wrong is told to the caller; what went wrong inside is told
only by kind. A failure that the library does not know of ends the request.
-/

namespace Footfall.Http

inductive Response
  | answer (status : Nat) (body : Value)
  | refused (issues : List Issue)
  /-- An answer without a body. -/
  | bare (status : Nat)
  | broken
  deriving Repr

namespace Response

def detail (status : Nat) (text : String) : Response :=
  .answer status (.object [("detail", .text text)])

def status : Response → Nat
  | .answer status _ => status
  | .refused _ => 422
  | .bare status => status
  | .broken => 500

def brokenText : String := "Internal Server Error"

def redirect : Response := .bare 307

/-- The answer without its body. -/
def withoutBody (r : Response) : Response := .bare r.status

def ofFailure : Failure → Response
  | e@(.violation _) | e@(.field ..) => detail 400 e.message
  | .notYours => detail 404 "Site not found"
  | .deadline _ => detail 504 "Query timed out"
  | .outage _ => detail 503 "Analytics storage is unavailable"
  | .other _ => detail 500 "Internal error"
  | .setting _ | .rejected _ | .fault _ => .broken

mutual

/-- A value as it is written in an answer: times to the second, with a fraction only if there is
one, and null for what is no finite number. -/
def written : Value → Value
  | .time t => .text (t.wall.briefText "T" ++ "Z")
  | .float x => if x.isFinite then .float x else .null
  | .list items => .list (writtenList items)
  | .object fields => .object (writtenFields fields)
  | v => v

def writtenList : List Value → List Value
  | [] => []
  | v :: rest => written v :: writtenList rest

def writtenFields : Fields → Fields
  | [] => []
  | (k, v) :: rest => (k, written v) :: writtenFields rest

end

def ofResult (status : Nat) : Except Failure Value → Response
  | .ok v => .answer status (written v)
  | .error e => ofFailure e

end Response

end Footfall.Http
