import Footfall.Query.Filters
import Footfall.Value.Convert
import Footfall.Value.Order

/-!
Scopes: the site and the team whose events a request may see, as the request names them. A site is
named by number or by its public tag. A value that is neither names a site that does not exist.
-/

namespace Footfall

namespace Value

def asWhole? (v : Value) : Option Int :=
  match v.number? with
  | some (.whole n) => some n
  | some (.real x) => x.whole?
  | none => none

def asNumberKey (v : Value) : Except Fault (Option Int) := return (← v.asKey).asWhole?

def asTextKey : Value → Except Fault (Option String)
  | .text s => .ok (some s)
  | v => v.asKey.map fun _ ↦ none

@[simp] theorem asNumberKey_int (n : Int) : asNumberKey (.int n) = .ok (some n) := rfl

@[simp] theorem asTextKey_text (s : String) : asTextKey (.text s) = .ok (some s) := rfl

end Value

namespace SiteRef

def toValue : SiteRef → Value
  | .number n => .int n
  | .tag t => .text t

def ofValue : Value → Except Fault (Option SiteRef)
  | .text t => .ok (some (.tag t))
  | v => return (← v.asNumberKey).map .number

@[simp] theorem ofValue_toValue (r : SiteRef) : ofValue r.toValue = .ok (some r) := by
  cases r <;> rfl

end SiteRef

structure Scope where
  site : Value
  team : Value
  deriving Repr, Inhabited

namespace Scope

def of (site : SiteRef) (team : Int) : Scope := ⟨site.toValue, .int team⟩

def isOfTeam (s : Scope) (team : Int) : Bool := s.team.same (.int team)

@[simp] theorem isOfTeam_of (site : SiteRef) (team other : Int) :
    (of site team).isOfTeam other = decide (team = other) := by
  simp only [isOfTeam, of, Value.same, Value.number?, Number.same, Number.le_whole,
    ← Bool.decide_and]
  exact decide_eq_decide.2 (by omega)

end Scope

end Footfall
