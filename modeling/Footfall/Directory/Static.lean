import Footfall.Keyed
import Footfall.Query.Scope
import Footfall.Tenant

/-!
A directory of a fixed set of sites, looked up by number and by public tag.
-/

namespace Footfall

/-- Sites by number and by tag. A site that is added takes the place of the one that was under its
number and of the one that was under its tag. -/
structure Directory where
  byNumber : Keyed Int Site := []
  byTag : Keyed String Site := []
  deriving DecidableEq, Repr, Inhabited

namespace Directory

def add (d : Directory) (s : Site) : Directory :=
  ⟨d.byNumber.put s.id s, d.byTag.put s.tag s⟩

def ofSites (sites : List Site) : Directory := sites.foldl add {}

def find? (d : Directory) : SiteRef → Option Site
  | .number n => Keyed.find d.byNumber n
  | .tag t => Keyed.find d.byTag t

def withNumber (d : Directory) (v : Value) : Except Fault (Option Site) :=
  return (← v.asNumberKey).bind (Keyed.find d.byNumber)

def withTag (d : Directory) (v : Value) : Except Fault (Option Site) :=
  return (← v.asTextKey).bind (Keyed.find d.byTag)

def ofTeam (d : Directory) (team : Value) : List Site :=
  (Keyed.values d.byNumber).filter fun s ↦ (Value.int s.team).same team

@[simp] theorem find?_number_add (d : Directory) (s : Site) :
    (d.add s).find? (.number s.id) = some s := Keyed.find_put_self ..

@[simp] theorem find?_tag_add (d : Directory) (s : Site) :
    (d.add s).find? (.tag s.tag) = some s := Keyed.find_put_self ..

@[simp] theorem withNumber_int (d : Directory) (n : Int) :
    d.withNumber (.int n) = .ok (d.find? (.number n)) := rfl

@[simp] theorem withTag_text (d : Directory) (t : String) :
    d.withTag (.text t) = .ok (d.find? (.tag t)) := rfl

end Directory

end Footfall
