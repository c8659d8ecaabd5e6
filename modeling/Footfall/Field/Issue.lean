import Footfall.Fault

/-!
Issues: what is wrong with one field of a document that is being read into a record, and where.
Reading collects the issues of all fields; a fault ends it at once.
-/

namespace Footfall

/-- A step on the way to a field. -/
inductive Step
  | key (name : String)
  | index (n : Nat)
  deriving DecidableEq, Repr

def Step.text : Step → String
  | .key name => name
  | .index n => toString n

inductive Cause
  | missing
  | wholeKind
  | wholeText
  | wholeFraction
  | wholeSize
  | notFinite
  | textKind
  | textEncoding
  | truthKind
  | truthText
  | realKind
  | realText
  | objectKind
  | listKind
  | recordKind (record : String)
  | choice (names : List String)
  | literal (text : String)
  | atLeast (n : Int)
  | atMost (n : Int)
  | timeKind
  | timeNotANumber
  | timeNumber (refusal : Time.Refusal)
  | timeText (refusal : Time.Refusal)
  | timeYear
  | malformedDocument
  | attributesKind
  | rule (text : String)
  deriving Repr

namespace Cause

def code : Cause → String
  | .missing => "missing"
  | .wholeKind => "int_type"
  | .wholeText => "int_parsing"
  | .wholeFraction => "int_from_float"
  | .wholeSize => "int_parsing_size"
  | .notFinite => "finite_number"
  | .textKind => "string_type"
  | .textEncoding => "string_unicode"
  | .truthKind => "bool_type"
  | .truthText => "bool_parsing"
  | .realKind => "float_type"
  | .realText => "float_parsing"
  | .objectKind => "dict_type"
  | .listKind => "list_type"
  | .recordKind _ => "model_type"
  | .choice _ => "enum"
  | .literal _ => "literal_error"
  | .atLeast _ => "greater_than_equal"
  | .atMost _ => "less_than_equal"
  | .timeKind => "datetime_type"
  | .timeNotANumber | .timeNumber _ | .timeYear => "datetime_parsing"
  | .timeText _ => "datetime_from_date_parsing"
  | .malformedDocument => "json_invalid"
  | .attributesKind => "model_attributes_type"
  | .rule _ => "value_error"

/-- Names in quotes with commas between, and a word before the last. -/
def alternatives : List String → String
  | [] => ""
  | [a] => s!"'{a}'"
  | [a, b] => s!"'{a}' or '{b}'"
  | a :: rest => s!"'{a}', " ++ alternatives rest

def message : Cause → String
  | .missing => "Field required"
  | .wholeKind => "Input should be a valid integer"
  | .wholeText => "Input should be a valid integer, unable to parse string as an integer"
  | .wholeFraction => "Input should be a valid integer, got a number with a fractional part"
  | .wholeSize => "Unable to parse input string as an integer, exceeded maximum size"
  | .notFinite => "Input should be a finite number"
  | .textKind => "Input should be a valid string"
  | .textEncoding => "Input should be a valid string, unable to parse raw data as a unicode string"
  | .truthKind => "Input should be a valid boolean"
  | .truthText => "Input should be a valid boolean, unable to interpret input"
  | .realKind => "Input should be a valid number"
  | .realText => "Input should be a valid number, unable to parse string as a number"
  | .objectKind => "Input should be a valid dictionary"
  | .listKind => "Input should be a valid list"
  | .recordKind name => s!"Input should be a valid dictionary or instance of {name}"
  | .choice names => "Input should be " ++ alternatives names
  | .literal text => "Input should be " ++ text
  | .atLeast n => s!"Input should be greater than or equal to {n}"
  | .atMost n => s!"Input should be less than or equal to {n}"
  | .timeKind => "Input should be a valid datetime"
  | .timeNotANumber => "Input should be a valid datetime, NaN values not permitted"
  | .timeNumber r => "Input should be a valid datetime, " ++ r.message
  | .timeText r => "Input should be a valid datetime or date, " ++ r.message
  | .timeYear => "Input should be a valid datetime, year 0 is out of range"
  | .malformedDocument => "JSON decode error"
  | .attributesKind =>
    "Input should be a valid dictionary or object to extract fields from"
  | .rule text => "Value error, " ++ text

end Cause

structure Issue where
  path : List Step
  cause : Cause
  deriving Repr

def Issue.under (i : Issue) (s : Step) : Issue := ⟨s :: i.path, i.cause⟩

/-- The outcome of reading: a record, the issues of its fields, or a fault. -/
inductive Reading (α : Type)
  | accepted (a : α)
  | rejected (issues : List Issue)
  | failed (fault : Fault)
  deriving Repr

namespace Reading

variable {α β : Type}

def map (f : α → β) : Reading α → Reading β
  | .accepted a => .accepted (f a)
  | .rejected is => .rejected is
  | .failed e => .failed e

/-- Reads two parts, the left one first, and keeps the issues of both. A fault of the second part
outweighs issues of the first. -/
def seq (f : Reading (α → β)) (a : Reading α) : Reading β :=
  match f, a with
  | .failed e, _ => .failed e
  | .accepted g, a => a.map g
  | .rejected _, .failed e => .failed e
  | .rejected is, .rejected js => .rejected (is ++ js)
  | .rejected is, .accepted _ => .rejected is

def bind (a : Reading α) (f : α → Reading β) : Reading β :=
  match a with
  | .accepted a => f a
  | .rejected is => .rejected is
  | .failed e => .failed e

instance : Functor Reading := ⟨map, fun a ↦ map fun _ ↦ a⟩
instance : Applicative Reading where
  pure := .accepted
  seq f a := f.seq (a ())

def refuse (cause : Cause) : Reading α := .rejected [⟨[], cause⟩]

def under (s : Step) : Reading α → Reading α
  | .rejected is => .rejected (is.map (·.under s))
  | r => r

@[simp] theorem seq_accepted (f : α → β) (a : α) :
    seq (.accepted f) (.accepted a) = .accepted (f a) := rfl

theorem map_eq_accepted {f : α → β} {r : Reading α} {b : β} :
    r.map f = .accepted b ↔ ∃ a, r = .accepted a ∧ f a = b := by
  cases r <;> simp [map]

theorem seq_eq_accepted {f : Reading (α → β)} {r : Reading α} {b : β} :
    f.seq r = .accepted b ↔ ∃ g a, f = .accepted g ∧ r = .accepted a ∧ g a = b := by
  cases f <;> cases r <;> simp [seq, map]

end Reading

end Footfall
