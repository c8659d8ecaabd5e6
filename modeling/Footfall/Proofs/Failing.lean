import Footfall.Failure
import Footfall.Field.Read

/-!
Which failures a computation ends with, and when. What is read field by field is either accepted or
told of: readers compose so that none of them ends with a fault or without an issue.
-/

namespace Footfall

variable {α β : Type}

namespace Failure

def IsViolation (e : Failure) : Prop := ∃ v, e = .violation v

def IsFault (e : Failure) : Prop := ∃ f, e = .fault f

def IsOutage (e : Failure) : Prop := ∃ o, e = .outage o

end Failure

/-- A computation that fails in one way under a condition. Otherwise it has a result or fails in
another way. -/
structure FailsWhen (x : Except Failure α) (p : Prop) (A B : Failure → Prop) : Prop where
  fails (h : p) : ∃ e, x = .error e ∧ A e
  otherwise (h : ¬p) {e : Failure} (he : x = .error e) : B e

namespace FailsWhen

variable {x : Except Failure α} {g : α → Except Failure β} {p q : Prop} {A B : Failure → Prop}
  {e : Failure}

theorem congr (h : FailsWhen x p A B) (hpq : p ↔ q) : FailsWhen x q A B := propext hpq ▸ h

theorem ok (a : α) : FailsWhen (.ok a) False A B := ⟨False.elim, fun _ _ he ↦ by cases he⟩

theorem error (h : A e) : FailsWhen (.error e : Except Failure α) True A B :=
  ⟨fun _ ↦ ⟨e, rfl, h⟩, fun h ↦ absurd trivial h⟩

theorem error_otherwise (h : B e) : FailsWhen (.error e : Except Failure α) False A B := by
  refine ⟨False.elim, fun _ e' he ↦ ?_⟩
  cases he
  exact h

/-- Of two steps the second is made only if there is a result of the first. -/
theorem bind (hx : FailsWhen x p A B) (hg : ∀ a, x = .ok a → FailsWhen (g a) q A B) :
    FailsWhen (x >>= g) (p ∨ (∃ a, x = .ok a) ∧ q) A B := by
  constructor
  · rintro (h | ⟨⟨a, rfl⟩, h⟩)
    · obtain ⟨e, rfl, he⟩ := hx.fails h
      exact ⟨e, rfl, he⟩
    · exact (hg a rfl).fails h
  · intro h e he
    obtain ⟨hp, hq⟩ := not_or.1 h
    cases x with
    | error e' =>
      cases he
      exact hx.otherwise hp rfl
    | ok a => exact (hg a rfl).otherwise (fun h ↦ hq ⟨⟨a, rfl⟩, h⟩) he

/-- The second step adds nothing to the condition. -/
theorem bind_otherwise (hx : FailsWhen x p A B) (hg : ∀ a, FailsWhen (g a) False A B) :
    FailsWhen (x >>= g) p A B :=
  (hx.bind fun a _ ↦ hg a).congr (by simp)

theorem mapM_otherwise {f : α → Except Failure β} (hf : ∀ a, FailsWhen (f a) False A B)
    (xs : List α) : FailsWhen (xs.mapM f) False A B := by
  induction xs with
  | nil => exact ok []
  | cons a xs ih =>
    rw [List.mapM_cons]
    exact (hf a).bind_otherwise fun b ↦ ih.bind_otherwise fun bs ↦ ok (b :: bs)

end FailsWhen

theorem bind_eq_error_iff {ε : Type} {x : Except ε α} {g : α → Except ε β} {e : ε} :
    x >>= g = .error e ↔ x = .error e ∨ ∃ a, x = .ok a ∧ g a = .error e := by
  cases x <;> simp [Bind.bind, Except.bind]

namespace Reading

/-- Whether reading gives a record or tells at least one issue. -/
def IsTold : Reading α → Prop
  | .accepted _ => True
  | .rejected is => is ≠ []
  | .failed _ => False

theorem isTold_refuse (c : Cause) : (refuse c : Reading α).IsTold :=
  List.cons_ne_nil (⟨[], c⟩ : Issue) []

theorem IsTold.map {r : Reading α} (h : r.IsTold) (f : α → β) : (r.map f).IsTold := by
  cases r <;> exact h

theorem IsTold.under {r : Reading α} (h : r.IsTold) (s : Step) : (r.under s).IsTold := by
  cases r with
  | rejected is =>
    intro hnil
    exact h (List.map_eq_nil_iff.1 hnil)
  | _ => exact h

theorem IsTold.seq {f : Reading (α → β)} {r : Reading α} (hf : f.IsTold) (hr : r.IsTold) :
    (f.seq r).IsTold := by
  cases f with
  | accepted g => exact hr.map g
  | rejected is =>
    cases r with
    | rejected js =>
      intro hnil
      exact hf (List.append_eq_nil_iff.1 hnil).1
    | accepted b => exact hf
    | failed e => exact hr
  | failed e => exact hf.elim

theorem IsTold.bind {r : Reading α} {f : α → Reading β} (h : r.IsTold)
    (hf : ∀ a, (f a).IsTold) : (r.bind f).IsTold := by
  cases r with
  | accepted a => exact hf a
  | _ => exact h

end Reading

namespace Field

open Reading

variable {read : Value → Reading α} {fields : List (String × Value)} {name : String} {default : α}

theorem isTold_textOfBytes (c : Cause) (bs : List UInt8) : (textOfBytes c bs).IsTold := by
  unfold textOfBytes
  split
  · trivial
  · exact isTold_refuse c

theorem isTold_text (v : Value) : (text v).IsTold := by
  cases v with
  | text s => trivial
  | bytes bs => exact isTold_textOfBytes _ bs
  | _ => exact isTold_refuse _

theorem isTold_wholeText (s : String) : (wholeText s).IsTold := by
  unfold wholeText
  split
  · trivial
  · exact isTold_refuse _
  · split
    · trivial
    · exact isTold_refuse _

theorem isTold_wholeReal (x : Double) : (wholeReal x).IsTold := by
  unfold wholeReal
  split
  · exact isTold_refuse _
  · split
    · exact isTold_refuse _
    · split
      · trivial
      · exact isTold_refuse _

theorem isTold_whole (v : Value) : (whole v).IsTold := by
  cases v with
  | int n => trivial
  | bool b => trivial
  | float x => exact isTold_wholeReal x
  | text s => exact isTold_wholeText s
  | bytes bs => exact (isTold_textOfBytes _ bs).bind isTold_wholeText
  | _ => exact isTold_refuse _

theorem isTold_realText (s : String) : (realText s).IsTold := by
  unfold realText
  split
  · trivial
  · exact isTold_refuse _

theorem isTold_real (v : Value) : (real v).IsTold := by
  cases v with
  | int | bool =>
    unfold real
    dsimp only
    split
    · trivial
    · exact isTold_refuse _
  | float x => trivial
  | text s => exact isTold_realText s
  | bytes bs => exact (isTold_textOfBytes _ bs).bind isTold_realText
  | _ => exact isTold_refuse _

theorem isTold_choice (all : List α) (name : α → String) (v : Value) :
    (choice all name v).IsTold := by
  unfold choice
  split
  · split
    · trivial
    · exact isTold_refuse _
  · exact isTold_refuse _

theorem isTold_record (name : String) (v : Value) : (record name v).IsTold := by
  cases v with
  | object fields => trivial
  | _ => exact isTold_refuse _

theorem isTold_nullable (h : ∀ v, (read v).IsTold) (v : Value) : (nullable read v).IsTold := by
  cases v with
  | null => trivial
  | _ => exact (h _).map some

theorem isTold_itemsFrom (h : ∀ v, (read v).IsTold) (n : Nat) (items : List Value) :
    (itemsFrom read n items).IsTold := by
  induction items generalizing n with
  | nil => trivial
  | cons v items ih => exact (((h v).under _).map _).seq (ih _)

theorem isTold_list (h : ∀ v, (read v).IsTold) (v : Value) : (list read v).IsTold := by
  cases v with
  | list items => exact isTold_itemsFrom h 0 items
  | _ => exact isTold_refuse _

theorem isTold_optionalIn (h : ∀ v, (read v).IsTold) :
    (optionalIn fields name default read).IsTold := by
  unfold optionalIn
  dsimp only
  split
  · exact (h _).under _
  · trivial

end Field

end Footfall
