/-!
Values under keys, in the order in which the keys were first put.
-/

namespace Footfall

abbrev Keyed (κ α : Type) := List (κ × α)

namespace Keyed

variable {κ α : Type} [DecidableEq κ]

def find : Keyed κ α → κ → Option α
  | [], _ => none
  | (l, a) :: rest, k => if l = k then some a else find rest k

/-- Puts a value under a key: in place of the old one, or at the end. -/
def put : Keyed κ α → κ → α → Keyed κ α
  | [], k, a => [(k, a)]
  | (l, b) :: rest, k, a => if l = k then (k, a) :: rest else (l, b) :: put rest k a

def values (m : Keyed κ α) : List α := m.map Prod.snd

def keys (m : Keyed κ α) : List κ := m.map Prod.fst

@[simp] theorem find_nil (k : κ) : find ([] : Keyed κ α) k = none := rfl

theorem find_put (m : Keyed κ α) (k l : κ) (a : α) :
    find (put m k a) l = if k = l then some a else find m l := by
  induction m with
  | nil => simp [put, find]
  | cons p rest ih =>
    obtain ⟨j, b⟩ := p
    by_cases h : j = k
    · subst h
      by_cases hl : j = l <;> simp [put, find, hl]
    · by_cases hj : j = l
      · subst hj
        simp [put, find, h, Ne.symm h]
      · simp [put, find, h, hj, ih]

@[simp] theorem find_put_self (m : Keyed κ α) (k : κ) (a : α) : find (put m k a) k = some a := by
  simp [find_put]

/-- Putting a value under a new key adds the key at the end. -/
theorem keys_put_of_find_eq_none (m : Keyed κ α) (k : κ) (a : α) (h : find m k = none) :
    keys (put m k a) = keys m ++ [k] := by
  induction m with
  | nil => rfl
  | cons p rest ih =>
    obtain ⟨j, b⟩ := p
    by_cases hj : j = k
    · simp [find, hj] at h
    · simp only [find, hj, if_false] at h
      simpa [put, hj, keys] using ih h

end Keyed

end Footfall
