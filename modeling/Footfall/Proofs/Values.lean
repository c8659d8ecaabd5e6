import Footfall.Event.Record
import Footfall.Failure
import Footfall.Proofs.Doubles
import Mathlib.Tactic.SplitIfs

/-!
The values that there are: floating-point numbers have 53 bits, and dates and times are of the
calendar. Whatever a document holds for the fields of a record is such a value.
-/

namespace Footfall

namespace Date

theorem dayOfYear_lt {d : Date} (h : d.IsReal) :
    d.dayOfYear < 365 + (isLeap d.year).toNat := by
  obtain ⟨-, -, hlow, hhigh, hday, hlength⟩ := h
  have hmonths : ∀ leap : Bool, ∀ m : Fin 12,
      ((monthLengths leap).take m).foldl (· + ·) 0 + (monthLengths leap).getD m 0 ≤
        365 + leap.toNat := by decide
  have := hmonths (isLeap d.year) ⟨d.month - 1, by omega⟩
  simp only at this
  unfold dayOfYear
  unfold monthLength at hlength
  omega

theorem number_lt {d : Date} (h : d.IsReal) : d.number < 3652059 := by
  have hday := dayOfYear_lt h
  obtain ⟨hlow, hhigh, -⟩ := h
  have hlast : isLeap 9999 = false := by decide
  have hleap : (isLeap d.year).toNat ≤ 1 := Bool.toNat_le _
  unfold number yearStart
  simp only
  by_cases hyear : d.year = 9999
  · rw [hyear, hlast] at hday
    simp only [hyear, Bool.toNat_false] at hday ⊢
    omega
  · omega

end Date

/-- The values that there are: numbers and times are in their ranges. -/
def Value.IsActual : Value → Prop
  | .float x => x.IsRepresentable
  | .date d => d.IsReal
  | .time t => t.wall.micros < Instant.limit
  | _ => True

namespace Value

variable {fields : Fields} {key : String} {v : Value}

theorem mem_of_lookup (h : lookup fields key = some v) : (key, v) ∈ fields := by
  obtain ⟨f, hf, rfl⟩ := Option.map_eq_some_iff.1 h
  obtain rfl : f.1 = key := by simpa using List.find?_some hf
  exact List.mem_of_find?_eq_some hf

theorem mem_put {f : String × Value} (h : f ∈ put fields key v) : f = (key, v) ∨ f ∈ fields := by
  induction fields with
  | nil => exact .inl (by simpa [put] using h)
  | cons g rest ih =>
    rw [put] at h
    split at h
    · rename_i hk
      exact hk ▸ (List.mem_cons.1 h).imp_right (List.mem_cons_of_mem _)
    · rcases List.mem_cons.1 h with rfl | h
      · exact .inr (by simp)
      · exact (ih h).imp_right (List.mem_cons_of_mem _)

/-- Putting the value that is there changes nothing. -/
theorem put_of_lookup (h : lookup fields key = some v) : put fields key v = fields := by
  induction fields with
  | nil => cases h
  | cons f rest ih =>
    obtain ⟨k, w⟩ := f
    by_cases hk : k = key
    · have hv : w = v := by simpa [lookup, hk] using h
      simp [put, hk, hv]
    · simpa [put, hk] using ih (by simpa [lookup, hk] using h)

theorem get_of_lookup (h : lookup fields key = some v) : get fields key = v := by
  rw [get, h]
  rfl

/-- Fields whose values there are. -/
def AreActual (fields : Fields) : Prop := ∀ f ∈ fields, f.2.IsActual

/-- A value that there is, and if it has fields, so are their values. -/
def HasActualFields : Value → Prop
  | .object fields => AreActual fields
  | v => v.IsActual

theorem HasActualFields.isActual (h : v.HasActualFields) : v.IsActual := by
  cases v with
  | object fields => trivial
  | _ => exact h

theorem AreActual.get (h : AreActual fields) (key : String) : (get fields key).IsActual := by
  unfold Value.get
  cases hv : lookup fields key with
  | none => trivial
  | some v => exact h _ (mem_of_lookup hv)

theorem AreActual.put (h : AreActual fields) (key : String) (hv : v.IsActual) :
    AreActual (put fields key v) := by
  intro f hf
  rcases mem_put hf with rfl | hf
  · exact hv
  · exact h f hf

theorem isActual_ofText (s : Option String) : (ofText s).IsActual := by cases s <;> trivial

theorem isActual_ofWhole (n : Option Int) : (ofWhole n).IsActual := by cases n <;> trivial

theorem toReal_int (n : Int) : toReal (.int n) = match Double.ofInt n with
    | .infinite _ => .error .hugeForReal
    | x => .ok x := rfl

theorem isRepresentable_toReal {x : Double} (hv : v.IsActual) (h : v.toReal = .ok x) :
    x.IsRepresentable := by
  cases v with
  | float y =>
    cases h
    exact hv
  | int n =>
    have hreal := Double.isRepresentable_ofInt n
    rw [toReal_int] at h
    cases hn : Double.ofInt n with
    | infinite s =>
      rw [hn] at h
      cases h
    | _ =>
      rw [hn] at h hreal
      cases h
      exact hreal
  | bool b =>
    cases h
    exact Double.isRepresentable_ofInt _
  | text s | bytes bs =>
    simp only [toReal] at h
    split at h
    · rename_i hread
      cases h
      obtain ⟨cs, -, hcs⟩ := Option.map_eq_some_iff.1 hread
      exact Numeral.isRepresentable_readReal? hcs
    · cases h
    · cases h
  | _ => cases h

end Value

namespace Json

open Value

variable {fuel position : Nat} {cs : List Char} {a : Ahead Value}

theorem hasActualFields_readNumber (h : readNumber position cs = .ok a) : a.1.HasActualFields := by
  unfold readNumber at h
  simp only at h
  split_ifs at h
  · cases h
    exact trivial
  · cases h
    exact Double.isRepresentable_ofDecimal ..

theorem hasActualFields_readItems {acc : List Value} (h : readItems fuel acc position cs = .ok a) :
    a.1.HasActualFields := by
  induction fuel generalizing acc position cs with
  | zero => cases h
  | succ fuel ih =>
    rw [readItems] at h
    obtain ⟨b, -, hb⟩ := bind_eq_ok_iff.1 h
    simp only at hb
    split at hb
    · cases hb
      exact trivial
    · exact ih hb
    · cases hb

theorem hasActualFields_words : ∀ w ∈ words, w.2.HasActualFields := by
  simp [words, IsActual, HasActualFields, Double.IsRepresentable]

/-- What is read has the values that there are, and by induction on the fuel so have its fields. -/
theorem hasActualFields_readValue_and (fuel : Nat) :
    (∀ position cs a, readValue fuel position cs = .ok a → a.1.HasActualFields) ∧
      ∀ acc position cs a, AreActual acc → readFields fuel acc position cs = .ok a →
        a.1.HasActualFields := by
  induction fuel with
  | zero =>
    constructor
    · intro position cs a h
      cases h
    · intro acc position cs a ha h
      cases h
  | succ fuel ih =>
    obtain ⟨ihValue, ihFields⟩ := ih
    constructor
    · intro position cs a h
      rw [readValue.eq_def] at h
      simp only at h
      split at h
      · cases h
      · cases h
      · obtain ⟨b, -, hb⟩ := bind_eq_ok_iff.1 h
        cases hb
        exact trivial
      · rename_i hfuel
        cases hfuel
        split at h
        · cases h
          exact fun f hf ↦ by cases hf
        · exact ihFields _ _ _ _ (fun f hf ↦ by cases hf) h
      · split at h
        · cases h
          exact trivial
        · exact hasActualFields_readItems h
      · split at h
        · rename_i w v hw
          cases h
          exact hasActualFields_words _ (List.mem_of_find?_eq_some hw)
        · exact hasActualFields_readNumber h
    · intro acc position cs a ha h
      rw [readFields.eq_def] at h
      simp only at h
      split at h
      · cases h
      · rename_i hfuel
        cases hfuel
        obtain ⟨b, -, hb⟩ := bind_eq_ok_iff.1 h
        split at hb
        · obtain ⟨v, hv, h⟩ := bind_eq_ok_iff.1 hb
          have hput := ha.put b.1 (ihValue _ _ _ hv).isActual
          split at h
          · cases h
            exact hput
          · exact ihFields _ _ _ _ hput h
          · cases h
        · cases hb
      · cases h

theorem hasActualFields_read {s : String} {v : Value} (h : read s = .ok v) :
    v.HasActualFields := by
  have hchars {cs : List Char} (h : readChars cs = .ok v) : v.HasActualFields := by
    unfold readChars at h
    obtain ⟨a, ha, hrest⟩ := bind_eq_ok_iff.1 h
    simp only at hrest
    split at hrest
    · cases hrest
      exact (hasActualFields_readValue_and _).1 _ _ _ ha
    · cases hrest
  unfold read at h
  split at h
  · cases h
  · exact hchars h

end Json

end Footfall
