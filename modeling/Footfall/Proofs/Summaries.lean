import Footfall.Proofs.Reordering

/-!
Summaries page by page. The pages together have each name of the selected events once, with what its
events are, in an order in which no two names are equal, and all of them tell the same totals.
-/

namespace Footfall

/-- A text is found in the name of an event, letters of ASCII in either case. A text with a null
character is found only where the name ends. -/
def StoredEvent.HasInName (e : StoredEvent) (s : String) : Prop :=
  Table.folded s <:+: Table.folded e.event ∧
    ('\x00' ∈ s.toList → Table.folded s <:+ Table.folded e.event)

/-- What comes first in a direction. -/
def Direction.Before {α : Type} [LT α] (d : Direction) (a b : α) : Prop :=
  match d with
  | .ascending => a < b
  | .descending => b < a

namespace SummaryOptions

/-- Which events a summary is made of. -/
structure Selects (o : SummaryOptions) (e : StoredEvent) : Prop where
  start : ∀ r ∈ o.range, ∀ a ∈ r.start, a ≤ e.createdAt
  last : ∀ r ∈ o.range, ∀ b ∈ r.last, e.createdAt ≤ b
  found : ∀ s ∈ o.search, e.HasInName s

/-- Rows come by the sort key in the direction asked for, then the last seen first, or the most
frequent when a time is the key, then by name. -/
def Precedes (o : SummaryOptions) (a b : SummaryRow) : Prop :=
  match o.sort with
  | .count => o.direction.Before a.count b.count ∨ a.count = b.count ∧
      (b.lastSeen < a.lastSeen ∨ a.lastSeen = b.lastSeen ∧ a.event < b.event)
  | .firstSeen => o.direction.Before a.firstSeen b.firstSeen ∨ a.firstSeen = b.firstSeen ∧
      (b.count < a.count ∨ a.count = b.count ∧ a.event < b.event)
  | .lastSeen => o.direction.Before a.lastSeen b.lastSeen ∨ a.lastSeen = b.lastSeen ∧
      (b.count < a.count ∨ a.count = b.count ∧ a.event < b.event)

end SummaryOptions

/-- A row tells how many events there are, and when the first and the last of them were. -/
structure SummaryRow.Describes (row : SummaryRow) (es : List StoredEvent) : Prop where
  count : row.count = es.length
  first : IsLeast {i | ∃ e ∈ es, e.createdAt = i} row.firstSeen
  last : IsGreatest {i | ∃ e ∈ es, e.createdAt = i} row.lastSeen

namespace Instant

instance : Std.IsLinearOrder Instant where
  le_refl a := Nat.le_refl a.micros
  le_trans _ _ _ := Nat.le_trans
  le_antisymm _ _ hab hba := eq_of_micros (Nat.le_antisymm hab hba)
  le_total a b := Nat.le_total a.micros b.micros

instance : Std.LawfulOrderMin Instant where
  le_min_iff a b c := by
    change a.micros ≤ (min b c).micros ↔ a.micros ≤ b.micros ∧ a.micros ≤ c.micros
    rw [micros_min]
    omega
  min_eq_or a b := by
    change (if a ≤ b then a else b) = a ∨ (if a ≤ b then a else b) = b
    split
    · exact .inl rfl
    · exact .inr rfl

instance : Std.LawfulOrderMax Instant where
  max_le_iff a b c := by
    change (max a b).micros ≤ c.micros ↔ a.micros ≤ c.micros ∧ b.micros ≤ c.micros
    rw [micros_max]
    omega
  max_eq_or a b := by
    change (if a ≤ b then b else a) = a ∨ (if a ≤ b then b else a) = b
    split
    · exact .inr rfl
    · exact .inl rfl

theorem compare_eq_lt {a b : Instant} : compare a b = .lt ↔ a < b := Nat.compare_eq_lt

theorem compare_eq_eq {a b : Instant} : compare a b = .eq ↔ a = b :=
  Nat.compare_eq_eq.trans ⟨eq_of_micros, congrArg micros⟩

end Instant

namespace Table

variable {t : Table} {o : SummaryOptions} {e : StoredEvent} {a b : SummaryRow}

theorem isWithin_iff (needle hay : List Char) : isWithin needle hay = true ↔ needle <:+: hay := by
  induction hay with
  | nil => simp [isWithin]
  | cons c rest ih => rw [isWithin, Bool.or_eq_true, List.isPrefixOf_iff_prefix, ih, List.infix_cons_iff]

theorem isFound_iff (s : String) (e : StoredEvent) : isFound s e = true ↔ e.HasInName s := by
  unfold isFound StoredEvent.HasInName
  split
  · rename_i hnul
    have hmem : '\x00' ∈ s.toList := List.contains_iff_mem.1 hnul
    rw [List.isSuffixOf_iff_suffix]
    exact ⟨fun h ↦ ⟨h.isInfix, fun _ ↦ h⟩, fun h ↦ h.2 hmem⟩
  · rename_i hnul
    rw [isWithin_iff]
    exact ⟨fun h ↦ ⟨h, fun hmem ↦ absurd (List.contains_iff_mem.2 hmem) hnul⟩, And.left⟩

theorem hasInName_empty (e : StoredEvent) : e.HasInName "" :=
  ⟨List.nil_infix, fun _ ↦ List.nil_suffix⟩

theorem all_summaryConditions_iff (o : SummaryOptions) (e : StoredEvent) :
    (summaryConditions o).all (· e) = true ↔ o.Selects e := by
  have hrange : (rangeConditions o.range).all (· e) = true ↔
      (∀ r ∈ o.range, ∀ a ∈ r.start, a ≤ e.createdAt) ∧
        ∀ r ∈ o.range, ∀ b ∈ r.last, e.createdAt ≤ b := by
    obtain _ | r := o.range
    · simp [rangeConditions]
    · cases hstart : r.start <;> cases hlast : r.last <;>
        simp [rangeConditions, DateRange.conditions, hstart, hlast]
  rw [summaryConditions, List.all_append, Bool.and_eq_true]
  refine (and_congr hrange ?_).trans
    ⟨fun h ↦ ⟨h.1.1, h.1.2, h.2⟩, fun h ↦ ⟨⟨h.start, h.last⟩, h.found⟩⟩
  obtain _ | s := o.search
  · simp
  · by_cases hs : s = ""
    · simp [hs, hasInName_empty]
    · simp [hs, isFound_iff]

end Table

instance SummaryOptions.decidableSelects (o : SummaryOptions) : DecidablePred o.Selects := fun e ↦
  decidable_of_iff _ (Table.all_summaryConditions_iff o e)

namespace Table

variable {t : Table} {o : SummaryOptions} {e : StoredEvent} {a b : SummaryRow}

theorem meeting_summaryConditions (t : Table) (o : SummaryOptions) :
    t.meeting (summaryConditions o) = t.filter (o.Selects ·) := by
  apply List.filter_congr
  intro e _
  rw [Bool.eq_iff_iff, all_summaryConditions_iff, decide_eq_true_eq]

theorem perm_names_ranked (t : Table) (o : SummaryOptions) :
    ((t.ranked o).map (·.event)).Perm (distinct ((t.filter (o.Selects ·)).map (·.event))) := by
  have h := (List.mergeSort_perm (t.summaryRows (summaryConditions o))
    fun a b ↦ (compareRows o a b).isLE).map (·.event)
  have hnames : (t.summaryRows (summaryConditions o)).map (·.event) =
      distinct ((t.filter (o.Selects ·)).map (·.event)) := by
    rw [summaryRows, List.map_map, ← meeting_summaryConditions]
    exact List.map_id _
  rwa [hnames] at h

end Table

namespace Views

variable {v : Views} {t : Table} {o : SummaryOptions} {ps : List Summary}

/-- A summary is read page by page, until there are no more. -/
inductive SummaryPages (v : Views) : SummaryOptions → List Summary → Prop
  | last {o : SummaryOptions} {p : Summary} :
      (v.summary o).answer? = some p → p.pagination.hasMore = false → SummaryPages v o [p]
  | next {o : SummaryOptions} {p : Summary} {ps : List Summary} :
      (v.summary o).answer? = some p → p.pagination.hasMore = true →
      SummaryPages v { o with offset := o.offset + o.limit } ps → SummaryPages v o (p :: ps)

namespace SummaryPages

theorem eq (h : v.SummaryPages o ps) {ps' : List Summary} (h' : v.SummaryPages o ps') : ps = ps' := by
  induction h generalizing ps' with
  | last hp hmore =>
    cases h' with
    | last hp' _ => rw [Option.some.inj (hp.symm.trans hp')]
    | next hp' hmore' _ =>
      cases hp.symm.trans hp'
      cases hmore.symm.trans hmore'
  | next hp hmore _ ih =>
    cases h' with
    | last hp' hmore' =>
      cases hp.symm.trans hp'
      cases hmore.symm.trans hmore'
    | next hp' _ hrest => rw [Option.some.inj (hp.symm.trans hp'), ih hrest]

/-- The rows of all pages are what reading on from the first of them gives. -/
theorem walk (h : v.SummaryPages o ps) : v.Walk o (ps.flatMap (·.rows)) := by
  induction h with
  | last hp hmore => simpa using Walk.last hp hmore
  | next hp hmore _ ih => exact .next hp hmore ih

end SummaryPages

theorem Walk.exists_pages {rows : List SummaryRow} (h : v.Walk o rows) :
    ∃ ps, v.SummaryPages o ps := by
  induction h with
  | last hp hmore => exact ⟨_, .last hp hmore⟩
  | next hp hmore _ ih =>
    obtain ⟨ps, hps⟩ := ih
    exact ⟨_, .next hp hmore hps⟩

end Views

end Footfall
