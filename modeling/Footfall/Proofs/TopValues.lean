import Footfall.Proofs.Reordering

/-!
The most frequent values among the rows that statistics are made of. Each of them comes once, with
the number of rows that have it, and what is left out comes after all that is listed.
-/

namespace Footfall

variable {a b : Option String} {p p' : ValueCount}

/-- Values come in the order of their code points, and an absent one comes last. -/
def ValueBefore : Option String → Option String → Prop
  | some a, some b => a < b
  | some _, none => True
  | none, _ => False

/-- More frequent values come first, and equally frequent ones in their own order. -/
def ValueCount.Precedes (p p' : ValueCount) : Prop :=
  p'.count < p.count ∨ p.count = p'.count ∧ ValueBefore p.value p'.value

/-- What a list of a size is to show of the values of some rows. -/
structure IsTop (values : List (Option String)) (size : Nat) (top : List ValueCount) : Prop where
  nodup : (top.map (·.value)).Nodup
  mem : ∀ p ∈ top, p.value ∈ values
  count_eq : ∀ p ∈ top, p.count = values.count p.value
  sorted : top.Pairwise ValueCount.Precedes
  length_eq : top.length = min size values.toFinset.card
  omitted : ∀ v ∈ values, v ∉ top.map (·.value) → ∀ p ∈ top, p.Precedes ⟨v, values.count v⟩

/-- A list is as long as the counts of its values add up to. -/
theorem sum_count_toFinset {α : Type} [DecidableEq α] [hb : BEq α] [LawfulBEq α] (values : List α) :
    ∑ v ∈ values.toFinset, values.count v = values.length := by
  rw [lawful_beq_subsingleton hb instBEqOfDecidableEq]
  exact List.sum_toFinset_count_eq_length values

namespace IsTop

variable {values : List (Option String)} {size : Nat} {top : List ValueCount}

theorem sum_eq_sum (h : IsTop values size top) :
    (top.map (·.count)).sum = ∑ v ∈ (top.map (·.value)).toFinset, values.count v := by
  rw [List.sum_toFinset _ h.nodup, List.map_map]
  exact congrArg List.sum (List.map_congr_left h.count_eq)

theorem toFinset_subset (h : IsTop values size top) :
    (top.map (·.value)).toFinset ⊆ values.toFinset := by
  intro v hv
  obtain ⟨p, hp, rfl⟩ := List.mem_map.1 (List.mem_toFinset.1 hv)
  exact List.mem_toFinset.2 (h.mem p hp)

theorem sum_le (h : IsTop values size top) : (top.map (·.count)).sum ≤ values.length := by
  rw [h.sum_eq_sum, ← sum_count_toFinset values]
  exact Finset.sum_le_sum_of_subset h.toFinset_subset

/-- With few enough values all of them are listed. -/
theorem sum_eq (h : IsTop values size top) (hfew : values.toFinset.card ≤ size) :
    (top.map (·.count)).sum = values.length := by
  have hall : (top.map (·.value)).toFinset = values.toFinset := by
    apply Finset.eq_of_subset_of_card_le h.toFinset_subset
    rw [List.toFinset_card_of_nodup h.nodup, List.length_map, h.length_eq, Nat.min_eq_right hfew]
  rw [h.sum_eq_sum, hall, sum_count_toFinset]

end IsTop

namespace Table

theorem compareValues_eq_lt_iff : compareValues a b = .lt ↔ ValueBefore a b := by
  cases a with
  | none => cases b <;> simp [compareValues, ValueBefore]
  | some a =>
    cases b with
    | none => simp [compareValues, ValueBefore]
    | some b => exact compare_lt_iff_lt

theorem compareCounts_eq_lt_iff : compareCounts p p' = .lt ↔ p.Precedes p' := by
  rw [compareCounts, Ordering.then_eq_lt, Nat.compare_eq_lt, Nat.compare_eq_eq,
    compareValues_eq_lt_iff, eq_comm (a := p'.count)]
  rfl

/-- Counts of different values are never equal in their order. -/
theorem precedes_of_isLE (h : (compareCounts p p').isLE = true) (hne : p.value ≠ p'.value) :
    p.Precedes p' := by
  rcases Ordering.isLE_iff_eq_lt_or_eq_eq.1 h with hlt | heq
  · exact compareCounts_eq_lt_iff.1 hlt
  · exact absurd (eq_of_compareValues (Ordering.then_eq_eq.1 heq).2) hne

/-- The first of all values with their counts, once they are in order. -/
theorem isTop_take {values : List (Option String)} {all : List ValueCount}
    (hvalues : (all.map (·.value)).Perm (distinct values))
    (hcount : ∀ p ∈ all, p.count = values.count p.value)
    (hsorted : all.Pairwise ValueCount.Precedes) (size : Nat) :
    IsTop values size (all.take size) := by
  have hmem : ∀ v, v ∈ all.map (·.value) ↔ v ∈ values := fun v ↦
    hvalues.mem_iff.trans mem_distinct
  have hfirst : (all.take size).Sublist all := List.take_sublist size all
  constructor
  case nodup => exact (hfirst.map _).nodup (hvalues.nodup_iff.2 (nodup_distinct values))
  case mem => exact fun p hp ↦ (hmem p.value).1 (List.mem_map_of_mem (hfirst.subset hp))
  case count_eq => exact fun p hp ↦ hcount p (hfirst.subset hp)
  case sorted => exact hsorted.sublist hfirst
  case length_eq =>
    rw [List.length_take, List.card_toFinset, ← distinct_eq_dedup, ← hvalues.length_eq,
      List.length_map]
  case omitted =>
    intro v hv hout p hp
    obtain ⟨p', hp', rfl⟩ := List.mem_map.1 ((hmem v).2 hv)
    have hbefore := rel_of_notMem_take hsorted hp hp' fun h ↦ hout (List.mem_map_of_mem h)
    rwa [← hcount p' hp']

theorem isTop_topValues (t : Table) (field : StoredEvent → Option String) (cs : Conditions) :
    IsTop ((t.meeting cs).map field) topSize (t.topValues field cs) := by
  unfold topValues
  generalize (t.meeting cs).map field = values
  simp only
  have hperm := List.mergeSort_perm
    ((distinct values).map fun v ↦ ValueCount.mk v (values.count v))
    fun p p' ↦ (compareCounts p p').isLE
  have hordered := pairwise_mergeSort_isLE compareCounts
    ((distinct values).map fun v ↦ ValueCount.mk v (values.count v))
  generalize ((distinct values).map fun v ↦ ValueCount.mk v (values.count v)).mergeSort
    (fun p p' ↦ (compareCounts p p').isLE) = all at *
  have hvalues : (all.map (·.value)).Perm (distinct values) := by
    have h := hperm.map (·.value)
    rwa [List.map_map, show (ValueCount.value ∘ fun v ↦ ValueCount.mk v (values.count v)) = id from
      rfl, List.map_id] at h
  apply isTop_take hvalues
  · intro p hp
    obtain ⟨v, -, rfl⟩ := List.mem_map.1 (hperm.mem_iff.1 hp)
    rfl
  · have hnodup : (all.map (·.value)).Nodup := hvalues.nodup_iff.2 (nodup_distinct values)
    exact hordered.imp₂ (fun p p' ↦ precedes_of_isLE) (List.pairwise_map.1 hnodup)

end Table

/-- The lists of statistics, each with the field whose values it counts. -/
def SiteStats.tops (s : SiteStats) : List ((StoredEvent → Option String) × List ValueCount) :=
  [(fun e ↦ some e.event, s.events), ((·.context.country), s.countries),
    ((·.context.deviceType), s.devices), ((·.context.referer), s.referers)]

/-- Statistics list the ten most frequent values of each of their fields among the rows that meet the
base conditions and lie in the range, and tell the number of these rows. -/
theorem Table.stats_tops (t : Table) (base : Conditions) (r : Option DateRange) :
    (t.stats r base).total = ((t.meeting base).within r).length ∧
      ∀ p ∈ (t.stats r base).tops,
        IsTop (((t.meeting base).within r).map p.1) 10 p.2 ∧
          (p.2.map (·.count)).sum ≤ (t.stats r base).total ∧
          ((((t.meeting base).within r).map p.1).toFinset.card ≤ 10 →
            (p.2.map (·.count)).sum = (t.stats r base).total) := by
  have hrows : t.meeting (base ++ rangeConditions r) = (t.meeting base).within r := by
    rw [meeting_append, meeting_rangeConditions]
  have htotal : (t.stats r base).total = ((t.meeting base).within r).length := by
    rw [← hrows]
    rfl
  have htop : ∀ p ∈ (t.stats r base).tops, IsTop (((t.meeting base).within r).map p.1) 10 p.2 := by
    rw [← hrows]
    simp only [SiteStats.tops, List.forall_mem_cons, List.not_mem_nil, false_implies, implies_true,
      and_true]
    exact ⟨isTop_topValues .., isTop_topValues .., isTop_topValues .., isTop_topValues ..⟩
  refine ⟨htotal, fun p hp ↦ ⟨htop p hp, ?_, fun hfew ↦ ?_⟩⟩
  · rw [htotal]
    simpa using (htop p hp).sum_le
  · rw [htotal]
    simpa using (htop p hp).sum_eq hfew

end Footfall
