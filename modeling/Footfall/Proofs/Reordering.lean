import Footfall.Proofs.Counting
import Footfall.Proofs.Likeness

/-!
Tables with the same rows in another order. What is counted of them is the same: the order in which
an answer names its counts is one of the counts themselves, in which no two of them are equal.
-/

namespace Footfall

theorem pairwise_mergeSort_isLE {α : Type} (cmp : α → α → Ordering) [Std.TransCmp cmp]
    (xs : List α) : (xs.mergeSort fun a b ↦ (cmp a b).isLE).Pairwise fun a b ↦ (cmp a b).isLE = true := by
  refine List.pairwise_mergeSort (fun a b c ↦ Std.TransCmp.isLE_trans) (fun a b ↦ ?_) xs
  rw [show cmp b a = (cmp a b).swap from Std.OrientedCmp.eq_swap]
  cases cmp a b <;> rfl

/-- A list that is sorted by a comparison which tells its items apart does not show in which order
they came. -/
theorem mergeSort_eq_of_perm {α : Type} {cmp : α → α → Ordering} [Std.TransCmp cmp] {xs ys : List α}
    (h : xs.Perm ys) (heq : ∀ a ∈ xs, ∀ b ∈ xs, cmp a b = .eq → a = b) :
    xs.mergeSort (fun a b ↦ (cmp a b).isLE) = ys.mergeSort (fun a b ↦ (cmp a b).isLE) := by
  have hperm : (xs.mergeSort fun a b ↦ (cmp a b).isLE).Perm
      (ys.mergeSort fun a b ↦ (cmp a b).isLE) :=
    (List.mergeSort_perm _ _).trans (h.trans (List.mergeSort_perm _ _).symm)
  refine List.Perm.eq_of_pairwise (fun a b ha hb hab hba ↦ ?_)
    (pairwise_mergeSort_isLE cmp xs) (pairwise_mergeSort_isLE cmp ys) hperm
  refine heq a (List.mem_mergeSort.1 ha) b (h.mem_iff.2 (List.mem_mergeSort.1 hb)) ?_
  exact Std.OrientedCmp.isLE_antisymm hab hba

/-- What is left out of a sorted list comes after all that is kept of it. -/
theorem rel_of_notMem_take {α : Type} {R : α → α → Prop} {xs : List α} (h : xs.Pairwise R)
    {n : Nat} {a b : α} (ha : a ∈ xs.take n) (hb : b ∈ xs) (hout : b ∉ xs.take n) : R a b := by
  rw [← List.take_append_drop n xs] at h hb
  rcases List.mem_append.1 hb with hb | hb
  · exact absurd hb hout
  · exact (List.pairwise_append.1 h).2.2 a ha b hb

theorem perm_distinct {α : Type} [DecidableEq α] {xs ys : List α} (h : xs.Perm ys) :
    (distinct xs).Perm (distinct ys) := by
  refine (List.perm_ext_iff_of_nodup (nodup_distinct xs) (nodup_distinct ys)).2 fun a ↦ ?_
  rw [mem_distinct, mem_distinct, h.mem_iff]

/-- The outcome of an operation that is associative and commutative does not show the order either. -/
theorem foldl_eq_of_perm {α : Type} {op : α → α → α} (hcomm : ∀ a b, op a b = op b a)
    (hassoc : ∀ a b c, op (op a b) c = op a (op b c)) {pick : List α → Option α}
    (hpick : ∀ a as, pick (a :: as) = some (as.foldl op a)) {xs ys : List α} (h : xs.Perm ys) :
    pick xs = pick ys := by
  induction h with
  | nil => rfl
  | cons a h _ =>
    rw [hpick, hpick, h.foldl_eq' fun x _ y _ z ↦ by rw [hassoc, hcomm x, ← hassoc]]
  | swap a b as => rw [hpick, hpick, List.foldl_cons, List.foldl_cons, hcomm]
  | trans _ _ ih ih' => exact ih.trans ih'

namespace Instant

variable {a b c : Instant} {xs ys : List Instant}

instance : Std.TransOrd Instant := inferInstanceAs (Std.TransCmp (compareOn Instant.micros))

theorem eq_of_micros (h : a.micros = b.micros) : a = b := congrArg Instant.mk h

theorem micros_min (a b : Instant) : (min a b).micros = min a.micros b.micros := by
  change (if a.micros ≤ b.micros then a else b).micros = _
  split <;> omega

theorem micros_max (a b : Instant) : (max a b).micros = max a.micros b.micros := by
  change (if a.micros ≤ b.micros then b else a).micros = _
  split <;> omega

theorem min?_eq_of_perm (h : xs.Perm ys) : xs.min? = ys.min? := by
  refine foldl_eq_of_perm (fun a b ↦ eq_of_micros ?_) (fun a b c ↦ eq_of_micros ?_)
    (fun _ _ ↦ List.min?_cons') h
  · rw [micros_min, micros_min, Nat.min_comm]
  · simp only [micros_min, Nat.min_assoc]

theorem max?_eq_of_perm (h : xs.Perm ys) : xs.max? = ys.max? := by
  refine foldl_eq_of_perm (fun a b ↦ eq_of_micros ?_) (fun a b c ↦ eq_of_micros ?_)
    (fun _ _ ↦ List.max?_cons') h
  · rw [micros_max, micros_max, Nat.max_comm]
  · simp only [micros_max, Nat.max_assoc]

end Instant

namespace Table

variable {t u : Table} {a b : Option String} {cs : Conditions}

instance : Std.TransCmp compareValues where
  eq_swap {a b} := by
    cases a <;> cases b
    case some.some => exact Std.OrientedOrd.eq_swap
    all_goals rfl
  isLE_trans {a b c} hab hbc := by
    cases a <;> cases b <;> cases c
    case some.some.some => exact Std.TransOrd.isLE_trans hab hbc
    all_goals simp_all [compareValues]

theorem eq_of_compareValues (h : compareValues a b = .eq) : a = b := by
  cases a <;> cases b
  case some.some => exact congrArg some (Std.LawfulEqOrd.eq_of_compare h)
  all_goals first | rfl | cases h

theorem transCmp_on {α β : Type} (cmp : β → β → Ordering) [Std.TransCmp cmp] (f : α → β) :
    Std.TransCmp fun a b ↦ cmp (f a) (f b) where
  eq_swap := Std.OrientedCmp.eq_swap
  isLE_trans := Std.TransCmp.isLE_trans

instance : Std.TransCmp compareCounts := by
  have hcount : Std.TransCmp fun a b : ValueCount ↦ compare b.count a.count :=
    inferInstanceAs (Std.TransCmp fun a b ↦ compareOn ValueCount.count b a)
  have hvalue := transCmp_on compareValues ValueCount.value
  exact inferInstanceAs (Std.TransCmp (compareLex _ _))

instance : Std.TransCmp comparePoints := by
  have hlabel := transCmp_on compare SeriesPoint.label
  have hevent := transCmp_on compareValues SeriesPoint.event
  exact inferInstanceAs (Std.TransCmp (compareLex _ _))

instance (s : SummarySort) : Std.TransCmp (compareKeys s) := by
  cases s
  case count => exact transCmp_on compare SummaryRow.count
  case firstSeen => exact transCmp_on compare SummaryRow.firstSeen
  case lastSeen => exact transCmp_on compare SummaryRow.lastSeen

instance (s : SummarySort) : Std.TransCmp (compareTies s) := by
  have hcount : Std.TransCmp fun a b : SummaryRow ↦ compare b.count a.count :=
    inferInstanceAs (Std.TransCmp fun a b ↦ compareOn SummaryRow.count b a)
  cases s
  case count => exact inferInstanceAs (Std.TransCmp fun a b ↦ compareOn SummaryRow.lastSeen b a)
  all_goals exact hcount

instance (o : SummaryOptions) : Std.TransCmp (compareRows o) := by
  have hkey : Std.TransCmp fun a b ↦ (match o.direction with
      | .ascending => compareKeys o.sort a b
      | .descending => compareKeys o.sort b a) := by
    cases o.direction
    case ascending => exact inferInstanceAs (Std.TransCmp (compareKeys o.sort))
    case descending => exact inferInstanceAs (Std.TransCmp fun a b ↦ compareKeys o.sort b a)
  have hevent := transCmp_on compare SummaryRow.event
  exact inferInstanceAs (Std.TransCmp (compareLex (compareLex _ (compareTies o.sort)) _))

theorem perm_meeting (h : t.Perm u) (cs : Conditions) : (t.meeting cs).Perm (u.meeting cs) :=
  h.filter _

theorem topValues_eq_of_perm (h : t.Perm u) (field : StoredEvent → Option String)
    (cs : Conditions) : t.topValues field cs = u.topValues field cs := by
  have hvalues : ((t.meeting cs).map field).Perm ((u.meeting cs).map field) :=
    (perm_meeting h cs).map field
  have hcounts : (fun v ↦ ValueCount.mk v (((t.meeting cs).map field).count v)) =
      fun v ↦ ValueCount.mk v (((u.meeting cs).map field).count v) := by
    funext v
    rw [hvalues.count_eq]
  simp only [topValues, hcounts]
  congr 1
  refine mergeSort_eq_of_perm ((perm_distinct hvalues).map _) fun a ha b hb hab ↦ ?_
  obtain ⟨v, -, rfl⟩ := List.mem_map.1 ha
  obtain ⟨w, -, rfl⟩ := List.mem_map.1 hb
  have hvalue : v = w := eq_of_compareValues (Ordering.then_eq_eq.1 hab).2
  rw [hvalue]

theorem stats_eq_of_perm (h : t.Perm u) (r : Option DateRange) : t.stats r = u.stats r := by
  simp only [stats, count, topValues_eq_of_perm h, (perm_meeting h _).length_eq]

theorem summaryRow_eq_of_perm (h : t.Perm u) (name : String) :
    summaryRow name t = summaryRow name u := by
  have htimes : (t.map (·.createdAt)).Perm (u.map (·.createdAt)) := h.map _
  simp only [summaryRow, Instant.min?_eq_of_perm htimes, Instant.max?_eq_of_perm htimes,
    h.length_eq]

theorem perm_summaryRows (h : t.Perm u) (cs : Conditions) :
    (t.summaryRows cs).Perm (u.summaryRows cs) := by
  have hmeeting := perm_meeting h cs
  have hrow (n : String) : summaryRow n ((t.meeting cs).filter fun e ↦ e.event == n) =
      summaryRow n ((u.meeting cs).filter fun e ↦ e.event == n) :=
    summaryRow_eq_of_perm (hmeeting.filter _) n
  simp only [summaryRows, hrow]
  exact (perm_distinct (hmeeting.map _)).map _

/-- A summary has one row for each name. -/
theorem eq_of_mem_summaryRows {cs : Conditions} {a b : SummaryRow} (ha : a ∈ t.summaryRows cs)
    (hb : b ∈ t.summaryRows cs) (h : a.event = b.event) : a = b := by
  obtain ⟨n, -, rfl⟩ := List.mem_map.1 ha
  obtain ⟨m, -, rfl⟩ := List.mem_map.1 hb
  obtain rfl : n = m := h
  rfl

theorem summary_eq_of_perm (h : t.Perm u) (o : SummaryOptions) : t.summary o = u.summary o := by
  have hnames (cs : Conditions) : (t.names cs).length = (u.names cs).length :=
    (perm_distinct ((perm_meeting h cs).map _)).length_eq
  have hrows (cs : Conditions) : ((t.summaryRows cs).mergeSort fun a b ↦ (compareRows o a b).isLE) =
      (u.summaryRows cs).mergeSort fun a b ↦ (compareRows o a b).isLE := by
    refine mergeSort_eq_of_perm (perm_summaryRows h cs) fun a ha b hb hab ↦ ?_
    refine eq_of_mem_summaryRows ha hb (Std.LawfulEqOrd.eq_of_compare ?_)
    exact (Ordering.then_eq_eq.1 hab).2
  simp only [summary, hnames, hrows, count, (perm_meeting h _).length_eq]

/-- The points of different buckets are told apart by their labels and names. -/
theorem sort_points_eq_of_perm {keys keys' : List (Option String × Option String)}
    (h : keys.Perm keys') (hlabel : ∀ k ∈ keys, k.1.isSome = true)
    (n : Option String × Option String → Nat) :
    (keys.map fun k ↦ SeriesPoint.mk (k.1.getD "") k.2 (n k)).mergeSort
        (fun a b ↦ (comparePoints a b).isLE) =
      (keys'.map fun k ↦ SeriesPoint.mk (k.1.getD "") k.2 (n k)).mergeSort
        fun a b ↦ (comparePoints a b).isLE := by
  refine mergeSort_eq_of_perm (h.map _) fun a ha b hb hab ↦ ?_
  obtain ⟨⟨label, name⟩, hk, rfl⟩ := List.mem_map.1 ha
  obtain ⟨⟨label', name'⟩, hk', rfl⟩ := List.mem_map.1 hb
  obtain ⟨l, rfl⟩ := Option.isSome_iff_exists.1 (hlabel _ hk)
  obtain ⟨l', rfl⟩ := Option.isSome_iff_exists.1 (hlabel _ hk')
  obtain ⟨hl, hn⟩ := Ordering.then_eq_eq.1 hab
  obtain rfl : l = l' := Std.LawfulEqOrd.eq_of_compare hl
  obtain rfl : name = name' := eq_of_compareValues hn
  rfl

theorem series_eq_of_perm (h : t.Perm u) (r : Option DateRange) (g : Granularity)
    (byEvent : Value) : t.series r g byEvent = u.series r g byEvent := by
  simp only [series, List.nil_append]
  have hkeys : ((t.meeting (rangeConditions r)).map (pointKey g byEvent.isTruthy)).Perm
      ((u.meeting (rangeConditions r)).map (pointKey g byEvent.isTruthy)) :=
    (perm_meeting h _).map _
  generalize (t.meeting (rangeConditions r)).map (pointKey g byEvent.isTruthy) = keys at hkeys ⊢
  generalize (u.meeting (rangeConditions r)).map (pointKey g byEvent.isTruthy) = keys' at hkeys ⊢
  have hdistinct := perm_distinct hkeys
  simp only [hkeys.count_eq]
  by_cases hlabel : ∀ k ∈ distinct keys, k.1.isSome = true
  · rw [mapM_point hlabel, mapM_point fun k hk ↦ hlabel k (hdistinct.mem_iff.2 hk)]
    simp only [bind, Except.bind, sort_points_eq_of_perm hdistinct hlabel]
  · obtain ⟨k, hk, hnone⟩ : ∃ k ∈ distinct keys, k.1 = none := by
      simpa using hlabel
    rw [mapM_point_error ⟨k, hk, hnone⟩, mapM_point_error ⟨k, hdistinct.mem_iff.1 hk, hnone⟩]

/-- The rows of both are the same but for their numbers, in any order. -/
def IsReordering (t u : Table) : Prop :=
  (t.map StoredEvent.withoutId).Perm (u.map StoredEvent.withoutId)

namespace IsReordering

theorem stats (h : IsReordering t u) (r : Option DateRange) : t.stats r = u.stats r := by
  rw [← stats_map_withoutId, stats_eq_of_perm h, stats_map_withoutId]

theorem summary (h : IsReordering t u) (o : SummaryOptions) : t.summary o = u.summary o := by
  rw [← summary_map_withoutId, summary_eq_of_perm h, summary_map_withoutId]

theorem series (h : IsReordering t u) (r : Option DateRange) (g : Granularity) (byEvent : Value) :
    t.series r g byEvent = u.series r g byEvent := by
  rw [← series_map_withoutId, series_eq_of_perm h, series_map_withoutId]

end IsReordering

end Table

end Footfall
