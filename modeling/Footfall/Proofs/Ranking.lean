import Footfall.Proofs.Filtering
import Footfall.Proofs.Reordering

/-!
What a chart shows of the events that it selects. Events are counted under labels, each of them
once; the labels come in the order of their counts, the greatest first, and only so many of them are
shown as the chart is limited to.
-/

namespace Footfall.Report

instance : Std.TransCmp compareLabel where
  eq_swap {a b} := by
    cases a <;> cases b
    case some.some => exact Std.OrientedOrd.eq_swap
    all_goals rfl
  isLE_trans {a b c} hab hbc := by
    cases a <;> cases b <;> cases c
    case some.some.some => exact Std.TransOrd.isLE_trans hab hbc
    all_goals simp_all [compareLabel]

theorem compareLabels_eq (as bs : List (Option String)) :
    compareLabels as bs = List.compareLex compareLabel as bs := by
  induction as generalizing bs with
  | nil => cases bs <;> rfl
  | cons a as ih =>
    cases bs with
    | nil => rfl
    | cons b bs =>
      rw [compareLabels, ih, List.compareLex_cons_cons]

instance : Std.TransCmp compareLabels := by
  rw [show compareLabels = List.compareLex compareLabel from funext₂ compareLabels_eq]
  infer_instance

/-- Labels with what has been counted under them. -/
structure Point where
  labels : List String
  count : Nat
  deriving DecidableEq, Repr

/-- Points come in the order of their counts, the greatest first, and those with equal counts in the
order of their labels. -/
def Point.order (a b : Point) : Ordering :=
  (compare b.count a.count).then (compareLabels (a.labels.map some) (b.labels.map some))

instance : Std.TransCmp Point.order := by
  have hcount : Std.TransCmp fun a b : Point ↦ compare b.count a.count :=
    inferInstanceAs (Std.TransCmp fun a b ↦ compareOn Point.count b a)
  have hlabels := Table.transCmp_on compareLabels fun p : Point ↦ p.labels.map some
  exact inferInstanceAs (Std.TransCmp (compareLex _ _))

/-- The number that an aggregation makes of events: how many there are, or how many sessions. -/
def tally (a : Aggregation) (events : Table) : Nat :=
  match a with
  | .uniqueUsers => (events.filterMap (·.context.rid)).toFinset.card
  | .count | .sum | .average => events.length

section

variable (texts : StoredEvent → List String) (a : Aggregation)

/-- The labels of some events, each with what is counted of the events that have them. -/
def tallied (events : Table) : List Point :=
  (distinct (events.map texts)).map fun ls ↦ ⟨ls, tally a (events.filter fun e ↦ texts e = ls)⟩

/-- What a chart of a size is to show of some events. -/
structure IsRanking (events : Table) (size : Nat) (points : List Point) : Prop where
  nodup : (points.map Point.labels).Nodup
  mem : ∀ p ∈ points, p.labels ∈ events.map texts
  count_eq : ∀ p ∈ points, p.count = tally a (events.filter fun e ↦ texts e = p.labels)
  sorted : points.Pairwise fun p p' ↦ p'.count ≤ p.count
  length_eq : points.length = min (events.map texts).toFinset.card size
  /-- What is left out is not above what is shown. -/
  omitted : ∀ e ∈ events, texts e ∉ points.map Point.labels → ∀ p ∈ points,
    tally a (events.filter fun e' ↦ texts e' = texts e) ≤ p.count

end

theorem tally_eq_of_perm (a : Aggregation) {xs ys : Table} (h : xs.Perm ys) :
    tally a xs = tally a ys := by
  have hsessions := List.toFinset_eq_of_perm _ _ (h.filterMap (·.context.rid))
  cases a <;> simp only [tally, h.length_eq, hsessions]

variable {texts : StoredEvent → List String} {a : Aggregation} {events : Table}

theorem IsRanking.of_perm {others : Table} {size : Nat} {points : List Point}
    (h : IsRanking texts a events size points) (hperm : events.Perm others) :
    IsRanking texts a others size points := by
  have htally (ls : List String) : tally a (events.filter fun e ↦ texts e = ls) =
      tally a (others.filter fun e ↦ texts e = ls) := tally_eq_of_perm a (hperm.filter _)
  have hlabels := hperm.map texts
  exact ⟨h.nodup, fun p hp ↦ hlabels.mem_iff.1 (h.mem p hp),
    fun p hp ↦ (h.count_eq p hp).trans (htally _), h.sorted,
    by rw [h.length_eq, List.toFinset_eq_of_perm _ _ hlabels],
    fun e he hout p hp ↦ htally _ ▸ h.omitted e (hperm.mem_iff.2 he) hout p hp⟩

theorem map_labels_tallied (texts : StoredEvent → List String) (a : Aggregation) (events : Table) :
    (tallied texts a events).map Point.labels = distinct (events.map texts) := by
  simp [tallied, Function.comp_def]

theorem count_le_of_isLE_order {p p' : Point} (h : (p.order p').isLE = true) : p'.count ≤ p.count :=
  Nat.isLE_compare.1 (Ordering.isLE_then_iff_and.1 h).1

/-- The first of the points in their order are what is to be shown. -/
theorem isRanking_take (texts : StoredEvent → List String) (a : Aggregation) (events : Table)
    (size : Nat) : IsRanking texts a events size
      (((tallied texts a events).mergeSort fun p p' ↦ (p.order p').isLE).take size) := by
  have hperm := List.mergeSort_perm (tallied texts a events) fun p p' ↦ (p.order p').isLE
  have hsorted := pairwise_mergeSort_isLE Point.order (tallied texts a events)
  generalize (tallied texts a events).mergeSort (fun p p' ↦ (p.order p').isLE) = all at *
  have hlabels : (all.map Point.labels).Perm (distinct (events.map texts)) :=
    map_labels_tallied texts a events ▸ hperm.map _
  have hmem : ∀ p ∈ all, p.labels ∈ events.map texts ∧
      p.count = tally a (events.filter fun e ↦ texts e = p.labels) := by
    intro p hp
    obtain ⟨ls, hls, rfl⟩ := List.mem_map.1 (hperm.mem_iff.1 hp)
    exact ⟨mem_distinct.1 hls, rfl⟩
  have hfirst : (all.take size).Sublist all := List.take_sublist size all
  refine ⟨(hfirst.map _).nodup (hlabels.nodup_iff.2 (nodup_distinct _)),
    fun p hp ↦ (hmem p (hfirst.subset hp)).1, fun p hp ↦ (hmem p (hfirst.subset hp)).2,
    (hsorted.sublist hfirst).imp count_le_of_isLE_order, ?_, fun e he hout p hp ↦ ?_⟩
  · rw [List.length_take, min_comm, List.card_toFinset, ← distinct_eq_dedup, ← hlabels.length_eq,
      List.length_map]
  · obtain ⟨p', hp', hlabels'⟩ : ∃ p' ∈ all, p'.labels = texts e :=
      List.mem_map.1 (hlabels.mem_iff.2 (mem_distinct.2 (List.mem_map_of_mem he)))
    rw [← hlabels', ← (hmem p' hp').2]
    apply count_le_of_isLE_order
    exact rel_of_notMem_take hsorted hp hp' fun h ↦ hout (List.mem_map.2 ⟨p', h, hlabels'⟩)

/-- A single event is counted under its labels. -/
theorem IsRanking.eq_of_singleton {e : StoredEvent} {size : Nat} {points : List Point}
    (h : IsRanking texts .count [e] size points) (hsize : 0 < size) : points = [⟨texts e, 1⟩] := by
  have hone : points.length = 1 := by
    rw [h.length_eq, List.map_singleton, List.toFinset_cons]
    exact Nat.min_eq_left hsize
  obtain ⟨p, rfl⟩ := List.length_eq_one_iff.1 hone
  have hlabels : p.labels = texts e := List.mem_singleton.1 (h.mem p (List.mem_singleton_self p))
  have hcount : p.count = 1 := by
    rw [h.count_eq p (List.mem_singleton_self p), hlabels]
    simp [tally]
  rw [← hlabels, ← hcount]

section

variable {q : ChartQuery} {t : Table}

/-- A point as a group of an answer. -/
def Point.group (p : Point) : Group := ⟨p.labels.map some, .count p.count⟩

theorem compareGroups_group {g : Grouping} (hg : g ≠ .days) (p p' : Point) :
    compareGroups g p.group p'.group = p.order p' := by
  cases g
  case days => exact absurd rfl hg
  all_goals rfl

/-- The groups of a query that counts are the points of the rows that it selects. -/
theorem groups_eq_map_tallied (hlabels : ∀ e, q.grouping.labels e = (texts e).map some)
    (hmetric : ∀ rows, q.metric.measure rows = .count (tally a rows)) (t : Table) :
    q.groups t = (tallied texts a (q.select t)).map Point.group := by
  have hinj : Function.Injective (List.map (some : String → Option String)) :=
    List.map_injective_iff.2 (Option.some_injective _)
  have hdistinct : distinct ((q.select t).map (q.grouping.labels ·)) =
      (distinct ((q.select t).map texts)).map (List.map some) := by
    simp only [hlabels, distinct_eq_dedup]
    rw [← List.dedup_map_of_injective hinj, List.map_map]
    rfl
  have hfilter (ls : List String) : ((q.select t).filter fun e ↦
      q.grouping.labels e == ls.map some) = (q.select t).filter fun e ↦ texts e = ls :=
    List.filter_congr fun e _ ↦ by
      rw [hlabels, Bool.eq_iff_iff, beq_iff_eq, decide_eq_true_iff, hinj.eq_iff]
  simp only [ChartQuery.groups, hdistinct, tallied, List.map_map, Function.comp_def, hmetric,
    hfilter, Point.group]

/-- The answer of a query that counts, limited to a size. -/
theorem answer_eq (hg : q.grouping ≠ .days)
    (hlabels : ∀ e, q.grouping.labels e = (texts e).map some)
    (hmetric : ∀ rows, q.metric.measure rows = .count (tally a rows)) (hlimit : 0 ≤ q.limit)
    (t : Table) (maxRows : Int) :
    ∃ points, q.answer t maxRows = points.map Point.group ∧
      IsRanking texts a (t.filter fun e ↦ q.conditions.all (·.holds e)) q.limit.toNat points := by
  have hselect : (q.select t).Perm (t.filter fun e ↦ q.conditions.all (·.holds e)) := by
    unfold ChartQuery.select
    split
    · exact List.mergeSort_perm _ _
    · exact .refl _
  refine ⟨_, ?_, (isRanking_take texts a (q.select t) q.limit.toNat).of_perm hselect⟩
  have hlimited : q.isLimited = true := by simpa [ChartQuery.isLimited] using hg
  have hsort : ((tallied texts a (q.select t)).map Point.group).mergeSort
      (fun x y ↦ (compareGroups q.grouping x y).isLE) =
        ((tallied texts a (q.select t)).mergeSort fun p p' ↦ (p.order p').isLE).map Point.group :=
    (List.map_mergeSort fun p _ p' _ ↦ by rw [compareGroups_group hg]).symm
  rw [ChartQuery.answer, hlimited, groups_eq_map_tallied hlabels hmetric t, hsort]
  simp only [if_true, Table.limited, if_neg (not_lt.2 hlimit), List.map_take]

end

end Footfall.Report
