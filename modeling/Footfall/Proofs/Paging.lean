import Footfall.Proofs.Counting

/-!
Listings page by page. Reading on by the size of a page until there are no more ends, and the pages
together are the events that the filters ask for, each of them once and the newest first.
-/

namespace Footfall

/-- What filters ask for. A bound or text that is absent imposes nothing, as does an empty text. -/
structure EventFilters.Selects (f : EventFilters) (e : StoredEvent) : Prop where
  start : ∀ a, f.start = some a → a ≤ e.createdAt
  last : ∀ b, f.last = some b → e.createdAt ≤ b
  event : ∀ s, f.event = some s → s ≠ "" → e.event = s
  country : ∀ s, f.country = some s → s ≠ "" → e.context.country = some s
  device : ∀ s, f.device = some s → s ≠ "" → e.context.deviceType = some s
  referer : ∀ s, f.referer = some s → s ≠ "" → e.context.referer = some s

theorem all_textConditions_iff (filter : Option String) (field : StoredEvent → Option String)
    (e : StoredEvent) : (textConditions filter field).all (· e) = true ↔
      ∀ s, filter = some s → s ≠ "" → field e = some s := by
  cases filter with
  | none => simp [textConditions]
  | some s => by_cases hs : s = "" <;> simp [textConditions, hs]

theorem EventFilters.accepts_iff (f : EventFilters) (e : StoredEvent) :
    f.accepts e = true ↔ f.Selects e := by
  have hrange : f.range.conditions.all (· e) = true ↔
      (∀ a, f.start = some a → a ≤ e.createdAt) ∧ ∀ b, f.last = some b → e.createdAt ≤ b := by
    cases hstart : f.start <;> cases hstop : f.stop <;>
      simp [DateRange.conditions, DateRange.last, EventFilters.last, EventFilters.range, hstart,
        hstop]
  simp only [accepts, conditions, List.all_append, Bool.and_eq_true, hrange,
    all_textConditions_iff, Option.some.injEq]
  constructor
  · rintro ⟨⟨⟨⟨⟨hstart, hlast⟩, hevent⟩, hcountry⟩, hdevice⟩, hreferer⟩
    exact ⟨hstart, hlast, hevent, hcountry, hdevice, hreferer⟩
  · intro h
    exact ⟨⟨⟨⟨⟨h.start, h.last⟩, h.event⟩, h.country⟩, h.device⟩, h.referer⟩

instance (f : EventFilters) : DecidablePred f.Selects := fun e ↦
  decidable_of_iff _ (f.accepts_iff e)

/-- An event comes before another in a listing: it is newer, or of the same instant and stored
later. -/
def StoredEvent.Precedes (a b : StoredEvent) : Prop :=
  b.createdAt < a.createdAt ∨ a.createdAt = b.createdAt ∧ b.id < a.id

namespace Table

variable {t : Table} {f : EventFilters}

theorem IsKeyed.length_lt (h : t.IsKeyed) : t.length < 0x8000000000000000 := by
  have hsub : (t.map (·.id)).toFinset ⊆ Finset.Icc 1 0x7fffffffffffffff := by
    intro n hn
    obtain ⟨e, he, rfl⟩ := List.mem_map.1 (List.mem_toFinset.1 hn)
    have hpos := h.pos e he
    have hfits := of_decide_eq_true (h.fits e he)
    exact Finset.mem_Icc.2 ⟨hpos, by omega⟩
  have hcard := Finset.card_le_card hsub
  rw [List.toFinset_card_of_nodup h.nodup, List.length_map, Int.card_Icc] at hcard
  omega

theorem isNewer_iff {a b : StoredEvent} : isNewer a b = true ↔
    b.createdAt.micros < a.createdAt.micros ∨
      a.createdAt.micros = b.createdAt.micros ∧ b.id ≤ a.id := by
  have heq : a.createdAt.micros = b.createdAt.micros ↔ a.createdAt = b.createdAt := by
    cases a.createdAt
    cases b.createdAt
    simp
  rw [heq]
  simp only [isNewer, Bool.or_eq_true, Bool.and_eq_true, decide_eq_true_eq, beq_iff_eq]
  rfl

theorem isNewer_trans (a b c : StoredEvent) (hab : isNewer a b = true)
    (hbc : isNewer b c = true) : isNewer a c = true := by
  rw [isNewer_iff] at hab hbc ⊢
  omega

theorem isNewer_total (a b : StoredEvent) : (isNewer a b || isNewer b a) = true := by
  rw [Bool.or_eq_true, isNewer_iff, isNewer_iff]
  omega

theorem precedes_of_isNewer {a b : StoredEvent} (h : isNewer a b = true) (hne : a.id ≠ b.id) :
    a.Precedes b := by
  simp only [isNewer, Bool.or_eq_true, decide_eq_true_eq, Bool.and_eq_true, beq_iff_eq] at h
  rcases h with hlt | ⟨heq, hle⟩
  · exact .inl hlt
  · exact .inr ⟨heq, by omega⟩

theorem perm_matching : (t.matching f).Perm (t.filter (f.Selects ·)) := by
  have hsame : t.filter f.accepts = t.filter (f.Selects ·) := by
    apply List.filter_congr
    intro e _
    rw [Bool.eq_iff_iff, f.accepts_iff, decide_eq_true_eq]
  rw [matching_eq, hsame]
  exact List.mergeSort_perm ..

theorem IsKeyed.pairwise_matching (h : t.IsKeyed) :
    (t.matching f).Pairwise StoredEvent.Precedes := by
  have hsorted : (t.matching f).Pairwise fun a b ↦ isNewer a b = true :=
    List.pairwise_mergeSort isNewer_trans isNewer_total _
  have hnodup : ((t.matching f).map (·.id)).Nodup :=
    (perm_matching.map _).nodup_iff.2 (h.filter _).nodup
  exact hsorted.imp₂ (fun a b ↦ precedes_of_isNewer) (List.pairwise_map.1 hnodup)

end Table

namespace Views

variable {v : Views} {t : Table} {f : EventFilters} {ps : List EventPage}

/-- A listing is read page by page, until there are no more. -/
inductive Pages (v : Views) : EventFilters → List EventPage → Prop
  | last {f : EventFilters} {p : EventPage} :
      (v.list f).answer? = some p → p.pagination.hasMore = false → Pages v f [p]
  | next {f : EventFilters} {p : EventPage} {ps : List EventPage} :
      (v.list f).answer? = some p → p.pagination.hasMore = true →
      Pages v { f with offset := f.offset + f.limit } ps → Pages v f (p :: ps)

theorem Pages.eq (h : v.Pages f ps) {ps' : List EventPage} (h' : v.Pages f ps') : ps = ps' := by
  induction h generalizing ps' with
  | last hp hmore =>
    cases h' with
    | last hp' _ => rw [Option.some.inj (hp.symm.trans hp')]
    | next hp' hmore' _ =>
      cases hp.symm.trans hp'
      cases hmore.symm.trans hmore'
  | next hp hmore _ ih =>
    cases h' with
    | last hp' hmore' =>
      cases hp.symm.trans hp'
      cases hmore.symm.trans hmore'
    | next hp' _ hrest => rw [Option.some.inj (hp.symm.trans hp'), ih hrest]

/-- Pages tell how many rows there are, and from an offset on there are as many of them as it
takes, with the events from there on. -/
structure Cover (rows : List StoredEvent) (limit : Nat) (offset : Nat) (ps : List EventPage) :
    Prop where
  total : ∀ p ∈ ps, p.pagination.total = rows.length
  fetched : ∀ p ∈ ps, p.isError = false
  length : ps.length = max 1 ((rows.length - offset) ⌈/⌉ limit)
  events : ps.flatMap (·.events.getD []) = rows.drop offset

theorem list_eq (h : v.Shows t) (hfits : Table.fitsPage f.offset f.limit = true) :
    (v.list f).answer? = some ⟨some (Table.pageOf f.offset f.limit (t.matching f)),
      .build f.offset f.limit (t.matching f).length, some t.length⟩ := by
  rw [h.list, Table.list_eq, if_pos hfits]
  rfl

theorem cover_last {rows : List StoredEvent} {limit offset : Nat} {p : EventPage}
    (hlimit : 0 < limit) (hlast : rows.length ≤ offset + limit)
    (htotal : p.pagination.total = rows.length)
    (hevents : p.events = some ((rows.drop offset).take limit)) :
    Cover rows limit offset [p] := by
  constructor
  · simpa using htotal
  · simp [EventPage.isError, hevents]
  · have hceil : (rows.length - offset) ⌈/⌉ limit ≤ 1 := by
      rw [ceilDiv_le_iff_le_mul hlimit]
      omega
    simp only [List.length_singleton]
    omega
  · have hshort : (rows.drop offset).length ≤ limit := by
      rw [List.length_drop]
      omega
    simp [hevents, List.take_of_length_le hshort]

theorem Cover.next {rows : List StoredEvent} {limit offset : Nat} {p : EventPage}
    {ps : List EventPage} (hlimit : 0 < limit) (hmore : offset + limit < rows.length)
    (htotal : p.pagination.total = rows.length)
    (hevents : p.events = some ((rows.drop offset).take limit))
    (hrest : Cover rows limit (offset + limit) ps) : Cover rows limit offset (p :: ps) := by
  constructor
  · exact List.forall_mem_cons.2 ⟨htotal, hrest.total⟩
  · exact List.forall_mem_cons.2 ⟨by simp [EventPage.isError, hevents], hrest.fetched⟩
  · have hceil : (rows.length - offset) ⌈/⌉ limit =
        (rows.length - (offset + limit)) ⌈/⌉ limit + 1 := by
      rw [Nat.ceilDiv_eq_add_pred_div, Nat.ceilDiv_eq_add_pred_div, ← Nat.add_div_right _ hlimit]
      congr 1
      omega
    have hpos : 0 < (rows.length - (offset + limit)) ⌈/⌉ limit := by
      rw [Nat.ceilDiv_eq_add_pred_div]
      exact Nat.div_pos (by omega) hlimit
    rw [List.length_cons, hrest.length, hceil]
    omega
  · rw [List.flatMap_cons, hevents, hrest.events, Option.getD_some, ← List.drop_drop,
      List.take_append_drop]

/-- From every place in the order on there are pages with the rest of the rows. -/
theorem exists_pages (h : v.Shows t) (hlimit : 0 < f.limit) (hfits : fitsTable f.limit = true)
    (hlen : (t.matching f).length < 0x8000000000000000) (h0 : 0 ≤ f.offset)
    (hoffset : f.offset ≤ (t.matching f).length) :
    ∃ ps, v.Pages f ps ∧ Cover (t.matching f) f.limit.toNat f.offset.toNat ps := by
  induction hn : (t.matching f).length - f.offset.toNat using Nat.strongRecOn generalizing f with
  | _ n ih =>
    have hfit : Table.fitsPage f.offset f.limit = true := by
      have : fitsTable f.offset = true := decide_eq_true (by omega)
      simp [Table.fitsPage, this, hfits]
    have hpage := list_eq h hfit
    have hevents : Table.pageOf f.offset f.limit (t.matching f) =
        ((t.matching f).drop f.offset.toNat).take f.limit.toNat := by
      rw [Table.pageOf, Table.limited, if_neg (by omega)]
    by_cases hmore : f.offset + f.limit < (t.matching f).length
    · -- the next page has the same filters, so it is cut from the same rows
      have hadd : (f.offset + f.limit).toNat = f.offset.toNat + f.limit.toNat := by omega
      obtain ⟨ps, hps, hcover⟩ := ih ((t.matching f).length - (f.offset + f.limit).toNat)
        (by omega) (f := { f with offset := f.offset + f.limit }) hlimit hfits hlen
        (show 0 ≤ f.offset + f.limit by omega) (Int.le_of_lt hmore) rfl
      have hrest : Cover (t.matching f) f.limit.toNat (f.offset.toNat + f.limit.toNat) ps :=
        hadd ▸ hcover
      refine ⟨_, .next hpage (decide_eq_true hmore) hps, ?_⟩
      exact hrest.next (by omega) (by omega) rfl (congrArg some hevents)
    · refine ⟨_, .last hpage (decide_eq_false hmore), ?_⟩
      exact cover_last (by omega) (by omega) rfl (congrArg some hevents)

/-- Pages that list the rows that filters ask for: as many pages as it takes, all with their number,
and together all of these rows in strict order. -/
structure Lists (ps : List EventPage) (t : Table) (f : EventFilters) : Prop where
  total : ∀ p ∈ ps, p.pagination.total = (t.filter (f.Selects ·)).length
  fetched : ∀ p ∈ ps, p.isError = false
  length : ps.length = max 1 ((t.filter (f.Selects ·)).length ⌈/⌉ f.limit.toNat)
  perm : (ps.flatMap (·.events.getD [])).Perm (t.filter (f.Selects ·))
  pairwise : (ps.flatMap (·.events.getD [])).Pairwise StoredEvent.Precedes

/-- Reading a listing from its start, page by page, ends after as many pages as it takes and lists
each of the rows that the filters ask for once, the newest first. -/
theorem pages_iff (h : Of t v) (hkeyed : t.IsKeyed) (f : EventFilters) (hlimit : 1 ≤ f.limit)
    (hfits : fitsTable f.limit = true) :
    ∃ pages, (∀ ps, v.Pages { f with offset := 0 } ps ↔ ps = pages) ∧ Lists pages t f := by
  have hmatching : t.matching { f with offset := 0 } = t.matching f := rfl
  have hlen : (t.matching f).length < 0x8000000000000000 := by
    have hle : (t.matching f).length ≤ t.length := by
      rw [Table.length_matching]
      exact List.countP_le_length
    exact hle.trans_lt hkeyed.length_lt
  obtain ⟨pages, hpages, hcover⟩ := exists_pages (f := { f with offset := 0 }) h.shows
    (show 0 < f.limit by omega) hfits hlen le_rfl (Int.natCast_nonneg _)
  have hsame : (t.matching f).length = (t.filter (f.Selects ·)).length :=
    Table.perm_matching.length_eq
  have hevents : pages.flatMap (·.events.getD []) = t.matching f := hcover.events
  refine ⟨pages, fun ps ↦ ⟨fun hps ↦ hps.eq hpages, fun heq ↦ heq ▸ hpages⟩, ?_⟩
  constructor
  · intro p hp
    rw [← hsame]
    exact hcover.total p hp
  · exact hcover.fetched
  · rw [← hsame]
    exact hcover.length
  · rw [hevents]
    exact Table.perm_matching
  · rw [hevents]
    exact hkeyed.pairwise_matching

theorem pages_iff_twoNames :
    Of twoNames.content twoNames.views ∧ twoNames.content.IsKeyed ∧
      ∃ pages, (∀ ps, twoNames.views.Pages { event := some "view", limit := 1 } ps ↔ ps = pages) ∧
        Lists pages twoNames.content { event := some "view", limit := 1 } := by
  have h : Of twoNames.content twoNames.views := .store fun _ ↦ rfl
  have hkeyed : twoNames.content.IsKeyed := ⟨by decide, by decide, by decide⟩
  exact ⟨h, hkeyed, pages_iff h hkeyed { event := some "view", limit := 1 } (by decide) (by decide)⟩

end Views

end Footfall
