import Footfall.Proofs.Keeping
import Mathlib

/-!
What is delivered. The team of a site reads all its events page by page, each once and none of another
site; to everybody else the site is empty.
-/

namespace Footfall

theorem TimeLimit.isRefusal_start {l : TimeLimit} {e : Failure} (h : l.start = .error e) :
    e.isRefusal = false := by
  unfold start at h
  cases hn : l.seconds.isNull with
  | true => simp [hn, pure, Except.pure] at h
  | false =>
    cases hle : l.seconds.atMost (.int 0) with
    | error f =>
      simp only [hn, hle, Except.mapError, bind, Except.bind] at h
      cases h
      rfl
    | ok late =>
      cases late with
      | true =>
        simp only [hn, hle, Except.mapError, bind, Except.bind] at h
        cases h
        rfl
      | false =>
        cases hreal : l.seconds.toReal with
        | error f =>
          simp only [hn, hle, hreal, Except.mapError, bind, Except.bind] at h
          cases h
          rfl
        | ok seconds =>
          simp only [hn, hle, hreal, Except.mapError, bind, Except.bind] at h
          cases h

/-- Finished work that is tolerated has not met the deadline. -/
theorem Work.under_of_isTolerated {α : Type} {l : TimeLimit} {r : Except Failure α} {pauses : Nat}
    (h : (under l (done r pauses)).IsTolerated) :
    l.start = .ok () ∧ (l.passesAtOnce && decide (promptPauses < pauses)) = false ∧
      under l (done r pauses) = done r pauses := by
  rcases under_cases l r pauses with ⟨e, hs, heq⟩ | ⟨-, -, heq⟩ | hdone
  · rw [heq] at h
    have hrefusal : e.isRefusal = true := h
    rw [TimeLimit.isRefusal_start hs] at hrefusal
    cases hrefusal
  · rw [heq] at h
    cases h
  · exact hdone

namespace Table

/-- The page of a table from an offset on. -/
def page (t : Table) (offset limit : Int) : EventPage :=
  ⟨some (pageOf offset limit (t.mergeSort isNewer)), .build offset limit t.length, some t.length⟩

/-- The filters that ask for one page of all events. -/
def pageFilters (offset limit : Int) : EventFilters := { limit := limit, offset := offset }

theorem list_pageFilters (t : Table) (offset limit : Int) :
    t.list (pageFilters offset limit) =
      if fitsPage offset limit then .ok (t.page offset limit) else .error .hugeForStore := by
  have hall : t.filter (pageFilters offset limit).accepts = t :=
    List.filter_eq_self.2 fun e _ ↦ accepts_default e
  have hmatching : t.matching (pageFilters offset limit) = t.mergeSort isNewer := by
    rw [matching_eq, hall]
  simp only [list_eq, hmatching, List.length_mergeSort]
  rfl

end Table

namespace Service

variable {s s' : Service} {sites : List Site} {l : TimeLimit} {returned : List StoredEvent}
  {x : Site} {t : Tenant}

theorem siteFor_of_found {number tag : Value} (hone : (number.isNull == tag.isNull) = false)
    (hfound : (if tag.isNull then s.directory.withNumber number else s.directory.withTag tag) =
      .ok (some x)) (t : Tenant) :
    s.siteFor t number tag = if t.owns x then .ok x else .error .notYours := by
  unfold siteFor
  rw [hone, hfound]
  cases ht : t.owns x <;> simp [Except.mapError, bind, Except.bind, Option.filter, ht, pure,
    Except.pure, throw, throwThe, MonadExceptOf.throw]

theorem siteFor_number (hs : s.directory = .ofSites sites) (hids : (sites.map (·.id)).Nodup)
    (hx : x ∈ sites) (t : Tenant) : s.siteFor t (.int x.id) .null =
      if t.owns x then .ok x else .error .notYours :=
  siteFor_of_found rfl (by simp [Value.isNull, hs, Directory.find?_number_ofSites hids hx]) t

theorem siteFor_tag (hs : s.directory = .ofSites sites) (htags : (sites.map (·.tag)).Nodup)
    (hx : x ∈ sites) (t : Tenant) : s.siteFor t .null (.text x.tag) =
      if t.owns x then .ok x else .error .notYours :=
  siteFor_of_found rfl (by simp [Value.isNull, hs, Directory.find?_tag_ofSites htags hx]) t

/-- The listing of a site for its team. -/
theorem list_own (h : s.Keeps sites l returned) (hids : (sites.map (·.id)).Nodup) (hx : x ∈ sites)
    (ht : t.owns x = true) (f : EventFilters) :
    s.list t (.int x.id) f = s.timed t.storage (·.list (.of (.number x.id) x.team) f) := by
  unfold list read
  rw [siteFor_number h.directory hids hx, if_pos ht, Tenant.team_of_owns ht]

/-- The time limit leaves time, and the storage can be asked for a site. -/
structure Reaches (s : Service) (x : Site) : Prop where
  start : s.timeout.start = .ok ()
  prompt : s.timeout.passesAtOnce = false
  knows : (s.dispatcher.backend x.storage).Knows x

theorem Reaches.idles (h : (s.dispatcher.backend x.storage).IsRegular sites) (hr : s.Reaches x)
    (hi : s.Idles s') : s'.Reaches x :=
  ⟨hi.timeout ▸ hr.start, hi.timeout ▸ hr.prompt,
    ((h.idles (hi.backend _)).2.2 x).2 hr.knows⟩

theorem idles_list (h : s.Keeps sites l returned) (t : Tenant) (site : Value) (f : EventFilters) :
    s.Idles (s.list t site f).2 :=
  idles_read s t site _ (f := fun scope b ↦ b.list scope f) fun _ ↦
    Backend.idles_read (h.regular _).isSound (Connection.reads_list f).idle ..

/-- A listing within the time limit. -/
theorem fst_list_of_reaches (h : s.Keeps sites l returned) (hids : (sites.map (·.id)).Nodup)
    (hx : x ∈ sites) (ht : t.owns x = true) (hst : t.storage = x.storage) (hr : s.Reaches x)
    (hne : (s.dispatcher.backend x.storage).rowsFor x ≠ []) (f : EventFilters) :
    (s.list t (.int x.id) f).1 =
      .done ((((s.dispatcher.backend x.storage).rowsFor x).list f).mapError .fault)
        Work.storePauses := by
  rw [list_own h hids hx ht, hst, fst_timed]
  have hlist := (h.regular x.storage).list hx f
  generalize ((s.dispatcher.backend x.storage).list (.of (.number x.id) x.team) f).1 = w at hlist ⊢
  cases hlist with
  | absent nil => exact absurd nil hne
  | known => simp [Work.under, hr.start, hr.prompt]
  | unknown knows => exact absurd hr.knows knows

/-- A listing that does not fail has been answered by the storage, unless there are no rows. -/
theorem reaches_of_isTolerated (h : s.Keeps sites l returned) (hids : (sites.map (·.id)).Nodup)
    (hx : x ∈ sites) (ht : t.owns x = true) (hst : t.storage = x.storage) {f : EventFilters}
    (htol : (s.list t (.int x.id) f).1.IsTolerated) :
    (∃ pauses, (s.list t (.int x.id) f).1 = .done (.ok (.empty f)) pauses ∧
        (s.dispatcher.backend x.storage).rowsFor x = []) ∨
      s.Reaches x ∧ (s.list t (.int x.id) f).1 =
        .done ((((s.dispatcher.backend x.storage).rowsFor x).list f).mapError .fault)
          Work.storePauses := by
  rw [list_own h hids hx ht, hst, fst_timed] at htol ⊢
  have hlist := (h.regular x.storage).list hx f
  generalize ((s.dispatcher.backend x.storage).list (.of (.number x.id) x.team) f).1 = w
    at hlist htol ⊢
  cases hlist with
  | absent nil => exact .inl ⟨0, (Work.under_of_isTolerated htol).2.2, nil⟩
  | known knows =>
    obtain ⟨hs, hp, hunder⟩ := Work.under_of_isTolerated htol
    exact .inr ⟨⟨hs, by simpa [Work.promptPauses, Work.storePauses] using hp, knows⟩, hunder⟩
  | unknown =>
    rw [(Work.under_of_isTolerated htol).2.2] at htol
    cases htol

/-- The first page of a site can be had. -/
theorem isTolerated_of_reaches (h : s.Keeps sites l returned) (hids : (sites.map (·.id)).Nodup)
    (hx : x ∈ sites) (ht : t.owns x = true) (hst : t.storage = x.storage) (hr : s.Reaches x)
    {size : Int} (hfits : fitsTable size = true) :
    (s.list t (.int x.id) (Table.pageFilters 0 size)).1.IsTolerated := by
  rw [list_own h hids hx ht, hst, fst_timed]
  have hfit : Table.fitsPage 0 size = true := by simp [Table.fitsPage, hfits]; rfl
  have hlist := (h.regular x.storage).list hx (Table.pageFilters 0 size)
  generalize ((s.dispatcher.backend x.storage).list (.of (.number x.id) x.team)
    (Table.pageFilters 0 size)).1 = w at hlist ⊢
  cases hlist with
  | absent => simp [Work.under, hr.start, hr.prompt, Work.IsTolerated, Work.failure?]
  | known =>
    rw [Table.list_pageFilters, if_pos hfit]
    simp [Except.mapError, Work.under, hr.start, hr.prompt, Work.IsTolerated, Work.failure?]
  | unknown knows => exact absurd hr.knows knows

/-- A team reads a site page by page, until there are no more. -/
inductive Walk (t : Tenant) (site : Value) (size : Int) :
    Service → Int → List StoredEvent → Service → Prop
  | last {s s' : Service} {offset : Int} {p : EventPage} {es : List StoredEvent} {pauses : Nat} :
      s.list t site (Table.pageFilters offset size) = (.done (.ok p) pauses, s') →
      p.events = some es → p.pagination.hasMore = false → Walk t site size s offset es s'
  | next {s s' s'' : Service} {offset : Int} {p : EventPage} {es more : List StoredEvent}
      {pauses : Nat} :
      s.list t site (Table.pageFilters offset size) = (.done (.ok p) pauses, s') →
      p.events = some es → p.pagination.hasMore = true →
      Walk t site size s' (offset + size) more s'' → Walk t site size s offset (es ++ more) s''

theorem pageOf_eq {t : Table} {offset size : Int} (hsize : 0 ≤ size) :
    Table.pageOf offset size t = (t.drop offset.toNat).take size.toNat := by
  rw [Table.pageOf, Table.limited, if_neg (by omega)]

/-- From every page on, the walk reads the rest of the rows. -/
theorem exists_walk (hids : (sites.map (·.id)).Nodup) (hx : x ∈ sites) (ht : t.owns x = true)
    (hst : t.storage = x.storage) {size : Int} (hsize : 0 < size) (hfits : fitsTable size = true)
    {rows : Table} (hne : rows ≠ []) (h : s.Keeps sites l returned) (hr : s.Reaches x)
    (hrows : (s.dispatcher.backend x.storage).rowsFor x = rows) {offset : Int} (h0 : 0 ≤ offset)
    (hoffset : offset ≤ rows.length) :
    ∃ s', Walk t (.int x.id) size s offset
      ((rows.mergeSort Table.isNewer).drop offset.toNat) s' := by
  induction hn : rows.length - offset.toNat using Nat.strongRecOn generalizing s offset with
  | _ n ih =>
    have hlen : rows.length < 0x8000000000000000 := hrows ▸ ((h.regular x.storage).rowsFor hx).2
    have hpage : (s.list t (.int x.id) (Table.pageFilters offset size)).1 =
        .done (.ok (rows.page offset size)) Work.storePauses := by
      have hfit : Table.fitsPage offset size = true := by
        have : fitsTable offset = true := decide_eq_true (by omega)
        simp [Table.fitsPage, this, hfits]
      rw [fst_list_of_reaches h hids hx ht hst hr (hrows ▸ hne), hrows, Table.list_pageFilters,
        if_pos hfit]
      rfl
    have hidles := idles_list h t (.int x.id) (Table.pageFilters offset size)
    have hmore : (rows.page offset size).pagination.hasMore =
        decide (offset + size < rows.length) := rfl
    have hevents : (rows.page offset size).events =
        some (((rows.mergeSort Table.isNewer).drop offset.toNat).take size.toNat) :=
      congrArg some (pageOf_eq (Int.le_of_lt hsize))
    by_cases hlast : offset + size < rows.length
    · obtain ⟨s'', hwalk⟩ := ih (rows.length - (offset + size).toNat) (by omega) (h.idles hidles)
        (hr.idles (h.regular _) hidles) ((((h.regular _).idles (hidles.backend _)).2.1 x).trans hrows)
        (by omega) (Int.le_of_lt hlast) rfl
      refine ⟨s'', ?_⟩
      have hdrop : (rows.mergeSort Table.isNewer).drop offset.toNat =
          ((rows.mergeSort Table.isNewer).drop offset.toNat).take size.toNat ++
            (rows.mergeSort Table.isNewer).drop (offset + size).toNat := by
        rw [show (offset + size).toNat = offset.toNat + size.toNat by omega, ← List.drop_drop,
          List.take_append_drop]
      rw [hdrop]
      exact .next (Prod.ext hpage rfl) hevents (by rw [hmore, decide_eq_true hlast]) hwalk
    · refine ⟨_, .last (Prod.ext hpage rfl) ?_ (by rw [hmore, decide_eq_false hlast])⟩
      rw [hevents, List.take_of_length_le]
      rw [List.length_drop, List.length_mergeSort]
      omega

/-- The team of a site reads what was stored for it, if the first page can be had. -/
theorem walk_of_isTolerated (hids : (sites.map (·.id)).Nodup) (h : s.Keeps sites l returned)
    (hx : x ∈ sites) (ht : t.owns x = true) (hst : t.storage = x.storage) {size : Int}
    (hsize : 0 < size)
    (htol : (s.list t (.int x.id) (Table.pageFilters 0 size)).1.IsTolerated) :
    ∃ s', Walk t (.int x.id) size s 0
      ((returned.filter (·.tag == x.tag)).mergeSort Table.isNewer) s' := by
  have hrows := h.rows x hx
  rcases reaches_of_isTolerated h hids hx ht hst htol with ⟨pauses, hlist, hnil⟩ | ⟨hr, hlist⟩
  · rw [← hrows, hnil, List.mergeSort_nil]
    refine ⟨_, .last (Prod.ext hlist rfl) rfl ?_⟩
    exact decide_eq_false (by simp [Table.pageFilters]; omega)
  have hfits : fitsTable size = true := by
    by_contra hsz
    rw [hlist, Table.list_pageFilters, if_neg (by simp [Table.fitsPage, hsz])] at htol
    cases htol
  by_cases hne : returned.filter (·.tag == x.tag) = []
  · have hpage : (s.list t (.int x.id) (Table.pageFilters 0 size)).1 =
        .done (.ok (Table.page [] 0 size)) Work.storePauses := by
      rw [hlist, hrows, hne, Table.list_pageFilters, if_pos (by simp [Table.fitsPage, hfits]; rfl)]
      rfl
    rw [hne, List.mergeSort_nil]
    refine ⟨_, .last (Prod.ext hpage rfl) (by simp [Table.page, pageOf_eq (Int.le_of_lt hsize)]) ?_⟩
    exact decide_eq_false (by simp; omega)
  · exact exists_walk hids hx ht hst hsize hfits hne h hr hrows (Int.le_refl 0) (by omega)

/-- A site that a tenant does not own is empty to it, however it is asked for. -/
structure IsEmptyTo (s : Service) (t : Tenant) (x : Site) : Prop where
  list (f : EventFilters) : (s.list t (.int x.id) f).1 = .done (.ok (.empty f))
  dashboard (now : Instant) (range : Option DateRange) (limit offset : Int) :
    (s.dashboard now t (.int x.id) .null range (.int limit) (.int offset)).1 =
      .done (.ok (.empty t.team (range.getD {}) (.build offset limit 0)))
  dashboardByTag (now : Instant) (range : Option DateRange) (limit offset : Int) :
    (s.dashboard now t .null (.text x.tag) range (.int limit) (.int offset)).1 =
      .done (.ok (.empty t.team (range.getD {}) (.build offset limit 0)))
  stats (range : Option DateRange) : (s.stats t (.int x.id) range).1 = .done (.ok {})
  summary (o : SummaryOptions) : (s.summary t (.int x.id) o).1 = .done (.ok (.empty o))
  series (range : Option DateRange) (g : Granularity) (byEvent : Bool) :
    (s.series t (.int x.id) range g (.bool byEvent)).1 = .done (.ok ⟨[], g, byEvent⟩)

theorem ofValues_int (offset limit total : Int) :
    Pagination.ofValues (.int offset) (.int limit) (.int total) =
      .ok (.build offset limit total) := by
  have hadd : Value.add (.int offset) (.int limit) = .ok (.int (offset + limit)) := rfl
  simp only [Pagination.ofValues, hadd, Value.lessThan_int, Except.mapError, bind, Except.bind]
  rfl

theorem isEmptyTo_of_not_owns (hs : s.directory = .ofSites sites)
    (hids : (sites.map (·.id)).Nodup) (htags : (sites.map (·.tag)).Nodup) (hx : x ∈ sites)
    (ht : t.owns x = false) : s.IsEmptyTo t x := by
  have hnumber : s.siteFor t (.int x.id) .null = .error .notYours := by
    rw [siteFor_number hs hids hx, ht]
    rfl
  have htag : s.siteFor t .null (.text x.tag) = .error .notYours := by
    rw [siteFor_tag hs htags hx, ht]
    rfl
  refine ⟨fun f ↦ ?_, fun now range limit offset ↦ ?_, fun now range limit offset ↦ ?_,
    fun range ↦ ?_, fun o ↦ ?_, fun range g byEvent ↦ ?_⟩
  · simp only [Service.list, read, hnumber]
  · simp only [Service.dashboard, hnumber, ofValues_int]
    rfl
  · simp only [Service.dashboard, htag, ofValues_int]
    rfl
  · simp only [Service.stats, read, hnumber]
  · simp only [Service.summary, read, hnumber]
  · simp only [Service.series, read, hnumber, TimeSeries.of_bool]

theorem Keeps.of_isNew {d : Dispatcher} (hd : ∀ kind, (d.backend kind).IsNew) (sites : List Site)
    (l : TimeLimit) : Keeps ⟨d, .ofSites sites, l⟩ sites l [] :=
  ⟨rfl, rfl, fun kind ↦ ((hd kind).isRegular sites).1,
    fun x _ ↦ ((hd x.storage).isRegular sites).2 x, by simp⟩

/-- As long as calls only fail for being refused, the team of a site reads page by page what the
calls have returned for it, each event once and under the site's number and team; to any other tenant
the site is empty. The first page can be had if the deadline leaves time and the numbers fit. -/
theorem delivered (sites : List Site) (hids : (sites.map (·.id)).Nodup)
    (htags : (sites.map (·.tag)).Nodup) (d : Dispatcher) (hd : ∀ kind, (d.backend kind).IsNew)
    (l : TimeLimit) (calls : List (Instant × Call))
    (hcalls : ∀ w ∈ (run ⟨d, .ofSites sites, l⟩ calls).1, w.IsTolerated) :
    (∀ x ∈ sites, ∀ t : Tenant, t.owns x = true → t.storage = x.storage → ∀ size, 0 < size →
      (((run ⟨d, .ofSites sites, l⟩ calls).2.list t (.int x.id)
          (Table.pageFilters 0 size)).1.IsTolerated →
        ∃ es s', Walk t (.int x.id) size (run ⟨d, .ofSites sites, l⟩ calls).2 0 es s' ∧
          es.Perm (((run ⟨d, .ofSites sites, l⟩ calls).1.flatMap storedBy).filter
            (·.tag == x.tag)) ∧
          es.Nodup ∧
          ∀ e ∈ es, e.site = x.id ∧ e.team = some x.team ∧ e.account = some x.team) ∧
      (l.start = .ok () → l.passesAtOnce = false → Server.Knows x → fitsTable size = true →
        ((run ⟨d, .ofSites sites, l⟩ calls).2.list t (.int x.id)
          (Table.pageFilters 0 size)).1.IsTolerated)) ∧
    ∀ x ∈ sites, ∀ t : Tenant, t.owns x = false →
      (run ⟨d, .ofSites sites, l⟩ calls).2.IsEmptyTo t x := by
  have h := (Keeps.of_isNew hd sites l).run hids htags calls hcalls
  rw [List.nil_append] at h
  refine ⟨fun x hx t ht hst size hsize ↦ ⟨fun htol ↦ ?_, fun hstart hprompt hknows hfits ↦ ?_⟩,
    fun x hx t ht ↦ isEmptyTo_of_not_owns h.directory hids htags hx ht⟩
  · obtain ⟨s', hwalk⟩ := walk_of_isTolerated hids h hx ht hst hsize htol
    have hperm := List.mergeSort_perm (((run ⟨d, .ofSites sites, l⟩ calls).1.flatMap
      storedBy).filter (·.tag == x.tag)) Table.isNewer
    refine ⟨_, s', hwalk, hperm, ?_, fun e he ↦ ?_⟩
    · rw [hperm.nodup_iff, ← h.rows x hx]
      exact ((h.regular x.storage).rowsFor hx).1.imp fun hlt heq ↦ by simp [heq] at hlt
    · obtain ⟨hmem, htag⟩ := List.mem_filter.1 (hperm.mem_iff.1 he)
      obtain ⟨y, hy, hytag, htenant⟩ := h.tenant e hmem
      have hxy : y = x :=
        List.inj_on_of_nodup_map htags hy hx (hytag.symm.trans (beq_iff_eq.1 htag))
      exact hxy ▸ htenant
  · have hr : (run ⟨d, .ofSites sites, l⟩ calls).2.Reaches x :=
      ⟨by rw [h.timeout, hstart], by rw [h.timeout, hprompt], Backend.knows_of_knows hknows⟩
    exact isTolerated_of_reaches h hids hx ht hst hr hfits

/-- Two sites of two teams, one with a store of its own and one in a shared table. -/
def twoSites : List Site :=
  [⟨1, 10, "a", none, none, .sqlite⟩, ⟨2, 20, "b", none, none, .postgres⟩]

def twoKinds : Dispatcher :=
  { backends := [(.sqlite, ⟨.sqlite, .int 7, .embedded {}⟩),
      (.postgres, ⟨.postgres, .int 7, .server {}⟩)] }

def pageView (tag : String) : Value := .object [("event", .text "view"), ("tag_id", .text tag)]

/-- Events for both sites, a read, and an event for no site, which is refused. -/
def someCalls : List (Instant × Call) :=
  [(⟨0⟩, .ingest (pageView "a")), (⟨1⟩, .ingestMany [pageView "b", pageView "a"]),
    (⟨2⟩, .stats ⟨20, .postgres, []⟩ (.int 2) none), (⟨3⟩, .ingest (pageView "c"))]

theorem isNew_twoKinds (kind : StorageKind) : (twoKinds.backend kind).IsNew := by
  cases kind
  · exact ⟨rfl, rfl⟩
  · rfl
  · trivial
  · trivial

theorem delivered_someCalls :
    (twoSites.map (·.id)).Nodup ∧ (twoSites.map (·.tag)).Nodup ∧
    (∀ w ∈ (run ⟨twoKinds, .ofSites twoSites, {}⟩ someCalls).1, w.IsTolerated) ∧
    ∃ es s', Walk ⟨10, .sqlite, []⟩ (.int 1) 1
        (run ⟨twoKinds, .ofSites twoSites, {}⟩ someCalls).2 0 es s' ∧
      es.Perm (((run ⟨twoKinds, .ofSites twoSites, {}⟩ someCalls).1.flatMap storedBy).filter
        (·.tag == "a")) ∧
      es.Nodup ∧ ∀ e ∈ es, e.site = 1 ∧ e.team = some 10 ∧ e.account = some 10 := by
  have hids : (twoSites.map (·.id)).Nodup := by decide
  have htags : (twoSites.map (·.tag)).Nodup := by decide
  have hall : (run ⟨twoKinds, .ofSites twoSites, {}⟩ someCalls).1.all
      (·.failure?.all Failure.isRefusal) = true := by cbv
  have hcalls : ∀ w ∈ (run ⟨twoKinds, .ofSites twoSites, {}⟩ someCalls).1, w.IsTolerated :=
    List.all_eq_true.1 hall
  refine ⟨hids, htags, hcalls, ?_⟩
  have hread := (delivered twoSites hids htags twoKinds isNew_twoKinds {} someCalls hcalls).1
    ⟨1, 10, "a", none, none, .sqlite⟩ (by simp [twoSites]) ⟨10, .sqlite, []⟩ (by decide) rfl 1
    (by decide)
  exact hread.1 (hread.2 rfl rfl (by decide) (by decide))

end Service

end Footfall
