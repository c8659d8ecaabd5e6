import Footfall.Proofs.Counting
import Footfall.Proofs.Delivery
import Footfall.Proofs.Ingestion

/-!
Dashboards. A dashboard names the range that it is of: the one asked for, or a window of days up to
now if that has no bounds. It counts the events of its site in that range and shows a page of them,
the newest first. Beside that it counts all events of the site, and only a site without any is new.
-/

namespace Footfall

namespace DashboardOptions

/-- The range that a request is answered for. -/
def applied (o : DashboardOptions) (now : Instant) (days : Value) : Except Fault DateRange :=
  match o.boundedRange with
  | some r => .ok r
  | none => (now.daysBefore days).map fun start ↦ { start := some start }

theorem filters_eq (o : DashboardOptions) (now : Instant) (days : Value) :
    o.filters now days =
      (o.applied now days).map fun r ↦ .over (some r) none o.offset o.limit := by
  unfold filters applied
  cases o.boundedRange with
  | some r => rfl
  | none => cases now.daysBefore days <;> rfl

end DashboardOptions

/-- A dashboard is of the range asked for, or of a window of days up to now if that has no bounds. -/
def Dashboard.IsOver (d : Dashboard) (asked : DateRange) (now : Instant) (days : Value) : Prop :=
  if asked.isUnbounded then
    ∃ start, now.daysBefore days = .ok start ∧ d.range = ⟨some start, none, false⟩
  else d.range = asked

theorem DashboardOptions.exists_applied {o : DashboardOptions} {asked : DateRange} {now : Instant}
    {days : Value} (ho : o.range = some asked)
    (h : asked.isUnbounded = true → ∃ start, now.daysBefore days = .ok start) :
    ∃ r, o.applied now days = .ok r := by
  unfold applied boundedRange
  rw [ho]
  cases hu : asked.isUnbounded with
  | true =>
    obtain ⟨start, hs⟩ := h hu
    exact ⟨⟨some start, none, false⟩, by simp [Option.filter_some, hu, hs, Except.map]⟩
  | false => exact ⟨asked, by simp [Option.filter_some, hu]⟩

/-- A dashboard of a site shows a table: a page of its events in the range of the dashboard, how many
there are in that range and in all, and whether there are any. -/
structure Dashboard.Shows (d : Dashboard) (x : Site) (t : Table) (offset limit : Int) : Prop where
  site : d.site = some x.id
  team : d.team = x.team
  pagination : d.pagination =
    .build offset limit (t.countP fun e ↦ d.range.contains e.createdAt)
  rows : d.rows = Table.pageOf offset limit
    ((t.filter fun e ↦ d.range.contains e.createdAt).mergeSort Table.isNewer)
  allTime : d.allTime = t.length
  hasEvents : d.hasEvents = true ↔ ∃ e, e ∈ t

theorem Dashboard.isOver_of_applied {d : Dashboard} {o : DashboardOptions} {asked : DateRange}
    {now : Instant} {days : Value} (ho : o.range = some asked)
    (h : o.applied now days = .ok d.range) : d.IsOver asked now days := by
  unfold IsOver
  unfold DashboardOptions.applied DashboardOptions.boundedRange at h
  rw [ho] at h
  cases hu : asked.isUnbounded with
  | true =>
    simp only [hu, Option.filter_some, Bool.not_true, Bool.false_eq_true, if_false] at h
    cases hs : now.daysBefore days with
    | error e => simp [hs, Except.map] at h
    | ok start =>
      simp only [hs, Except.map, Except.ok.injEq] at h
      simpa using h.symm
  | false =>
    simp only [hu, Option.filter_some, Bool.not_false, if_true, Except.ok.injEq] at h
    simpa using h.symm

namespace Table

/-- The dashboard of a table for a range. -/
def overview (t : Table) (r : DateRange) (offset limit : Int) : DashboardRows :=
  ⟨pageOf offset limit ((t.within (some r)).mergeSort isNewer), (t.within (some r)).length,
    t.length, .build offset limit (t.within (some r)).length, r⟩

theorem matching_over (t : Table) (r : Option DateRange) (offset limit : Int) :
    t.matching (.over r none offset limit) = (t.within r).mergeSort isNewer := by
  simp [matching, conditions_over, textConditions, meeting_rangeConditions]

theorem dashboard_over (t : Table) (r : DateRange) (offset limit : Int) :
    t.dashboard (.over (some r) none offset limit) =
      if fitsPage offset limit then .ok (t.overview r offset limit)
      else .error (.fault .hugeForStore) := by
  unfold dashboard
  rw [list_eq, matching_over, List.length_mergeSort]
  have hplace : (EventFilters.over (some r) none offset limit).offset = offset ∧
      (EventFilters.over (some r) none offset limit).limit = limit := ⟨rfl, rfl⟩
  rw [hplace.1, hplace.2]
  split <;> rfl

/-- Without rows the dashboard is empty. -/
theorem overview_nil (r : DateRange) (offset limit : Int) :
    overview [] r offset limit = .empty (.over (some r) none offset limit) := by
  simp [overview, within, pageOf, limited, DashboardRows.empty, EventFilters.over,
    EventFilters.range]

end Table

theorem Work.of_under_eq_ok {α : Type} {l : TimeLimit} {w : Work α} {a : α} {pauses : Nat}
    (h : w.under l = .done (.ok a) pauses) : w = .done (.ok a) pauses := by
  cases w with
  | unending =>
    unfold under at h
    cases hs : l.start with
    | error e =>
      rw [hs] at h
      cases h
    | ok u =>
      simp only [hs] at h
      cases hn : l.seconds.isNull <;> simp [hn] at h
  | done r p =>
    rcases under_cases l r p with ⟨e, -, heq⟩ | ⟨-, -, heq⟩ | ⟨-, -, heq⟩
    · cases heq.symm.trans h
    · cases heq.symm.trans h
    · exact heq.symm.trans h

namespace Backend

variable {α : Type} {b : Backend} {sites : List Site} {x : Site} {o : DashboardOptions}
  {now : Instant}

theorem IsRegular.fst_dashboard (h : b.IsRegular sites) (hx : x ∈ sites)
    (hsite : o.site = .number x.id) (hteam : o.team = x.team) {r : DateRange}
    (hr : o.applied now b.windowDays = .ok r) :
    b.Answers x (.ok (.empty (.over (some r) none o.offset o.limit)))
      (·.dashboard (.over (some r) none o.offset o.limit)) (b.dashboard now o).1 := by
  rw [h.dashboard_eq, o.filters_eq, hr, hsite, hteam]
  exact h.dashboard hx _

/-- A dashboard that is answered is that of the rows of the site. -/
theorem IsRegular.of_dashboard (h : b.IsRegular sites) (hx : x ∈ sites)
    (hsite : o.site = .number x.id) (hteam : o.team = x.team) {d : DashboardRows} {pauses : Nat}
    (hd : (b.dashboard now o).1 = .done (.ok d) pauses) :
    o.applied now b.windowDays = .ok d.range ∧
      d = (b.rowsFor x).overview d.range o.offset o.limit := by
  cases hr : o.applied now b.windowDays with
  | error e =>
    rw [h.dashboard_eq, o.filters_eq, hr] at hd
    cases hd
  | ok r =>
    have ha := h.fst_dashboard hx hsite hteam hr
    generalize (b.dashboard now o).1 = w at ha hd
    cases ha with
    | absent hnil =>
      rw [hnil, ← Table.overview_nil] at *
      cases hd
      exact ⟨rfl, rfl⟩
    | known =>
      rw [Table.dashboard_over] at hd
      split at hd
      · cases hd
        exact ⟨rfl, rfl⟩
      · cases hd
    | unknown => cases hd

theorem IsRegular.of_hasAny (h : b.IsRegular sites) (hx : x ∈ sites) {any : Bool} {pauses : Nat}
    (hd : (b.hasAny (.of (.number x.id) x.team)).1 = .done (.ok any) pauses) :
    any = true ↔ ∃ e, e ∈ b.rowsFor x := by
  have ha := h.hasAny hx
  generalize (b.hasAny (.of (.number x.id) x.team)).1 = w at ha hd
  cases ha with
  | absent hnil =>
    cases hd
    simp [hnil]
  | known =>
    cases hd
    rw [← List.isEmpty_eq_false_iff_exists_mem, Bool.not_eq_true']
  | unknown => cases hd

/-- The rows of each site bear its number and its team. -/
def IsLabelled (sites : List Site) (b : Backend) : Prop :=
  ∀ x ∈ sites, ∀ e ∈ b.rowsFor x, e.site = x.id ∧ e.team = some x.team

theorem IsLabelled.insertAll (hl : b.IsLabelled sites) (h : b.IsRegular sites)
    (hids : (sites.map (·.id)).Nodup) {p : Service.Parcel} (hp : Service.IsParcel sites p)
    (now : Instant) : (b.insertAll now p.2).2.IsLabelled sites := by
  obtain ⟨result, b', rows, hi, -, hother, hrows, ha⟩ := h.insertAll hids hp now
  rw [hi]
  intro y hy e he
  by_cases hyp : y = p.1
  · subst hyp
    rcases ha.mem he with he | he
    · exact hl p.1 hy e he
    · rcases hrows with ⟨-, rfl⟩ | ⟨id, rfl⟩
      · cases he
      · exact ⟨(hp.tenant_of_mem_rows he).2.1, (hp.tenant_of_mem_rows he).2.2.1⟩
  · exact hl y hy e (hother y hy hyp ▸ he)

end Backend

/-- The two ways in which a request names a site. -/
inductive Site.IsNamed (x : Site) : Value → Value → Prop
  | number : IsNamed x (.int x.id) .null
  | tag : IsNamed x .null (.text x.tag)

namespace Service

variable {s s' : Service} {sites : List Site} {x : Site} {t : Tenant} {o : DashboardOptions}
  {now : Instant} {d : Dashboard} {rows : DashboardRows} {pauses : Nat}

theorem backend_onBackend_insertAll {P : Backend → Prop} (kind : StorageKind) (p : Parcel)
    (hsame : p.1.storage = kind →
      P ((s.dispatcher.backend kind).insertAll now p.2).2)
    (hother : P (s.dispatcher.backend kind)) :
    P ((s.onBackend p.1.storage (·.insertAll now p.2)).2.dispatcher.backend kind) := by
  by_cases hk : p.1.storage = kind
  · subst hk
    simpa [onBackend] using hsame rfl
  · simpa [onBackend, Dispatcher.backend_save_of_ne _ _ hk] using hother

theorem isKept_windowDays (sites : List Site) (kind : StorageKind) (days : Value) :
    IsKept sites fun s ↦ (s.dispatcher.backend kind).windowDays = days where
  idles _ hs hi := (hi.backend kind).frame.1.trans hs
  insertAll now _ hs _ := backend_onBackend_insertAll (P := (·.windowDays = days)) kind _
    (fun _ ↦ (Backend.frame_insertAll _ now _).1.trans hs) hs

theorem isKept_isLabelled (hids : (sites.map (·.id)).Nodup) (kind : StorageKind) :
    IsKept sites fun s ↦ (s.dispatcher.backend kind).IsLabelled sites where
  idles h hs hi y hy e he :=
    hs y hy e (((h.backend kind).idles (hi.backend kind)).2.1 y ▸ he)
  insertAll now h hs hp := backend_onBackend_insertAll (P := (·.IsLabelled sites)) kind _
    (fun _ ↦ hs.insertAll (h.backend kind) hids hp now) hs

theorem isKept_timeout (sites : List Site) (l : TimeLimit) :
    IsKept sites fun s ↦ s.timeout = l where
  idles _ hs hi := hi.timeout.trans hs
  insertAll _ _ hs _ := hs

/-- What a backend answers at once is answered within the time limit. -/
theorem Reaches.exists_under {α : Type} (hr : s.Reaches x) {empty a : α}
    {q : Table → Except Failure α} {w : Work α}
    (hw : (s.dispatcher.backend x.storage).Answers x (.ok empty) q w)
    (hq : q ((s.dispatcher.backend x.storage).rowsFor x) = .ok a) :
    ∃ a pauses, w.under s.timeout = .done (.ok a) pauses := by
  have hunder (a : α) (pauses : Nat) :
      (Work.done (.ok a) pauses).under s.timeout = .done (.ok a) pauses := by
    simp [Work.under, hr.start, hr.prompt]
  cases hw with
  | absent => exact ⟨empty, 0, hunder ..⟩
  | known =>
    rw [hq]
    exact ⟨a, _, hunder ..⟩
  | unknown knows => exact absurd hr.knows knows

theorem shows_dashboardOf (ht : t.owns x = true) {table : Table} {any : Bool}
    (hrows : rows = table.overview rows.range o.offset o.limit)
    (hany : any = true ↔ ∃ e, e ∈ table) :
    (dashboardOf x t rows any).Shows x table o.offset o.limit where
  site := rfl
  team := (Tenant.team_of_owns ht).symm
  pagination := by
    rw [List.countP_eq_length_filter]
    exact congrArg DashboardRows.pagination hrows
  rows := congrArg DashboardRows.rows hrows
  allTime := congrArg DashboardRows.allTime hrows
  hasEvents := hany

theorem of_bareDashboard (hd : (s.bareDashboard t x rows).1 = .done (.ok d) pauses) :
    ∃ any pauses, (s.timed t.storage (·.hasAny (.of (.number x.id) t.team))).1 =
      .done (.ok any) pauses ∧ d = dashboardOf x t rows any := by
  unfold bareDashboard at hd
  generalize s.timed t.storage (·.hasAny (.of (.number x.id) t.team)) = p at hd ⊢
  obtain ⟨w, s'⟩ := p
  rcases w with ⟨_ | any, pauses⟩ | _
  · cases hd
  · cases hd
    exact ⟨any, pauses, rfl, rfl⟩
  · cases hd

/-- A dashboard that is answered shows the rows of its site. If it has none the storage is asked
once more, and has none. -/
theorem IsRegular.shows_ownDashboard (h : s.IsRegular sites) (hx : x ∈ sites)
    (ht : t.owns x = true) (hsite : o.site = .number x.id) (hteam : o.team = t.team)
    (hd : (s.ownDashboard now t x o).1 = .done (.ok d) pauses) :
    o.applied now (s.dispatcher.backend t.storage).windowDays = .ok d.range ∧
      d.Shows x ((s.dispatcher.backend t.storage).rowsFor x) o.offset o.limit := by
  have hown := Tenant.team_of_owns ht
  have hidles := idles_timed s t.storage (f := (·.dashboard now o))
    (Backend.idles_dashboard (h.backend t.storage).isSound now o)
  have hfst := fst_timed s t.storage (·.dashboard now o)
  rw [ownDashboard_eq] at hd
  generalize s.timed t.storage (·.dashboard now o) = p at hidles hfst hd
  obtain ⟨w, s'⟩ := p
  rcases w with ⟨_ | rows, pauses'⟩ | _
  · cases hd
  · obtain ⟨happlied, hrows⟩ := (h.backend t.storage).of_dashboard hx hsite (hteam.trans hown.symm)
      (Work.of_under_eq_ok hfst.symm)
    simp only at hd
    split at hd
    · rename_i hpos
      cases hd
      refine ⟨happlied, shows_dashboardOf ht hrows ⟨fun _ ↦ ?_, fun _ ↦ rfl⟩⟩
      rw [hrows] at hpos
      exact List.exists_mem_of_length_pos (Int.natCast_pos.1 hpos)
    · obtain ⟨any, pauses'', hany, rfl⟩ := of_bareDashboard hd
      obtain ⟨hreg, hsame, -⟩ := (h.backend t.storage).idles (hidles.backend t.storage)
      rw [fst_timed, ← hown] at hany
      exact ⟨happlied, shows_dashboardOf ht hrows
        (hsame x ▸ hreg.of_hasAny hx (Work.of_under_eq_ok hany))⟩
  · cases hd

/-- A dashboard is answered if the deadline leaves time, the storage can be asked for the site, the
page fits, and the window lies in the calendar. -/
theorem IsRegular.exists_ownDashboard (h : s.IsRegular sites) (hx : x ∈ sites)
    (ht : t.owns x = true) (hst : t.storage = x.storage) (hr : s.Reaches x)
    (hsite : o.site = .number x.id) (hteam : o.team = t.team)
    (hfits : Table.fitsPage o.offset o.limit = true) {r : DateRange}
    (happlied : o.applied now (s.dispatcher.backend t.storage).windowDays = .ok r) :
    ∃ d pauses, (s.ownDashboard now t x o).1 = .done (.ok d) pauses := by
  have hown := Tenant.team_of_owns ht
  have hidles := idles_timed s t.storage (f := (·.dashboard now o))
    (Backend.idles_dashboard (h.backend t.storage).isSound now o)
  obtain ⟨rows, pauses, hrows⟩ := hr.exists_under
    (hst ▸ (h.backend t.storage).fst_dashboard hx hsite (hteam.trans hown.symm) happlied)
    (by rw [Table.dashboard_over, if_pos hfits])
  rw [← hst, ← fst_timed s t.storage (·.dashboard now o)] at hrows
  rw [ownDashboard_eq]
  generalize s.timed t.storage (·.dashboard now o) = p at hidles hrows ⊢
  obtain ⟨w, s'⟩ := p
  obtain rfl : w = .done (.ok rows) pauses := hrows
  simp only
  split
  · exact ⟨_, _, rfl⟩
  · have hreg := ((h.backend x.storage).idles (hidles.backend x.storage)).1
    obtain ⟨any, pauses', hany⟩ := (hr.idles (h.backend _) hidles).exists_under
      (hreg.hasAny hx) rfl
    rw [hown, ← hst, ← fst_timed s' t.storage (·.hasAny (.of (.number x.id) t.team))] at hany
    unfold bareDashboard
    generalize s'.timed t.storage (·.hasAny (.of (.number x.id) t.team)) = p at hany ⊢
    obtain ⟨w', s''⟩ := p
    obtain rfl : w' = .done (.ok any) pauses' := hany
    exact ⟨_, _, rfl⟩

theorem siteFor_isNamed (hs : s.directory = .ofSites sites) (hids : (sites.map (·.id)).Nodup)
    (htags : (sites.map (·.tag)).Nodup) (hx : x ∈ sites) (ht : t.owns x = true)
    {number tag : Value} (hn : x.IsNamed number tag) : s.siteFor t number tag = .ok x := by
  cases hn with
  | number => rw [siteFor_number hs hids hx, if_pos ht]
  | tag => rw [siteFor_tag hs htags hx, if_pos ht]

/-- Whatever calls have been made, the events of a site are under its number and team, and a dashboard
of it shows those in the range that it names, which is the one asked for if that has a bound. It is
answered if the deadline leaves time, the numbers fit, and the window lies in the calendar. -/
theorem dashboard_shows (sites : List Site) (hids : (sites.map (·.id)).Nodup)
    (htags : (sites.map (·.tag)).Nodup) (d : Dispatcher) (hd : ∀ kind, (d.backend kind).IsNew)
    (l : TimeLimit) (calls : List (Instant × Call)) (x : Site) (hx : x ∈ sites) :
    (∀ e ∈ ((run ⟨d, .ofSites sites, l⟩ calls).2.dispatcher.backend x.storage).rowsFor x,
      e.site = x.id ∧ e.team = some x.team) ∧
    ∀ t : Tenant, t.owns x = true → t.storage = x.storage → ∀ number tag : Value,
      x.IsNamed number tag → ∀ (range : Option DateRange) (limit offset : Value)
      (o : DashboardOptions), dashboardOptions x t (range.getD {}) limit offset = .ok o →
      ∀ now : Instant,
        (∀ dash pauses, ((run ⟨d, .ofSites sites, l⟩ calls).2.dashboard now t number tag range limit
            offset).1 = .done (.ok dash) pauses →
          dash.IsOver (range.getD {}) now (d.backend x.storage).windowDays ∧
          dash.Shows x (((run ⟨d, .ofSites sites, l⟩ calls).2.dispatcher.backend
            x.storage).rowsFor x) o.offset o.limit) ∧
        (l.start = .ok () → l.passesAtOnce = false → Server.Knows x →
          Table.fitsPage o.offset o.limit = true →
          ((range.getD {}).isUnbounded = true →
            ∃ start, now.daysBefore (d.backend x.storage).windowDays = .ok start) →
          ∃ dash pauses, ((run ⟨d, .ofSites sites, l⟩ calls).2.dashboard now t number tag range
            limit offset).1 = .done (.ok dash) pauses) := by
  have hstart := IsRegular.of_isNew hd sites l
  obtain ⟨h, hlabelled⟩ := hstart.run_kept hids (isKept_isLabelled hids x.storage)
    (fun y _ e he ↦ by rw [((hd x.storage).isRegular sites).2 y] at he; cases he) calls
  have hdays := (hstart.run_kept hids (isKept_windowDays sites x.storage _) rfl calls).2
  have htimeout := (hstart.run_kept hids (isKept_timeout sites l) rfl calls).2
  generalize (run ⟨d, .ofSites sites, l⟩ calls).2 = s at h hlabelled hdays htimeout ⊢
  refine ⟨hlabelled x hx, fun t ht hst number tag hn range limit offset o ho now ↦ ?_⟩
  obtain ⟨hsite, hteam, hrange⟩ := of_dashboardOptions ho
  have hown : s.dashboard now t number tag range limit offset = s.ownDashboard now t x o := by
    simp only [Service.dashboard, siteFor_isNamed h.directory hids htags hx ht hn, ho]
  rw [hown]
  change (s.dispatcher.backend x.storage).windowDays = (d.backend x.storage).windowDays at hdays
  rw [← hdays]
  constructor
  · intro dash pauses hdash
    obtain ⟨happlied, hshows⟩ := h.shows_ownDashboard hx ht hsite hteam hdash
    rw [hst] at happlied hshows
    exact ⟨Dashboard.isOver_of_applied hrange happlied, hshows⟩
  · intro hs hp hk hfits hwindow
    obtain ⟨r, happlied⟩ := DashboardOptions.exists_applied hrange hwindow
    exact h.exists_ownDashboard hx ht hst
      ⟨htimeout ▸ hs, htimeout ▸ hp, Backend.knows_of_knows hk⟩ hsite hteam hfits (hst ▸ happlied)

/-- The dashboard of the second site ten days after the first event, by its tag and without a range. -/
theorem dashboard_shows_someCalls :
    (twoSites.map (·.id)).Nodup ∧ (twoSites.map (·.tag)).Nodup ∧
    ∃ dash pauses, ((run ⟨twoKinds, .ofSites twoSites, {}⟩ someCalls).2.dashboard
        ⟨10 * Instant.dayLength⟩ ⟨20, .postgres, []⟩ .null (.text "b") none (.int 5) (.int 0)).1 =
          .done (.ok dash) pauses ∧
      dash.IsOver {} ⟨10 * Instant.dayLength⟩ (.int 7) ∧
      dash.Shows ⟨2, 20, "b", none, none, .postgres⟩
        (((run ⟨twoKinds, .ofSites twoSites, {}⟩ someCalls).2.dispatcher.backend
          .postgres).rowsFor ⟨2, 20, "b", none, none, .postgres⟩) 0 5 := by
  have hids : (twoSites.map (·.id)).Nodup := by decide
  have htags : (twoSites.map (·.tag)).Nodup := by decide
  obtain ⟨hshows, hanswered⟩ := (dashboard_shows twoSites hids htags twoKinds isNew_twoKinds {}
    someCalls ⟨2, 20, "b", none, none, .postgres⟩ (by simp [twoSites])).2 ⟨20, .postgres, []⟩
    (by decide) rfl _ _ .tag none (.int 5) (.int 0) ⟨.number 2, 20, some {}, 5, 0⟩ rfl
    ⟨10 * Instant.dayLength⟩
  obtain ⟨dash, pauses, hdash⟩ := hanswered rfl rfl (by decide) (by decide) fun _ ↦ ⟨_, rfl⟩
  exact ⟨hids, htags, dash, pauses, hdash, hshows dash pauses hdash⟩

end Service

end Footfall
