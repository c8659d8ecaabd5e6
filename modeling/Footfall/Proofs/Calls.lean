import Footfall.Proofs.Reading
import Footfall.Service.Basic

/-!
Runs of the service: calls that store events and calls that read, each at a time of its own and on
behalf of any tenant. A call that reads leaves all backends as they are, but for stores that are
opened.
-/

namespace Footfall

namespace Work

variable {α β : Type}

def map (f : α → β) : Work α → Work β
  | .done r pauses => .done (r.map f) pauses
  | .unending => .unending

/-- The failure that the work ends with. -/
def failure? : Work α → Option Failure
  | .done (.error e) _ => some e
  | _ => none

/-- A deadline lets finished work be, unless there was no time to begin or it passes at once. -/
theorem under_cases (l : TimeLimit) (r : Except Failure α) (pauses : Nat) :
    (∃ e, l.start = .error e ∧ under l (done r pauses) = .done (.error e)) ∨
      (l.start = .ok () ∧ (l.passesAtOnce && decide (promptPauses < pauses)) = true ∧
        under l (done r pauses) = .done (.error (.deadline l.seconds))) ∨
      l.start = .ok () ∧ (l.passesAtOnce && decide (promptPauses < pauses)) = false ∧
        under l (done r pauses) = done r pauses := by
  cases hs : l.start with
  | error e => exact .inl ⟨e, rfl, by simp only [under, hs]⟩
  | ok u =>
    cases hp : l.passesAtOnce && decide (promptPauses < pauses) with
    | true => exact .inr (.inl ⟨rfl, rfl, by simp only [under, hs, hp, if_true]⟩)
    | false =>
      exact .inr (.inr ⟨rfl, rfl, by simp only [under, hs, hp, Bool.false_eq_true, if_false]⟩)

end Work

namespace Backend

variable {α : Type} {b b' b'' : Backend}

/-- The stores of the backend can be relied on. -/
def IsSound (b : Backend) : Prop := ∀ r, b.engine = .embedded r → r.IsSound

/-- A backend after it has been read from: stores may have been opened. -/
def Idles (b b' : Backend) : Prop :=
  b' = b ∨ ∃ r r', b.engine = .embedded r ∧ r.Opens r' ∧ b' = { b with engine := .embedded r' }

theorem Idles.isSound (h : b.Idles b') (hb : b.IsSound) : b'.IsSound := by
  rcases h with rfl | ⟨r, r', -, ho, rfl⟩
  · exact hb
  · intro r'' hr''
    cases hr''
    exact ho.isSound

theorem Idles.trans (h : b.Idles b') (h' : b'.Idles b'') : b.Idles b'' := by
  rcases h with rfl | ⟨r, r', hr, ho, rfl⟩
  · exact h'
  · rcases h' with rfl | ⟨r₁, r'', hr₁, ho', rfl⟩
    · exact .inr ⟨r, r', hr, ho, rfl⟩
    · cases hr₁
      exact .inr ⟨r, r'', hr, ho.trans ho', rfl⟩

theorem idles_read (hb : b.IsSound) {own : Connection → Except Failure α × Connection}
    (hown : Connection.Idle own) (s : Scope) (empty : Except Failure α)
    (check : Except Failure Unit) (shared : Server → Except Failure α) :
    b.Idles (b.read s empty check own shared).2 := by
  cases he : b.engine with
  | embedded r =>
    rw [read_embedded he]
    exact .inr ⟨r, _, he, Registry.opens_read hown (hb r he) _ _, rfl⟩
  | _ => exact .inl (by simp [Backend.read, he])

theorem idles_dashboard (hb : b.IsSound) (now : Instant) (o : DashboardOptions) :
    b.Idles (b.dashboard now o).2 := by
  cases he : b.engine with
  | embedded r =>
    rw [dashboard_embedded he]
    cases o.filters now b.windowDays with
    | error f => exact .inl rfl
    | ok f =>
      exact .inr ⟨r, _, he, Registry.opens_read (reads_ownDashboard f).idle (hb r he) _ _, rfl⟩
  | stalled => exact .inl (by simp [dashboard, he])
  | failing e => exact .inl (by simp [dashboard, he])
  | _ =>
    refine .inl ?_
    unfold dashboard
    rw [he]
    cases o.filters now b.windowDays <;> simp [Backend.read, he]

end Backend

namespace Service

variable {α : Type} {s s' s'' : Service}

inductive Call
  | ingest (payload : Value)
  | ingestMany (payloads : List Value)
  | list (t : Tenant) (site : Value) (f : EventFilters)
  | dashboard (t : Tenant) (number tag : Value) (range : Option DateRange) (limit offset : Value)
  | stats (t : Tenant) (site : Value) (range : Option DateRange)
  | summary (t : Tenant) (site : Value) (o : SummaryOptions)
  | series (t : Tenant) (site : Value) (range : Option DateRange) (g : Granularity)
      (byEvent : Value)
  | widget (t : Tenant) (site : Value) (w : Widget) (f : Option WidgetFilters)

inductive Answer
  | event (e : Option StoredEvent)
  | events (es : List StoredEvent)
  | page (p : EventPage)
  | dashboard (d : Dashboard)
  | stats (s : SiteStats)
  | summary (s : Summary)
  | series (s : TimeSeries)
  | widget (d : WidgetData)

/-- The events that a call has stored. -/
def Answer.stored : Answer → List StoredEvent
  | event e => e.toList
  | events es => es
  | _ => []

def perform (s : Service) (now : Instant) : Call → Work Answer × Service
  | .ingest payload => (.done ((s.ingest now payload).1.map .event), (s.ingest now payload).2)
  | .ingestMany payloads =>
    (.done ((s.ingestMany now payloads).1.map .events), (s.ingestMany now payloads).2)
  | .list t site f => ((s.list t site f).1.map .page, (s.list t site f).2)
  | .dashboard t number tag range limit offset =>
    ((s.dashboard now t number tag range limit offset).1.map .dashboard,
      (s.dashboard now t number tag range limit offset).2)
  | .stats t site range => ((s.stats t site range).1.map .stats, (s.stats t site range).2)
  | .summary t site o => ((s.summary t site o).1.map .summary, (s.summary t site o).2)
  | .series t site range g byEvent =>
    ((s.series t site range g byEvent).1.map .series, (s.series t site range g byEvent).2)
  | .widget t site w f => ((s.widget t site w f).1.map .widget, (s.widget t site w f).2)

/-- Makes calls one after the other, each at its time. -/
def run (s : Service) : List (Instant × Call) → List (Work Answer) × Service
  | [] => ([], s)
  | (now, call) :: rest =>
    ((s.perform now call).1 :: (run (s.perform now call).2 rest).1,
      (run (s.perform now call).2 rest).2)

/-- The backends can be relied on. -/
def IsSound (s : Service) : Prop := ∀ kind, (s.dispatcher.backend kind).IsSound

/-- The service after its backends have been read from. -/
structure Idles (s s' : Service) : Prop where
  directory : s'.directory = s.directory
  timeout : s'.timeout = s.timeout
  backend (kind : StorageKind) : (s.dispatcher.backend kind).Idles (s'.dispatcher.backend kind)

theorem Idles.refl (s : Service) : s.Idles s := ⟨rfl, rfl, fun _ ↦ .inl rfl⟩

theorem Idles.isSound (h : s.Idles s') (hs : s.IsSound) : s'.IsSound :=
  fun kind ↦ (h.backend kind).isSound (hs kind)

theorem Idles.trans (h : s.Idles s') (h' : s'.Idles s'') : s.Idles s'' :=
  ⟨h'.directory.trans h.directory, h'.timeout.trans h.timeout,
    fun kind ↦ (h.backend kind).trans (h'.backend kind)⟩

theorem fst_timed (s : Service) (kind : StorageKind) (f : Backend → Work α × Backend) :
    (s.timed kind f).1 = (f (s.dispatcher.backend kind)).1.under s.timeout := by
  unfold timed
  cases hs : s.timeout.start with
  | error e => simp [Work.under, hs]
  | ok u => simp [onBackend]

theorem idles_timed (s : Service) (kind : StorageKind) {f : Backend → Work α × Backend}
    (hf : (s.dispatcher.backend kind).Idles (f (s.dispatcher.backend kind)).2) :
    s.Idles (s.timed kind f).2 := by
  unfold timed
  cases s.timeout.start with
  | error e => exact .refl s
  | ok u =>
    refine ⟨rfl, rfl, fun other ↦ ?_⟩
    by_cases h : kind = other
    · subst h
      simpa [onBackend] using hf
    · exact .inl (by simp [onBackend, Dispatcher.backend_save_of_ne _ _ h])

theorem idles_read (s : Service) (t : Tenant) (site : Value) (empty : Except Failure α)
    {f : Scope → Backend → Work α × Backend}
    (hf : ∀ scope, (s.dispatcher.backend t.storage).Idles
      (f scope (s.dispatcher.backend t.storage)).2) :
    s.Idles (s.read t site empty f).2 := by
  unfold read
  split
  · exact .refl s
  · exact .refl s
  · exact idles_timed s _ (hf _)

theorem of_dashboardOptions {x : Site} {t : Tenant} {range : DateRange} {limit offset : Value}
    {o : DashboardOptions} (h : dashboardOptions x t range limit offset = .ok o) :
    o.site = .number x.id ∧ o.team = t.team ∧ o.range = some range := by
  unfold dashboardOptions at h
  simp only [Functor.map, Seq.seq] at h
  generalize Field.required _ "limit" _ = r at h
  generalize Field.required _ "offset" _ = r' at h
  cases r <;> cases r' <;> simp only [Reading.map, Reading.seq, Reading.get] at h <;> cases h
  exact ⟨rfl, rfl, rfl⟩

/-- The dashboard of a site without rows, once the storage has been asked whether it has ever had
one. -/
def bareDashboard (s : Service) (t : Tenant) (site : Site) (d : DashboardRows) :
    Work Dashboard × Service :=
  match s.timed t.storage (·.hasAny (.of (.number site.id) t.team)) with
  | (.unending, s) => (.unending, s)
  | (.done r _, s) => (.done (r.map (dashboardOf site t d)), s)

theorem ownDashboard_eq (s : Service) (now : Instant) (t : Tenant) (site : Site)
    (o : DashboardOptions) :
    s.ownDashboard now t site o = match s.timed t.storage (·.dashboard now o) with
      | (.unending, s) => (.unending, s)
      | (.done (.error e) _, s) => (.done (.error e), s)
      | (.done (.ok d) _, s) =>
        if 0 < d.allTime then (.done (.ok (dashboardOf site t d true)), s)
        else s.bareDashboard t site d := rfl

theorem idles_bareDashboard (hs : s.IsSound) (t : Tenant) (site : Site) (d : DashboardRows) :
    s.Idles (s.bareDashboard t site d).2 := by
  have ha := idles_timed s t.storage (f := (·.hasAny (.of (.number site.id) t.team)))
    (Backend.idles_read (hs t.storage) Connection.reads_hasEvents.idle ..)
  unfold bareDashboard
  rcases hw : s.timed t.storage (·.hasAny (.of (.number site.id) t.team)) with ⟨w, s'⟩
  rw [hw] at ha
  cases w <;> exact ha

theorem idles_ownDashboard (hs : s.IsSound) (now : Instant) (t : Tenant) (site : Site)
    (o : DashboardOptions) : s.Idles (s.ownDashboard now t site o).2 := by
  have hd := idles_timed s t.storage (f := (·.dashboard now o))
    (Backend.idles_dashboard (hs t.storage) now o)
  rw [ownDashboard_eq]
  rcases hw : s.timed t.storage (·.dashboard now o) with ⟨w, s'⟩
  rw [hw] at hd
  rcases w with ⟨e | d, pauses⟩ | _
  · exact hd
  · simp only
    split
    · exact hd
    · exact hd.trans (idles_bareDashboard (hd.isSound hs) t site d)
  · exact hd

theorem idles_dashboard (hs : s.IsSound) (now : Instant) (t : Tenant) (number tag : Value)
    (range : Option DateRange) (limit offset : Value) :
    s.Idles (s.dashboard now t number tag range limit offset).2 := by
  unfold dashboard
  simp only
  split
  · exact .refl s
  · exact .refl s
  · split
    · exact .refl s
    · exact idles_ownDashboard hs ..

theorem idles_widget (hs : s.IsSound) (t : Tenant) (site : Value) (w : Widget)
    (f : Option WidgetFilters) : s.Idles (s.widget t site w f).2 := by
  unfold widget
  cases s.siteFor t site .null with
  | error e => exact .refl s
  | ok x =>
    simp only
    cases (s.dispatcher.backend t.storage).compile (.of (.number x.id) t.team) w f with
    | error e => exact .refl s
    | ok q =>
      have hq := idles_timed s t.storage
        (f := (·.run (.of (.number x.id) t.team) (.chart q) .null))
        (Backend.idles_read (hs t.storage) (Connection.idle_run (.chart q) .null) ..)
      rcases hw : s.timed t.storage (·.run (.of (.number x.id) t.team) (.chart q) .null) with
        ⟨v, s'⟩
      rw [hw] at hq
      cases v <;> simpa only [hw] using hq

/-- The calls that store nothing. -/
def Call.isRead : Call → Bool
  | .ingest _ | .ingestMany _ => false
  | _ => true

theorem idles_perform (hs : s.IsSound) (now : Instant) {call : Call} (hc : call.isRead = true) :
    s.Idles (s.perform now call).2 := by
  cases call with
  | ingest payload => cases hc
  | ingestMany payloads => cases hc
  | list t site f =>
    exact idles_read s t site _ (f := fun scope b ↦ b.list scope f) fun scope ↦
      Backend.idles_read (hs t.storage) (Connection.reads_list f).idle ..
  | dashboard t number tag range limit offset => exact idles_dashboard hs ..
  | stats t site range =>
    exact idles_read s t site _ (f := fun scope b ↦ b.stats scope range) fun scope ↦
      Backend.idles_read (hs t.storage) (Connection.reads_stats range).idle ..
  | summary t site o =>
    exact idles_read s t site _ (f := fun scope b ↦ b.summary scope o) fun scope ↦
      Backend.idles_read (hs t.storage) (Connection.reads_summary o).idle ..
  | series t site range g byEvent =>
    exact idles_read s t site _ (f := fun scope b ↦ b.series scope range g byEvent) fun scope ↦
      Backend.idles_read (hs t.storage) (Connection.reads_series range g byEvent).idle ..
  | widget t site w f => exact idles_widget hs ..

end Service

end Footfall
