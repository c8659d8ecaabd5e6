import Footfall.Proofs.Agreement
import Footfall.Proofs.Delivery

/-!
The storage is transparent. Whether the events of a kind are in stores of their own or in a table that
is shared, callers get the same answers but for the numbers of events, as long as no storage fails.
-/

namespace Footfall

def Dashboard.withoutIds (d : Dashboard) : Dashboard :=
  { d with rows := d.rows.map StoredEvent.withoutId }

namespace Dispatcher

/-- New embedded stores for a kind. -/
def withStores (d : Dispatcher) (kind : StorageKind) (days : Value) (persistent : Bool)
    (maxRows : Value) : Dispatcher :=
  d.save kind ⟨kind, days, .embedded { persistent := persistent, maxRows := maxRows }⟩

/-- A new table for a kind, which all teams share. -/
def withTable (d : Dispatcher) (kind : StorageKind) (days : Value) (dialect : Report.Dialect)
    (maxRows : Value) : Dispatcher :=
  d.save kind ⟨kind, days, .server { dialect := dialect, maxRows := maxRows }⟩

end Dispatcher

namespace Service

variable {α β : Type} {s s' : Service} {kind : StorageKind} {sites : List Site} {l : TimeLimit}
  {x : Site}

def Answer.withoutIds : Answer → Answer
  | .event e => .event (e.map StoredEvent.withoutId)
  | .events es => .events (es.map StoredEvent.withoutId)
  | .page p => .page p.withoutIds
  | .dashboard d => .dashboard d.withoutIds
  | a => a

/-- What a caller gets, but for the numbers of events. -/
def answer (w : Work Answer) : Option (Except Failure Answer) := (w.map Answer.withoutIds).outcome

/-- The services differ in the backend of one kind at most, and there in the numbers of rows. -/
structure Mirrors (kind : StorageKind) (sites : List Site) (l : TimeLimit) (s s' : Service) :
    Prop where
  directory : s.directory = .ofSites sites
  timeout : s.timeout = l
  same : s'.directory = s.directory ∧ s'.timeout = s.timeout
  backend : Backend.Alike sites (s.dispatcher.backend kind) (s'.dispatcher.backend kind)
  others : ∀ k, k ≠ kind → s'.dispatcher.backend k = s.dispatcher.backend k

namespace Mirrors

theorem onBackend (h : Mirrors kind sites l s s') (k : StorageKind) {f : Backend → α × Backend}
    (hf : k = kind → Backend.Alike sites (f (s.dispatcher.backend kind)).2
      (f (s'.dispatcher.backend kind)).2) :
    Mirrors kind sites l (s.onBackend k f).2 (s'.onBackend k f).2 := by
  refine ⟨h.directory, h.timeout, h.same, ?_, fun k' hk' ↦ ?_⟩
  · by_cases hk : k = kind
    · subst hk
      simpa [Service.onBackend] using hf rfl
    · simpa [Service.onBackend, Dispatcher.backend_save_of_ne _ _ hk] using h.backend
  · by_cases hk : k = k'
    · subst hk
      simp [Service.onBackend, h.others k hk']
    · simp [Service.onBackend, Dispatcher.backend_save_of_ne _ _ hk, h.others k' hk']

theorem fst_onBackend (h : Mirrors kind sites l s s') {k : StorageKind} (hk : k ≠ kind)
    (f : Backend → α × Backend) : (s'.onBackend k f).1 = (s.onBackend k f).1 := by
  simp [Service.onBackend, h.others k hk]

theorem timed (h : Mirrors kind sites l s s') (k : StorageKind) {f : Backend → Work α × Backend}
    (hf : ∀ b : Backend, b.IsSound → b.Idles (f b).2) :
    Mirrors kind sites l (s.timed k f).2 (s'.timed k f).2 := by
  unfold Service.timed
  rw [h.same.2]
  cases s.timeout.start with
  | error e => exact h
  | ok u =>
    exact h.onBackend k fun _ ↦ h.backend.idles (hf _ h.backend.left.isSound)
      (hf _ h.backend.right.isSound)

/-- What the backends are asked about the rows of a site is answered alike. -/
theorem agree_timed (h : Mirrors kind sites l s s') (hx : x ∈ sites) {k : StorageKind}
    {f : Backend → Work α × Backend} {empty : Except Failure α} {q : Table → Except Failure α}
    (hf : ∀ b : Backend, b.IsRegular sites →
      b.windowDays = (s.dispatcher.backend kind).windowDays → b.Answers x empty q (f b).1)
    {g : α → β} (hq : ∀ t u, Table.Alike t u → (q t).map g = (q u).map g)
    (hempty : q [] = empty ∨ q [] = .error (.fault .hugeForStore))
    (hw : (s.timed k f).1.IsServed l) (hv : (s'.timed k f).1.IsServed l) :
    Work.Agree g (s.timed k f).1 (s'.timed k f).1 := by
  rw [fst_timed, h.timeout] at hw ⊢
  rw [fst_timed, h.same.2, h.timeout] at hv ⊢
  by_cases hk : k = kind
  · subst hk
    exact (hf _ h.backend.left rfl).agree (hf _ h.backend.right h.backend.windowDays.symm)
      (h.backend.rows x hx) hq hempty hw hv
  · rw [h.others k hk]
    exact .refl _ _

theorem siteFor_eq (h : Mirrors kind sites l s s') (t : Tenant) (number tag : Value) :
    s'.siteFor t number tag = s.siteFor t number tag := by
  simp only [siteFor, h.same.1]

end Mirrors

def Call.isWidget : Call → Bool
  | .widget .. => true
  | _ => false

/-- What a call answers in one service it answers in the other, and both remain alike. -/
def MirrorsCall (kind : StorageKind) (sites : List Site) (l : TimeLimit) (s s' : Service)
    (now : Instant) (call : Call) : Prop :=
  (s.perform now call).1.IsServed l → (s'.perform now call).1.IsServed l →
    Work.Agree Answer.withoutIds (s.perform now call).1 (s'.perform now call).1 ∧
      Mirrors kind sites l (s.perform now call).2 (s'.perform now call).2

namespace Mirrors

/-- A call that reads a site by its number. -/
theorem read (h : Mirrors kind sites l s s') {now : Instant} {call : Call} {t : Tenant}
    {site : Value} {empty : Except Failure α} {f : Scope → Backend → Work α × Backend}
    {a : α → Answer} (hcall : ∀ s : Service, s.perform now call =
      ((s.read t site empty f).1.map a, (s.read t site empty f).2))
    {g : α → α} (hg : ∀ r, (a r).withoutIds = a (g r)) {q : Table → Except Failure α}
    (hidles : ∀ scope, ∀ b : Backend, b.IsSound → b.Idles (f scope b).2)
    (hf : ∀ x ∈ sites, ∀ b : Backend, b.IsRegular sites →
      b.Answers x empty q (f (.of (.number x.id) x.team) b).1)
    (hq : ∀ t u, Table.Alike t u → (q t).map g = (q u).map g)
    (hempty : q [] = empty ∨ q [] = .error (.fault .hugeForStore)) :
    MirrorsCall kind sites l s s' now call := by
  intro hw hv
  rw [hcall] at hw hv ⊢
  rw [hcall]
  rw [Work.isServed_map] at hw hv
  unfold Service.read at hw hv ⊢
  rw [h.siteFor_eq] at hv ⊢
  cases hx : s.siteFor t site .null with
  | error e => cases e <;> exact ⟨.refl _ _, h⟩
  | ok x =>
    obtain ⟨hmem, hown⟩ := mem_of_siteFor h.directory hx
    simp only [hx] at hw hv ⊢
    rw [← Tenant.team_of_owns hown] at hw hv ⊢
    have hagree := h.agree_timed hmem (fun b hb _ ↦ hf x hmem b hb) hq hempty hw hv
    exact ⟨hagree.map hg, h.timed _ (hidles _)⟩

theorem list (h : Mirrors kind sites l s s') (now : Instant) (t : Tenant) (site : Value)
    (f : EventFilters) : MirrorsCall kind sites l s s' now (.list t site f) :=
  h.read (fun _ ↦ rfl) (g := EventPage.withoutIds) (fun _ ↦ rfl)
    (fun _ _ hb ↦ Backend.idles_read hb (Connection.reads_list f).idle ..)
    (fun _ hx _ hb ↦ hb.list hx f) (fun _ _ hrows ↦ hrows.mapError_list f)
    ((Table.list_nil f).imp (congrArg (Except.mapError Failure.fault))
      (congrArg (Except.mapError Failure.fault)))

theorem stats (h : Mirrors kind sites l s s') (now : Instant) (t : Tenant) (site : Value)
    (r : Option DateRange) : MirrorsCall kind sites l s s' now (.stats t site r) :=
  h.read (fun _ ↦ rfl) (g := id) (fun _ ↦ rfl)
    (fun _ _ hb ↦ Backend.idles_read hb (Connection.reads_stats r).idle ..)
    (fun _ hx _ hb ↦ hb.stats hx r) (fun _ _ hrows ↦ by simp only [hrows.stats r])
    (.inl (congrArg _ (Table.stats_nil r)))

theorem summary (h : Mirrors kind sites l s s') (now : Instant) (t : Tenant) (site : Value)
    (o : SummaryOptions) : MirrorsCall kind sites l s s' now (.summary t site o) :=
  h.read (fun _ ↦ rfl) (g := id) (fun _ ↦ rfl)
    (fun _ _ hb ↦ Backend.idles_read hb (Connection.reads_summary o).idle ..)
    (fun _ hx _ hb ↦ hb.summary hx o) (fun _ _ hrows ↦ by simp only [hrows.summary o])
    ((Table.summary_nil o).imp (congrArg (Except.mapError Failure.fault))
      (congrArg (Except.mapError Failure.fault)))

theorem series (h : Mirrors kind sites l s s') (now : Instant) (t : Tenant) (site : Value)
    (r : Option DateRange) (g : Granularity) (byEvent : Value) :
    MirrorsCall kind sites l s s' now (.series t site r g byEvent) :=
  h.read (fun _ ↦ rfl) (g := id) (fun _ ↦ rfl)
    (fun _ _ hb ↦ Backend.idles_read hb (Connection.reads_series r g byEvent).idle ..)
    (fun _ hx _ hb ↦ hb.series hx r g byEvent)
    (fun _ _ hrows ↦ by simp only [hrows.series r g byEvent])
    (.inl (Table.series_nil r g byEvent))

theorem agree_dashboard (h : Mirrors kind sites l s s') (hx : x ∈ sites) (k : StorageKind)
    (now : Instant) {o : DashboardOptions} (hsite : o.site = .number x.id) (hteam : o.team = x.team)
    (hw : (s.timed k (·.dashboard now o)).1.IsServed l)
    (hv : (s'.timed k (·.dashboard now o)).1.IsServed l) :
    Work.Agree DashboardRows.withoutIds (s.timed k (·.dashboard now o)).1
      (s'.timed k (·.dashboard now o)).1 := by
  cases hf : o.filters now (s.dispatcher.backend kind).windowDays with
  | error e =>
    rw [fst_timed, fst_timed, h.same.2]
    by_cases hk : k = kind
    · rw [hk, h.backend.left.dashboard_eq, h.backend.right.dashboard_eq, ← h.backend.windowDays, hf]
      exact .refl _ _
    · rw [h.others k hk]
      exact .refl _ _
  | ok f =>
    refine h.agree_timed hx (fun b hb hdays ↦ ?_) (fun _ _ hrows ↦ hrows.dashboard f)
      (Table.dashboard_nil f) hw hv
    rw [hb.dashboard_eq, hdays, hf, hsite, hteam]
    exact hb.dashboard hx f

theorem agree_hasAny (h : Mirrors kind sites l s s') (hx : x ∈ sites) (k : StorageKind)
    (hw : (s.timed k (·.hasAny (.of (.number x.id) x.team))).1.IsServed l)
    (hv : (s'.timed k (·.hasAny (.of (.number x.id) x.team))).1.IsServed l) :
    Work.Agree id (s.timed k (·.hasAny (.of (.number x.id) x.team))).1
      (s'.timed k (·.hasAny (.of (.number x.id) x.team))).1 := by
  refine h.agree_timed hx (fun b hb _ ↦ hb.hasAny hx) (fun t u hrows ↦ ?_) (.inl rfl) hw hv
  have hnil : t.isEmpty = u.isEmpty := by
    rw [Bool.eq_iff_iff, List.isEmpty_iff_length_eq_zero, List.isEmpty_iff_length_eq_zero,
      hrows.length_eq]
  rw [hnil]

theorem bareDashboard (h : Mirrors kind sites l s s') (hx : x ∈ sites) {t : Tenant}
    (hown : x.team = t.team) {d d' : DashboardRows} (hd : d.withoutIds = d'.withoutIds)
    (hw : (s.bareDashboard t x d).1.IsServed l) (hv : (s'.bareDashboard t x d').1.IsServed l) :
    Work.Agree Dashboard.withoutIds (s.bareDashboard t x d).1 (s'.bareDashboard t x d').1 ∧
      Mirrors kind sites l (s.bareDashboard t x d).2 (s'.bareDashboard t x d').2 := by
  have hafter := h.timed t.storage (f := (·.hasAny (.of (.number x.id) x.team)))
    fun b hb ↦ Backend.idles_read hb Connection.reads_hasEvents.idle ..
  have hagree := h.agree_hasAny hx t.storage
  unfold Service.bareDashboard at hw hv ⊢
  rw [← hown] at hw hv ⊢
  generalize s.timed t.storage (·.hasAny (.of (.number x.id) x.team)) = p at hafter hagree hw ⊢
  generalize s'.timed t.storage (·.hasAny (.of (.number x.id) x.team)) = p' at hafter hagree hv ⊢
  obtain ⟨w, s₁⟩ := p
  obtain ⟨w', s₁'⟩ := p'
  have hserved : w.IsServed l ∧ w'.IsServed l := by
    constructor
    · rcases w with ⟨_ | b, pauses⟩ | _
      exacts [hw, rfl, rfl]
    · rcases w' with ⟨_ | b, pauses⟩ | _
      exacts [hv, rfl, rfl]
  rcases (hagree hserved.1 hserved.2).cases with ⟨rfl, rfl⟩ | ⟨e, pauses, pauses', rfl, rfl⟩ |
    ⟨b, b', pauses, pauses', rfl, rfl, rfl⟩
  · exact ⟨.refl _ _, hafter⟩
  · exact ⟨.refl _ _, hafter⟩
  · have hof : (dashboardOf x t d b).withoutIds = (dashboardOf x t d' b).withoutIds :=
      congrArg (dashboardOf x t · b) hd
    exact ⟨Work.agree_ok hof 0 0, hafter⟩

theorem ownDashboard (h : Mirrors kind sites l s s') (hx : x ∈ sites) {t : Tenant}
    (hown : x.team = t.team) (now : Instant) {o : DashboardOptions}
    (hsite : o.site = .number x.id) (hteam : o.team = t.team)
    (hw : (s.ownDashboard now t x o).1.IsServed l)
    (hv : (s'.ownDashboard now t x o).1.IsServed l) :
    Work.Agree Dashboard.withoutIds (s.ownDashboard now t x o).1 (s'.ownDashboard now t x o).1 ∧
      Mirrors kind sites l (s.ownDashboard now t x o).2 (s'.ownDashboard now t x o).2 := by
  have hafter := h.timed t.storage (f := (·.dashboard now o))
    fun b hb ↦ Backend.idles_dashboard hb now o
  have hagree := h.agree_dashboard hx t.storage now hsite (hteam.trans hown.symm)
  rw [ownDashboard_eq] at hw hv ⊢
  rw [ownDashboard_eq]
  generalize s.timed t.storage (·.dashboard now o) = p at hafter hagree hw ⊢
  generalize s'.timed t.storage (·.dashboard now o) = p' at hafter hagree hv ⊢
  obtain ⟨w, s₁⟩ := p
  obtain ⟨w', s₁'⟩ := p'
  have hserved : w.IsServed l ∧ w'.IsServed l := by
    constructor
    · rcases w with ⟨_ | d, pauses⟩ | _
      exacts [hw, rfl, rfl]
    · rcases w' with ⟨_ | d, pauses⟩ | _
      exacts [hv, rfl, rfl]
  rcases (hagree hserved.1 hserved.2).cases with ⟨rfl, rfl⟩ | ⟨e, pauses, pauses', rfl, rfl⟩ |
    ⟨d, d', pauses, pauses', rfl, rfl, hd⟩
  · exact ⟨.refl _ _, hafter⟩
  · exact ⟨.refl _ _, hafter⟩
  have hall : d.allTime = d'.allTime :=
    show d.withoutIds.allTime = d'.withoutIds.allTime from congrArg DashboardRows.allTime hd
  simp only [← hall] at hw hv ⊢
  by_cases hpos : 0 < d.allTime
  · rw [if_pos hpos, if_pos hpos]
    have hof : (dashboardOf x t d true).withoutIds = (dashboardOf x t d' true).withoutIds :=
      congrArg (dashboardOf x t · true) hd
    exact ⟨Work.agree_ok hof 0 0, hafter⟩
  · rw [if_neg hpos] at hw hv ⊢
    rw [if_neg hpos]
    exact hafter.bareDashboard hx hown hd hw hv

theorem dashboard (h : Mirrors kind sites l s s') (now : Instant) (t : Tenant) (number tag : Value)
    (range : Option DateRange) (limit offset : Value) :
    MirrorsCall kind sites l s s' now (.dashboard t number tag range limit offset) := by
  intro hw hv
  simp only [perform] at hw hv ⊢
  rw [Work.isServed_map] at hw hv
  unfold Service.dashboard at hw hv ⊢
  simp only [h.siteFor_eq] at hw hv ⊢
  cases hx : s.siteFor t number tag with
  | error e => cases e <;> exact ⟨.refl _ _, h⟩
  | ok x =>
    obtain ⟨hmem, hown⟩ := mem_of_siteFor h.directory hx
    simp only [hx] at hw hv ⊢
    cases ho : dashboardOptions x t (range.getD {}) limit offset with
    | error e => exact ⟨.refl _ _, h⟩
    | ok o =>
      simp only [ho] at hw hv ⊢
      obtain ⟨hsite, hteam, -⟩ := of_dashboardOptions ho
      have hagree := h.ownDashboard hmem (Tenant.team_of_owns hown) now hsite hteam hw hv
      exact ⟨hagree.1.map fun _ ↦ rfl, hagree.2⟩

theorem siteOfRecord_eq (h : Mirrors kind sites l s s') (r : EventRecord) :
    s'.siteOfRecord r = s.siteOfRecord r := by
  simp only [siteOfRecord, h.same.1]

theorem parcelsOf_eq (h : Mirrors kind sites l s s') (records : List EventRecord) :
    s'.parcelsOf records = s.parcelsOf records := by
  simp only [parcelsOf, h.siteOfRecord_eq]

/-- A parcel is stored alike, unless a storage is full. -/
theorem insertAll (h : Mirrors kind sites l s s') (hids : (sites.map (·.id)).Nodup) {p : Parcel}
    (hp : IsParcel sites p) (now : Instant) (k : StorageKind) :
    (s.onBackend k (·.insertAll now p.2)).1 = .error (.fault .hugeForStore) ∨
      (s'.onBackend k (·.insertAll now p.2)).1 = .error (.fault .hugeForStore) ∨
      (s.onBackend k (·.insertAll now p.2)).1.map (·.map StoredEvent.withoutId) =
          (s'.onBackend k (·.insertAll now p.2)).1.map (·.map StoredEvent.withoutId) ∧
        Mirrors kind sites l (s.onBackend k (·.insertAll now p.2)).2
          (s'.onBackend k (·.insertAll now p.2)).2 := by
  by_cases hk : k = kind
  · subst hk
    exact (h.backend.insertAll hids hp now).imp_right (.imp_right fun hsame ↦
      ⟨hsame.1, h.onBackend k fun _ ↦ hsame.2⟩)
  · exact .inr (.inr ⟨by rw [h.fst_onBackend hk], h.onBackend k fun heq ↦ absurd heq hk⟩)

theorem storeParcels (hids : (sites.map (·.id)).Nodup) (now : Instant) {parcels : List Parcel}
    (hp : ∀ p ∈ parcels, IsParcel sites p) (h : Mirrors kind sites l s s') :
    (s.storeParcels now parcels).1 = .error (.fault .hugeForStore) ∨
      (s'.storeParcels now parcels).1 = .error (.fault .hugeForStore) ∨
      (s.storeParcels now parcels).1.map (·.map StoredEvent.withoutId) =
          (s'.storeParcels now parcels).1.map (·.map StoredEvent.withoutId) ∧
        Mirrors kind sites l (s.storeParcels now parcels).2 (s'.storeParcels now parcels).2 := by
  induction parcels generalizing s s' with
  | nil => exact .inr (.inr ⟨rfl, h⟩)
  | cons p rest ih =>
    have hfirst := h.insertAll hids (hp p (by simp)) now p.1.storage
    simp only [Service.storeParcels]
    generalize s.onBackend p.1.storage (·.insertAll now p.2) = a at hfirst ⊢
    generalize s'.onBackend p.1.storage (·.insertAll now p.2) = a' at hfirst ⊢
    obtain ⟨result, s₁⟩ := a
    obtain ⟨result', s₁'⟩ := a'
    rcases hfirst with rfl | rfl | ⟨hsame, hafter⟩
    · exact .inl rfl
    · exact .inr (.inl rfl)
    cases result with
    | error e =>
      cases result' with
      | error e' =>
        cases hsame
        exact .inr (.inr ⟨rfl, hafter⟩)
      | ok rows' => cases hsame
    | ok rows =>
      cases result' with
      | error e' => cases hsame
      | ok rows' =>
        have happend (rows : List StoredEvent) (r : Except Failure (List StoredEvent)) :
            (r.map (rows ++ ·)).map (·.map StoredEvent.withoutId) =
              (r.map (·.map StoredEvent.withoutId)).map (rows.map StoredEvent.withoutId ++ ·) := by
          cases r <;> simp [Except.map]
        have hrows : rows.map StoredEvent.withoutId = rows'.map StoredEvent.withoutId :=
          Except.ok.inj hsame
        have hrest := ih (fun q hq ↦ hp q (by simp [hq])) hafter
        simp only at hrest ⊢
        rcases hrest with hfull | hfull | ⟨hmore, hlast⟩
        · exact .inl (by rw [hfull]; rfl)
        · exact .inr (.inl (by rw [hfull]; rfl))
        · exact .inr (.inr ⟨by rw [happend, happend, hmore, hrows], hlast⟩)

theorem ingest (h : Mirrors kind sites l s s') (hids : (sites.map (·.id)).Nodup) (now : Instant)
    (payload : Value) : MirrorsCall kind sites l s s' now (.ingest payload) := by
  intro hw hv
  simp only [perform, Service.ingest] at hw hv ⊢
  cases hr : Event.canonicalize payload with
  | error e => exact ⟨.refl _ _, h⟩
  | ok r =>
    simp only [hr, h.siteOfRecord_eq] at hw hv ⊢
    cases hx : s.siteOfRecord r with
    | error e => exact ⟨.refl _ _, h⟩
    | ok x =>
      simp only [hx] at hw hv ⊢
      obtain ⟨hmem, htag⟩ := mem_of_siteOfRecord h.directory hx
      have hone (s : Service) : s.onBackend x.storage (·.insert now (r.claimedBy x.id x.team)) =
          ((s.onBackend x.storage (·.insertAll now [r.claimedBy x.id x.team])).1.map List.head?,
            (s.onBackend x.storage (·.insertAll now [r.claimedBy x.id x.team])).2) := rfl
      rw [hone] at hw hv ⊢
      rw [hone]
      rcases h.insertAll hids (isParcel_singleton hmem htag) now x.storage with
        hfull | hfull | ⟨hsame, hafter⟩
      · rw [hfull] at hw
        cases hw
      · rw [hfull] at hv
        cases hv
      · refine ⟨Work.agree_done ?_ 0 0, hafter⟩
        have hhead (r : Except Failure (List StoredEvent)) :
            ((r.map List.head?).map Answer.event).map Answer.withoutIds =
              (r.map (·.map StoredEvent.withoutId)).map fun es ↦ .event es.head? := by
          cases r <;> simp [Except.map, Answer.withoutIds]
        rw [hhead, hhead, hsame]

theorem ingestMany (h : Mirrors kind sites l s s') (hids : (sites.map (·.id)).Nodup)
    (now : Instant) (payloads : List Value) :
    MirrorsCall kind sites l s s' now (.ingestMany payloads) := by
  intro hw hv
  simp only [perform, Service.ingestMany] at hw hv ⊢
  have hparcels : (payloads.mapM Event.canonicalize >>= s'.parcelsOf) =
      (payloads.mapM Event.canonicalize >>= s.parcelsOf) := by
    rw [funext h.parcelsOf_eq]
  rw [hparcels] at hv ⊢
  cases hp : payloads.mapM Event.canonicalize >>= s.parcelsOf with
  | error e => exact ⟨.refl _ _, h⟩
  | ok parcels =>
    simp only [hp] at hw hv ⊢
    rcases storeParcels hids now (isParcel_of_payloads hids h.directory hp) h with
      hfull | hfull | ⟨hsame, hafter⟩
    · rw [hfull] at hw
      cases hw
    · rw [hfull] at hv
      cases hv
    · refine ⟨Work.agree_done ?_ 0 0, hafter⟩
      have hevents (r : Except Failure (List StoredEvent)) :
          (r.map Answer.events).map Answer.withoutIds =
            (r.map (·.map StoredEvent.withoutId)).map .events := by
        cases r <;> rfl
      rw [hevents, hevents, hsame]

theorem perform (h : Mirrors kind sites l s s') (hids : (sites.map (·.id)).Nodup) (now : Instant)
    {call : Call} (hcall : call.isWidget = false) : MirrorsCall kind sites l s s' now call := by
  cases call with
  | ingest payload => exact h.ingest hids now payload
  | ingestMany payloads => exact h.ingestMany hids now payloads
  | list t site f => exact h.list now t site f
  | dashboard t number tag range limit offset =>
    exact h.dashboard now t number tag range limit offset
  | stats t site range => exact h.stats now t site range
  | summary t site o => exact h.summary now t site o
  | series t site range g byEvent => exact h.series now t site range g byEvent
  | widget t site w f => cases hcall

theorem run (hids : (sites.map (·.id)).Nodup) (h : Mirrors kind sites l s s')
    (calls : List (Instant × Call)) (hcalls : ∀ c ∈ calls, c.2.isWidget = false)
    (hw : ∀ w ∈ (s.run calls).1, w.IsServed l) (hv : ∀ w ∈ (s'.run calls).1, w.IsServed l) :
    (s.run calls).1.map answer = (s'.run calls).1.map answer := by
  induction calls generalizing s s' with
  | nil => rfl
  | cons c rest ih =>
    obtain ⟨now, call⟩ := c
    simp only [Service.run, List.mem_cons, forall_eq_or_imp] at hcalls hw hv
    obtain ⟨hagree, hafter⟩ := h.perform hids now hcalls.1 hw.1 hv.1
    exact List.cons_eq_cons.2 ⟨hagree, ih hafter hcalls.2 hw.2 hv.2⟩

end Mirrors

/-- Embedded stores and a table that all teams share answer every call alike but for the numbers of
events, from the start on and as long as the storage does not fail. -/
theorem transparent (sites : List Site) (hids : (sites.map (·.id)).Nodup) (d : Dispatcher)
    (kind : StorageKind) (days : Value) (persistent : Bool) (dialect : Report.Dialect)
    (maxRows maxRows' : Value) (l : TimeLimit) (calls : List (Instant × Call))
    (hcalls : ∀ c ∈ calls, c.2.isWidget = false)
    (hown : ∀ w ∈ (run ⟨d.withStores kind days persistent maxRows, .ofSites sites, l⟩ calls).1,
      w.IsServed l)
    (hshared : ∀ w ∈ (run ⟨d.withTable kind days dialect maxRows', .ofSites sites, l⟩ calls).1,
      w.IsServed l) :
    (run ⟨d.withStores kind days persistent maxRows, .ofSites sites, l⟩ calls).1.map answer =
      (run ⟨d.withTable kind days dialect maxRows', .ofSites sites, l⟩ calls).1.map answer := by
  have h : Mirrors kind sites l ⟨d.withStores kind days persistent maxRows, .ofSites sites, l⟩
      ⟨d.withTable kind days dialect maxRows', .ofSites sites, l⟩ := by
    refine ⟨rfl, rfl, ⟨rfl, rfl⟩, ?_, fun k hk ↦ ?_⟩
    · rw [Dispatcher.withStores, Dispatcher.withTable, Dispatcher.backend_save,
        Dispatcher.backend_save]
      refine .of_isNew ?_ ?_ rfl rfl sites rfl
      · exact ⟨rfl, rfl⟩
      · exact rfl
    · rw [Dispatcher.withStores, Dispatcher.withTable, Dispatcher.backend_save_of_ne _ _ hk.symm,
        Dispatcher.backend_save_of_ne _ _ hk.symm]
  exact h.run hids calls hcalls hown hshared

/-- Two sites of two teams in one kind of storage. -/
def neighbours : List Site :=
  [⟨1, 10, "a", none, none, .sqlite⟩, ⟨2, 20, "b", none, none, .sqlite⟩]

/-- Calls of two teams at one time. Events are stored, and read by the owner of a site and by another
team. -/
def mixedCalls : List (Instant × Call) :=
  [.list ⟨10, .sqlite, []⟩ (.int 1) {}, .ingest (pageView "b"),
    .ingestMany [pageView "a", pageView "b", pageView "a"], .list ⟨10, .sqlite, []⟩ (.int 1) {},
    .dashboard ⟨10, .sqlite, []⟩ .null (.text "a") (some { start := some ⟨0⟩ }) (.int 10) (.int 0),
    .stats ⟨20, .sqlite, []⟩ (.int 1) none].map (⟨0⟩, ·)

theorem transparent_mixedCalls :
    (neighbours.map (·.id)).Nodup ∧ (∀ c ∈ mixedCalls, c.2.isWidget = false) ∧
    (∀ w ∈ (run ⟨({} : Dispatcher).withStores .sqlite (.int 7) false (.int 500), .ofSites neighbours, {}⟩
      mixedCalls).1, w.IsServed {}) ∧
    (∀ w ∈ (run ⟨({} : Dispatcher).withTable .sqlite (.int 7) .sqlite (.int 500), .ofSites neighbours, {}⟩
      mixedCalls).1, w.IsServed {}) ∧
    (run ⟨({} : Dispatcher).withStores .sqlite (.int 7) false (.int 500), .ofSites neighbours, {}⟩
      mixedCalls).1.map answer =
    (run ⟨({} : Dispatcher).withTable .sqlite (.int 7) .sqlite (.int 500), .ofSites neighbours, {}⟩
      mixedCalls).1.map answer := by
  have hids : (neighbours.map (·.id)).Nodup := by decide
  have hcalls : ∀ c ∈ mixedCalls, c.2.isWidget = false := by simp [mixedCalls, Call.isWidget]
  have hown : (run ⟨({} : Dispatcher).withStores .sqlite (.int 7) false (.int 500),
      .ofSites neighbours, {}⟩ mixedCalls).1.all (·.failure?.all (!·.isOfStorage {})) = true := by
    cbv
  have hshared : (run ⟨({} : Dispatcher).withTable .sqlite (.int 7) .sqlite (.int 500),
      .ofSites neighbours, {}⟩ mixedCalls).1.all (·.failure?.all (!·.isOfStorage {})) = true := by
    cbv
  replace hown := List.all_eq_true.1 hown
  replace hshared := List.all_eq_true.1 hshared
  exact ⟨hids, hcalls, hown, hshared, transparent neighbours hids {} .sqlite (.int 7) false .sqlite
    (.int 500) (.int 500) {} mixedCalls hcalls hown hshared⟩

end Service

end Footfall
