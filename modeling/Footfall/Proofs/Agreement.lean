import Footfall.Proofs.Keeping
import Footfall.Proofs.Likeness

/-!
Backends that are alike: each holds the rows of the other, under numbers of its own. What they answer
differs in those numbers only, unless the storage of one of them fails.
-/

namespace Footfall

/-- Whether the deadline cuts off work that asks a store. -/
def TimeLimit.cutsOff (l : TimeLimit) : Bool := l.start.isOk && l.passesAtOnce

/-- Whether the storage is to blame for a failure. -/
def Failure.isOfStorage (l : TimeLimit) : Failure → Bool
  | .outage _ | .fault .hugeForStore => true
  | .deadline _ => l.cutsOff
  | _ => false

namespace Work

variable {α β γ : Type} {l : TimeLimit} {w v : Work α}

/-- What the work has come to, however long it took; nothing if it does not end. -/
def outcome : Work α → Option (Except Failure α)
  | .done r _ => some r
  | .unending => none

theorem outcome_map (f : α → β) (w : Work α) : (w.map f).outcome = w.outcome.map (·.map f) := by
  cases w <;> rfl

/-- The work does not fail for the storage. -/
def IsServed (l : TimeLimit) (w : Work α) : Prop :=
  w.failure?.all (!·.isOfStorage l) = true

theorem isServed_map (f : α → β) : (w.map f).IsServed l ↔ w.IsServed l := by
  rcases w with ⟨_ | a, pauses⟩ | _ <;> rfl

/-- Both works come to the same when they are looked at in a certain way. -/
def Agree (f : α → β) (w v : Work α) : Prop := (w.map f).outcome = (v.map f).outcome

theorem Agree.refl (f : α → β) (w : Work α) : Agree f w w := rfl

theorem agree_done {f : α → β} {r r' : Except Failure α} (h : r.map f = r'.map f)
    (pauses pauses' : Nat) : Agree f (.done r pauses) (.done r' pauses') := congrArg some h

theorem agree_ok {f : α → β} {a b : α} (h : f a = f b) (pauses pauses' : Nat) :
    Agree f (.done (.ok a) pauses) (.done (.ok b) pauses') :=
  congrArg (fun b ↦ some (Except.ok b)) h

theorem Agree.cases {f : α → β} (h : Agree f w v) :
    (w = .unending ∧ v = .unending) ∨
      (∃ e pauses pauses', w = .done (.error e) pauses ∧ v = .done (.error e) pauses') ∨
      ∃ a b pauses pauses', w = .done (.ok a) pauses ∧ v = .done (.ok b) pauses' ∧ f a = f b := by
  rcases w with ⟨_ | a, pauses⟩ | _ <;> rcases v with ⟨_ | b, pauses'⟩ | _ <;>
    simp_all [Agree, Work.map, outcome, Except.map]

/-- An answer is looked at through what it is an answer to. -/
theorem Agree.map {f : α → β} (h : Agree f w v) {a : α → γ} {g : γ → γ} {b : β → γ}
    (hg : ∀ x, g (a x) = b (f x)) : Agree g (w.map a) (v.map a) := by
  have hmap (w : Work α) : ((w.map a).map g).outcome = ((w.map f).map b).outcome := by
    rcases w with ⟨_ | x, pauses⟩ | _ <;> simp [Work.map, outcome, Except.map, hg]
  rw [Agree, hmap, hmap, outcome_map, outcome_map b, h]

theorem under_of_isServed {r : Except Failure α} {pauses : Nat} (hs : l.start = .ok ())
    (h : (under l (done r pauses)).IsServed l) : under l (done r pauses) = done r pauses := by
  rcases under_cases l r pauses with ⟨e, he, -⟩ | ⟨-, hcut, heq⟩ | hdone
  · cases hs.symm.trans he
  · rw [Bool.and_eq_true] at hcut
    rw [heq] at h
    simp [IsServed, failure?, Failure.isOfStorage, TimeLimit.cutsOff, hs, hcut.1, Except.isOk,
      Except.toBool] at h
  · exact hdone.2.2

end Work

namespace Table

theorem map_withoutId_rows (now : Instant) (id id' : Int) (es : List Entry) :
    (Entry.rows now id es).map StoredEvent.withoutId =
      (Entry.rows now id' es).map StoredEvent.withoutId := by
  induction es generalizing id id' with
  | nil => rfl
  | cons e es ih =>
    rw [Entry.rows_cons, Entry.rows_cons, List.map_cons, List.map_cons, ih (id + 1) (id' + 1)]
    rfl

variable {t u : Table}

theorem Alike.mapError_list (h : Alike t u) (f : EventFilters) :
    ((t.list f).mapError Failure.fault).map EventPage.withoutIds =
      ((u.list f).mapError .fault).map EventPage.withoutIds := by
  have hmap (r : Except Fault EventPage) : (r.mapError Failure.fault).map EventPage.withoutIds =
      (r.map EventPage.withoutIds).mapError .fault := by cases r <;> rfl
  rw [hmap, hmap, h.list f]

theorem Alike.dashboard (h : Alike t u) (f : EventFilters) :
    (t.dashboard f).map DashboardRows.withoutIds = (u.dashboard f).map DashboardRows.withoutIds := by
  have hmap (r : Except Failure EventPage) :
      (r.map fun p ↦ (⟨p.events.getD [], p.pagination.total, p.totalAllTime.getD 0, p.pagination,
        f.range⟩ : DashboardRows)).map DashboardRows.withoutIds =
      (r.map EventPage.withoutIds).map fun p ↦ ⟨p.events.getD [], p.pagination.total,
        p.totalAllTime.getD 0, p.pagination, f.range⟩ := by
    rcases r with e | ⟨events, pagination, allTime⟩
    · rfl
    · cases events <;> rfl
  rw [Table.dashboard, Table.dashboard, hmap, hmap, h.mapError_list f]

theorem dashboard_nil (f : EventFilters) :
    Table.dashboard [] f = .ok (.empty f) ∨
      Table.dashboard [] f = .error (.fault .hugeForStore) := by
  unfold Table.dashboard
  rcases list_nil f with h | h
  · exact .inl (by rw [h]; rfl)
  · exact .inr (by rw [h]; rfl)

end Table

namespace Backend

variable {α β : Type} {b c b' c' : Backend} {sites : List Site} {x : Site}

/-- An answer within the deadline that the storage does not fail. -/
theorem Answers.outcome_under {empty : Except Failure α} {q : Table → Except Failure α} {w : Work α}
    (h : b.Answers x empty q w) (hempty : q [] = empty ∨ q [] = .error (.fault .hugeForStore))
    {l : TimeLimit} (hs : l.start = .ok ()) (hw : (w.under l).IsServed l) :
    (w.under l).outcome =
      some (if (b.rowsFor x).isEmpty then empty else q (b.rowsFor x)) := by
  cases h with
  | absent nil =>
    rw [Work.under_of_isServed hs hw, nil]
    rfl
  | known knows =>
    rw [Work.under_of_isServed hs hw]
    rw [Work.under_of_isServed hs hw] at hw
    cases hrows : b.rowsFor x with
    | cons => rfl
    | nil =>
      rw [hrows] at hw
      rcases hempty with hempty | hhuge
      · simp [Work.outcome, hempty]
      · rw [hhuge] at hw
        cases hw
  | unknown =>
    rw [Work.under_of_isServed hs hw] at hw
    cases hw

theorem Answers.agree {empty : Except Failure α} {q : Table → Except Failure α} {w v : Work α}
    (hb : b.Answers x empty q w) (hc : c.Answers x empty q v)
    (hrows : Table.Alike (b.rowsFor x) (c.rowsFor x)) {f : α → β}
    (hq : ∀ t u, Table.Alike t u → (q t).map f = (q u).map f)
    (hempty : q [] = empty ∨ q [] = .error (.fault .hugeForStore)) {l : TimeLimit}
    (hw : (w.under l).IsServed l) (hv : (v.under l).IsServed l) :
    Work.Agree f (w.under l) (v.under l) := by
  cases hs : l.start with
  | error e => simp only [Work.under, hs, Work.Agree.refl]
  | ok u =>
    have hnil : (b.rowsFor x).isEmpty = (c.rowsFor x).isEmpty := by
      rw [Bool.eq_iff_iff, List.isEmpty_iff_length_eq_zero, List.isEmpty_iff_length_eq_zero,
        hrows.length_eq]
    rw [Work.Agree, Work.outcome_map, Work.outcome_map, hb.outcome_under hempty hs hw,
      hc.outcome_under hempty hs hv, hnil, Option.map_some, Option.map_some]
    split
    · rfl
    · rw [hq _ _ hrows]

theorem IsRegular.hasAny (h : b.IsRegular sites) (hx : x ∈ sites) :
    b.Answers x (.ok false) (fun t ↦ .ok (!t.isEmpty))
      (b.hasAny (.of (.number x.id) x.team)).1 :=
  h.answers hx _ Connection.reads_hasEvents fun _ t ht ↦ by
    rw [← Table.hasAny_eq]
    exact Server.read_site ht x fun base ↦ congrArg _ (t.hasAny_meeting base)

theorem IsRegular.stats (h : b.IsRegular sites) (hx : x ∈ sites) (r : Option DateRange) :
    b.Answers x (.ok {}) (fun t ↦ .ok (t.stats r)) (b.stats (.of (.number x.id) x.team) r).1 :=
  h.answers hx _ (Connection.reads_stats r) fun _ t ht ↦
    Server.read_site ht x fun base ↦ congrArg _ (t.stats_meeting base r)

theorem IsRegular.summary (h : b.IsRegular sites) (hx : x ∈ sites) (o : SummaryOptions) :
    b.Answers x (.ok (.empty o)) (fun t ↦ (t.summary o).mapError .fault)
      (b.summary (.of (.number x.id) x.team) o).1 :=
  h.answers hx _ (Connection.reads_summary o) fun _ t ht ↦
    Server.read_site ht x fun base ↦ congrArg _ (t.summary_meeting base o)

theorem IsRegular.series (h : b.IsRegular sites) (hx : x ∈ sites) (r : Option DateRange)
    (g : Granularity) (byEvent : Value) :
    b.Answers x (TimeSeries.of [] g byEvent) (·.series r g byEvent)
      (b.series (.of (.number x.id) x.team) r g byEvent).1 :=
  h.answers hx _ (Connection.reads_series r g byEvent) fun _ t ht ↦
    Server.read_site ht x fun base ↦ t.series_meeting base r g byEvent

/-- A dashboard is either not to be had from any table, or a read. -/
theorem IsRegular.dashboard_eq (h : b.IsRegular sites) (now : Instant) (o : DashboardOptions) :
    b.dashboard now o = match o.filters now b.windowDays with
      | .error e => (.done (.error (.fault e)), b)
      | .ok f => b.read (.of o.site o.team) (.ok (.empty f)) (.ok ()) (ownDashboard f)
        fun server ↦ server.list (.of o.site o.team) f >>= rowsOfPage f Server.source := by
  unfold dashboard
  cases hb : b.engine with
  | stalled => simp [IsRegular, hb] at h
  | failing e => simp [IsRegular, hb] at h
  | _ => cases o.filters now b.windowDays <;> rfl

theorem IsRegular.dashboard (h : b.IsRegular sites) (hx : x ∈ sites) (f : EventFilters) :
    b.Answers x (.ok (.empty f)) (·.dashboard f)
      (b.read (.of (.number x.id) x.team) (.ok (.empty f)) (.ok ()) (ownDashboard f)
        fun server ↦ server.list (.of (.number x.id) x.team) f >>= rowsOfPage f Server.source).1 :=
  h.answers hx _ (reads_ownDashboard f) fun _ _ ht ↦ Server.dashboard_site ht x f

/-- Both keep events, the same ones for each site. -/
structure Alike (sites : List Site) (b c : Backend) : Prop where
  windowDays : b.windowDays = c.windowDays
  keeps : b.keepsEvents = true ∧ c.keepsEvents = true
  left : b.IsRegular sites
  right : c.IsRegular sites
  rows : ∀ x ∈ sites, Table.Alike (b.rowsFor x) (c.rowsFor x)

theorem Alike.of_isNew (hb : b.IsNew) (hc : c.IsNew) (hkeeps : b.keepsEvents = true)
    (hkeeps' : c.keepsEvents = true) (sites : List Site) (hdays : b.windowDays = c.windowDays) :
    Alike sites b c := by
  obtain ⟨hleft, hrows⟩ := hb.isRegular sites
  obtain ⟨hright, hrows'⟩ := hc.isRegular sites
  refine ⟨hdays, ⟨hkeeps, hkeeps'⟩, hleft, hright, fun x _ ↦ ?_⟩
  rw [hrows, hrows']
  exact ⟨rfl, .nil, .nil⟩

theorem Idles.frame (h : b.Idles b') :
    b'.windowDays = b.windowDays ∧ b'.keepsEvents = b.keepsEvents := by
  rcases h with rfl | ⟨r, r', hr, -, rfl⟩
  · exact ⟨rfl, rfl⟩
  · exact ⟨rfl, by simp [keepsEvents, hr]⟩

theorem Alike.idles (h : Alike sites b c) (hb : b.Idles b') (hc : c.Idles c') :
    Alike sites b' c' := by
  obtain ⟨hleft, hrows, -⟩ := h.left.idles hb
  obtain ⟨hright, hrows', -⟩ := h.right.idles hc
  refine ⟨?_, ?_, hleft, hright, fun x hx ↦ ?_⟩
  · rw [hb.frame.1, hc.frame.1, h.windowDays]
  · rw [hb.frame.2, hc.frame.2]
    exact h.keeps
  · rw [hrows, hrows']
    exact h.rows x hx

theorem frame_insertAll (b : Backend) (now : Instant) (records : List EventRecord) :
    (b.insertAll now records).2.windowDays = b.windowDays ∧
      (b.insertAll now records).2.keepsEvents = b.keepsEvents := by
  unfold insertAll
  cases hb : b.engine <;> simp [keepsEvents, hb]

/-- A parcel is stored in both under the same numbers but for those of the rows, unless one of them
is full. -/
theorem Alike.insertAll (h : Alike sites b c) (hids : (sites.map (·.id)).Nodup)
    {p : Service.Parcel} (hp : Service.IsParcel sites p) (now : Instant) :
    (b.insertAll now p.2).1 = .error (.fault .hugeForStore) ∨
      (c.insertAll now p.2).1 = .error (.fault .hugeForStore) ∨
      (b.insertAll now p.2).1.map (·.map StoredEvent.withoutId) =
          (c.insertAll now p.2).1.map (·.map StoredEvent.withoutId) ∧
        Alike sites (b.insertAll now p.2).2 (c.insertAll now p.2).2 := by
  obtain ⟨result, b', rows, hi, hleft, hother, hrows, ha⟩ := h.left.insertAll hids hp now
  obtain ⟨result', c', rows', hi', hright, hother', hrows', ha'⟩ := h.right.insertAll hids hp now
  have hframe := b.frame_insertAll now p.2
  have hframe' := c.frame_insertAll now p.2
  simp only [hi, hi'] at hframe hframe' ⊢
  cases ha with
  | full => exact .inl rfl
  | stored _ eq =>
    cases ha' with
    | full => exact .inr (.inl rfl)
    | stored _ eq' =>
      have hsame : rows.map StoredEvent.withoutId = rows'.map StoredEvent.withoutId := by
        obtain ⟨id, rfl⟩ := hrows.resolve_left fun hno ↦ by simp [h.keeps.1] at hno
        obtain ⟨id', rfl⟩ := hrows'.resolve_left fun hno ↦ by simp [h.keeps.2] at hno
        exact Table.map_withoutId_rows ..
      refine .inr (.inr ⟨congrArg Except.ok hsame, ?_, ?_, hleft, hright, fun y hy ↦ ?_⟩)
      · rw [hframe.1, hframe'.1, h.windowDays]
      · rw [hframe.2, hframe'.2]
        exact h.keeps
      · refine ⟨?_, (hleft.rowsFor hy).1, (hright.rowsFor hy).1⟩
        by_cases hyp : y = p.1
        · rw [hyp, eq, eq', List.map_append, List.map_append, (h.rows _ hp.mem).same, hsame]
        · rw [hother y hy hyp, hother' y hy hyp, (h.rows y hy).same]

end Backend

end Footfall
