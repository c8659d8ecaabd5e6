import Footfall.Proofs.Agreement
import Footfall.Proofs.Atomicity

/-!
Answers of two states of the storage that are to be the same. A read comes to a store or to none,
and a store without rows answers as no store does, unless the storage refuses to answer. So two
answers are the same as long as both come from a store or neither does, and otherwise they come to
the same, unless the storage fails.
-/

namespace Footfall

variable {α : Type}

/-- An answer is a certain one, unless the storage fails to give it. -/
def ComesTo (l : TimeLimit) (answer result : Except Failure α) : Prop :=
  answer = result ∨ ∃ e, answer = .error e ∧ e.isOfStorage l = true

theorem comesTo_of_huge {answer result : Except Failure α}
    (h : answer = result ∨ answer = .error (.fault .hugeForStore)) (l : TimeLimit) :
    ComesTo l answer result :=
  h.imp_right fun he ↦ ⟨_, he, rfl⟩

theorem comesTo_mapError {x : Except Fault α} {a : α} (h : x = .ok a ∨ x = .error .hugeForStore)
    (l : TimeLimit) : ComesTo l (x.mapError .fault) (.ok a) :=
  comesTo_of_huge (h.imp (congrArg (Except.mapError Failure.fault))
    (congrArg (Except.mapError Failure.fault))) l

namespace Connection

/-- A read that is computed from the rows of a store, its site and the number of rows allowed. -/
structure Computes (f : Connection → Except Failure α × Connection)
    (q : Int → Value → Table → Except Failure α) : Prop where
  idle : Idle f
  fst {c : Connection} : c.IsSound → (f c).1 = q c.store.site c.store.maxRows c.content

theorem Reads.computes {f : Connection → Except Failure α × Connection}
    {q : Table → Except Failure α} (h : Reads f q) : Computes f fun _ _ ↦ q :=
  ⟨h.idle, fun hc ↦ by rw [h _ hc]⟩

/-- A read that is computed from the rows alone. From no rows it tells what is told of a site
without a store. -/
structure IsRead (f : Connection → Except Failure α × Connection) (q : Table → Except Failure α)
    (absent : Except Failure α) : Prop where
  reads : Reads f q
  nil (l : TimeLimit) : ComesTo l (q []) absent

theorem isRead_list (f : EventFilters) :
    IsRead (·.list f) (fun t ↦ (t.list f).mapError .fault) (.ok (.empty f)) :=
  ⟨reads_list f, comesTo_mapError (Table.list_nil f)⟩

theorem isRead_dashboard (f : EventFilters) :
    IsRead (Backend.ownDashboard f) (·.dashboard f) (.ok (.empty f)) :=
  ⟨Backend.reads_ownDashboard f, comesTo_of_huge (Table.dashboard_nil f)⟩

theorem isRead_hasEvents : IsRead (·.hasEvents) (fun t ↦ .ok (!t.isEmpty)) (.ok false) :=
  ⟨reads_hasEvents, fun _ ↦ .inl rfl⟩

theorem isRead_stats (r : Option DateRange) :
    IsRead (·.stats r) (fun t ↦ .ok (t.stats r)) (.ok {}) :=
  ⟨reads_stats r, fun _ ↦ .inl (congrArg _ (Table.stats_nil r))⟩

theorem isRead_summary (o : SummaryOptions) :
    IsRead (·.summary o) (fun t ↦ (t.summary o).mapError .fault) (.ok (.empty o)) :=
  ⟨reads_summary o, comesTo_mapError (Table.summary_nil o)⟩

theorem isRead_series (r : Option DateRange) (g : Granularity) (byEvent : Value) :
    IsRead (·.series r g byEvent) (·.series r g byEvent) (TimeSeries.of [] g byEvent) :=
  ⟨reads_series r g byEvent, fun _ ↦ .inl (Table.series_nil r g byEvent)⟩

end Connection

/-- The rows that a query finds in the store of a site. -/
def TableQuery.ofStore (q : TableQuery) (limit : Value) (site : Int) (maxRows : Value) (t : Table) :
    Except Failure (List Fields) := do
  let bound ← (rowBound limit maxRows).mapError .fault
  q.run bound { site := site : SiteStore }.source (.ok (·.ofSite site)) (some t)

theorem Connection.computes_run (q : TableQuery) (limit : Value) :
    Computes (·.run q limit) (q.ofStore limit) := by
  refine ⟨idle_run q limit, fun {c} hc ↦ ?_⟩
  cases h : rowBound limit c.store.maxRows with
  | error e => simp [run, TableQuery.ofStore, h, Except.mapError, bind, Except.bind]
  | ok bound =>
    have hsource : c.prepared.store.source = { site := c.store.site : SiteStore }.source := by
      simp [SiteStore.source]
    simp [run, TableQuery.ofStore, h, Except.mapError, bind, Except.bind, table_prepared hc,
      hsource]

@[simp] theorem Report.ChartQuery.rows_nil (q : Report.ChartQuery) (maxRows : Int) :
    q.rows [] maxRows = [] := by
  have hselect : q.select [] = [] := by simp [select]
  have hgroups : q.groups [] = [] := by simp [groups, hselect, distinct]
  simp [rows, answer, hgroups, Table.limited]

theorem exists_rowBound (limit : Option Int) (m : Int) :
    ∃ n : Int, rowBound (.ofWhole limit) (.int m) = .ok (.int n) := by
  cases limit with
  | none =>
    refine ⟨m, ?_⟩
    simp [rowBound, Value.ofWhole, Value.ofOption, Value.isTruthy, bind, Except.bind, pure,
      Except.pure]
  | some k => exact ⟨_, rowBound_int k m⟩

/-- A chart of no rows is empty, unless the storage cannot draw it. -/
theorem TableQuery.ofStore_nil (l : TimeLimit) (q : Report.ChartQuery) (limit : Option Int)
    (site m : Int) :
    ComesTo l ((TableQuery.chart q).ofStore (.ofWhole limit) site (.int m) [])
      (((TableQuery.chart q).check.map fun _ ↦ ()) >>= fun _ ↦ .ok []) := by
  obtain ⟨n, hn⟩ := exists_rowBound limit m
  cases hc : (TableQuery.chart q).check with
  | error e =>
    refine .inl ?_
    simp [ofStore, hn, run, hc, Except.mapError, Except.map, bind, Except.bind]
  | ok checked =>
    obtain ⟨k, hk⟩ : ∃ k, Sql.neededLimit checked (.int n) = .ok k := by
      unfold Sql.neededLimit
      split <;> exact ⟨_, rfl⟩
    simp only [ofStore, hn, run, hc, hk, Except.mapError, Except.map, bind, Except.bind,
      Option.bind_some, rows?, pure, Except.pure, Table.ofSite, List.filter_nil,
      Report.ChartQuery.rows_nil]
    by_cases hrun : (Sql.isRunnable checked && k.all fitsTable) = true
    · exact .inl (by rw [if_pos hrun])
    · refine .inr ⟨_, by rw [if_neg hrun]; rfl, rfl⟩

namespace Work

variable {β : Type} {l : TimeLimit} {p : Prop} {w v : Work α}

/-- The same work, under a condition; without it the work comes to the same, unless the storage
fails one of the two. -/
structure Matches (l : TimeLimit) (p : Prop) (w v : Work α) : Prop where
  eq : p → v = w
  outcome : w.IsServed l → v.IsServed l → v.outcome = w.outcome

namespace Matches

theorem refl (l : TimeLimit) (p : Prop) (w : Work α) : Matches l p w w :=
  ⟨fun _ ↦ rfl, fun _ _ ↦ rfl⟩

/-- Both works come to the same answer, if they come to an answer at all. -/
theorem of_outcome {absent : Except Failure α} (h : p → v = w)
    (hw : w.IsServed l → w.outcome = some absent) (hv : v.IsServed l → v.outcome = some absent) :
    Matches l p w v :=
  ⟨h, fun hws hvs ↦ (hv hvs).trans (hw hws).symm⟩

theorem mono {p' : Prop} (h : Matches l p w v) (hp : p' → p) : Matches l p' w v :=
  ⟨fun hp' ↦ h.eq (hp hp'), h.outcome⟩

theorem map {f : α → β} (h : Matches l p w v) : Matches l p (w.map f) (v.map f) := by
  refine ⟨fun hp ↦ by rw [h.eq hp], fun hw hv ↦ ?_⟩
  rw [outcome_map, outcome_map, h.outcome ((isServed_map f).1 hw) ((isServed_map f).1 hv)]

/-- A deadline that cuts off work of one counts as its storage's fault. -/
theorem under (h : Matches l p w v) : Matches l p (w.under l) (v.under l) := by
  refine ⟨fun hp ↦ by rw [h.eq hp], fun hw hv ↦ ?_⟩
  cases hs : l.start with
  | error e => simp only [Work.under, hs]
  | ok u =>
    have hserved {x : Work α} (hx : (x.under l).IsServed l) : x.IsServed l := by
      cases x with
      | done r pauses => rwa [under_of_isServed hs hx] at hx
      | unending => rfl
    have hout := h.outcome (hserved hw) (hserved hv)
    rcases w with ⟨r, pauses⟩ | _ <;> rcases v with ⟨r', pauses'⟩ | _
    · rwa [under_of_isServed hs hw, under_of_isServed hs hv]
    · cases hout
    · cases hout
    · rfl

end Matches

/-- Work that goes on with what other work has come to. -/
def andThen (w : Work α) (k : α → Work β) : Work β :=
  match w with
  | .unending => .unending
  | .done (.error e) _ => .done (.error e)
  | .done (.ok a) _ => k a

theorem Matches.andThen (h : Matches l p w v) {k k' : α → Work β}
    (hk : ∀ a, Matches l p (k a) (k' a)) : Matches l p (w.andThen k) (v.andThen k') := by
  have hserved {x : Work α} {k : α → Work β} (hx : (x.andThen k).IsServed l) : x.IsServed l := by
    rcases x with ⟨e | a, pauses⟩ | _
    · exact hx
    · rfl
    · rfl
  constructor
  · intro hp
    rw [h.eq hp]
    rcases w with ⟨e | a, pauses⟩ | _
    · rfl
    · exact (hk a).eq hp
    · rfl
  · intro hw hv
    have hout := h.outcome (hserved hw) (hserved hv)
    rcases w with ⟨e | a, pauses⟩ | _ <;> rcases v with ⟨e' | a', pauses'⟩ | _ <;> cases hout
    · rfl
    · exact (hk a).outcome hw hv
    · rfl

theorem outcome_of_comesTo {answer result : Except Failure α} {pauses : Nat}
    (hr : ComesTo l answer result) (h : (Work.done answer pauses).IsServed l) :
    (Work.done answer pauses).outcome = some result := by
  rcases hr with rfl | ⟨e, rfl, he⟩
  · rfl
  · simp [IsServed, failure?, he] at h

end Work

/-- A store is opened for a record that no table can hold. -/
def failedWrite : List Operation := [.insert ⟨0⟩ (.vast 1 (some 10))]

end Footfall
