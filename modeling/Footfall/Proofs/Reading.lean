import Footfall.Backend.Basic
import Footfall.Proofs.Opening

/-!
Reads of a backend of embedded stores.
-/

namespace Footfall

/-- The rows of a dashboard that shows a table. -/
def Table.dashboard (t : Table) (f : EventFilters) : Except Failure DashboardRows :=
  ((t.list f).mapError .fault).map fun p ↦
    ⟨p.events.getD [], p.pagination.total, p.totalAllTime.getD 0, p.pagination, f.range⟩

namespace Backend

variable {b : Backend} {r : Registry} {α : Type}

theorem rowsOfPage_list (t : Table) (f : EventFilters) (source : String) :
    ((t.list f).mapError .fault >>= rowsOfPage f source) = t.dashboard f := by
  unfold Table.dashboard
  rw [Table.list_eq]
  split <;> rfl

/-- What a dashboard does with the store of its site. -/
def ownDashboard (f : EventFilters) (c : Connection) : Except Failure DashboardRows × Connection :=
  ((c.list f).1 >>= rowsOfPage f (c.list f).2.store.source, (c.list f).2)

theorem reads_ownDashboard (f : EventFilters) :
    Connection.Reads (ownDashboard f) (·.dashboard f) := by
  intro c hc
  simp only [ownDashboard, Connection.reads_list f c hc, rowsOfPage_list]

theorem read_embedded (hb : b.engine = .embedded r) (s : Scope) (empty : Except Failure α)
    (check : Except Failure Unit) (own : Connection → Except Failure α × Connection)
    (shared : Server → Except Failure α) :
    b.read s empty check own shared =
      ((r.read s (check >>= fun _ ↦ empty) own).1,
        { b with engine := .embedded (r.read s (check >>= fun _ ↦ empty) own).2 }) := by
  simp [Backend.read, hb]

theorem dashboard_embedded (hb : b.engine = .embedded r) (now : Instant) (o : DashboardOptions) :
    b.dashboard now o = match o.filters now b.windowDays with
      | .error f => (.done (.error (.fault f)), b)
      | .ok f =>
        ((r.read (.of o.site o.team) (.ok (.empty f)) (ownDashboard f)).1, { b with
          engine := .embedded (r.read (.of o.site o.team) (.ok (.empty f)) (ownDashboard f)).2 }) := by
  unfold dashboard
  rw [hb]
  cases o.filters now b.windowDays with
  | error f => rfl
  | ok f => exact read_embedded hb ..

/-- A read leaves stores opened, and nothing else changed. -/
theorem opens_read (hb : b.engine = .embedded r) (h : r.IsSound)
    {own : Connection → Except Failure α × Connection} (hown : Connection.Idle own) (s : Scope)
    (empty : Except Failure α) (check : Except Failure Unit)
    (shared : Server → Except Failure α) :
    ∃ r', (b.read s empty check own shared).2.engine = .embedded r' ∧ r.Opens r' := by
  rw [read_embedded hb]
  exact ⟨_, rfl, Registry.opens_read hown h s _⟩

theorem opens_dashboard (hb : b.engine = .embedded r) (h : r.IsSound) (now : Instant)
    (o : DashboardOptions) : ∃ r', (b.dashboard now o).2.engine = .embedded r' ∧ r.Opens r' := by
  rw [dashboard_embedded hb]
  cases o.filters now b.windowDays with
  | error f => exact ⟨r, hb, .refl h⟩
  | ok f => exact ⟨_, rfl, Registry.opens_read (reads_ownDashboard f).idle h _ _⟩

end Backend

end Footfall
