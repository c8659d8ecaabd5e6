import Footfall.Backend.Basic
import Footfall.Proofs.Numbering
import Mathlib.Data.List.Sort

/-!
The table that teams share. A read for a site and a team sees their rows and nothing of the others:
two tables with the same rows of theirs cannot be told apart by it.
-/

namespace Footfall

/-- Whether an event is of a site, by the way in which the site is named. -/
def SiteRef.isOf (site : SiteRef) (e : StoredEvent) : Bool :=
  match site with
  | .number n => e.site == n
  | .tag s => e.tag == s

def StoredEvent.isFor (e : StoredEvent) (site : SiteRef) (team : Int) : Bool :=
  e.team == some team && site.isOf e

namespace Table

variable {t u : Table} {site : SiteRef} {team : Int}

/-- The rows of a site and a team. -/
def rowsOf (t : Table) (site : SiteRef) (team : Int) : Table := t.filter (·.isFor site team)

theorem mem_rowsOf {e : StoredEvent} :
    e ∈ t.rowsOf site team ↔ e ∈ t ∧ e.isFor site team = true :=
  List.mem_filter

/-- The rows stand in the order of their numbers. -/
def IsOrdered (t : Table) : Prop := t.Pairwise (·.id < ·.id)

theorem isOrdered_nil : IsOrdered [] := .nil

theorem IsOrdered.addAll (h : t.IsOrdered) {now : Instant} {es : List Entry} {t' : Table}
    {rows : List StoredEvent} (hadd : t.addAll now es = .ok (t', rows)) : t'.IsOrdered := by
  induction es generalizing t rows with
  | nil =>
    cases hadd
    exact h
  | cons e es ih =>
    by_cases hfits : (e.row t.nextId now).numbers.all fitsTable
    · simp only [Table.addAll, add, hfits, if_true, bind, Except.bind] at hadd
      split at hadd
      · cases hadd
      · rename_i p hp
        cases hadd
        refine ih (List.pairwise_append.2 ⟨h, by simp, fun r hr row hrow ↦ ?_⟩) hp
        rw [List.mem_singleton.1 hrow]
        exact lt_nextId hr
    · simp [Table.addAll, add, hfits, bind, Except.bind] at hadd

/-- Tables in the order of their numbers are equal when they have the same rows. -/
theorem IsOrdered.eq_of_mem_iff (ht : t.IsOrdered) (hu : u.IsOrdered)
    (h : ∀ e, e ∈ t ↔ e ∈ u) : t = u := by
  have : Std.Irrefl fun a b : StoredEvent ↦ a.id < b.id := ⟨fun _ ↦ Int.lt_irrefl _⟩
  have : Std.Antisymm fun a b : StoredEvent ↦ a.id < b.id :=
    ⟨fun _ _ hab hba ↦ absurd hab (Int.lt_asymm hba)⟩
  exact List.Pairwise.eq_of_mem_iff ht hu h

theorem rowsOf_congr (ht : t.IsOrdered) (hu : u.IsOrdered)
    (h : ∀ e : StoredEvent, e.isFor site team = true → (e ∈ t ↔ e ∈ u)) :
    t.rowsOf site team = u.rowsOf site team := by
  refine IsOrdered.eq_of_mem_iff (ht.filter _) (hu.filter _) fun e ↦ ?_
  rw [mem_rowsOf, mem_rowsOf]
  exact and_congr_left (h e)

end Table

namespace Server

variable {α : Type} {s : Server} {t : Table}

/-- Batches keep the table in the order of the numbers of its rows. -/
theorem isOrdered_insertAll (h : ∀ t, s.table = some t → t.IsOrdered) (now : Instant)
    (records : List EventRecord) :
    ∀ t, (s.insertAll now records).2.table = some t → t.IsOrdered := by
  unfold insertAll
  split
  · exact h
  · cases hentries : records.mapM entry with
    | error => exact h
    | ok entries =>
      cases ht : s.table with
      | none => simp [ht]
      | some t =>
        cases hadd : t.addAll now entries with
        | error => simpa only [hadd] using h
        | ok p =>
          simp only [hadd, Option.some.injEq]
          rintro _ rfl
          exact (h t ht).addAll hadd

/-- Whether a table can be asked for a site and a team. -/
def Seeks (site : SiteRef) (team : Int) : Prop :=
  fitsTable team = true ∧ site.number?.all fitsTable = true

instance (site : SiteRef) (team : Int) : Decidable (Seeks site team) :=
  inferInstanceAs (Decidable (_ ∧ _))

/-- The conditions of the statements for a site and a team. -/
def tests (site : SiteRef) (team : Int) : Conditions :=
  [fun e ↦ e.team.any (Parameter.isWhole · (.whole team)),
    match site with
    | .number n => fun e ↦ Parameter.isWhole e.site (.whole n)
    | .tag s => fun e ↦ e.tag == s]

theorem conditions_of (site : SiteRef) (team : Int) :
    Scope.conditions (.of site team) =
      if Seeks site team then .ok (tests site team) else .error .huge := by
  cases site with
  | number n =>
    by_cases hteam : fitsTable team = true <;> by_cases hsite : fitsTable n = true <;>
      simp [Scope.conditions, Scope.teamTest, Scope.siteTest, Scope.of, SiteRef.toValue,
        Parameter.ofValue, hteam, hsite, Except.map, bind, Except.bind, pure, Except.pure, Seeks,
        SiteRef.number?, tests]
  | tag s =>
    by_cases hteam : fitsTable team = true <;>
      simp [Scope.conditions, Scope.teamTest, Scope.siteTest, Scope.of, SiteRef.toValue,
        Parameter.ofValue, hteam, Except.map, bind, Except.bind, pure, Except.pure, Seeks,
        SiteRef.number?, tests]

/-- What the conditions let through are the rows of the site and the team. -/
theorem meeting_tests (t : Table) (site : SiteRef) (team : Int) :
    t.meeting (tests site team) = t.rowsOf site team := by
  refine List.filter_congr fun e _ ↦ ?_
  cases h : e.team <;> cases site <;>
    simp [tests, Parameter.isWhole, StoredEvent.isFor, SiteRef.isOf, Bool.beq_comm, h]

/-- A read that puts conditions on rows as a selection of them does sees the rows of the site and
the team. -/
theorem read_of (ht : s.table = some t) (site : SiteRef) (team : Int)
    {f : Table → Conditions → Except Failure α}
    (hf : ∀ base, f (t.meeting base) [] = f t base) :
    s.read (.of site team) f =
      if Seeks site team then f (t.rowsOf site team) [] else .error (.fault .hugeForStore) := by
  by_cases h : Seeks site team
  · simp only [read, ht, conditions_of, if_pos h, ← hf, meeting_tests]
  · simp only [read, ht, conditions_of, if_neg h]

theorem list_of (ht : s.table = some t) (site : SiteRef) (team : Int) (f : EventFilters) :
    s.list (.of site team) f =
      if Seeks site team then ((t.rowsOf site team).list f).mapError .fault
      else .error (.fault .hugeForStore) := by
  by_cases h : Seeks site team
  · rw [list, ht, conditions_of, if_pos h, if_pos h, ← meeting_tests, Table.list_meeting]
  · rw [list, ht, conditions_of, if_neg h, if_neg h]

/-- A query sees of a table what the scope leaves of it. -/
theorem run_of (ht : s.table = some t) (n team : Int) (q : TableQuery) (limit : Value) :
    s.run (.of (.number n) team) q limit =
      (rowBound limit s.maxRows).mapError .fault >>= fun bound ↦
        q.run bound source (.ok id) (some (t.rowsOf (.number n) team)) := by
  rw [run, ht]
  rfl

end Server

namespace Backend

/-- A backend over a server whose table holds some rows. -/
def sharing (kind : StorageKind) (windowDays : Value) (s : Server) (t : Table) : Backend :=
  ⟨kind, windowDays, .server { s with table := some t }⟩

/-- Both give the same answers to all reads for a site and a team, and for a site that is named by
number also to all queries of widgets. -/
structure AnswersAlike (b c : Backend) (site : SiteRef) (team : Int) : Prop where
  list : ∀ f, (b.list (.of site team) f).1 = (c.list (.of site team) f).1
  dashboard : ∀ now range limit offset,
    (b.dashboard now ⟨site, team, range, limit, offset⟩).1 =
      (c.dashboard now ⟨site, team, range, limit, offset⟩).1
  hasAny : (b.hasAny (.of site team)).1 = (c.hasAny (.of site team)).1
  stats : ∀ r, (b.stats (.of site team) r).1 = (c.stats (.of site team) r).1
  summary : ∀ o, (b.summary (.of site team) o).1 = (c.summary (.of site team) o).1
  series : ∀ r g byEvent,
    (b.series (.of site team) r g byEvent).1 = (c.series (.of site team) r g byEvent).1
  run : ∀ n, site = .number n → ∀ w columns filters dialect scope q,
    Report.compile w columns filters dialect scope = .ok q → ∀ limit,
    (b.run (.of site team) (.chart q) limit).1 = (c.run (.of site team) (.chart q) limit).1

variable {t u : Table} {site : SiteRef} {team : Int}

/-- Rows of others do not show: what a table answers for a site and a team depends on their rows
alone. -/
theorem answersAlike_of_rows (kind : StorageKind) (windowDays : Value) (s : Server)
    (ht : t.IsOrdered) (hu : u.IsOrdered)
    (h : ∀ e : StoredEvent, e.isFor site team = true → (e ∈ t ↔ e ∈ u)) :
    AnswersAlike (sharing kind windowDays s t) (sharing kind windowDays s u) site team := by
  have hrows := Table.rowsOf_congr ht hu h
  have hlist (f : EventFilters) : Server.list { s with table := some t } (.of site team) f =
      Server.list { s with table := some u } (.of site team) f := by
    rw [Server.list_of rfl, Server.list_of rfl, hrows]
  have hread {α : Type} {f : Table → Conditions → Except Failure α}
      (hf : ∀ t base, f (Table.meeting t base) [] = f t base) :
      Server.read { s with table := some t } (.of site team) f =
        Server.read { s with table := some u } (.of site team) f := by
    rw [Server.read_of rfl _ _ (hf t), Server.read_of rfl _ _ (hf u), hrows]
  constructor
  case list => exact fun f ↦ congrArg (Work.done · _) (hlist f)
  case dashboard =>
    intro now range limit offset
    cases hf : DashboardOptions.filters ⟨site, team, range, limit, offset⟩ now windowDays with
    | error e => simp only [dashboard, sharing, hf]
    | ok f => simp only [dashboard, sharing, hf, read, hlist]
  case hasAny =>
    exact congrArg (Work.done · _) (hread fun t base ↦ congrArg _ (t.hasAny_meeting base))
  case stats =>
    exact fun r ↦ congrArg (Work.done · _) (hread fun t base ↦ congrArg _ (t.stats_meeting base r))
  case summary =>
    exact fun o ↦ congrArg (Work.done · _)
      (hread fun t base ↦ congrArg _ (t.summary_meeting base o))
  case series =>
    exact fun r g byEvent ↦ congrArg (Work.done · _)
      (hread fun t base ↦ t.series_meeting base r g byEvent)
  case run =>
    rintro n rfl w columns filters dialect scope q - limit
    have hrun : Server.run { s with table := some t } (.of (.number n) team) (.chart q) limit =
        Server.run { s with table := some u } (.of (.number n) team) (.chart q) limit := by
      rw [Server.run_of rfl, Server.run_of rfl, hrows]
    exact congrArg (Work.done · _) hrun

/-- A row of an event without a context. -/
def viewRow (id site team : Int) : StoredEvent :=
  ⟨id, site, "tag", some team, some team, "view", {}, ⟨0⟩, ⟨0⟩⟩

theorem answersAlike_of_rows_strangers :
    let t := [viewRow 1 1 10, viewRow 2 1 20]
    let u := [viewRow 1 1 10, viewRow 3 2 10, viewRow 4 1 20]
    Table.IsOrdered t ∧ Table.IsOrdered u ∧
    (∀ e : StoredEvent, e.isFor (.number 1) 10 = true → (e ∈ t ↔ e ∈ u)) ∧
    AnswersAlike (sharing .postgres (.int 7) {} t) (sharing .postgres (.int 7) {} u)
      (.number 1) 10 := by
  intro t u
  have ht : Table.IsOrdered t := by simp [t, Table.IsOrdered, viewRow]
  have hu : Table.IsOrdered u := by simp [u, Table.IsOrdered, viewRow]
  have h : ∀ e : StoredEvent, e.isFor (.number 1) 10 = true → (e ∈ t ↔ e ∈ u) := by
    intro e he
    simp only [t, u, List.mem_cons, List.not_mem_nil, or_false]
    refine or_congr_right ⟨?_, ?_⟩
    · rintro rfl
      exact absurd he (by decide)
    · rintro (rfl | rfl) <;> exact absurd he (by decide)
  exact ⟨ht, hu, h, answersAlike_of_rows .postgres (.int 7) {} ht hu h⟩

end Backend

end Footfall
