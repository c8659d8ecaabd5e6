import Footfall.Proofs.Failing
import Footfall.Proofs.Listing
import Footfall.Proofs.Outages

/-!
Reads whose numbers meet a bound. Settings and requests are checked from below alone, but the
calendar begins at the year 1 and a table holds whole numbers of 64 bits. A listing or a dashboard
ends with a result or a failure of the library's own kinds exactly if its window lies in the calendar
and its numbers fit the table that it is made from; otherwise it ends with a fault of a number.
-/

namespace Footfall

/-- The failures that a request is told of by the library. A fault is none of them. -/
def Failure.IsOwn : Failure → Prop
  | .violation _ | .field _ _ | .notYours | .outage _ | .deadline _ | .other _ => True
  | .setting _ | .rejected _ | .fault _ => False

/-- A fault of a number that is too large for what it stands for, or is no number at all. -/
inductive Fault.IsOfNumber : Fault → Prop
  | outsideCalendar : IsOfNumber .outsideCalendar
  | longSpan (days : Int) : IsOfNumber (.longSpan days)
  | hugeSpan : IsOfNumber .hugeSpan
  | hugeForStore : IsOfNumber .hugeForStore
  | infinite : IsOfNumber .infinite
  | notANumber : IsOfNumber .notANumber

/-- A failure by a fault of a number. -/
def Failure.IsOfNumber (e : Failure) : Prop := ∃ f, e = .fault f ∧ f.IsOfNumber

/-- A computation that under a condition has a result or a failure of the library's own kinds, and
otherwise a fault of a number. -/
def EndsWellIf {α : Type} (x : Except Failure α) (p : Prop) : Prop :=
  FailsWhen x (¬p) Failure.IsOfNumber Failure.IsOwn

namespace EndsWellIf

variable {α β : Type} {x : Except Failure α} {p q : Prop}

theorem ok (a : α) : EndsWellIf (.ok a) True := (FailsWhen.ok a).congr not_true.symm

theorem error {e : Failure} (h : e.IsOwn) : EndsWellIf (.error e : Except Failure α) True :=
  (FailsWhen.error_otherwise h).congr not_true.symm

theorem ofNumber {f : Fault} (h : f.IsOfNumber) :
    EndsWellIf (.error (.fault f) : Except Failure α) False :=
  FailsWhen.congr (.error ⟨f, rfl, h⟩) not_false_iff.symm

theorem congr (h : EndsWellIf x p) (hpq : p ↔ q) : EndsWellIf x q := propext hpq ▸ h

theorem bind (hx : EndsWellIf x p) {g : α → Except Failure β} (hg : ∀ a, EndsWellIf (g a) True) :
    EndsWellIf (x >>= g) p :=
  FailsWhen.bind_otherwise hx fun a ↦ FailsWhen.congr (hg a) not_true

end EndsWellIf

/-- Work that ends, and ends well under a condition. -/
def Work.EndsWellIf {α : Type} (w : Work α) (p : Prop) : Prop :=
  ∃ x pauses, w = .done x pauses ∧ Footfall.EndsWellIf x p

theorem Work.EndsWellIf.congr {α : Type} {w : Work α} {p q : Prop} (h : w.EndsWellIf p)
    (hpq : p ↔ q) : w.EndsWellIf q := propext hpq ▸ h

namespace Instant

variable {now : Instant} {days : Value} {n : Int}

theorem isOfNumber_of_microsOf {unit : Int} {m : Number} {f : Fault}
    (h : microsOf unit m = .error f) : f.IsOfNumber := by
  cases m with
  | whole n => cases h
  | real x =>
    cases x <;> cases h
    · exact .notANumber
    · exact .infinite

theorem isOfNumber_of_spanOfDays {f : Fault} (hdays : days.number?.isSome)
    (h : spanOfDays days = .error f) : f.IsOfNumber := by
  obtain ⟨m, hm⟩ := Option.isSome_iff_exists.1 hdays
  unfold spanOfDays spanOf at h
  rw [hm] at h
  rcases bind_eq_error_iff.1 h with h | ⟨micros, -, h⟩
  · exact isOfNumber_of_microsOf h
  · dsimp only at h
    split at h
    · cases h
      exact .hugeSpan
    · split at h
      · cases h
        exact .longSpan _
      · cases h

/-- A number of days has a start, unless it is too large or no number. -/
theorem isOfNumber_of_daysBefore {f : Fault} (hdays : days.number?.isSome)
    (h : now.daysBefore days = .error f) : f.IsOfNumber := by
  rcases bind_eq_error_iff.1 h with h | ⟨span, -, h⟩
  · exact isOfNumber_of_spanOfDays hdays h
  · unfold earlier at h
    split at h
    · cases h
    · cases h
      exact .outsideCalendar

theorem exists_earlier_iff {micros : Int} : (∃ start, now.earlier micros = .ok start) ↔
    0 ≤ now.micros - micros ∧ now.micros - micros < limit := by
  unfold earlier shift? ofMicros?
  rw [← sub_eq_add_neg]
  split
  · rename_i start h
    exact iff_of_true ⟨start, rfl⟩ (Option.ite_none_right_eq_some.1 h).1
  · rename_i h
    refine iff_of_false (fun ⟨start, hstart⟩ ↦ by cases hstart) fun hin ↦ ?_
    cases (if_pos hin).symm.trans h

theorem eq_of_spanOfDays {span : Int} (h : spanOfDays (.int n) = .ok span) :
    span = n * dayLength := by
  obtain ⟨micros, hmicros, h⟩ := bind_eq_ok_iff.1 h
  cases hmicros
  dsimp only at h
  split at h
  · cases h
  · split at h
    · cases h
    · cases h
      rfl

/-- A window of whole days lies in the calendar if there are as many days before. -/
theorem exists_daysBefore_iff (hn : 1 ≤ n) (hnow : now.micros < limit) :
    (∃ start, now.daysBefore (.int n) = .ok start) ↔ n ≤ now.day := by
  have hday : n * (dayLength : Int) ≤ now.micros ↔ n ≤ now.day := by
    rw [day, dayLength_eq]
    omega
  constructor
  · rintro ⟨start, h⟩
    obtain ⟨span, hspan, hstart⟩ := bind_eq_ok_iff.1 h
    obtain rfl := eq_of_spanOfDays hspan
    have hin := (exists_earlier_iff.1 ⟨start, hstart⟩).1
    exact hday.1 (by omega)
  · intro h
    have hlast : now.day < 3652059 := by
      rw [limit, dayLength_eq] at hnow
      rw [day, dayLength_eq]
      omega
    have hspan : spanOfDays (.int n) = .ok (n * dayLength) :=
      spanOfDays_int (by unfold maxSpanDays; omega) (by unfold maxSpanDays; omega)
    have hin : 0 ≤ (now.micros : Int) - n * dayLength ∧
        (now.micros : Int) - n * dayLength < limit := by
      have hle := hday.2 h
      have hpos : 0 ≤ n * (dayLength : Int) := Int.mul_nonneg (by omega) (Int.natCast_nonneg _)
      omega
    obtain ⟨start, hstart⟩ := exists_earlier_iff.2 hin
    exact ⟨start, bind_eq_ok_iff.2 ⟨_, hspan, hstart⟩⟩

end Instant

/-- The days of a window are a number that is not below 1. -/
theorem Settings.windowDays_of_validate {s s' : Settings} (h : s.validate = .ok s') :
    s.windowDays.number?.isSome ∧ ∀ n, s.windowDays = .int n → 1 ≤ n := by
  obtain ⟨below, hbelow, h⟩ := bind_eq_ok_iff.1 h
  rw [mapError_eq_ok_iff] at hbelow
  have hnot : below = false := by
    cases below with
    | false => rfl
    | true => cases h
  subst hnot
  constructor
  · cases hdays : s.windowDays with
    | bool | int | float => rfl
    | _ => simp [hdays, Value.lessThan, Value.number?] at hbelow
  · intro n hn
    rw [hn, Value.lessThan_int] at hbelow
    simpa using hbelow

theorem DashboardOptions.page_of_read {v : Value} {o : DashboardOptions}
    (h : DashboardOptions.read v = .accepted o) : 1 ≤ o.limit ∧ 0 ≤ o.offset := by
  obtain ⟨fields, -, h⟩ := Reading.bind_eq_accepted.1 h
  obtain ⟨p, hp, ho⟩ := Reading.bind_eq_accepted.1 h
  obtain ⟨_, offset, h₁, hoffset, rfl⟩ := Reading.seq_eq_accepted.1 hp
  obtain ⟨_, limit, h₂, hlimit, rfl⟩ := Reading.seq_eq_accepted.1 h₁
  obtain ⟨_, range, h₃, -, rfl⟩ := Reading.seq_eq_accepted.1 h₂
  obtain ⟨_, team, h₄, -, rfl⟩ := Reading.seq_eq_accepted.1 h₃
  obtain ⟨_, tag, h₅, -, rfl⟩ := Reading.seq_eq_accepted.1 h₄
  obtain ⟨site, -, rfl⟩ := Reading.map_eq_accepted.1 h₅
  have hpage : 1 ≤ limit ∧ 0 ≤ offset := by
    constructor
    · rcases Field.of_optional hlimit with hdefault | ⟨w, -, hw⟩
      · omega
      · exact Field.le_of_atLeast hw
    · rcases Field.of_optional hoffset with hdefault | ⟨w, -, hw⟩
      · omega
      · exact Field.le_of_atLeast hw
  split at ho
  · cases ho
    exact hpage
  · cases ho

/-- The listing of a dashboard is found unless the window is missing, and has the dashboard's page. -/
theorem DashboardOptions.filters_cases (o : DashboardOptions) (now : Instant) {days : Value}
    (hdays : days.number?.isSome) :
    (∃ f, o.filters now days = .error f ∧ f.IsOfNumber ∧
        ¬(o.boundedRange = none → ∃ start, now.daysBefore days = .ok start)) ∨
      ∃ f, o.filters now days = .ok f ∧ f.limit = o.limit ∧ f.offset = o.offset ∧
        (o.boundedRange = none → ∃ start, now.daysBefore days = .ok start) := by
  unfold filters
  cases o.boundedRange with
  | some r => exact .inr ⟨_, rfl, rfl, rfl, fun h ↦ by cases h⟩
  | none =>
    cases hstart : now.daysBefore days with
    | error f =>
      refine .inl ⟨f, rfl, Instant.isOfNumber_of_daysBefore hdays hstart, fun h ↦ ?_⟩
      obtain ⟨start, h⟩ := h rfl
      cases h
    | ok start => exact .inr ⟨_, rfl, rfl, rfl, fun _ ↦ ⟨start, rfl⟩⟩

namespace Table

variable {f : EventFilters}

theorem fitsPage_iff (hlimit : 1 ≤ f.limit) (hoffset : 0 ≤ f.offset) :
    fitsPage f.offset f.limit = true ↔
      f.offset < 0x8000000000000000 ∧ f.limit < 0x8000000000000000 := by
  simp only [fitsPage, fitsTable, Bool.and_eq_true, decide_eq_true_eq]
  omega

theorem endsWellIf_list (t : Table) (f : EventFilters) (base : Conditions) :
    EndsWellIf ((t.list f base).mapError .fault) (fitsPage f.offset f.limit = true) := by
  unfold list
  by_cases h : fitsPage f.offset f.limit = true
  · rw [if_pos h]
    exact (EndsWellIf.ok _).congr (iff_of_true trivial h)
  · rw [if_neg h]
    exact (EndsWellIf.ofNumber .hugeForStore).congr (iff_of_false not_false h)

end Table

namespace Registry

variable {α : Type} {r : Registry}

/-- The table that a read is made from. -/
def tableFor? (r : Registry) (s : Scope) : Option Table :=
  match r.storeOf s with
  | (.ok (some store), r') => (r'.connect store).prepared.table
  | _ => none

theorem isOwn_of_loadIdentity {c : Connection} {e : Failure} (h : c.loadIdentity.1 = .error e) :
    e.IsOwn := by
  unfold Connection.loadIdentity at h
  split at h
  · cases h
  · dsimp only at h
    split at h
    · cases h
      trivial
    · cases h
    · cases h

theorem isOwn_of_reopen {n : Int} {e : Failure} (h : (r.reopen n).1 = .error e) : e.IsOwn := by
  have hidentify (r : Registry) (s : SiteStore) (h : (r.identify s).1 = .error e) : e.IsOwn := by
    unfold identify at h
    split at h
    · rename_i e' c hl
      cases h
      exact isOwn_of_loadIdentity (congrArg Prod.fst hl)
    · cases h
  rw [reopen_eq] at h
  split at h
  · cases h
  · split at h
    · exact hidentify _ _ h
    · exact hidentify _ _ h

theorem isOwn_of_search {tag : Value} {sites : List Int} {e : Failure}
    (h : (r.search tag sites).1 = .error e) : e.IsOwn := by
  induction sites generalizing r with
  | nil => cases h
  | cons n rest ih =>
    unfold search at h
    split at h
    · split at h
      · cases h
      · exact ih h
    · exact ih h
    · rename_i e' r' hr
      cases h
      exact isOwn_of_reopen (congrArg Prod.fst hr)

/-- A site that is named by a number or a tag can be looked for, so that only an outage is in the
way. -/
theorem isOwn_of_storeOf {site : SiteRef} {team : Int} {e : Failure}
    (h : (r.storeOf (.of site team)).1 = .error e) : e.IsOwn := by
  have hmap {found : Except Failure (Option SiteStore)} {g : Option SiteStore → Option SiteStore}
      (h : found.map g = .error e) : found = .error e := by
    cases found with
    | error e' =>
      cases h
      rfl
    | ok found => cases h
  cases site with
  | number n => exact isOwn_of_reopen (hmap h)
  | tag t =>
    have hfound : (r.findByTag (.text t)).1 = .error e := hmap h
    rw [findByTag, Value.asTextKey_text] at hfound
    dsimp only at hfound
    split at hfound
    · exact isOwn_of_reopen hfound
    · exact isOwn_of_search hfound

theorem endsWellIf_read {own : Connection → Except Failure α × Connection}
    {absent : Except Failure α} {q : Prop} (habsent : EndsWellIf absent True)
    (hown : ∀ c, EndsWellIf (own c).1 (c.prepared.table = none ∨ q)) (site : SiteRef) (team : Int) :
    (r.read (.of site team) absent own).1.EndsWellIf
      (r.tableFor? (.of site team) = none ∨ q) := by
  unfold read tableFor?
  rcases hs : r.storeOf (.of site team) with ⟨e | _ | store, r'⟩
  · have he : e.IsOwn := isOwn_of_storeOf (congrArg Prod.fst hs)
    exact ⟨_, _, rfl, (EndsWellIf.error he).congr (by simp)⟩
  · exact ⟨_, _, rfl, habsent.congr (by simp)⟩
  · exact ⟨_, _, rfl, hown _⟩

end Registry

theorem Connection.endsWellIf_list (c : Connection) (f : EventFilters) :
    EndsWellIf (c.list f).1
      (c.prepared.table = none ∨ Table.fitsPage f.offset f.limit = true) := by
  unfold list
  dsimp only
  cases c.prepared.table with
  | none => exact (EndsWellIf.ok _).congr (by simp)
  | some t => exact (t.endsWellIf_list f []).congr (by simp)

theorem Server.endsWellIf_list (s : Server) (site : SiteRef) (team : Int) (f : EventFilters) :
    EndsWellIf (s.list (.of site team) f) (s.table = none ∨
      Server.Seeks site team ∧ Table.fitsPage f.offset f.limit = true) := by
  unfold list
  cases ht : s.table with
  | none => exact (EndsWellIf.ok _).congr (by simp)
  | some t =>
    rw [conditions_of]
    by_cases hseeks : Server.Seeks site team
    · rw [if_pos hseeks]
      exact (t.endsWellIf_list f _).congr (by simp [hseeks])
    · rw [if_neg hseeks]
      exact (EndsWellIf.ofNumber .hugeForStore).congr (by simp [hseeks])

namespace Backend

variable {b : Backend} {site : SiteRef} {team : Int}

/-- The backend is in order: it answers, and does not fail every call. -/
def IsRunning (b : Backend) : Prop :=
  match b.engine with
  | .embedded _ | .server _ | .absent => True
  | .stalled | .failing _ => False

/-- The table that a read of a site for a team is made from. -/
def tableFor? (b : Backend) (site : SiteRef) (team : Int) : Option Table :=
  match b.engine with
  | .embedded r => r.tableFor? (.of site team)
  | .server s => s.table
  | .absent | .stalled | .failing _ => none

/-- The numbers of a request fit the table that it is made from. If teams share the table, this
includes the numbers of the site and the team. -/
def HasRoom (b : Backend) (site : SiteRef) (team offset limit : Int) : Prop :=
  b.tableFor? site team = none ∨ (b.isShared = true → Server.Seeks site team) ∧
    offset < 0x8000000000000000 ∧ limit < 0x8000000000000000

theorem endsWellIf_rowsOfPage (f : EventFilters) (source : String) (p : EventPage) :
    EndsWellIf (rowsOfPage f source p) True := by
  unfold rowsOfPage
  split
  · exact .error trivial
  · exact .ok _

/-- A read of a page, by the page's own filters. -/
theorem endsWellIf_read {α : Type} (hrun : b.IsRunning) {f : EventFilters} (hlimit : 1 ≤ f.limit)
    (hoffset : 0 ≤ f.offset) {a : α} {own : Connection → Except Failure α × Connection}
    {shared : Server → Except Failure α}
    (hown : ∀ c, EndsWellIf (own c).1
      (c.prepared.table = none ∨ Table.fitsPage f.offset f.limit = true))
    (hshared : ∀ s : Server, EndsWellIf (shared s) (s.table = none ∨
      Server.Seeks site team ∧ Table.fitsPage f.offset f.limit = true)) :
    (b.read (.of site team) (.ok a) (.ok ()) own shared).1.EndsWellIf
      (b.HasRoom site team f.offset f.limit) := by
  have hfits := Table.fitsPage_iff hlimit hoffset
  unfold HasRoom tableFor? isShared read
  unfold IsRunning at hrun
  cases he : b.engine with
  | embedded r =>
    refine (Registry.endsWellIf_read (EndsWellIf.ok a) hown site team).congr ?_
    simp [hfits]
  | server s =>
    refine ⟨_, _, rfl, (hshared s).congr ?_⟩
    simp [hfits]
  | absent => exact ⟨_, _, rfl, (EndsWellIf.ok a).congr (by simp)⟩
  | stalled | failing => simp [he] at hrun

theorem endsWellIf_list (hrun : b.IsRunning) {f : EventFilters} (hlimit : 1 ≤ f.limit)
    (hoffset : 0 ≤ f.offset) :
    (b.list (.of site team) f).1.EndsWellIf (b.HasRoom site team f.offset f.limit) :=
  endsWellIf_read hrun hlimit hoffset (·.endsWellIf_list f) (·.endsWellIf_list site team f)

/-- A page is fetched for a dashboard once there is a window. -/
theorem endsWellIf_dashboard (hrun : b.IsRunning) {days : Value} (hb : b.windowDays = days)
    (hdays : days.number?.isSome) (now : Instant) {o : DashboardOptions} (hlimit : 1 ≤ o.limit)
    (hoffset : 0 ≤ o.offset) :
    (b.dashboard now o).1.EndsWellIf
      ((o.boundedRange = none → ∃ start, now.daysBefore days = .ok start) ∧
        b.HasRoom o.site o.team o.offset o.limit) := by
  subst hb
  have hown (f : EventFilters) (c : Connection) : EndsWellIf (ownDashboard f c).1
      (c.prepared.table = none ∨ Table.fitsPage f.offset f.limit = true) :=
    (c.endsWellIf_list f).bind (endsWellIf_rowsOfPage f _)
  have hshared (f : EventFilters) (s : Server) :
      EndsWellIf (s.list (.of o.site o.team) f >>= rowsOfPage f Server.source)
        (s.table = none ∨
          Server.Seeks o.site o.team ∧ Table.fitsPage f.offset f.limit = true) :=
    (s.endsWellIf_list o.site o.team f).bind (endsWellIf_rowsOfPage f _)
  have hof := hrun
  unfold IsRunning at hof
  rcases o.filters_cases now hdays with ⟨f, hf, hnumber, hwindow⟩ |
    ⟨f, hf, hlimit', hoffset', hwindow⟩
  · have hfault : b.dashboard now o = (.done (.error (.fault f)), b) := by
      unfold dashboard
      rw [hf]
      cases he : b.engine <;> simp [he] at hof ⊢
    rw [hfault]
    exact ⟨_, _, rfl, (EndsWellIf.ofNumber hnumber).congr
      (iff_of_false not_false fun h ↦ hwindow h.1)⟩
  · have hread : b.dashboard now o = b.read (.of o.site o.team) (.ok (.empty f)) (.ok ())
        (ownDashboard f) (fun s ↦ s.list (.of o.site o.team) f >>= rowsOfPage f Server.source) := by
      unfold dashboard
      rw [hf]
      cases he : b.engine <;> simp [he] at hof ⊢
      all_goals rfl
    rw [hread, ← hlimit', ← hoffset']
    refine (endsWellIf_read hrun (by omega) (by omega) (hown f) (hshared f)).congr ?_
    exact (and_iff_right hwindow).symm

/-- Under valid settings, whatever a backend holds, a listing and a dashboard end well exactly if the
page fits the table and the window, unless a range is given, lies in the calendar. A window of whole
days does if there are as many days before. -/
theorem endsWellIf_reads {s s' : Settings} (hs : s.validate = .ok s') (hrun : b.IsRunning)
    (hb : b.windowDays = s.windowDays) {now : Instant} (hnow : now.micros < Instant.limit) :
    (∀ v f site team, EventFilters.read v = .accepted f →
      (b.list (.of site team) f).1.EndsWellIf (b.HasRoom site team f.offset f.limit)) ∧
    (∀ v o, DashboardOptions.read v = .accepted o →
      (b.dashboard now o).1.EndsWellIf
        ((o.boundedRange = none → ∃ start, now.daysBefore s.windowDays = .ok start) ∧
          b.HasRoom o.site o.team o.offset o.limit)) ∧
    ∀ n, s.windowDays = .int n →
      ((∃ start, now.daysBefore s.windowDays = .ok start) ↔ n ≤ now.day) := by
  obtain ⟨hnumber, hpositive⟩ := Settings.windowDays_of_validate hs
  refine ⟨fun v f site team hf ↦ ?_, fun v o ho ↦ ?_, fun n hn ↦ ?_⟩
  · obtain ⟨hlimit, hoffset⟩ := EventFilters.page_of_read hf
    exact endsWellIf_list hrun hlimit hoffset
  · obtain ⟨hlimit, hoffset⟩ := DashboardOptions.page_of_read ho
    exact endsWellIf_dashboard hrun hb hnumber now hlimit hoffset
  · rw [hn]
    exact Instant.exists_daysBefore_iff (hpositive n hn) hnow

/-- Reads of a site with one event on the first day of the year 2024, under a window of a year. -/
theorem endsWellIf_reads_oneWrite :
    let s : Settings := { Settings.onDisk with windowDays := .int 365 }
    let b := s.embedded.meetAll oneWrite
    let now : Instant := ⟨738885 * Instant.dayLength⟩
    let o : DashboardOptions := ⟨.number 1, 10, none, 100, 0⟩
    s.validate = .ok s ∧ b.IsRunning ∧ b.windowDays = s.windowDays ∧ now.micros < Instant.limit ∧
      (b.tableFor? (.number 1) 10).isSome ∧
      EventFilters.read (.object [("limit", .int 5)]) = .accepted { limit := 5 } ∧
      (b.list (.of (.number 1) 10) { limit := 5 }).1.EndsWellIf (b.HasRoom (.number 1) 10 0 5) ∧
      DashboardOptions.read (.object [("site_id", .int 1), ("team_id", .int 10)]) = .accepted o ∧
      (b.dashboard now o).1.EndsWellIf
        ((o.boundedRange = none → ∃ start, now.daysBefore s.windowDays = .ok start) ∧
          b.HasRoom (.number 1) 10 0 100) ∧
      ((∃ start, now.daysBefore s.windowDays = .ok start) ↔ (365 : Int) ≤ now.day) := by
  intro s b now o
  have hs : s.validate = .ok s := rfl
  have hrun : b.IsRunning := trivial
  have hnow : now.micros < Instant.limit := by decide
  obtain ⟨hlist, hdashboard, hwindow⟩ := endsWellIf_reads hs hrun rfl hnow
  have hf : EventFilters.read (.object [("limit", .int 5)]) = .accepted { limit := 5 } := rfl
  have ho : DashboardOptions.read (.object [("site_id", .int 1), ("team_id", .int 10)]) =
      .accepted o := rfl
  exact ⟨hs, hrun, rfl, hnow, rfl, hf, hlist _ _ _ _ hf, ho, hdashboard _ _ ho, hwindow 365 rfl⟩

/-- Valid settings and a valid page at which a listing ends with a fault, and so does a dashboard. -/
theorem vastPage_breaks :
    let s := Settings.boundless
    let b := s.embedded.meetAll oneWrite
    s.validate = .ok s ∧
      EventFilters.read (.object [("limit", .int 0x8000000000000000)]) =
        .accepted { limit := 0x8000000000000000 } ∧
      (b.list (.of (.number 1) 10) { limit := 0x8000000000000000 }).1 =
        .done (.error (.fault .hugeForStore)) Work.storePauses ∧
      (b.dashboard ⟨738885 * Instant.dayLength⟩ ⟨.number 1, 10, none, 100, 0⟩).1 =
        .done (.error (.fault .outsideCalendar)) := by
  refine ⟨rfl, rfl, rfl, rfl⟩

end Backend

end Footfall
