import Footfall.Proofs.Deleting
import Footfall.Proofs.WholeDays

/-!
Visitors of a rolling window. They are the sessions, each counted once, of the events from the start
of the window on, however late these are. So there are not more of them than events; a longer window
and more events do not take any away, and events of sessions that are there already add none.
-/

namespace Footfall

/-- Where on the calendar a window of at least one second begins, which may be before the first
instant. -/
def Instant.opening (now : Instant) (window : Int) : Int := now.micros - max 1 window * second

theorem Instant.opening_anti (now : Instant) {window longer : Int} (h : window ≤ longer) :
    now.opening longer ≤ now.opening window := by
  unfold opening second
  omega

namespace Table

variable {t u : Table} {start start' : Int}

/-- The sessions of the events from a moment on. An empty session is none. -/
def sessionsSince (t : Table) (start : Int) : Finset String :=
  ((t.filter fun e ↦ start ≤ e.createdAt.micros).filterMap (·.context.rid)).toFinset.erase ""

theorem mem_sessionsSince {s : String} : s ∈ t.sessionsSince start ↔
    s ≠ "" ∧ ∃ e ∈ t, start ≤ e.createdAt.micros ∧ e.context.rid = some s := by
  simp [sessionsSince, and_assoc]

theorem sessionsSince_subset (ht : t ⊆ u) (hstart : start' ≤ start) :
    t.sessionsSince start ⊆ u.sessionsSince start' := by
  intro s hs
  obtain ⟨hne, e, he, hin, hrid⟩ := mem_sessionsSince.1 hs
  exact mem_sessionsSince.2 ⟨hne, e, ht he, hstart.trans hin, hrid⟩

theorem session_eq_some_iff {e : StoredEvent} {s : String} :
    session e = some s ↔ s ≠ "" ∧ e.context.rid = some s := by
  rw [session, Option.filter_eq_some_iff]
  simp [and_comm]

theorem mem_between_none {start : Instant} {e : StoredEvent} :
    e ∈ t.between start none ↔ e ∈ t ∧ (start.micros : Int) ≤ e.createdAt.micros := by
  simp [between, Instant.le_def]

theorem visitors_eq_card (t : Table) (start : Instant) :
    t.visitors start = (t.sessionsSince start.micros).card := by
  have hsame : ((t.between start none).filterMap session).toFinset =
      t.sessionsSince start.micros := by
    ext s
    rw [List.mem_toFinset, List.mem_filterMap, mem_sessionsSince]
    simp only [mem_between_none, session_eq_some_iff]
    constructor
    · rintro ⟨e, ⟨he, hin⟩, hne, hrid⟩
      exact ⟨hne, e, he, hin, hrid⟩
    · rintro ⟨hne, e, he, hin, hrid⟩
      exact ⟨e, ⟨he, hin⟩, hne, hrid⟩
  rw [visitors, distinct_eq_dedup, ← List.card_toFinset, hsame]

theorem card_sessionsSince_le (t : Table) (start : Instant) :
    (t.sessionsSince start.micros).card ≤ (t.between start none).length := by
  rw [← visitors_eq_card, visitors, distinct_eq_dedup]
  exact (List.dedup_sublist _).length_le.trans (List.length_filterMap_le ..)

/-- Rows whose sessions are known add no session, wherever in time they are. -/
theorem sessionsSince_append {rows : Table} (h : ∀ r ∈ rows, ∃ e ∈ t,
    start ≤ e.createdAt.micros ∧ e.context.rid = r.context.rid) :
    (t ++ rows).sessionsSince start = t.sessionsSince start := by
  apply Finset.Subset.antisymm
  · intro s hs
    obtain ⟨hne, r, hr, hin, hrid⟩ := mem_sessionsSince.1 hs
    rcases List.mem_append.1 hr with hr | hr
    · exact mem_sessionsSince.2 ⟨hne, r, hr, hin, hrid⟩
    · obtain ⟨e, he, hin, hsame⟩ := h r hr
      exact mem_sessionsSince.2 ⟨hne, e, he, hin, hsame.trans hrid⟩
  · exact sessionsSince_subset (List.subset_append_left ..) le_rfl

end Table

namespace Connection

variable {c : Connection} {now : Instant} {window : Int}

theorem windowStart_int (now : Instant) (window : Int) :
    windowStart now (.int window) = spanOfSeconds (.int (max 1 window)) >>= now.earlier := by
  unfold windowStart
  rw [Value.above_int]
  by_cases hlong : 1 < window
  · simp [bind, Except.bind, hlong, max_eq_right hlong.le]
  · simp [bind, Except.bind, hlong, max_eq_left (not_lt.1 hlong)]

/-- A window that begins on the calendar is short enough for a span of time. -/
theorem windowStart_eq (hnow : now.micros < Instant.limit) (h : 0 ≤ now.opening window) :
    windowStart now (.int window) = .ok ⟨(now.opening window).toNat⟩ := by
  have hin : 0 ≤ (now.micros : Int) + -(max 1 window * Instant.second) ∧
      (now.micros : Int) + -(max 1 window * Instant.second) < Instant.limit := by
    unfold Instant.opening Instant.second at h
    unfold Instant.second
    omega
  have hdays : 0 ≤ (max 1 window * Instant.second).fdiv Instant.dayLength ∧
      (max 1 window * (Instant.second : Int)).fdiv Instant.dayLength ≤ maxSpanDays := by
    have hlimit : Instant.limit = 3652059 * Instant.dayLength := rfl
    have hsecond : (Instant.second : Int) = 1000000 := rfl
    rw [hlimit, Instant.dayLength_eq] at hnow
    rw [Int.fdiv_eq_ediv_of_nonneg _ (Int.natCast_nonneg _), Instant.dayLength_eq]
    rw [hsecond] at hin ⊢
    unfold maxSpanDays
    omega
  have hspan : spanOfSeconds (.int (max 1 window)) = .ok (max 1 window * Instant.second) :=
    spanOf_int "seconds" (le_trans (by decide) hdays.1) hdays.2
  have hearlier : now.earlier (max 1 window * Instant.second) =
      .ok ⟨(now.opening window).toNat⟩ := by
    rw [Instant.earlier, Instant.shift?, Instant.ofMicros?, if_pos hin]
    rfl
  rw [windowStart_int, hspan]
  exact hearlier

theorem fst_visitors (hc : c.IsSound) (hnow : now.micros < Instant.limit)
    (h : 0 ≤ now.opening window) : (c.visitors now (.int window)).1 =
      .ok (c.content.sessionsSince (now.opening window)).card := by
  have hread : (c.visitors now (.int window)).1 =
      .ok (c.content.visitors ⟨(now.opening window).toNat⟩) := by
    simp only [visitors, windowStart_eq hnow h]
    exact (reads_read _).fst hc
  rw [hread, Table.visitors_eq_card, Int.toNat_of_nonneg h]

theorem fst_countSince (hc : c.IsSound) {start : Instant} (h : start.micros < Instant.limit) :
    (c.countSince (.time (.ofInstant start)) .null).1 =
      .ok (c.content.between start none).length := by
  have hread : c.countSince (.time (.ofInstant start)) .null =
      c.read fun t ↦ .ok (t.between start none).length := by
    rw [countSince, Value.toInstant_time (Timestamp.toInstant?_ofInstant h)]
    rfl
  rw [hread]
  exact (reads_read _).fst hc

/-- A call that deletes nothing leaves all rows there. -/
theorem subset_after {call : StoreCall} (h : ∀ e, call.dooms e = false) :
    c.content ⊆ (c.after call).content := by
  cases c.goes_after call with
  | keep _ hcontent => simp [hcontent, h]
  | put _ _ _ hcontent => exact hcontent ▸ List.subset_append_left ..

theorem subset_afterAll {calls : List StoreCall} (h : ∀ call ∈ calls, ∀ e, call.dooms e = false) :
    c.content ⊆ (c.afterAll calls).content := by
  induction calls using List.reverseRecOn with
  | nil => exact List.Subset.refl _
  | append_singleton before call ih =>
    rw [afterAll_concat]
    have hbefore := ih fun x hx ↦ h x (List.mem_append_left _ hx)
    exact List.Subset.trans hbefore (subset_after (h call (by simp)))

theorem sessionsSince_insertAll {time : Instant} {records : List EventRecord} {start : Int}
    (h : ∀ r ∈ records, ∃ e ∈ c.content,
      start ≤ e.createdAt.micros ∧ e.context.rid = r.context.rid) :
    (c.insertAll time records).2.content.sessionsSince start = c.content.sessionsSince start := by
  have hends := c.ends_insertAll time records
  generalize (c.insertAll time records).1 = result at hends
  generalize (c.insertAll time records).2.content = t at hends
  cases hends with
  | refused => rfl
  | stored _ =>
    refine Table.sessionsSince_append fun row hrow ↦ ?_
    obtain ⟨entry, hentry, n, rfl⟩ := Entry.exists_of_mem_rows hrow
    obtain ⟨r, hr, rfl⟩ := List.mem_map.1 hentry
    exact h r hr

/-- The visitors of a window are the sessions in it. They are not more than the events since its
start, than the visitors of a longer window, or than those after calls that delete nothing; and a
batch of events of sessions that are in the window already adds none. -/
theorem visitors_of_window (hc : c.IsSound) (hnow : now.micros < Instant.limit)
    (hwindow : 0 ≤ now.opening window) :
    ∃ n, (c.visitors now (.int window)).1 = .ok n ∧
      n = (c.content.sessionsSince (now.opening window)).card ∧
      (∀ start : Instant, (start.micros : Int) = now.opening window →
        ∃ m, (c.countSince (.time (.ofInstant start)) .null).1 = .ok m ∧ n ≤ m) ∧
      (∀ longer, window ≤ longer → 0 ≤ now.opening longer →
        ∃ m, (c.visitors now (.int longer)).1 = .ok m ∧ n ≤ m) ∧
      (∀ calls, (∀ call ∈ calls, ∀ e, StoreCall.dooms call e = false) →
        ∃ m, ((c.afterAll calls).visitors now (.int window)).1 = .ok m ∧ n ≤ m) ∧
      ∀ time records, (∀ r ∈ records, ∃ e ∈ c.content,
          now.opening window ≤ e.createdAt.micros ∧ e.context.rid = r.context.rid) →
        ((c.insertAll time records).2.visitors now (.int window)).1 = .ok n := by
  refine ⟨_, fst_visitors hc hnow hwindow, rfl, fun start hstart ↦ ?_, fun longer hle hlonger ↦ ?_,
    fun calls hcalls ↦ ?_, fun time records hrecords ↦ ?_⟩
  · have hlimit : start.micros < Instant.limit := by
      unfold Instant.opening Instant.second at hstart
      omega
    rw [← hstart]
    exact ⟨_, fst_countSince hc hlimit, Table.card_sessionsSince_le ..⟩
  · exact ⟨_, fst_visitors hc hnow hlonger, Finset.card_le_card
      (Table.sessionsSince_subset (List.Subset.refl _) (now.opening_anti hle))⟩
  · exact ⟨_, fst_visitors (hc.afterAll calls) hnow hwindow, Finset.card_le_card
      (Table.sessionsSince_subset (subset_afterAll hcalls) le_rfl)⟩
  · rw [fst_visitors (hc.insertAll time records) hnow hwindow, sessionsSince_insertAll hrecords]

/-- An event that a session sent a number of seconds into the calendar. -/
def sessionRow (id : Nat) (rid : Option String) (second : Nat) : StoredEvent :=
  { Backend.viewRow id 1 0 with
    createdAt := ⟨second * Instant.second⟩
    context := { rid := rid } }

/-- In the window of five seconds that ends at ten there are two sessions, one of them twice and one
of the future, beside an event without a session, one of an empty session, and one too early. -/
def twoSessions : Connection :=
  ⟨{ site := 1, schemaReady := true }, some [sessionRow 1 (some "early") 4,
    sessionRow 2 (some "a") 5, sessionRow 3 (some "a") 9, sessionRow 4 (some "") 9,
    sessionRow 5 none 9, sessionRow 6 (some "b") 60]⟩

theorem visitors_of_window_twoSessions : twoSessions.IsSound ∧
    (⟨10 * Instant.second⟩ : Instant).micros < Instant.limit ∧
    0 ≤ (⟨10 * Instant.second⟩ : Instant).opening 5 ∧
    (twoSessions.visitors ⟨10 * Instant.second⟩ (.int 5)).1 = .ok 2 := by
  have hsound : twoSessions.IsSound := fun _ ↦ rfl
  have hnow : (⟨10 * Instant.second⟩ : Instant).micros < Instant.limit := by decide
  have hwindow : 0 ≤ (⟨10 * Instant.second⟩ : Instant).opening 5 := by decide
  obtain ⟨n, hn, hcard, -⟩ := visitors_of_window hsound hnow hwindow
  have htwo : (twoSessions.content.sessionsSince
      ((⟨10 * Instant.second⟩ : Instant).opening 5)).card = 2 := by decide
  exact ⟨hsound, hnow, hwindow, hn.trans (congrArg Except.ok (hcard.trans htwo))⟩

/-- At the first instant of the calendar a window of no seconds would begin right there, but it is
made one of a second, which does not begin on the calendar. -/
theorem visitors_firstInstant :
    (⟨0⟩ : Instant).shift? (-(0 * Instant.second)) = some ⟨0⟩ ∧
      (unused.content.sessionsSince ((⟨0⟩ : Instant).opening 0)).card = 0 ∧
      (unused.visitors ⟨0⟩ (.int 0)).1 = .error (.fault .outsideCalendar) :=
  ⟨by decide, by decide, by rfl⟩

end Connection

end Footfall
