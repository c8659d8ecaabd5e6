import Footfall.Proofs.Run

/-!
Isolation of the teams. A store is known to belong to a team only while it is open, and a batch that
opens it makes the team of its first record the owner, whatever rows there are. So isolation lasts
over restarts as long as no batch opens the store of another team.
-/

namespace Footfall

variable {α : Type}

/-- An answer that is computed from some rows, if it does not say that there are none. -/
def Work.IsOf (w : Work α) (empty : Except Failure α) (q : Table → Except Failure α)
    (seen : Table) : Prop := w = .done empty ∨ w = .done (q seen) Work.storePauses

namespace Registry

variable {r r' : Registry} {now : Instant} {site team : Int} {part : List EventRecord}

/-- The rows of each site are of one team, which is that of the store if it is open. -/
structure IsOwned (r : Registry) : Prop where
  isSound : r.IsSound
  one (site : Int) : ∃ t, ∀ e ∈ r.rowsOf site, e.team = some t
  opened {site : Int} {s : SiteStore} : r.find site = some s → ∀ e ∈ r.rowsOf site, e.team = s.team

theorem IsOwned.opens (h : r.IsOwned) (ho : r.Opens r') : r'.IsOwned := by
  refine ⟨ho.isSound, fun site ↦ ?_, fun {site s'} hs' e he ↦ ?_⟩
  · rw [ho.rowsOf]
    exact h.one site
  rw [ho.rowsOf] at he
  obtain ⟨t, ht⟩ := h.one site
  cases hs : r.find site with
  | none =>
    rw [ho.opened hs hs']
    cases hrows : r.rowsOf site with
    | nil => simp [hrows] at he
    | cons oldest rest =>
      have holdest : oldest.team = some t := ht oldest (by simp [hrows])
      simp [Table.oldestTeam, ht e he, holdest]
  | some s =>
    obtain ⟨s'', hs'', hteam⟩ := ho.stays hs
    cases hs'.symm.trans hs''
    have hst : s.team = some t := (h.opened hs e he).symm.trans (ht e he)
    rcases hteam with hteam | hteam <;> simp [hteam, hst, ht e he]

theorem IsOwned.restart (h : r.IsOwned) (hp : r.persistent = true) : r.restart.IsOwned := by
  refine ⟨isSound_restart r, fun site ↦ ?_,
    fun hs ↦ by simp [Registry.restart, Registry.find] at hs⟩
  rw [rowsOf_restart hp]
  exact h.one site

/-- The team that a part of records with teams finds or makes the owner. -/
theorem IsOwned.exists_teamFor (h : r.IsOwned) (hne : part ≠ [])
    (hteams : ∀ x ∈ part, x.team.isSome = true)
    (hopen : r.find site = none → ∀ e ∈ r.rowsOf site, e.team = part.head?.bind (·.team)) :
    ∃ u, r.teamFor site part = some u ∧ ∀ e ∈ r.rowsOf site, e.team = some u := by
  obtain ⟨x, rest, rfl⟩ := List.exists_cons_of_ne_nil hne
  obtain ⟨u, hu⟩ := Option.isSome_iff_exists.1 (hteams x (by simp))
  simp only [teamFor, List.head?_cons, Option.bind_some, hu] at hopen ⊢
  cases hs : r.find site with
  | none => exact ⟨u, by simp [teamOf, hs], hopen hs⟩
  | some s =>
    cases ht : s.team with
    | some t => exact ⟨t, by simp [teamOf, hs, ht], fun e he ↦ (h.opened hs e he).trans ht⟩
    | none =>
      refine ⟨u, by simp [teamOf, hs, ht], fun e he ↦ ?_⟩
      obtain ⟨t', ht'⟩ := h.one site
      simp [← h.opened hs e he, ht' e he] at ht

theorem IsOwned.insertPart (h : r.IsOwned) (now : Instant) (hne : part ≠ [])
    (hsite : ∀ x ∈ part, x.site = some site) (hteams : ∀ x ∈ part, x.team.isSome = true)
    (hopen : r.find site = none → ∀ e ∈ r.rowsOf site, e.team = part.head?.bind (·.team)) :
    (r.insertPart now site part).2.IsOwned := by
  obtain ⟨result, r', hi, hw, hf⟩ := insertPart_cases h.isSound now hne hsite
  obtain ⟨u, hu, hrows⟩ := h.exists_teamFor hne hteams hopen
  have hrows' : ∀ e ∈ r'.rowsOf site, e.team = some u := by
    intro e he
    rcases hf.mem he with he | ⟨hof, x, hx, he⟩
    · exact hrows e he
    · obtain ⟨t, ht⟩ := Option.isSome_iff_exists.1 (hteams x hx)
      rw [he]
      simp [Entry.row, ht, hof x hx t u ht hu]
  rw [hi]
  refine ⟨hw.isSound, fun other ↦ ?_, fun {other s} hs e he ↦ ?_⟩
  · by_cases ho : other = site
    · exact ⟨u, ho ▸ hrows'⟩
    · rw [hw.rowsOf_of_ne ho]
      exact h.one other
  · by_cases ho : other = site
    · subst ho
      have := hw.teamOf
      simp only [Registry.teamOf, hs, Option.bind_some, hu] at this
      rw [this, hrows' e he]
    · rw [hw.find_of_ne ho] at hs
      rw [hw.rowsOf_of_ne ho] at he
      exact h.opened hs e he

theorem IsOwned.isOf_read (h : r.IsOwned) {f : Connection → Except Failure α × Connection}
    {q : Table → Except Failure α} (hf : Connection.Reads f q) (site team : Int)
    (empty : Except Failure α) :
    (r.read (.of (.number site) team) empty f).1.IsOf empty q
      ((r.rowsOf site).filter fun e ↦ e.team == some team) := by
  obtain ⟨r', ho, hr | hr⟩ := read_number_cases hf h.isSound site team empty
  · exact .inl (by rw [hr.1])
  · obtain ⟨hread, hopen, hteam⟩ := hr
    obtain ⟨s', hs'⟩ := Option.isSome_iff_exists.1 hopen
    have hall : ∀ e ∈ r.rowsOf site, e.team = some team := by
      intro e he
      obtain ⟨t, ht⟩ := h.one site
      have hst := (h.opens ho).opened hs' e (by rwa [ho.rowsOf])
      rw [ht e he] at hst ⊢
      rw [hteam t (by simp [teamOf, hs', ← hst])]
    refine .inr ?_
    rw [hread, List.filter_eq_self.2 fun e he ↦ by simp [hall e he]]

/-- An open store shows rows to a team that are not the team's. -/
def Leaks (r : Registry) (site : Int) : Prop :=
  ∃ u, r.teamOf site = some u ∧ ∃ e ∈ r.rowsOf site, e.team ≠ some u

theorem Leaks.insertPart (h : r.IsSound) (hl : r.Leaks site) (now : Instant) {other : Int}
    (hne : part ≠ []) (hsite : ∀ x ∈ part, x.site = some other) :
    (r.insertPart now other part).2.Leaks site := by
  obtain ⟨u, hu, e, he, het⟩ := hl
  obtain ⟨result, r', hi, hw, hf⟩ := insertPart_cases h now hne hsite
  rw [hi]
  by_cases ho : site = other
  · subst ho
    exact ⟨u, by simp [hw.teamOf, teamFor, hu], e, hf.subset he, het⟩
  · exact ⟨u, by rwa [hw.teamOf_of_ne ho], e, by rwa [hw.rowsOf_of_ne ho], het⟩

theorem read_of_teamOf (h : r.IsSound) {u : Int} (hu : r.teamOf site = some u)
    {f : Connection → Except Failure α × Connection} {q : Table → Except Failure α}
    (hf : Connection.Reads f q) (empty : Except Failure α) :
    (r.read (.of (.number site) u) empty f).1 = .done (q (r.rowsOf site)) Work.storePauses := by
  obtain ⟨s, hs, hsu⟩ := Option.bind_eq_some_iff.1 hu
  obtain ⟨r', ho, ⟨-, habsent⟩ | hr⟩ := read_number_cases hf h site u empty
  · rcases habsent with ⟨hn, -⟩ | ⟨t, ht, hne⟩
    · simp [hs] at hn
    · obtain ⟨s', hs', hteam⟩ := ho.stays hs
      have : s'.team = some u := by rcases hteam with hteam | hteam <;> simp [hteam, hsu]
      simp [teamOf, hs', this] at ht
      exact absurd ht.symm hne
  · rw [hr.1]

theorem IsOwned.insertAll (h : r.IsOwned) {records : List EventRecord}
    (hteams : ∀ x ∈ records, x.team.isSome = true)
    (hopen : ∀ r' site part, r.Comes now records r' site part → r'.find site = none →
      ∀ e ∈ r'.rowsOf site, e.team = part.head?.bind (·.team)) :
    (r.insertAll now records).2.IsOwned := by
  refine insertAll_keeps h fun r' site part hcomes h' ↦ ?_
  obtain ⟨hne, hpart⟩ := hcomes.records
  exact h'.insertPart now hne (fun x hx ↦ (hpart x hx).2) (fun x hx ↦ hteams x (hpart x hx).1)
    (hopen r' site part hcomes)

/-- A batch that opens the store of another team makes it leak. -/
theorem leaks_insertAll (h : r.IsSound) {records : List EventRecord}
    (hteams : ∀ x ∈ records, x.team.isSome = true) (hcomes : r.Comes now records r' site part)
    (hopen : r'.find site = none) {e : StoredEvent} (he : e ∈ r'.rowsOf site)
    (het : e.team ≠ part.head?.bind (·.team)) : (r.insertAll now records).2.Leaks site := by
  obtain ⟨hne, hpart⟩ := hcomes.records
  obtain ⟨x, rest, rfl⟩ := List.exists_cons_of_ne_nil hne
  obtain ⟨u, hu⟩ := Option.isSome_iff_exists.1 (hteams x (hpart x (by simp)).1)
  simp only [List.head?_cons, Option.bind_some, hu] at het
  refine (insertAll_of_comes (P := fun r ↦ r.IsSound ∧ r.Leaks site) hcomes ?_
    fun r'' other next hne hsite ⟨h', hl⟩ ↦ ?_).2
  · obtain ⟨result, r'', hi, hw, hf⟩ :=
      insertPart_cases (hcomes.isSound h) now hne fun x hx ↦ (hpart x hx).2
    rw [hi]
    have hteam : r'.teamFor site (x :: rest) = some u := by simp [teamFor, teamOf, hopen, hu]
    exact ⟨hw.isSound, u, hw.teamOf.trans hteam, e, hf.subset he, het⟩
  · have hl' := hl.insertPart h' now hne hsite
    obtain ⟨result, last, hi, hw, -⟩ := insertPart_cases h' now hne hsite
    rw [hi] at hl' ⊢
    exact ⟨hw.isSound, hl'⟩

/-- A batch that opens a store opens it for the team of the rows that are there. -/
def OpensOwn (r : Registry) (o : Operation) : Prop :=
  ∀ now records, o.batch = some (now, records) →
    ∀ r' site part, r.Comes now records r' site part → r'.find site = none →
      ∀ e ∈ r'.rowsOf site, e.team = part.head?.bind (·.team)

theorem IsOwned.moves (h : r.IsOwned) (hp : r.persistent = true) {o : Operation}
    (hteams : ∀ x ∈ o.records, x.team.isSome = true) (hown : r.OpensOwn o) (hm : r.Moves o r') :
    r'.IsOwned := by
  cases hm with
  | read _ ho => exact h.opens ho
  | write hb =>
    simp only [Operation.records, hb] at hteams
    exact h.insertAll hteams (hown _ _ hb)
  | restart _ => exact h.restart hp

end Registry

/-- The event is one that an operation has stored for a site, under the team that it came with. -/
def WasInserted (ops : List Operation) (site : Int) (e : StoredEvent) : Prop :=
  ∃ o ∈ ops, ∃ now records, o.batch = some (now, records) ∧
    ∃ x ∈ records, x.site = some site ∧ e = Entry.row ⟨x, site, x.team⟩ e.id now

namespace Registry

variable {r r' : Registry}

/-- A row that a batch adds is one of its records, under the team of the store if it came with
none. -/
theorem mem_rowsOf_insertAll (h : r.IsSound) (now : Instant) (records : List EventRecord)
    {site : Int} {e : StoredEvent} (he : e ∈ (r.insertAll now records).2.rowsOf site) :
    e ∈ r.rowsOf site ∨ ∃ x ∈ records, x.site = some site ∧
      ∃ team, e = Entry.row ⟨x, site, x.team.or team⟩ e.id now := by
  refine (insertAll_keeps (P := fun r' ↦ r'.IsSound ∧ ∀ e ∈ r'.rowsOf site, e ∈ r.rowsOf site ∨
      ∃ x ∈ records, x.site = some site ∧ ∃ team, e = Entry.row ⟨x, site, x.team.or team⟩ e.id now)
    ⟨h, fun e he ↦ .inl he⟩ fun r' other part hcomes ⟨h', hrows⟩ ↦ ?_).2 e he
  obtain ⟨hne, hpart⟩ := hcomes.records
  obtain ⟨result, last, hi, hw, hf⟩ := insertPart_cases h' now hne fun x hx ↦ (hpart x hx).2
  rw [hi]
  refine ⟨hw.isSound, fun e he ↦ ?_⟩
  by_cases ho : site = other
  · subst ho
    rcases hf.mem he with he | ⟨-, x, hx, he⟩
    · exact hrows e he
    · exact .inr ⟨x, (hpart x hx).1, (hpart x hx).2, _, he⟩
  · rw [hw.rowsOf_of_ne ho] at he
    exact hrows e he

theorem Moves.mem_rowsOf {o : Operation} (h : r.IsSound) (hm : r.Moves o r') {site : Int}
    {e : StoredEvent} (he : e ∈ r'.rowsOf site) :
    e ∈ r.rowsOf site ∨ ∃ now records, o.batch = some (now, records) ∧ ∃ x ∈ records,
      x.site = some site ∧ ∃ team, e = Entry.row ⟨x, site, x.team.or team⟩ e.id now := by
  cases hm with
  | read _ ho => exact .inl (ho.rowsOf site ▸ he)
  | write hb =>
    rcases mem_rowsOf_insertAll h _ _ he with he | hx
    · exact .inl he
    · exact .inr ⟨_, _, hb, hx⟩
  | restart _ =>
    by_cases hp : r.persistent = true
    · exact .inl (rowsOf_restart hp site ▸ he)
    · simp [Registry.restart, hp, Registry.rowsOf, tableOf] at he

end Registry

namespace Backend

variable {b : Backend} {r : Registry} {site team : Int}

theorem wasInserted_of_mem (s : Settings) {ops : List Operation}
    (hteams : ∀ o ∈ ops, ∀ x ∈ o.records, x.team.isSome = true) :
    ∃ r, (s.embedded.afterAll ops).engine = .embedded r ∧
      ∀ site, ∀ e ∈ r.rowsOf site, WasInserted ops site e := by
  have hstep (before : List Operation) (o : Operation) (r r' : Registry)
      (_ : (s.embedded.afterAll before).engine = .embedded r) (h : r.IsSound)
      (_ : r.persistent = s.storeDir.isTruthy)
      (hrows : (∀ o ∈ before, ∀ x ∈ o.records, x.team.isSome = true) →
        ∀ site, ∀ e ∈ r.rowsOf site, WasInserted before site e) (hm : r.Moves o r')
      (hteams : ∀ o' ∈ before ++ [o], ∀ x ∈ o'.records, x.team.isSome = true) (site : Int)
      (e : StoredEvent) (he : e ∈ r'.rowsOf site) : WasInserted (before ++ [o]) site e := by
    rcases hm.mem_rowsOf h he with he | ⟨now, records, hb, x, hx, hsite, team, he⟩
    · obtain ⟨o', ho', hinserted⟩ :=
        hrows (fun o ho ↦ hteams o (List.mem_append_left _ ho)) site e he
      exact ⟨o', List.mem_append_left _ ho', hinserted⟩
    · obtain ⟨t, ht⟩ := Option.isSome_iff_exists.1
        (hteams o (by simp) x (by simpa [Operation.records, hb] using hx))
      exact ⟨o, by simp, now, records, hb, x, hx, hsite, by simpa [ht] using he⟩
  obtain ⟨r, hr, -, -, hrows⟩ := run_induction s
    (fun _ site e he ↦ by simp [Registry.rowsOf, Registry.tableOf] at he) hstep ops
  exact ⟨r, hr, hrows hteams⟩

/-- The reads of a site by its number see nothing beside some rows. -/
structure Sees (b : Backend) (site team : Int) (seen : Table) : Prop where
  list (f : EventFilters) : (b.list (.of (.number site) team) f).1.IsOf (.ok (.empty f))
    (fun t ↦ (t.list f).mapError .fault) seen
  dashboard (now : Instant) (o : DashboardOptions) (f : EventFilters) :
    o.site = .number site → o.team = team → o.filters now b.windowDays = .ok f →
    (b.dashboard now o).1.IsOf (.ok (.empty f)) (·.dashboard f) seen
  hasAny : (b.hasAny (.of (.number site) team)).1.IsOf (.ok false) (fun t ↦ .ok (!t.isEmpty)) seen
  stats (range : Option DateRange) :
    (b.stats (.of (.number site) team) range).1.IsOf (.ok {}) (fun t ↦ .ok (t.stats range)) seen
  summary (o : SummaryOptions) : (b.summary (.of (.number site) team) o).1.IsOf (.ok (.empty o))
    (fun t ↦ (t.summary o).mapError .fault) seen
  series (range : Option DateRange) (g : Granularity) (byEvent : Value) :
    (b.series (.of (.number site) team) range g byEvent).1.IsOf (TimeSeries.of [] g byEvent)
      (·.series range g byEvent) seen

/-- No team sees anything beside its own rows. -/
def IsIsolated (b : Backend) : Prop :=
  ∀ site team, b.Sees site team ((b.registry.rowsOf site).filter fun e ↦ e.team == some team)

theorem isIsolated_of_isOwned (hb : b.engine = .embedded r) (h : r.IsOwned) : b.IsIsolated := by
  intro site team
  rw [registry_eq hb]
  refine ⟨fun f ↦ ?_, fun now o f hsite hteam hf ↦ ?_, ?_, fun range ↦ ?_, fun o ↦ ?_,
    fun range g byEvent ↦ ?_⟩
  · simp only [Backend.list, read_embedded hb]
    exact h.isOf_read (Connection.reads_list f) ..
  · simp only [dashboard_embedded hb, hf, hsite, hteam]
    exact h.isOf_read (reads_ownDashboard f) ..
  · simp only [Backend.hasAny, read_embedded hb]
    exact h.isOf_read Connection.reads_hasEvents ..
  · simp only [Backend.stats, read_embedded hb]
    exact h.isOf_read (Connection.reads_stats range) ..
  · simp only [Backend.summary, read_embedded hb]
    exact h.isOf_read (Connection.reads_summary o) ..
  · simp only [Backend.series, read_embedded hb]
    exact h.isOf_read (Connection.reads_series range g byEvent) ..

/-- An open store shows all its rows to its team. -/
theorem list_of_teamOf (hb : b.engine = .embedded r) (h : r.IsSound)
    (hteam : r.teamOf site = some team) (f : EventFilters) :
    (b.list (.of (.number site) team) f).1 =
      .done (((r.rowsOf site).list f).mapError .fault) Work.storePauses := by
  simp only [Backend.list, read_embedded hb]
  exact Registry.read_of_teamOf h hteam (Connection.reads_list f) _

theorem not_isIsolated_of_leaks (hb : b.engine = .embedded r) (h : r.IsSound)
    (hl : r.Leaks site) : ¬b.IsIsolated := by
  intro hi
  obtain ⟨u, hu, e, he, het⟩ := hl
  have hlist := (hi site u).list {}
  have hpage (t : Table) : t.list {} = .ok ⟨some (Table.pageOf 0 100 (t.matching {})),
      .build 0 100 (t.matching {}).length, some t.length⟩ := by
    rw [Table.list_eq]
    rfl
  rw [registry_eq hb, Work.IsOf, list_of_teamOf hb h hu] at hlist
  simp only [hpage, Except.mapError, EventPage.empty, Work.done.injEq, Except.ok.injEq,
    EventPage.mk.injEq, Option.some.injEq] at hlist
  rcases hlist with ⟨⟨-, -, hlength⟩, -⟩ | ⟨⟨-, -, hlength⟩, -⟩
  · have := List.length_pos_of_mem he
    omega
  · have hlt : ((r.rowsOf site).filter fun e ↦ e.team == some u).length < _ :=
      List.length_filter_lt_length_iff_exists.2 ⟨e, he, by simpa using het⟩
    omega

/-- Isolation lasts over a run with restarts exactly as long as no batch opens the store of another
team. -/
theorem isIsolated_iff (s : Settings) (hdisk : s.storeDir.isTruthy = true) (ops : List Operation)
    (hteams : ∀ o ∈ ops, ∀ x ∈ o.records, x.team.isSome = true) :
    (∀ before, before <+: ops → ∀ site, ∀ e ∈ (s.embedded.afterAll before).registry.rowsOf site,
      WasInserted before site e) ∧
    ((∀ before, before <+: ops → (s.embedded.afterAll before).IsIsolated) ↔
      ∀ before o, before ++ [o] <+: ops → (s.embedded.afterAll before).registry.OpensOwn o) := by
  refine ⟨fun before hbefore site e he ↦ ?_, fun hiso before o hbefore ↦ ?_,
    fun hown before hbefore ↦ ?_⟩
  · obtain ⟨r, hr, hinserted⟩ := wasInserted_of_mem s
      fun o ho ↦ hteams o (hbefore.subset ho)
    rw [registry_eq hr] at he
    exact hinserted site e he
  · intro now records hbatch r' site part hcomes hopen e he
    by_contra het
    obtain ⟨r, hr, h, -, -⟩ := run_induction s (P := fun _ _ ↦ True) trivial (by simp) before
    rw [registry_eq hr] at hcomes
    have hrecords := hteams o (hbefore.subset (by simp))
    simp only [Operation.records, hbatch, Option.map_some, Option.getD_some] at hrecords
    have hl := Registry.leaks_insertAll h hrecords hcomes hopen he het
    have hafter := engine_after_of_batch hr hbatch
    rw [← afterAll_concat] at hafter
    exact not_isIsolated_of_leaks hafter (h.insertAll ..) hl (hiso _ hbefore)
  · obtain ⟨r, hr, -, -, howned⟩ := run_induction s
      (P := fun before r ↦ before <+: ops → r.IsOwned)
      (fun _ ↦ ⟨Registry.isSound_new .., fun _ ↦ ⟨0, by simp [Registry.rowsOf, Registry.tableOf]⟩,
        fun hs ↦ by simp [Registry.find] at hs⟩)
      (fun before o r r' hr h hp howned hm hpre ↦ (howned
        ((List.prefix_append ..).trans hpre)).moves (hp.trans hdisk)
        (hteams o (hpre.subset (by simp))) (registry_eq hr ▸ hown before o hpre) hm) before
    exact isIsolated_of_isOwned hr (howned hbefore)

theorem isIsolated_iff_twoTeams :
    Settings.onDisk.storeDir.isTruthy = true ∧
    (∀ o ∈ twoTeams, ∀ x ∈ o.records, x.team.isSome = true) ∧
    ((∀ before, before <+: twoTeams → (Settings.onDisk.embedded.afterAll before).IsIsolated) ↔
      ∀ before o, before ++ [o] <+: twoTeams →
        (Settings.onDisk.embedded.afterAll before).registry.OpensOwn o) :=
  have hteams : ∀ o ∈ twoTeams, ∀ x ∈ o.records, x.team.isSome = true := by decide
  ⟨rfl, hteams, (isIsolated_iff Settings.onDisk rfl twoTeams hteams).2⟩

/-- The listing for the second team shows the event of the first. -/
theorem foreign_event_listed :
    (∀ o ∈ twoTeams, ∀ x ∈ o.records, x.team.isSome = true) ∧ ∃ page events,
      ((Settings.onDisk.embedded.afterAll twoTeams).list (.of (.number 1) 20) {}).1 =
        .done (.ok page) Work.storePauses ∧
      page.events = some events ∧ Entry.row ⟨.plain 1 (some 10), 1, some 10⟩ 1 ⟨0⟩ ∈ events := by
  refine ⟨by decide, ?_⟩
  obtain ⟨r, hr, h, -, -⟩ := run_induction Settings.onDisk (P := fun _ _ ↦ True) trivial (by simp)
    twoTeams
  have hteam : r.teamOf 1 = some 20 := by
    rw [← registry_eq hr]
    rfl
  have hrows : r.rowsOf 1 = [Entry.row ⟨.plain 1 (some 10), 1, some 10⟩ 1 ⟨0⟩,
      Entry.row ⟨.plain 1 (some 20), 1, some 20⟩ 2 ⟨0⟩] := by
    rw [← registry_eq hr]
    rfl
  refine ⟨_, _, list_of_teamOf hr h hteam {}, rfl, ?_⟩
  have hpage : Table.pageOf 0 100 ((r.rowsOf 1).matching {}) = (r.rowsOf 1).matching {} := by
    rw [Table.pageOf, Table.limited, if_neg (by decide), List.take_of_length_le]
    · rfl
    · simp [Table.length_matching, hrows]
  rw [hpage]
  exact Table.mem_matching.2 ⟨by simp [hrows], Table.accepts_default _⟩

end Backend

end Footfall
