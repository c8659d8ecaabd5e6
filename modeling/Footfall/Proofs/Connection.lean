import Footfall.Proofs.Numbering
import Footfall.Store.Site

/-!
What a store does with its rows. As long as nobody takes its table away, every read is computed from
the rows, finding out the owner changes none of them, and a batch is stored at their end or not at
all.
-/

namespace Footfall

/-- The team of the oldest row. -/
def Table.oldestTeam (t : Table) : Option Int := t.head?.bind (·.team)

namespace Connection

variable {α : Type} {c : Connection}

/-- A store that has made its table finds it again. -/
def IsSound (c : Connection) : Prop := c.store.schemaReady = true → c.table.isSome = true

/-- The rows of the store; there are none before it has made its table. -/
def content (c : Connection) : Table := c.table.getD []

@[simp] theorem site_prepared : c.prepared.store.site = c.store.site := by
  unfold prepared
  split <;> rfl

@[simp] theorem team_prepared : c.prepared.store.team = c.store.team := by
  unfold prepared
  split <;> rfl

@[simp] theorem schemaReady_prepared : c.prepared.store.schemaReady = true := by
  unfold prepared
  split
  · assumption
  · rfl

@[simp] theorem identityLoaded_prepared :
    c.prepared.store.identityLoaded = c.store.identityLoaded := by
  unfold prepared
  split <;> rfl

@[simp] theorem maxRows_prepared : c.prepared.store.maxRows = c.store.maxRows := by
  unfold prepared
  split <;> rfl

@[simp] theorem content_prepared : c.prepared.content = c.content := by
  unfold prepared
  split <;> rfl

theorem table_prepared (h : c.IsSound) : c.prepared.table = some c.content := by
  unfold prepared
  split
  · rename_i hs
    obtain ⟨t, ht⟩ := Option.isSome_iff_exists.1 (h hs)
    simp [content, ht]
  · rfl

theorem isSound_prepared (h : c.IsSound) : c.prepared.IsSound := fun _ ↦ by
  simp [table_prepared h]

theorem entry_prepared : c.prepared.store.entry = c.store.entry := by
  funext r
  simp [SiteStore.entry]

/-- A read that is computed from the rows, and leaves the store with its table made. -/
def Reads (f : Connection → Except Failure α × Connection) (q : Table → Except Failure α) : Prop :=
  ∀ c : Connection, c.IsSound → f c = (q c.content, c.prepared)

theorem Reads.fst {f : Connection → Except Failure α × Connection} {q : Table → Except Failure α}
    (h : Reads f q) (hc : c.IsSound) : (f c).1 = q c.content :=
  congrArg Prod.fst (h c hc)

theorem reads_read (q : Table → Except Failure α) : Reads (·.read q) q := by
  intro c h
  simp [read, rows, table_prepared h, bind, Except.bind]

theorem reads_list (f : EventFilters) : Reads (·.list f) fun t ↦ (t.list f).mapError .fault := by
  intro c h
  simp [list, table_prepared h]

theorem reads_hasEvents : Reads (·.hasEvents) fun t ↦ .ok (!t.isEmpty) := by
  simp only [← Table.hasAny_eq]
  exact reads_read _

theorem reads_stats (r : Option DateRange) : Reads (·.stats r) fun t ↦ .ok (t.stats r) :=
  reads_read _

theorem reads_summary (o : SummaryOptions) :
    Reads (·.summary o) fun t ↦ (t.summary o).mapError .fault := reads_read _

theorem reads_series (r : Option DateRange) (g : Granularity) (byEvent : Value) :
    Reads (·.series r g byEvent) (·.series r g byEvent) := reads_read _

/-- The state that a read leaves: the store has made its table, or nothing has happened. -/
def Idle (f : Connection → Except Failure α × Connection) : Prop :=
  ∀ c : Connection, c.IsSound → (f c).2 = c ∨ (f c).2 = c.prepared

theorem Reads.idle {f : Connection → Except Failure α × Connection} {q : Table → Except Failure α}
    (h : Reads f q) : Idle f := fun c hc ↦ .inr (by rw [h c hc])

theorem idle_run (q : TableQuery) (limit : Value) : Idle (·.run q limit) := by
  intro c _
  cases h : rowBound limit c.store.maxRows with
  | error e => exact .inl (by simp [run, h])
  | ok bound => exact .inr (by simp [run, h])

theorem loadIdentity_of_loaded (h : c.store.identityLoaded = true) :
    c.loadIdentity = (.ok (), c) := by
  simp [loadIdentity, h]

/-- The store after the owner has been looked for among the rows. -/
theorem loadIdentity_of_not_loaded (hc : c.IsSound) (h : c.store.identityLoaded = false) :
    c.loadIdentity = (.ok (), match c.content with
      | [] => c.prepared
      | oldest :: _ => { c.prepared with store := c.prepared.store.identified oldest }) := by
  simp only [loadIdentity, h, Bool.false_eq_true, if_false, table_prepared hc]
  cases c.content <;> rfl

theorem fst_loadIdentity (hc : c.IsSound) : c.loadIdentity.1 = .ok () := by
  cases h : c.store.identityLoaded with
  | true => rw [loadIdentity_of_loaded h]
  | false => rw [loadIdentity_of_not_loaded hc h]

theorem site_loadIdentity (hc : c.IsSound) : c.loadIdentity.2.store.site = c.store.site := by
  cases h : c.store.identityLoaded with
  | true => rw [loadIdentity_of_loaded h]
  | false =>
    rw [loadIdentity_of_not_loaded hc h]
    cases c.content <;> simp [SiteStore.identified]

theorem content_loadIdentity (hc : c.IsSound) : c.loadIdentity.2.content = c.content := by
  cases h : c.store.identityLoaded with
  | true => rw [loadIdentity_of_loaded h]
  | false =>
    rw [loadIdentity_of_not_loaded hc h]
    cases ht : c.content with
    | nil => simpa using ht
    | cons e t => exact content_prepared.trans ht

theorem isSound_loadIdentity (hc : c.IsSound) : c.loadIdentity.2.IsSound := by
  cases h : c.store.identityLoaded with
  | true => rwa [loadIdentity_of_loaded h]
  | false =>
    rw [loadIdentity_of_not_loaded hc h]
    cases c.content with
    | nil => exact isSound_prepared hc
    | cons e t => exact fun _ ↦ by simp [table_prepared hc]

/-- A store that has not looked for its owner yet takes the team of the oldest row, unless it goes
by a team already. -/
theorem team_loadIdentity_of_not_loaded (hc : c.IsSound) (h : c.store.identityLoaded = false) :
    c.loadIdentity.2.store.team = c.store.team.or c.content.oldestTeam := by
  rw [loadIdentity_of_not_loaded hc h]
  cases c.content <;> simp [SiteStore.identified, Table.oldestTeam]

theorem team_loadIdentity (hc : c.IsSound) :
    c.loadIdentity.2.store.team = c.store.team ∨
      c.loadIdentity.2.store.team = c.store.team.or c.content.oldestTeam := by
  cases h : c.store.identityLoaded with
  | true => exact .inl (by rw [loadIdentity_of_loaded h])
  | false => exact .inr (team_loadIdentity_of_not_loaded hc h)

/-- A batch whose records the store accepts is put at the end of the rows, unless a number does not
fit. -/
theorem insertAll_eq (hc : c.IsSound) (now : Instant) {rs : List EventRecord} (hne : rs ≠ []) :
    c.insertAll now rs =
      match rs.forM c.store.checkRecord with
      | .error e => (.error e, c)
      | .ok () =>
        match c.content.addAll now (rs.map c.store.entry) with
        | .error f => (.error (.fault f), c.prepared)
        | .ok (t, rows) => (.ok rows, ⟨{ c.prepared.store with active := true }, some t⟩) := by
  have hne : rs.isEmpty = false := by simpa using hne
  cases hcheck : rs.forM c.store.checkRecord with
  | error e => simp [insertAll, hne, hcheck]
  | ok u =>
    cases u
    have hwrite : c.insertAll now rs = c.prepared.write now rs := by
      simp [insertAll, hne, hcheck]
    cases hadd : c.content.addAll now (rs.map c.store.entry) <;>
      simp only [hwrite, write, table_prepared hc, entry_prepared, hadd]

end Connection

end Footfall
