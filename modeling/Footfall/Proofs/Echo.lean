import Footfall.Backend.Server
import Footfall.Proofs.History
import Footfall.Proofs.Rows

/-!
What is listed is what was returned. An event keeps its row through all later calls until one of
them deletes it, also when the storage is opened anew, and no other row bears its number meanwhile.
-/

namespace Footfall

namespace Server

variable {s : Server}

/-- The rows of the table; there are none as long as it has not been made. -/
def content (s : Server) : Table := s.table.getD []

theorem entry_eq_ok_iff {r : EventRecord} {e : Entry} :
    entry r = .ok e ↔ r.site = some e.site ∧ r.team.isSome = true ∧ e.team = r.team ∧
      e.record = r := by
  obtain ⟨record, site, team⟩ := e
  unfold entry
  cases r.site <;> cases r.team <;> simp [eq_comm, and_comm, and_left_comm]

theorem map_record_mapM_entry {records : List EventRecord} {es : List Entry}
    (h : records.mapM entry = .ok es) : es.map (·.record) = records := by
  rw [mapM_eq_ok_iff] at h
  induction h with
  | nil => rfl
  | cons he _ ih => rw [List.map_cons, (entry_eq_ok_iff.1 he).2.2.2, ih]

theorem ends_insertAll (now : Instant) (records : List EventRecord) :
    ∃ es : List Entry, (∀ rows, (s.insertAll now records).1 = .ok rows →
        es.map (·.record) = records) ∧
      s.content.Ends now es (s.insertAll now records).1 (s.insertAll now records).2.content := by
  unfold insertAll
  split
  · exact ⟨[], by simp, .refused⟩
  · cases hentries : records.mapM entry with
    | error e => exact ⟨[], by simp, .refused⟩
    | ok es =>
      refine ⟨es, fun _ _ ↦ map_record_mapM_entry hentries, ?_⟩
      cases ht : s.table with
      | none => exact .refused
      | some t =>
        have hcontent : s.content = t := by simp [content, ht]
        have hadd := t.addAll_eq now es
        rw [hcontent]
        split at hadd
        · rename_i hfits
          simp only [hadd]
          exact .stored hfits
        · simp only [hadd, hcontent]
          exact .refused

end Server

/-- Where events are kept: in the store of a site, or in a table that teams share. -/
inductive Keeper
  | store (c : Connection)
  | shared (s : Server)

namespace Keeper

variable {k k' k'' : Keeper} {e : StoredEvent} {now : Instant} {records : List EventRecord}

def content : Keeper → Table
  | store c => c.content
  | shared s => s.content

def insertAll (now : Instant) (records : List EventRecord) :
    Keeper → Except Failure (List StoredEvent) × Keeper
  | store c => ((c.insertAll now records).1, store (c.insertAll now records).2)
  | shared s => ((s.insertAll now records).1, shared (s.insertAll now records).2)

/-- A page of the listing; the scope says whose part of a shared table is asked for. -/
def list (scope : Scope) (f : EventFilters) : Keeper → Except Failure EventPage
  | store c => (c.list f).1
  | shared s => s.list scope f

/-- A call, which deletes some events. A shared table is only ever written to, and is found again
under other settings. -/
inductive Step : Keeper → (StoredEvent → Bool) → Keeper → Prop
  | store (c : Connection) (call : StoreCall) : Step (store c) call.dooms (store (c.after call))
  | insertAll (s : Server) (now : Instant) (records : List EventRecord) :
      Step (shared s) (fun _ ↦ false) (shared (s.insertAll now records).2)
  | reopen (s : Server) (dialect : Report.Dialect) (maxRows : Value) :
      Step (shared s) (fun _ ↦ false) (shared ⟨dialect, maxRows, s.table⟩)

inductive IsReachable : Keeper → Prop
  | new {k : Keeper} : k.content = [] → IsReachable k
  | step {k k' : Keeper} {dooms : StoredEvent → Bool} :
      IsReachable k → Step k dooms k' → IsReachable k'

/-- Calls lead from one state to another, and none of them deletes an event. -/
inductive Spares (e : StoredEvent) : Keeper → Keeper → Prop
  | refl (k : Keeper) : Spares e k k
  | step {k k' k'' : Keeper} {dooms : StoredEvent → Bool} :
      Spares e k k' → Step k' dooms k'' → dooms e = false → Spares e k k''

/-- A call takes out what it deletes, or puts rows at the end. -/
theorem Step.content {dooms : StoredEvent → Bool} (h : Step k dooms k') :
    k'.content = k.content.filter (!dooms ·) ∨ ∃ now es,
      (Entry.rows now k.content.nextId es).all (·.numbers.all fitsTable) = true ∧
        k'.content = k.content ++ Entry.rows now k.content.nextId es := by
  cases h with
  | store c call =>
    cases c.goes_after call with
    | keep _ hcontent => exact .inl hcontent
    | put _ hstored hfits hcontent =>
      rw [hstored] at hfits hcontent
      exact .inr ⟨_, _, hfits, hcontent⟩
  | insertAll s now records =>
    obtain ⟨es, -, hends⟩ := s.ends_insertAll now records
    simp only [Keeper.content]
    generalize (s.insertAll now records).1 = result at hends
    generalize (s.insertAll now records).2.content = t at hends
    cases hends with
    | refused => exact .inl (by simp)
    | stored hfits => exact .inr ⟨now, es, hfits, rfl⟩
  | reopen s dialect maxRows => exact .inl (by simp [Keeper.content, Server.content])

theorem IsReachable.isKeyed (h : k.IsReachable) : k.content.IsKeyed := by
  induction h with
  | new hnil => exact hnil ▸ Table.isKeyed_nil
  | step _ hstep ih =>
    rcases hstep.content with hcontent | ⟨now, es, hfits, hcontent⟩
    · exact hcontent ▸ ih.filter _
    · exact hcontent ▸ ih.append_rows hfits

theorem Spares.isReachable (h : Spares e k k') (hk : k.IsReachable) : k'.IsReachable := by
  induction h with
  | refl => exact hk
  | step _ hstep _ ih => exact .step ih hstep

theorem Spares.mem (h : Spares e k k') (he : e ∈ k.content) : e ∈ k'.content := by
  induction h with
  | refl => exact he
  | step _ hstep hspare ih =>
    rcases hstep.content with hcontent | ⟨now, es, -, hcontent⟩
    · rw [hcontent]
      exact List.mem_filter.2 ⟨ih, by simp [hspare]⟩
    · rw [hcontent]
      exact List.mem_append_left _ ih

theorem step_insertAll (k : Keeper) (now : Instant) (records : List EventRecord) :
    Step k (fun _ ↦ false) (k.insertAll now records).2 := by
  cases k with
  | store c => exact .store c (.insertAll now records)
  | shared s => exact .insertAll s now records

theorem ends_insertAll (k : Keeper) (now : Instant) (records : List EventRecord) :
    ∃ es : List Entry, (∀ rows, (k.insertAll now records).1 = .ok rows →
        es.map (·.record) = records) ∧
      k.content.Ends now es (k.insertAll now records).1 (k.insertAll now records).2.content := by
  cases k with
  | store c =>
    refine ⟨records.map c.store.entry, fun _ _ ↦ ?_, c.ends_insertAll now records⟩
    rw [List.map_map]
    exact List.map_id records
  | shared s => exact s.ends_insertAll now records

/-- A batch that is stored returns the rows that it puts at the end. -/
theorem insertAll_ok {rows : List StoredEvent} (h : k.insertAll now records = (.ok rows, k')) :
    ∃ es : List Entry, es.map (·.record) = records ∧
      rows = Entry.rows now k.content.nextId es ∧ k'.content = k.content ++ rows := by
  obtain ⟨es, hrecords, hends⟩ := k.ends_insertAll now records
  rw [h] at hrecords hends
  refine ⟨es, hrecords rows rfl, ?_⟩
  generalize k'.content = t at hends
  cases hends with
  | stored _ => exact ⟨rfl, rfl⟩

/-- An event says what its record says. Without times the record takes that of the clock, and the
account is the team. -/
structure Mirrors (now : Instant) (r : EventRecord) (e : StoredEvent) : Prop where
  tag : e.tag = r.tag
  event : e.event = r.event
  context : e.context = r.context
  createdAt : e.createdAt = r.createdAt.getD now
  updatedAt : e.updatedAt = r.updatedAt.getD now
  account : e.account = e.team
  /-- The event is the one made of the values that are stored. -/
  returned : ∃ entry : Entry, entry.record = r ∧ entry.returned e.id now = .accepted e

theorem mirrors_rows (id : Int) (es : List Entry) :
    List.Forall₂ (Mirrors now) (es.map (·.record)) (Entry.rows now id es) := by
  induction es generalizing id with
  | nil => exact .nil
  | cons e es ih =>
    refine .cons ⟨rfl, rfl, rfl, rfl, rfl, rfl, ?_⟩ (ih (id + 1))
    exact ⟨e, rfl, e.returned_eq_row id now⟩

theorem mem_of_mem_pageOf {α : Type} {offset limit : Int} {xs : List α} {x : α}
    (h : x ∈ Table.pageOf offset limit xs) : x ∈ xs := by
  unfold Table.pageOf Table.limited at h
  split at h
  · exact List.mem_of_mem_drop h
  · exact List.mem_of_mem_drop (List.mem_of_mem_take h)

theorem mem_of_list {t : Table} {f : EventFilters} {base : Conditions} {p : EventPage}
    (h : t.list f base = .ok p) {es : List StoredEvent} (hes : p.events = some es)
    {x : StoredEvent} (hx : x ∈ es) : x ∈ t := by
  unfold Table.list at h
  split at h
  · cases h
    cases hes
    have hmatching := mem_of_mem_pageOf hx
    rw [Table.matching, List.mem_mergeSort] at hmatching
    exact List.mem_of_mem_filter hmatching
  · cases h

theorem mem_content_of_list {scope : Scope} {f : EventFilters} {p : EventPage}
    (h : k.list scope f = .ok p) {es : List StoredEvent} (hes : p.events = some es)
    {x : StoredEvent} (hx : x ∈ es) : x ∈ k.content := by
  have hpage {t : Table} {base : Conditions}
      (hok : (t.list f base).mapError Failure.fault = .ok p) : x ∈ t := by
    cases hlist : t.list f base with
    | error e => simp [hlist, Except.mapError] at hok
    | ok p' =>
      simp only [hlist, Except.mapError, Except.ok.injEq] at hok
      exact mem_of_list hlist (hok ▸ hes) hx
  cases k with
  | store c =>
    simp only [list, Connection.list] at h
    rw [Keeper.content, ← Connection.content_prepared]
    cases ht : c.prepared.table with
    | none =>
      rw [ht] at h
      cases h
      cases hes
    | some t =>
      rw [ht] at h
      simpa [Connection.content, ht] using hpage h
  | shared s =>
    simp only [list, Server.list] at h
    cases ht : s.table with
    | none =>
      rw [ht] at h
      cases h
      cases hes
    | some t =>
      cases hscope : scope.conditions with
      | error u =>
        rw [ht, hscope] at h
        cases u <;> cases h
        cases hes
      | ok base =>
        rw [ht, hscope] at h
        simpa [Keeper.content, Server.content, ht] using hpage h

theorem listed_eq_returned (hk : k.IsReachable) (hnow : now.micros < Instant.limit)
    (hrecords : ∀ r ∈ records, r.IsStorable) {rows : List StoredEvent}
    (h : k.insertAll now records = (.ok rows, k')) :
    List.Forall₂ (Mirrors now) records rows ∧
      ∀ e ∈ rows, ∀ k'', Spares e k' k'' → e ∈ k''.content ∧
        ∀ scope f p es, k''.list scope f = .ok p → p.events = some es → ∀ x ∈ es, x.id = e.id →
          x = e ∧ StoredEvent.ofCells x.cell = some (.accepted e) := by
  have hstep : Step k (fun _ ↦ false) k' := by
    have := k.step_insertAll now records
    rwa [h] at this
  obtain ⟨entries, rfl, rfl, hcontent⟩ := insertAll_ok h
  refine ⟨mirrors_rows .., fun e he k'' hspares ↦ ?_⟩
  have hmem : e ∈ k''.content := hspares.mem (hcontent ▸ List.mem_append_right _ he)
  refine ⟨hmem, fun scope f p es hp hes x hx hid ↦ ?_⟩
  -- no two rows of a reachable state have one number
  have hkeyed : k''.content.IsKeyed := (hspares.isReachable (.step hk hstep)).isKeyed
  have hsame : x = e :=
    List.inj_on_of_nodup_map hkeyed.nodup (mem_content_of_list hp hes hx) hmem hid
  obtain ⟨entry, hentry, n, rfl⟩ := Entry.exists_of_mem_rows he
  have hstorable : entry.record.IsStorable := hrecords _ (List.mem_map_of_mem hentry)
  refine ⟨hsame, ?_⟩
  rw [hsame]
  exact StoredEvent.ofCells_cell (hstorable.isLoadable_row hnow n)

/-- A record with a map and one of its times. -/
def taggedView : EventRecord :=
  ⟨none, "tag", none, some 10, "view",
    { queryParams := some [("utm", .text "a\"b"), ("n", .int 2)] }, some ⟨Instant.unixEpoch⟩, none⟩

theorem listed_eq_returned_taggedView : ∃ rows k',
    (store ⟨{ site := 1 }, none⟩).IsReachable ∧ (∀ r ∈ [taggedView], r.IsStorable) ∧
      (store ⟨{ site := 1 }, none⟩).insertAll ⟨0⟩ [taggedView] = (.ok rows, k') ∧
      List.Forall₂ (Mirrors ⟨0⟩) [taggedView] rows ∧
      ∀ e ∈ rows, ∀ k'', Spares e k' k'' → e ∈ k''.content ∧
        ∀ scope f p es, k''.list scope f = .ok p → p.events = some es → ∀ x ∈ es, x.id = e.id →
          x = e ∧ StoredEvent.ofCells x.cell = some (.accepted e) := by
  have hk : (store ⟨{ site := 1 }, none⟩).IsReachable := .new rfl
  have hmap : Json.read (Json.write (.object [("utm", .text "a\"b"), ("n", .int 2)])) =
      .ok (.object [("utm", .text "a\"b"), ("n", .int 2)]) := by
    cbv
  have hrecords : ∀ r ∈ [taggedView], r.IsStorable := by
    intro r hr
    cases List.mem_singleton.1 hr
    refine ⟨?_, ?_, ?_⟩
    · rintro t ⟨⟩
      decide
    · rintro t ⟨⟩
    · intro m hm
      cases List.mem_singleton.1 hm
      exact hmap
  exact ⟨_, _, hk, hrecords, rfl, listed_eq_returned hk (by decide) hrecords rfl⟩

end Keeper

end Footfall
