import Footfall.Proofs.Atomicity
import Footfall.Proofs.Echo

/-!
Batches of one store, and of the table that teams share. Every record is checked before any row is
put, and a row that does not fit undoes those that were put before it. So a batch that fails leaves
the rows and what is known of the store as they were, and it is known which batches fail.
-/

namespace Footfall

section

variable {ε α β : Type}

/-- A check that yields nothing, and is followed by what does not fail. -/
theorem mapM_map_const (g : α → Except ε Unit) (h : α → β) (xs : List α) :
    xs.mapM (fun x ↦ (g x).map fun _ ↦ h x) = (xs.forM g).map fun _ ↦ xs.map h := by
  induction xs with
  | nil => rfl
  | cons x rest ih =>
    rw [List.mapM_cons, ih]
    change _ = (g x >>= fun _ ↦ rest.forM g).map _
    cases g x with
    | error e => rfl
    | ok u => cases hrest : rest.forM g <;> rfl

end

/-- The number that the next row gets: one above the greatest that is there, and one at first. -/
structure Table.IsNext (t : Table) (n : Int) : Prop where
  above : ∀ e ∈ t, e.id < n
  least : t = [] ∧ n = 1 ∨ ∃ e ∈ t, n = e.id + 1

theorem Table.isNext_nextId (t : Table) : t.IsNext t.nextId where
  above _ he := lt_nextId he
  least := by
    cases hm : (t.map (·.id)).max? with
    | none => exact .inl ⟨by simpa using hm, by simp [nextId, hm]⟩
    | some m =>
      obtain ⟨e, he, rfl⟩ := List.mem_map.1 (List.max?_eq_some_iff.1 hm).1
      exact .inr ⟨e, he, by simp [nextId, hm]⟩

theorem Table.IsNext.eq {t : Table} {m n : Int} (hm : t.IsNext m) (hn : t.IsNext n) : m = n := by
  rcases hm.least with ⟨rfl, rfl⟩ | ⟨a, ha, rfl⟩
  · rcases hn.least with ⟨-, rfl⟩ | ⟨b, hb, -⟩
    · rfl
    · cases hb
  · rcases hn.least with ⟨rfl, -⟩ | ⟨b, hb, rfl⟩
    · cases ha
    · have := hm.above b hb
      have := hn.above a ha
      omega

namespace Keeper

variable {k k' : Keeper} {now : Instant} {records : List EventRecord} {r : EventRecord}
  {e : Failure}

/-- What is known of a store: its tag, its team and whether it is active. -/
def identity : Keeper → Option (Option String × Option Int × Bool)
  | store c => some c.store.identity
  | shared _ => none

/-- Whether the table is gone. A store that has not been used yet makes its table. -/
def isLost : Keeper → Bool
  | store c => c.store.schemaReady && c.table.isNone
  | shared s => s.table.isNone

def outage : Keeper → Failure
  | store c => c.outage
  | shared _ => Server.outage

/-- The records that are not taken: those of another site or team than the store's, and in a shared
table those without a site or team. -/
inductive Refuses : Keeper → EventRecord → Failure → Prop
  | site {c : Connection} {r : EventRecord} {n : Int} :
      r.site = some n → n ≠ c.store.site →
      Refuses (store c) r (.violation (.foreignSite n c.store.site))
  | team {c : Connection} {r : EventRecord} {t u : Int} :
      r.site.all (· == c.store.site) = true → r.team = some t → c.store.team = some u → t ≠ u →
      Refuses (store c) r (.violation (.foreignTeam t c.store.site))
  | noTenant {s : Server} {r : EventRecord} :
      r.site = none ∨ r.team = none → Refuses (shared s) r (.violation .noTenant)

def Takes (k : Keeper) (r : EventRecord) : Prop := ∀ e, ¬k.Refuses r e

/-- The site and team that a record is stored under. -/
def Houses (r : EventRecord) (e : StoredEvent) : Keeper → Prop
  | store c => e.site = c.store.site ∧ e.team = r.team.or c.store.team
  | shared _ => some e.site = r.site ∧ e.team = r.team

/-- An event is that of a record. -/
structure Holds (k : Keeper) (now : Instant) (r : EventRecord) (e : StoredEvent) : Prop where
  mirrors : Mirrors now r e
  houses : k.Houses r e

/-- How a batch fails: there is nothing in it, a record is not taken, the table is gone, or the row
of a record does not fit after those of the records before it. -/
inductive Fails (k : Keeper) (now : Instant) : List EventRecord → Failure → Prop
  | nothing : Fails k now [] (.violation .noEvents)
  | refused {before after : List EventRecord} {r : EventRecord} {e : Failure} :
      (∀ x ∈ before, k.Takes x) → k.Refuses r e → Fails k now (before ++ r :: after) e
  | lost {records : List EventRecord} :
      records ≠ [] → (∀ x ∈ records, k.Takes x) → k.isLost = true → Fails k now records k.outage
  | huge {before after : List EventRecord} {r : EventRecord} {n : Int} {e : StoredEvent} :
      (∀ x ∈ before ++ r :: after, k.Takes x) → k.isLost = false → k.content.IsNext n →
      k.Holds now r e → e.id = n + before.length → e.numbers.all fitsTable = false →
      Fails k now (before ++ r :: after) (.fault .hugeForStore)

/-- A failed batch has changed nothing. -/
structure IsSame (k k' : Keeper) : Prop where
  content : k'.content = k.content
  identity : k'.identity = k.identity

/-- A batch has been stored: its events follow one another in the order of the records, numbered on,
and the store is active. -/
structure Gains (k k' : Keeper) (now : Instant) (records : List EventRecord)
    (rows : List StoredEvent) : Prop where
  events : List.Forall₂ (k.Holds now) records rows
  numbers : ∃ n, k.content.IsNext n ∧
    rows.map (·.id) = (List.range records.length).map fun i : Nat ↦ n + i
  content : k'.content = k.content ++ rows
  identity : k'.identity = k.identity.map fun (tag, team, _) ↦ (tag, team, true)

/-- The entry of a record that is taken. -/
def check (r : EventRecord) : Keeper → Except Failure Entry
  | store c => (c.store.checkRecord r).map fun _ ↦ c.store.entry r
  | shared _ => Server.entry r

theorem check_eq_error_iff : k.check r = .error e ↔ k.Refuses r e := by
  cases k with
  | store c =>
    have hcheck : (store c).check r = .error e ↔ c.store.checkRecord r = .error e := by
      cases h : c.store.checkRecord r <;> simp [check, h, Except.map]
    rw [hcheck]
    unfold SiteStore.checkRecord
    constructor
    · intro h
      split at h
      · rename_i n hn
        obtain ⟨hsite, hne⟩ := Option.filter_eq_some_iff.1 hn
        cases h
        exact .site hsite (by simpa using hne)
      · rename_i hnone
        split at h
        · rename_i t u ht hu
          split at h
          · cases h
          · rename_i hne
            cases h
            refine .team ?_ ht hu hne
            cases hs : r.site <;> simp_all [Option.filter_some]
        · cases h
    · intro h
      cases h with
      | site hsite hne => simp [hsite, Option.filter_some, hne]
      | team hsite ht hu hne =>
        have hnone : r.site.filter (· != c.store.site) = none := by
          cases hs : r.site <;> simp_all [Option.filter_some]
        simp [hnone, ht, hu, hne]
  | shared s =>
    change Server.entry r = .error e ↔ _
    unfold Server.entry
    constructor
    · intro h
      split at h
      · cases h
      · rename_i hnone
        cases h
        refine .noTenant ?_
        by_contra hboth
        obtain ⟨hsite, hteam⟩ := not_or.1 hboth
        obtain ⟨n, hn⟩ := Option.ne_none_iff_exists'.1 hsite
        obtain ⟨t, ht⟩ := Option.ne_none_iff_exists'.1 hteam
        exact hnone n t hn ht
    · intro h
      cases h with
      | noTenant hnone =>
        split
        · simp_all
        · rfl

theorem takes_iff : k.Takes r ↔ ∃ entry, k.check r = .ok entry := by
  unfold Takes
  simp only [← check_eq_error_iff]
  cases k.check r <;> simp

/-- The entry of a record says what is stored for it. -/
theorem of_check {entry : Entry} (h : k.check r = .ok entry) : entry.record = r ∧
    ∀ e : StoredEvent, k.Houses r e ↔ e.site = entry.site ∧ e.team = entry.team := by
  cases k with
  | store c =>
    cases hc : c.store.checkRecord r with
    | error e => simp [check, hc, Except.map] at h
    | ok u =>
      simp only [check, hc, Except.map, Except.ok.injEq] at h
      subst h
      exact ⟨rfl, fun e ↦ Iff.rfl⟩
  | shared s =>
    obtain ⟨hsite, -, hteam, hrecord⟩ := Server.entry_eq_ok_iff.1 h
    exact ⟨hrecord, fun e ↦ by simp [Houses, hsite, hteam]⟩

theorem holds_row {entry : Entry} (h : k.check r = .ok entry) (id : Int) :
    k.Holds now r (entry.row id now) := by
  obtain ⟨rfl, hhouses⟩ := of_check h
  exact ⟨⟨rfl, rfl, rfl, rfl, rfl, rfl, entry, rfl, entry.returned_eq_row id now⟩,
    (hhouses _).2 ⟨rfl, rfl⟩⟩

/-- But for its number, an event is known from its record. -/
theorem Holds.eq_row {entry : Entry} (h : k.check r = .ok entry) {e : StoredEvent}
    (he : k.Holds now r e) : e = entry.row e.id now := by
  obtain ⟨rfl, hhouses⟩ := of_check h
  obtain ⟨hsite, hteam⟩ := (hhouses e).1 he.houses
  obtain ⟨⟨htag, hevent, hcontext, hcreated, hupdated, haccount, -⟩, -⟩ := he
  obtain ⟨id, site, tag, account, team, event, context, createdAt, updatedAt⟩ := e
  simp only at htag hevent hcontext hcreated hupdated haccount hsite hteam
  simp [Entry.row, *]

theorem table_prepared_eq (c : Connection) :
    c.prepared.table = if (store c).isLost then none else some c.content := by
  unfold Connection.prepared
  cases hs : c.store.schemaReady <;> cases ht : c.table <;>
    simp [isLost, hs, ht, Connection.content]

/-- A batch that is not empty is checked, and its rows are put if the table is there and they fit. -/
theorem fst_insertAll (k : Keeper) (now : Instant) (hne : records ≠ []) :
    (k.insertAll now records).1 = records.mapM (k.check ·) >>= fun es ↦
      if k.isLost then .error k.outage
      else if (Entry.rows now k.content.nextId es).all (·.numbers.all fitsTable) then
        .ok (Entry.rows now k.content.nextId es)
      else .error (.fault .hugeForStore) := by
  have hempty : records.isEmpty = false := by simpa using hne
  cases k with
  | store c =>
    have hchecks : records.mapM (check · (store c)) =
        (records.forM c.store.checkRecord).map fun _ ↦ records.map c.store.entry :=
      mapM_map_const ..
    rw [hchecks]
    simp only [insertAll, Connection.insertAll, hempty, Bool.false_eq_true, if_false]
    cases records.forM c.store.checkRecord with
    | error e => rfl
    | ok u =>
      simp only [Connection.write, table_prepared_eq, Connection.entry_prepared, content, outage,
        Except.map, bind, Except.bind]
      cases (store c).isLost with
      | true => simp [Connection.outage, SiteStore.source]
      | false =>
        simp only [Bool.false_eq_true, if_false, Table.addAll_eq]
        by_cases hfits : (Entry.rows now c.content.nextId (records.map c.store.entry)).all
          (·.numbers.all fitsTable) = true
        · simp only [hfits, if_true]
        · simp only [hfits, Bool.false_eq_true, if_false]
  | shared s =>
    change (s.insertAll now records).1 = records.mapM Server.entry >>= _
    simp only [Server.insertAll, hempty, Bool.false_eq_true, if_false]
    cases records.mapM Server.entry with
    | error e => rfl
    | ok es =>
      cases ht : s.table with
      | none => simp [isLost, outage, ht, bind, Except.bind]
      | some t =>
        simp only [content, isLost, Server.content, ht, Option.isNone_some, Bool.false_eq_true,
          if_false, Option.getD_some, Table.addAll_eq, bind, Except.bind]
        by_cases hfits : (Entry.rows now t.nextId es).all (·.numbers.all fitsTable) = true
        · simp only [hfits, if_true]
        · simp only [hfits, Bool.false_eq_true, if_false]

/-- A row does not fit, after those of the records before it. -/
theorem exists_unfit_iff (now : Instant) {es : List Entry}
    (h : List.Forall₂ (fun r entry ↦ k.check r = .ok entry) records es) (id : Int) :
    (Entry.rows now id es).all (·.numbers.all fitsTable) = false ↔
      ∃ before r after e, records = before ++ r :: after ∧ k.Holds now r e ∧
        e.id = id + before.length ∧ e.numbers.all fitsTable = false := by
  induction h generalizing id with
  | nil => simp
  | @cons r entry records es hr _ ih =>
    rw [Entry.rows_cons, List.all_cons, Bool.and_eq_false_iff, ih]
    constructor
    · rintro (hrow | ⟨before, x, after, e, rfl, he, hid, hfits⟩)
      · exact ⟨[], r, records, entry.row id now, rfl, holds_row hr id, by simp [Entry.row], hrow⟩
      · refine ⟨r :: before, x, after, e, rfl, he, ?_, hfits⟩
        rw [hid, List.length_cons]
        omega
    · rintro ⟨before, x, after, e, heq, he, hid, hfits⟩
      cases before with
      | nil =>
        obtain ⟨rfl, rfl⟩ := List.cons.inj heq
        refine .inl ?_
        rwa [he.eq_row hr, show e.id = id by simpa using hid] at hfits
      | cons y before =>
        obtain ⟨rfl, hrest⟩ := List.cons.inj heq
        refine .inr ⟨before, x, after, e, hrest, he, ?_, hfits⟩
        rw [hid, List.length_cons]
        omega

theorem Fails.error (h : k.Fails now records e) : (k.insertAll now records).1 = .error e := by
  have hall {records : List EventRecord} (htakes : ∀ x ∈ records, k.Takes x) :
      ∃ es, records.mapM (k.check ·) = .ok es := by
    cases hes : records.mapM (k.check ·) with
    | ok es => exact ⟨es, rfl⟩
    | error e =>
      obtain ⟨before, x, after, rfl, -, hx⟩ := mapM_eq_error_iff.1 hes
      exact absurd (check_eq_error_iff.1 hx) (htakes x (by simp) e)
  cases h with
  | nothing => cases k <;> rfl
  | refused hbefore hr =>
    rw [fst_insertAll k now (by simp), mapM_eq_error_iff.2 ⟨_, _, _, rfl,
      fun x hx ↦ takes_iff.1 (hbefore x hx), check_eq_error_iff.2 hr⟩]
    rfl
  | lost hne htakes hlost =>
    obtain ⟨es, hes⟩ := hall htakes
    simp [fst_insertAll k now hne, hes, hlost, bind, Except.bind]
  | huge htakes hlost hn he hid hunfit =>
    obtain ⟨es, hes⟩ := hall htakes
    have hfits := (exists_unfit_iff now (mapM_eq_ok_iff.1 hes) k.content.nextId).2
      ⟨_, _, _, _, rfl, he, hn.eq k.content.isNext_nextId ▸ hid, hunfit⟩
    simp [fst_insertAll k now, hes, hlost, hfits, bind, Except.bind]

/-- The second record does not fit, so that the first is not stored either. -/
example : (store ⟨{ site := 1 }, none⟩).insertAll ⟨0⟩ [.plain 1 none, .vast 1 none] =
    (.error (.fault .hugeForStore), store ⟨{ site := 1, schemaReady := true }, some []⟩) := by
  rfl

end Keeper

end Footfall
