import Footfall.Backend.Dispatch
import Footfall.Proofs.Reading
import Footfall.Proofs.Writing

/-!
Runs of a backend of embedded stores: batches, reads, and restarts of the process. Every step opens
stores, stores the parts of a batch one after the other, or ends the process.
-/

namespace Footfall

inductive Operation
  | insert (now : Instant) (record : EventRecord)
  | insertAll (now : Instant) (records : List EventRecord)
  | list (s : Scope) (f : EventFilters)
  | dashboard (now : Instant) (o : DashboardOptions)
  | hasAny (s : Scope)
  | stats (s : Scope) (range : Option DateRange)
  | summary (s : Scope) (o : SummaryOptions)
  | series (s : Scope) (range : Option DateRange) (g : Granularity) (byEvent : Value)
  | query (s : Scope) (q : TableQuery) (limit : Value)
  | restart

/-- A record that says nothing beside its site and team. -/
def EventRecord.plain (site : Int) (team : Option Int) : EventRecord :=
  ⟨some site, "tag", team, team, "view", {}, none, none⟩

/-- Settings with a directory for the stores. -/
def Settings.onDisk : Settings := { storeDir := .text "stores" }

/-- A store on disk is written to for one team, and after a restart for another. -/
def twoTeams : List Operation :=
  [.insert ⟨0⟩ (.plain 1 (some 10)), .restart, .insert ⟨0⟩ (.plain 1 (some 20))]

namespace Operation

/-- The batch that a step stores. -/
def batch : Operation → Option (Instant × List EventRecord)
  | insert now record => some (now, [record])
  | insertAll now records => some (now, records)
  | _ => none

def records (o : Operation) : List EventRecord := (o.batch.map (·.2)).getD []

end Operation

namespace Registry

variable {r r' : Registry} {now : Instant} {site : Int} {part : List EventRecord}

/-- A batch of parts comes to a part, once the parts before it have been stored, and finds the
stores in a state. -/
inductive Reaches (now : Instant) :
    Registry → List (Int × List EventRecord) → Registry → Int → List EventRecord → Prop
  | head (r : Registry) (site : Int) (part : List EventRecord)
      (rest : List (Int × List EventRecord)) : Reaches now r ((site, part) :: rest) r site part
  | tail {r r' r'' : Registry} {site other : Int} {part next : List EventRecord}
      {rest : List (Int × List EventRecord)} {rows : List StoredEvent} :
      r.insertPart now site part = (.ok rows, r') → Reaches now r' rest r'' other next →
      Reaches now r ((site, part) :: rest) r'' other next

/-- A batch of records comes to a part of it. -/
def Comes (r : Registry) (now : Instant) (records : List EventRecord) (r' : Registry) (site : Int)
    (part : List EventRecord) : Prop :=
  ∃ routed, records.mapM Registry.routed = .ok routed ∧
    Reaches now r (recordsBySite routed) r' site part

theorem Reaches.mem {parts : List (Int × List EventRecord)}
    (h : Reaches now r parts r' site part) : (site, part) ∈ parts := by
  induction h with
  | head => simp
  | tail _ _ ih => simp [ih]

theorem Comes.records {records : List EventRecord} (h : r.Comes now records r' site part) :
    part ≠ [] ∧ ∀ x ∈ part, x ∈ records ∧ x.site = some site := by
  obtain ⟨routed, hr, hreach⟩ := h
  exact mem_part hr hreach.mem

theorem Reaches.isSound {parts : List (Int × List EventRecord)}
    (h : Reaches now r parts r' site part) (hr : r.IsSound)
    (hparts : ∀ p ∈ parts, p.2 ≠ [] ∧ ∀ x ∈ p.2, x.site = some p.1) : r'.IsSound := by
  induction h with
  | head => exact hr
  | tail hi _ ih =>
    obtain ⟨hne, hsite⟩ := hparts _ (List.mem_cons_self ..)
    obtain ⟨result, r', hi', hw, -⟩ := insertPart_cases hr now hne hsite
    cases hi.symm.trans hi'
    exact ih hw.isSound fun p hp ↦ hparts p (by simp [hp])

theorem Comes.isSound {records : List EventRecord} (h : r.Comes now records r' site part)
    (hr : r.IsSound) : r'.IsSound := by
  obtain ⟨routed, hrouted, hreach⟩ := h
  refine hreach.isSound hr fun p hp ↦ ?_
  obtain ⟨hne, hpart⟩ := mem_part hrouted hp
  exact ⟨hne, fun x hx ↦ (hpart x hx).2⟩

/-- What every part keeps, a batch of parts keeps. -/
theorem insertEach_keeps {P : Registry → Prop} {parts : List (Int × List EventRecord)} (h : P r)
    (hstep : ∀ r' site part, Reaches now r parts r' site part → P r' →
      P (r'.insertPart now site part).2) : P (r.insertEach now parts).2 := by
  induction parts generalizing r with
  | nil => exact h
  | cons p rest ih =>
    obtain ⟨site, part⟩ := p
    have hp := hstep r site part (.head ..) h
    rw [insertEach_cons]
    rcases hi : r.insertPart now site part with ⟨_ | rows, r'⟩ <;> rw [hi] at hp
    · exact hp
    · exact ih hp fun r'' other next hreach ↦ hstep r'' other next (.tail hi hreach)

/-- What holds after one part, and what the later parts keep, holds in the end. -/
theorem insertEach_of_reaches {P : Registry → Prop} {parts : List (Int × List EventRecord)}
    (hreach : Reaches now r parts r' site part) (h : P (r'.insertPart now site part).2)
    (hstep : ∀ r' site part, (site, part) ∈ parts → P r' →
      P (r'.insertPart now site part).2) : P (r.insertEach now parts).2 := by
  induction hreach with
  | head r site part rest =>
    rw [insertEach_cons]
    rcases hi : r.insertPart now site part with ⟨_ | rows, r'⟩ <;> rw [hi] at h
    · exact h
    · exact insertEach_keeps h fun r'' other next hreach ↦
        hstep r'' other next (by simp [hreach.mem])
  | tail hi _ ih =>
    rw [insertEach_cons, hi]
    exact ih h fun r' site part hmem ↦ hstep r' site part (by simp [hmem])

theorem snd_insertAll (r : Registry) (now : Instant) (records : List EventRecord) :
    (r.insertAll now records).2 = match records.mapM Registry.routed with
      | .error _ => r
      | .ok routed => (r.insertEach now (recordsBySite routed)).2 := by
  unfold insertAll
  cases h : records.mapM Registry.routed with
  | error e => rfl
  | ok routed => cases routed <;> rfl

theorem insertAll_keeps {P : Registry → Prop} {records : List EventRecord} (h : P r)
    (hstep : ∀ r' site part, r.Comes now records r' site part → P r' →
      P (r'.insertPart now site part).2) : P (r.insertAll now records).2 := by
  rw [snd_insertAll]
  cases hr : records.mapM Registry.routed with
  | error e => exact h
  | ok routed =>
    exact insertEach_keeps h fun r' site part hreach ↦ hstep r' site part ⟨routed, hr, hreach⟩

theorem insertAll_of_comes {P : Registry → Prop} {records : List EventRecord}
    (hcomes : r.Comes now records r' site part) (h : P (r'.insertPart now site part).2)
    (hstep : ∀ r' site part, part ≠ [] → (∀ x ∈ part, x.site = some site) → P r' →
      P (r'.insertPart now site part).2) : P (r.insertAll now records).2 := by
  obtain ⟨routed, hr, hreach⟩ := hcomes
  rw [snd_insertAll, hr]
  refine insertEach_of_reaches hreach h fun r' site part hmem hp ↦ ?_
  obtain ⟨hne, hpart⟩ := mem_part hr hmem
  exact hstep r' site part hne (fun x hx ↦ (hpart x hx).2) hp

theorem IsSound.insertAll (h : r.IsSound) (now : Instant) (records : List EventRecord) :
    (r.insertAll now records).2.IsSound := by
  refine insertAll_keeps h fun r' site part hcomes h' ↦ ?_
  obtain ⟨hne, hpart⟩ := hcomes.records
  obtain ⟨result, r'', hi, hw, -⟩ := insertPart_cases h' now hne fun x hx ↦ (hpart x hx).2
  rw [hi]
  exact hw.isSound

theorem persistent_insertAll (h : r.IsSound) (now : Instant) (records : List EventRecord) :
    (r.insertAll now records).2.persistent = r.persistent := by
  refine (insertAll_keeps (P := fun r' ↦ r'.IsSound ∧ r'.persistent = r.persistent) ⟨h, rfl⟩
    fun r' site part hcomes ⟨h', hp⟩ ↦ ?_).2
  obtain ⟨hne, hpart⟩ := hcomes.records
  obtain ⟨result, r'', hi, hw, -⟩ := insertPart_cases h' now hne fun x hx ↦ (hpart x hx).2
  rw [hi]
  exact ⟨hw.isSound, hw.persistent.trans hp⟩

theorem isSound_new (persistent : Bool) (maxRows : Value) :
    IsSound { persistent := persistent, maxRows := maxRows } :=
  ⟨fun h ↦ by simp [Registry.find] at h, fun h ↦ by simp [Registry.find] at h⟩

theorem isSound_restart (r : Registry) : r.restart.IsSound :=
  ⟨fun h ↦ by simp [restart, Registry.find] at h, fun h ↦ by simp [restart, Registry.find] at h⟩

theorem rowsOf_restart (hp : r.persistent = true) (site : Int) :
    r.restart.rowsOf site = r.rowsOf site := by
  simp [restart, hp, Registry.rowsOf, tableOf]

/-- How a step goes on from a state of the stores. -/
inductive Moves (r : Registry) (o : Operation) : Registry → Prop
  | read {r' : Registry} : o.batch = none → r.Opens r' → Moves r o r'
  | write {now : Instant} {records : List EventRecord} :
      o.batch = some (now, records) → Moves r o (r.insertAll now records).2
  | restart : o.batch = none → Moves r o r.restart

theorem Moves.isSound {o : Operation} (h : r.IsSound) (hm : r.Moves o r') : r'.IsSound := by
  cases hm with
  | read _ ho => exact ho.isSound
  | write _ => exact h.insertAll ..
  | restart _ => exact isSound_restart r

theorem Moves.persistent {o : Operation} (h : r.IsSound) (hm : r.Moves o r') :
    r'.persistent = r.persistent := by
  cases hm with
  | read _ ho => exact ho.persistent
  | write _ => exact persistent_insertAll h ..
  | restart _ => rfl

end Registry

namespace Backend

variable {b : Backend} {r : Registry}

def restart (b : Backend) : Backend :=
  match b.engine with
  | .embedded r => { b with engine := .embedded r.restart }
  | _ => b

/-- The stores of the backend. -/
def registry (b : Backend) : Registry :=
  match b.engine with
  | .embedded r => r
  | _ => {}

def after (b : Backend) : Operation → Backend
  | .insert now record => (b.insert now record).2
  | .insertAll now records => (b.insertAll now records).2
  | .list s f => (b.list s f).2
  | .dashboard now o => (b.dashboard now o).2
  | .hasAny s => (b.hasAny s).2
  | .stats s range => (b.stats s range).2
  | .summary s o => (b.summary s o).2
  | .series s range g byEvent => (b.series s range g byEvent).2
  | .query s q limit => (b.run s q limit).2
  | .restart => b.restart

def afterAll (b : Backend) (steps : List Operation) : Backend := steps.foldl after b

theorem moves_after (hb : b.engine = .embedded r) (h : r.IsSound) (o : Operation) :
    ∃ r', (b.after o).engine = .embedded r' ∧ r.Moves o r' := by
  have hread {o : Operation} (hstep : o.batch = none) {b' : Backend}
      (hb' : ∃ r', b'.engine = .embedded r' ∧ r.Opens r') :
      ∃ r', b'.engine = .embedded r' ∧ r.Moves o r' := by
    obtain ⟨r', he, ho⟩ := hb'
    exact ⟨r', he, .read hstep ho⟩
  cases o with
  | insert now record => exact ⟨_, by simp [after, insert, insertAll, hb], .write rfl⟩
  | insertAll now records => exact ⟨_, by simp [after, insertAll, hb], .write rfl⟩
  | list s f => exact hread rfl (opens_read hb h (Connection.reads_list f).idle ..)
  | dashboard now o => exact hread rfl (opens_dashboard hb h now o)
  | hasAny s => exact hread rfl (opens_read hb h Connection.reads_hasEvents.idle ..)
  | stats s range => exact hread rfl (opens_read hb h (Connection.reads_stats range).idle ..)
  | summary s o => exact hread rfl (opens_read hb h (Connection.reads_summary o).idle ..)
  | series s range g byEvent =>
    exact hread rfl (opens_read hb h (Connection.reads_series range g byEvent).idle ..)
  | query s q limit => exact hread rfl (opens_read hb h (Connection.idle_run q limit) ..)
  | restart => exact ⟨r.restart, by simp [after, restart, hb], .restart rfl⟩

theorem engine_after_of_batch (hb : b.engine = .embedded r) {o : Operation} {now : Instant}
    {records : List EventRecord} (ho : o.batch = some (now, records)) :
    (b.after o).engine = .embedded (r.insertAll now records).2 := by
  cases o <;> cases ho <;> simp [after, insert, insertAll, hb]

theorem registry_eq (hb : b.engine = .embedded r) : b.registry = r := by
  simp [registry, hb]

@[simp] theorem afterAll_concat (b : Backend) (ops : List Operation) (o : Operation) :
    b.afterAll (ops ++ [o]) = (b.afterAll ops).after o := by
  simp [afterAll]

/-- Induction over the operations of a run, the last one first. -/
theorem run_induction (s : Settings) {P : List Operation → Registry → Prop}
    (hnil : P [] { persistent := s.storeDir.isTruthy, maxRows := s.queryRows })
    (hstep : ∀ before o r r', (s.embedded.afterAll before).engine = .embedded r → r.IsSound →
      r.persistent = s.storeDir.isTruthy → P before r → r.Moves o r' → P (before ++ [o]) r')
    (ops : List Operation) :
    ∃ r, (s.embedded.afterAll ops).engine = .embedded r ∧ r.IsSound ∧
      r.persistent = s.storeDir.isTruthy ∧ P ops r := by
  induction ops using List.reverseRecOn with
  | nil =>
    exact ⟨_, rfl, Registry.isSound_new .., rfl, hnil⟩
  | append_singleton before o ih =>
    obtain ⟨r, hr, h, hp, hP⟩ := ih
    obtain ⟨r', hr', hm⟩ := moves_after hr h o
    rw [afterAll_concat]
    exact ⟨r', hr', hm.isSound h, (hm.persistent h).trans hp, hstep before o r r' hr h hp hP hm⟩

end Backend

end Footfall
