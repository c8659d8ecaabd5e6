import Footfall.Proofs.Connection
import Footfall.Proofs.Run
import Mathlib

/-!
The history of one store: batches, deletions, reads, and its being opened anew over its database. A
call takes out the rows that it dooms and puts those that it stores at the end. The numbers of all
events ever stored grow as long as the newest event outlives every deletion until the next one is
stored.
-/

namespace Footfall

inductive StoreCall
  | insert (now : Instant) (record : EventRecord)
  | insertAll (now : Instant) (records : List EventRecord)
  | delete (olderThan event : Value)
  | list (f : EventFilters)
  | hasEvents
  | countSince (start stop : Value)
  | visitors (now : Instant) (window : Value)
  | stats (range : Option DateRange)
  | summary (o : SummaryOptions)
  | series (range : Option DateRange) (g : Granularity) (byEvent : Value)
  | query (q : TableQuery) (limit : Value)
  | loadIdentity
  | schema
  | health (now : Instant)
  | reopen (tag : Option String) (team : Option Int)

namespace StoreCall

/-- The batch that a call stores. -/
def batch : StoreCall → Option (Instant × List EventRecord)
  | insert now record => some (now, [record])
  | insertAll now records => some (now, records)
  | _ => none

/-- Whether a call deletes an event. Without a criterion nothing is deleted. -/
def dooms : StoreCall → StoredEvent → Bool
  | delete olderThan event, e =>
    match olderThan.toInstantOrNone, Connection.eventTest event with
    | .ok bound, .ok hasName =>
      !(olderThan.isNull && !event.isTruthy) &&
        (bound.all (fun b ↦ decide (e.createdAt ≤ b)) && hasName e)
    | _, _ => false
  | _, _ => false

/-- A call that stores deletes nothing. -/
theorem dooms_of_batch {call : StoreCall} {batch : Instant × List EventRecord}
    (h : call.batch = some batch) (e : StoredEvent) : call.dooms e = false := by
  cases call <;> cases h <;> rfl

end StoreCall

/-- How a batch ends: it is refused, or its rows, numbered on, are put at the end and returned. -/
inductive Table.Ends (t : Table) (now : Instant) (es : List Entry) :
    Except Failure (List StoredEvent) → Table → Prop
  | refused {e : Failure} : Ends t now es (.error e) t
  | stored : (Entry.rows now t.nextId es).all (·.numbers.all fitsTable) = true →
      Ends t now es (.ok (Entry.rows now t.nextId es)) (t ++ Entry.rows now t.nextId es)

namespace Connection

variable {c : Connection}

/-- The store of a new process over the same database. -/
def reopen (c : Connection) (tag : Option String) (team : Option Int) : Connection :=
  ⟨{ site := c.store.site, tag := tag, team := team, maxRows := c.store.maxRows }, c.table⟩

def after (c : Connection) : StoreCall → Connection
  | .insert now record => (c.insertAll now [record]).2
  | .insertAll now records => (c.insertAll now records).2
  | .delete olderThan event => (c.delete olderThan event).2
  | .list f => (c.list f).2
  | .hasEvents => c.hasEvents.2
  | .countSince start stop => (c.countSince start stop).2
  | .visitors now window => (c.visitors now window).2
  | .stats range => (c.stats range).2
  | .summary o => (c.summary o).2
  | .series range g byEvent => (c.series range g byEvent).2
  | .query q limit => (c.run q limit).2
  | .loadIdentity => c.loadIdentity.2
  | .schema => c.schema.2
  | .health now => (c.health now).2
  | .reopen tag team => c.reopen tag team

/-- The events that a call stores, as it returns them. -/
def stored (c : Connection) (call : StoreCall) : List StoredEvent :=
  match call.batch with
  | some (now, records) => (c.insertAll now records).1.toOption.getD []
  | none => []

def afterAll (c : Connection) (calls : List StoreCall) : Connection := calls.foldl after c

/-- The events that calls store, one call after the other. -/
def storedAll (c : Connection) : List StoreCall → List StoredEvent
  | [] => []
  | call :: rest => c.stored call ++ (c.after call).storedAll rest

@[simp] theorem afterAll_concat (c : Connection) (calls : List StoreCall) (call : StoreCall) :
    c.afterAll (calls ++ [call]) = (c.afterAll calls).after call := by
  simp [afterAll]

theorem storedAll_concat (c : Connection) (calls : List StoreCall) (call : StoreCall) :
    c.storedAll (calls ++ [call]) = c.storedAll calls ++ (c.afterAll calls).stored call := by
  induction calls generalizing c with
  | nil => simp [storedAll, afterAll]
  | cons first rest ih =>
    rw [List.cons_append, storedAll, ih, storedAll, List.append_assoc]
    rfl

theorem ends_write (now : Instant) (records : List EventRecord) :
    c.content.Ends now (records.map c.store.entry) (c.write now records).1
      (c.write now records).2.content := by
  unfold write
  cases ht : c.table with
  | none => exact .refused
  | some t =>
    have hcontent : c.content = t := by simp [content, ht]
    have hadd := t.addAll_eq now (records.map c.store.entry)
    rw [hcontent]
    split at hadd
    · rename_i hfits
      simp only [hadd]
      exact .stored hfits
    · simp only [hadd, hcontent]
      exact .refused

theorem ends_insertAll (now : Instant) (records : List EventRecord) :
    c.content.Ends now (records.map c.store.entry) (c.insertAll now records).1
      (c.insertAll now records).2.content := by
  unfold insertAll
  split
  · exact .refused
  · cases records.forM c.store.checkRecord with
    | error e => exact .refused
    | ok u =>
      have h := c.prepared.ends_write now records
      rwa [content_prepared, entry_prepared] at h

theorem snd_read {α : Type} (f : Table → Except Failure α) : (c.read f).2.content = c.content :=
  content_prepared

theorem content_list (f : EventFilters) : (c.list f).2.content = c.content := by
  refine Eq.trans ?_ content_prepared
  dsimp only [list]
  cases c.prepared.table <;> rfl

theorem content_run (q : TableQuery) (limit : Value) : (c.run q limit).2.content = c.content := by
  unfold run
  cases rowBound limit c.store.maxRows with
  | error f => rfl
  | ok bound => exact content_prepared

theorem content_visitors (now : Instant) (window : Value) :
    (c.visitors now window).2.content = c.content := by
  unfold visitors
  cases windowStart now window with
  | error f => rfl
  | ok start => exact content_prepared

theorem content_countSince (start stop : Value) :
    (c.countSince start stop).2.content = c.content := by
  unfold countSince
  cases start.toInstant <;> cases stop.toInstantOrNone <;> first | rfl | exact content_prepared

theorem content_schema : c.schema.2.content = c.content := by
  refine Eq.trans ?_ content_prepared
  dsimp only [schema]
  cases c.prepared.table <;> rfl

theorem content_identified : c.loadIdentity.2.content = c.content := by
  unfold loadIdentity
  split
  · rfl
  · refine Eq.trans ?_ content_prepared
    dsimp only
    cases ht : c.prepared.table with
    | none => rfl
    | some t => cases t <;> simp [content, ht]

theorem content_delete (olderThan event : Value) :
    (c.delete olderThan event).2.content =
      c.content.filter (!(StoreCall.delete olderThan event).dooms ·) := by
  unfold delete
  cases hnone : olderThan.isNull && !event.isTruthy with
  | true =>
    have hdooms (e : StoredEvent) : (StoreCall.delete olderThan event).dooms e = false := by
      simp only [StoreCall.dooms, hnone]
      split <;> rfl
    simp [hdooms]
  | false =>
    cases hbound : olderThan.toInstantOrNone with
    | error f => simp [StoreCall.dooms, hbound]
    | ok bound =>
      simp only [StoreCall.dooms, hbound, hnone]
      rw [← content_prepared (c := c)]
      cases htest : eventTest event with
      | error u => cases htable : c.prepared.table <;> cases u <;> simp
      | ok hasName =>
        cases htable : c.prepared.table with
        | none => simp [content, htable]
        | some t => simp [content, remove, htable]

/-- How a call goes on from the rows: it takes out those that it dooms, or it puts a batch at the
end. -/
inductive Goes (c : Connection) (call : StoreCall) (c' : Connection) : Prop
  | keep : c.stored call = [] → c'.content = c.content.filter (!call.dooms ·) → Goes c call c'
  | put {now : Instant} {records : List EventRecord} :
      call.batch = some (now, records) →
      c.stored call = Entry.rows now c.content.nextId (records.map c.store.entry) →
      (c.stored call).all (·.numbers.all fitsTable) = true →
      c'.content = c.content ++ c.stored call → Goes c call c'

theorem goes_insertAll {call : StoreCall} {now : Instant} {records : List EventRecord}
    (hbatch : call.batch = some (now, records))
    (hafter : c.after call = (c.insertAll now records).2) : Goes c call (c.after call) := by
  have hdooms := StoreCall.dooms_of_batch hbatch
  have hstored : c.stored call = (c.insertAll now records).1.toOption.getD [] := by
    simp [stored, hbatch]
  rw [hafter]
  have hends := c.ends_insertAll now records
  generalize (c.insertAll now records).2 = c' at hends ⊢
  generalize (c.insertAll now records).1 = result at hends hstored
  generalize ht : c'.content = t at hends
  cases hends with
  | refused =>
    refine .keep hstored ?_
    simp only [ht, hdooms, Bool.not_false, List.filter_true]
  | stored hfits => exact .put hbatch hstored (hstored ▸ hfits) (hstored ▸ ht)

/-- A call that stores and deletes nothing leaves the rows as they are. -/
theorem Goes.of_content {call : StoreCall} {c' : Connection} (hbatch : call.batch = none)
    (hdooms : call.dooms = fun _ ↦ false) (h : c'.content = c.content) : Goes c call c' := by
  refine .keep (by simp [stored, hbatch]) ?_
  simp only [h, hdooms, Bool.not_false, List.filter_true]

theorem goes_after (c : Connection) (call : StoreCall) : Goes c call (c.after call) := by
  cases call with
  | insert now record => exact goes_insertAll rfl rfl
  | insertAll now records => exact goes_insertAll rfl rfl
  | delete olderThan event => exact .keep rfl (content_delete olderThan event)
  | list f => exact .of_content rfl rfl (content_list f)
  | hasEvents => exact .of_content rfl rfl (snd_read _)
  | countSince start stop => exact .of_content rfl rfl (content_countSince start stop)
  | visitors now window => exact .of_content rfl rfl (content_visitors now window)
  | stats range => exact .of_content rfl rfl (snd_read _)
  | summary o => exact .of_content rfl rfl (snd_read _)
  | series range g byEvent => exact .of_content rfl rfl (snd_read _)
  | query q limit => exact .of_content rfl rfl (content_run q limit)
  | loadIdentity => exact .of_content rfl rfl content_identified
  | schema => exact .of_content rfl rfl content_schema
  | health now => exact .of_content rfl rfl (snd_read _)
  | reopen tag team => exact .of_content rfl rfl rfl

/-- Rows that are there have been stored, in this order. -/
theorem sublist_storedAll (hc : c.content = []) (calls : List StoreCall) :
    (c.afterAll calls).content.Sublist (c.storedAll calls) := by
  induction calls using List.reverseRecOn with
  | nil => simp [afterAll, hc]
  | append_singleton before call ih =>
    rw [afterAll_concat, storedAll_concat]
    cases (c.afterAll before).goes_after call with
    | keep hstored hcontent =>
      rw [hstored, List.append_nil, hcontent]
      exact List.filter_sublist.trans ih
    | put _ _ _ hcontent =>
      rw [hcontent]
      exact ih.append_right _

end Connection

namespace Connection

variable {c : Connection}

theorem isKeyed_afterAll (hc : c.content = []) (calls : List StoreCall) :
    (c.afterAll calls).content.IsKeyed := by
  induction calls using List.reverseRecOn with
  | nil => exact hc ▸ Table.isKeyed_nil
  | append_singleton before call ih =>
    rw [afterAll_concat]
    cases (c.afterAll before).goes_after call with
    | keep _ hcontent => exact hcontent ▸ ih.filter _
    | put _ hstored hfits hcontent =>
      rw [hcontent, hstored]
      exact ih.append_rows (hstored ▸ hfits)

/-- Whenever something is stored, the event stored before it is still there. -/
def KeepsNewest (c : Connection) (calls : List StoreCall) : Prop :=
  ∀ before call after, calls = before ++ call :: after → (c.afterAll before).stored call ≠ [] →
    ∀ e, (c.storedAll before).getLast? = some e → e ∈ (c.afterAll before).content

theorem keepsNewest_concat {calls : List StoreCall} {call : StoreCall} :
    c.KeepsNewest (calls ++ [call]) ↔ c.KeepsNewest calls ∧
      ((c.afterAll calls).stored call ≠ [] → ∀ e, (c.storedAll calls).getLast? = some e →
        e ∈ (c.afterAll calls).content) := by
  constructor
  · intro h
    refine ⟨fun before x after hsplit ↦ ?_, h calls call [] rfl⟩
    exact h before x (after ++ [call]) (by simp [hsplit])
  · rintro ⟨hcalls, hlast⟩ before x after hsplit
    rcases List.eq_nil_or_concat after with rfl | ⟨after, y, rfl⟩
    · obtain ⟨rfl, hx⟩ := List.append_inj' hsplit rfl
      cases hx
      exact hlast
    · rw [List.concat_eq_append, ← List.cons_append, ← List.append_assoc] at hsplit
      obtain ⟨rfl, -⟩ := List.append_inj' hsplit rfl
      exact hcalls before x after rfl

end Connection

namespace Table

variable {t stored : Table} {e : StoredEvent}

/-- The number after the last of the rows ever stored is given next, if the last is still there. -/
theorem nextId_of_newest_mem (hsub : t.Sublist stored) (hn : stored.IsNumbered)
    (hnew : ∀ e, stored.getLast? = some e → e ∈ t) : t.nextId = stored.nextId := by
  rcases List.eq_nil_or_concat stored with rfl | ⟨older, e, rfl⟩
  · rw [List.sublist_nil.1 hsub]
  · rw [List.concat_eq_append] at hsub hn hnew ⊢
    have hpair := pairwise_of_isNumbered hn
    have holder (r : StoredEvent) (hr : r ∈ older) : r.id < e.id :=
      (List.pairwise_append.1 hpair).2.2 r hr e (by simp)
    have hle : t.nextId ≤ e.id + 1 := by
      have hpos := (id_mem_of_isNumbered hn (e := e) (by simp)).1
      refine nextId_le (by omega) fun r hr ↦ ?_
      rcases List.mem_append.1 (hsub.subset hr) with hr | hr
      · exact (holder r hr).trans (by omega)
      · simp_all
    have hlt : e.id < t.nextId := lt_nextId (hnew e (by simp))
    rw [nextId_concat holder]
    omega

/-- Once the last of the rows ever stored is gone, the number given next has been given before. -/
theorem nextId_given_of_newest_notMem (hsub : t.Sublist stored) (hn : stored.IsNumbered)
    (hlast : stored.getLast? = some e) (he : e ∉ t) : ∃ r ∈ stored, r.id = t.nextId := by
  obtain ⟨older, rfl⟩ := List.getLast?_eq_some_iff.1 hlast
  have hpair := pairwise_of_isNumbered hn
  have hbound := id_mem_of_isNumbered hn (e := e) (by simp)
  have hpos : 1 ≤ t.nextId :=
    one_le_nextId fun r hr ↦ (id_mem_of_isNumbered hn (hsub.subset hr)).1
  have hle : t.nextId ≤ e.id := by
    refine nextId_le hbound.1 fun r hr ↦ ?_
    rcases List.mem_append.1 (hsub.subset hr) with hr' | hr'
    · exact (List.pairwise_append.1 hpair).2.2 r hr' e (by simp)
    · rw [List.mem_singleton.1 hr'] at hr
      exact absurd hr he
  exact exists_of_isNumbered hn hpos (by omega)

end Table

namespace Connection

variable {c : Connection}

theorem isNumbered_storedAll (hc : c.content = []) {calls : List StoreCall}
    (h : c.KeepsNewest calls) : Table.IsNumbered (c.storedAll calls) := by
  induction calls using List.reverseRecOn with
  | nil => exact Table.isNumbered_nil
  | append_singleton before call ih =>
    obtain ⟨hbefore, hnewest⟩ := keepsNewest_concat.1 h
    rw [storedAll_concat]
    cases (c.afterAll before).goes_after call with
    | keep hstored _ => simpa [hstored] using ih hbefore
    | put _ hstored _ _ =>
      by_cases hnil : (c.afterAll before).stored call = []
      · simpa [hnil] using ih hbefore
      · have hnext := Table.nextId_of_newest_mem (sublist_storedAll hc before) (ih hbefore)
          (hnewest hnil)
        rw [hstored, hnext]
        exact Table.isNumbered_append_rows (ih hbefore) ..

theorem keepsNewest_of_nodup (hc : c.content = []) {calls : List StoreCall}
    (h : ((c.storedAll calls).map (·.id)).Nodup) : c.KeepsNewest calls := by
  induction calls using List.reverseRecOn with
  | nil =>
    intro before call after hsplit
    simp at hsplit
  | append_singleton before call ih =>
    rw [storedAll_concat, List.map_append] at h
    have hbefore := ih h.of_append_left
    refine keepsNewest_concat.2 ⟨hbefore, fun hne e hlast ↦ ?_⟩
    by_contra he
    obtain ⟨r, hr, hid⟩ := Table.nextId_given_of_newest_notMem (sublist_storedAll hc before)
      (isNumbered_storedAll hc hbefore) hlast he
    -- the first row of the batch bears the number of a row stored before
    cases (c.afterAll before).goes_after call with
    | keep hstored _ => exact hne hstored
    | @put now records _ hstored _ _ =>
      cases records with
      | nil => exact hne hstored
      | cons first rest =>
        rw [hstored] at h
        exact List.disjoint_of_nodup_append h (List.mem_map_of_mem hr) (by simp [hid, Entry.row])

/-- The numbers of all events ever stored grow, and none is given twice, exactly if the newest
event is always still there when the next one is stored. Those of the rows that are there always
grow. -/
theorem ids_storedAll_iff (hc : c.content = []) (calls : List StoreCall) :
    ((c.storedAll calls).Pairwise (·.id < ·.id) ↔ c.KeepsNewest calls) ∧
      (((c.storedAll calls).map (·.id)).Nodup ↔ c.KeepsNewest calls) ∧
      (c.afterAll calls).content.Pairwise (·.id < ·.id) := by
  have hgrow (h : c.KeepsNewest calls) : (c.storedAll calls).Pairwise (·.id < ·.id) :=
    Table.pairwise_of_isNumbered (isNumbered_storedAll hc h)
  have hnodup (h : (c.storedAll calls).Pairwise (·.id < ·.id)) :
      ((c.storedAll calls).map (·.id)).Nodup :=
    List.pairwise_map.2 (h.imp fun hlt ↦ ne_of_lt hlt)
  refine ⟨⟨fun h ↦ keepsNewest_of_nodup hc (hnodup h), hgrow⟩,
    ⟨keepsNewest_of_nodup hc, fun h ↦ hnodup (hgrow h)⟩, ?_⟩
  exact (isKeyed_afterAll hc calls).pairwise

theorem keepsNewest_two_inserts :
    (⟨{ site := 1 }, none⟩ : Connection).content = [] ∧
      (⟨{ site := 1 }, none⟩ : Connection).KeepsNewest
        [.insert ⟨0⟩ (.plain 1 none), .insert ⟨0⟩ (.plain 1 none)] :=
  ⟨rfl, (ids_storedAll_iff rfl _).1.1 (by decide)⟩

/-- After the only event has been deleted, the next one takes its number. -/
theorem id_given_twice :
    ((⟨{ site := 1 }, none⟩ : Connection).storedAll
      [.insert ⟨0⟩ (.plain 1 none), .delete .null (.text "view"),
        .insert ⟨0⟩ (.plain 1 none)]).map (·.id) = [1, 1] := by
  decide

end Connection

end Footfall
