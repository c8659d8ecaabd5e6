import Footfall.Proofs.Atomicity
import Footfall.Proofs.History
import Footfall.Proofs.Paging

/-!
Deletions. The rows that meet all criteria of a deletion are taken out and counted, and every other
row keeps its place in every listing. Through a whole history the rows of one instant are listed in
the reverse of the order in which they were stored.
-/

namespace Footfall

/-- The criteria of a deletion: the events up to a time, those of one name, or those that are both.
An empty name is no criterion. -/
structure Criteria where
  olderThan : Option Timestamp := none
  event : Option String := none

namespace Criteria

variable {k : Criteria}

def IsGiven (k : Criteria) : Prop := k.olderThan.isSome ∨ ∃ s, k.event = some s ∧ s ≠ ""

/-- The time, if there is one, is an instant of the calendar. -/
def IsOnCalendar (k : Criteria) : Prop := ∀ t, k.olderThan = some t → t.toInstant?.isSome

/-- An event meets all criteria. -/
structure Asks (k : Criteria) (e : StoredEvent) : Prop where
  time : ∀ t, k.olderThan = some t → ∃ i, t.toInstant? = some i ∧ e.createdAt ≤ i
  event : ∀ s, k.event = some s → s ≠ "" → e.event = s

/-- Whether an event meets all criteria. -/
def asks (k : Criteria) (e : StoredEvent) : Bool :=
  k.olderThan.all (·.toInstant?.any fun i ↦ decide (e.createdAt ≤ i)) &&
    (k.event.filter (· ≠ "")).all (· == e.event)

theorem asks_iff (k : Criteria) (e : StoredEvent) : k.asks e = true ↔ k.Asks e := by
  have hname : (k.event.filter (· ≠ "")).all (· == e.event) = true ↔
      ∀ s, k.event = some s → s ≠ "" → e.event = s := by
    cases k.event with
    | none => simp
    | some s => by_cases hs : s = "" <;> simp [Option.filter, hs, @eq_comm _ s]
  rw [asks, Bool.and_eq_true, hname]
  simp only [Option.all_eq_true_iff_get, Option.any_eq_true, decide_eq_true_eq]
  constructor
  · rintro ⟨htime, hevent⟩
    exact ⟨fun t ht ↦ by simpa [ht] using htime (by simp [ht]), hevent⟩
  · intro h
    exact ⟨fun ht ↦ h.time _ (by simp), h.event⟩

instance (k : Criteria) : DecidablePred k.Asks := fun e ↦ decidable_of_iff _ (k.asks_iff e)

theorem isGiven_iff : k.IsGiven ↔
    ((Value.ofOption .time k.olderThan).isNull && !(Value.ofText k.event).isTruthy) = false := by
  obtain ⟨olderThan, event⟩ := k
  cases olderThan <;> cases event <;>
    simp [IsGiven, Value.ofOption, Value.ofText, Value.isNull, Value.isTruthy]

theorem toInstantOrNone_eq_ok (h : k.IsOnCalendar) :
    (Value.ofOption .time k.olderThan).toInstantOrNone =
      .ok (k.olderThan.bind (·.toInstant?)) := by
  cases ht : k.olderThan with
  | none => rfl
  | some t =>
    obtain ⟨i, hi⟩ := Option.isSome_iff_exists.1 (h t ht)
    simp [Value.ofOption, Value.toInstantOrNone, Value.isNull, Value.toInstant,
      Timestamp.toInstant, hi]

theorem toInstantOrNone_eq_error (h : ¬k.IsOnCalendar) :
    (Value.ofOption .time k.olderThan).toInstantOrNone = .error .outsideCalendar := by
  simp only [IsOnCalendar, not_forall] at h
  obtain ⟨t, ht, hnone⟩ := h
  have hnone : t.toInstant? = none := by simpa using hnone
  simp [ht, Value.ofOption, Value.toInstantOrNone, Value.isNull, Value.toInstant,
    Timestamp.toInstant, hnone]

theorem eventTest_eq (k : Criteria) : Connection.eventTest (.ofText k.event) =
    .ok fun e ↦ (k.event.filter (· ≠ "")).all (· == e.event) := by
  unfold Connection.eventTest
  cases hs : k.event with
  | none => rfl
  | some s =>
    by_cases hne : s = ""
    · simp [hne, Value.ofText, Value.ofOption, Value.isTruthy]
    · simp [hne, Value.ofText, Value.ofOption, Value.isTruthy, Parameter.ofValue,
        Parameter.isText, Except.map]

end Criteria

/-- The page of a listing of some rows. -/
def EventFilters.page (f : EventFilters) (rows : List StoredEvent) (total : Int) : EventPage :=
  ⟨some (Table.pageOf f.offset f.limit rows), .build f.offset f.limit rows.length, some total⟩

theorem StoredEvent.Precedes.asymm {a b : StoredEvent} (h : a.Precedes b) : ¬b.Precedes a := by
  intro h'
  rcases h with hlt | ⟨heq, hid⟩
  · rcases h' with hlt' | ⟨heq', -⟩
    · exact Nat.lt_asymm hlt hlt'
    · exact Nat.ne_of_lt hlt (congrArg Instant.micros heq')
  · rcases h' with hlt' | ⟨-, hid'⟩
    · exact Nat.ne_of_lt hlt' (congrArg Instant.micros heq)
    · omega

namespace Table

variable {t : Table}

/-- There is one way to list rows in order. -/
theorem eq_of_precedes {xs ys : List StoredEvent} (hx : xs.Pairwise StoredEvent.Precedes)
    (hy : ys.Pairwise StoredEvent.Precedes) (h : xs.Perm ys) : xs = ys :=
  h.eq_of_pairwise (fun _ _ _ _ hab hba ↦ absurd hba hab.asymm) hx hy

/-- Rows that are taken out leave the others where they are in every listing. -/
theorem IsKeyed.matching_filter (h : t.IsKeyed) (p : StoredEvent → Bool) (f : EventFilters) :
    matching (t.filter p) f = (t.matching f).filter p := by
  apply eq_of_precedes (h.filter p).pairwise_matching (h.pairwise_matching.filter p)
  calc (matching (t.filter p) f).Perm ((t.filter p).filter (f.Selects ·)) := perm_matching
    _ = (t.filter (f.Selects ·)).filter p := List.filter_comm ..
    List.Perm _ ((t.matching f).filter p) := perm_matching.symm.filter p

/-- The rows of one instant are listed from the last stored on. -/
theorem IsKeyed.filter_matching (h : t.IsKeyed) (f : EventFilters) (τ : Instant) :
    (t.matching f).filter (·.createdAt = τ) =
      (t.filter fun e ↦ f.Selects e ∧ e.createdAt = τ).reverse := by
  have hτ : ∀ e ∈ t.filter fun e ↦ f.Selects e ∧ e.createdAt = τ, e.createdAt = τ := by
    intro e he
    exact (of_decide_eq_true (List.mem_filter.1 he).2).2
  -- of one instant the later number comes first, and numbers grow as rows are stored
  refine eq_of_precedes (h.pairwise_matching.filter _) ?_ ?_
  · rw [List.pairwise_reverse]
    refine (h.filter _).pairwise.imp_of_mem fun ha hb hlt ↦ ?_
    exact .inr ⟨(hτ _ hb).trans (hτ _ ha).symm, hlt⟩
  · refine (perm_matching.filter _).trans ?_
    rw [List.filter_filter]
    refine .trans (.of_eq (List.filter_congr fun e _ ↦ ?_)) (List.reverse_perm _).symm
    simp [Bool.and_comm]

end Table

namespace Connection

variable {c : Connection} {k : Criteria}

def deleteBy (c : Connection) (k : Criteria) : Except Failure Nat × Connection :=
  c.delete (.ofOption .time k.olderThan) (.ofText k.event)

theorem deleteBy_of_not_isGiven (h : ¬k.IsGiven) :
    c.deleteBy k = (.error (.violation .nothingToDelete), c) := by
  rw [Criteria.isGiven_iff, Bool.not_eq_false] at h
  simp [deleteBy, delete, h]

theorem deleteBy_of_not_isOnCalendar (h : ¬k.IsOnCalendar) :
    c.deleteBy k = (.error (.fault .outsideCalendar), c) := by
  have hgiven : k.IsGiven := by
    simp only [Criteria.IsOnCalendar, not_forall] at h
    obtain ⟨t, ht, -⟩ := h
    exact .inl (by simp [ht])
  simp [deleteBy, delete, Criteria.isGiven_iff.1 hgiven, Criteria.toInstantOrNone_eq_error h]

theorem deleteBy_eq (hc : c.IsSound) (hgiven : k.IsGiven) (h : k.IsOnCalendar) :
    c.deleteBy k = c.prepared.remove c.content (k.Asks ·) := by
  have htest (e : StoredEvent) : ((k.olderThan.bind (·.toInstant?)).all
      (fun b ↦ decide (e.createdAt ≤ b)) && (k.event.filter (· ≠ "")).all (· == e.event)) =
        decide (k.Asks e) := by
    rw [Bool.eq_iff_iff, decide_eq_true_eq, ← k.asks_iff, Criteria.asks]
    cases ht : k.olderThan with
    | none => rfl
    | some t =>
      obtain ⟨i, hi⟩ := Option.isSome_iff_exists.1 (h t ht)
      simp [hi]
  simp only [deleteBy, delete, Criteria.isGiven_iff.1 hgiven, Bool.false_eq_true, if_false,
    Criteria.toInstantOrNone_eq_ok h, Criteria.eventTest_eq, table_prepared hc, htest]

theorem Idle.isSound {α : Type} {f : Connection → Except Failure α × Connection} (h : Idle f)
    (hc : c.IsSound) : (f c).2.IsSound := by
  rcases h c hc with hsame | hprepared
  · rwa [hsame]
  · rw [hprepared]
    exact isSound_prepared hc

theorem idle_countSince (start stop : Value) : Idle (·.countSince start stop) := by
  intro c _
  unfold countSince
  split
  · exact .inr rfl
  · exact .inl rfl
  · exact .inl rfl

theorem idle_visitors (now : Instant) (window : Value) : Idle (·.visitors now window) := by
  intro c _
  unfold visitors
  split
  · exact .inl rfl
  · exact .inr rfl

theorem idle_schema : Idle (·.schema) := by
  intro c hc
  simp [schema, table_prepared hc]

theorem IsSound.insertAll (hc : c.IsSound) (now : Instant) (records : List EventRecord) :
    (c.insertAll now records).2.IsSound := by
  cases records with
  | nil => exact hc
  | cons first rest =>
    rw [insertAll_eq hc now (List.cons_ne_nil first rest)]
    split
    · exact hc
    · split
      · exact isSound_prepared hc
      · exact fun _ ↦ rfl

theorem IsSound.delete (hc : c.IsSound) (olderThan event : Value) :
    (c.delete olderThan event).2.IsSound := by
  unfold Connection.delete
  split
  · exact hc
  · split
    · exact hc
    · simp only [table_prepared hc]
      cases eventTest event with
      | ok hasName => exact fun _ ↦ rfl
      | error u => cases u <;> exact isSound_prepared hc

/-- No call of its own loses a store its table. -/
theorem IsSound.after (hc : c.IsSound) (call : StoreCall) : (c.after call).IsSound := by
  cases call with
  | insert now record => exact hc.insertAll now [record]
  | insertAll now records => exact hc.insertAll now records
  | delete olderThan event => exact hc.delete olderThan event
  | list f => exact (reads_list f).idle.isSound hc
  | hasEvents => exact reads_hasEvents.idle.isSound hc
  | countSince start stop => exact (idle_countSince start stop).isSound hc
  | visitors now window => exact (idle_visitors now window).isSound hc
  | stats range => exact (reads_stats range).idle.isSound hc
  | summary o => exact (reads_summary o).idle.isSound hc
  | series range g byEvent => exact (reads_series range g byEvent).idle.isSound hc
  | query q limit => exact (idle_run q limit).isSound hc
  | loadIdentity => exact isSound_loadIdentity hc
  | schema => exact idle_schema.isSound hc
  | health now => exact isSound_prepared hc
  | reopen tag team => exact nofun

theorem IsSound.afterAll (hc : c.IsSound) (calls : List StoreCall) : (c.afterAll calls).IsSound := by
  induction calls using List.reverseRecOn with
  | nil => exact hc
  | append_singleton before call ih =>
    rw [afterAll_concat]
    exact ih.after call

/-- What a deletion of the events that are asked for does: it tells how many they are and leaves the
others, each in its place in every listing, and what is said of the store. -/
structure Deletes (c : Connection) (asked : StoredEvent → Bool)
    (result : Except Failure Nat × Connection) : Prop where
  count : result.1 = .ok (c.content.countP asked)
  content : result.2.content = c.content.filter (!asked ·)
  list : ∀ f, Table.fitsPage f.offset f.limit = true →
    (c.list f).1 = .ok (f.page (c.content.matching f) c.content.length) ∧
      (result.2.list f).1 = .ok (f.page ((c.content.matching f).filter (!asked ·))
        (c.content.length - c.content.countP asked))
  identity : result.2.store.identity = c.store.identity

theorem list_page (hc : c.IsSound) {f : EventFilters}
    (hfits : Table.fitsPage f.offset f.limit = true) :
    (c.list f).1 = .ok (f.page (c.content.matching f) c.content.length) := by
  have hlist : (c.list f).1 = (c.content.list f).mapError .fault := (reads_list f).fst hc
  rw [hlist, Table.list_eq, if_pos hfits]
  rfl

theorem deletes_remove (hc : c.IsSound) (hkeyed : c.content.IsKeyed) (asked : StoredEvent → Bool) :
    c.Deletes asked (c.prepared.remove c.content asked) := by
  have hcontent : (c.prepared.remove c.content asked).2.content = c.content.filter (!asked ·) := rfl
  have hsound : (c.prepared.remove c.content asked).2.IsSound := fun _ ↦ rfl
  constructor
  · rfl
  · exact hcontent
  · intro f hfits
    refine ⟨list_page hc hfits, ?_⟩
    have hlength : (c.content.filter (!asked ·)).length + c.content.countP asked =
        c.content.length := by
      have hsplit := List.length_eq_countP_add_countP asked (l := c.content)
      simp only [Bool.not_eq_true, Bool.decide_eq_false, ← List.countP_eq_length_filter] at hsplit ⊢
      omega
    rw [list_page hsound hfits, hcontent, hkeyed.matching_filter]
    congr 2
    omega
  · exact identity_prepared c

theorem fst_deleteBy_again (hc : c.IsSound) (hgiven : k.IsGiven) (h : k.IsOnCalendar) :
    ((c.deleteBy k).2.deleteBy k).1 = .ok 0 := by
  have hsound : (c.deleteBy k).2.IsSound := hc.delete _ _
  rw [deleteBy_eq hsound hgiven h, deleteBy_eq hc hgiven h]
  have hnone : (c.content.filter fun e ↦ !decide (k.Asks e)).countP (k.Asks ·) = 0 := by
    simp [List.countP_eq_zero]
  exact congrArg Except.ok hnone

/-- The events that calls store and that no later call deletes, in the order in which they are
stored. -/
def lasting (c : Connection) : List StoreCall → List StoredEvent
  | [] => []
  | call :: rest =>
    (c.stored call).filter (fun e ↦ !rest.any (·.dooms e)) ++ (c.after call).lasting rest

theorem lasting_concat (c : Connection) (calls : List StoreCall) (call : StoreCall) :
    c.lasting (calls ++ [call]) =
      (c.lasting calls).filter (!call.dooms ·) ++ (c.afterAll calls).stored call := by
  induction calls generalizing c with
  | nil => simp [lasting, afterAll]
  | cons first rest ih =>
    have hfirst : (c.stored first).filter (fun e ↦ !(rest ++ [call]).any (·.dooms e)) =
        ((c.stored first).filter fun e ↦ !rest.any (·.dooms e)).filter (!call.dooms ·) := by
      simp [List.filter_filter, Bool.and_comm]
    rw [List.cons_append, lasting, ih, hfirst, lasting, List.filter_append, List.append_assoc]
    rfl

/-- The rows that are there are those that last. -/
theorem content_eq_lasting (hc : c.content = []) (calls : List StoreCall) :
    (c.afterAll calls).content = c.lasting calls := by
  induction calls using List.reverseRecOn with
  | nil => exact hc
  | append_singleton before call ih =>
    rw [afterAll_concat, lasting_concat]
    cases (c.afterAll before).goes_after call with
    | keep hstored hcontent => rw [hstored, List.append_nil, hcontent, ih]
    | put hbatch _ _ hcontent => simp [hcontent, ih, StoreCall.dooms_of_batch hbatch]

/-- A deletion without a criterion is refused, and one up to a time outside the calendar fails; they
change nothing. Every other deletes what it asks for, and the same once more finds nothing left. The
rows of one instant that last are listed from the last stored on. -/
theorem deletes_afterAll {c₀ : Connection} (hsound : c₀.IsSound) (hempty : c₀.content = [])
    (calls : List StoreCall) (k : Criteria) :
    (¬k.IsGiven → (c₀.afterAll calls).deleteBy k =
      (.error (.violation .nothingToDelete), c₀.afterAll calls)) ∧
    (¬k.IsOnCalendar → (c₀.afterAll calls).deleteBy k =
      (.error (.fault .outsideCalendar), c₀.afterAll calls)) ∧
    (k.IsGiven → k.IsOnCalendar →
      (c₀.afterAll calls).Deletes (k.Asks ·) ((c₀.afterAll calls).deleteBy k) ∧
        (((c₀.afterAll calls).deleteBy k).2.deleteBy k).1 = .ok 0) ∧
    ∀ f, (Table.fitsPage f.offset f.limit = true → ((c₀.afterAll calls).list f).1 =
        .ok (f.page ((c₀.afterAll calls).content.matching f) (c₀.lasting calls).length)) ∧
      ∀ τ, ((c₀.afterAll calls).content.matching f).filter (·.createdAt = τ) =
        ((c₀.lasting calls).filter fun e ↦ f.Selects e ∧ e.createdAt = τ).reverse := by
  have hc := hsound.afterAll calls
  have hkeyed := isKeyed_afterAll hempty calls
  refine ⟨deleteBy_of_not_isGiven, deleteBy_of_not_isOnCalendar, fun hgiven hcal ↦ ?_,
    fun f ↦ ⟨fun hfits ↦ ?_, fun τ ↦ ?_⟩⟩
  · refine ⟨?_, fst_deleteBy_again hc hgiven hcal⟩
    rw [deleteBy_eq hc hgiven hcal]
    exact deletes_remove hc hkeyed _
  · rw [list_page hc hfits, ← content_eq_lasting hempty]
  · rw [hkeyed.filter_matching, content_eq_lasting hempty]

/-- A store that has not been used. -/
def unused : Connection := ⟨{ site := 1 }, none⟩

/-- Two views of one instant. -/
def twoInserts : List StoreCall := [.insert ⟨0⟩ (.plain 1 none), .insert ⟨0⟩ (.plain 1 none)]

/-- The views of the first five microseconds of the calendar. -/
def earlyViews : Criteria := ⟨some ⟨⟨5⟩, none⟩, some "view"⟩

theorem deletes_afterAll_twoInserts : unused.IsSound ∧ unused.content = [] ∧
    earlyViews.IsGiven ∧ earlyViews.IsOnCalendar ∧
    (unused.afterAll twoInserts).Deletes (earlyViews.Asks ·)
      ((unused.afterAll twoInserts).deleteBy earlyViews) ∧
    ((unused.afterAll twoInserts).deleteBy earlyViews).1 = .ok 2 := by
  have hsound : unused.IsSound := nofun
  have hgiven : earlyViews.IsGiven := .inl rfl
  have hcal : earlyViews.IsOnCalendar := by
    rintro t ⟨⟩
    rfl
  refine ⟨hsound, rfl, hgiven, hcal, ?_, by rfl⟩
  exact ((deletes_afterAll hsound rfl twoInserts earlyViews).2.2.1 hgiven hcal).1

/-- The first instant of the calendar on a clock that is an hour ahead. -/
def aheadOfCalendar : Criteria := ⟨some ⟨⟨0⟩, some Instant.hour⟩, none⟩

/-- A criterion is given that no event meets, but the deletion fails. -/
theorem deleteBy_aheadOfCalendar : aheadOfCalendar.IsGiven ∧
    (unused.afterAll twoInserts).content.countP (aheadOfCalendar.Asks ·) = 0 ∧
    ((unused.afterAll twoInserts).deleteBy aheadOfCalendar).1 =
      .error (.fault .outsideCalendar) :=
  ⟨.inl rfl, by decide, by rfl⟩

end Connection

end Footfall
