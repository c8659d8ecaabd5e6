import Footfall.Store.Table
import Mathlib.Data.List.Nodup

/-!
The numbers of rows. A table into which events are only ever put holds the numbers from one up to
its length, so that a batch is stored exactly when the numbers of its rows fit.
-/

namespace Footfall

/-- The rows of entries, numbered from a number on. -/
def Entry.rows (now : Instant) : Int → List Entry → List StoredEvent
  | _, [] => []
  | id, e :: es => e.row id now :: rows now (id + 1) es

@[simp] theorem Entry.rows_nil (now : Instant) (id : Int) : Entry.rows now id [] = [] := rfl

@[simp] theorem Entry.rows_cons (now : Instant) (id : Int) (e : Entry) (es : List Entry) :
    Entry.rows now id (e :: es) = e.row id now :: Entry.rows now (id + 1) es := rfl

theorem Entry.map_team_rows (now : Instant) (id : Int) (es : List Entry) :
    (Entry.rows now id es).map (·.team) = es.map (·.team) := by
  induction es generalizing id with
  | nil => rfl
  | cons e es ih => simp [ih, Entry.row]

theorem Entry.exists_of_mem_rows {now : Instant} {id : Int} {es : List Entry} {r : StoredEvent}
    (h : r ∈ Entry.rows now id es) : ∃ e ∈ es, ∃ n, r = e.row n now := by
  induction es generalizing id with
  | nil => simp at h
  | cons e es ih =>
    rcases List.mem_cons.1 h with rfl | h
    · exact ⟨e, by simp, id, rfl⟩
    · obtain ⟨e', he', n, rfl⟩ := ih h
      exact ⟨e', by simp [he'], n, rfl⟩

/-- The rows of a batch have growing numbers, none of them below the first. -/
theorem Entry.pairwise_rows (now : Instant) (id : Int) (es : List Entry) :
    (Entry.rows now id es).Pairwise (·.id < ·.id) ∧ ∀ e ∈ Entry.rows now id es, id ≤ e.id := by
  induction es generalizing id with
  | nil => simp
  | cons e es ih =>
    obtain ⟨hpair, hle⟩ := ih (id + 1)
    refine ⟨List.pairwise_cons.2 ⟨fun a ha ↦ ?_, hpair⟩, fun a ha ↦ ?_⟩
    · have := hle a ha
      simp only [Entry.row]
      omega
    · rcases List.mem_cons.1 ha with rfl | ha
      · simp [Entry.row]
      · have := hle a ha
        omega

namespace Table

/-- The rows bear the numbers from one up to their count. -/
def IsNumbered (t : Table) : Prop :=
  t.map (·.id) = (List.range t.length).map fun n : Nat ↦ (n : Int) + 1

theorem isNumbered_nil : IsNumbered [] := rfl

theorem lt_nextId {t : Table} {e : StoredEvent} (h : e ∈ t) : e.id < t.nextId := by
  cases hm : (t.map (·.id)).max? with
  | none => simp_all
  | some m =>
    have hle := (List.max?_eq_some_iff.1 hm).2 e.id (List.mem_map_of_mem h)
    simp only [nextId, hm, Option.map_some, Option.getD_some]
    omega

theorem nextId_concat {t : Table} {e : StoredEvent} (h : ∀ r ∈ t, r.id < e.id) :
    nextId (t ++ [e]) = e.id + 1 := by
  have hm : ((t ++ [e]).map (·.id)).max? = some e.id := by
    refine List.max?_eq_some_iff.2 ⟨by simp, fun n hn ↦ ?_⟩
    simp only [List.map_append, List.mem_append, List.mem_map] at hn
    rcases hn with ⟨r, hr, rfl⟩ | ⟨r, hr, rfl⟩
    · exact Int.le_of_lt (h r hr)
    · simp_all
  simp only [nextId, hm, Option.map_some, Option.getD_some]

/-- Storing a batch either puts its rows at the end, numbered on, or fails since a number of them
does not fit. -/
theorem addAll_eq (t : Table) (now : Instant) (es : List Entry) :
    t.addAll now es =
      if (Entry.rows now t.nextId es).all (·.numbers.all fitsTable) then
        .ok (t ++ Entry.rows now t.nextId es, Entry.rows now t.nextId es)
      else .error .hugeForStore := by
  induction es generalizing t with
  | nil => simp [addAll]
  | cons e es ih =>
    have hn : nextId (t ++ [e.row t.nextId now]) = t.nextId + 1 :=
      nextId_concat fun r hr ↦ lt_nextId hr
    by_cases hf : (e.row t.nextId now).numbers.all fitsTable
    · simp only [addAll, add, hf, if_true, bind, Except.bind, ih, hn, Entry.rows_cons,
        List.all_cons, Bool.true_and]
      by_cases hr : (Entry.rows now (t.nextId + 1) es).all (·.numbers.all fitsTable)
      · simp only [hr, if_true, pure, Except.pure, List.append_assoc, List.singleton_append]
      · simp only [hr, Bool.false_eq_true, if_false]
    · simp [addAll, add, hf, bind, Except.bind]

theorem nextId_of_isNumbered {t : Table} (h : t.IsNumbered) : t.nextId = t.length + 1 := by
  rcases Nat.eq_zero_or_pos t.length with h0 | h0
  · simp [List.length_eq_zero_iff.1 h0, nextId]
  · have hm : (t.map (·.id)).max? = some (t.length : Int) := by
      rw [h]
      refine List.max?_eq_some_iff.2 ⟨List.mem_map.2 ⟨t.length - 1, by simp; omega, by omega⟩, ?_⟩
      intro n hn
      obtain ⟨k, hk, rfl⟩ := List.mem_map.1 hn
      have := List.mem_range.1 hk
      omega
    simp only [nextId, hm, Option.map_some, Option.getD_some]

theorem isNumbered_concat {t : Table} {e : StoredEvent} (h : t.IsNumbered)
    (he : e.id = t.nextId) : IsNumbered (t ++ [e]) := by
  rw [nextId_of_isNumbered h] at he
  simp only [IsNumbered] at h ⊢
  simp [h, he, List.range_succ]

theorem isNumbered_append_rows {t : Table} (h : t.IsNumbered) (now : Instant) (es : List Entry) :
    IsNumbered (t ++ Entry.rows now t.nextId es) := by
  induction es generalizing t with
  | nil => simpa using h
  | cons e es ih =>
    have hn : nextId (t ++ [e.row t.nextId now]) = t.nextId + 1 :=
      nextId_concat fun r hr ↦ lt_nextId hr
    have := ih (isNumbered_concat h (e := e.row t.nextId now) rfl)
    rw [hn] at this
    simpa using this

theorem id_mem_of_isNumbered {t : Table} (h : t.IsNumbered) {e : StoredEvent} (he : e ∈ t) :
    1 ≤ e.id ∧ e.id ≤ t.length := by
  have : e.id ∈ t.map (·.id) := List.mem_map_of_mem he
  rw [h] at this
  obtain ⟨n, hn, hid⟩ := List.mem_map.1 this
  have := List.mem_range.1 hn
  omega

/-- Later rows have greater numbers. -/
theorem pairwise_of_isNumbered {t : Table} (h : t.IsNumbered) : t.Pairwise (·.id < ·.id) := by
  have : (t.map (·.id)).Pairwise (· < ·) := by
    rw [h, List.pairwise_map]
    exact List.pairwise_lt_range.imp (by intros; omega)
  exact List.pairwise_map.1 this

theorem exists_of_isNumbered {t : Table} (h : t.IsNumbered) {n : Int} (hpos : 1 ≤ n)
    (hle : n ≤ t.length) : ∃ e ∈ t, e.id = n := by
  have hn : n ∈ t.map (·.id) := by
    rw [h]
    exact List.mem_map.2 ⟨(n - 1).toNat, List.mem_range.2 (by omega), by omega⟩
  simpa using hn

theorem one_le_nextId {t : Table} (h : ∀ e ∈ t, 1 ≤ e.id) : 1 ≤ t.nextId := by
  cases t with
  | nil => decide
  | cons e rest =>
    have hone := h e (List.mem_cons_self ..)
    have hlt : e.id < nextId (e :: rest) := lt_nextId (List.mem_cons_self ..)
    omega

/-- The next number is the least above all that are there. -/
theorem nextId_le {t : Table} {n : Int} (hn : 1 ≤ n) (h : ∀ e ∈ t, e.id < n) : t.nextId ≤ n := by
  cases hm : (t.map (·.id)).max? with
  | none => simpa [nextId, hm] using hn
  | some m =>
    obtain ⟨e, he, rfl⟩ := List.mem_map.1 (List.max?_eq_some_iff.1 hm).1
    have hlt := h e he
    simp only [nextId, hm, Option.map_some, Option.getD_some]
    omega

/-- Later rows have greater numbers, which are positive and fit. Deletions keep that. -/
structure IsKeyed (t : Table) : Prop where
  pairwise : t.Pairwise (·.id < ·.id)
  pos : ∀ e ∈ t, 1 ≤ e.id
  fits : ∀ e ∈ t, fitsTable e.id = true

theorem isKeyed_nil : IsKeyed [] := ⟨.nil, by simp, by simp⟩

theorem IsKeyed.filter {t : Table} (h : t.IsKeyed) (p : StoredEvent → Bool) :
    IsKeyed (t.filter p) :=
  ⟨h.pairwise.filter p, fun e he ↦ h.pos e (List.mem_of_mem_filter he),
    fun e he ↦ h.fits e (List.mem_of_mem_filter he)⟩

theorem IsKeyed.append_rows {t : Table} (h : t.IsKeyed) {now : Instant} {es : List Entry}
    (hfits : (Entry.rows now t.nextId es).all (·.numbers.all fitsTable) = true) :
    IsKeyed (t ++ Entry.rows now t.nextId es) := by
  obtain ⟨hpair, hle⟩ := Entry.pairwise_rows now t.nextId es
  refine ⟨List.pairwise_append.2 ⟨h.pairwise, hpair, fun a ha b hb ↦ ?_⟩, fun e he ↦ ?_,
    fun e he ↦ ?_⟩
  · have hlt := lt_nextId ha
    have := hle b hb
    omega
  · rcases List.mem_append.1 he with he | he
    · exact h.pos e he
    · have hone := one_le_nextId h.pos
      have := hle e he
      omega
  · rcases List.mem_append.1 he with he | he
    · exact h.fits e he
    · have hall := List.all_eq_true.1 hfits e he
      exact List.all_eq_true.1 hall e.id (by simp [StoredEvent.numbers])

theorem IsKeyed.nodup {t : Table} (h : t.IsKeyed) : (t.map (·.id)).Nodup := by
  rw [List.Nodup, List.pairwise_map]
  refine h.pairwise.imp fun {a b} hlt heq ↦ ?_
  omega

end Table

end Footfall
