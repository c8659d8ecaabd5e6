import Footfall.Proofs.Calls
import Footfall.Proofs.Storage

/-!
What the storage keeps. As long as no call fails for another reason than that it is refused, the rows
of a site are the events that the calls have returned for it, whatever kind of storage it has.
-/

namespace Footfall

namespace Backend

variable {α : Type} {b b' : Backend} {sites : List Site} {x : Site}

/-- The rows of a site. -/
def rowsFor (b : Backend) (x : Site) : Table :=
  match b.engine with
  | .embedded r => r.rowsOf x.id
  | .server s => Server.rowsFor (s.table.getD []) x
  | _ => []

/-- A backend that answers, and that only the service writes to. -/
def IsRegular (b : Backend) (sites : List Site) : Prop :=
  match b.engine with
  | .embedded r => r.IsRegular sites
  | .server s => ∃ t, s.table = some t ∧ t.IsRegular
  | .absent => True
  | .stalled | .failing _ => False

/-- A backend that has not stored anything yet, or that stores nothing at all. -/
def IsNew (b : Backend) : Prop :=
  match b.engine with
  | .embedded r => r.stores = [] ∧ r.databases = []
  | .server s => s.table = some []
  | .absent => True
  | .stalled | .failing _ => False

theorem IsNew.isRegular (h : b.IsNew) (sites : List Site) :
    b.IsRegular sites ∧ ∀ x, b.rowsFor x = [] := by
  cases hb : b.engine with
  | embedded r =>
    simp only [IsNew, hb] at h
    have hfind (site : Int) : r.find site = none := by simp [Registry.find, h.1]
    have hrows (site : Int) : r.rowsOf site = [] := by simp [Registry.rowsOf, Registry.tableOf, h.2]
    simp only [IsRegular, rowsFor, hb, hrows, implies_true, and_true]
    exact ⟨⟨fun hs ↦ by simp [hfind] at hs, fun hs ↦ by simp [hfind] at hs⟩,
      fun x _ ↦ hrows _ ▸ Table.isRegular_nil, fun x _ e he ↦ by simp [hrows] at he,
      fun x _ s hs ↦ by simp [hfind] at hs, fun x _ hne ↦ absurd (hrows _) hne⟩
  | server s =>
    simp only [IsNew, hb] at h
    simp only [IsRegular, rowsFor, hb, h, Option.getD_some]
    exact ⟨⟨[], rfl, Table.isRegular_nil⟩, fun _ ↦ rfl⟩
  | absent => simp [IsRegular, rowsFor, hb]
  | _ => simp [IsNew, hb] at h

/-- Whether the storage can be asked for a site. -/
def Knows (b : Backend) (x : Site) : Prop :=
  match b.engine with
  | .server _ => Server.Knows x
  | _ => True

theorem knows_of_knows (h : Server.Knows x) : b.Knows x := by
  unfold Knows
  split
  · exact h
  · trivial

theorem IsRegular.isSound (h : b.IsRegular sites) : b.IsSound := by
  intro r hr
  simp only [IsRegular, hr] at h
  exact h.isSound

theorem IsRegular.idles (h : b.IsRegular sites) (hi : b.Idles b') :
    b'.IsRegular sites ∧ (∀ x, b'.rowsFor x = b.rowsFor x) ∧ ∀ x, b'.Knows x ↔ b.Knows x := by
  rcases hi with rfl | ⟨r, r', hr, ho, rfl⟩
  · exact ⟨h, fun _ ↦ rfl, fun _ ↦ Iff.rfl⟩
  · simp only [IsRegular, hr] at h
    exact ⟨h.opens ho, fun x ↦ by simp only [rowsFor, hr, ho.rowsOf], fun x ↦ by simp [Knows, hr]⟩

/-- Whether events that are stored can be read again. -/
def keepsEvents (b : Backend) : Bool :=
  match b.engine with
  | .embedded _ | .server _ => true
  | _ => false

/-- Later rows have greater numbers, and there are not too many to be counted. -/
theorem IsRegular.rowsFor (h : b.IsRegular sites) (hx : x ∈ sites) :
    (b.rowsFor x).Pairwise (·.id < ·.id) ∧ (b.rowsFor x).length < 0x8000000000000000 := by
  cases hb : b.engine with
  | embedded r =>
    simp only [IsRegular, hb] at h
    simp only [Backend.rowsFor, hb]
    exact ⟨Table.pairwise_of_isNumbered (h.rows x hx).isNumbered, (h.rows x hx).length_lt⟩
  | server s =>
    simp only [IsRegular, hb] at h
    obtain ⟨t, ht, hreg⟩ := h
    simp only [Backend.rowsFor, hb, ht, Option.getD_some]
    refine ⟨(Table.pairwise_of_isNumbered hreg.isNumbered).filter _, ?_⟩
    exact Nat.lt_of_le_of_lt (List.length_filter_le ..) hreg.length_lt
  | _ => simp [Backend.rowsFor, hb]

theorem IsRegular.insertAll (h : b.IsRegular sites) (hids : (sites.map (·.id)).Nodup)
    {p : Service.Parcel} (hp : Service.IsParcel sites p) (now : Instant) :
    ∃ result b' rows, b.insertAll now p.2 = (result, b') ∧ b'.IsRegular sites ∧
      (∀ y ∈ sites, y ≠ p.1 → b'.rowsFor y = b.rowsFor y) ∧
      (b.keepsEvents = false ∧ rows = [] ∨ ∃ id, rows = Entry.rows now id p.entries) ∧
      Appends rows (b.rowsFor p.1) (b'.rowsFor p.1) result := by
  cases hb : b.engine with
  | embedded r =>
    simp only [IsRegular, hb] at h
    obtain ⟨result, r', hi, hreg, hother, ha⟩ := h.insertAll hids hp now
    refine ⟨result, { b with engine := .embedded r' },
      Entry.rows now (r.rowsOf p.1.id).nextId p.entries, by simp [Backend.insertAll, hb, hi], hreg,
      fun y hy hne ↦ ?_, .inr ⟨_, rfl⟩, ?_⟩
    · simpa only [Backend.rowsFor, hb] using hother y hy hne
    · simpa only [Backend.rowsFor, hb] using ha
  | server s =>
    simp only [IsRegular, hb] at h
    obtain ⟨t, ht, hreg⟩ := h
    obtain ⟨result, t', hi, ha⟩ := Server.insertAll_parcel ht hp now
    refine ⟨result, { b with engine := .server { s with table := some t' } },
      Entry.rows now t.nextId p.entries, by simp [Backend.insertAll, hb, hi],
      ⟨t', rfl, ha.isRegular hreg⟩, fun y hy hne ↦ ?_, .inr ⟨_, rfl⟩, ?_⟩
    · have hid : y.id ≠ p.1.id := fun heq ↦ hne (List.inj_on_of_nodup_map hids hy hp.mem heq)
      simp only [Backend.rowsFor, hb, ht, Option.getD_some]
      cases ha with
      | stored _ eq =>
        rw [eq, Server.rowsFor_append, Server.rowsFor_rows_of_ne hid, List.append_nil]
      | full _ eq => rw [eq]
    · simp only [Backend.rowsFor, hb, ht, Option.getD_some]
      cases ha with
      | stored fits eq =>
        refine .stored fits ?_
        rw [eq, Server.rowsFor_append, Server.rowsFor_rows]
      | full fits eq => exact .full fits (by rw [eq])
  | absent =>
    exact ⟨.ok [], b, [], by simp [Backend.insertAll, hb], h, fun _ _ _ ↦ rfl,
      .inl ⟨by simp [keepsEvents, hb], rfl⟩, .stored rfl (List.append_nil _).symm⟩
  | _ => simp [IsRegular, hb] at h

/-- What a backend answers when it is asked something about the rows of a site. -/
inductive Answers (b : Backend) (x : Site) (empty : Except Failure α)
    (q : Table → Except Failure α) : Work α → Prop
  | absent (nil : b.rowsFor x = []) : Answers b x empty q (.done empty)
  | known (knows : b.Knows x) : Answers b x empty q (.done (q (b.rowsFor x)) Work.storePauses)
  | unknown (knows : ¬b.Knows x) :
    Answers b x empty q (.done (.error (.fault .hugeForStore)) Work.storePauses)

/-- A read of a site for its team. -/
theorem IsRegular.answers (h : b.IsRegular sites) (hx : x ∈ sites) (empty : Except Failure α)
    {own : Connection → Except Failure α × Connection} {shared : Server → Except Failure α}
    {q : Table → Except Failure α} (hown : Connection.Reads own q)
    (hshared : ∀ s t, s.table = some t → shared s =
      if Server.Knows x then q (Server.rowsFor t x) else .error (.fault .hugeForStore)) :
    b.Answers x empty q (b.read (.of (.number x.id) x.team) empty (.ok ()) own shared).1 := by
  cases hb : b.engine with
  | embedded r =>
    simp only [IsRegular, hb] at h
    obtain ⟨w, r', hr, -, hw⟩ := h.read hx hown empty
    have hrows : b.rowsFor x = r.rowsOf x.id := by simp only [Backend.rowsFor, hb]
    rw [read_embedded hb, show (Except.ok () >>= fun _ ↦ empty) = empty from rfl, hr]
    rcases hw with ⟨rfl, hnil⟩ | rfl
    · exact .absent (hrows.trans hnil)
    · exact hrows ▸ .known (by simp [Knows, hb])
  | server s =>
    simp only [IsRegular, hb] at h
    obtain ⟨t, ht, -⟩ := h
    have hrows : b.rowsFor x = Server.rowsFor t x := by simp [Backend.rowsFor, hb, ht]
    have hknows : b.Knows x ↔ Server.Knows x := by simp only [Knows, hb]
    simp only [Backend.read, hb, hshared s t ht]
    by_cases hk : Server.Knows x
    · rw [if_pos hk, ← hrows]
      exact .known (hknows.2 hk)
    · rw [if_neg hk]
      exact .unknown (mt hknows.1 hk)
  | absent =>
    simp only [Backend.read, hb]
    exact .absent (by simp only [Backend.rowsFor, hb])
  | _ => simp [IsRegular, hb] at h

/-- The listing of a site for its team. -/
theorem IsRegular.list (h : b.IsRegular sites) (hx : x ∈ sites) (f : EventFilters) :
    b.Answers x (.ok (.empty f)) (fun t ↦ (t.list f).mapError .fault)
      (b.list (.of (.number x.id) x.team) f).1 :=
  h.answers hx _ (Connection.reads_list f) fun _ _ ht ↦ Server.list_site ht x f

end Backend

/-- A failure that is the caller's own doing. -/
def Failure.isRefusal : Failure → Bool
  | .violation _ | .notYours => true
  | _ => false

/-- The work does not fail, unless it is refused. -/
def Work.IsTolerated {α : Type} (w : Work α) : Prop :=
  w.failure?.all Failure.isRefusal = true

namespace Service

variable {s s' : Service} {sites : List Site} {l : TimeLimit} {returned : List StoredEvent}
  {x : Site}

/-- The storage keeps what calls have returned, for each site apart. -/
structure Keeps (s : Service) (sites : List Site) (l : TimeLimit) (returned : List StoredEvent) :
    Prop where
  directory : s.directory = .ofSites sites
  timeout : s.timeout = l
  regular (kind : StorageKind) : (s.dispatcher.backend kind).IsRegular sites
  rows : ∀ x ∈ sites,
    (s.dispatcher.backend x.storage).rowsFor x = returned.filter (·.tag == x.tag)
  tenant : ∀ e ∈ returned, ∃ x ∈ sites,
    e.tag = x.tag ∧ e.site = x.id ∧ e.team = some x.team ∧ e.account = some x.team

theorem Keeps.idles (h : s.Keeps sites l returned) (hi : s.Idles s') : s'.Keeps sites l returned :=
  ⟨hi.directory.trans h.directory, hi.timeout.trans h.timeout,
    fun kind ↦ ((h.regular kind).idles (hi.backend kind)).1,
    fun x hx ↦ (((h.regular _).idles (hi.backend _)).2.1 x).trans (h.rows x hx), h.tenant⟩

theorem IsParcel.tenant_of_mem_rows {p : Parcel} (hp : IsParcel sites p) {now : Instant} {id : Int}
    {e : StoredEvent} (he : e ∈ Entry.rows now id p.entries) :
    e.tag = p.1.tag ∧ e.site = p.1.id ∧ e.team = some p.1.team ∧ e.account = some p.1.team := by
  obtain ⟨entry, hentry, n, rfl⟩ := Entry.exists_of_mem_rows he
  obtain ⟨r, hr, rfl⟩ := List.mem_map.1 hentry
  exact ⟨(hp.claimed r hr).1, rfl, rfl, rfl⟩

theorem Keeps.insertAll (h : s.Keeps sites l returned) (hids : (sites.map (·.id)).Nodup)
    (htags : (sites.map (·.tag)).Nodup) {p : Parcel} (hp : IsParcel sites p) (now : Instant) :
    ∃ result s', s.onBackend p.1.storage (·.insertAll now p.2) = (result, s') ∧
      ((∃ rows, result = .ok rows ∧ (rows = [] ∨ ∃ id, rows = Entry.rows now id p.entries) ∧
        s'.Keeps sites l (returned ++ rows)) ∨ result = .error (.fault .hugeForStore)) := by
  obtain ⟨result, b', rows, hi, hreg, hother, hrows, ha⟩ :=
    (h.regular p.1.storage).insertAll hids hp now
  replace hrows := hrows.imp_left And.right
  refine ⟨result, { s with dispatcher := s.dispatcher.save p.1.storage b' },
    by simp [onBackend, hi], ?_⟩
  cases ha with
  | full => exact .inr rfl
  | stored _ eq =>
    have htenant : ∀ e ∈ rows, e.tag = p.1.tag ∧ e.site = p.1.id ∧ e.team = some p.1.team ∧
        e.account = some p.1.team := by
      rcases hrows with rfl | ⟨id, rfl⟩
      · simp
      · exact fun e he ↦ hp.tenant_of_mem_rows he
    refine .inl ⟨rows, rfl, hrows, h.directory, h.timeout, fun kind ↦ ?_,
      fun y hy ↦ ?_, fun e he ↦ ?_⟩
    · by_cases hk : p.1.storage = kind
      · subst hk
        simpa using hreg
      · simpa [Dispatcher.backend_save_of_ne _ _ hk] using h.regular kind
    · rw [List.filter_append, ← h.rows y hy]
      by_cases hyp : y = p.1
      · subst hyp
        rw [Dispatcher.backend_save, eq,
          List.filter_eq_self.2 fun e he ↦ by simp [(htenant e he).1]]
      · have hnone : rows.filter (·.tag == y.tag) = [] := by
          refine List.filter_eq_nil_iff.2 fun e he ↦ ?_
          rw [(htenant e he).1, beq_iff_eq]
          exact fun heq ↦ hyp (List.inj_on_of_nodup_map htags hp.mem hy heq).symm
        rw [hnone, List.append_nil]
        by_cases hk : p.1.storage = y.storage
        · rw [← hk, Dispatcher.backend_save]
          exact hother y hy hyp
        · rw [Dispatcher.backend_save_of_ne _ _ hk]
    · rcases List.mem_append.1 he with he | he
      · exact h.tenant e he
      · exact ⟨p.1, hp.mem, htenant e he⟩

theorem Keeps.storeParcels (hids : (sites.map (·.id)).Nodup) (htags : (sites.map (·.tag)).Nodup)
    (now : Instant) {parcels : List Parcel} (hp : ∀ p ∈ parcels, IsParcel sites p)
    (h : s.Keeps sites l returned) :
    (∃ rows s', s.storeParcels now parcels = (.ok rows, s') ∧ s'.Keeps sites l (returned ++ rows)) ∨
      (s.storeParcels now parcels).1 = .error (.fault .hugeForStore) := by
  induction parcels generalizing s returned with
  | nil => exact .inl ⟨[], s, rfl, by simpa using h⟩
  | cons p rest ih =>
    obtain ⟨result, s', hi, hcases⟩ := h.insertAll hids htags (hp p (by simp)) now
    rw [Service.storeParcels, hi]
    rcases hcases with ⟨rows, rfl, -, h'⟩ | rfl
    · rcases ih (fun q hq ↦ hp q (by simp [hq])) h' with ⟨more, s'', hmore, h''⟩ | hfull
      · exact .inl ⟨rows ++ more, s'', by simp [hmore, Except.map],
          by simpa [List.append_assoc] using h''⟩
      · exact .inr (by simp [hfull, Except.map])
    · exact .inr rfl

/-- The events that an answered call has stored. -/
def storedBy : Work Answer → List StoredEvent
  | .done (.ok a) _ => a.stored
  | _ => []

theorem Keeps.ingest (h : s.Keeps sites l returned) (hids : (sites.map (·.id)).Nodup)
    (htags : (sites.map (·.tag)).Nodup) (now : Instant) (payload : Value)
    (htol : (s.perform now (.ingest payload)).1.IsTolerated) :
    (s.perform now (.ingest payload)).2.Keeps sites l
      (returned ++ storedBy (s.perform now (.ingest payload)).1) := by
  simp only [perform, Service.ingest] at htol ⊢
  cases hr : Event.canonicalize payload with
  | error e => simpa [hr, storedBy, Except.map] using h
  | ok r =>
    simp only [hr] at htol ⊢
    cases hx : s.siteOfRecord r with
    | error e => simpa [hx, storedBy, Except.map] using h
    | ok x =>
      obtain ⟨hmem, htag⟩ := mem_of_siteOfRecord h.directory hx
      obtain ⟨result, s', hi, hcases⟩ :=
        h.insertAll hids htags (isParcel_singleton hmem htag) now
      have hinsert : s.onBackend x.storage (·.insert now (r.claimedBy x.id x.team)) =
          (result.map List.head?, s') := by
        simp only [onBackend, Prod.mk.injEq] at hi ⊢
        exact ⟨by rw [← hi.1]; rfl, hi.2⟩
      simp only [hx, hinsert] at htol ⊢
      rcases hcases with ⟨rows, rfl, hrows, h'⟩ | rfl
      · rcases hrows with rfl | ⟨id, rfl⟩ <;> simpa [storedBy, Except.map, Answer.stored,
          Parcel.entries] using h'
      · cases htol

theorem Keeps.ingestMany (h : s.Keeps sites l returned) (hids : (sites.map (·.id)).Nodup)
    (htags : (sites.map (·.tag)).Nodup) (now : Instant) (payloads : List Value)
    (htol : (s.perform now (.ingestMany payloads)).1.IsTolerated) :
    (s.perform now (.ingestMany payloads)).2.Keeps sites l
      (returned ++ storedBy (s.perform now (.ingestMany payloads)).1) := by
  simp only [perform, Service.ingestMany] at htol ⊢
  cases hp : payloads.mapM Event.canonicalize >>= s.parcelsOf with
  | error e => simpa [hp, storedBy, Except.map] using h
  | ok parcels =>
    simp only [hp] at htol ⊢
    have hparcels := isParcel_of_payloads hids h.directory hp
    rcases h.storeParcels hids htags now hparcels with ⟨rows, s', hs', h'⟩ | hfull
    · simpa [hs', storedBy, Except.map, Answer.stored] using h'
    · simp [hfull, Except.map, Work.IsTolerated, Work.failure?, Failure.isRefusal] at htol

theorem Keeps.perform (h : s.Keeps sites l returned) (hids : (sites.map (·.id)).Nodup)
    (htags : (sites.map (·.tag)).Nodup) (now : Instant) (call : Call)
    (htol : (s.perform now call).1.IsTolerated) :
    (s.perform now call).2.Keeps sites l (returned ++ storedBy (s.perform now call).1) := by
  have hread (hc : call.isRead = true) (hstored : storedBy (s.perform now call).1 = []) :
      (s.perform now call).2.Keeps sites l (returned ++ storedBy (s.perform now call).1) := by
    rw [hstored, List.append_nil]
    exact h.idles (idles_perform (fun kind ↦ (h.regular kind).isSound) now hc)
  have hmap {α : Type} (w : Work α) {f : α → Answer} (hf : ∀ a, (f a).stored = []) :
      storedBy (w.map f) = [] := by
    rcases w with ⟨_ | a, pauses⟩ | _ <;> simp [Work.map, storedBy, Except.map, hf]
  cases call with
  | ingest payload => exact h.ingest hids htags now payload htol
  | ingestMany payloads => exact h.ingestMany hids htags now payloads htol
  | _ => exact hread rfl (hmap _ fun _ ↦ rfl)

theorem Keeps.run (hids : (sites.map (·.id)).Nodup) (htags : (sites.map (·.tag)).Nodup)
    (h : s.Keeps sites l returned) (calls : List (Instant × Call))
    (htol : ∀ w ∈ (s.run calls).1, w.IsTolerated) :
    (s.run calls).2.Keeps sites l (returned ++ (s.run calls).1.flatMap storedBy) := by
  induction calls generalizing s returned with
  | nil => simpa [Service.run] using h
  | cons c rest ih =>
    obtain ⟨now, call⟩ := c
    simp only [Service.run, List.mem_cons, forall_eq_or_imp] at htol ⊢
    have := ih (h.perform hids htags now call htol.1) htol.2
    simpa [List.append_assoc] using this

end Service

end Footfall
