import Footfall.Proofs.Agreement
import Footfall.Proofs.Files

/-!
What a backend answers about a site, and what a parcel adds to it. The answer is computed from the
rows of the site if there is a store to ask, and a parcel whose numbers fit is put at the end of these
rows. It opens the store of its site and no other.
-/

namespace Footfall

/-- The row of a record of a site, but for its number. -/
def Site.row (x : Site) (now : Instant) (r : EventRecord) : StoredEvent :=
  Entry.row ⟨r, x.id, some x.team⟩ 0 now

theorem Service.Parcel.map_withoutId_rows (p : Service.Parcel) (now : Instant) (id : Int) :
    (Entry.rows now id p.entries).map StoredEvent.withoutId = p.2.map (p.1.row now) := by
  rw [Service.Parcel.entries]
  induction p.2 generalizing id with
  | nil => rfl
  | cons r rest ih => exact congrArg (p.1.row now r :: ·) (ih (id + 1))

theorem Entry.length_rows (now : Instant) (id : Int) (es : List Entry) :
    (Entry.rows now id es).length = es.length := by
  induction es generalizing id with
  | nil => rfl
  | cons e es ih => simp [ih]

theorem Entry.fits_row (e : Entry) (now : Instant) (id : Int) :
    (e.row id now).numbers.all fitsTable = true ↔
      fitsTable id = true ∧ (e.row 0 now).numbers.all fitsTable = true := by
  have hrow (n : Int) : (e.row n now).numbers = n :: (e.row 0 now).numbers.tail := rfl
  have hzero : fitsTable 0 = true := rfl
  rw [hrow id, hrow 0, List.all_cons, List.all_cons, hzero, Bool.true_and, Bool.and_eq_true,
    List.tail_cons]

/-- Rows fit if their numbers and all else in them do. -/
theorem Entry.fits_rows {now : Instant} {id : Int} {es : List Entry} (hid : 0 ≤ id)
    (hlen : id + es.length ≤ 0x8000000000000000)
    (hfits : ∀ e ∈ es, (e.row 0 now).numbers.all fitsTable = true) :
    (Entry.rows now id es).all (·.numbers.all fitsTable) = true := by
  induction es generalizing id with
  | nil => rfl
  | cons e es ih =>
    rw [List.length_cons] at hlen
    have hnumber : fitsTable id = true := decide_eq_true (by omega)
    rw [Entry.rows_cons, List.all_cons, Bool.and_eq_true]
    refine ⟨(e.fits_row now id).2 ⟨hnumber, hfits e (by simp)⟩, ?_⟩
    exact ih (by omega) (by omega) fun e he ↦ hfits e (by simp [he])

namespace Registry

variable {α : Type} {r r' : Registry} {n site : Int} {sites : List Site} {x : Site}
  {f : Connection → Except Failure α × Connection} {q : Table → Except Failure α}

theorem mem_persistedSites_of (hp : r'.persistent = r.persistent)
    (hfiles : r'.otherFiles = r.otherFiles)
    (hkeys : n ∈ Keyed.keys r.databases → n ∈ Keyed.keys r'.databases)
    (h : n ∈ r.persistedSites) : n ∈ r'.persistedSites := by
  obtain ⟨name, hname, hn⟩ := mem_persistedSites_iff.1 h
  have hp' := hp.trans (persistent_of_mem_files hname)
  refine mem_persistedSites_iff.2 ⟨name, (mem_files hp').2 ?_, hn⟩
  rcases (mem_files (hp.symm.trans hp')).1 hname with ⟨m, hm, rfl⟩ | hother
  · obtain rfl := Settings.eq_of_siteOfFile?_storeFile hn
    exact .inl ⟨m, hkeys hm, rfl⟩
  · exact .inr (hfiles ▸ hother)

/-- A part of a batch makes the file of its own site at most, and leaves the stores of the others. -/
theorem isOpenable_insertPart (h : r.IsSound) (now : Instant) {part : List EventRecord}
    (hne : part ≠ []) (hsite : ∀ x ∈ part, x.site = some site) (n : Int) :
    (r.insertPart now site part).2.IsOpenable n ↔ r.IsOpenable n ∨ n = site := by
  obtain ⟨result, r', hi, hw, -⟩ := insertPart_cases h now hne hsite
  have hs := (h.obtain site (part.head?.map (·.tag)) (part.head?.bind (·.team))).holds
    (by rw [find_obtain, if_pos rfl])
  have hof : ∀ x ∈ part, x.site = some (r.storeFor site (part.head?.map (·.tag))
      (part.head?.bind (·.team))).site := by rwa [hs.1]
  obtain ⟨_, c, hc, -, hcs, -⟩ := Connection.insertAll_cases hs.isSound_connect now hne hof
  have hr' : r' = (r.obtain site (part.head?.map (·.tag)) (part.head?.bind (·.team))).2.save c := by
    refine (congrArg Prod.snd hi).symm.trans ?_
    exact congrArg (Registry.save _ ·.2) hc
  have hcs : c.store.site = site := hcs.trans hs.1
  have hp : r'.persistent = r.persistent := hw.persistent
  have hfiles : r'.otherFiles = r.otherFiles := by simp [hr', save, obtain]
  have hkeys (hn : n ≠ site) : n ∈ Keyed.keys r'.databases ↔ n ∈ Keyed.keys r.databases := by
    simp only [hr', save, obtain, databases_remember, hcs]
    split
    · rw [Keyed.mem_keys_put]
      exact or_iff_right hn
    · rfl
  rw [hi]
  by_cases hn : n = site
  · obtain ⟨s, hs, -⟩ := hw.opened
    exact iff_of_true (.inl (by simp [hn, hs])) (.inr hn)
  · rw [or_iff_left hn, IsOpenable, IsOpenable, hw.find_of_ne hn]
    exact or_congr_right ⟨mem_persistedSites_of hp.symm hfiles.symm (hkeys hn).1,
      mem_persistedSites_of hp hfiles (hkeys hn).2⟩

theorem fst_read_of_not_isOpenable (hn : ¬r.IsOpenable n) (team : Value)
    (empty : Except Failure α) : (r.read ⟨.int n, team⟩ empty f).1 = .done empty := by
  have hreopen : r.reopen n = (.ok none, r) := by
    unfold reopen
    rw [if_pos]
    simpa [IsOpenable] using hn
  simp [read, storeOf_int, hreopen, Except.map]

theorem IsRegular.fst_read_of_isOpenable (h : r.IsRegular sites) (hx : x ∈ sites)
    (hn : r.IsOpenable x.id) (hf : Connection.Reads f q) (empty : Except Failure α) :
    (r.read (.of (.number x.id) x.team) empty f).1 =
      .done (q (r.rowsOf x.id)) Work.storePauses := by
  obtain ⟨s, r', hr, hs, ho⟩ := reopen_of_isOpenable h.isSound hn
  have hh := ho.isSound.holds hs
  have hteam : s.team.all (Scope.of (.number x.id) x.team).isOfTeam = true := by
    rcases (h.opens ho).owner x hx s hs with hs | hs <;> simp [hs]
  have hof : r.storeOf (.of (.number x.id) x.team) = (.ok (some s), r') := by
    rw [show Scope.of (.number x.id) x.team = ⟨.int x.id, .int x.team⟩ from rfl] at hteam ⊢
    rw [storeOf_int, hr]
    simp [Except.map, Option.filter_some, hteam]
  simp only [Registry.read, hof, hf _ hh.isSound_connect, hh.content_connect, ho.rowsOf]

end Registry

namespace Backend

variable {α : Type} {b b' : Backend} {sites : List Site} {x : Site} {p : Service.Parcel}

/-- There is a store to ask for a site. -/
def Stocks (b : Backend) (x : Site) : Prop :=
  match b.engine with
  | .embedded r => r.IsOpenable x.id
  | .server _ => True
  | _ => False

/-- The table in which the rows of a site are, among those of others if it is shared. -/
def tableFor (b : Backend) (x : Site) : Table :=
  match b.engine with
  | .embedded r => r.rowsOf x.id
  | .server s => s.table.getD []
  | _ => []

theorem IsRegular.length_tableFor (h : b.IsRegular sites) (hx : x ∈ sites) :
    (b.tableFor x).length < 0x8000000000000000 := by
  cases hb : b.engine with
  | embedded r =>
    simp only [IsRegular, hb] at h
    simpa only [tableFor, hb] using (h.rows x hx).length_lt
  | server s =>
    simp only [IsRegular, hb] at h
    obtain ⟨t, ht, hreg⟩ := h
    simpa only [tableFor, hb, ht, Option.getD_some] using hreg.length_lt
  | _ => simp [tableFor, hb]

/-- How work answers a question about the rows of a site: there is no store, a store is asked, or it
cannot be asked for that site. It says of `Answers` which case it is. -/
structure Tells (b : Backend) (x : Site) (empty : Except Failure α) (q : Table → Except Failure α)
    (w : Work α) : Prop where
  absent : ¬b.Stocks x → w = .done empty
  known : b.Stocks x → b.Knows x → w = .done (q (b.rowsFor x)) Work.storePauses
  unknown : b.Stocks x → ¬b.Knows x → w = .done (.error (.fault .hugeForStore)) Work.storePauses

/-- A read of a site for its team. -/
theorem IsRegular.tells (h : b.IsRegular sites) (hx : x ∈ sites) (empty : Except Failure α)
    {own : Connection → Except Failure α × Connection} {shared : Server → Except Failure α}
    {q : Table → Except Failure α} (hown : Connection.Reads own q)
    (hshared : ∀ s t, s.table = some t → shared s =
      if Server.Knows x then q (Server.rowsFor t x) else .error (.fault .hugeForStore)) :
    b.Tells x empty q (b.read (.of (.number x.id) x.team) empty (.ok ()) own shared).1 := by
  cases hb : b.engine with
  | embedded r =>
    simp only [IsRegular, hb] at h
    rw [read_embedded hb, show (Except.ok () >>= fun _ ↦ empty) = empty from rfl]
    constructor
    case absent =>
      intro hno
      simp only [Stocks, hb] at hno
      exact Registry.fst_read_of_not_isOpenable hno ..
    case known =>
      intro hn _
      simp only [Stocks, hb] at hn
      simpa only [Backend.rowsFor, hb] using h.fst_read_of_isOpenable hx hn hown empty
    case unknown => exact fun _ hk ↦ absurd (by simp [Knows, hb]) hk
  | server s =>
    simp only [IsRegular, hb] at h
    obtain ⟨t, ht, -⟩ := h
    simp only [Backend.read, hb, hshared s t ht]
    constructor
    case absent => exact fun hno ↦ absurd (by simp [Stocks, hb]) hno
    case known =>
      intro _ hk
      simp only [Knows, hb] at hk
      simp only [Backend.rowsFor, hb, ht, Option.getD_some, if_pos hk]
    case unknown =>
      intro _ hk
      simp only [Knows, hb] at hk
      rw [if_neg hk]
  | absent =>
    simp only [Backend.read, hb]
    exact ⟨fun _ ↦ rfl, fun hn ↦ by simp [Stocks, hb] at hn, fun hn ↦ by simp [Stocks, hb] at hn⟩
  | _ => simp [IsRegular, hb] at h

theorem IsRegular.tells_list (h : b.IsRegular sites) (hx : x ∈ sites) (f : EventFilters) :
    b.Tells x (.ok (.empty f)) (fun t ↦ (t.list f).mapError .fault)
      (b.list (.of (.number x.id) x.team) f).1 :=
  h.tells hx _ (Connection.reads_list f) fun _ _ ht ↦ Server.list_site ht x f

theorem IsRegular.tells_stats (h : b.IsRegular sites) (hx : x ∈ sites) (r : Option DateRange) :
    b.Tells x (.ok {}) (fun t ↦ .ok (t.stats r)) (b.stats (.of (.number x.id) x.team) r).1 :=
  h.tells hx _ (Connection.reads_stats r) fun _ t ht ↦
    Server.read_site ht x fun base ↦ congrArg _ (t.stats_meeting base r)

theorem IsRegular.tells_summary (h : b.IsRegular sites) (hx : x ∈ sites) (o : SummaryOptions) :
    b.Tells x (.ok (.empty o)) (fun t ↦ (t.summary o).mapError .fault)
      (b.summary (.of (.number x.id) x.team) o).1 :=
  h.tells hx _ (Connection.reads_summary o) fun _ t ht ↦
    Server.read_site ht x fun base ↦ congrArg _ (t.summary_meeting base o)

theorem IsRegular.tells_series (h : b.IsRegular sites) (hx : x ∈ sites) (r : Option DateRange)
    (g : Granularity) (byEvent : Value) :
    b.Tells x (TimeSeries.of [] g byEvent) (·.series r g byEvent)
      (b.series (.of (.number x.id) x.team) r g byEvent).1 :=
  h.tells hx _ (Connection.reads_series r g byEvent) fun _ t ht ↦
    Server.read_site ht x fun base ↦ t.series_meeting base r g byEvent

/-- The rows that a parcel makes at the end of the table for its site. -/
def newRows (b : Backend) (now : Instant) (p : Service.Parcel) : Table :=
  Entry.rows now ((b.tableFor p.1).length + 1) p.entries

/-- A backend has put a parcel at the end of the rows of its site. -/
structure Stores (sites : List Site) (now : Instant) (b b' : Backend) (p : Service.Parcel) :
    Prop where
  regular : b'.IsRegular sites
  rows : b'.rowsFor p.1 = b.rowsFor p.1 ++ b.newRows now p
  rows_of_ne : ∀ y ∈ sites, y ≠ p.1 → b'.rowsFor y = b.rowsFor y
  stocks : ∀ y ∈ sites, b'.Stocks y ↔ b.Stocks y ∨ y = p.1
  knows : ∀ y, b'.Knows y ↔ b.Knows y
  length : ∀ y ∈ sites, (b'.tableFor y).length = (b.tableFor y).length +
    if b.isShared = true ∨ y = p.1 then p.2.length else 0
  keeps : b'.keepsEvents = b.keepsEvents
  shared : b'.isShared = b.isShared

theorem length_newRows (b : Backend) (now : Instant) (p : Service.Parcel) :
    (b.newRows now p).length = p.2.length := by
  simp [newRows, Entry.length_rows, Service.Parcel.entries]

theorem newRows_eq (now : Instant) (h : (b.tableFor p.1).IsNumbered) :
    b.newRows now p = Entry.rows now (b.tableFor p.1).nextId p.entries := by
  rw [newRows, Table.nextId_of_isNumbered h]

/-- A parcel in the store of its site. -/
theorem stores_embedded {r r' : Registry} {result : Except Failure (List StoredEvent)}
    (hb : b.engine = .embedded r) (h : r.IsSound) (hids : (sites.map (·.id)).Nodup)
    (hp : Service.IsParcel sites p) {now : Instant} (hi : r.insertAll now p.2 = (result, r'))
    (hreg : r'.IsRegular sites)
    (hother : ∀ y ∈ sites, y ≠ p.1 → r'.rowsOf y.id = r.rowsOf y.id)
    (heq : r'.rowsOf p.1.id = r.rowsOf p.1.id ++ b.newRows now p) :
    Stores sites now b { b with engine := .embedded r' } p := by
  have hsite : ∀ x ∈ p.2, x.site = some p.1.id := fun x hx ↦ (hp.claimed x hx).2.1
  have hopenable := Registry.isOpenable_insertPart h now hp.ne_nil hsite
  rw [← Registry.insertAll_of_site r now hp.ne_nil hsite, hi] at hopenable
  constructor
  case regular => exact hreg
  case rows => simpa only [Backend.rowsFor, hb] using heq
  case rows_of_ne =>
    intro y hy hne
    simpa only [Backend.rowsFor, hb] using hother y hy hne
  case stocks =>
    intro y hy
    simp only [Stocks, hb]
    rw [hopenable y.id]
    apply or_congr_right
    exact ⟨fun hid ↦ List.inj_on_of_nodup_map hids hy hp.mem hid, congrArg Site.id⟩
  case length =>
    intro y hy
    by_cases hne : y = p.1
    · subst hne
      simp only [tableFor, hb, heq, List.length_append, length_newRows, or_true, if_true]
    · simp [tableFor, hb, hother y hy hne, isShared, hne]
  all_goals simp [Knows, keepsEvents, isShared, hb]

/-- A parcel in a table that is shared. -/
theorem stores_server {s : Server} {t : Table} (hb : b.engine = .server s) (ht : s.table = some t)
    (hids : (sites.map (·.id)).Nodup) (hp : Service.IsParcel sites p) {now : Instant}
    (hreg : Table.IsRegular (t ++ b.newRows now p)) :
    Stores sites now b
      { b with engine := .server { s with table := some (t ++ b.newRows now p) } } p := by
  constructor
  case regular => exact ⟨_, rfl, hreg⟩
  case rows =>
    simp only [Backend.rowsFor, hb, ht, Option.getD_some, Server.rowsFor_append]
    rw [newRows, Server.rowsFor_rows]
  case rows_of_ne =>
    intro y hy hne
    have hid : y.id ≠ p.1.id := fun hid ↦ hne (List.inj_on_of_nodup_map hids hy hp.mem hid)
    simp only [Backend.rowsFor, hb, ht, Option.getD_some, Server.rowsFor_append]
    rw [newRows, Server.rowsFor_rows_of_ne hid, List.append_nil]
  case length =>
    intro y hy
    simp [tableFor, hb, ht, length_newRows, isShared]
  all_goals simp [Stocks, Knows, keepsEvents, isShared, hb]

/-- A parcel is stored exactly if the numbers of its rows fit. -/
theorem IsRegular.insertAll_cases (h : b.IsRegular sites) (hids : (sites.map (·.id)).Nodup)
    (hp : Service.IsParcel sites p) (hkeeps : b.keepsEvents = true) (now : Instant) :
    ((b.newRows now p).all (·.numbers.all fitsTable) = true ∧
      ∃ b', b.insertAll now p.2 = (.ok (b.newRows now p), b') ∧ Stores sites now b b' p) ∨
    ¬(b.newRows now p).all (·.numbers.all fitsTable) = true ∧
      (b.insertAll now p.2).1 = .error (.fault .hugeForStore) := by
  cases hb : b.engine with
  | embedded r =>
    simp only [IsRegular, hb] at h
    have htable : b.tableFor p.1 = r.rowsOf p.1.id := by simp only [tableFor, hb]
    have hrows := b.newRows_eq now (htable ▸ (h.rows p.1 hp.mem).isNumbered)
    obtain ⟨result, r', hi, hreg, hother, ha⟩ := h.insertAll hids hp now
    rw [← htable, ← hrows, htable] at ha
    have hinsert : b.insertAll now p.2 = (result, { b with engine := .embedded r' }) := by
      simp [Backend.insertAll, hb, hi]
    rw [hinsert]
    cases ha with
    | full fits => exact .inr ⟨fits, rfl⟩
    | stored fits eq =>
      exact .inl ⟨fits, _, rfl, stores_embedded hb h.isSound hids hp hi hreg hother eq⟩
  | server s =>
    simp only [IsRegular, hb] at h
    obtain ⟨t, ht, hreg⟩ := h
    have htable : b.tableFor p.1 = t := by simp only [tableFor, hb, ht, Option.getD_some]
    have hrows := b.newRows_eq now (htable ▸ hreg.isNumbered)
    obtain ⟨result, t', hi, ha⟩ := Server.insertAll_parcel ht hp now
    rw [htable] at hrows
    rw [← hrows] at ha
    have hinsert : b.insertAll now p.2 =
        (result, { b with engine := .server { s with table := some t' } }) := by
      simp [Backend.insertAll, hb, hi]
    rw [hinsert]
    cases ha with
    | full fits => exact .inr ⟨fits, rfl⟩
    | stored fits eq =>
      have hreg' : Table.IsRegular (t ++ b.newRows now p) := by
        rw [hrows] at fits ⊢
        exact hreg.append now _ fits
      subst eq
      exact .inl ⟨fits, _, rfl, stores_server hb ht hids hp hreg'⟩
  | _ => simp [keepsEvents, hb] at hkeeps

theorem IsRegular.fst_insertAll_of_keepsEvents (h : b.IsRegular sites)
    (hkeeps : b.keepsEvents = false) (now : Instant) (records : List EventRecord) :
    (b.insertAll now records).1 = .ok [] := by
  cases hb : b.engine with
  | absent => simp [Backend.insertAll, hb]
  | embedded r => simp [keepsEvents, hb] at hkeeps
  | server s => simp [keepsEvents, hb] at hkeeps
  | _ => simp [IsRegular, hb] at h

end Backend

end Footfall
