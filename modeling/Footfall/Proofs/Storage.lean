import Footfall.Proofs.Reading
import Footfall.Proofs.SharedTable
import Footfall.Proofs.Sites
import Footfall.Proofs.Writing

/-!
Storage that only the service writes to. The rows of each site are those of the parcels for it that
were stored, in their order, in a store of its own as in a table that is shared.
-/

namespace Footfall

/-- The records of a parcel as entries. -/
def Service.Parcel.entries (p : Service.Parcel) : List Entry :=
  p.2.map fun r ↦ ⟨r, p.1.id, some p.1.team⟩

/-- Rows are put at the end of a table, unless a number of them does not fit. -/
inductive Appends (rows t t' : Table) : Except Failure (List StoredEvent) → Prop
  | stored (fits : rows.all (·.numbers.all fitsTable) = true) (eq : t' = t ++ rows) :
      Appends rows t t' (.ok rows)
  | full (fits : ¬rows.all (·.numbers.all fitsTable) = true) (eq : t' = t) :
      Appends rows t t' (.error (.fault .hugeForStore))

/-- A table that is numbered, with numbers of at most 64 bits. -/
structure Table.IsRegular (t : Table) : Prop where
  isNumbered : t.IsNumbered
  length_lt : t.length < 0x8000000000000000

theorem Table.isRegular_nil : Table.IsRegular [] := ⟨isNumbered_nil, by simp⟩

theorem Table.IsRegular.append {t : Table} (h : t.IsRegular) (now : Instant) (es : List Entry)
    (hfits : (Entry.rows now t.nextId es).all (·.numbers.all fitsTable) = true) :
    Table.IsRegular (t ++ Entry.rows now t.nextId es) := by
  have hn := isNumbered_append_rows h.isNumbered now es
  refine ⟨hn, ?_⟩
  by_contra hlong
  have hlen := h.length_lt
  -- The number of the last row is the length.
  have hmem : ((t ++ Entry.rows now t.nextId es).length : Int) ∈
      (t ++ Entry.rows now t.nextId es).map (·.id) := by
    rw [hn]
    exact List.mem_map.2 ⟨(t ++ Entry.rows now t.nextId es).length - 1,
      List.mem_range.2 (by omega), by omega⟩
  obtain ⟨e, he, hid⟩ := List.mem_map.1 hmem
  rcases List.mem_append.1 he with he | he
  · have := (id_mem_of_isNumbered h.isNumbered he).2
    omega
  · have hfit := List.all_eq_true.1 (List.all_eq_true.1 hfits e he) e.id
      (by simp [StoredEvent.numbers])
    have : e.id < 0x8000000000000000 := (of_decide_eq_true hfit).2
    omega

theorem Appends.isRegular {t t' : Table} {now : Instant} {es : List Entry}
    {result : Except Failure (List StoredEvent)} (h : t.IsRegular)
    (ha : Appends (Entry.rows now t.nextId es) t t' result) : t'.IsRegular := by
  cases ha with
  | stored fits eq => exact eq ▸ h.append now es fits
  | full _ eq => exact eq ▸ h

theorem Appends.mem {rows t t' : Table} {result : Except Failure (List StoredEvent)}
    (h : Appends rows t t' result) {e : StoredEvent} (he : e ∈ t') : e ∈ t ∨ e ∈ rows := by
  cases h with
  | stored _ eq => exact List.mem_append.1 (eq ▸ he)
  | full _ eq => exact .inl (eq ▸ he)

namespace Registry

variable {α : Type} {r r' : Registry} {sites : List Site} {x : Site}

/-- The stores of sites that only the service writes to. -/
structure IsRegular (r : Registry) (sites : List Site) : Prop where
  isSound : r.IsSound
  rows : ∀ x ∈ sites, (r.rowsOf x.id).IsRegular
  team : ∀ x ∈ sites, ∀ e ∈ r.rowsOf x.id, e.team = some x.team
  owner : ∀ x ∈ sites, ∀ s, r.find x.id = some s → s.team = none ∨ s.team = some x.team
  opened : ∀ x ∈ sites, r.rowsOf x.id ≠ [] → (r.find x.id).isSome = true

theorem IsRegular.oldestTeam (h : r.IsRegular sites) (hx : x ∈ sites) :
    (r.rowsOf x.id).oldestTeam = none ∨ (r.rowsOf x.id).oldestTeam = some x.team := by
  cases ht : r.rowsOf x.id with
  | nil => exact .inl rfl
  | cons e rest =>
    have := h.team x hx e (by simp [ht])
    exact .inr (by simpa [Table.oldestTeam] using this)

theorem IsRegular.opens (h : r.IsRegular sites) (ho : r.Opens r') : r'.IsRegular sites := by
  refine ⟨ho.isSound, fun x hx ↦ ?_, fun x hx ↦ ?_, fun x hx s' hs' ↦ ?_, fun x hx hne ↦ ?_⟩
  · exact ho.rowsOf _ ▸ h.rows x hx
  · exact ho.rowsOf _ ▸ h.team x hx
  · have hold := h.oldestTeam hx
    cases hs : r.find x.id with
    | none => rwa [ho.opened hs hs']
    | some s =>
      obtain ⟨s'', hs'', hteam⟩ := ho.stays hs
      cases hs'.symm.trans hs''
      have howner := h.owner x hx s hs
      rcases hteam with hteam | hteam <;> rcases howner with howner | howner <;>
        simp [hteam, howner, hold]
  · obtain ⟨s, hs⟩ := Option.isSome_iff_exists.1 (h.opened x hx (ho.rowsOf _ ▸ hne))
    obtain ⟨s', hs', -⟩ := ho.stays hs
    simp [hs']

/-- A read of a site for its team sees its rows, unless the site has no store and no rows. -/
theorem IsRegular.read (h : r.IsRegular sites) (hx : x ∈ sites)
    {f : Connection → Except Failure α × Connection} {q : Table → Except Failure α}
    (hf : Connection.Reads f q) (empty : Except Failure α) :
    ∃ w r', r.read (.of (.number x.id) x.team) empty f = (w, r') ∧ r.Opens r' ∧
      (w = .done empty ∧ r.rowsOf x.id = [] ∨
        w = .done (q (r.rowsOf x.id)) Work.storePauses) := by
  obtain ⟨r', ho, ⟨hread, habsent⟩ | ⟨hread, -⟩⟩ :=
    read_number_cases hf h.isSound x.id x.team empty
  · refine ⟨_, r', hread, ho, .inl ⟨rfl, ?_⟩⟩
    rcases habsent with ⟨hn, -⟩ | ⟨t, ht, hne⟩
    · by_contra hrows
      simpa [hn] using h.opened x hx hrows
    · obtain ⟨s, hs, hst⟩ := Option.bind_eq_some_iff.1 ht
      have := (h.opens ho).owner x hx s hs
      simp_all
  · exact ⟨_, r', hread, ho, .inr rfl⟩

theorem IsRegular.teamFor (h : r.IsRegular sites) {p : Service.Parcel}
    (hp : Service.IsParcel sites p) : r.teamFor p.1.id p.2 = some p.1.team := by
  obtain ⟨first, rest, hfirst⟩ := List.exists_cons_of_ne_nil hp.ne_nil
  have hclaim := (hp.claimed first (by simp [hfirst])).2.2
  cases hs : r.find p.1.id with
  | none => simp [Registry.teamFor, teamOf, hs, hfirst, hclaim]
  | some s =>
    rcases h.owner p.1 hp.mem s hs with ho | ho <;>
      simp [Registry.teamFor, teamOf, hs, hfirst, hclaim, ho]

/-- Putting a parcel into the store of its site concerns no other site. -/
theorem IsRegular.writes (h : r.IsRegular sites) (hids : (sites.map (·.id)).Nodup)
    {p : Service.Parcel} (hp : Service.IsParcel sites p) {now : Instant}
    {result : Except Failure (List StoredEvent)} (hw : r.Writes r' p.1.id (some p.1.team))
    (ha : Appends (Entry.rows now (r.rowsOf p.1.id).nextId p.entries) (r.rowsOf p.1.id)
      (r'.rowsOf p.1.id) result) : r'.IsRegular sites := by
  have hother : ∀ y ∈ sites, y ≠ p.1 → y.id ≠ p.1.id := fun y hy hne heq ↦
    hne (List.inj_on_of_nodup_map hids hy hp.mem heq)
  obtain ⟨s, hs, hst⟩ := hw.opened
  refine ⟨hw.isSound, fun y hy ↦ ?_, fun y hy ↦ ?_, fun y hy s' hs' ↦ ?_, fun y hy hne ↦ ?_⟩ <;>
    by_cases heq : y = p.1
  · exact heq ▸ ha.isRegular (h.rows p.1 hp.mem)
  · exact hw.rowsOf_of_ne (hother y hy heq) ▸ h.rows y hy
  · subst heq
    intro e he
    rcases ha.mem he with he | he
    · exact h.team p.1 hp.mem e he
    · obtain ⟨entry, hentry, n, rfl⟩ := Entry.exists_of_mem_rows he
      obtain ⟨r, -, rfl⟩ := List.mem_map.1 hentry
      rfl
  · exact hw.rowsOf_of_ne (hother y hy heq) ▸ h.team y hy
  · subst heq
    cases hs.symm.trans hs'
    exact .inr hst
  · exact h.owner y hy s' (hw.find_of_ne (hother y hy heq) ▸ hs')
  · simp [heq, hs]
  · rw [hw.find_of_ne (hother y hy heq)]
    exact h.opened y hy (hw.rowsOf_of_ne (hother y hy heq) ▸ hne)

theorem IsRegular.insertAll (h : r.IsRegular sites) (hids : (sites.map (·.id)).Nodup)
    {p : Service.Parcel} (hp : Service.IsParcel sites p) (now : Instant) :
    ∃ result r', r.insertAll now p.2 = (result, r') ∧ r'.IsRegular sites ∧
      (∀ y ∈ sites, y ≠ p.1 → r'.rowsOf y.id = r.rowsOf y.id) ∧
      Appends (Entry.rows now (r.rowsOf p.1.id).nextId p.entries) (r.rowsOf p.1.id)
        (r'.rowsOf p.1.id) result := by
  have hsite : ∀ r ∈ p.2, r.site = some p.1.id := fun r hr ↦ (hp.claimed r hr).2.1
  have hof : IsOfTeam (some p.1.team) p.2 := by
    intro r hr t u ht hu
    rw [(hp.claimed r hr).2.2] at ht
    exact Option.some.inj (ht.symm.trans hu)
  have hrows : (r.rowsOf p.1.id).newRows now p.1.id (some p.1.team) p.2 =
      Entry.rows now (r.rowsOf p.1.id).nextId p.entries := by
    refine congrArg _ (List.map_congr_left fun r hr ↦ ?_)
    rw [(hp.claimed r hr).2.2]
    rfl
  obtain ⟨result, r', hi, hw, hf⟩ := insertPart_cases h.isSound now hp.ne_nil hsite
  rw [h.teamFor hp] at hw hf
  have ha : Appends (Entry.rows now (r.rowsOf p.1.id).nextId p.entries) (r.rowsOf p.1.id)
      (r'.rowsOf p.1.id) result := by
    rw [← hrows]
    cases hf with
    | stored _ fits eq => exact .stored fits eq
    | full _ fits eq => exact .full fits eq
    | refused _ of_team => exact absurd hof of_team
  refine ⟨result, r', ?_, h.writes hids hp hw ha, fun y hy hne ↦ ?_, ha⟩
  · rw [insertAll_of_site r now hp.ne_nil hsite, hi]
  · exact hw.rowsOf_of_ne fun heq ↦ hne (List.inj_on_of_nodup_map hids hy hp.mem heq)

end Registry

namespace Server

variable {α : Type} {s : Server} {t : Table} {sites : List Site} {x : Site}

/-- The rows of a site and its team. -/
def rowsFor (t : Table) (x : Site) : Table :=
  t.filter fun e ↦ e.team == some x.team && e.site == x.id

/-- Whether a table can be asked for a site. -/
def Knows (x : Site) : Prop := fitsTable x.team = true ∧ fitsTable x.id = true

instance (x : Site) : Decidable (Knows x) := inferInstanceAs (Decidable (_ ∧ _))

theorem read_site (ht : s.table = some t) (x : Site) {f : Table → Conditions → Except Failure α}
    (hf : ∀ base, f (t.meeting base) [] = f t base) :
    s.read (.of (.number x.id) x.team) f =
      if Knows x then f (rowsFor t x) [] else .error (.fault .hugeForStore) :=
  read_of ht (.number x.id) x.team hf

theorem list_site (ht : s.table = some t) (x : Site) (f : EventFilters) :
    s.list (.of (.number x.id) x.team) f =
      if Knows x then ((rowsFor t x).list f).mapError .fault
      else .error (.fault .hugeForStore) :=
  list_of ht (.number x.id) x.team f

theorem dashboard_site (ht : s.table = some t) (x : Site) (f : EventFilters) :
    (s.list (.of (.number x.id) x.team) f >>= Backend.rowsOfPage f source) =
      if Knows x then (rowsFor t x).dashboard f else .error (.fault .hugeForStore) := by
  rw [list_site ht]
  split
  · exact Backend.rowsOfPage_list ..
  · rfl

theorem mapM_entry {p : Service.Parcel} (hp : Service.IsParcel sites p) :
    p.2.mapM entry = .ok p.entries := by
  have hclaimed := hp.claimed
  rw [Service.Parcel.entries]
  generalize p.2 = records at hclaimed
  induction records with
  | nil => rfl
  | cons r rest ih =>
    obtain ⟨-, hsite, hteam⟩ := hclaimed r (by simp)
    rw [List.mapM_cons, ih fun r hr ↦ hclaimed r (by simp [hr])]
    simp [entry, hsite, hteam, bind, Except.bind, pure, Except.pure]

theorem insertAll_parcel (ht : s.table = some t) {p : Service.Parcel}
    (hp : Service.IsParcel sites p) (now : Instant) :
    ∃ result t', s.insertAll now p.2 = (result, { s with table := some t' }) ∧
      Appends (Entry.rows now t.nextId p.entries) t t' result := by
  have hne : p.2.isEmpty = false := by simpa using hp.ne_nil
  by_cases hfits : (Entry.rows now t.nextId p.entries).all (·.numbers.all fitsTable) = true
  · refine ⟨_, _, ?_, .stored hfits rfl⟩
    simp [insertAll, hne, mapM_entry hp, ht, Table.addAll_eq, hfits]
  · refine ⟨_, t, ?_, .full hfits rfl⟩
    simp only [insertAll, hne, mapM_entry hp, ht, Table.addAll_eq, hfits]
    simp [← ht]

/-- The rows of a parcel are those of its site. -/
theorem rowsFor_rows {p : Service.Parcel} (now : Instant) (id : Int) :
    rowsFor (Entry.rows now id p.entries) p.1 = Entry.rows now id p.entries := by
  refine List.filter_eq_self.2 fun e he ↦ ?_
  obtain ⟨entry, hentry, n, rfl⟩ := Entry.exists_of_mem_rows he
  obtain ⟨r, -, rfl⟩ := List.mem_map.1 hentry
  simp [Entry.row]

theorem rowsFor_rows_of_ne {p : Service.Parcel} (hne : x.id ≠ p.1.id) (now : Instant) (id : Int) :
    rowsFor (Entry.rows now id p.entries) x = [] := by
  refine List.filter_eq_nil_iff.2 fun e he ↦ ?_
  obtain ⟨entry, hentry, n, rfl⟩ := Entry.exists_of_mem_rows he
  obtain ⟨r, -, rfl⟩ := List.mem_map.1 hentry
  simp [Entry.row, Ne.symm hne]

theorem rowsFor_append (t rows : Table) (x : Site) :
    rowsFor (t ++ rows) x = rowsFor t x ++ rowsFor rows x := List.filter_append ..

end Server

end Footfall
