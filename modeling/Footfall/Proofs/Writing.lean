import Footfall.Proofs.Batch
import Footfall.Proofs.Registry
import Mathlib.Tactic.Tauto

/-!
Writes to the stores of all sites. A part of a batch opens the store of its site, which from then on
goes by the team of the first record if it went by none; the rows of the part are put at the end, or
none of them. The stores of all other sites stay as they are.
-/

namespace Footfall

/-- No record is of another team than a store. -/
def IsOfTeam (team : Option Int) (part : List EventRecord) : Prop :=
  ∀ x ∈ part, ∀ t u, x.team = some t → team = some u → t = u

theorem SiteStore.checkRecord_eq {s : SiteStore} {x : EventRecord} (h : x.site = some s.site) :
    s.checkRecord x = match x.team, s.team with
      | some t, some u => if t = u then .ok () else .error (.violation (.foreignTeam t s.site))
      | _, _ => .ok () := by
  have hsame : x.site.filter (· != s.site) = none := by simp [h]
  cases ht : x.team <;> cases hu : s.team <;> simp only [checkRecord, hsame, ht, hu]

theorem SiteStore.forM_checkRecord {s : SiteStore} {part : List EventRecord}
    (h : ∀ x ∈ part, x.site = some s.site) :
    (IsOfTeam s.team part ∧ part.forM s.checkRecord = .ok ()) ∨
      (¬IsOfTeam s.team part ∧
        ∃ t, part.forM s.checkRecord = .error (.violation (.foreignTeam t s.site))) := by
  induction part with
  | nil => exact .inl ⟨by simp [IsOfTeam], rfl⟩
  | cons x part ih =>
    have hcons : (x :: part).forM s.checkRecord =
        (s.checkRecord x >>= fun _ ↦ part.forM s.checkRecord) := rfl
    have hx := SiteStore.checkRecord_eq (h x (by simp))
    by_cases hxt : IsOfTeam s.team [x]
    · have hx : s.checkRecord x = .ok () := by
        rw [hx]
        split
        · rename_i t u ht hu
          rw [if_pos (hxt x (by simp) t u ht hu)]
        · rfl
      have hteam : IsOfTeam s.team (x :: part) ↔ IsOfTeam s.team part := by
        simp only [IsOfTeam, List.forall_mem_cons, List.mem_singleton, forall_eq] at hxt ⊢
        tauto
      rw [hcons, hx, hteam]
      exact ih fun y hy ↦ h y (by simp [hy])
    · refine .inr ⟨fun hall ↦ hxt fun y hy ↦ ?_, ?_⟩
      · obtain rfl := List.mem_singleton.1 hy
        exact hall y (by simp)
      · obtain ⟨t, u, ht, hu, hne⟩ : ∃ t u, x.team = some t ∧ s.team = some u ∧ t ≠ u := by
          simpa [IsOfTeam] using hxt
        exact ⟨t, by simp [hcons, hx, ht, hu, hne, bind, Except.bind]⟩

/-- The rows that records make at the end of a table. -/
def Table.newRows (t : Table) (now : Instant) (site : Int) (team : Option Int)
    (part : List EventRecord) : Table :=
  Entry.rows now t.nextId (part.map fun x ↦ ⟨x, site, x.team.or team⟩)

theorem Table.forall_team_newRows (t : Table) (now : Instant) (site : Int) (team : Option Int)
    (part : List EventRecord) {P : Option Int → Prop} :
    (∀ e ∈ t.newRows now site team part, P e.team) ↔ ∀ x ∈ part, P (x.team.or team) := by
  rw [← List.forall_mem_map, Table.newRows, Entry.map_team_rows, List.map_map, List.forall_mem_map]
  rfl

/-- How records fare at the store of a site and team, by its rows before and after: they are stored,
their numbers do not fit, or one is refused for its team. -/
inductive Fares (now : Instant) (site : Int) (team : Option Int) (part : List EventRecord)
    (t t' : Table) : Except Failure (List StoredEvent) → Prop
  | stored (of_team : IsOfTeam team part)
      (fits : (t.newRows now site team part).all (·.numbers.all fitsTable) = true)
      (rows : t' = t ++ t.newRows now site team part) :
      Fares now site team part t t' (.ok (t.newRows now site team part))
  | full (of_team : IsOfTeam team part)
      (fits : ¬(t.newRows now site team part).all (·.numbers.all fitsTable) = true)
      (rows : t' = t) : Fares now site team part t t' (.error (.fault .hugeForStore))
  | refused (other : Int) (of_team : ¬IsOfTeam team part) (rows : t' = t) :
      Fares now site team part t t' (.error (.violation (.foreignTeam other site)))

namespace Fares

variable {now : Instant} {site : Int} {team : Option Int} {part : List EventRecord} {t t' : Table}
  {result : Except Failure (List StoredEvent)}

theorem subset (h : Fares now site team part t t' result) : t ⊆ t' := by
  cases h with
  | stored _ _ rows => exact rows ▸ List.subset_append_left ..
  | full _ _ rows => exact rows ▸ List.Subset.refl _
  | refused _ _ rows => exact rows ▸ List.Subset.refl _

/-- A row was there before, or is one of the records. -/
theorem mem (h : Fares now site team part t t' result) {e : StoredEvent} (he : e ∈ t') :
    e ∈ t ∨ IsOfTeam team part ∧ ∃ x ∈ part, e = Entry.row ⟨x, site, x.team.or team⟩ e.id now := by
  cases h with
  | stored of_team _ rows =>
    rcases List.mem_append.1 (rows ▸ he) with he | he
    · exact .inl he
    · obtain ⟨entry, hentry, n, rfl⟩ := Entry.exists_of_mem_rows he
      obtain ⟨x, hx, rfl⟩ := List.mem_map.1 hentry
      exact .inr ⟨of_team, x, hx, rfl⟩
  | full _ _ rows => exact .inl (rows ▸ he)
  | refused _ _ rows => exact .inl (rows ▸ he)

end Fares

theorem Connection.insertAll_cases {c : Connection} (hc : c.IsSound) (now : Instant)
    {part : List EventRecord} (hne : part ≠ [])
    (hsite : ∀ x ∈ part, x.site = some c.store.site) :
    ∃ result c', c.insertAll now part = (result, c') ∧ c'.IsSound ∧
      c'.store.site = c.store.site ∧ c'.store.team = c.store.team ∧
      (c'.store.schemaReady = true ∨ c'.content = c.content) ∧
      Fares now c.store.site c.store.team part c.content c'.content result := by
  have hnew : Entry.rows now c.content.nextId (part.map c.store.entry) =
      c.content.newRows now c.store.site c.store.team part := rfl
  have hinsert := insertAll_eq hc now hne
  rw [Table.addAll_eq, hnew] at hinsert
  rcases SiteStore.forM_checkRecord hsite with ⟨hof, hcheck⟩ | ⟨hof, t, hcheck⟩
  · by_cases hfits : (c.content.newRows now c.store.site c.store.team part).all
        (·.numbers.all fitsTable) = true
    · refine ⟨_, ⟨{ c.prepared.store with active := true }, some _⟩, ?_, fun _ ↦ rfl,
        site_prepared, team_prepared, .inl schemaReady_prepared, .stored hof hfits rfl⟩
      rw [hinsert, hcheck, if_pos hfits]
    · refine ⟨_, c.prepared, ?_, isSound_prepared hc, site_prepared, team_prepared,
        .inr content_prepared, .full hof hfits content_prepared⟩
      rw [hinsert, hcheck, if_neg hfits]
  · exact ⟨_, c, by rw [hinsert, hcheck], hc, rfl, rfl, .inr rfl, .refused t hof rfl⟩

namespace Registry

variable {r r' r'' : Registry} {now : Instant} {site : Int} {part : List EventRecord}

/-- Stores the records of one site. -/
def insertPart (r : Registry) (now : Instant) (site : Int) (part : List EventRecord) :
    Except Failure (List StoredEvent) × Registry :=
  let opened := r.obtain site (part.head?.map (·.tag)) (part.head?.bind (·.team))
  let outcome := (opened.2.connect opened.1).insertAll now part
  (outcome.1, opened.2.save outcome.2)

theorem insertEach_cons (r : Registry) (now : Instant) (site : Int) (part : List EventRecord)
    (rest : List (Int × List EventRecord)) :
    r.insertEach now ((site, part) :: rest) =
      match r.insertPart now site part with
      | (.error e, r) => (.error e, r)
      | (.ok rows, r) =>
        ((r.insertEach now rest).1.map (rows ++ ·), (r.insertEach now rest).2) := by
  rcases ho : r.obtain site (part.head?.map (·.tag)) (part.head?.bind (·.team)) with ⟨s, opened⟩
  rcases hi : (opened.connect s).insertAll now part with ⟨result, c⟩
  cases result <;> simp only [insertEach, insertPart, ho, hi]

/-- The team that a store goes by once a part has come to its site. -/
def teamFor (r : Registry) (site : Int) (part : List EventRecord) : Option Int :=
  (r.teamOf site).or (part.head?.bind (·.team))

/-- A write to the store of one site, which goes by a team afterwards. -/
structure Writes (r r' : Registry) (site : Int) (team : Option Int) : Prop where
  isSound : r'.IsSound
  persistent : r'.persistent = r.persistent
  find_of_ne {other : Int} : other ≠ site → r'.find other = r.find other
  rowsOf_of_ne {other : Int} : other ≠ site → r'.rowsOf other = r.rowsOf other
  opened : ∃ s, r'.find site = some s ∧ s.team = team

theorem Writes.teamOf {team : Option Int} (h : r.Writes r' site team) :
    r'.teamOf site = team := by
  obtain ⟨s, hs, ht⟩ := h.opened
  simp [Registry.teamOf, hs, ht]

theorem Writes.teamOf_of_ne {team : Option Int} (h : r.Writes r' site team) {other : Int}
    (hne : other ≠ site) : r'.teamOf other = r.teamOf other := by
  simp only [Registry.teamOf, h.find_of_ne hne]

theorem writes_obtain_save (h : r.IsSound) {tag : Option String} {team : Option Int}
    {c : Connection} (hc : c.IsSound) (hsite : c.store.site = site)
    (hteam : c.store.team = (r.teamOf site).or team) :
    r.Writes ((r.obtain site tag team).2.save c) site ((r.teamOf site).or team) := by
  subst hsite
  refine ⟨(h.obtain ..).save hc, by simp [save, obtain], fun hne ↦ ?_, fun hne ↦ ?_, ?_⟩
  · rw [find_save, if_neg hne.symm, find_obtain, if_neg hne.symm]
  · simp only [Registry.rowsOf, tableOf_save, hne.symm, and_false, if_false, tableOf_obtain]
  · exact ⟨c.store, by simp [find_save], hteam⟩

theorem insertPart_cases (h : r.IsSound) (now : Instant) (hne : part ≠ [])
    (hsite : ∀ x ∈ part, x.site = some site) :
    ∃ result r', r.insertPart now site part = (result, r') ∧
      r.Writes r' site (r.teamFor site part) ∧
      Fares now site (r.teamFor site part) part (r.rowsOf site) (r'.rowsOf site) result := by
  set tag := part.head?.map (·.tag)
  set s := r.storeFor site tag (part.head?.bind (·.team))
  set opened := (r.obtain site tag (part.head?.bind (·.team))).2 with hopened
  have hs : opened.Holds site s :=
    (h.obtain site tag (part.head?.bind (·.team))).holds (by rw [find_obtain, if_pos rfl])
  have hteam : s.team = r.teamFor site part := team_storeFor ..
  have hrows : opened.rowsOf site = r.rowsOf site := by simp [hopened, Registry.rowsOf]
  have hcontent : (opened.connect s).content = r.rowsOf site := hs.content_connect.trans hrows
  have hof : ∀ x ∈ part, x.site = some (opened.connect s).store.site := by
    rwa [show (opened.connect s).store.site = site from hs.1]
  obtain ⟨result, c, hi, hc, hcs, hct, hready, hf⟩ :=
    Connection.insertAll_cases hs.isSound_connect now hne hof
  have hcs : c.store.site = site := hcs.trans hs.1
  have hpart : r.insertPart now site part = (result, opened.save c) := by
    change (((opened.connect s).insertAll now part).1,
      opened.save ((opened.connect s).insertAll now part).2) = _
    rw [hi]
  refine ⟨result, _, hpart, writes_obtain_save h hc hcs (hct.trans hteam), ?_⟩
  rw [rowsOf_save, if_pos hcs]
  · have hf : Fares now s.site s.team part (opened.connect s).content c.content result := hf
    rwa [hs.1, hteam, hcontent] at hf
  · rw [hcs, hrows, ← hcontent]
    exact hready

theorem mapM_routed_of_site {records : List EventRecord} (h : ∀ x ∈ records, x.site = some site) :
    records.mapM Registry.routed = .ok (records.map fun x ↦ (site, x)) := by
  induction records with
  | nil => rfl
  | cons x rest ih =>
    rw [List.mapM_cons, ih fun y hy ↦ h y (by simp [hy])]
    simp [Registry.routed, h x (by simp), bind, Except.bind, pure, Except.pure]

theorem recordsBySite_of_site (hne : part ≠ []) :
    recordsBySite (part.map fun x ↦ (site, x)) = [(site, part)] := by
  induction part using List.reverseRecOn with
  | nil => exact absurd rfl hne
  | append_singleton part x ih =>
    rw [List.map_append, List.map_singleton, recordsBySite_concat]
    cases part with
    | nil => rfl
    | cons y part =>
      rw [ih (by simp)]
      simp [Keyed.put, Keyed.find]

/-- A batch for one site has one part. -/
theorem insertAll_of_site (r : Registry) (now : Instant) (hne : part ≠ [])
    (hsite : ∀ x ∈ part, x.site = some site) :
    r.insertAll now part = r.insertPart now site part := by
  obtain ⟨x, rest, rfl⟩ := List.exists_cons_of_ne_nil hne
  have hparts : recordsBySite ((x :: rest).map fun y ↦ (site, y)) = _ := recordsBySite_of_site hne
  simp only [List.map_cons] at hparts
  rw [insertAll, mapM_routed_of_site hsite]
  simp only [List.map_cons, hparts, insertEach_cons]
  rcases hi : r.insertPart now site (x :: rest) with ⟨_ | rows, r'⟩
  · rfl
  · simp [insertEach, Except.map]

end Registry

end Footfall
