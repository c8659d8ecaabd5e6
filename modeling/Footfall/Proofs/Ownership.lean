import Footfall.Proofs.Run

/-!
Ownership of the stores. The store of a site goes by the team of the first record that comes to it
while it is open, if that record has one, and only by that team does it tell own records from
foreign ones. So its rows are of one team as long as what is stored agrees with the rows.
-/

namespace Footfall

/-- The rows that have a team have the same. -/
def Table.IsOfOneTeam (t : Table) : Prop :=
  ∀ e ∈ t, ∀ e' ∈ t, ∀ u u', e.team = some u → e'.team = some u' → u = u'

theorem Table.IsOfOneTeam.subset {t t' : Table} (h : t'.IsOfOneTeam) (hsub : t ⊆ t') :
    t.IsOfOneTeam := fun e he e' he' ↦ h e (hsub he) e' (hsub he')

theorem Table.isOfOneTeam_iff {t : Table} :
    t.IsOfOneTeam ↔ ∃ u, ∀ e ∈ t, ∀ t', e.team = some t' → t' = u := by
  constructor
  · intro h
    by_cases hteam : ∃ e ∈ t, ∃ u, e.team = some u
    · obtain ⟨e, he, u, hu⟩ := hteam
      exact ⟨u, fun e' he' t' ht' ↦ h e' he' e he t' u ht' hu⟩
    · exact ⟨0, fun e he t' ht' ↦ absurd ⟨e, he, t', ht'⟩ hteam⟩
  · rintro ⟨u, h⟩ e he e' he' t t' ht ht'
    rw [h e he t ht, h e' he' t' ht']

namespace Registry

variable {r r' : Registry} {now : Instant} {site : Int} {part : List EventRecord}

/-- The rows of a site are of the team that a part brings. If it brings none they have to agree with
the teams of its records. -/
def Agrees (r : Registry) (site : Int) (part : List EventRecord) : Prop :=
  match r.teamFor site part with
  | some u => ∀ e ∈ r.rowsOf site, ∀ t, e.team = some t → t = u
  | none => ∃ u, (∀ e ∈ r.rowsOf site, ∀ t, e.team = some t → t = u) ∧
      ∀ x ∈ part, ∀ t, x.team = some t → t = u

/-- The rows are of one team after a part is stored exactly if the part agrees. -/
theorem isOfOneTeam_append_iff (now : Instant) (hne : part ≠ [])
    (hof : IsOfTeam (r.teamFor site part) part) :
    Table.IsOfOneTeam
        (r.rowsOf site ++ (r.rowsOf site).newRows now site (r.teamFor site part) part) ↔
      r.Agrees site part := by
  have happend (u : Int) : (∀ e ∈ r.rowsOf site ++
        (r.rowsOf site).newRows now site (r.teamFor site part) part,
          ∀ t, e.team = some t → t = u) ↔
      (∀ e ∈ r.rowsOf site, ∀ t, e.team = some t → t = u) ∧
        ∀ x ∈ part, ∀ t, x.team.or (r.teamFor site part) = some t → t = u := by
    rw [List.forall_mem_append]
    exact and_congr_right' (Table.forall_team_newRows (P := fun k ↦ ∀ t, k = some t → t = u) ..)
  rw [Table.isOfOneTeam_iff]
  simp only [happend, Agrees]
  cases hteam : r.teamFor site part with
  | none => simp only [Option.or_none]
  | some v =>
    have hpart (u : Int) : (∀ x ∈ part, ∀ t, x.team.or (some v) = some t → t = u) ↔ v = u := by
      constructor
      · intro h
        obtain ⟨x, rest, rfl⟩ := List.exists_cons_of_ne_nil hne
        cases hx : x.team with
        | none => exact h x (by simp) v (by simp [hx])
        | some t =>
          obtain rfl := hof x (by simp) t v hx hteam
          exact h x (by simp) t (by simp [hx])
      · rintro rfl x hx t ht
        cases hxt : x.team with
        | none => simpa [hxt, eq_comm] using ht
        | some t' =>
          have := hof x hx t' v hxt hteam
          simp_all
    simp only [hpart]
    constructor
    · rintro ⟨u, h, rfl⟩
      exact h
    · exact fun h ↦ ⟨v, h, rfl⟩

/-- An operation stores a part, and finds the stores in a state. -/
def Stores (r : Registry) (o : Operation) (r' : Registry) (site : Int) (part : List EventRecord) :
    Prop :=
  ∃ now records, o.batch = some (now, records) ∧ r.Comes now records r' site part ∧
    ∃ rows, (r'.insertPart now site part).1 = .ok rows

/-- What an operation stores agrees, if the rows are of one team afterwards. -/
theorem Stores.agrees {o : Operation} (h : r.IsSound) (hs : r.Stores o r' site part)
    (hone : ∀ now records, o.batch = some (now, records) →
      ((r.insertAll now records).2.rowsOf site).IsOfOneTeam) : r'.Agrees site part := by
  obtain ⟨now, records, hb, hcomes, rows, hok⟩ := hs
  obtain ⟨hne, hpart⟩ := hcomes.records
  obtain ⟨result, last, hi, hw, hf⟩ :=
    insertPart_cases (hcomes.isSound h) now hne fun x hx ↦ (hpart x hx).2
  rw [hi] at hok
  subst hok
  have hkept : last.rowsOf site ⊆ (r.insertAll now records).2.rowsOf site := by
    refine (insertAll_of_comes (P := fun r ↦ r.IsSound ∧ last.rowsOf site ⊆ r.rowsOf site) hcomes
      (by rw [hi]; exact ⟨hw.isSound, List.Subset.refl _⟩)
      fun r'' other next hne hsite ⟨h', hsub⟩ ↦ ?_).2
    obtain ⟨result, final, hi', hw', hf'⟩ := insertPart_cases h' now hne hsite
    rw [hi']
    refine ⟨hw'.isSound, ?_⟩
    by_cases ho : site = other
    · subst ho
      exact fun e he ↦ hf'.subset (hsub he)
    · rwa [hw'.rowsOf_of_ne ho]
  have hlast := (hone now records hb).subset hkept
  cases hf with
  | stored of_team _ hrows => exact (isOfOneTeam_append_iff now hne of_team).1 (hrows ▸ hlast)

theorem isOfOneTeam_moves {o : Operation} (h : r.IsSound)
    (hone : ∀ site, (r.rowsOf site).IsOfOneTeam)
    (hagrees : ∀ r' site part, r.Stores o r' site part → r'.Agrees site part)
    (hm : r.Moves o r') (site : Int) : (r'.rowsOf site).IsOfOneTeam := by
  cases hm with
  | read _ ho => exact ho.rowsOf site ▸ hone site
  | restart _ =>
    by_cases hp : r.persistent = true
    · exact rowsOf_restart hp site ▸ hone site
    · simp [Registry.restart, hp, Registry.rowsOf, tableOf, Table.IsOfOneTeam]
  | @write now records hb =>
    refine (insertAll_keeps (P := fun r ↦ r.IsSound ∧ ∀ site, (r.rowsOf site).IsOfOneTeam)
      ⟨h, hone⟩ fun r' other part hcomes hbefore ↦ ?_).2 site
    obtain ⟨h', hone'⟩ := hbefore
    obtain ⟨hne, hpart⟩ := hcomes.records
    obtain ⟨result, last, hi, hw, hf⟩ := insertPart_cases h' now hne fun x hx ↦ (hpart x hx).2
    have hstores : (∃ rows, result = .ok rows) → r'.Agrees other part := by
      rintro ⟨rows, rfl⟩
      exact hagrees r' other part ⟨now, records, hb, hcomes, rows, by rw [hi]⟩
    rw [hi]
    refine ⟨hw.isSound, fun site ↦ ?_⟩
    by_cases ho : site = other
    · subst ho
      cases hf with
      | stored of_team _ hrows =>
        rw [hrows]
        exact (isOfOneTeam_append_iff now hne of_team).2 (hstores ⟨_, rfl⟩)
      | full _ _ hrows => exact hrows ▸ hone' site
      | refused _ _ hrows => exact hrows ▸ hone' site
    · rw [hw.rowsOf_of_ne ho]
      exact hone' site

/-- A store of a known team refuses every part with a foreign record, and so does a batch that has
such a part. -/
theorem refused_insertEach {parts : List (Int × List EventRecord)} {t : Int} (h : r.IsSound)
    (hparts : ∀ p ∈ parts, p.2 ≠ [] ∧ ∀ x ∈ p.2, x.site = some p.1)
    (hkeys : (Keyed.keys parts).Nodup) (hteam : r.teamOf site = some t)
    (hmem : (site, part) ∈ parts) (hforeign : ¬IsOfTeam (some t) part) :
    ∃ e, (r.insertEach now parts).1 = .error e ∧
      ((∀ p ∈ parts, p.1 = site) → ∃ v, e = .violation v) ∧
      (r.insertEach now parts).2.rowsOf site = r.rowsOf site := by
  induction parts generalizing r with
  | nil => simp at hmem
  | cons p rest ih =>
    obtain ⟨other, first⟩ := p
    obtain ⟨hother, hrest⟩ := List.nodup_cons.1 hkeys
    obtain ⟨hne, hsite⟩ : first ≠ [] ∧ ∀ x ∈ first, x.site = some other :=
      hparts _ (List.mem_cons_self ..)
    obtain ⟨result, r', hi, hw, hf⟩ := insertPart_cases h now hne hsite
    rw [insertEach_cons, hi]
    rcases List.mem_cons.1 hmem with heq | hlater
    · cases heq
      have hfor : r.teamFor site part = some t := by simp [teamFor, hteam]
      rw [hfor] at hf
      cases hf with
      | stored of_team => exact absurd of_team hforeign
      | full of_team => exact absurd of_team hforeign
      | refused other _ rows => exact ⟨_, rfl, fun _ ↦ ⟨_, rfl⟩, rows⟩
    · have ho : site ≠ other := by
        rintro rfl
        exact hother (List.mem_map.2 ⟨(site, part), hlater, rfl⟩)
      have hrows := hw.rowsOf_of_ne ho
      cases result with
      | error e => exact ⟨e, rfl, fun hall ↦ absurd (hall (other, first) (by simp)).symm ho, hrows⟩
      | ok rows =>
        obtain ⟨e, he, -, hkept⟩ := ih hw.isSound (fun p hp ↦ hparts p (by simp [hp])) hrest
          (by rwa [hw.teamOf_of_ne ho]) hlater
        refine ⟨e, by simp [he, Except.map],
          fun hall ↦ absurd (hall (other, first) (by simp)).symm ho, ?_⟩
        exact hkept.trans hrows

theorem eq_noSite_of_mapM_routed {records : List EventRecord} {e : Failure}
    (h : records.mapM Registry.routed = .error e) : e = .violation .noSite := by
  obtain ⟨before, x, after, -, -, hx⟩ := mapM_eq_error_iff.1 h
  exact (routed_eq_error_iff.1 hx).2

/-- A batch with a foreign record is refused by the store of a known team. -/
theorem refused_insertAll {records : List EventRecord} {t u : Int} (h : r.IsSound)
    (hteam : r.teamOf site = some t) {x : EventRecord} (hx : x ∈ records)
    (hsite : x.site = some site) (hu : x.team = some u) (hne : u ≠ t) :
    ∃ e, (r.insertAll now records).1 = .error e ∧
      ((∀ x ∈ records, x.site = some site) → ∃ v, e = .violation v) ∧
      (r.insertAll now records).2.rowsOf site = r.rowsOf site := by
  rw [insertAll]
  cases hr : records.mapM Registry.routed with
  | error e => exact ⟨e, rfl, fun _ ↦ ⟨_, eq_noSite_of_mapM_routed hr⟩, rfl⟩
  | ok routed =>
    obtain ⟨hmap, hsites⟩ := mapM_routed hr
    obtain ⟨p, hp, rfl⟩ := List.mem_map.1 (hmap ▸ hx)
    obtain rfl : p.1 = site := Option.some.inj ((hsites p hp).symm.trans hsite)
    obtain ⟨part, hpart, hxp⟩ := exists_mem_recordsBySite hp
    have hforeign : ¬IsOfTeam (some t) part := fun hof ↦ hne (hof p.2 hxp u t hu rfl)
    have hparts : ∀ q ∈ recordsBySite routed,
        q.2 ≠ [] ∧ ∀ x ∈ q.2, x ∈ records ∧ x.site = some q.1 :=
      fun q hq ↦ mem_part hr hq
    obtain ⟨e, he, hv, hrows⟩ := refused_insertEach h
      (fun q hq ↦ ⟨(hparts q hq).1, fun x hx ↦ ((hparts q hq).2 x hx).2⟩)
      (nodup_keys_recordsBySite routed) hteam hpart hforeign
    cases routed with
    | nil => simp at hp
    | cons first rest =>
      refine ⟨e, he, fun hall ↦ hv fun q hq ↦ ?_, hrows⟩
      obtain ⟨y, ys, hy⟩ := List.exists_cons_of_ne_nil (hparts q hq).1
      obtain ⟨hmem, hysite⟩ := (hparts q hq).2 y (by simp [hy])
      exact Option.some.inj (hysite.symm.trans (hall y hmem))

/-- A single record of the team that the store of its site goes by, or that it will go by, is
refused by no rule. -/
theorem fst_insertAll_ne_violation (h : r.IsSound) (now : Instant) {x : EventRecord} {u : Int}
    (hsite : x.site = some site) (hu : x.team = some u)
    (hteam : (r.teamOf site).all (· == u) = true) (v : Violation) :
    (r.insertAll now [x]).1 ≠ .error (.violation v) := by
  have hfor : r.teamFor site [x] = some u := by
    cases ht : r.teamOf site with
    | none => simp [teamFor, ht, hu]
    | some t => simpa [teamFor, ht] using hteam
  have hall : ∀ y ∈ [x], y.site = some site := by simpa using hsite
  obtain ⟨result, r', hi, -, hf⟩ := insertPart_cases h now (List.cons_ne_nil x []) hall
  rw [insertAll_of_site r now (by simp) hall, hi]
  cases hf with
  | stored => simp
  | full => simp
  | refused other of_team => exact absurd (by simp [IsOfTeam, hfor, hu]) of_team

end Registry

namespace Backend

variable {b : Backend} {r : Registry} {site t : Int}

/-- A record of another team is not stored at a site, nor is a batch with one. -/
def Refuses (b : Backend) (site t : Int) : Prop :=
  ∀ now records, (∃ x ∈ records, x.site = some site ∧ ∃ u, x.team = some u ∧ u ≠ t) →
    ∃ e, (b.insertAll now records).1 = .error e ∧
      ((∀ x ∈ records, x.site = some site) → ∃ v, e = .violation v) ∧
      (b.insertAll now records).2.registry.rowsOf site = b.registry.rowsOf site

theorem refuses_iff (hb : b.engine = .embedded r) (h : r.IsSound) :
    b.Refuses site t ↔ r.teamOf site = some t := by
  have hreg (now records) : (b.insertAll now records).2.registry = (r.insertAll now records).2 := by
    simp [insertAll, hb, registry]
  have hresult (now records) : (b.insertAll now records).1 = (r.insertAll now records).1 := by
    simp [insertAll, hb]
  simp only [Refuses, hreg, hresult, registry_eq hb]
  constructor
  · intro hrefuses
    by_contra hteam
    -- A record of the store's own team, or of any other team if the store has none.
    have hother : ∃ u, u ≠ t ∧ (r.teamOf site).all (· == u) = true := by
      cases hk : r.teamOf site with
      | none => exact ⟨t + 1, by omega, rfl⟩
      | some u => exact ⟨u, by rintro rfl; exact hteam hk, by simp⟩
    obtain ⟨u, hne, hall⟩ := hother
    obtain ⟨e, he, hv, -⟩ := hrefuses ⟨0⟩ [.plain site (some u)]
      ⟨.plain site (some u), by simp, rfl, u, rfl, hne⟩
    obtain ⟨v, rfl⟩ := hv (by simp [EventRecord.plain])
    exact Registry.fst_insertAll_ne_violation h _ rfl rfl hall v he
  · rintro hteam now records ⟨x, hx, hsite, u, hu, hne⟩
    exact Registry.refused_insertAll h hteam hx hsite hu hne

/-- The rows of every site are of one team exactly as long as all that is stored agrees with the rows
that are there; and the records of other teams than one are refused exactly while the store goes by
that team. -/
theorem isOfOneTeam_afterAll_iff (s : Settings) (ops : List Operation) :
    ((∀ before, before <+: ops → ∀ site,
        ((s.embedded.afterAll before).registry.rowsOf site).IsOfOneTeam) ↔
      ∀ before o, before ++ [o] <+: ops → ∀ r' site part,
        (s.embedded.afterAll before).registry.Stores o r' site part → r'.Agrees site part) ∧
    ∀ before, before <+: ops → ∀ site t, (s.embedded.afterAll before).Refuses site t ↔
      (s.embedded.afterAll before).registry.teamOf site = some t := by
  refine ⟨⟨fun hone before o hpre r' site part hstores ↦ ?_, fun hagrees before hpre ↦ ?_⟩,
    fun before _ site t ↦ ?_⟩
  · obtain ⟨r, hr, h, -, -⟩ := run_induction s (P := fun _ _ ↦ True) trivial (by simp) before
    rw [registry_eq hr] at hstores
    refine hstores.agrees h fun now records hb ↦ ?_
    have hafter := hone _ hpre site
    rwa [afterAll_concat, registry_eq (engine_after_of_batch hr hb)] at hafter
  · have hstep (before : List Operation) (o : Operation) (r r' : Registry)
        (hr : (s.embedded.afterAll before).engine = .embedded r) (h : r.IsSound)
        (_ : r.persistent = s.storeDir.isTruthy)
        (hone : before <+: ops → ∀ site, (r.rowsOf site).IsOfOneTeam) (hm : r.Moves o r')
        (hpre : before ++ [o] <+: ops) (site : Int) : (r'.rowsOf site).IsOfOneTeam :=
      Registry.isOfOneTeam_moves h (hone ((List.prefix_append ..).trans hpre))
        (registry_eq hr ▸ hagrees before o hpre) hm site
    obtain ⟨r, hr, -, -, hone⟩ := run_induction s
      (fun _ site ↦ by simp [Registry.rowsOf, Registry.tableOf, Table.IsOfOneTeam]) hstep before
    rw [registry_eq hr]
    exact hone hpre
  · obtain ⟨r, hr, h, -, -⟩ := run_induction s (P := fun _ _ ↦ True) trivial (by simp) before
    rw [registry_eq hr]
    exact refuses_iff hr h

/-- After a restart the store takes a record of another team than that of its row. -/
theorem foreign_record_stored :
    Entry.row ⟨.plain 1 (some 10), 1, some 10⟩ 1 ⟨0⟩ ∈
        (Settings.onDisk.embedded.afterAll (twoTeams.take 2)).registry.rowsOf 1 ∧
      ((Settings.onDisk.embedded.afterAll (twoTeams.take 2)).insert ⟨0⟩
        (.plain 1 (some 20))).1.toBool = true ∧
      ¬((Settings.onDisk.embedded.afterAll twoTeams).registry.rowsOf 1).IsOfOneTeam := by
  have hrows : (Settings.onDisk.embedded.afterAll twoTeams).registry.rowsOf 1 =
      [Entry.row ⟨.plain 1 (some 10), 1, some 10⟩ 1 ⟨0⟩,
        Entry.row ⟨.plain 1 (some 20), 1, some 20⟩ 2 ⟨0⟩] := rfl
  refine ⟨List.mem_singleton.2 rfl, by decide, fun hone ↦ ?_⟩
  have h : (10 : Int) = 20 :=
    hone (Entry.row ⟨.plain 1 (some 10), 1, some 10⟩ 1 ⟨0⟩) (by simp [hrows])
      (Entry.row ⟨.plain 1 (some 20), 1, some 20⟩ 2 ⟨0⟩) (by simp [hrows]) 10 20 rfl rfl
  exact absurd h (by decide)

end Backend

end Footfall
