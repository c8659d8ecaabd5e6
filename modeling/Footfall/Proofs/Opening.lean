import Footfall.Proofs.Registry

/-!
Reads of the stores of all sites. A read opens stores that have a database and lets them take their
team from the oldest row; it keeps every row and every open store.
-/

namespace Footfall.Registry

variable {α : Type} {r r' r'' : Registry} {site : Int} {c : Connection}

structure Opens (r r' : Registry) : Prop where
  isSound : r'.IsSound
  persistent : r'.persistent = r.persistent
  rowsOf (site : Int) : r'.rowsOf site = r.rowsOf site
  stays {site : Int} {s : SiteStore} : r.find site = some s → ∃ s', r'.find site = some s' ∧
    (s'.team = s.team ∨ s'.team = s.team.or (r.rowsOf site).oldestTeam)
  opened {site : Int} {s' : SiteStore} : r.find site = none → r'.find site = some s' →
    s'.team = (r.rowsOf site).oldestTeam

theorem Opens.refl (h : r.IsSound) : r.Opens r :=
  ⟨h, rfl, fun _ ↦ rfl, fun hf ↦ ⟨_, hf, .inl rfl⟩, fun hn hf ↦ by simp [hn] at hf⟩

theorem Opens.trans (h : r.Opens r') (h' : r'.Opens r'') : r.Opens r'' := by
  refine ⟨h'.isSound, h'.persistent.trans h.persistent,
    fun site ↦ (h'.rowsOf site).trans (h.rowsOf site), ?_, ?_⟩
  · intro site s hs
    obtain ⟨s', hs', ht⟩ := h.stays hs
    obtain ⟨s'', hs'', ht'⟩ := h'.stays hs'
    refine ⟨s'', hs'', ?_⟩
    rw [h.rowsOf] at ht'
    rcases ht with ht | ht <;> rcases ht' with ht' | ht'
    · exact .inl (ht'.trans ht)
    · exact .inr (by rw [ht', ht])
    · exact .inr (ht'.trans ht)
    · exact .inr (by rw [ht', ht, Option.or_assoc, Option.or_self])
  · intro site s'' hn hs''
    cases hs' : r'.find site with
    | none => rw [h'.opened hs' hs'', h.rowsOf]
    | some s' =>
      obtain ⟨t, ht, hteam⟩ := h'.stays hs'
      rw [hs''] at ht
      cases ht
      rw [h.rowsOf, h.opened hn hs'] at hteam
      simpa using hteam

theorem Opens.remember (h : r.Opens r') (s : SiteStore) : r.Opens (r'.remember s) :=
  ⟨h.isSound.remember s, by simpa using h.persistent, by simpa using h.rowsOf,
    fun hf ↦ by simpa using h.stays hf, fun hn hf ↦ h.opened hn (by simpa using hf)⟩

/-- An open store is saved after a read: it has its rows and its team still, or its team is now that
of the oldest row. -/
theorem opens_save (h : r.IsSound) {s : SiteStore} (hs : r.find site = some s) (hc : c.IsSound)
    (hsite : c.store.site = site) (hrows : c.content = r.rowsOf site)
    (hteam : c.store.team = s.team ∨ c.store.team = s.team.or (r.rowsOf site).oldestTeam) :
    r.Opens (r.save c) := by
  subst hsite
  refine ⟨h.save hc, rfl, fun other ↦ ?_, ?_, ?_⟩
  · rw [rowsOf_save r (.inr hrows)]
    split
    · rename_i ho
      rw [hrows, ho]
    · rfl
  · intro other s' hs'
    rw [find_save]
    split
    · rename_i ho
      subst ho
      rw [hs] at hs'
      cases hs'
      exact ⟨_, rfl, hteam⟩
    · exact ⟨s', hs', .inl rfl⟩
  · intro other s' hn hs'
    rw [find_save] at hs'
    split at hs'
    · rename_i ho
      subst ho
      simp [hs] at hn
    · simp [hn] at hs'

/-- A store is opened by a read: it has the team of the oldest row. -/
theorem opens_obtain_save (h : r.IsSound) (hs : r.find site = none) (hc : c.IsSound)
    (hsite : c.store.site = site) (hrows : c.content = r.rowsOf site)
    (hteam : c.store.team = (r.rowsOf site).oldestTeam) :
    r.Opens ((r.obtain site none none).2.save c) := by
  subst hsite
  have hr (other : Int) : (r.obtain c.store.site none none).2.rowsOf other = r.rowsOf other := by
    simp [Registry.rowsOf]
  refine ⟨(h.obtain ..).save hc, ?_, fun other ↦ ?_, ?_, ?_⟩
  · simp [save, obtain]
  · rw [rowsOf_save _ (.inr (by rw [hr, hrows]))]
    split
    · rename_i ho
      rw [hrows, ho]
    · exact hr other
  · intro other s hs'
    rw [find_save, find_obtain]
    split
    · rename_i ho
      subst ho
      simp [hs] at hs'
    · exact ⟨s, hs', .inl rfl⟩
  · intro other s' hn hs'
    rw [find_save, find_obtain] at hs'
    split at hs'
    · rename_i ho
      subst ho
      cases hs'
      exact hteam
    · simp [hn] at hs'

/-- A site without a store is left alone; the store of any other site is opened. -/
theorem reopen_cases (h : r.IsSound) (site : Int) :
    (r.find site = none ∧ r.reopen site = (.ok none, r)) ∨
      ∃ s r', r.reopen site = (.ok (some s), r') ∧ r'.find site = some s ∧ r.Opens r' := by
  unfold reopen
  split
  · rename_i hcond
    exact .inl ⟨by simp_all, rfl⟩
  right
  cases hf : r.find site with
  | some s =>
    have hs := h.holds hf
    have hc := hs.isSound_connect
    have hsite := (Connection.site_loadIdentity hc).trans hs.1
    have ho : r.Opens (r.save (r.connect s).loadIdentity.2) := by
      refine opens_save h hf (Connection.isSound_loadIdentity hc) hsite ?_ ?_
      · rw [Connection.content_loadIdentity hc, hs.content_connect]
      · have ht := Connection.team_loadIdentity hc
        rwa [hs.content_connect] at ht
    simp only [Connection.fst_loadIdentity hc]
    exact ⟨_, _, rfl, by simp [find_save, hsite], ho.remember _⟩
  | none =>
    have hfind : (r.obtain site none none).2.find site = some (r.storeFor site none none) := by
      rw [find_obtain, if_pos rfl]
    have hs := (h.obtain site none none).holds hfind
    have hc := hs.isSound_connect
    have hsite := (Connection.site_loadIdentity hc).trans hs.1
    have hrows : (r.obtain site none none).2.rowsOf site = r.rowsOf site := by
      simp [Registry.rowsOf]
    have hteam : (r.storeFor site none none).team = none := by
      simp [team_storeFor, teamOf, hf]
    have hnew : (r.storeFor site none none).identityLoaded = false := by
      have hf : Keyed.find r.stores site = none := hf
      simp [storeFor, hf]
    have ho := opens_obtain_save h hf (Connection.isSound_loadIdentity hc) hsite
      (by rw [Connection.content_loadIdentity hc, hs.content_connect, hrows])
      (by
        rw [Connection.team_loadIdentity_of_not_loaded hc hnew, hs.content_connect, hrows]
        simp [connect, hteam])
    simp only [show (r.obtain site none none).1 = r.storeFor site none none from rfl,
      Connection.fst_loadIdentity hc]
    exact ⟨_, _, rfl, by simp [find_save, hsite], ho.remember _⟩

theorem search_cases (h : r.IsSound) (tag : Value) (sites : List Int) :
    ∃ found r', r.search tag sites = (.ok found, r') ∧ r.Opens r' ∧
      ∀ s, found = some s → ∃ site, r'.find site = some s := by
  induction sites generalizing r with
  | nil => exact ⟨none, r, rfl, .refl h, by simp⟩
  | cons site rest ih =>
    rcases reopen_cases h site with ⟨-, hr⟩ | ⟨s, r', hr, hs, ho⟩
    · obtain ⟨found, r'', hr', ho', hfound⟩ := ih h
      exact ⟨found, r'', by simp [search, hr, hr'], ho', hfound⟩
    · by_cases ht : (Value.ofText s.tag).same tag
      · exact ⟨some s, r', by simp [search, hr, ht], ho, by rintro _ ⟨⟩; exact ⟨site, hs⟩⟩
      · obtain ⟨found, r'', hr', ho', hfound⟩ := ih ho.isSound
        exact ⟨found, r'', by simp [search, hr, ht, hr'], ho.trans ho', hfound⟩

theorem findByTag_cases (h : r.IsSound) (tag : Value) :
    ∃ result r', r.findByTag tag = (result, r') ∧ r.Opens r' ∧
      ∀ s, result = .ok (some s) → ∃ site, r'.find site = some s := by
  unfold findByTag
  split
  · exact ⟨_, r, rfl, .refl h, by simp⟩
  · split
    · rename_i site _
      rcases reopen_cases h site with ⟨-, hr⟩ | ⟨s, r', hr, hs, ho⟩
      · exact ⟨_, r, hr, .refl h, by simp⟩
      · exact ⟨_, r', hr, ho, by rintro _ ⟨⟩; exact ⟨site, hs⟩⟩
    · obtain ⟨found, r', hr, ho, hfound⟩ := search_cases h tag r.unopened
      exact ⟨_, r', hr, ho, fun s hs ↦ hfound s (by simpa using hs)⟩

theorem findByNumber_cases (h : r.IsSound) (number : Value) :
    ∃ result r', r.findByNumber number = (result, r') ∧ r.Opens r' ∧
      ∀ s, result = .ok (some s) → ∃ site, r'.find site = some s := by
  unfold findByNumber
  split
  · exact ⟨_, r, rfl, .refl h, by simp⟩
  · exact ⟨_, r, rfl, .refl h, by simp⟩
  · rename_i site _
    rcases reopen_cases h site with ⟨-, hr⟩ | ⟨s, r', hr, hs, ho⟩
    · exact ⟨_, r, hr, .refl h, by simp⟩
    · exact ⟨_, r', hr, ho, by rintro _ ⟨⟩; exact ⟨site, hs⟩⟩

theorem storeOf_cases (h : r.IsSound) (s : Scope) :
    ∃ result r', r.storeOf s = (result, r') ∧ r.Opens r' ∧
      ∀ store, result = .ok (some store) → ∃ site, r'.find site = some store := by
  obtain ⟨result, r', hr, ho, hfind⟩ :
      ∃ (result : Except Failure (Option SiteStore)) (r' : Registry),
      r.storeOf s = (result.map (·.filter fun store ↦ store.team.all s.isOfTeam), r') ∧
        r.Opens r' ∧ ∀ store, result = .ok (some store) → ∃ site, r'.find site = some store := by
    cases hs : s.site with
    | text t =>
      obtain ⟨result, r', hr, hrest⟩ := findByTag_cases h (.text t)
      exact ⟨result, r', by simp [storeOf, hs, hr], hrest⟩
    | _ =>
      obtain ⟨result, r', hr, hrest⟩ := findByNumber_cases h s.site
      exact ⟨result, r', by rw [hs] at hr; simp [storeOf, hs, hr], hrest⟩
  refine ⟨_, r', hr, ho, fun store hstore ↦ ?_⟩
  cases result with
  | error e => cases hstore
  | ok found =>
    obtain ⟨hstore, -⟩ := Option.filter_eq_some_iff.1 (Except.ok.inj hstore)
    exact hfind store (by rw [hstore])

/-- The state after work with an open store that changes neither its rows nor its team. -/
theorem opens_save_idle {f : Connection → Except Failure α × Connection}
    (hf : Connection.Idle f) (h : r.IsSound) {s : SiteStore} (hs : r.find site = some s) :
    r.Opens (r.save (f (r.connect s)).2) := by
  have hh := h.holds hs
  have hc := hh.isSound_connect
  rcases hf _ hc with hi | hi <;> rw [hi]
  · exact opens_save h hs hc hh.1 hh.content_connect (.inl rfl)
  · exact opens_save h hs (Connection.isSound_prepared hc) (Connection.site_prepared.trans hh.1)
      (Connection.content_prepared.trans hh.content_connect) (.inl Connection.team_prepared)

theorem opens_read {f : Connection → Except Failure α × Connection} (hf : Connection.Idle f)
    (h : r.IsSound) (s : Scope) (absent : Except Failure α) :
    r.Opens (r.read s absent f).2 := by
  obtain ⟨result, r', hr, ho, hfind⟩ := storeOf_cases h s
  cases result with
  | error e => simpa [read, hr] using ho
  | ok found =>
    cases found with
    | none => simpa [read, hr] using ho
    | some store =>
      obtain ⟨site, hs⟩ := hfind store rfl
      simpa [read, hr] using ho.trans (opens_save_idle hf ho.isSound hs)

/-- A read of a site by its number sees the rows of the site, unless the site has no store or its
store goes by another team. -/
theorem read_number_cases {f : Connection → Except Failure α × Connection}
    {q : Table → Except Failure α} (hf : Connection.Reads f q) (h : r.IsSound) (site team : Int)
    (absent : Except Failure α) :
    ∃ r', r.Opens r' ∧
      ((r.read (.of (.number site) team) absent f = (.done absent, r') ∧
          (r.find site = none ∧ r' = r ∨ ∃ t, r'.teamOf site = some t ∧ t ≠ team)) ∨
        (r.read (.of (.number site) team) absent f =
            (.done (q (r.rowsOf site)) Work.storePauses, r') ∧
          (r'.find site).isSome ∧ ∀ t, r'.teamOf site = some t → t = team)) := by
  have hof : r.storeOf (.of (.number site) team) = ((r.reopen site).1.map fun store ↦
      store.filter fun store ↦ store.team.all (Scope.of (.number site) team).isOfTeam,
      (r.reopen site).2) := rfl
  rcases reopen_cases h site with ⟨hn, hr⟩ | ⟨s, r', hr, hs, ho⟩
  · exact ⟨r, .refl h, .inl ⟨by simp [read, hof, hr, Except.map], .inl ⟨hn, rfl⟩⟩⟩
  · have hh := ho.isSound.holds hs
    have hc := hh.isSound_connect
    by_cases ht : s.team.all (Scope.of (.number site) team).isOfTeam
    · have hread : r.read (.of (.number site) team) absent f =
          (.done (q (r.rowsOf site)) Work.storePauses, r'.save (r'.connect s).prepared) := by
        simp only [read, hof, hr, Except.map, Option.filter_some, ht, if_true, hf _ hc,
          hh.content_connect, ho.rowsOf]
      have ho' := ho.trans (opens_save_idle hf.idle ho.isSound hs)
      rw [hf _ hc] at ho'
      refine ⟨_, ho', .inr ⟨hread, ?_, fun t htt ↦ ?_⟩⟩
      · simp [find_save, connect, hh.1]
      · simp only [teamOf, find_save, Connection.site_prepared, connect, hh.1, if_true,
          Option.bind_some, Connection.team_prepared] at htt
        simpa [htt, eq_comm] using ht
    · refine ⟨r', ho,
        .inl ⟨by simp [read, hof, hr, Except.map, Option.filter_some, ht], .inr ?_⟩⟩
      cases hteam : s.team with
      | none => simp [hteam] at ht
      | some t => exact ⟨t, by simp [teamOf, hs, hteam], by simpa [hteam, eq_comm] using ht⟩

end Footfall.Registry
