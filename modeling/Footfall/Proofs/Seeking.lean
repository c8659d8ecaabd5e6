import Footfall.Proofs.Indexing

/-!
The search for a store by its public tag. The index leads to the stores that go by a tag already.
Any other tag is looked for in the databases whose stores are not open, and the search ends at the
first of them whose oldest row has it.
-/

namespace Footfall.Registry

variable {r r' r₀ : Registry} {s : SiteStore} {n m : Int} {t : String}

/-- The tag that the database of a site tells: that of its oldest row. -/
def oldestTag (r : Registry) (n : Int) : Option String := (r.rowsOf n).head?.map (·.tag)

/-- The database of a site holds a row with a tag. -/
def Bears (r : Registry) (n : Int) (t : String) : Prop := ∃ e ∈ r.rowsOf n, e.tag = t

/-- The rows of a site carry one tag, and those of different sites carry different ones. -/
def HasOwnTags (r : Registry) : Prop :=
  ∀ m n, ∀ e ∈ r.rowsOf m, ∀ e' ∈ r.rowsOf n, e.tag = e'.tag ↔ m = n

theorem bears_of_oldestTag (h : r.oldestTag n = some t) : r.Bears n t := by
  obtain ⟨e, he, htag⟩ := Option.map_eq_some_iff.1 h
  exact ⟨e, List.mem_of_head? he, htag⟩

theorem HasOwnTags.oldestTag (h : r.HasOwnTags) (hn : r.Bears n t) : r.oldestTag n = some t := by
  obtain ⟨e, he, htag⟩ := hn
  cases hrows : r.rowsOf n with
  | nil => simp [hrows] at he
  | cons oldest rest =>
    have hsame := (h n n oldest (by simp [hrows]) e he).2 rfl
    simp [Registry.oldestTag, hrows, hsame, htag]

theorem HasOwnTags.eq_of_bears (h : r.HasOwnTags) (hm : r.Bears m t) (hn : r.Bears n t) :
    m = n := by
  obtain ⟨e, he, htag⟩ := hm
  obtain ⟨e', he', htag'⟩ := hn
  exact (h m n e he e' he').1 (htag.trans htag'.symm)

theorem Visits.mem_persistedSites (h : r.Visits r') (hn : n ∈ r.persistedSites) :
    n ∈ r'.persistedSites := by
  obtain ⟨name, hname, hsite⟩ := mem_persistedSites_iff.1 hn
  have hp := persistent_of_mem_files hname
  refine mem_persistedSites_iff.2 ⟨name, (mem_files (h.persistent.trans hp)).2 ?_, hsite⟩
  rcases (mem_files hp).1 hname with ⟨m, hm, rfl⟩ | hother
  · exact .inl ⟨m, h.kept hm, rfl⟩
  · exact .inr (h.otherFiles.symm ▸ hother)

theorem mem_persistedSites_of_rowsOf (hp : r.persistent = true) (hn : 0 ≤ n)
    (hrows : r.rowsOf n ≠ []) : n ∈ r.persistedSites :=
  mem_persistedSites_iff.2 ⟨_, (mem_files hp).2 (.inl ⟨n, mem_keys_of_rowsOf hrows, rfl⟩),
    Settings.siteOfFile?_storeFile hn⟩

/-- A store that is opened in a search has found out its tag, and no other store has changed. -/
theorem reopen_of_closed (h : r.IsSound) (hf : r.find n = none) (hn : n ∈ r.persistedSites) :
    ∃ s r', r.reopen n = (.ok (some s), r') ∧ r.Opens r' ∧ r'.find n = some s ∧
      s.tag = r.oldestTag n ∧ ∀ m ≠ n, r'.find m = r.find m := by
  obtain ⟨s, r', hr, hs, ho⟩ := reopen_of_isOpenable h (.inr hn)
  refine ⟨s, r', hr, ho, hs, ?_⟩
  have hholds : (r.obtain n none none).2.Holds n (r.storeFor n none none) :=
    (h.obtain n none none).holds (by rw [find_obtain, if_pos rfl])
  have hc := hholds.isSound_connect
  have hcontent : ((r.obtain n none none).2.connect (r.storeFor n none none)).content =
      r.rowsOf n := hholds.content_connect.trans (by simp [Registry.rowsOf])
  have hsite := (Connection.site_loadIdentity hc).trans hholds.1
  have hnew : r.storeFor n none none = { site := n, maxRows := r.maxRows } := by
    have hf : Keyed.find r.stores n = none := hf
    simp only [storeFor, hf]
  have hload := Connection.loadIdentity_of_not_loaded hc (by rw [connect, hnew])
  have htag : ((r.obtain n none none).2.connect
      (r.storeFor n none none)).loadIdentity.2.store.tag = r.oldestTag n := by
    have hprepared : ((r.obtain n none none).2.connect
        (r.storeFor n none none)).prepared.store.tag = none := by
      simp [Connection.prepared, connect, hnew]
    rw [hload, hcontent, Registry.oldestTag]
    cases r.rowsOf n with
    | nil => exact hprepared
    | cons oldest rest => simp [SiteStore.identified, hprepared]
  rw [reopen_eq, if_neg (by simp [hf, hn]), hf] at hr
  simp only [identify] at hr
  rcases hl : ((r.obtain n none none).2.connect (r.storeFor n none none)).loadIdentity
    with ⟨_ | _, c⟩ <;> rw [hl] at hr hsite htag
  · cases hr
  · cases hr
    refine ⟨htag, fun m hm ↦ ?_⟩
    rw [find_remember, find_save, if_neg (hsite ▸ hm.symm), find_obtain, if_neg hm.symm]

/-- A search of stores that are not open ends at the first whose oldest row has the tag. -/
theorem search_of_closed (h : r.IsSound) (t : String) {sites : List Int} (hd : sites.Nodup)
    (hclosed : ∀ n ∈ sites, r.find n = none ∧ n ∈ r.persistedSites) :
    ∃ found r', r.search (.text t) sites = (.ok found, r') ∧
      found.map (·.site) = sites.find? (fun n ↦ r.oldestTag n == some t) := by
  induction sites generalizing r with
  | nil => exact ⟨none, r, rfl, rfl⟩
  | cons n rest ih =>
    obtain ⟨hnew, hrest⟩ := List.nodup_cons.1 hd
    obtain ⟨hf, hn⟩ := hclosed n (by simp)
    obtain ⟨s, r', hr, ho, hs, htag, hfind⟩ := reopen_of_closed h hf hn
    have hvisits := visits_reopen h n
    rw [hr] at hvisits
    rw [search, hr, List.find?_cons]
    simp only [same_ofText, htag]
    cases ht : r.oldestTag n == some t with
    | true => exact ⟨some s, r', rfl, by simp [ho.isSound.site_eq hs]⟩
    | false =>
      -- the store that has been opened changes no rows, and those still to come stay closed
      obtain ⟨found, r'', hr', hfound⟩ := ih ho.isSound hrest fun m hm ↦ by
        obtain ⟨hfm, hpm⟩ := hclosed m (by simp [hm])
        have hne : m ≠ n := fun hmn ↦ hnew (hmn ▸ hm)
        exact ⟨(hfind m hne).trans hfm, hvisits.mem_persistedSites hpm⟩
      have hsame : (fun n ↦ r'.oldestTag n == some t) = fun n ↦ r.oldestTag n == some t := by
        funext m
        rw [oldestTag, ho.rowsOf, oldestTag]
      exact ⟨found, r'', hr', hsame ▸ hfound⟩

theorem mem_unopened : n ∈ r.unopened ↔ n ∈ r.persistedSites ∧ r.find n = none := by
  simp [unopened]

/-- The store at which a search for a tag ends. -/
def firstWith (r : Registry) (t : String) : Option Int :=
  r.unopened.find? fun n ↦ r.oldestTag n == some t

theorem of_firstWith (h : r.firstWith t = some n) : r.find n = none ∧ r.Bears n t := by
  have htag := List.find?_some (p := fun n ↦ r.oldestTag n == some t) h
  exact ⟨(mem_unopened.1 (List.mem_of_find?_eq_some h)).2, bears_of_oldestTag (beq_iff_eq.1 htag)⟩

theorem firstWith_of_bears (hown : r.HasOwnTags) (hp : r.persistent = true) (hn : 0 ≤ n)
    (hclosed : r.find n = none) (hbears : r.Bears n t) : r.firstWith t = some n := by
  have hrows : r.rowsOf n ≠ [] := fun hnil ↦ by simp [Registry.Bears, hnil] at hbears
  have hmem := mem_unopened.2 ⟨mem_persistedSites_of_rowsOf hp hn hrows, hclosed⟩
  cases hm : r.firstWith t with
  | none => exact absurd (hown.oldestTag hbears) (by simpa using List.find?_eq_none.1 hm n hmem)
  | some m => rw [hown.eq_of_bears (of_firstWith hm).2 hbears]

/-- What a call keeps that takes no table away. -/
theorem isSound_access (h : r.IsSound) {a : Access} (ha : ∀ n, a ≠ .dropTable n) :
    (r.access a).2.IsSound ∧ (r.access a).2.persistent = r.persistent := by
  cases a with
  | get site tag team => exact ⟨h.obtain .., by simp [access, obtain]⟩
  | find site => exact ⟨h, rfl⟩
  | reopen site =>
    rcases reopen_cases h site with ⟨-, hr⟩ | ⟨s, r', hr, -, ho⟩ <;> rw [access, hr]
    · exact ⟨h, rfl⟩
    · exact ⟨ho.isSound, ho.persistent⟩
  | findByTag tag =>
    obtain ⟨result, r', hr, ho, -⟩ := findByTag_cases h tag
    simpa only [access, hr] using ⟨ho.isSound, ho.persistent⟩
  | insert now records => exact ⟨h.insertAll now records, persistent_insertAll h now records⟩
  | dropTable site => exact absurd rfl (ha site)
  | close => exact ⟨isSound_restart r, rfl⟩

theorem isSound_accessAll (h : r.IsSound) {accesses : List Access}
    (hkept : ∀ n, Access.dropTable n ∉ accesses) :
    (r.accessAll accesses).IsSound ∧ (r.accessAll accesses).persistent = r.persistent := by
  induction accesses generalizing r with
  | nil => exact ⟨h, rfl⟩
  | cons a rest ih =>
    obtain ⟨ha, hp⟩ := isSound_access h (a := a) fun n hn ↦ hkept n (by simp [hn])
    obtain ⟨hrest, hp'⟩ := ih ha fun n hn ↦ hkept n (by simp [hn])
    exact ⟨hrest, hp'.trans hp⟩

/-- A tag that a store goes by leads to such a store. -/
theorem findByTag_of_goesBy (h : r.IsOrderly) (hsound : r.IsSound) (ht : r.GoesBy n t) :
    ∃ s r', r.findByTag (.text t) = (.ok (some s), r') ∧ r'.find s.site = some s ∧
      r.GoesBy s.site t := by
  obtain ⟨m, hm⟩ := Option.isSome_iff_exists.1 (h.known ht)
  have hgoes := h.leads hm
  obtain ⟨hne, s₀, hs₀, htag⟩ := hgoes
  obtain ⟨s, r', hr, hs, ho⟩ := reopen_of_isOpenable hsound (.inl (by rw [hs₀]; rfl))
  have hsite := ho.isSound.site_eq hs
  refine ⟨s, r', ?_, hsite ▸ hs, hsite ▸ ⟨hne, s₀, hs₀, htag⟩⟩
  simpa [findByTag, hm] using hr

/-- A tag that no store goes by leads to the first store that is not open and whose oldest row has
it. -/
theorem findByTag_of_unknown (h : r.IsOrderly) (hsound : r.IsSound) (ht : ¬∃ n, r.GoesBy n t) :
    ∃ found r', r.findByTag (.text t) = (.ok found, r') ∧
      (∀ s, found = some s → r'.find s.site = some s) ∧
      found.map (·.site) = r.firstWith t := by
  have hunknown : Keyed.find r.tags t = none := by
    by_contra hsome
    obtain ⟨n, hn⟩ := Option.ne_none_iff_exists'.1 hsome
    exact ht ⟨n, h.leads hn⟩
  obtain ⟨found, r', hr, hfound⟩ := search_of_closed hsound t (nodup_distinct _)
    fun n hn ↦ (mem_unopened.1 hn).symm
  have hf : r.findByTag (.text t) = r.search (.text t) r.unopened := by
    simp [findByTag, hunknown]
  refine ⟨found, r', hf.trans hr, ?_, hfound⟩
  rintro s rfl
  exact find_of_search h.toIsPlaced hr

/-- After any calls of stores on disk, in which the rows of each site carry a tag of its own, a
search by a tag does not fail and hands out no store that goes by another. It hands out a store that
goes by the tag, if there is one. Otherwise it hands out the store of the site whose rows carry the
tag, if that is not open yet, and none if there are no such rows or the store of their site has been
given another tag. -/
theorem findByTag_of_accessAll {accesses : List Access} (hr : r₀.restart.accessAll accesses = r)
    (hp : r₀.persistent = true) (hkept : ∀ n, Access.dropTable n ∉ accesses)
    (hown : r.HasOwnTags) (t : String) :
    ∃ found r', r.access (.findByTag (.text t)) = (.ok found, r') ∧
      (∀ s, found = some s → s.tag = some t ∧ r'.find s.site = some s) ∧
      ((∃ n, r.GoesBy n t) → ∃ s, found = some s ∧ r.GoesBy s.site t) ∧
      ((¬∃ n, r.GoesBy n t) →
        (∀ n, 0 ≤ n → r.find n = none → r.Bears n t → ∃ s, found = some s ∧ s.site = n) ∧
        ((∀ n, r.Bears n t → ∃ s, r.find n = some s ∧ s.tag ≠ none) → found = none)) := by
  have h : r.IsOrderly := hr ▸ (isOrderly_restart r₀).accessAll accesses
  obtain ⟨hsound, hpersistent⟩ := isSound_accessAll (isSound_restart r₀) hkept
  rw [hr] at hsound hpersistent
  have hp : r.persistent = true := hpersistent.trans hp
  by_cases hgoes : ∃ n, r.GoesBy n t
  · obtain ⟨n, hn⟩ := hgoes
    obtain ⟨s, r', hf, hs, hgoes⟩ := findByTag_of_goesBy h hsound hn
    refine ⟨some s, r', hf, ?_, fun _ ↦ ⟨s, rfl, hgoes⟩, fun hno ↦ absurd ⟨n, hn⟩ hno⟩
    rintro _ ⟨⟩
    exact ⟨tag_of_findByTag h hf, hs⟩
  · obtain ⟨found, r', hf, hopen, hfirst⟩ := findByTag_of_unknown h hsound hgoes
    refine ⟨found, r', hf, ?_, fun hsome ↦ absurd hsome hgoes, fun _ ↦
      ⟨fun n hn hclosed hbears ↦ ?_, fun hothers ↦ ?_⟩⟩
    · rintro s rfl
      exact ⟨tag_of_findByTag h hf, hopen s rfl⟩
    · exact Option.map_eq_some_iff.1 (hfirst.trans (firstWith_of_bears hown hp hn hclosed hbears))
    · cases hm : r.firstWith t with
      | none => exact Option.map_eq_none_iff.1 (hfirst.trans hm)
      | some m =>
        obtain ⟨hclosed, hbears⟩ := of_firstWith hm
        obtain ⟨s, hs, -⟩ := hothers m hbears
        cases hclosed.symm.trans hs

/-- The calls of a process that stores one event and ends. -/
def oneEvent : List Access := [.insert ⟨0⟩ [.plain 1 (some 10)], .close]

theorem findByTag_of_accessAll_oneEvent :
    ({ persistent := true } : Registry).persistent = true ∧
      (∀ n, Access.dropTable n ∉ oneEvent) ∧
      (({ persistent := true } : Registry).restart.accessAll oneEvent).HasOwnTags ∧
      ∃ s r', (({ persistent := true } : Registry).restart.accessAll oneEvent).access
        (.findByTag (.text "tag")) = (.ok (some s), r') ∧ s.tag = some "tag" ∧ s.site = 1 := by
  obtain ⟨e, hd, htag⟩ : ∃ e : StoredEvent,
      (({ persistent := true } : Registry).restart.accessAll oneEvent).databases =
        [(1, some [e])] ∧ e.tag = "tag" := ⟨_, rfl, rfl⟩
  have hrows (n : Int) : (({ persistent := true } : Registry).restart.accessAll oneEvent).rowsOf n =
      if 1 = n then [e] else [] := by
    rw [rowsOf, tableOf, hd]
    simp only [Keyed.find]
    split <;> rfl
  have hmem {n : Int} {e' : StoredEvent}
      (he' : e' ∈ (({ persistent := true } : Registry).restart.accessAll oneEvent).rowsOf n) :
      1 = n ∧ e' = e := by
    rw [hrows] at he'
    split at he'
    · exact ⟨‹_›, List.mem_singleton.1 he'⟩
    · cases he'
  have hkept : ∀ n, Access.dropTable n ∉ oneEvent := by simp [oneEvent]
  have hown : (({ persistent := true } : Registry).restart.accessAll oneEvent).HasOwnTags := by
    intro m n x hx y hy
    obtain ⟨rfl, rfl⟩ := hmem hx
    obtain ⟨rfl, rfl⟩ := hmem hy
    simp
  obtain ⟨found, r', hf, hs, -, hunknown⟩ := findByTag_of_accessAll rfl rfl hkept hown "tag"
  have hclosed : ¬∃ n, (({ persistent := true } : Registry).restart.accessAll oneEvent).GoesBy n
      "tag" := by
    rintro ⟨n, -, s, hs, -⟩
    cases hs
  obtain ⟨s, rfl, hsite⟩ := (hunknown hclosed).1 1 (by decide) rfl
    ⟨e, by simp [hrows], htag⟩
  exact ⟨rfl, hkept, hown, s, r', hf, (hs s rfl).1, hsite⟩

/-- Stores on disk, of which one has been made for a tag. -/
def withGivenTag : Registry :=
  ({ persistent := true } : Registry).restart.accessAll [.get 1 (some "tag") (some 10)]

/-- A store that has been made for a tag is found by it, although no database holds rows. -/
theorem givenTag_is_found :
    (∀ n, withGivenTag.rowsOf n = []) ∧
      ∃ s r', withGivenTag.access (.findByTag (.text "tag")) = (.ok (some s), r') ∧ s.site = 1 :=
  ⟨fun _ ↦ rfl, _, _, rfl, rfl⟩

end Footfall.Registry
