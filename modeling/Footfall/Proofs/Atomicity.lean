import Footfall.Proofs.Run

/-!
Batches that fail. The rows of one site are stored together or not at all, but the parts of a batch
are not undone when a later part fails, nor is the opening of the store of the part that fails. So
a failed batch leaves no trace exactly when it fails at its first part, in a store that is open and
has nothing to learn from it.
-/

namespace Footfall

/-- What is said of an open store: its tag, its team and whether it is active. -/
def SiteStore.identity (s : SiteStore) : Option String × Option Int × Bool :=
  (s.tag, s.team, s.active)

theorem Connection.identity_prepared (c : Connection) :
    c.prepared.store.identity = c.store.identity := by
  unfold prepared
  split <;> rfl

/-- A batch that fails does not change what is said of the store. -/
theorem Connection.store_of_insertAll_error {c c' : Connection} {now : Instant}
    {part : List EventRecord} {e : Failure} (h : c.insertAll now part = (.error e, c')) :
    c'.store.site = c.store.site ∧ c'.store.identity = c.store.identity := by
  unfold insertAll at h
  split at h
  · cases h
    exact ⟨rfl, rfl⟩
  · split at h
    · cases h
      exact ⟨rfl, rfl⟩
    · unfold write at h
      split at h
      · cases h
        exact ⟨site_prepared, identity_prepared c⟩
      · split at h
        · cases h
          exact ⟨site_prepared, identity_prepared c⟩
        · cases h

theorem Table.length_newRows (t : Table) (now : Instant) (site : Int) (team : Option Int)
    (part : List EventRecord) : (t.newRows now site team part).length = part.length := by
  have := congrArg List.length (Entry.map_team_rows now t.nextId
    (part.map fun x ↦ ⟨x, site, x.team.or team⟩))
  simpa [Table.newRows] using this

/-- The records of a batch that are of a site. -/
def recordsOf (records : List EventRecord) (site : Int) : List EventRecord :=
  records.filter (·.site == some site)

/-- A record whose screen is wider than what a table can hold. -/
def EventRecord.vast (site : Int) (team : Option Int) : EventRecord :=
  { EventRecord.plain site team with context := { screenWidth := some 0x8000000000000000 } }

/-- One event of one site. -/
def oneView : List Operation := [.insert ⟨0⟩ (.plain 1 (some 10))]

namespace Registry

variable {r r' : Registry} {now : Instant} {site : Int} {part : List EventRecord} {e : Failure}
  {rows : List StoredEvent}

/-- Nothing can be told apart: the rows of the sites, the open stores with what is said of them,
and the index of the tags. -/
structure IsSame (r r' : Registry) : Prop where
  rows : ∀ site, r'.rowsOf site = r.rowsOf site
  stores : ∀ site, (r'.find site).map SiteStore.identity = (r.find site).map SiteStore.identity
  tags : ∀ tag, r'.tags.find tag = r.tags.find tag

theorem IsSame.refl (r : Registry) : r.IsSame r := ⟨fun _ ↦ rfl, fun _ ↦ rfl, fun _ ↦ rfl⟩

/-- The store that a part of a batch is for. -/
def storeForPart (r : Registry) (site : Int) (part : List EventRecord) : SiteStore :=
  r.storeFor site (part.head?.map (·.tag)) (part.head?.bind (·.team))

/-- The store of a part is open, learns nothing from the part, and is found under its tag. -/
structure IsReadyFor (r : Registry) (site : Int) (part : List EventRecord) : Prop where
  opened : r.find site = some (r.storeForPart site part)
  indexed : ∀ tag, (r.storeForPart site part).tag = some tag → tag ≠ "" →
    r.tags.find tag = some site

theorem find_tags_remember (r : Registry) (s : SiteStore) (tag : String) :
    (r.remember s).tags.find tag =
      if s.tag = some tag ∧ tag ≠ "" then some s.site else r.tags.find tag := by
  unfold remember
  split
  · simp_all
  · rename_i t ht
    by_cases hempty : t.isEmpty = true
    · obtain rfl := String.isEmpty_iff.1 hempty
      simp_all
    · have hne : t ≠ "" := fun h ↦ hempty (String.isEmpty_iff.2 h)
      simp only [hempty, Bool.false_eq_true, if_false, Keyed.find_put, ht, Option.some.injEq]
      by_cases heq : t = tag
      · simp [heq, heq ▸ hne]
      · simp [heq]

theorem site_storeFor (h : r.IsSound) (site : Int) (tag : Option String) (team : Option Int) :
    (r.storeFor site tag team).site = site := (h.holds_storeFor site tag team).1

/-- A part that fails leaves all rows alone, but its store is open afterwards. -/
theorem insertPart_error (h : r.IsSound) (hne : part ≠ []) (hsite : ∀ x ∈ part, x.site = some site)
    (hi : r.insertPart now site part = (.error e, r')) :
    (∀ other, r'.rowsOf other = r.rowsOf other) ∧
      (∀ other, (r'.find other).map SiteStore.identity =
        if site = other then some (r.storeForPart site part).identity
        else (r.find other).map SiteStore.identity) ∧
      ∀ tag, r'.tags.find tag =
        if (r.storeForPart site part).tag = some tag ∧ tag ≠ "" then some site
        else r.tags.find tag := by
  obtain ⟨result, r'', hi', hw, hf⟩ := insertPart_cases h now hne hsite
  cases hi.symm.trans hi'
  have hs : (r.storeForPart site part).site = site := site_storeFor h ..
  refine ⟨fun other ↦ ?_, ?_⟩
  · by_cases hother : other = site
    · subst hother
      cases hf with
      | full _ _ rows => exact rows
      | refused _ _ rows => exact rows
    · exact hw.rowsOf_of_ne hother
  · unfold insertPart at hi
    set opened := (r.obtain site (part.head?.map (·.tag)) (part.head?.bind (·.team))).2 with hopened
    rcases hc : (opened.connect (r.storeForPart site part)).insertAll now part with ⟨result, c⟩
    have hi : (result, opened.save c) = (.error e, r') := by
      rw [← hi]
      exact congrArg (fun p ↦ (p.1, opened.save p.2)) hc.symm
    cases hi
    obtain ⟨hcsite, hidentity⟩ := Connection.store_of_insertAll_error hc
    have hcsite : c.store.site = site := hcsite.trans hs
    constructor
    · intro other
      rw [find_save, hcsite]
      split
      · exact congrArg some hidentity
      · rename_i hother
        rw [hopened, find_obtain, if_neg hother]
    · intro tag
      have htags : (opened.save c).tags.find tag = opened.tags.find tag := rfl
      rw [htags, hopened, obtain, find_tags_remember]
      exact if_congr Iff.rfl (congrArg some hs) rfl

/-- A part that fails leaves no trace exactly when its store was ready for it. -/
theorem isSame_of_insertPart_iff (h : r.IsSound) (hne : part ≠ [])
    (hsite : ∀ x ∈ part, x.site = some site)
    (hi : r.insertPart now site part = (.error e, r')) :
    r.IsSame r' ↔ r.IsReadyFor site part := by
  obtain ⟨hrows, hstores, htags⟩ := insertPart_error h hne hsite hi
  constructor
  · intro hsame
    refine ⟨?_, fun tag htag hnonempty ↦ ?_⟩
    · have hstore := hsame.stores site
      rw [hstores, if_pos rfl] at hstore
      cases hf : r.find site with
      | none => simp [hf] at hstore
      | some s =>
        have hf' : Keyed.find r.stores site = some s := hf
        have hshape : r.storeForPart site part =
            { s with tag := (r.storeForPart site part).tag,
                     team := (r.storeForPart site part).team } := by
          simp only [storeForPart, storeFor, hf']
        simp only [hf, Option.map_some, Option.some.injEq, SiteStore.identity,
          Prod.mk.injEq] at hstore
        rw [hshape, hstore.1, hstore.2.1]
    · have := hsame.tags tag
      rwa [htags, if_pos ⟨htag, hnonempty⟩, eq_comm] at this
  · rintro ⟨hopened, hindexed⟩
    refine ⟨hrows, fun other ↦ ?_, fun tag ↦ ?_⟩
    · rw [hstores]
      split
      · rename_i hother
        rw [← hother, hopened, Option.map_some]
      · rfl
    · rw [htags]
      split
      · rename_i htag
        rw [hindexed tag htag.1 htag.2]
      · rfl

/-- A part that is stored leaves a trace in the rows of its site. -/
theorem rowsOf_ne_of_insertPart_ok (h : r.IsSound) (hne : part ≠ [])
    (hsite : ∀ x ∈ part, x.site = some site)
    (hi : r.insertPart now site part = (.ok rows, r')) : r'.rowsOf site ≠ r.rowsOf site := by
  obtain ⟨result, r'', hi', hw, hf⟩ := insertPart_cases h now hne hsite
  cases hi.symm.trans hi'
  cases hf with
  | stored _ _ heq =>
    intro hsame
    have hlength := congrArg List.length (heq.symm.trans hsame)
    rw [List.length_append, Table.length_newRows] at hlength
    have := List.length_pos_of_ne_nil hne
    omega

/-- The rows of one site are stored together or not at all. -/
theorem rowsOf_insertEach {parts : List (Int × List EventRecord)} (h : r.IsSound)
    (hkeys : (parts.map (·.1)).Nodup)
    (hparts : ∀ p ∈ parts, p.2 ≠ [] ∧ ∀ x ∈ p.2, x.site = some p.1) (site : Int) :
    (r.insertEach now parts).2.rowsOf site = r.rowsOf site ∨
      ∃ part, (site, part) ∈ parts ∧ (r.insertEach now parts).2.rowsOf site =
        r.rowsOf site ++ (r.rowsOf site).newRows now site (r.teamFor site part) part := by
  induction parts generalizing r with
  | nil => exact .inl rfl
  | cons p rest ih =>
    obtain ⟨other, first⟩ := p
    obtain ⟨hne, hsite⟩ := hparts _ (List.mem_cons_self ..)
    obtain ⟨hnew, hrest⟩ := List.nodup_cons.1 hkeys
    obtain ⟨result, r₁, hi, hw, hf⟩ := insertPart_cases h now hne hsite
    rw [insertEach_cons, hi]
    cases result with
    | error e =>
      refine .inl ?_
      by_cases hother : site = other
      · subst hother
        exact (insertPart_error h hne hsite hi).1 site
      · exact hw.rowsOf_of_ne hother
    | ok rows =>
      have ih := ih hw.isSound hrest fun q hq ↦ hparts q (by simp [hq])
      by_cases hother : site = other
      · subst hother
        -- No later part is of this site.
        have hlater : ∀ part, (site, part) ∉ rest := fun part hmem ↦
          hnew (List.mem_map.2 ⟨_, hmem, rfl⟩)
        rcases ih with ih | ⟨part, hmem, -⟩
        · cases hf with
          | stored _ _ heq => exact .inr ⟨first, by simp, ih.trans heq⟩
        · exact absurd hmem (hlater part)
      · have hteam (part : List EventRecord) : r₁.teamFor site part = r.teamFor site part := by
          simp only [teamFor, hw.teamOf_of_ne hother]
        rw [hw.rowsOf_of_ne hother] at ih
        refine ih.imp_right fun ⟨part, hmem, heq⟩ ↦ ⟨part, by simp [hmem], ?_⟩
        rw [← hteam]
        exact heq

/-- A failed batch of parts leaves no trace exactly when it comes to no part but the first, whose
store is ready for it. -/
theorem isSame_of_insertEach_iff {parts : List (Int × List EventRecord)} (h : r.IsSound)
    (hkeys : (parts.map (·.1)).Nodup)
    (hparts : ∀ p ∈ parts, p.2 ≠ [] ∧ ∀ x ∈ p.2, x.site = some p.1)
    (hi : r.insertEach now parts = (.error e, r')) :
    r.IsSame r' ↔
      ∀ r'' site part, Reaches now r parts r'' site part → r'' = r ∧ r.IsReadyFor site part := by
  cases parts with
  | nil => cases hi
  | cons p rest =>
    obtain ⟨site, part⟩ := p
    obtain ⟨hne, hsite⟩ := hparts _ (List.mem_cons_self ..)
    obtain ⟨hnew, hrest⟩ := List.nodup_cons.1 hkeys
    rw [insertEach_cons] at hi
    rcases hp : r.insertPart now site part with ⟨_ | rows, r₁⟩
    · rw [hp] at hi
      cases hi
      rw [isSame_of_insertPart_iff h hne hsite hp]
      refine ⟨fun hready r'' other next hreach ↦ ?_, fun hall ↦ (hall _ _ _ (.head ..)).2⟩
      cases hreach with
      | head => exact ⟨rfl, hready⟩
      | tail hok => cases hok.symm.trans hp
    · -- The first part is stored and stays, whatever becomes of the later ones.
      rw [hp] at hi
      have hchanged := rowsOf_ne_of_insertPart_ok h hne hsite hp
      obtain ⟨result, r₂, hp', hw, -⟩ := insertPart_cases h now hne hsite
      cases hp.symm.trans hp'
      obtain rfl : (r₁.insertEach now rest).2 = r' := congrArg Prod.snd hi
      refine ⟨fun hsame ↦ ?_, fun hall ↦ ?_⟩
      · rcases rowsOf_insertEach hw.isSound hrest (fun q hq ↦ hparts q (by simp [hq])) site with
          hkept | ⟨next, hmem, -⟩
        · exact absurd (hkept.symm.trans (hsame.rows site)) hchanged
        · exact absurd (List.mem_map.2 ⟨_, hmem, rfl⟩) hnew
      · cases rest with
        | nil => cases hi
        | cons q rest =>
          have := (hall r₁ q.1 q.2 (.tail hp (.head ..))).1
          exact absurd (this ▸ rfl) hchanged

theorem part_eq_recordsOf {records : List EventRecord} {routed : List (Int × EventRecord)}
    (h : records.mapM Registry.routed = .ok routed) (hp : (site, part) ∈ recordsBySite routed) :
    part = recordsOf records site := by
  obtain ⟨hmap, hsite⟩ := mapM_routed h
  obtain ⟨-, rfl⟩ := mem_recordsBySite hp
  rw [recordsOf, ← hmap, List.filter_map]
  refine congrArg _ (List.filter_congr fun p hp ↦ ?_)
  simp [hsite p hp]

/-- What a failed batch leaves behind. -/
theorem insertAll_error {records : List EventRecord} (h : r.IsSound)
    (hi : r.insertAll now records = (.error e, r')) :
    (∀ site, r'.rowsOf site = r.rowsOf site ∨ r'.rowsOf site = r.rowsOf site ++
      (r.rowsOf site).newRows now site (r.teamFor site (recordsOf records site))
        (recordsOf records site)) ∧
    (r.IsSame r' ↔ ∀ r'' site part, r.Comes now records r'' site part →
      r'' = r ∧ r.IsReadyFor site part) := by
  have hr' : r' = (r.insertAll now records).2 := (congrArg Prod.snd hi).symm
  rw [snd_insertAll] at hr'
  cases hrouted : records.mapM Registry.routed with
  | error f =>
    obtain rfl : r' = r := by simpa [hrouted] using hr'
    refine ⟨fun _ ↦ .inl rfl, fun _ r'' site part ⟨routed, hok, _⟩ ↦ ?_, fun _ ↦ .refl _⟩
    cases hrouted.symm.trans hok
  | ok routed =>
    rw [hrouted] at hr'
    have hkeys : ((recordsBySite routed).map (·.1)).Nodup := nodup_keys_recordsBySite routed
    have hparts : ∀ p ∈ recordsBySite routed, p.2 ≠ [] ∧ ∀ x ∈ p.2, x.site = some p.1 :=
      fun p hp ↦ (mem_part hrouted hp).imp_right fun hall x hx ↦ (hall x hx).2
    have hcomes (r'' : Registry) (site : Int) (part : List EventRecord) :
        r.Comes now records r'' site part ↔ Reaches now r (recordsBySite routed) r'' site part := by
      refine ⟨fun ⟨routed', hok, hreach⟩ ↦ ?_, fun hreach ↦ ⟨routed, hrouted, hreach⟩⟩
      cases hrouted.symm.trans hok
      exact hreach
    simp only [hcomes]
    constructor
    · intro site
      rw [hr']
      refine (rowsOf_insertEach h hkeys hparts site).imp_right fun ⟨part, hmem, heq⟩ ↦ ?_
      rwa [part_eq_recordsOf hrouted hmem] at heq
    · cases routed with
      | nil =>
        obtain rfl : r' = r := hr'
        exact ⟨fun _ r'' site part hreach ↦ absurd hreach.mem (by simp [recordsBySite]),
          fun _ ↦ .refl _⟩
      | cons p routed =>
        have hparted : r.insertEach now (recordsBySite (p :: routed)) = (.error e, r') := by
          rw [← hi, insertAll, hrouted]
        exact isSame_of_insertEach_iff h hkeys hparts hparted

end Registry

namespace Backend

/-- A failed batch stores the rows of each site together or not at all. It leaves everything as it
was exactly when it comes to no part but the first, whose store is ready for it. -/
theorem isSame_of_insertAll_error_iff (s : Settings) (ops : List Operation) {now : Instant}
    {records : List EventRecord} {e : Failure} {b : Backend}
    (h : (s.embedded.afterAll ops).insertAll now records = (.error e, b)) :
    (∀ site, b.registry.rowsOf site = (s.embedded.afterAll ops).registry.rowsOf site ∨
      b.registry.rowsOf site = (s.embedded.afterAll ops).registry.rowsOf site ++
        ((s.embedded.afterAll ops).registry.rowsOf site).newRows now site
          ((s.embedded.afterAll ops).registry.teamFor site (recordsOf records site))
          (recordsOf records site)) ∧
    ((s.embedded.afterAll ops).registry.IsSame b.registry ↔
      ∀ r site part, (s.embedded.afterAll ops).registry.Comes now records r site part →
        r = (s.embedded.afterAll ops).registry ∧
          (s.embedded.afterAll ops).registry.IsReadyFor site part) := by
  obtain ⟨r, hr, hsound, -, -⟩ := run_induction s (P := fun _ _ ↦ True) trivial (by simp) ops
  rw [registry_eq hr]
  simp only [insertAll, hr, Prod.mk.injEq] at h
  obtain ⟨herror, rfl⟩ := h
  exact Registry.insertAll_error hsound (Prod.ext herror rfl)

/-- A store that is open refuses a record that no table can hold. -/
theorem isSame_of_insertAll_error_iff_vast :
    ∃ b, (Settings.onDisk.embedded.afterAll oneView).insertAll ⟨0⟩ [.vast 1 (some 10)] =
        (.error (.fault .hugeForStore), b) ∧
      ((Settings.onDisk.embedded.afterAll oneView).registry.IsSame b.registry ↔
        ∀ r site part,
          (Settings.onDisk.embedded.afterAll oneView).registry.Comes ⟨0⟩ [.vast 1 (some 10)]
            r site part →
          r = (Settings.onDisk.embedded.afterAll oneView).registry ∧
            (Settings.onDisk.embedded.afterAll oneView).registry.IsReadyFor site part) :=
  ⟨_, rfl, (isSame_of_insertAll_error_iff Settings.onDisk oneView rfl).2⟩

/-- The row of the first site stays although the batch fails at the second. -/
theorem half_of_batch_stored :
    ∃ b, (Settings.onDisk.embedded.afterAll []).insertAll ⟨0⟩
        [.plain 1 (some 10), .vast 2 (some 20)] = (.error (.fault .hugeForStore), b) ∧
      b.registry.rowsOf 1 = [Entry.row ⟨.plain 1 (some 10), 1, some 10⟩ 1 ⟨0⟩] ∧
      ¬(Settings.onDisk.embedded.afterAll []).registry.IsSame b.registry := by
  refine ⟨_, rfl, rfl, fun h ↦ ?_⟩
  have := h.rows 1
  cases this

end Backend

end Footfall
