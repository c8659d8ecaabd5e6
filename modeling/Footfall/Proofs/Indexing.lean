import Footfall.Proofs.Losing

/-!
The index of the public tags. Whichever way the stores are come to, and whether that succeeds, there
is one store for a site as long as the process lasts, what it has once known of its owner it keeps,
and the index leads from a tag to an open store that goes by it.
-/

namespace Footfall

/-- A call of the stores of all sites. Others may take the table of a site away between two calls.
-/
inductive Access
  | get (site : Int) (tag : Option String) (team : Option Int)
  | find (site : Int)
  | reopen (site : Int)
  | findByTag (tag : Value)
  | insert (now : Instant) (records : List EventRecord)
  | dropTable (site : Int)
  | close

/-- A store goes on: what is known of its owner stays, and so does its being active. -/
structure SiteStore.Grows (s s' : SiteStore) : Prop where
  site : s'.site = s.site
  tag {t : String} : s.tag = some t → s'.tag = some t
  team {u : Int} : s.team = some u → s'.team = some u
  active : s.active = true → s'.active = true

namespace SiteStore

variable {s s' s'' : SiteStore}

theorem Grows.refl (s : SiteStore) : s.Grows s := ⟨rfl, id, id, id⟩

theorem Grows.trans (h : s.Grows s') (h' : s'.Grows s'') : s.Grows s'' :=
  ⟨h'.site.trans h.site, fun ht ↦ h'.tag (h.tag ht), fun hu ↦ h'.team (h.team hu),
    fun ha ↦ h'.active (h.active ha)⟩

theorem grows_identified (s : SiteStore) (oldest : StoredEvent) : s.Grows (s.identified oldest) :=
  ⟨rfl, fun ht ↦ by simp [identified, ht], fun hu ↦ by simp [identified, hu], fun _ ↦ rfl⟩

end SiteStore

namespace Connection

theorem grows_prepared (c : Connection) : c.store.Grows c.prepared.store := by
  unfold prepared
  split
  · exact .refl _
  · exact ⟨rfl, id, id, id⟩

theorem tag_prepared (c : Connection) : c.prepared.store.tag = c.store.tag := by
  unfold prepared
  split <;> rfl

/-- A store that is asked whose it is goes on, and learns its tag only when there are rows. -/
theorem grows_loadIdentity (c : Connection) : c.store.Grows c.loadIdentity.2.store ∧
    (c.loadIdentity.1 ≠ .ok () → c.loadIdentity.2.store.tag = c.store.tag) := by
  unfold loadIdentity
  split
  · exact ⟨.refl _, fun _ ↦ rfl⟩
  · dsimp only
    rcases c.prepared.table with _ | _ | ⟨oldest, rest⟩
    · exact ⟨c.grows_prepared, fun _ ↦ c.tag_prepared⟩
    · exact ⟨c.grows_prepared, fun _ ↦ c.tag_prepared⟩
    · exact ⟨c.grows_prepared.trans (SiteStore.grows_identified ..), fun h ↦ absurd rfl h⟩

/-- A write changes of a store nothing but its state. -/
theorem grows_insertAll (c : Connection) (now : Instant) (records : List EventRecord) :
    c.store.Grows (c.insertAll now records).2.store ∧
      (c.insertAll now records).2.store.tag = c.store.tag := by
  unfold insertAll
  split
  · exact ⟨.refl _, rfl⟩
  · cases records.forM c.store.checkRecord with
    | error e => exact ⟨.refl _, rfl⟩
    | ok u =>
      change c.store.Grows (c.prepared.write now records).2.store ∧
        (c.prepared.write now records).2.store.tag = c.store.tag
      unfold write
      cases c.prepared.table with
      | none => exact ⟨c.grows_prepared, c.tag_prepared⟩
      | some t =>
        cases h : t.addAll now (records.map c.prepared.store.entry) with
        | error f => simpa only [h] using ⟨c.grows_prepared, c.tag_prepared⟩
        | ok p =>
          simp only [h]
          exact ⟨c.grows_prepared.trans ⟨rfl, id, id, fun _ ↦ rfl⟩, c.tag_prepared⟩

end Connection

namespace Registry

variable {r r' r'' : Registry} {s s' : SiteStore} {c : Connection} {n : Int}

/-- The store that a call hands out, with the state after it. -/
def access (r : Registry) : Access → Except Failure (Option SiteStore) × Registry
  | .get site tag team => (.ok (some (r.obtain site tag team).1), (r.obtain site tag team).2)
  | .find site => (.ok (r.find site), r)
  | .reopen site => r.reopen site
  | .findByTag tag => r.findByTag tag
  | .insert now records => ((r.insertAll now records).1.map fun _ ↦ none,
      (r.insertAll now records).2)
  | .dropTable site => (.ok none, r.dropTable site)
  | .close => (.ok none, r.restart)

def accessAll (r : Registry) (accesses : List Access) : Registry :=
  accesses.foldl (fun r a ↦ (r.access a).2) r

/-- The open store of a site goes by a tag. No store goes by the empty one. -/
def GoesBy (r : Registry) (n : Int) (t : String) : Prop :=
  t ≠ "" ∧ ∃ s, r.find n = some s ∧ s.tag = some t

/-- Every site has one store at most, and the index leads to a store that goes by the tag. A tag
that a store goes by is in the index. -/
structure IsOrderly (r : Registry) : Prop extends r.IsPlaced where
  nodup : (Keyed.keys r.stores).Nodup
  leads {t : String} {n : Int} : Keyed.find r.tags t = some n → r.GoesBy n t
  known {t : String} {n : Int} : r.GoesBy n t → (Keyed.find r.tags t).isSome = true

/-- How the stores go on until the process ends: none is closed, and each of them grows. -/
structure Advances (r r' : Registry) : Prop where
  isOrderly : r'.IsOrderly
  stays {n : Int} {s : SiteStore} : r.find n = some s → ∃ s', r'.find n = some s' ∧ s.Grows s'

theorem Advances.refl (h : r.IsOrderly) : r.Advances r := ⟨h, fun hs ↦ ⟨_, hs, .refl _⟩⟩

theorem Advances.trans (h : r.Advances r') (h' : r'.Advances r'') : r.Advances r'' := by
  refine ⟨h'.isOrderly, fun hs ↦ ?_⟩
  obtain ⟨s', hs', hg⟩ := h.stays hs
  obtain ⟨s'', hs'', hg'⟩ := h'.stays hs'
  exact ⟨s'', hs'', hg.trans hg'⟩

theorem isOrderly_of_closed (hs : r.stores = []) (ht : r.tags = []) : r.IsOrderly where
  toIsPlaced := isPlaced_of_closed fun n ↦ by simp [Registry.find, hs]
  nodup := by simp [Keyed.keys, hs]
  leads h := by simp [ht] at h
  known h := by simp [GoesBy, Registry.find, hs] at h

/-- One store takes the place of the one before it, which it goes on from. Its tag is known, and
what is new in the index leads to it. -/
theorem IsOrderly.advances_put (h : r.IsOrderly) (hplaced : r'.IsPlaced)
    (hstores : r'.stores = r.stores.put s'.site s')
    (hgrows : ∀ s, r.find s'.site = some s → s.Grows s')
    (hkept : ∀ t, (Keyed.find r.tags t).isSome = true → (Keyed.find r'.tags t).isSome = true)
    (hleads : ∀ t n, Keyed.find r'.tags t = some n →
      Keyed.find r.tags t = some n ∨ n = s'.site ∧ s'.tag = some t ∧ t ≠ "")
    (hknown : ∀ t, s'.tag = some t → t ≠ "" → (Keyed.find r'.tags t).isSome = true) :
    r.Advances r' := by
  have hfind (m : Int) : r'.find m = if s'.site = m then some s' else r.find m := by
    rw [Registry.find, hstores]
    exact Keyed.find_put ..
  have hstays {m : Int} {s : SiteStore} (hs : r.find m = some s) :
      ∃ s', r'.find m = some s' ∧ s.Grows s' := by
    rw [hfind]
    split
    · rename_i hm
      exact ⟨s', rfl, hgrows s (hm ▸ hs)⟩
    · exact ⟨s, hs, .refl s⟩
  refine ⟨⟨hplaced, ?_, fun {t m} ht ↦ ?_, fun {t m} ht ↦ ?_⟩, hstays⟩
  · rw [hstores]
    exact Keyed.nodup_keys_put h.nodup ..
  · -- what was in the index leads to a store that has kept its tag, the rest to the store put in
    rcases hleads t m ht with hold | ⟨rfl, htag, hne⟩
    · obtain ⟨hne, s, hs, htag⟩ := h.leads hold
      obtain ⟨s', hs', hg⟩ := hstays hs
      exact ⟨hne, s', hs', hg.tag htag⟩
    · exact ⟨hne, s', by rw [hfind, if_pos rfl], htag⟩
  · obtain ⟨hne, s, hs, htag⟩ := ht
    rw [hfind] at hs
    split at hs
    · cases hs
      exact hknown t htag hne
    · exact hkept t (h.known ⟨hne, s, hs, htag⟩)

theorem isSome_tags_remember (r : Registry) (s : SiteStore) {t : String}
    (h : (Keyed.find r.tags t).isSome = true) :
    (Keyed.find (r.remember s).tags t).isSome = true := by
  rw [tags_remember]
  split
  · rfl
  · exact h

/-- A store is put in its place and remembered by its tag. -/
theorem IsOrderly.advances_remember (h : r.IsOrderly) (s' : SiteStore) (hplaced : r'.IsPlaced)
    (hstores : r'.stores = r.stores.put s'.site s')
    (hgrows : ∀ s, r.find s'.site = some s → s.Grows s')
    (htags : ∀ t, Keyed.find r'.tags t = Keyed.find (r.remember s').tags t) : r.Advances r' := by
  refine h.advances_put hplaced hstores hgrows (fun t ht ↦ ?_) (fun t n ht ↦ ?_)
    fun t ht hne ↦ ?_
  · rw [htags]
    exact isSome_tags_remember r s' ht
  · rw [htags, tags_remember] at ht
    split at ht
    · rename_i hst
      cases ht
      exact .inr ⟨rfl, hst⟩
    · exact .inl ht
  · rw [htags, tags_remember, if_pos ⟨ht, hne⟩]
    rfl

/-- Work on an open store that leaves it its tag. -/
theorem IsOrderly.advances_save (h : r.IsOrderly) (hs : r.find n = some s)
    (hc : (r.connect s).Lasts c) (hgrows : s.Grows c.store) (htag : c.store.tag = s.tag) :
    r.Advances (r.save c) := by
  have hsite : c.store.site = n := hc.site.trans (h.site_eq hs)
  refine h.advances_put (lasts_save h.toIsPlaced hs hc).isPlaced rfl (fun s₀ hs₀ ↦ ?_)
    (fun _ ↦ id) (fun _ _ ↦ .inl) fun t ht hne ↦ ?_
  · rw [hsite, hs] at hs₀
    cases hs₀
    exact hgrows
  · exact h.known ⟨hne, s, hs, htag ▸ ht⟩

@[simp] theorem stores_remember (r : Registry) (s : SiteStore) :
    (r.remember s).stores = r.stores := by
  unfold remember
  split
  · rfl
  · split <;> rfl

theorem grows_storeFor (hs : r.find n = some s) (tag : Option String) (team : Option Int) :
    s.Grows (r.storeFor n tag team) := by
  have hs : Keyed.find r.stores n = some s := hs
  simp only [storeFor, hs]
  exact ⟨rfl, fun ht ↦ by simp [ht], fun hu ↦ by simp [hu], id⟩

theorem advances_obtain (h : r.IsOrderly) (n : Int) (tag : Option String) (team : Option Int) :
    r.Advances (r.obtain n tag team).2 := by
  have hsite := h.toIsPlaced.site_storeFor n tag team
  refine h.advances_remember (r.storeFor n tag team)
    (lasts_obtain h.toIsPlaced n tag team).isPlaced ?_ (fun s hs ↦ ?_) fun t ↦ ?_
  · simp [Registry.obtain, hsite]
  · exact grows_storeFor (hsite ▸ hs) tag team
  · simp [Registry.obtain, tags_remember]

theorem advances_identify (h : r.IsOrderly) (hs : r.find n = some s) :
    r.Advances (r.identify s).2 := by
  have hlasts := (r.connect s).lasts_loadIdentity
  have hplaced := (lasts_identify h.toIsPlaced hs).isPlaced
  obtain ⟨hgrows, htag⟩ := (r.connect s).grows_loadIdentity
  have hsite : (r.connect s).loadIdentity.2.store.site = n := hlasts.site.trans (h.site_eq hs)
  unfold identify at hplaced ⊢
  rcases hl : (r.connect s).loadIdentity with ⟨_ | _, c⟩ <;>
    rw [hl] at hlasts hplaced hgrows htag hsite
  · exact h.advances_save hs hlasts hgrows (htag (by simp))
  · refine h.advances_remember c.store hplaced (by simp [save]) (fun s₀ hs₀ ↦ ?_)
      fun t ↦ ?_
    · rw [hsite, hs] at hs₀
      cases hs₀
      exact hgrows
    · rw [tags_remember, tags_remember]
      rfl

theorem advances_reopen (h : r.IsOrderly) (n : Int) : r.Advances (r.reopen n).2 := by
  rw [reopen_eq]
  split
  · exact .refl h
  · cases hs : r.find n with
    | some s => exact advances_identify h hs
    | none =>
      have ho := advances_obtain h n none none
      exact ho.trans (advances_identify ho.isOrderly (n := n) (by rw [find_obtain, if_pos rfl]))

theorem advances_search (h : r.IsOrderly) (tag : Value) (sites : List Int) :
    r.Advances (r.search tag sites).2 := by
  induction sites generalizing r with
  | nil => exact .refl h
  | cons m rest ih =>
    have hm := advances_reopen h m
    rw [search]
    rcases hr : r.reopen m with ⟨_ | _ | s, r'⟩ <;> rw [hr] at hm
    · exact hm
    · exact hm.trans (ih hm.isOrderly)
    · dsimp only
      split
      · exact hm
      · exact hm.trans (ih hm.isOrderly)

theorem advances_findByTag (h : r.IsOrderly) (tag : Value) : r.Advances (r.findByTag tag).2 := by
  unfold findByTag
  split
  · exact .refl h
  · split
    · exact advances_reopen h _
    · exact advances_search h tag _

theorem advances_insertPart (h : r.IsOrderly) (now : Instant) (n : Int)
    (part : List EventRecord) : r.Advances (r.insertPart now n part).2 := by
  have ho := advances_obtain h n (part.head?.map (·.tag)) (part.head?.bind (·.team))
  have hs : (r.obtain n (part.head?.map (·.tag)) (part.head?.bind (·.team))).2.find n =
      some (r.obtain n (part.head?.map (·.tag)) (part.head?.bind (·.team))).1 := by
    rw [find_obtain, if_pos rfl]
    rfl
  obtain ⟨hgrows, htag⟩ := Connection.grows_insertAll _ now part
  exact ho.trans (ho.isOrderly.advances_save hs (Connection.lasts_insertAll ..) hgrows htag)

theorem advances_insertAll (h : r.IsOrderly) (now : Instant) (records : List EventRecord) :
    r.Advances (r.insertAll now records).2 :=
  insertAll_keeps (P := r.Advances) (.refl h) fun _ n part _ hr ↦
    hr.trans (advances_insertPart hr.isOrderly now n part)

theorem advances_dropTable (h : r.IsOrderly) (n : Int) : r.Advances (r.dropTable n) := by
  refine ⟨⟨(lasts_dropTable h.toIsPlaced n).1.isPlaced, r.stores_dropTable n ▸ h.nodup,
    fun {t m} ht ↦ ?_, fun {t m} ht ↦ ?_⟩, fun {m s} hs ↦ ⟨s, by rw [find_dropTable, hs], .refl s⟩⟩
  · rw [tags_dropTable] at ht
    rw [GoesBy, find_dropTable]
    exact h.leads ht
  · rw [GoesBy, find_dropTable] at ht
    rw [tags_dropTable]
    exact h.known ht

theorem isOrderly_restart (r : Registry) : r.restart.IsOrderly := isOrderly_of_closed rfl rfl

/-- What a call does, unless it ends the process. -/
theorem advances_access (h : r.IsOrderly) {a : Access} (ha : a ≠ .close) :
    r.Advances (r.access a).2 := by
  cases a with
  | get site tag team => exact advances_obtain h ..
  | find site => exact .refl h
  | reopen site => exact advances_reopen h site
  | findByTag tag => exact advances_findByTag h tag
  | insert now records => exact advances_insertAll h now records
  | dropTable site => exact advances_dropTable h site
  | close => exact absurd rfl ha

theorem IsOrderly.access (h : r.IsOrderly) (a : Access) : (r.access a).2.IsOrderly := by
  by_cases ha : a = .close
  · subst ha
    exact isOrderly_restart r
  · exact (advances_access h ha).isOrderly

theorem IsOrderly.accessAll (h : r.IsOrderly) (accesses : List Access) :
    (r.accessAll accesses).IsOrderly := by
  induction accesses generalizing r with
  | nil => exact h
  | cons a rest ih => exact ih (h.access a)

theorem advances_accessAll (h : r.IsOrderly) {accesses : List Access}
    (hlast : Access.close ∉ accesses) : r.Advances (r.accessAll accesses) := by
  induction accesses generalizing r with
  | nil => exact .refl h
  | cons a rest ih =>
    rw [List.mem_cons, not_or] at hlast
    have ha := advances_access h (Ne.symm hlast.1)
    exact ha.trans (ih ha.isOrderly hlast.2)

/-- The store that a call hands out is the one that is open for its site from then on. -/
theorem find_of_access (h : r.IsOrderly) {a : Access} (hr : r.access a = (.ok (some s), r')) :
    r'.find s.site = some s := by
  have hplaced := h.toIsPlaced
  have hreopen {n : Int} (ho : r.reopen n = (.ok (some s), r')) : r'.find s.site = some s := by
    have hs := find_of_reopen hplaced ho
    have hplaced' := (advances_reopen h n).isOrderly.toIsPlaced
    rw [ho] at hplaced'
    rwa [hplaced'.site_eq hs]
  cases a with
  | get site tag team =>
    cases hr
    rw [find_obtain]
    exact if_pos (hplaced.site_storeFor ..).symm
  | find site =>
    obtain ⟨hs, rfl⟩ := Prod.ext_iff.1 hr
    have hs : r.find site = some s := Except.ok.inj hs
    exact (hplaced.site_eq hs).symm ▸ hs
  | reopen site => exact hreopen hr
  | findByTag tag =>
    simp only [Registry.access, findByTag] at hr
    split at hr
    · cases hr
    · split at hr
      · exact hreopen hr
      · exact find_of_search hplaced hr
  | insert now records =>
    cases hi : (r.insertAll now records).1 <;> simp [Registry.access, hi, Except.map] at hr
  | dropTable site => cases hr
  | close => cases hr

theorem tag_of_search {t : String} {sites : List Int}
    (hr : r.search (.text t) sites = (.ok (some s), r')) : s.tag = some t := by
  induction sites generalizing r with
  | nil => cases hr
  | cons m rest ih =>
    rw [search] at hr
    rcases ho : r.reopen m with ⟨_ | _ | s₀, r₀⟩ <;> rw [ho] at hr
    · cases hr
    · exact ih hr
    · dsimp only at hr
      split at hr
      · rename_i hsame
        cases hr
        rw [same_ofText] at hsame
        exact beq_iff_eq.1 hsame
      · exact ih hr

/-- A store that is found by a tag goes by it, also if the index has led to it. -/
theorem tag_of_findByTag (h : r.IsOrderly) {t : String}
    (hr : r.findByTag (.text t) = (.ok (some s), r')) : s.tag = some t := by
  simp only [findByTag, Value.asTextKey_text, Option.bind_some] at hr
  cases hi : Keyed.find r.tags t with
  | none => exact tag_of_search (by simpa only [hi] using hr)
  | some n =>
    -- the index is right before the store is opened, and opening it changes no tag
    have ho : r.reopen n = (.ok (some s), r') := by simpa only [hi] using hr
    obtain ⟨-, s₀, hs₀, htag⟩ := h.leads hi
    obtain ⟨s', hs', hgrows⟩ := (advances_reopen h n).stays hs₀
    rw [ho] at hs'
    obtain rfl : s = s' := Option.some.inj ((find_of_reopen h.toIsPlaced ho).symm.trans hs')
    exact hgrows.tag htag

theorem IsOrderly.sites_values (h : r.IsOrderly) :
    (Keyed.values r.stores).map (·.site) = Keyed.keys r.stores := by
  rw [Keyed.values, Keyed.keys, List.map_map]
  exact List.map_congr_left fun p hp ↦ h.site_eq (Keyed.find_of_mem h.nodup hp)

/-- After any calls no two open stores are of one site, and an entry of the index leads to an open
store that goes by the tag. What a call hands out is the store that is open for its site, and a
search by a tag hands out no store that goes by another. Until the process ends no store is closed,
and each keeps what is known of its owner and its being active. -/
theorem stores_of_accessAll (r₀ : Registry) (before after : List Access)
    (hr : r₀.restart.accessAll before = r) :
    ((Keyed.values r.stores).map (·.site)).Nodup ∧
      (∀ t n, Keyed.find r.tags t = some n →
        ∃ s, r.find n = some s ∧ s.site = n ∧ s.tag = some t) ∧
      (∀ a s r', r.access a = (.ok (some s), r') → r'.find s.site = some s) ∧
      (∀ t s r', r.access (.findByTag (.text t)) = (.ok (some s), r') → s.tag = some t) ∧
      (Access.close ∉ after → ∀ n s, r.find n = some s →
        ∃ s', (r.accessAll after).find n = some s' ∧ s.Grows s') := by
  have h : r.IsOrderly := hr ▸ (isOrderly_restart r₀).accessAll before
  refine ⟨h.sites_values ▸ h.nodup, fun t n ht ↦ ?_, fun a s r' ↦ find_of_access h,
    fun t s r' ↦ tag_of_findByTag h, fun hlast n s hs ↦ (advances_accessAll h hlast).stays hs⟩
  obtain ⟨-, s, hs, htag⟩ := h.leads ht
  exact ⟨s, hs, h.site_eq hs, htag⟩

theorem stores_of_accessAll_get_get :
    Access.close ∉ [Access.get 1 (some "other") (some 20), .findByTag (.text "tag")] ∧
      ∃ s, ((({} : Registry).restart.accessAll [.get 1 (some "tag") (some 10)]).accessAll
        [.get 1 (some "other") (some 20), .findByTag (.text "tag")]).find 1 = some s ∧
        s.tag = some "tag" ∧ s.team = some 10 := by
  have hlast : Access.close ∉
      [Access.get 1 (some "other") (some 20), .findByTag (.text "tag")] := by simp
  obtain ⟨-, -, -, -, hstays⟩ :=
    stores_of_accessAll ({} : Registry) [.get 1 (some "tag") (some 10)]
      [.get 1 (some "other") (some 20), .findByTag (.text "tag")] rfl
  obtain ⟨s, hs, hgrows⟩ := hstays hlast 1
    { site := 1, tag := some "tag", team := some 10 } rfl
  exact ⟨hlast, s, hs, hgrows.tag rfl, hgrows.team rfl⟩

end Registry

end Footfall
