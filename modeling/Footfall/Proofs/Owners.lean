import Footfall.Proofs.Run
import Mathlib.Data.Nat.Init
import Mathlib.Tactic.IntervalCases

/-!
Stores of sites whose records name one tag and one team. What an open store knows of its owner is
right, the databases have the names of their sites, and the index of the tags leads to every open
store with rows. Reads, writes and restarts keep all of this, and so a search by number or tag comes
to the store of the site, whichever stores are open.
-/

namespace Footfall

theorem Text.natural_toDigits (n : Nat) : Text.natural (Nat.toDigits 10 n) = n := by
  have hdigit {d : Nat} (h : d < 10) : (Nat.digitChar d).toNat - 48 = d := by
    interval_cases d <;> rfl
  induction n using Nat.strongRecOn with
  | _ n ih =>
    by_cases h : n < 10
    · simp [Nat.toDigits_of_lt_base h, natural, hdigit h]
    · have hlast := hdigit (Nat.mod_lt n (by decide))
      rw [Nat.toDigits_of_base_le (by decide) (by omega), natural, List.foldl_append]
      change 10 * natural (Nat.toDigits 10 (n / 10)) + ((n % 10).digitChar.toNat - 48) = n
      rw [ih (n / 10) (by omega), hlast, Nat.div_add_mod]

namespace Settings

theorem siteOfFile?_storeFile {n : Int} (h : 0 ≤ n) : siteOfFile? (storeFile n) = some n := by
  obtain ⟨k, rfl⟩ := Int.eq_ofNat_of_zero_le h
  have hdigits : ∀ c ∈ Nat.toDigits 10 k, Char.isDigit c = true := fun c hc ↦
    Nat.isDigit_of_mem_toDigits (by decide) (by decide) hc
  have hname : (storeFile k).toList = "site-".toList ++ (Nat.toDigits 10 k ++ ".db".toList) := by
    simp [storeFile, toString, Int.repr, Nat.repr]
  have hrest : after? "site-" (storeFile k) =
      some (String.ofList (Nat.toDigits 10 k ++ ".db".toList)) := by
    rw [after?, hname, if_pos (List.isPrefixOf_iff_prefix.2 (List.prefix_append ..))]
    exact congrArg (some <| String.ofList ·) (List.drop_left ..)
  have htake : (Nat.toDigits 10 k ++ ".db".toList).takeWhile Char.isDigit = Nat.toDigits 10 k := by
    rw [List.takeWhile_append_of_pos hdigits]
    exact List.append_nil _
  have hdrop : (Nat.toDigits 10 k ++ ".db".toList).dropWhile Char.isDigit = ".db".toList := by
    rw [List.dropWhile_append_of_pos hdigits]
    rfl
  simp only [siteOfFile?, hrest, String.toList_ofList, htake, hdrop, Text.natural_toDigits]
  simp [Nat.toDigits_ne_nil]

end Settings

/-- A tag and a team for each of some sites. No two of the sites have one tag. -/
structure Owners where
  sites : Int → Prop
  tag : Int → String
  team : Int → Int
  nonneg {n : Int} : sites n → 0 ≤ n
  tag_injOn {m n : Int} : sites m → sites n → tag m = tag n → m = n

namespace Owners

variable {o : Owners} {v : Value} {s : SiteStore} {c : Connection} {now : Instant}
  {rs : List EventRecord}

/-- A record of one of the sites, under the tag and the team of the site. -/
def Sends (o : Owners) (x : EventRecord) : Prop :=
  ∀ n, x.site = some n → o.sites n ∧ x.tag = o.tag n ∧ x.team = some (o.team n)

def Holds (o : Owners) (n : Int) (e : StoredEvent) : Prop :=
  o.sites n ∧ e.tag = o.tag n ∧ e.team = some (o.team n)

/-- A store of one of the sites. What it knows of its owner is right, and once it has found its
owner among its rows it knows all. -/
structure Knows (o : Owners) (v : Value) (s : SiteStore) : Prop where
  site : o.sites s.site
  maxRows : s.maxRows = v
  tag {t : String} : s.tag = some t → t = o.tag s.site
  team {u : Int} : s.team = some u → u = o.team s.site
  loaded : s.identityLoaded = true → s.tag = some (o.tag s.site) ∧ s.team = some (o.team s.site)

/-- The names of a site. -/
def Names (o : Owners) : SiteRef → Int → Prop
  | .number m, n => n = m
  | .tag t, n => o.tag n = t

theorem eq_of_names (o : Owners) {ref : SiteRef} {m n : Int} (hm : o.sites m) (hn : o.sites n)
    (h : o.Names ref m) (h' : o.Names ref n) : m = n := by
  cases ref with
  | number => exact Eq.trans h h'.symm
  | tag => exact o.tag_injOn hm hn (Eq.trans h h'.symm)

theorem Knows.of_state (h : o.Knows v s) (active schemaReady : Bool) :
    o.Knows v { s with active := active, schemaReady := schemaReady } :=
  ⟨h.site, h.maxRows, h.tag, h.team, h.loaded⟩

theorem Knows.prepared (h : o.Knows v c.store) : o.Knows v c.prepared.store := by
  unfold Connection.prepared
  split
  · exact h
  · exact h.of_state _ _

theorem Knows.identified (h : o.Knows v s) {e : StoredEvent} (he : o.Holds s.site e) :
    o.Knows v (s.identified e) := by
  have htag : s.tag.or (some e.tag) = some (o.tag s.site) := by
    cases hs : s.tag with
    | none => simp [he.2.1]
    | some t => simp [h.tag hs]
  have hteam : s.team.or e.team = some (o.team s.site) := by
    cases hs : s.team with
    | none => simp [he.2.2]
    | some u => simp [h.team hs]
  exact ⟨h.site, h.maxRows, fun ht ↦ Option.some.inj (ht.symm.trans htag),
    fun hu ↦ Option.some.inj (hu.symm.trans hteam), fun _ ↦ ⟨htag, hteam⟩⟩

theorem Knows.loadIdentity (h : o.Knows v c.store) (hc : c.IsSound)
    (hrows : ∀ e ∈ c.content, o.Holds c.store.site e) :
    o.Knows v c.loadIdentity.2.store ∧
      (c.content ≠ [] → c.loadIdentity.2.store.identityLoaded = true) := by
  cases hl : c.store.identityLoaded with
  | true =>
    rw [Connection.loadIdentity_of_loaded hl]
    exact ⟨h, fun _ ↦ hl⟩
  | false =>
    rw [Connection.loadIdentity_of_not_loaded hc hl]
    cases ht : c.content with
    | nil => exact ⟨h.prepared, fun hne ↦ absurd rfl hne⟩
    | cons oldest rest =>
      refine ⟨h.prepared.identified ?_, fun _ ↦ rfl⟩
      rw [Connection.site_prepared]
      exact hrows oldest (by simp [ht])

/-- A write changes the state of a store only. -/
theorem store_insertAll (hc : c.IsSound) (now : Instant) (hne : rs ≠ []) :
    ∃ active schemaReady, (c.insertAll now rs).2.store =
      { c.store with active := active, schemaReady := schemaReady } := by
  have hprepared : ∃ schemaReady, c.prepared.store =
      { c.store with schemaReady := schemaReady } := by
    unfold Connection.prepared
    split <;> exact ⟨_, rfl⟩
  obtain ⟨ready, hready⟩ := hprepared
  rw [Connection.insertAll_eq hc now hne]
  split
  · exact ⟨_, _, rfl⟩
  · split
    · exact ⟨_, _, hready⟩
    · exact ⟨true, ready, by simp only [hready]⟩

/-- A store that records of its site have come to, whether they were stored or not. -/
theorem Knows.insertAll (h : o.Knows v c.store) (hc : c.IsSound) (now : Instant) (hne : rs ≠ [])
    (hrs : ∀ x ∈ rs, x.site = some c.store.site ∧ o.Sends x)
    (hrows : ∀ e ∈ c.content, o.Holds c.store.site e) :
    o.Knows v (c.insertAll now rs).2.store ∧
      (c.insertAll now rs).2.store.tag = c.store.tag ∧
      ∀ e ∈ (c.insertAll now rs).2.content, o.Holds c.store.site e := by
  obtain ⟨active, ready, hstore⟩ := store_insertAll hc now hne
  obtain ⟨result, c', hi, -, -, -, -, hf⟩ :=
    Connection.insertAll_cases hc now hne fun x hx ↦ (hrs x hx).1
  rw [hi] at hstore ⊢
  refine ⟨hstore ▸ h.of_state active ready, by rw [hstore], fun e he ↦ ?_⟩
  rcases hf.mem he with he | ⟨-, x, hx, he⟩
  · exact hrows e he
  · obtain ⟨hn, htag, hteam⟩ := (hrs x hx).2 _ (hrs x hx).1
    rw [he]
    exact ⟨hn, htag, by simp [Entry.row, hteam]⟩

end Owners

namespace Registry

variable {α : Type} {r r' : Registry} {o : Owners} {v : Value} {s : SiteStore} {c : Connection}
  {n : Int}

theorem mem_persistedSites (hp : r.persistent = true) (hfiles : r.otherFiles = [])
    (hkeys : ∀ n ∈ Keyed.keys r.databases, 0 ≤ n) :
    n ∈ r.persistedSites ↔ n ∈ Keyed.keys r.databases := by
  simp only [persistedSites, Settings.persistedSites, files, hp, if_true, hfiles, List.append_nil,
    List.mem_mergeSort, List.mem_filterMap, List.mem_map]
  constructor
  · rintro ⟨_, ⟨m, hm, rfl⟩, hn⟩
    rw [Settings.siteOfFile?_storeFile (hkeys m hm)] at hn
    exact Option.some.inj hn ▸ hm
  · exact fun hn ↦ ⟨_, ⟨n, hn, rfl⟩, Settings.siteOfFile?_storeFile (hkeys n hn)⟩

theorem mem_keys_of_rowsOf (h : r.rowsOf n ≠ []) : n ∈ Keyed.keys r.databases := by
  by_contra hn
  refine h ?_
  cases hf : Keyed.find r.databases n with
  | none => simp [rowsOf, tableOf, hf]
  | some t => exact absurd (List.mem_map.2 ⟨_, Keyed.mem_of_find hf, rfl⟩) hn

/-- The stores of a directory that has the databases of some sites and no other files. What the
stores, their rows and the index of the tags say of the owners is right. -/
structure IsLabelled (r : Registry) (o : Owners) (v : Value) : Prop where
  isSound : r.IsSound
  persistent : r.persistent = true
  otherFiles : r.otherFiles = []
  maxRows : r.maxRows = v
  site {n : Int} : n ∈ Keyed.keys r.databases → o.sites n
  row {n : Int} {e : StoredEvent} : e ∈ r.rowsOf n → o.Holds n e
  store {n : Int} {s : SiteStore} : r.find n = some s → o.Knows v s
  index {t : String} {n : Int} : Keyed.find r.tags t = some n → o.sites n ∧ t = o.tag n

/-- The index leads to every open store with rows. An empty tag is in no index. -/
def IsIndexed (r : Registry) (o : Owners) : Prop :=
  ∀ n s, r.find n = some s → r.rowsOf n ≠ [] → o.tag n ≠ "" → Keyed.find r.tags (o.tag n) = some n

theorem tags_remember (r : Registry) (s : SiteStore) (t : String) :
    Keyed.find (r.remember s).tags t =
      if s.tag = some t ∧ t ≠ "" then some s.site else Keyed.find r.tags t := by
  unfold remember
  cases hs : s.tag with
  | none => simp
  | some u =>
    by_cases hu : u = ""
    · subst hu
      by_cases ht : t = ""
      · simp [ht]
      · simp [Ne.symm ht]
    · by_cases ht : u = t
      · subst ht
        simp [hu]
      · simp [hu, ht, Keyed.find_put]

@[simp] theorem databases_remember (r : Registry) (s : SiteStore) :
    (r.remember s).databases = r.databases := by
  unfold remember
  split
  · rfl
  · split <;> rfl

@[simp] theorem otherFiles_remember (r : Registry) (s : SiteStore) :
    (r.remember s).otherFiles = r.otherFiles := by
  unfold remember
  split
  · rfl
  · split <;> rfl

@[simp] theorem maxRows_remember (r : Registry) (s : SiteStore) :
    (r.remember s).maxRows = r.maxRows := by
  unfold remember
  split
  · rfl
  · split <;> rfl

namespace IsLabelled

theorem remember (h : r.IsLabelled o v) (hs : o.Knows v s) : (r.remember s).IsLabelled o v where
  isSound := h.isSound.remember s
  persistent := by simpa using h.persistent
  otherFiles := by simpa using h.otherFiles
  maxRows := by simpa using h.maxRows
  site hn := h.site (by simpa using hn)
  row he := h.row (by simpa using he)
  store hf := h.store (by simpa using hf)
  index {t n} ht := by
    rw [tags_remember] at ht
    split at ht
    · rename_i hst
      cases ht
      exact ⟨hs.site, hs.tag hst.1⟩
    · exact h.index ht

theorem save (h : r.IsLabelled o v) (hc : c.IsSound) (hs : o.Knows v c.store)
    (hready : c.store.schemaReady = true ∨ c.content = r.rowsOf c.store.site)
    (hrows : ∀ e ∈ c.content, o.Holds c.store.site e) : (r.save c).IsLabelled o v where
  isSound := h.isSound.save hc
  persistent := h.persistent
  otherFiles := h.otherFiles
  maxRows := h.maxRows
  site {n} hn := by
    obtain ⟨p, hp, rfl⟩ := List.mem_map.1 hn
    simp only [Registry.save] at hp
    split at hp
    · rcases Keyed.mem_put hp with rfl | hp
      · exact hs.site
      · exact h.site (List.mem_map.2 ⟨p, hp, rfl⟩)
    · exact h.site (List.mem_map.2 ⟨p, hp, rfl⟩)
  row {n e} he := by
    rw [rowsOf_save r hready] at he
    split at he
    · rename_i hn
      exact hn ▸ hrows e he
    · exact h.row he
  store {n s} hf := by
    rw [find_save] at hf
    split at hf
    · cases hf
      exact hs
    · exact h.store hf
  index := h.index

theorem knows_storeFor (h : r.IsLabelled o v) (hn : o.sites n) {tag : Option String}
    {team : Option Int} (htag : ∀ t, tag = some t → t = o.tag n)
    (hteam : ∀ u, team = some u → u = o.team n) : o.Knows v (r.storeFor n tag team) := by
  cases hf : Keyed.find r.stores n with
  | none =>
    simp only [storeFor, hf]
    exact ⟨hn, h.maxRows, htag _, hteam _, fun hl ↦ absurd hl (by simp)⟩
  | some s =>
    have hs := h.store hf
    have hsite := h.isSound.site_eq hf
    simp only [storeFor, hf]
    refine ⟨hs.site, hs.maxRows, fun {t} ht ↦ ?_, fun {u} hu ↦ ?_, fun hl ↦ ?_⟩
    · cases hst : s.tag with
      | some t' => exact Option.some.inj (by simpa [hst] using ht) ▸ hs.tag hst
      | none =>
        simp only [hst, Option.none_or, Option.filter_eq_some_iff] at ht
        exact hsite ▸ htag t ht.1
    · cases hsu : s.team with
      | some u' => exact Option.some.inj (by simpa [hsu] using hu) ▸ hs.team hsu
      | none => exact hsite ▸ hteam u (by simpa [hsu] using hu)
    · obtain ⟨ht, hu⟩ := hs.loaded hl
      simp [ht, hu]

theorem tag_storeFor (h : r.IsLabelled o v) (team : Option Int) (htag : o.tag n ≠ "") :
    (r.storeFor n (some (o.tag n)) team).tag = some (o.tag n) := by
  cases hf : Keyed.find r.stores n with
  | none => simp [storeFor, hf]
  | some s =>
    have hsite := h.isSound.site_eq hf
    cases ht : s.tag with
    | none => simp [storeFor, hf, ht, htag]
    | some t => simp [storeFor, hf, ht, (h.store hf).tag ht, hsite]

theorem obtain (h : r.IsLabelled o v) (hn : o.sites n) (tag : Option String)
    (team : Option Int) (htag : ∀ t, tag = some t → t = o.tag n)
    (hteam : ∀ u, team = some u → u = o.team n) : (r.obtain n tag team).2.IsLabelled o v := by
  have hs := h.knows_storeFor hn htag hteam
  have hput : IsLabelled { r with stores := r.stores.put n (r.storeFor n tag team) } o v := by
    refine ⟨⟨fun {m s} hf ↦ ?_, fun {m s} hf hready ↦ ?_⟩, h.persistent, h.otherFiles, h.maxRows,
      h.site, h.row, fun {m s} hf ↦ ?_, h.index⟩ <;>
    rw [find, Keyed.find_put] at hf <;> split at hf
    · cases hf
      exact (h.isSound.holds_storeFor n tag team).1.trans ‹n = m›
    · exact h.isSound.site_eq hf
    · cases hf
      exact ‹n = m› ▸ (h.isSound.holds_storeFor n tag team).2 hready
    · exact h.isSound.isSome_table hf hready
    · cases hf
      exact hs
    · exact h.store hf
  exact hput.remember hs

/-- Records of its site come to an open store. The store goes by the tag that it has gone by. -/
theorem save_insertAll (h : r.IsLabelled o v) (hs : r.find n = some s) (now : Instant)
    {rs : List EventRecord} (hne : rs ≠ []) (hrs : ∀ x ∈ rs, x.site = some n ∧ o.Sends x) :
    ∃ s', (r.save ((r.connect s).insertAll now rs).2).IsLabelled o v ∧ o.Knows v s' ∧
      s'.site = n ∧ s'.tag = s.tag ∧
      (∀ m ≠ n, (r.save ((r.connect s).insertAll now rs).2).find m = r.find m) ∧
      ∀ m ≠ n, (r.save ((r.connect s).insertAll now rs).2).rowsOf m = r.rowsOf m := by
  have hh := h.isSound.holds hs
  have hc := hh.isSound_connect
  have hcontent := hh.content_connect
  have hsite : (r.connect s).store.site = n := hh.1
  rw [← hsite] at hrs
  obtain ⟨hk, htag, hown⟩ := (h.store hs : o.Knows v (r.connect s).store).insertAll hc now hne hrs
    (by rw [hcontent, hsite]; exact fun e he ↦ h.row he)
  obtain ⟨result, c, hi, hc', hsite', -, hready, -⟩ := Connection.insertAll_cases hc now hne
    fun x hx ↦ (hrs x hx).1
  rw [hi] at hk htag hown ⊢
  rw [hsite] at hsite' hown
  have hready : c.store.schemaReady = true ∨ c.content = r.rowsOf c.store.site :=
    hready.imp_right fun hsame ↦ by rw [hsame, hcontent, hsite']
  refine ⟨c.store, h.save hc' hk hready (by rwa [hsite']), hk, hsite', htag, fun m hm ↦ ?_,
    fun m hm ↦ ?_⟩
  · rw [find_save, if_neg (hsite' ▸ hm.symm)]
  · rw [rowsOf_save _ hready, if_neg (hsite' ▸ hm.symm)]

theorem restart (h : r.IsLabelled o v) : r.restart.IsLabelled o v where
  isSound := isSound_restart r
  persistent := h.persistent
  otherFiles := h.otherFiles
  maxRows := h.maxRows
  site hn := h.site (by simpa [Registry.restart, h.persistent] using hn)
  row he := h.row (rowsOf_restart h.persistent _ ▸ he)
  store hf := by simp [Registry.restart, find] at hf
  index ht := by simp [Registry.restart] at ht

end IsLabelled

/-- A change of the store of one site keeps the index, if it leads to that store afterwards. -/
theorem IsIndexed.of_others (h : r.IsIndexed o) (hl : r.IsLabelled o v) (hs : o.Knows v s)
    (hfind : ∀ m ≠ s.site, r'.find m = r.find m) (hrows : ∀ m ≠ s.site, r'.rowsOf m = r.rowsOf m)
    (htags : ∀ t, Keyed.find r'.tags t = Keyed.find (r.remember s).tags t)
    (hself : r'.rowsOf s.site ≠ [] → o.tag s.site ≠ "" → s.tag = some (o.tag s.site)) :
    r'.IsIndexed o := by
  intro m s' hf hne htag
  rw [htags, tags_remember]
  by_cases hm : m = s.site
  · subst hm
    rw [if_pos ⟨hself hne htag, htag⟩]
  · rw [hrows m hm] at hne
    rw [hfind m hm] at hf
    rw [if_neg, h m s' hf hne htag]
    rintro ⟨hst, -⟩
    -- No two sites have one tag.
    exact hm (o.tag_injOn (hl.site (mem_keys_of_rowsOf hne)) hs.site (hs.tag hst))

/-- What the stores and the index say of the owners is right, and the index is complete. -/
structure IsCatalogued (r : Registry) (o : Owners) (v : Value) : Prop extends r.IsLabelled o v where
  indexed : r.IsIndexed o

/-- A store that has been opened. It knows its owner, if it has rows, and is in the index under the
tag that it knows; all else is as it was. -/
structure Reopens (r r' : Registry) (o : Owners) (v : Value) (n : Int) (s : SiteStore) : Prop where
  isLabelled : r'.IsLabelled o v
  find : r'.find n = some s
  find_of_ne {m : Int} : m ≠ n → r'.find m = r.find m
  rowsOf (m : Int) : r'.rowsOf m = r.rowsOf m
  tags (t : String) : Keyed.find r'.tags t = Keyed.find (r.remember s).tags t
  knows : o.Knows v s
  loaded : r.rowsOf n ≠ [] → s.identityLoaded = true

theorem Reopens.site_eq (h : r.Reopens r' o v n s) : s.site = n :=
  h.isLabelled.isSound.site_eq h.find

theorem IsLabelled.reopen_of_find (h : r.IsLabelled o v) (hs : r.find n = some s) :
    ∃ s' r', r.reopen n = (.ok (some s'), r') ∧ r.Reopens r' o v n s' := by
  have hh := h.isSound.holds hs
  have hsound := hh.isSound_connect
  have hcontent := hh.content_connect
  have hown : ∀ e ∈ (r.connect s).content, o.Holds (r.connect s).store.site e := by
    rw [hcontent, show (r.connect s).store.site = n from hh.1]
    exact fun e he ↦ h.row he
  obtain ⟨hk, hloaded⟩ := Owners.Knows.loadIdentity (h.store hs : o.Knows v (r.connect s).store)
    hsound hown
  have hfst := Connection.fst_loadIdentity hsound
  have hsite := (Connection.site_loadIdentity hsound).trans hh.1
  have hrows := (Connection.content_loadIdentity hsound).trans hcontent
  have hc := Connection.isSound_loadIdentity hsound
  have hr : r.reopen n = (.ok (some (r.connect s).loadIdentity.2.store),
      (r.save (r.connect s).loadIdentity.2).remember (r.connect s).loadIdentity.2.store) := by
    simp [reopen, hs, hfst]
  generalize (r.connect s).loadIdentity.2 = c at *
  have hsave : c.content = r.rowsOf c.store.site := hsite ▸ hrows
  refine ⟨_, _, hr, (h.save hc hk (.inr hsave) ?_).remember hk, ?_, fun hne ↦ ?_, fun m ↦ ?_,
    fun t ↦ ?_, hk, hcontent ▸ hloaded⟩
  · rw [hsave]
    exact fun e he ↦ h.row he
  · rw [find_remember, find_save, if_pos hsite]
  · rw [find_remember, find_save, if_neg (hsite ▸ hne.symm)]
  · rw [rowsOf_remember, rowsOf_save r (.inr hsave)]
    split
    · rename_i hm
      rw [hsave, hm]
    · rfl
  · rw [tags_remember, tags_remember]
    rfl

theorem IsLabelled.reopen_of_file (h : r.IsLabelled o v) (hf : r.find n = none)
    (hn : n ∈ r.persistedSites) :
    ∃ s r', r.reopen n = (.ok (some s), r') ∧ r.Reopens r' o v n s := by
  have hkeys : n ∈ Keyed.keys r.databases := (mem_persistedSites h.persistent h.otherFiles
    fun _ hm ↦ o.nonneg (h.site hm)).1 hn
  have hopened := h.obtain (h.site hkeys) none none (by simp) (by simp)
  have hfind := find_obtain r n none none
  have hstore : (r.storeFor n none none).tag = none := by
    have hf : Keyed.find r.stores n = none := hf
    simp [storeFor, hf]
  obtain ⟨s, r', hr, hs⟩ := hopened.reopen_of_find (by rw [hfind, if_pos rfl])
  have hrows (m : Int) : (r.obtain n none none).2.rowsOf m = r.rowsOf m := by
    simp [Registry.rowsOf]
  refine ⟨s, r', ?_, hs.isLabelled, hs.find, fun hne ↦ ?_, fun m ↦ (hs.rowsOf m).trans (hrows m),
    fun t ↦ ?_, hs.knows, fun hne ↦ hs.loaded (by rwa [hrows])⟩
  · rw [← hr]
    have hsome : (r.obtain n none none).2.find n = some (r.storeFor n none none) := by
      rw [hfind, if_pos rfl]
    simp [reopen, hf, hn, hsome]
    rfl
  · rw [hs.find_of_ne hne, hfind, if_neg hne.symm]
  · rw [hs.tags, tags_remember, tags_remember]
    congr 1
    simp [Registry.obtain, tags_remember, hstore]

/-- Only a site without a store and a file is not opened. A store that is opened knows its owner, if
it has rows. -/
theorem IsCatalogued.reopen (h : r.IsCatalogued o v) (n : Int) :
    (r.reopen n = (.ok none, r) ∧ r.rowsOf n = []) ∨
      ∃ s r', r.reopen n = (.ok (some s), r') ∧ r.Reopens r' o v n s ∧ r'.IsCatalogued o v := by
  have hl := h.toIsLabelled
  have hcat {s : SiteStore} {r' : Registry} (hs : r.Reopens r' o v n s) : r'.IsCatalogued o v := by
    refine ⟨hs.isLabelled, h.indexed.of_others hl hs.knows ?_ ?_ hs.tags fun hne htag ↦ ?_⟩
    · rw [hs.site_eq]
      exact fun m hm ↦ hs.find_of_ne hm
    · exact fun m _ ↦ hs.rowsOf m
    · rw [hs.rowsOf, hs.site_eq] at hne
      exact (hs.knows.loaded (hs.loaded hne)).1
  cases hf : r.find n with
  | some s =>
    obtain ⟨s, r', hr, hs⟩ := hl.reopen_of_find hf
    exact .inr ⟨s, r', hr, hs, hcat hs⟩
  | none =>
    by_cases hn : n ∈ r.persistedSites
    · obtain ⟨s, r', hr, hs⟩ := hl.reopen_of_file hf hn
      exact .inr ⟨s, r', hr, hs, hcat hs⟩
    · refine .inl ⟨by simp [Registry.reopen, hf, hn], ?_⟩
      by_contra hne
      exact hn ((mem_persistedSites h.persistent h.otherFiles fun _ hm ↦
        o.nonneg (h.site hm)).2 (mem_keys_of_rowsOf hne))

theorem same_ofText (tag : Option String) (t : String) :
    (Value.ofText tag).same (.text t) = (tag == some t) := by
  cases tag with
  | none => rfl
  | some u => simp [Value.ofText, Value.ofOption, Value.same]

/-- A search for a store. It keeps the catalogue and all rows, and a store that it comes to is open
and knows its owner, if it has rows. -/
structure Finds (r r' : Registry) (o : Owners) (v : Value)
    (result : Except Failure (Option SiteStore)) : Prop where
  isCatalogued : r'.IsCatalogued o v
  rowsOf (m : Int) : r'.rowsOf m = r.rowsOf m
  find {s : SiteStore} : result = .ok (some s) → r'.find s.site = some s
  loaded {s : SiteStore} : result = .ok (some s) → r.rowsOf s.site ≠ [] → s.identityLoaded = true

namespace IsCatalogued

theorem finds_reopen (h : r.IsCatalogued o v) (n : Int) :
    ∃ found r', r.reopen n = (.ok found, r') ∧ r.Finds r' o v (.ok found) ∧
      (∀ s, found = some s → s.site = n) ∧ (found = none → r.rowsOf n = []) := by
  rcases h.reopen n with ⟨hr, hrows⟩ | ⟨s, r', hr, hs, hcat⟩
  · exact ⟨none, r, hr, ⟨h, fun _ ↦ rfl, by simp, by simp⟩, by simp, fun _ ↦ hrows⟩
  · have hsite := hs.site_eq
    refine ⟨some s, r', hr, ⟨hcat, hs.rowsOf, ?_, ?_⟩, by simp [hsite], by simp⟩
    · rintro _ ⟨⟩
      exact hsite ▸ hs.find
    · rintro _ ⟨⟩
      exact hsite ▸ hs.loaded

/-- A search among some sites passes no site that has the tag and rows. -/
theorem finds_search (h : r.IsCatalogued o v) (t : String) (sites : List Int) :
    ∃ found r', r.search (.text t) sites = (.ok found, r') ∧ r.Finds r' o v (.ok found) ∧
      (∀ s, found = some s → o.tag s.site = t) ∧
      (found = none → ∀ n ∈ sites, o.tag n = t → r.rowsOf n = []) := by
  induction sites generalizing r with
  | nil => exact ⟨none, r, rfl, ⟨h, fun _ ↦ rfl, by simp, by simp⟩, by simp, by simp⟩
  | cons n rest ih =>
    obtain ⟨opened, r', hr, hc, hsite, hnone⟩ := h.finds_reopen n
    obtain ⟨found, r'', hr', hc', htag, hmiss⟩ := ih hc.isCatalogued
    have hc'' : r.Finds r'' o v (.ok found) :=
      ⟨hc'.isCatalogued, fun m ↦ (hc'.rowsOf m).trans (hc.rowsOf m), hc'.find,
        fun hs hne ↦ hc'.loaded hs (by rwa [hc.rowsOf])⟩
    simp only [hc.rowsOf] at hmiss
    -- The search ends at a store that goes by the tag, and passes all others.
    cases opened with
    | none =>
      refine ⟨found, r'', by simp [search, hr, hr'], hc'', htag, fun hf ↦ ?_⟩
      exact List.forall_mem_cons.2 ⟨fun _ ↦ hnone rfl, hmiss hf⟩
    | some s =>
      have hs := hc.isCatalogued.store (hc.find rfl)
      have hsite := hsite s rfl
      by_cases ht : s.tag = some t
      · refine ⟨some s, r', by simp [search, hr, same_ofText, ht], hc, ?_, by simp⟩
        rintro _ ⟨⟩
        exact (hs.tag ht).symm
      · have hother : (Value.ofText s.tag).same (.text t) = false := by
          rw [same_ofText, beq_eq_false_iff_ne]
          exact ht
        refine ⟨found, r'', by simp [search, hr, hother, hr'], hc'', htag, fun hf ↦ ?_⟩
        refine List.forall_mem_cons.2 ⟨fun hn ↦ ?_, hmiss hf⟩
        by_contra hne
        subst hsite
        exact ht (hn ▸ (hs.loaded (hc.loaded rfl hne)).1)

/-- A search by a tag comes to a store of a site with that tag, if there is one with rows. -/
theorem finds_tag (h : r.IsCatalogued o v) (t : String) :
    ∃ found r', r.findByTag (.text t) = (.ok found, r') ∧ r.Finds r' o v (.ok found) ∧
      (∀ s, found = some s → o.tag s.site = t) ∧
      (found = none → t ≠ "" → ∀ n, o.tag n = t → r.rowsOf n = []) := by
  cases hi : Keyed.find r.tags t with
  | some n =>
    have hfind : r.findByTag (.text t) = r.reopen n := by simp [findByTag, Value.asTextKey, hi]
    rw [hfind]
    obtain ⟨hn, htag⟩ := h.index hi
    obtain ⟨found, r', hr, hf, hsite, hnone⟩ := h.finds_reopen n
    refine ⟨found, r', hr, hf, fun s hs ↦ (hsite s hs).symm ▸ htag.symm, fun hf _ m hm ↦ ?_⟩
    by_contra hne
    obtain rfl := o.tag_injOn (h.site (mem_keys_of_rowsOf hne)) hn (hm.trans htag)
    exact hne (hnone hf)
  | none =>
    have hfind : r.findByTag (.text t) = r.search (.text t) r.unopened := by
      simp [findByTag, Value.asTextKey, hi]
    rw [hfind]
    obtain ⟨found, r', hr, hf, htag, hnone⟩ := h.finds_search t r.unopened
    refine ⟨found, r', hr, hf, htag, fun hf ht n hn ↦ ?_⟩
    by_contra hne
    -- A site that the search passes has its store open, and is in the index.
    cases hs : r.find n with
    | some s =>
      subst hn
      exact absurd hi (by simp [h.indexed n s hs hne ht])
    | none =>
      refine hne (hnone hf n ?_ hn)
      have hfile := (mem_persistedSites h.persistent h.otherFiles fun _ hm ↦
        o.nonneg (h.site hm)).2 (mem_keys_of_rowsOf hne)
      simpa [unopened, mem_distinct, hs] using hfile

theorem finds_number (h : r.IsCatalogued o v) (number : Value) :
    ∃ result r', r.findByNumber number = (result, r') ∧ r.Finds r' o v result := by
  unfold findByNumber
  split
  · exact ⟨_, r, rfl, h, fun _ ↦ rfl, by simp, by simp⟩
  · exact ⟨_, r, rfl, h, fun _ ↦ rfl, by simp, by simp⟩
  · rename_i n _
    obtain ⟨found, r', hr, hf, -⟩ := h.finds_reopen n
    exact ⟨_, r', hr, hf⟩

/-- A store that is taken only by its team is one that has been found. -/
theorem finds_filter {result : Except Failure (Option SiteStore)} (hf : r.Finds r' o v result)
    (p : SiteStore → Bool) : r.Finds r' o v (result.map (·.filter p)) := by
  have hsome {s : SiteStore} (hs : result.map (·.filter p) = .ok (some s)) :
      result = .ok (some s) := by
    cases result with
    | error e => cases hs
    | ok found => rw [(Option.filter_eq_some_iff.1 (Except.ok.inj hs)).1]
  exact ⟨hf.isCatalogued, hf.rowsOf, fun hs ↦ hf.find (hsome hs), fun hs ↦ hf.loaded (hsome hs)⟩

theorem finds_storeOf (h : r.IsCatalogued o v) (scope : Scope) :
    ∃ result r', r.storeOf scope = (result, r') ∧ r.Finds r' o v result := by
  cases hs : scope.site with
  | text t =>
    obtain ⟨found, r', hr, hf, -⟩ := h.finds_tag t
    exact ⟨_, r', by simp only [storeOf, hs, hr], finds_filter hf (·.team.all scope.isOfTeam)⟩
  | _ =>
    obtain ⟨result, r', hr, hf⟩ := h.finds_number scope.site
    rw [hs] at hr
    exact ⟨_, r', by simp only [storeOf, hs, hr], finds_filter hf (·.team.all scope.isOfTeam)⟩

/-- A site's number or tag leads to no store but the site's, and to that one if the site has rows.
Then only the team of the store takes it. -/
theorem finds_of (h : r.IsCatalogued o v) {ref : SiteRef} (href : ref ≠ .tag "") (team : Int) :
    ∃ found r', r.storeOf (.of ref team) =
        (.ok (found.filter fun s ↦ s.team.all (Scope.of ref team).isOfTeam), r') ∧
      r.Finds r' o v (.ok found) ∧ (∀ s, found = some s → o.Names ref s.site) ∧
      (found = none → ∀ n, o.Names ref n → r.rowsOf n = []) := by
  cases ref with
  | number n =>
    obtain ⟨found, r', hr, hf, hsite, hnone⟩ := h.finds_reopen n
    have hof : r.storeOf (.of (.number n) team) = ((r.reopen n).1.map fun found ↦
        found.filter fun s ↦ s.team.all (Scope.of (.number n) team).isOfTeam,
        (r.reopen n).2) := rfl
    exact ⟨found, r', by rw [hof, hr]; rfl, hf, hsite, fun hno _ hn ↦ hn ▸ hnone hno⟩
  | tag t =>
    obtain ⟨found, r', hr, hf, htag, hnone⟩ := h.finds_tag t
    have hof : r.storeOf (.of (.tag t) team) = ((r.findByTag (.text t)).1.map fun found ↦
        found.filter fun s ↦ s.team.all (Scope.of (.tag t) team).isOfTeam,
        (r.findByTag (.text t)).2) := rfl
    refine ⟨found, r', by rw [hof, hr]; rfl, hf, htag, fun hno ↦ hnone hno ?_⟩
    rintro rfl
    exact href rfl

/-- No team but the site's sees rows in the store that a site's number or tag leads to. Without a
store, the site has no rows or they are another team's. -/
theorem storeOf_of (h : r.IsCatalogued o v) {ref : SiteRef} (href : ref ≠ .tag "") (team : Int) :
    ∃ found r', r.storeOf (.of ref team) = (.ok found, r') ∧ r.Finds r' o v (.ok found) ∧
      (∀ s, found = some s → o.Names ref s.site ∧ (r.rowsOf s.site ≠ [] → o.team s.site = team)) ∧
      (found = none → ∀ n, o.Names ref n → r.rowsOf n ≠ [] → o.team n ≠ team) := by
  obtain ⟨found, r', hr, hf, hname, hnone⟩ := h.finds_of href team
  have hteam {s : SiteStore} (hs : found = some s) (hne : r.rowsOf s.site ≠ []) :
      s.team = some (o.team s.site) :=
    ((hf.isCatalogued.store (hf.find (congrArg _ hs))).loaded
      (hf.loaded (congrArg _ hs) hne)).2
  refine ⟨_, r', hr, finds_filter hf _, fun s hs ↦ ?_, fun hno n hn hne ↦ ?_⟩
  · obtain ⟨hs, hown⟩ := Option.filter_eq_some_iff.1 hs
    refine ⟨hname s hs, fun hne ↦ ?_⟩
    simpa [hteam hs hne, eq_comm] using hown
  · cases hs : found with
    | none => exact absurd (hnone hs n hn) hne
    | some s =>
      -- The store is that of the site, which knows its team: only another team is turned away.
      obtain rfl : n = s.site := o.eq_of_names (h.site (mem_keys_of_rowsOf hne))
        (hf.isCatalogued.store (hf.find (congrArg _ hs))).site hn (hname s hs)
      rintro rfl
      simp [hs, hteam hs hne] at hno

/-- Work with an open store that changes no row keeps the catalogue. -/
theorem save_idle (h : r.IsCatalogued o v) {f : Connection → Except Failure α × Connection}
    (hf : Connection.Idle f) (hs : r.find s.site = some s) :
    (r.save (f (r.connect s)).2).IsCatalogued o v ∧
      ∀ m, (r.save (f (r.connect s)).2).rowsOf m = r.rowsOf m := by
  have hh := h.isSound.holds hs
  have hc := hh.isSound_connect
  have hk : o.Knows v (r.connect s).store := h.store hs
  obtain ⟨hc', hk', hsite, hcontent⟩ : (f (r.connect s)).2.IsSound ∧
      o.Knows v (f (r.connect s)).2.store ∧ (f (r.connect s)).2.store.site = s.site ∧
      (f (r.connect s)).2.content = r.rowsOf s.site := by
    rcases hf _ hc with hi | hi <;> rw [hi]
    · exact ⟨hc, hk, rfl, hh.content_connect⟩
    · exact ⟨Connection.isSound_prepared hc, hk.prepared, Connection.site_prepared,
        Connection.content_prepared.trans hh.content_connect⟩
  generalize (f (r.connect s)).2 = c at *
  rw [← hsite] at hcontent
  have hrows (m : Int) : (r.save c).rowsOf m = r.rowsOf m := by
    rw [rowsOf_save r (.inr hcontent)]
    split
    · rename_i hm
      rw [hcontent, hm]
    · rfl
  refine ⟨⟨h.save hc' hk' (.inr hcontent) fun e he ↦ h.row (hcontent ▸ he), ?_⟩, hrows⟩
  intro m s' hf' hne htag
  rw [hrows] at hne
  rw [find_save] at hf'
  split at hf'
  · exact h.indexed m s (by rwa [← ‹c.store.site = m›, hsite]) hne htag
  · exact h.indexed m s' hf' hne htag

theorem read (h : r.IsCatalogued o v) {f : Connection → Except Failure α × Connection}
    (hf : Connection.Idle f) (scope : Scope) (absent : Except Failure α) :
    (r.read scope absent f).2.IsCatalogued o v ∧
      ∀ m, (r.read scope absent f).2.rowsOf m = r.rowsOf m := by
  obtain ⟨result, r', hr, hfind⟩ := h.finds_storeOf scope
  rcases result with e | _ | s
  · simpa [Registry.read, hr] using ⟨hfind.isCatalogued, hfind.rowsOf⟩
  · simpa [Registry.read, hr] using ⟨hfind.isCatalogued, hfind.rowsOf⟩
  · obtain ⟨hcat, hrows⟩ := hfind.isCatalogued.save_idle hf (hfind.find rfl)
    simpa [Registry.read, hr] using ⟨hcat, fun m ↦ (hrows m).trans (hfind.rowsOf m)⟩

theorem insertPart (h : r.IsCatalogued o v) (now : Instant) {part : List EventRecord}
    (hne : part ≠ []) (hpart : ∀ x ∈ part, x.site = some n ∧ o.Sends x) :
    (r.insertPart now n part).2.IsCatalogued o v := by
  obtain ⟨x, rest, rfl⟩ := List.exists_cons_of_ne_nil hne
  obtain ⟨hn, htag, hteam⟩ := (hpart x (by simp)).2 n (hpart x (by simp)).1
  have hopened := h.toIsLabelled.obtain hn (some x.tag) x.team (by simp [htag]) (by simp [hteam])
  have hfind := find_obtain r n (some x.tag) x.team
  obtain ⟨s, hl, hk, rfl, hstored, hfinds, hrows⟩ := hopened.save_insertAll
    (by rw [hfind, if_pos rfl]) now hne hpart
  refine ⟨hl, h.indexed.of_others h.toIsLabelled hk (fun m hm ↦ ?_) (fun m hm ↦ ?_) (fun t ↦ ?_)
    fun _ hne ↦ ?_⟩
  · exact (hfinds m hm).trans (by rw [hfind, if_neg hm.symm])
  · exact (hrows m hm).trans (by simp [Registry.rowsOf])
  · have hsite : (r.storeFor s.site (some x.tag) x.team).site = s.site :=
      (h.isSound.holds_storeFor ..).1
    change Keyed.find (r.obtain s.site (some x.tag) x.team).2.tags t = _
    simp only [Registry.obtain, tags_remember, hstored, hsite]
  · rw [hstored, htag]
    exact h.tag_storeFor x.team hne

theorem insertAll (h : r.IsCatalogued o v) (now : Instant) {records : List EventRecord}
    (hrecords : ∀ x ∈ records, o.Sends x) : (r.insertAll now records).2.IsCatalogued o v := by
  refine insertAll_keeps (P := fun r ↦ r.IsCatalogued o v) h fun r' site part hcomes h' ↦ ?_
  obtain ⟨hne, hpart⟩ := hcomes.records
  exact h'.insertPart now hne fun x hx ↦ ⟨(hpart x hx).2, hrecords x (hpart x hx).1⟩

theorem restart (h : r.IsCatalogued o v) : r.restart.IsCatalogued o v :=
  ⟨h.toIsLabelled.restart, fun n s hf ↦ by simp [Registry.restart, Registry.find] at hf⟩

end IsCatalogued

end Registry

end Footfall
