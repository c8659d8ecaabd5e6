import Footfall.Proofs.Files
import Footfall.Proofs.History
import Footfall.Proofs.Keeping

/-!
Tables that are taken away. Others who share a database may drop the table of a store at any time. A
store that has made its table before does not make it again, so that the table stays away until the
process ends; what a read then finds depends on whether the store has found out whose it is.
-/

namespace Footfall

variable {α : Type}

namespace Connection

variable {c c' c'' : Connection}

theorem prepared_of_ready (h : c.store.schemaReady = true) : c.prepared = c := by
  rw [prepared, if_pos h]

/-- Work with a store that at most makes its table. -/
def Prepares (f : Connection → Except Failure α × Connection) : Prop :=
  ∀ c : Connection, (f c).2 = c ∨ (f c).2 = c.prepared

theorem prepares_read (q : Table → Except Failure α) : Prepares (·.read q) := fun _ ↦ .inr rfl

theorem prepares_list (f : EventFilters) : Prepares (·.list f) := by
  intro c
  right
  dsimp only [list]
  cases c.prepared.table <;> rfl

theorem prepares_run (q : TableQuery) (limit : Value) : Prepares (·.run q limit) := by
  intro c
  cases h : rowBound limit c.store.maxRows with
  | error e => exact .inl (by simp only [run, h])
  | ok bound => exact .inr (by simp only [run, h])

/-- How a store goes on as long as its process lasts: a table that it has made it does not make
again. -/
structure Lasts (c c' : Connection) : Prop where
  site : c'.store.site = c.store.site
  maxRows : c'.store.maxRows = c.store.maxRows
  ready : c.store.schemaReady = true → c'.store.schemaReady = true
  lost : c.store.schemaReady = true → c.table = none → c'.table = none

theorem Lasts.refl (c : Connection) : c.Lasts c := ⟨rfl, rfl, id, fun _ ↦ id⟩

theorem Lasts.trans (h : c.Lasts c') (h' : c'.Lasts c'') : c.Lasts c'' :=
  ⟨h'.site.trans h.site, h'.maxRows.trans h.maxRows, fun hs ↦ h'.ready (h.ready hs),
    fun hs ht ↦ h'.lost (h.ready hs) (h.lost hs ht)⟩

theorem lasts_prepared (c : Connection) : c.Lasts c.prepared := by
  unfold prepared
  split
  · exact .refl c
  · rename_i hs
    exact ⟨rfl, rfl, fun h ↦ absurd h hs, fun h ↦ absurd h hs⟩

theorem Prepares.lasts {f : Connection → Except Failure α × Connection} (hf : Prepares f)
    (c : Connection) : c.Lasts (f c).2 := by
  rcases hf c with h | h <;> rw [h]
  · exact .refl c
  · exact lasts_prepared c

theorem lasts_loadIdentity (c : Connection) : c.Lasts c.loadIdentity.2 := by
  unfold loadIdentity
  split
  · exact .refl c
  · refine (lasts_prepared c).trans ?_
    dsimp only
    cases ht : c.prepared.table with
    | none => exact .refl _
    | some t =>
      cases t with
      | nil => exact .refl _
      | cons oldest rest => exact ⟨rfl, rfl, id, fun _ hnone ↦ by cases ht.symm.trans hnone⟩

theorem lasts_insertAll (c : Connection) (now : Instant) (records : List EventRecord) :
    c.Lasts (c.insertAll now records).2 := by
  unfold insertAll
  split
  · exact .refl c
  · cases records.forM c.store.checkRecord with
    | error e => exact .refl c
    | ok u =>
      refine (lasts_prepared c).trans ?_
      change c.prepared.Lasts (c.prepared.write now records).2
      unfold write
      cases ht : c.prepared.table with
      | none => exact .refl _
      | some t =>
        cases h : t.addAll now (records.map c.prepared.store.entry) with
        | error f => simpa only [h] using Lasts.refl _
        | ok p =>
          simp only [h]
          exact ⟨rfl, rfl, id, fun _ hnone ↦ by simp [ht] at hnone⟩

/-- A store finds out whose it is when it is asked for that and has rows. -/
theorem identityLoaded_loadIdentity (c : Connection) :
    c.loadIdentity.2.store.identityLoaded = true ↔
      c.store.identityLoaded = true ∨ c.content ≠ [] := by
  cases h : c.store.identityLoaded with
  | true => simp [loadIdentity_of_loaded h, h]
  | false =>
    rw [← content_prepared]
    simp only [loadIdentity, h, Bool.false_eq_true, if_false, false_or, content]
    cases c.prepared.table with
    | none => simp [h]
    | some t => cases t <;> simp [h, SiteStore.identified]

theorem identityLoaded_insertAll (c : Connection) (now : Instant) (records : List EventRecord) :
    (c.insertAll now records).2.store.identityLoaded = c.store.identityLoaded := by
  unfold insertAll
  split
  · rfl
  · cases records.forM c.store.checkRecord with
    | error e => rfl
    | ok u =>
      refine Eq.trans ?_ identityLoaded_prepared
      unfold write
      cases c.prepared.table with
      | none => rfl
      | some t =>
        cases h : t.addAll now (records.map c.prepared.store.entry) <;> simp only [h]

/-- A store that has made its table and does not find it any more. -/
structure IsBroken (c : Connection) : Prop where
  ready : c.store.schemaReady = true
  table : c.table = none

theorem IsBroken.prepared (h : c.IsBroken) : c.prepared = c := prepared_of_ready h.ready

theorem IsBroken.loadIdentity (h : c.IsBroken) : c.loadIdentity =
    (if c.store.identityLoaded then .ok () else .error c.outage, c) := by
  cases hl : c.store.identityLoaded <;> simp [Connection.loadIdentity, hl, h.prepared, h.table]

theorem IsBroken.fst_read (h : c.IsBroken) (q : Table → Except Failure α) :
    (c.read q).1 = .error c.outage := by
  simp [read, rows, h.prepared, h.table, bind, Except.bind]

theorem IsBroken.fst_list (h : c.IsBroken) (f : EventFilters) :
    (c.list f).1 = .ok (.failed f) := by
  simp [list, h.prepared, h.table]

end Connection

namespace Registry

variable {r r' r'' : Registry} {c : Connection} {n m : Int} {s : SiteStore}

/-- Every open store stands under its own site, and allows queries as many rows as all do. -/
structure IsPlaced (r : Registry) : Prop where
  site_eq {n : Int} {s : SiteStore} : r.find n = some s → s.site = n
  maxRows_eq {n : Int} {s : SiteStore} : r.find n = some s → s.maxRows = r.maxRows

/-- The store of a site is open and has made its table. -/
def HasMade (r : Registry) (n : Int) : Prop := ∃ s, r.find n = some s ∧ s.schemaReady = true

/-- The table that the store of a site has made is not there any more. -/
structure HasLost (r : Registry) (n : Int) : Prop where
  made : r.HasMade n
  table : r.tableOf n = none

/-- Whether the open store of a site has found out whose it is. -/
def isLoaded (r : Registry) (n : Int) : Bool := (r.find n).any (·.identityLoaded)

/-- How the stores go on as long as their process lasts. -/
structure Lasts (r r' : Registry) : Prop where
  isPlaced : r'.IsPlaced
  maxRows : r'.maxRows = r.maxRows
  made {n : Int} : r.HasMade n → r'.HasMade n
  lost {n : Int} : r.HasLost n → r'.tableOf n = none

theorem Lasts.refl (h : r.IsPlaced) : r.Lasts r := ⟨h, rfl, id, (·.table)⟩

theorem Lasts.hasLost (h : r.Lasts r') (hn : r.HasLost n) : r'.HasLost n :=
  ⟨h.made hn.made, h.lost hn⟩

theorem Lasts.trans (h : r.Lasts r') (h' : r'.Lasts r'') : r.Lasts r'' :=
  ⟨h'.isPlaced, h'.maxRows.trans h.maxRows, fun hn ↦ h'.made (h.made hn),
    fun hn ↦ h'.lost (h.hasLost hn)⟩

theorem isPlaced_of_closed (h : ∀ n, r.find n = none) : r.IsPlaced :=
  ⟨fun hs ↦ by simp [h] at hs, fun hs ↦ by simp [h] at hs⟩

@[simp] theorem isLoaded_remember (r : Registry) (s : SiteStore) (n : Int) :
    (r.remember s).isLoaded n = r.isLoaded n := by
  simp [isLoaded]

theorem Lasts.remember (h : r.Lasts r') (s : SiteStore) : r.Lasts (r'.remember s) := by
  refine ⟨⟨fun hs ↦ h.isPlaced.site_eq (by simpa using hs), fun hs ↦ ?_⟩, ?_, fun hn ↦ ?_,
    fun hn ↦ ?_⟩
  · rw [maxRows_remember]
    exact h.isPlaced.maxRows_eq (by simpa using hs)
  · simpa using h.maxRows
  · obtain ⟨s', hs', hready⟩ := h.made hn
    exact ⟨s', by simpa using hs', hready⟩
  · simpa using h.lost hn

theorem lasts_save (h : r.IsPlaced) (hs : r.find n = some s) (hc : (r.connect s).Lasts c) :
    r.Lasts (r.save c) := by
  have hn := h.site_eq hs
  have hsite : c.store.site = n := hc.site.trans hn
  have hconnect : (r.connect s).table = r.tableOf n := by rw [connect, hn]
  refine ⟨⟨fun hm ↦ ?_, fun hm ↦ ?_⟩, rfl, fun hm ↦ ?_, fun hm ↦ ?_⟩
  · rw [find_save] at hm
    split at hm
    · cases hm
      assumption
    · exact h.site_eq hm
  · rw [find_save] at hm
    split at hm
    · cases hm
      exact hc.maxRows.trans (h.maxRows_eq hs)
    · exact h.maxRows_eq hm
  · obtain ⟨s', hs', hready⟩ := hm
    rename_i other
    by_cases hsame : c.store.site = other
    · refine ⟨c.store, by rw [find_save, if_pos hsame], hc.ready ?_⟩
      rw [← hsame, hsite, hs] at hs'
      cases hs'
      exact hready
    · exact ⟨s', by rw [find_save, if_neg hsame, hs'], hready⟩
  · rename_i other
    rw [tableOf_save]
    split
    · rename_i hready
      obtain rfl : n = other := hsite.symm.trans hready.2
      obtain ⟨⟨s', hs', hready'⟩, htable⟩ := hm
      rw [hs] at hs'
      cases hs'
      exact hc.lost hready' (hconnect.trans htable)
    · exact hm.table

theorem isLoaded_save (r : Registry) (c : Connection) (n : Int) :
    (r.save c).isLoaded n =
      if c.store.site = n then c.store.identityLoaded else r.isLoaded n := by
  rw [isLoaded, find_save]
  split <;> rfl

theorem IsPlaced.site_storeFor (h : r.IsPlaced) (n : Int) (tag : Option String) (team : Option Int) :
    (r.storeFor n tag team).site = n := by
  cases hf : Keyed.find r.stores n with
  | none => simp only [storeFor, hf]
  | some s =>
    simp only [storeFor, hf]
    exact h.site_eq hf

theorem identityLoaded_storeFor (r : Registry) (n : Int) (tag : Option String)
    (team : Option Int) : (r.storeFor n tag team).identityLoaded = r.isLoaded n := by
  cases hf : Keyed.find r.stores n <;> simp [storeFor, isLoaded, find, hf]

theorem lasts_obtain (h : r.IsPlaced) (n : Int) (tag : Option String) (team : Option Int) :
    r.Lasts (r.obtain n tag team).2 := by
  refine ⟨⟨fun hs ↦ ?_, fun hs ↦ ?_⟩, ?_, fun hm ↦ ?_, fun hm ↦ ?_⟩
  · rw [find_obtain] at hs
    split at hs
    · cases hs
      exact (h.site_storeFor ..).trans ‹_›
    · exact h.site_eq hs
  · have hmax : (r.obtain n tag team).2.maxRows = r.maxRows := maxRows_remember ..
    rw [hmax]
    rw [find_obtain] at hs
    split at hs
    · cases hs
      cases hf : Keyed.find r.stores n with
      | none => simp only [storeFor, hf]
      | some s =>
        simp only [storeFor, hf]
        exact h.maxRows_eq hf
    · exact h.maxRows_eq hs
  · exact maxRows_remember ..
  · obtain ⟨s, hs, hready⟩ := hm
    rename_i other
    by_cases hsame : n = other
    · subst hsame
      have hf : Keyed.find r.stores n = some s := hs
      exact ⟨_, by rw [find_obtain, if_pos rfl], by simpa only [storeFor, hf] using hready⟩
    · exact ⟨s, by rw [find_obtain, if_neg hsame, hs], hready⟩
  · simpa using hm.table

@[simp] theorem isLoaded_obtain (r : Registry) (n : Int) (tag : Option String)
    (team : Option Int) (m : Int) : (r.obtain n tag team).2.isLoaded m = r.isLoaded m := by
  rw [isLoaded, find_obtain]
  split
  · rename_i hsame
    rw [Option.any_some, identityLoaded_storeFor, hsame]
  · rfl

/-- The store of an openable site after it has been asked whose it is. -/
def identify (r : Registry) (s : SiteStore) : Except Failure (Option SiteStore) × Registry :=
  match (r.connect s).loadIdentity with
  | (.error e, c) => (.error e, r.save c)
  | (.ok (), c) => (.ok (some c.store), (r.save c).remember c.store)

theorem reopen_eq (r : Registry) (n : Int) :
    r.reopen n = if (r.find n).isNone && !r.persistedSites.contains n then (.ok none, r)
      else match r.find n with
        | some s => r.identify s
        | none => (r.obtain n none none).2.identify (r.storeFor n none none) := by
  unfold reopen
  split
  · rfl
  · cases r.find n with
    | some s =>
      rcases hl : (r.connect s).loadIdentity with ⟨_ | _, c⟩ <;> simp only [identify, hl]
    | none =>
      rcases ho : r.obtain n none none with ⟨s, opened⟩
      have hs : r.storeFor n none none = s := congrArg Prod.fst ho
      rcases hl : (opened.connect s).loadIdentity with ⟨_ | _, c⟩ <;>
        simp only [identify, hs, hl]

theorem lasts_identify (h : r.IsPlaced) (hs : r.find n = some s) : r.Lasts (r.identify s).2 := by
  have hsave := lasts_save h hs (r.connect s).lasts_loadIdentity
  unfold identify
  rcases hl : (r.connect s).loadIdentity with ⟨_ | _, c⟩ <;> rw [hl] at hsave
  · exact hsave
  · exact hsave.remember _

/-- From a state to another the stores have been asked whose they are, at the sites that were come
to. No row has changed. -/
structure Looks (r r' : Registry) (seen : Int → Prop) : Prop where
  lasts : r.Lasts r'
  rowsOf (n : Int) : r'.rowsOf n = r.rowsOf n
  isLoaded (n : Int) : r'.isLoaded n = true ↔ r.isLoaded n = true ∨ seen n ∧ r.rowsOf n ≠ []

variable {seen seen' : Int → Prop}

theorem Looks.refl (h : r.IsPlaced) : r.Looks r fun _ ↦ False :=
  ⟨.refl h, fun _ ↦ rfl, fun n ↦ by simp⟩

theorem Looks.trans (h : r.Looks r' seen) (h' : r'.Looks r'' seen') :
    r.Looks r'' fun n ↦ seen n ∨ seen' n := by
  refine ⟨h.lasts.trans h'.lasts, fun n ↦ (h'.rowsOf n).trans (h.rowsOf n), fun n ↦ ?_⟩
  rw [h'.isLoaded, h.isLoaded, h.rowsOf]
  tauto

theorem Looks.congr (h : r.Looks r' seen) (hseen : ∀ n, seen' n ↔ seen n) : r.Looks r' seen' :=
  ⟨h.lasts, h.rowsOf, fun n ↦ by rw [h.isLoaded, hseen]⟩

/-- Work on an open store that changes no row, and finds out whose it is where it is looked at. -/
theorem looks_save (h : r.IsPlaced) (hs : r.find n = some s) (hc : (r.connect s).Lasts c)
    (hrows : c.content = r.rowsOf n)
    (hloaded : c.store.identityLoaded = true ↔ s.identityLoaded = true ∨ seen n ∧ r.rowsOf n ≠ [])
    (hseen : ∀ m, seen m → m = n) : r.Looks (r.save c) seen := by
  have hsite : c.store.site = n := hc.site.trans (h.site_eq hs)
  refine ⟨lasts_save h hs hc, fun m ↦ ?_, fun m ↦ ?_⟩
  · rw [rowsOf_save r (.inr (hsite ▸ hrows))]
    split
    · rename_i hm
      rw [hrows, ← hm, hsite]
    · rfl
  · rw [isLoaded_save, hsite]
    split
    · rename_i hm
      subst hm
      rw [hloaded, isLoaded, hs, Option.any_some]
    · rename_i hm
      have hnot : ¬seen m := fun hsm ↦ hm (hseen m hsm).symm
      simp [hnot]

theorem looks_identify (h : r.IsPlaced) (hs : r.find n = some s) :
    r.Looks (r.identify s).2 (· = n) := by
  have hcontent : (r.connect s).content = r.rowsOf n := by
    rw [Connection.content, connect, h.site_eq hs, Registry.rowsOf]
  have hloaded := (r.connect s).identityLoaded_loadIdentity
  have hsave : r.Looks (r.save (r.connect s).loadIdentity.2) (· = n) := by
    refine looks_save h hs (r.connect s).lasts_loadIdentity ?_ ?_ fun _ ↦ id
    · rw [Connection.content_identified, hcontent]
    · rw [hloaded, hcontent]
      simp [connect]
  refine ⟨lasts_identify h hs, fun m ↦ ?_, fun m ↦ ?_⟩ <;> unfold identify <;>
    rcases hl : (r.connect s).loadIdentity with ⟨_ | _, c⟩ <;> rw [hl] at hsave
  · exact hsave.rowsOf m
  · exact (rowsOf_remember ..).trans (hsave.rowsOf m)
  · exact hsave.isLoaded m
  · rw [isLoaded_remember]
    exact hsave.isLoaded m

theorem looks_obtain (h : r.IsPlaced) (n : Int) (tag : Option String) (team : Option Int) :
    r.Looks (r.obtain n tag team).2 fun _ ↦ False :=
  ⟨lasts_obtain h .., fun m ↦ by simp [Registry.rowsOf], fun m ↦ by simp⟩

/-- A lookup of a site opens its store, if there is any, and asks it whose it is. -/
theorem reopen_identifies (h : r.IsPlaced) (n : Int) :
    (¬r.IsOpenable n ∧ r.reopen n = (.ok none, r)) ∨
      r.IsOpenable n ∧ ∃ opened s, r.Looks opened (fun _ ↦ False) ∧ opened.find n = some s ∧
        (∀ s₀, r.find n = some s₀ → opened = r ∧ s = s₀) ∧ r.reopen n = opened.identify s := by
  have hopenable : ((r.find n).isNone && !r.persistedSites.contains n) = true ↔
      ¬r.IsOpenable n := by
    cases hf : r.find n <;> simp [IsOpenable, hf]
  rw [reopen_eq]
  split
  · rename_i hcond
    exact .inl ⟨hopenable.1 hcond, rfl⟩
  · rename_i hcond
    refine .inr ⟨not_not.1 fun hn ↦ hcond (hopenable.2 hn), ?_⟩
    cases hf : r.find n with
    | some s =>
      exact ⟨r, s, .refl h, hf, by rintro s₀ ⟨⟩; exact ⟨rfl, rfl⟩, rfl⟩
    | none =>
      exact ⟨_, _, looks_obtain h n none none, by rw [find_obtain, if_pos rfl],
        fun s₀ hs₀ ↦ (by cases hs₀), rfl⟩

theorem looks_reopen (h : r.IsPlaced) (n : Int) :
    r.Looks (r.reopen n).2 fun m ↦ n = m ∧ r.IsOpenable m := by
  rcases reopen_identifies h n with ⟨hn, hr⟩ | ⟨hn, opened, s, ho, hs, -, hr⟩ <;> rw [hr]
  · refine (Looks.refl h).congr fun m ↦ iff_of_false ?_ id
    rintro ⟨rfl, hm⟩
    exact hn hm
  · refine (ho.trans (looks_identify ho.lasts.isPlaced hs)).congr fun m ↦ ?_
    rw [false_or]
    constructor
    · rintro ⟨rfl, -⟩
      rfl
    · rintro rfl
      exact ⟨rfl, hn⟩

theorem find_of_reopen (h : r.IsPlaced) (hr : r.reopen n = (.ok (some s), r')) :
    r'.find n = some s := by
  rcases reopen_identifies h n with ⟨-, hn⟩ | ⟨-, opened, s₀, ho, hs, -, ho'⟩
  · cases hn.symm.trans hr
  · rw [ho', identify] at hr
    have hsite : (opened.connect s₀).loadIdentity.2.store.site = n :=
      (opened.connect s₀).lasts_loadIdentity.site.trans (ho.lasts.isPlaced.site_eq hs)
    rcases hl : (opened.connect s₀).loadIdentity with ⟨_ | _, c⟩ <;> rw [hl] at hr hsite
    · cases hr
    · cases hr
      rw [find_remember, find_save, if_pos hsite]

/-- A search for a tag comes to a site, unless it has come to its end before. -/
def Searches (tag : Value) (n : Int) : Registry → List Int → Prop
  | _, [] => False
  | r, m :: rest => m = n ∧ r.IsOpenable n ∨
    match r.reopen m with
    | (.ok (some s), r') => (Value.ofText s.tag).same tag = false ∧ Searches tag n r' rest
    | (.ok none, r') => Searches tag n r' rest
    | (.error _, _) => False

theorem looks_search (h : r.IsPlaced) (tag : Value) (sites : List Int) :
    r.Looks (r.search tag sites).2 fun n ↦ Searches tag n r sites := by
  induction sites generalizing r with
  | nil => exact .refl h
  | cons m rest ih =>
    have hm := looks_reopen h m
    simp only [search, Searches]
    rcases hr : r.reopen m with ⟨_ | _ | s, r'⟩ <;> rw [hr] at hm
    · exact hm.congr fun n ↦ by simp
    · exact hm.trans (ih hm.lasts.isPlaced)
    · dsimp only
      cases ht : (Value.ofText s.tag).same tag with
      | true => exact hm.congr fun n ↦ by simp
      | false => exact (hm.trans (ih hm.lasts.isPlaced)).congr fun n ↦ by simp

theorem find_of_search (h : r.IsPlaced) {tag : Value} {sites : List Int}
    (hr : r.search tag sites = (.ok (some s), r')) : r'.find s.site = some s := by
  induction sites generalizing r with
  | nil => cases hr
  | cons m rest ih =>
    have hm := (looks_reopen h m).lasts
    rw [search] at hr
    rcases ho : r.reopen m with ⟨_ | _ | s₀, r₀⟩ <;> rw [ho] at hm hr
    · cases hr
    · exact ih hm.isPlaced hr
    · dsimp only at hr
      split at hr
      · cases hr
        have hs := find_of_reopen h ho
        rwa [hm.isPlaced.site_eq hs]
      · exact ih hm.isPlaced hr

/-- A scope names the site by its number, or by a tag that is known as that of its store. -/
def Leads (r : Registry) (s : Scope) (n : Int) : Prop :=
  match s.site with
  | .text t => Keyed.find r.tags t = some n
  | v => v.asNumberKey = .ok (some n)

/-- A lookup comes to the store of a site: the scope names the site, or its store is opened in search
of a tag that is not known. -/
def Asks (r : Registry) (s : Scope) (n : Int) : Prop :=
  r.Leads s n ∧ r.IsOpenable n ∨
    ∃ t, s.site = .text t ∧ Keyed.find r.tags t = none ∧ Searches (.text t) n r r.unopened

theorem storeOf_of_leads {s : Scope} (h : r.Leads s n) :
    r.storeOf s = ((r.reopen n).1.map (·.filter fun store ↦ store.team.all s.isOfTeam),
      (r.reopen n).2) := by
  unfold storeOf
  unfold Leads at h
  cases hs : s.site <;> simp only [hs] at h ⊢
  case text t => simp [findByTag, h]
  all_goals simp [findByNumber, h]

theorem looks_storeOf (h : r.IsPlaced) (s : Scope) : r.Looks (r.storeOf s).2 (r.Asks s) := by
  have hnumber (v : Value) (hv : ∀ t, v ≠ .text t) :
      r.Looks (r.findByNumber v).2 fun n ↦ v.asNumberKey = .ok (some n) ∧ r.IsOpenable n := by
    unfold findByNumber
    rcases hk : v.asNumberKey with _ | _ | m
    · exact (Looks.refl h).congr fun n ↦ by simp
    · exact (Looks.refl h).congr fun n ↦ by simp
    · exact (looks_reopen h m).congr fun n ↦ by simp
  have htag (t : String) : r.Looks (r.findByTag (.text t)).2 fun n ↦
      Keyed.find r.tags t = some n ∧ r.IsOpenable n ∨
        Keyed.find r.tags t = none ∧ Searches (.text t) n r r.unopened := by
    simp only [findByTag, Value.asTextKey_text, Option.bind_some]
    cases hk : Keyed.find r.tags t with
    | none => exact (looks_search h _ _).congr fun n ↦ by simp
    | some m => exact (looks_reopen h m).congr fun n ↦ by simp
  unfold storeOf
  cases hs : s.site with
  | text t => exact (htag t).congr fun n ↦ by simp [Asks, Leads, hs]
  | _ => exact (hnumber _ (by simp)).congr fun n ↦ by simp [Asks, Leads, hs]

theorem find_of_storeOf (h : r.IsPlaced) {scope : Scope}
    (hr : r.storeOf scope = (.ok (some s), r')) : r'.find s.site = some s := by
  have hreopen {n : Int} (ho : r.reopen n = (.ok (some s), r')) : r'.find s.site = some s := by
    have hs := find_of_reopen h ho
    have hplaced := (looks_reopen h n).lasts.isPlaced
    rw [ho] at hplaced
    rwa [hplaced.site_eq hs]
  have hnumber {v : Value} (hv : r.findByNumber v = (.ok (some s), r')) :
      r'.find s.site = some s := by
    unfold findByNumber at hv
    rcases hk : v.asNumberKey with _ | _ | m <;> rw [hk] at hv
    · cases hv
    · cases hv
    · exact hreopen hv
  have htag {t : String} (ht : r.findByTag (.text t) = (.ok (some s), r')) :
      r'.find s.site = some s := by
    simp only [findByTag, Value.asTextKey_text, Option.bind_some] at ht
    cases hk : Keyed.find r.tags t with
    | none => exact find_of_search h (by simpa only [hk] using ht)
    | some m => exact hreopen (by simpa only [hk] using ht)
  -- a store that is found is one that passed the test on its team
  have hfound {p : Except Failure (Option SiteStore) × Registry}
      (hp : (p.1.map (·.filter fun store ↦ store.team.all scope.isOfTeam), p.2) =
        ((.ok (some s), r') : Except Failure (Option SiteStore) × Registry)) :
      p = (.ok (some s), r') := by
    obtain ⟨_ | _ | store, r₀⟩ := p
    · cases hp
    · cases hp
    · simp only [Except.map, Option.filter_some] at hp
      split at hp
      · exact hp
      · cases hp
  unfold storeOf at hr
  cases hs : scope.site with
  | text t => exact htag (hfound (by simpa only [hs] using hr))
  | _ => exact hnumber (hfound (by simpa only [hs] using hr))

theorem looks_read (h : r.IsPlaced) {f : Connection → Except Failure α × Connection}
    (hf : Connection.Prepares f) (scope : Scope) (absent : Except Failure α) :
    r.Looks (r.read scope absent f).2 (r.Asks scope) := by
  have hl := looks_storeOf h scope
  unfold read
  rcases hr : r.storeOf scope with ⟨_ | _ | s, r'⟩ <;> rw [hr] at hl
  · exact hl
  · exact hl
  · have hplaced := hl.lasts.isPlaced
    have hs := find_of_storeOf h hr
    have hsave : r'.Looks (r'.save (f (r'.connect s)).2) fun _ ↦ False := by
      apply looks_save hplaced hs (hf.lasts _)
      · have hcontent : (r'.connect s).content = r'.rowsOf s.site := rfl
        rcases hf (r'.connect s) with hi | hi <;> rw [hi]
        · exact hcontent
        · rw [Connection.content_prepared, hcontent]
      · rcases hf (r'.connect s) with hi | hi <;> rw [hi] <;> simp [connect]
      · exact fun _ ↦ False.elim
    exact (hl.trans hsave).congr fun n ↦ by simp

theorem lasts_insertPart (h : r.IsPlaced) (now : Instant) (n : Int) (part : List EventRecord) :
    r.Lasts (r.insertPart now n part).2 ∧
      ∀ m, (r.insertPart now n part).2.isLoaded m = r.isLoaded m := by
  generalize htag : part.head?.map (·.tag) = tag
  generalize hteam : part.head?.bind (·.team) = team
  have ho := lasts_obtain h n tag team
  have hfind : (r.obtain n tag team).2.find n = some (r.storeFor n tag team) := by
    rw [find_obtain, if_pos rfl]
  generalize hc : ((r.obtain n tag team).2.connect (r.storeFor n tag team)) = c
  have hpart : (r.insertPart now n part).2 = (r.obtain n tag team).2.save (c.insertAll now part).2 := by
    rw [insertPart, htag, hteam, ← hc]
    rfl
  have hlasts := c.lasts_insertAll now part
  rw [hpart]
  refine ⟨ho.trans (lasts_save ho.isPlaced hfind (hc ▸ hlasts)), fun m ↦ ?_⟩
  have hsite : (c.insertAll now part).2.store.site = n := by
    rw [hlasts.site, ← hc]
    exact ho.isPlaced.site_eq hfind
  rw [isLoaded_save, hsite, isLoaded_obtain, Connection.identityLoaded_insertAll, ← hc]
  split
  · rename_i hm
    rw [← hm, ← identityLoaded_storeFor r n tag team]
    rfl
  · rfl

theorem lasts_insertAll (h : r.IsPlaced) (now : Instant) (records : List EventRecord) :
    r.Lasts (r.insertAll now records).2 ∧
      ∀ m, (r.insertAll now records).2.isLoaded m = r.isLoaded m := by
  refine insertAll_keeps (P := fun r' ↦ r.Lasts r' ∧ ∀ m, r'.isLoaded m = r.isLoaded m)
    ⟨.refl h, fun _ ↦ rfl⟩ fun r' n part _ ⟨hl, hloaded⟩ ↦ ?_
  obtain ⟨hl', hloaded'⟩ := lasts_insertPart hl.isPlaced now n part
  exact ⟨hl.trans hl', fun m ↦ (hloaded' m).trans (hloaded m)⟩

@[simp] theorem stores_dropTable (r : Registry) (n : Int) : (r.dropTable n).stores = r.stores := by
  unfold dropTable
  split <;> rfl

@[simp] theorem tags_dropTable (r : Registry) (n : Int) : (r.dropTable n).tags = r.tags := by
  unfold dropTable
  split <;> rfl

@[simp] theorem maxRows_dropTable (r : Registry) (n : Int) :
    (r.dropTable n).maxRows = r.maxRows := by
  unfold dropTable
  split <;> rfl

@[simp] theorem find_dropTable (r : Registry) (n m : Int) :
    (r.dropTable n).find m = r.find m := by
  rw [find, stores_dropTable, find]

/-- Others take the table of a site away. Stores keep what they know of it. -/
theorem lasts_dropTable (h : r.IsPlaced) (n : Int) :
    r.Lasts (r.dropTable n) ∧ ∀ m, (r.dropTable n).isLoaded m = r.isLoaded m := by
  have hmax : (r.dropTable n).maxRows = r.maxRows := r.maxRows_dropTable n
  refine ⟨⟨⟨fun hs ↦ h.site_eq (r.find_dropTable n _ ▸ hs),
    fun hs ↦ hmax ▸ h.maxRows_eq (r.find_dropTable n _ ▸ hs)⟩, hmax, fun hm ↦ ?_, fun hm ↦ ?_⟩,
    fun m ↦ ?_⟩
  · obtain ⟨s, hs, hready⟩ := hm
    exact ⟨s, (r.find_dropTable n _).trans hs, hready⟩
  · rename_i m
    unfold dropTable
    split
    · by_cases hsame : n = m
      · simp [tableOf, hsame]
      · simpa [tableOf, Keyed.find_put, hsame] using hm.table
    · exact hm.table
  · rw [isLoaded, isLoaded, find_dropTable]

theorem tableOf_dropTable (r : Registry) (n : Int) : (r.dropTable n).tableOf n = none := by
  unfold dropTable
  split
  · simp [tableOf]
  · rename_i hnone
    simp [tableOf, Option.not_isSome_iff_eq_none.1 hnone]

/-- A read of a site whose table is lost asks the broken store, if that has found out before whose it
is. Otherwise it fails when the store looks for its owner. -/
theorem read_of_lost (h : r.IsPlaced) (hn : r.HasLost n) {scope : Scope}
    (hlead : r.Leads scope n) (hteam : ∀ t, r.teamOf n = some t → scope.isOfTeam t = true) :
    ∃ c : Connection, c.IsBroken ∧ c.store.site = n ∧ c.store.maxRows = r.maxRows ∧
      ∀ {α : Type} (absent : Except Failure α) (f : Connection → Except Failure α × Connection),
        (r.read scope absent f).1 =
          if r.isLoaded n then .done (f c).1 Work.storePauses else .done (.error c.outage) := by
  obtain ⟨⟨s, hs, hready⟩, htable⟩ := hn
  have hsite := h.site_eq hs
  have hbroken : (r.connect s).IsBroken := ⟨hready, by rw [connect, hsite, htable]⟩
  have hloaded : r.isLoaded n = s.identityLoaded := by rw [isLoaded, hs, Option.any_some]
  have hreopen : r.reopen n = r.identify s := by
    rcases reopen_identifies h n with ⟨hnot, -⟩ | ⟨-, opened, s', -, -, hopen, hr⟩
    · exact absurd (.inl (by simp [hs])) hnot
    · obtain ⟨rfl, rfl⟩ := hopen s hs
      exact hr
  refine ⟨r.connect s, hbroken, hsite, h.maxRows_eq hs, fun absent f ↦ ?_⟩
  unfold read
  rw [storeOf_of_leads hlead, hreopen, identify, hbroken.loadIdentity, hloaded]
  cases hl : s.identityLoaded with
  | false => simp [connect, hl, Except.map]
  | true =>
    have hall : s.team.all scope.isOfTeam = true := by
      rw [teamOf, hs, Option.bind_some] at hteam
      cases ht : s.team with
      | none => rfl
      | some t => exact hteam t ht
    have hkept : (r.save (r.connect s)).tableOf s.site = none := by
      rw [tableOf_save, hsite, hbroken.table]
      split
      · rfl
      · exact htable
    have hstore : (r.connect s).store = s := rfl
    have hsame : ((r.save (r.connect s)).remember s).connect s = r.connect s := by
      rw [connect, tableOf_remember, hkept, connect, hsite, htable]
    simp only [hstore, hl, if_true, Except.map, Option.filter_some, hall, hsame]

end Registry

end Footfall
