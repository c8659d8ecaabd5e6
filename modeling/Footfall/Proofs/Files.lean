import Footfall.Proofs.Owners

/-!
The directory of the stores under reads. A read comes to the stores that are open and to those of the
sites that the names of the files stand for, and makes the database of each store that it comes to.
The name of a file may stand for a site whose own file has another name.
-/

namespace Footfall

theorem Keyed.mem_keys_put {κ α : Type} [DecidableEq κ] {m : Keyed κ α} {k l : κ} {a : α} :
    l ∈ keys (put m k a) ↔ l = k ∨ l ∈ keys m := by
  cases h : find m k with
  | none =>
    rw [keys_put_of_find_eq_none m k a h, List.mem_append, List.mem_singleton]
    tauto
  | some b =>
    rw [keys_put_of_find h]
    constructor
    · exact .inr
    · rintro (rfl | hl)
      · exact List.mem_map.2 ⟨_, mem_of_find h, rfl⟩
      · exact hl

/-- The file of a store is taken for that of no other site. -/
theorem Settings.eq_of_siteOfFile?_storeFile {m n : Int}
    (h : siteOfFile? (storeFile m) = some n) : m = n := by
  by_cases hm : 0 ≤ m
  · rw [siteOfFile?_storeFile hm] at h
    exact Option.some.inj h
  · obtain ⟨k, rfl⟩ := Int.eq_negSucc_of_lt_zero (Int.not_le.1 hm)
    have hname : (storeFile (Int.negSucc k)).toList =
        "site-".toList ++ '-' :: (Nat.toDigits 10 (k + 1) ++ ".db".toList) := by
      simp [storeFile, toString, Int.repr, Nat.repr]
    have hrest : after? "site-" (storeFile (Int.negSucc k)) =
        some (String.ofList ('-' :: (Nat.toDigits 10 (k + 1) ++ ".db".toList))) := by
      rw [after?, hname, if_pos (List.isPrefixOf_iff_prefix.2 (List.prefix_append ..))]
      exact congrArg (some <| String.ofList ·) (List.drop_left ..)
    simp [siteOfFile?, hrest] at h

namespace Registry

variable {α : Type} {r r' r'' : Registry} {c : Connection} {n : Int} {name : String}

/-- A site to whose store a read may come: the store is open, or a file is taken for its own. -/
def IsOpenable (r : Registry) (n : Int) : Prop := (r.find n).isSome ∨ n ∈ r.persistedSites

theorem mem_files (hp : r.persistent = true) : name ∈ r.files ↔
    (∃ n ∈ Keyed.keys r.databases, Settings.storeFile n = name) ∨ name ∈ r.otherFiles := by
  rw [files, if_pos hp, List.mem_mergeSort, List.mem_append, List.mem_map]

theorem mem_persistedSites_iff :
    n ∈ r.persistedSites ↔ ∃ name ∈ r.files, Settings.siteOfFile? name = some n := by
  rw [persistedSites, Settings.persistedSites, List.mem_mergeSort, List.mem_filterMap]

theorem persistent_of_mem_files (h : name ∈ r.files) : r.persistent = true := by
  by_contra hp
  simp [files, hp] at h

/-- From a state to another only openable stores have been opened, and only they have got a file. -/
structure Visits (r r' : Registry) : Prop where
  persistent : r'.persistent = r.persistent
  otherFiles : r'.otherFiles = r.otherFiles
  kept {n : Int} : n ∈ Keyed.keys r.databases → n ∈ Keyed.keys r'.databases
  added {n : Int} : n ∈ Keyed.keys r'.databases → n ∈ Keyed.keys r.databases ∨ r.IsOpenable n
  opened {n : Int} : (r'.find n).isSome = true → r.IsOpenable n

namespace Visits

theorem refl (r : Registry) : r.Visits r := ⟨rfl, rfl, id, .inl, .inl⟩

theorem isOpenable (h : r.Visits r') (hn : r'.IsOpenable n) : r.IsOpenable n := by
  rcases hn with hn | hn
  · exact h.opened hn
  · obtain ⟨name, hname, hsite⟩ := mem_persistedSites_iff.1 hn
    have hp' := persistent_of_mem_files hname
    have hp := h.persistent.symm.trans hp'
    rcases (mem_files hp').1 hname with ⟨m, hm, rfl⟩ | hother
    · obtain rfl := Settings.eq_of_siteOfFile?_storeFile hsite
      rcases h.added hm with hm | hm
      · exact .inr (mem_persistedSites_iff.2 ⟨_, (mem_files hp).2 (.inl ⟨m, hm, rfl⟩), hsite⟩)
      · exact hm
    · rw [h.otherFiles] at hother
      exact .inr (mem_persistedSites_iff.2 ⟨name, (mem_files hp).2 (.inr hother), hsite⟩)

theorem trans (h : r.Visits r') (h' : r'.Visits r'') : r.Visits r'' where
  persistent := h'.persistent.trans h.persistent
  otherFiles := h'.otherFiles.trans h.otherFiles
  kept := fun hn ↦ h'.kept (h.kept hn)
  added := fun hn ↦ (h'.added hn).elim h.added fun hn ↦ .inr (h.isOpenable hn)
  opened := fun hn ↦ h.isOpenable (h'.opened hn)

theorem remember (r : Registry) (s : SiteStore) : r.Visits (r.remember s) := by
  unfold Registry.remember
  split
  · exact .refl r
  · split
    · exact .refl r
    · exact ⟨rfl, rfl, id, .inl, .inl⟩

theorem save (hn : r.IsOpenable c.store.site) : r.Visits (r.save c) where
  persistent := rfl
  otherFiles := rfl
  kept hm := by
    unfold Registry.save
    split
    · exact Keyed.mem_keys_put.2 (.inr hm)
    · exact hm
  added hm := by
    unfold Registry.save at hm
    split at hm
    · rcases Keyed.mem_keys_put.1 hm with rfl | hm
      · exact .inr hn
      · exact .inl hm
    · exact .inl hm
  opened hm := by
    rw [find_save] at hm
    split at hm
    · rename_i hsite
      exact hsite ▸ hn
    · exact .inl hm

theorem obtain (hn : r.IsOpenable n) (tag : Option String) (team : Option Int) :
    r.Visits (r.obtain n tag team).2 := by
  have hput : r.Visits { r with stores := r.stores.put n (r.storeFor n tag team) } := by
    refine ⟨rfl, rfl, id, .inl, fun {m} hm ↦ ?_⟩
    rw [Registry.find, Keyed.find_put] at hm
    split at hm
    · rename_i hsite
      exact hsite ▸ hn
    · exact .inl hm
  exact hput.trans (remember ..)

end Visits

theorem visits_reopen (h : r.IsSound) (n : Int) : r.Visits (r.reopen n).2 := by
  have hload {s : SiteStore} (r' : Registry) (hs : r'.Holds n s) (hn : r'.IsOpenable n) :
      (r'.connect s).loadIdentity.1 = .ok () ∧
        r'.Visits ((r'.save (r'.connect s).loadIdentity.2).remember
          (r'.connect s).loadIdentity.2.store) := by
    have hc := hs.isSound_connect
    have hsite := (Connection.site_loadIdentity hc).trans hs.1
    exact ⟨Connection.fst_loadIdentity hc, (Visits.save (hsite ▸ hn)).trans (.remember ..)⟩
  unfold reopen
  split
  · exact .refl r
  · rename_i hcond
    have hn : r.IsOpenable n := by
      cases hf : r.find n with
      | some s => exact .inl (by simp [hf])
      | none => exact .inr (by simpa [hf] using hcond)
    cases hf : r.find n with
    | some s =>
      obtain ⟨hok, hv⟩ := hload r (h.holds hf) hn
      simpa only [hok] using hv
    | none =>
      have hv := Visits.obtain hn none none
      have hfind : (r.obtain n none none).2.find n = some (r.storeFor n none none) := by
        rw [find_obtain, if_pos rfl]
      obtain ⟨hok, hv'⟩ := hload _ ((h.obtain n none none).holds hfind) (.inl (by simp [hfind]))
      simp only [show (r.obtain n none none).1 = r.storeFor n none none from rfl, hok]
      exact hv.trans hv'

theorem visits_search (h : r.IsSound) (tag : Value) (sites : List Int) :
    r.Visits (r.search tag sites).2 := by
  induction sites generalizing r with
  | nil => exact .refl r
  | cons site rest ih =>
    have hv := visits_reopen h site
    rcases reopen_cases h site with ⟨-, hr⟩ | ⟨s, r', hr, -, ho⟩
    · simpa only [search, hr] using ih h
    · rw [hr] at hv
      simp only [search, hr]
      split
      · exact hv
      · exact hv.trans (ih ho.isSound)

theorem visits_findByTag (h : r.IsSound) (tag : Value) : r.Visits (r.findByTag tag).2 := by
  unfold findByTag
  split
  · exact .refl r
  · split
    · exact visits_reopen h _
    · exact visits_search h tag _

theorem visits_findByNumber (h : r.IsSound) (number : Value) :
    r.Visits (r.findByNumber number).2 := by
  unfold findByNumber
  split
  · exact .refl r
  · exact .refl r
  · exact visits_reopen h _

theorem visits_storeOf (h : r.IsSound) (s : Scope) : r.Visits (r.storeOf s).2 := by
  unfold storeOf
  cases s.site with
  | text t => exact visits_findByTag h (.text t)
  | _ => exact visits_findByNumber h _

theorem visits_read {f : Connection → Except Failure α × Connection} (hf : Connection.Idle f)
    (h : r.IsSound) (s : Scope) (absent : Except Failure α) : r.Visits (r.read s absent f).2 := by
  have hv := visits_storeOf h s
  obtain ⟨result, r', hr, ho, hfind⟩ := storeOf_cases h s
  rw [hr] at hv
  cases result with
  | error e => simpa only [read, hr] using hv
  | ok found =>
    cases found with
    | none => simpa only [read, hr] using hv
    | some store =>
      obtain ⟨n, hs⟩ := hfind store rfl
      have hh := ho.isSound.holds hs
      have hsite : (f (r'.connect store)).2.store.site = n := by
        rcases hf _ hh.isSound_connect with hi | hi <;> rw [hi]
        · exact hh.1
        · exact Connection.site_prepared.trans hh.1
      simp only [read, hr]
      exact hv.trans (.save (.inl (by simp [hsite, hs])))

theorem reopen_of_isOpenable (h : r.IsSound) (hn : r.IsOpenable n) :
    ∃ s r', r.reopen n = (.ok (some s), r') ∧ r'.find n = some s ∧ r.Opens r' := by
  rcases reopen_cases h n with ⟨hnone, hr⟩ | hopened
  · have hn : n ∈ r.persistedSites := hn.resolve_left (by simp [hnone])
    unfold reopen at hr
    rw [if_neg (by simpa using fun _ ↦ hn)] at hr
    -- what is left ends with an error or with a store
    repeat' split at hr
    all_goals cases congrArg Prod.fst hr
  · exact hopened

theorem storeOf_int (r : Registry) (n : Int) (team : Value) :
    r.storeOf ⟨.int n, team⟩ = ((r.reopen n).1.map fun store ↦
      store.filter fun store ↦ store.team.all (Scope.isOfTeam ⟨.int n, team⟩),
      (r.reopen n).2) := rfl

/-- A read that comes to the store of a site leaves the site with a file. -/
theorem mem_files_read {f : Connection → Except Failure α × Connection}
    {q : Table → Except Failure α} (hf : Connection.Reads f q) (h : r.IsSound)
    (hp : r.persistent = true) {s : SiteStore} (hr : r.reopen n = (.ok (some s), r'))
    {team : Value} (hteam : s.team.all (Scope.isOfTeam ⟨.int n, team⟩) = true)
    (absent : Except Failure α) :
    Settings.storeFile n ∈ (r.read ⟨.int n, team⟩ absent f).2.files := by
  rcases reopen_cases h n with ⟨-, hr'⟩ | ⟨s', r'', hr', hs, ho⟩
  · cases hr.symm.trans hr'
  · cases hr.symm.trans hr'
    have hh := ho.isSound.holds hs
    have hread : (r.read ⟨.int n, team⟩ absent f).2 = r'.save (r'.connect s).prepared := by
      simp only [read, storeOf_int, hr, Except.map, Option.filter_some, hteam, if_true,
        hf _ hh.isSound_connect]
    have hsite : (r'.connect s).prepared.store.site = n := Connection.site_prepared.trans hh.1
    have hp' : (r'.save (r'.connect s).prepared).persistent = true := ho.persistent.trans hp
    refine hread ▸ (mem_files hp').2 (.inl ⟨n, ?_, rfl⟩)
    simp only [save, Connection.schemaReady_prepared, if_true, hsite]
    exact Keyed.mem_keys_put.2 (.inl rfl)

theorem exists_mem_files_read {f : Connection → Except Failure α × Connection}
    {q : Table → Except Failure α} (hf : Connection.Reads f q) (h : r.IsSound)
    (hp : r.persistent = true) (hn : r.IsOpenable n) (absent : Except Failure α) :
    ∃ team, Settings.storeFile n ∈ (r.read ⟨.int n, team⟩ absent f).2.files := by
  obtain ⟨s, r', hr, -, -⟩ := reopen_of_isOpenable h hn
  cases hteam : s.team with
  | none => exact ⟨.null, mem_files_read hf h hp hr (by simp [hteam]) absent⟩
  | some t =>
    refine ⟨.int t, mem_files_read hf h hp hr ?_ absent⟩
    rw [hteam]
    exact (Scope.isOfTeam_of (.number n) t t).trans (decide_eq_true rfl)

end Registry

/-- The steps of a run that only read. -/
def Operation.isRead : Operation → Bool
  | .insert .. | .insertAll .. | .restart => false
  | _ => true

/-- A read, as a request or at the stores themselves. -/
inductive Look
  | request (o : Operation)
  | find (site : Int)
  | reopen (site : Int)
  | findByTag (tag : Value)

def Look.isRead : Look → Bool
  | .request o => o.isRead
  | _ => true

namespace Backend

variable {b : Backend} {r : Registry} {looks : List Look}

/-- The backend after work with its stores. -/
def onStores (b : Backend) (f : Registry → Registry) : Backend :=
  match b.engine with
  | .embedded r => { b with engine := .embedded (f r) }
  | _ => b

def look (b : Backend) : Look → Backend
  | .request o => b.after o
  | .find _ => b
  | .reopen site => b.onStores fun r ↦ (r.reopen site).2
  | .findByTag tag => b.onStores fun r ↦ (r.findByTag tag).2

def lookAll (b : Backend) (looks : List Look) : Backend := looks.foldl look b

theorem visits_look (hb : b.engine = .embedded r) (h : r.IsSound) {l : Look}
    (hl : l.isRead = true) :
    ∃ r', (b.look l).engine = .embedded r' ∧ r'.IsSound ∧ r.Visits r' := by
  have hread {α : Type} {own : Connection → Except Failure α × Connection}
      (hown : Connection.Idle own) (s : Scope) (empty : Except Failure α)
      (check : Except Failure Unit) (shared : Server → Except Failure α) :
      ∃ r', (b.read s empty check own shared).2.engine = .embedded r' ∧ r'.IsSound ∧
        r.Visits r' := by
    rw [read_embedded hb]
    exact ⟨_, rfl, (Registry.opens_read hown h s _).isSound, Registry.visits_read hown h s _⟩
  cases l with
  | request o =>
    cases o with
    | insert | insertAll | restart => cases hl
    | list s f => exact hread (Connection.reads_list f).idle ..
    | dashboard now o =>
      have hlist (f : EventFilters) := (reads_ownDashboard f).idle
      simp only [look, after, dashboard_embedded hb]
      cases o.filters now b.windowDays with
      | error f => exact ⟨r, hb, h, .refl r⟩
      | ok f =>
        exact ⟨_, rfl, (Registry.opens_read (hlist f) h _ _).isSound,
          Registry.visits_read (hlist f) h _ _⟩
    | hasAny s => exact hread Connection.reads_hasEvents.idle ..
    | stats s range => exact hread (Connection.reads_stats range).idle ..
    | summary s o => exact hread (Connection.reads_summary o).idle ..
    | series s range g byEvent => exact hread (Connection.reads_series range g byEvent).idle ..
    | query s q limit => exact hread (Connection.idle_run q limit) ..
  | find site => exact ⟨r, hb, h, .refl r⟩
  | reopen site =>
    have hsound : (r.reopen site).2.IsSound := by
      rcases Registry.reopen_cases h site with ⟨-, hr⟩ | ⟨s, r', hr, -, ho⟩ <;> rw [hr]
      · exact h
      · exact ho.isSound
    exact ⟨_, by simp [look, onStores, hb], hsound, Registry.visits_reopen h site⟩
  | findByTag tag =>
    have hsound : (r.findByTag tag).2.IsSound := by
      obtain ⟨result, r', hr, ho, -⟩ := Registry.findByTag_cases h tag
      rw [hr]
      exact ho.isSound
    exact ⟨_, by simp [look, onStores, hb], hsound, Registry.visits_findByTag h tag⟩

theorem visits_lookAll (hb : b.engine = .embedded r) (h : r.IsSound)
    (hl : ∀ l ∈ looks, l.isRead = true) : r.Visits (b.lookAll looks).registry := by
  induction looks generalizing b r with
  | nil => simpa [lookAll, registry_eq hb] using Registry.Visits.refl r
  | cons l looks ih =>
    obtain ⟨r', hb', h', hv⟩ := visits_look hb h (hl l (by simp))
    exact hv.trans (ih hb' h' fun l hl' ↦ hl l (by simp [hl']))

theorem registry_look_hasAny (hb : b.engine = .embedded r) (s : Scope) :
    (b.look (.request (.hasAny s))).registry = (r.read s (.ok false) (·.hasEvents)).2 := by
  refine registry_eq ?_
  rw [look, after, hasAny, read_embedded hb]
  rfl

/-- Reads make no file, and open only stores that have their own, exactly if there is the own file of
every site that a file stands for, and that of every open store. -/
theorem reads_make_no_file_iff (hb : b.engine = .embedded r) (h : r.IsSound)
    (hp : r.persistent = true) :
    (∀ looks : List Look, (∀ l ∈ looks, l.isRead = true) →
      (∀ name, name ∈ (b.lookAll looks).registry.files ↔ name ∈ r.files) ∧
        ∀ n, ((b.lookAll looks).registry.find n).isSome = true → Settings.storeFile n ∈ r.files) ↔
      (∀ name ∈ r.files, ∀ n, Settings.siteOfFile? name = some n →
        Settings.storeFile n ∈ r.files) ∧
        ∀ n, (r.find n).isSome = true → Settings.storeFile n ∈ r.files := by
  constructor
  · intro hkeeps
    have hopenable {n : Int} (hn : r.IsOpenable n) : Settings.storeFile n ∈ r.files := by
      obtain ⟨team, hmade⟩ := Registry.exists_mem_files_read Connection.reads_hasEvents h hp hn
        (.ok false)
      rw [← registry_look_hasAny hb] at hmade
      exact ((hkeeps [.request (.hasAny ⟨.int n, team⟩)]
        (by simp [Look.isRead, Operation.isRead])).1 _).1 hmade
    exact ⟨fun name hname n hn ↦
      hopenable (.inr (Registry.mem_persistedSites_iff.2 ⟨name, hname, hn⟩)),
      fun n hn ↦ hopenable (.inl hn)⟩
  · rintro ⟨hnames, hopen⟩ looks hl
    have hv := visits_lookAll hb h hl
    have hp' := hv.persistent.trans hp
    have hopenable {n : Int} (hn : r.IsOpenable n) : Settings.storeFile n ∈ r.files := by
      rcases hn with hn | hn
      · exact hopen n hn
      · obtain ⟨name, hname, hn⟩ := Registry.mem_persistedSites_iff.1 hn
        exact hnames name hname n hn
    refine ⟨fun name ↦ ⟨fun hname ↦ ?_, fun hname ↦ ?_⟩, fun n hn ↦ hopenable (hv.opened hn)⟩
    · rcases (Registry.mem_files hp').1 hname with ⟨n, hn, rfl⟩ | hother
      · rcases hv.added hn with hn | hn
        · exact (Registry.mem_files hp).2 (.inl ⟨n, hn, rfl⟩)
        · exact hopenable hn
      · exact (Registry.mem_files hp).2 (.inr (hv.otherFiles ▸ hother))
    · rcases (Registry.mem_files hp).1 hname with ⟨n, hn, rfl⟩ | hother
      · exact (Registry.mem_files hp').2 (.inl ⟨n, hv.kept hn, rfl⟩)
      · exact (Registry.mem_files hp').2 (.inr (hv.otherFiles.symm ▸ hother))

/-- Stores on disk beside a file of some name. -/
def besideFile (name : String) : Registry := { persistent := true, otherFiles := [name] }

theorem isSound_besideFile (name : String) : (besideFile name).IsSound :=
  ⟨fun h ↦ by simp [besideFile, Registry.find] at h,
    fun h ↦ by simp [besideFile, Registry.find] at h⟩

theorem reads_make_no_file_iff_notes :
    (Backend.mk .sqlite (.int 7) (.embedded (besideFile "notes.txt"))).engine =
        .embedded (besideFile "notes.txt") ∧
      (besideFile "notes.txt").IsSound ∧ (besideFile "notes.txt").persistent = true ∧
      ∀ looks : List Look, (∀ l ∈ looks, l.isRead = true) → ∀ name,
        name ∈ ((Backend.mk .sqlite (.int 7)
          (.embedded (besideFile "notes.txt"))).lookAll looks).registry.files ↔
          name ∈ (besideFile "notes.txt").files := by
  have hb : (Backend.mk .sqlite (.int 7) (.embedded (besideFile "notes.txt"))).engine =
      .embedded (besideFile "notes.txt") := rfl
  have hfiles : (besideFile "notes.txt").files = ["notes.txt"] := by
    simp [Registry.files, besideFile, Keyed.keys]
  refine ⟨hb, isSound_besideFile _, rfl, fun looks hl ↦
    ((reads_make_no_file_iff hb (isSound_besideFile _) rfl).2 ⟨?_, ?_⟩ looks hl).1⟩
  · intro name hname n hn
    rw [hfiles, List.mem_singleton] at hname
    subst hname
    cases hn
  · intro n hn
    cases hn

/-- A file with a zero before the number stands for a site, and a read of that site makes another
file. -/
theorem paddedFile_makes_file :
    (besideFile "site-01.db").files = ["site-01.db"] ∧
      "site-1.db" ∈ ((Backend.mk .sqlite (.int 7) (.embedded (besideFile "site-01.db"))).lookAll
        [.request (.hasAny ⟨.int 1, .int 10⟩)]).registry.files := by
  have h := isSound_besideFile "site-01.db"
  have hfiles : (besideFile "site-01.db").files = ["site-01.db"] := by
    simp [Registry.files, besideFile, Keyed.keys]
  have hsite : Settings.siteOfFile? "site-01.db" = some 1 := by decide
  have hn : (besideFile "site-01.db").IsOpenable 1 :=
    .inr (Registry.mem_persistedSites_iff.2 ⟨"site-01.db", by simp [hfiles], hsite⟩)
  obtain ⟨s, r', hr, hs, ho⟩ := Registry.reopen_of_isOpenable h hn
  have hnew : s.team = none := ho.opened rfl hs
  have hteam : s.team.all (Scope.isOfTeam ⟨.int 1, .int 10⟩) = true := by simp [hnew]
  refine ⟨hfiles, ?_⟩
  have hmade := Registry.mem_files_read Connection.reads_hasEvents h rfl hr hteam (.ok false)
  rwa [← registry_look_hasAny (b := ⟨.sqlite, .int 7, .embedded (besideFile "site-01.db")⟩) rfl]
    at hmade

end Backend

end Footfall
