import Footfall.Proofs.Answering
import Footfall.Proofs.Owners

/-!
Restarts of a backend with stores on disk. When every site has one tag and one team, a process that
starts anew answers every read as the old one would, whatever it has read before. A site without
rows has no owner on disk; the stores that the two have for it, or lack, differ only in what the
storage refuses.
-/

namespace Footfall

variable {α : Type}

namespace Registry

variable {r r' : Registry} {o : Owners} {v : Value} {n team : Int} {ref : SiteRef}
  {f : Connection → Except Failure α × Connection} {q : Int → Value → Table → Except Failure α}

/-- A site that goes by a number or tag has rows. -/
def HasRows (r : Registry) : SiteRef → Prop
  | .number n => r.rowsOf n ≠ []
  | .tag t => ∃ n, ∃ e ∈ r.rowsOf n, e.tag = t

theorem IsCatalogued.hasRows_iff (h : r.IsCatalogued o v) :
    r.HasRows ref ↔ ∃ n, o.Names ref n ∧ r.rowsOf n ≠ [] := by
  cases ref with
  | number n => simp [HasRows, Owners.Names]
  | tag t =>
    refine exists_congr fun n ↦ ⟨?_, fun ⟨hn, hne⟩ ↦ ?_⟩
    · rintro ⟨e, he, rfl⟩
      exact ⟨(h.row he).2.1.symm, List.ne_nil_of_mem he⟩
    · obtain ⟨e, he⟩ := List.exists_mem_of_ne_nil _ hne
      exact ⟨e, he, (h.row he).2.1.trans hn⟩

/-- The team of a site with rows reads them, and no other does. -/
theorem IsCatalogued.fst_read (h : r.IsCatalogued o v) (hf : Connection.Computes f q)
    (href : ref ≠ .tag "") (hn : o.Names ref n) (hne : r.rowsOf n ≠ []) (team : Int)
    (absent : Except Failure α) :
    (r.read (.of ref team) absent f).1 =
      if o.team n = team then .done (q n v (r.rowsOf n)) Work.storePauses else .done absent := by
  obtain ⟨found, r', hr, hfind, hsome, hnone⟩ := h.storeOf_of href team
  cases found with
  | none =>
    rw [if_neg (hnone rfl n hn hne)]
    simp [Registry.read, hr]
  | some s =>
    obtain ⟨hname, hteam⟩ := hsome s rfl
    have hopen := hfind.find rfl
    have hk := hfind.isCatalogued.store hopen
    obtain rfl : n = s.site := o.eq_of_names (h.site (mem_keys_of_rowsOf hne)) hk.site hn hname
    have hh := hfind.isCatalogued.isSound.holds hopen
    rw [if_pos (hteam hne), ← hfind.rowsOf, ← hk.maxRows, ← hh.content_connect]
    simp only [Registry.read, hr, hf.fst hh.isSound_connect]
    rfl

theorem IsCatalogued.fst_read_nil (h : r.IsCatalogued o v) (hf : Connection.Computes f q)
    (href : ref ≠ .tag "") (hno : ¬r.HasRows ref) (team : Int) (absent : Except Failure α) :
    (r.read (.of ref team) absent f).1 = .done absent ∨
      ∃ n, (r.read (.of ref team) absent f).1 = .done (q n v []) Work.storePauses := by
  obtain ⟨found, r', hr, hfind, hsome, -⟩ := h.storeOf_of href team
  cases found with
  | none => exact .inl (by simp [Registry.read, hr])
  | some s =>
    have hopen := hfind.find rfl
    have hk := hfind.isCatalogued.store hopen
    have hh := hfind.isCatalogued.isSound.holds hopen
    have hnil : r'.rowsOf s.site = [] := by
      rw [hfind.rowsOf]
      by_contra hne
      exact hno (h.hasRows_iff.2 ⟨_, (hsome s rfl).1, hne⟩)
    refine .inr ⟨s.site, ?_⟩
    rw [← hnil, ← hk.maxRows, ← hh.content_connect]
    simp only [Registry.read, hr, hf.fst hh.isSound_connect]
    rfl

theorem IsCatalogued.fst_read_unowned (h : r.IsCatalogued o v) (href : ref ≠ .tag "")
    (hno : ¬∃ n, o.sites n ∧ o.Names ref n) (team : Int) (absent : Except Failure α) :
    (r.read (.of ref team) absent f).1 = .done absent := by
  obtain ⟨found, r', hr, hfind, hsome, -⟩ := h.storeOf_of href team
  cases found with
  | none => simp [Registry.read, hr]
  | some s =>
    have hk := hfind.isCatalogued.store (hfind.find rfl)
    exact absurd ⟨s.site, hk.site, (hsome s rfl).1⟩ hno

/-- Two states of the stores with the same rows of the same owners answer a read alike. -/
theorem IsCatalogued.matches_read {p : Prop} (h : r.IsCatalogued o v) (h' : r'.IsCatalogued o v)
    (hrows : ∀ n, r'.rowsOf n = r.rowsOf n) (hf : Connection.Computes f q) (href : ref ≠ .tag "")
    (hp : p → (∃ n, o.sites n ∧ o.Names ref n) → r.HasRows ref) (team : Int)
    {absent : Except Failure α}
    (hnil : ∀ n, ComesTo {} (q n v []) absent) :
    Work.Matches {} p (r.read (.of ref team) absent f).1 (r'.read (.of ref team) absent f).1 := by
  by_cases hown : ∃ n, o.sites n ∧ o.Names ref n
  swap
  · rw [h.fst_read_unowned href hown, h'.fst_read_unowned href hown]
    exact .refl ..
  have hsame : r.HasRows ref → (r'.read (.of ref team) absent f).1 =
      (r.read (.of ref team) absent f).1 := by
    intro hhas
    obtain ⟨n, hn, hne⟩ := h.hasRows_iff.1 hhas
    rw [h.fst_read hf href hn hne, h'.fst_read hf href hn (by rwa [hrows]), hrows]
  by_cases hhas : r.HasRows ref
  · exact hsame hhas ▸ .refl ..
  have hhas' : ¬r'.HasRows ref := by
    rw [h'.hasRows_iff]
    rw [h.hasRows_iff] at hhas
    simpa only [hrows] using hhas
  have houtcome {w : Work α}
      (hcases : w = .done absent ∨ ∃ n, w = .done (q n v []) Work.storePauses)
      (hw : w.IsServed {}) : w.outcome = some absent := by
    rcases hcases with rfl | ⟨n, rfl⟩
    · rfl
    · exact Work.outcome_of_comesTo (hnil n) hw
  exact .of_outcome (fun h ↦ hsame (hp h hown)) (houtcome (h.fst_read_nil hf href hhas team absent))
    (houtcome (h'.fst_read_nil hf href hhas' team absent))

end Registry

/-- A store on disk is written to under an empty tag. -/
def untaggedView : List Operation := [.insert ⟨0⟩ { EventRecord.plain 1 (some 10) with tag := "" }]

/-- Each record of a site is of one tag and one team, and records of different sites are of
different tags. -/
structure AreOwned (xs : List EventRecord) : Prop where
  nonneg {x : EventRecord} {n : Int} : x ∈ xs → x.site = some n → 0 ≤ n
  team {x : EventRecord} {n : Int} : x ∈ xs → x.site = some n → x.team.isSome = true
  same {x y : EventRecord} {n : Int} : x ∈ xs → y ∈ xs → x.site = some n → y.site = some n →
    x.tag = y.tag ∧ x.team = y.team
  different {x y : EventRecord} {m n : Int} : x ∈ xs → y ∈ xs → x.site = some m →
    y.site = some n → m ≠ n → x.tag ≠ y.tag

/-- Some records are of a site that goes by a number or tag. -/
def AreSentTo (xs : List EventRecord) : SiteRef → Prop
  | .number n => ∃ x ∈ xs, x.site = some n
  | .tag t => ∃ x ∈ xs, x.site.isSome = true ∧ x.tag = t

theorem AreOwned.exists_owners {xs : List EventRecord} (h : AreOwned xs) :
    ∃ o : Owners, (∀ x ∈ xs, o.Sends x) ∧ ∀ n, o.sites n → ∃ x ∈ xs, x.site = some n := by
  have hfirst (n : Int) : ∃ tag team, ∀ x ∈ xs, x.site = some n →
      x.tag = tag ∧ x.team = some team := by
    by_cases hn : ∃ x ∈ xs, x.site = some n
    · obtain ⟨x, hx, hsite⟩ := hn
      obtain ⟨u, hu⟩ := Option.isSome_iff_exists.1 (h.team hx hsite)
      refine ⟨x.tag, u, fun y hy hy' ↦ ?_⟩
      obtain ⟨htag, hteam⟩ := h.same hy hx hy' hsite
      exact ⟨htag, hteam.trans hu⟩
    · exact ⟨"", 0, fun x hx hsite ↦ absurd ⟨x, hx, hsite⟩ hn⟩
  choose tag team hown using hfirst
  refine ⟨⟨fun n ↦ ∃ x ∈ xs, x.site = some n, tag, team, ?_, ?_⟩, fun x hx n hn ↦
    ⟨⟨x, hx, hn⟩, hown n x hx hn⟩, fun _ ↦ id⟩
  · rintro n ⟨x, hx, hn⟩
    exact h.nonneg hx hn
  · rintro m n ⟨x, hx, hm⟩ ⟨y, hy, hn⟩ htag
    by_contra hne
    refine h.different hx hy hm hn hne ?_
    rw [(hown m x hx hm).1, (hown n y hy hn).1, htag]

namespace Backend

variable {b : Backend} {r : Registry} {o : Owners} {v : Value}

/-- A step of a run keeps the catalogue, and reads and restarts keep all rows. -/
theorem isCatalogued_after (hb : b.engine = .embedded r) (h : r.IsCatalogued o v) (op : Operation)
    (hrecords : ∀ x ∈ op.records, o.Sends x) :
    ∃ r', b.after op = { b with engine := .embedded r' } ∧ r'.IsCatalogued o v ∧
      (op.batch = none → ∀ n, r'.rowsOf n = r.rowsOf n) := by
  have hread {β : Type} {own : Connection → Except Failure β × Connection}
      (hown : Connection.Idle own) (s : Scope) (empty : Except Failure β)
      (check : Except Failure Unit) (shared : Server → Except Failure β) :
      ∃ r', (b.read s empty check own shared).2 = { b with engine := .embedded r' } ∧
        r'.IsCatalogued o v ∧ (op.batch = none → ∀ n, r'.rowsOf n = r.rowsOf n) := by
    obtain ⟨hcat, hrows⟩ := h.read hown s (check >>= fun _ ↦ empty)
    exact ⟨_, by rw [read_embedded hb], hcat, fun _ ↦ hrows⟩
  cases op with
  | insert now x =>
    exact ⟨(r.insertAll now [x]).2, by simp only [after, insert, Backend.insertAll, hb],
      h.insertAll now hrecords, by simp [Operation.batch]⟩
  | insertAll now xs =>
    exact ⟨(r.insertAll now xs).2, by simp only [after, Backend.insertAll, hb],
      h.insertAll now hrecords, by simp [Operation.batch]⟩
  | list s f => exact hread (Connection.reads_list f).idle ..
  | dashboard now opt =>
    rw [after, dashboard_embedded hb]
    cases opt.filters now b.windowDays with
    | error e => exact ⟨r, by rw [← hb], h, fun _ _ ↦ rfl⟩
    | ok f =>
      obtain ⟨hcat, hrows⟩ := h.read (reads_ownDashboard f).idle (.of opt.site opt.team)
        (.ok (.empty f))
      exact ⟨_, rfl, hcat, fun _ ↦ hrows⟩
  | hasAny s => exact hread Connection.reads_hasEvents.idle ..
  | stats s range => exact hread (Connection.reads_stats range).idle ..
  | summary s opt => exact hread (Connection.reads_summary opt).idle ..
  | series s range g byEvent => exact hread (Connection.reads_series range g byEvent).idle ..
  | query s q limit => exact hread (Connection.idle_run q limit) ..
  | restart =>
    exact ⟨_, by simp only [after, restart, hb], h.restart,
      fun _ ↦ Registry.rowsOf_restart h.persistent⟩

theorem isCatalogued_afterAll (hb : b.engine = .embedded r) (h : r.IsCatalogued o v)
    (ops : List Operation) (hrecords : ∀ op ∈ ops, ∀ x ∈ op.records, o.Sends x) :
    ∃ r', b.afterAll ops = { b with engine := .embedded r' } ∧ r'.IsCatalogued o v ∧
      ((∀ op ∈ ops, op.batch = none) → ∀ n, r'.rowsOf n = r.rowsOf n) := by
  induction ops using List.reverseRecOn with
  | nil => exact ⟨r, by rw [← hb]; rfl, h, fun _ _ ↦ rfl⟩
  | append_singleton before op ih =>
    obtain ⟨r', hb', h', hrows⟩ := ih fun op hop ↦ hrecords op (by simp [hop])
    obtain ⟨r'', hb'', h'', hrows'⟩ := isCatalogued_after (congrArg Backend.engine hb') h' op
      (hrecords op (by simp))
    refine ⟨r'', ?_, h'', fun hno n ↦ ?_⟩
    · rw [afterAll_concat, hb'', hb']
    · rw [hrows' (hno op (by simp)), hrows fun op hop ↦ hno op (by simp [hop])]

/-- What one backend answers the other answers too, when a site is asked for by a number or tag:
just the same under a condition, and without it as long as the storage fails neither. -/
structure AnswersAs (b c : Backend) (p : Prop) (ref : SiteRef) (team : Int) : Prop where
  list (f : EventFilters) :
    Work.Matches {} p (b.list (.of ref team) f).1 (c.list (.of ref team) f).1
  dashboard (now : Instant) (opt : DashboardOptions) : opt.site = ref → opt.team = team →
    Work.Matches {} p (b.dashboard now opt).1 (c.dashboard now opt).1
  hasAny : Work.Matches {} p (b.hasAny (.of ref team)).1 (c.hasAny (.of ref team)).1
  stats (range : Option DateRange) :
    Work.Matches {} p (b.stats (.of ref team) range).1 (c.stats (.of ref team) range).1
  summary (opt : SummaryOptions) :
    Work.Matches {} p (b.summary (.of ref team) opt).1 (c.summary (.of ref team) opt).1
  series (range : Option DateRange) (g : Granularity) (byEvent : Value) : Work.Matches {} p
    (b.series (.of ref team) range g byEvent).1 (c.series (.of ref team) range g byEvent).1
  chart (q : Report.ChartQuery) (limit : Option Int) : Work.Matches {} p
    (b.run (.of ref team) (.chart q) (.ofWhole limit)).1
    (c.run (.of ref team) (.chart q) (.ofWhole limit)).1

theorem answersAs_of_isCatalogued {r' : Registry} {m : Int} {p : Prop} {ref : SiteRef}
    (hb : b.engine = .embedded r) (h : r.IsCatalogued o (.int m)) (h' : r'.IsCatalogued o (.int m))
    (hrows : ∀ n, r'.rowsOf n = r.rowsOf n) (href : ref ≠ .tag "")
    (hp : p → (∃ n, o.sites n ∧ o.Names ref n) → r.HasRows ref) (team : Int) :
    b.AnswersAs { b with engine := .embedded r' } p ref team := by
  have hreads {β : Type} {own : Connection → Except Failure β × Connection}
      {q : Table → Except Failure β} {empty : Except Failure β}
      (hown : Connection.IsRead own q empty) :=
    h.matches_read h' hrows hown.reads.computes href hp team fun _ ↦ hown.nil {}
  have hc : { b with engine := Engine.embedded r' }.engine = .embedded r' := rfl
  refine ⟨fun f ↦ ?_, fun now opt hsite hteam ↦ ?_, ?_, fun range ↦ ?_, fun opt ↦ ?_,
    fun range g byEvent ↦ ?_, fun q limit ↦ ?_⟩
  · simp only [Backend.list, read_embedded hb, read_embedded hc]
    exact hreads (Connection.isRead_list f)
  · subst hsite hteam
    rw [dashboard_embedded hb, dashboard_embedded hc]
    cases opt.filters now b.windowDays with
    | error e => exact .refl ..
    | ok f => exact hreads (Connection.isRead_dashboard f)
  · simp only [Backend.hasAny, read_embedded hb, read_embedded hc]
    exact hreads Connection.isRead_hasEvents
  · simp only [Backend.stats, read_embedded hb, read_embedded hc]
    exact hreads (Connection.isRead_stats range)
  · simp only [Backend.summary, read_embedded hb, read_embedded hc]
    exact hreads (Connection.isRead_summary opt)
  · simp only [Backend.series, read_embedded hb, read_embedded hc]
    exact hreads (Connection.isRead_series range g byEvent)
  · simp only [Backend.run, read_embedded hb, read_embedded hc]
    exact h.matches_read h' hrows (Connection.computes_run _ _) href hp team fun n ↦
      TableQuery.ofStore_nil {} q limit n m

/-- A backend that starts anew over the same directory answers as the old one would, whatever it has
read before. -/
theorem answersAs_restart (s : Settings) (m : Int) (hdisk : s.storeDir.isTruthy = true)
    (hrows : s.queryRows = .int m) {ops reads : List Operation}
    (hops : AreOwned (ops.flatMap (·.records))) (hreads : ∀ op ∈ reads, op.batch = none)
    {ref : SiteRef} (href : ref ≠ .tag "") (team : Int) :
    (s.embedded.afterAll ops).AnswersAs ((s.embedded.afterAll ops).restart.afterAll reads)
      (AreSentTo (ops.flatMap (·.records)) ref → (s.embedded.afterAll ops).registry.HasRows ref)
      ref team := by
  obtain ⟨o, ho, hsites⟩ := hops.exists_owners
  have hstart : Registry.IsCatalogued { persistent := s.storeDir.isTruthy, maxRows := s.queryRows }
      o (.int m) :=
    ⟨⟨Registry.isSound_new .., hdisk, rfl, hrows, by simp [Keyed.keys],
      by simp [Registry.rowsOf, Registry.tableOf], by simp [Registry.find], by simp⟩,
      fun n s hf ↦ by simp [Registry.find] at hf⟩
  obtain ⟨r, hr, h, -⟩ := isCatalogued_afterAll (b := s.embedded) rfl hstart ops
    fun op hop x hx ↦ ho x (List.mem_flatMap.2 ⟨op, hop, hx⟩)
  have hrestart : (s.embedded.afterAll ops).restart.engine = .embedded r.restart := by
    rw [hr]
    rfl
  obtain ⟨r', hr', h', hsame⟩ := isCatalogued_afterAll hrestart h.restart reads
    fun op hop x hx ↦ by simp [Operation.records, hreads op hop] at hx
  have hb : (s.embedded.afterAll ops).restart.afterAll reads =
      { s.embedded.afterAll ops with engine := .embedded r' } := by
    rw [hr', hr]
    rfl
  have hsent : (∃ n, o.sites n ∧ o.Names ref n) → AreSentTo (ops.flatMap (·.records)) ref := by
    rintro ⟨n, hn, hname⟩
    obtain ⟨x, hx, hsite⟩ := hsites n hn
    cases ref with
    | number => exact ⟨x, hx, hsite.trans (congrArg some hname)⟩
    | tag => exact ⟨x, hx, by simp [hsite], ((ho x hx) n hsite).2.1.trans hname⟩
  rw [hb]
  refine answersAs_of_isCatalogued (congrArg engine hr) h h'
    (fun n ↦ (hsame hreads n).trans (Registry.rowsOf_restart h.persistent n)) href
    (fun hp hown ↦ ?_) team
  simpa only [registry_eq (congrArg engine hr)] using hp (hsent hown)

theorem areOwned_singleton {x : EventRecord} {n : Int} (hn : x.site = some n) (hpos : 0 ≤ n)
    (hteam : x.team.isSome = true) : AreOwned [x] := by
  refine ⟨fun hx hm ↦ ?_, fun hx _ ↦ ?_, fun hx hy _ _ ↦ ?_, fun hx hy hm hn hne ↦ ?_⟩ <;>
    obtain rfl := List.mem_singleton.1 hx
  · exact Option.some.inj (hn.symm.trans hm) ▸ hpos
  · exact hteam
  · obtain rfl := List.mem_singleton.1 hy
    exact ⟨rfl, rfl⟩
  · obtain rfl := List.mem_singleton.1 hy
    exact absurd (Option.some.inj (hm.symm.trans ‹_›)) hne

/-- The event is found by its tag after a restart, when others have asked for the site. -/
theorem answersAs_restart_oneView :
    Settings.onDisk.storeDir.isTruthy = true ∧ Settings.onDisk.queryRows = .int 500 ∧
    AreOwned (oneView.flatMap (·.records)) ∧
    (∀ op ∈ [Operation.hasAny (.of (.number 1) 20)], op.batch = none) ∧
    SiteRef.tag "tag" ≠ .tag "" ∧
    (Settings.onDisk.embedded.afterAll oneView).registry.HasRows (.tag "tag") ∧
    (Settings.onDisk.embedded.afterAll oneView).AnswersAs
      ((Settings.onDisk.embedded.afterAll oneView).restart.afterAll [.hasAny (.of (.number 1) 20)])
      (AreSentTo (oneView.flatMap (·.records)) (.tag "tag") →
        (Settings.onDisk.embedded.afterAll oneView).registry.HasRows (.tag "tag"))
      (.tag "tag") 10 := by
  have hops : AreOwned (oneView.flatMap (·.records)) := areOwned_singleton rfl (by decide) rfl
  have hreads : ∀ op ∈ [Operation.hasAny (.of (.number 1) 20)], op.batch = none := by
    simp [Operation.batch]
  have htag : SiteRef.tag "tag" ≠ .tag "" := by decide
  exact ⟨rfl, rfl, hops, hreads, htag, ⟨1, _, List.mem_singleton.2 rfl, rfl⟩,
    answersAs_restart Settings.onDisk 500 rfl rfl hops hreads htag 10⟩

/-- A site whose only record could not be stored goes by its team until the restart, and by none
after it: a page that the storage refuses is empty for another team before, and fails after. An
empty tag is in no index, and leads to a store only if that is not open. -/
theorem answers_change_after_restart :
    AreOwned (failedWrite.flatMap (·.records)) ∧
    ((Settings.onDisk.embedded.afterAll failedWrite).list (.of (.number 1) 20)
      { limit := 0x8000000000000000 }).1.outcome.map Except.isOk = some true ∧
    ((Settings.onDisk.embedded.afterAll failedWrite).restart.list (.of (.number 1) 20)
      { limit := 0x8000000000000000 }).1.outcome.map Except.isOk = some false ∧
    AreOwned (untaggedView.flatMap (·.records)) ∧
    ((Settings.onDisk.embedded.afterAll untaggedView).hasAny (.of (.tag "") 10)).1.outcome.bind
      Except.toOption = some false ∧
    ((Settings.onDisk.embedded.afterAll untaggedView).restart.hasAny
      (.of (.tag "") 10)).1.outcome.bind Except.toOption = some true := by
  refine ⟨areOwned_singleton rfl (by decide) rfl, rfl, ?_, areOwned_singleton rfl (by decide) rfl,
    ?_, ?_⟩ <;> decide +kernel

end Backend

end Footfall
