import Footfall.Proofs.Answering
import Footfall.Proofs.Transparency

/-!
What a caller learns of strangers. Two states of the service with the same sites of the caller, and
the same rows of theirs that the caller may see, give the caller the same answers, whatever there is
of others. A site of the caller may have a store without rows in one state and none in the other;
what is answered then differs only in what the storage refuses.
-/

namespace Footfall

variable {α β : Type}

namespace Connection

variable {c : Connection}

theorem maxRows_loadIdentity (hc : c.IsSound) :
    c.loadIdentity.2.store.maxRows = c.store.maxRows := by
  cases h : c.store.identityLoaded with
  | true => rw [loadIdentity_of_loaded h]
  | false =>
    rw [loadIdentity_of_not_loaded hc h]
    cases c.content <;> simp [SiteStore.identified]

/-- A store that has been asked for its owner will find no other. -/
def IsSettled (c : Connection) : Prop := c.store.identityLoaded = true ∨ c.content = []

theorem isSettled_loadIdentity (hc : c.IsSound) : c.loadIdentity.2.IsSettled := by
  cases h : c.store.identityLoaded with
  | true => exact .inl (by rwa [loadIdentity_of_loaded h])
  | false =>
    rw [IsSettled, content_loadIdentity hc, loadIdentity_of_not_loaded hc h]
    cases ht : c.content with
    | nil => exact .inr rfl
    | cons e t => exact .inl rfl

theorem team_loadIdentity_of_isSettled (hc : c.IsSound) (h : c.IsSettled) :
    c.loadIdentity.2.store.team = c.store.team := by
  rcases h with h | h
  · rw [loadIdentity_of_loaded h]
  · rcases team_loadIdentity hc with ht | ht
    · exact ht
    · simpa [h, Table.oldestTeam] using ht

end Connection

namespace Registry

variable {r r' : Registry} {n team : Int}

/-- The number of rows that a query of a site may have. -/
def limitAt (r : Registry) (n : Int) : Value := ((r.find n).map (·.maxRows)).getD r.maxRows

/-- The rows that a site shows to a team, which are those of the store that a read comes to. None if
it comes to no store. -/
def shown (r : Registry) (n team : Int) : Option Table :=
  match (r.storeOf (.of (.number n) team)).1 with
  | .ok (some _) => some (r.rowsOf n)
  | _ => none

/-- A store is opened from the connection that it has, or gets, with the rows of its site. -/
theorem of_reopen (h : r.IsSound) {s : SiteStore} (hr : r.reopen n = (.ok (some s), r')) :
    ∃ c : Connection, c.IsSound ∧ c.content = r.rowsOf n ∧ s = c.loadIdentity.2.store ∧
      c.store.maxRows = r.limitAt n ∧ ∀ s₀, r.find n = some s₀ → c.store = s₀ := by
  unfold reopen at hr
  split at hr
  · cases hr
  cases hf : r.find n with
  | some s₀ =>
    have hh := h.holds hf
    have hc := hh.isSound_connect
    simp only [hf, Connection.fst_loadIdentity hc, Prod.mk.injEq, Except.ok.injEq,
      Option.some.injEq] at hr
    exact ⟨r.connect s₀, hc, hh.content_connect, hr.1.symm, by simp [limitAt, hf, connect],
      fun _ hs ↦ Option.some.inj hs⟩
  | none =>
    have hh := (h.obtain n none none).holds (by rw [find_obtain, if_pos rfl])
    have hc := hh.isSound_connect
    have hrows : (r.obtain n none none).2.rowsOf n = r.rowsOf n := by simp [Registry.rowsOf]
    have hfst : (r.obtain n none none).1 = r.storeFor n none none := rfl
    simp only [hf, hfst, Connection.fst_loadIdentity hc, Prod.mk.injEq, Except.ok.injEq,
      Option.some.injEq] at hr
    refine ⟨_, hc, hh.content_connect.trans hrows, hr.1.symm, ?_, by simp⟩
    have hf' : Keyed.find r.stores n = none := hf
    simp [limitAt, hf, connect, storeFor, hf']

theorem storeOf_number (r : Registry) (n team : Int) :
    r.storeOf (.of (.number n) team) = ((r.reopen n).1.map
      (·.filter (·.team.all (Scope.of (.number n) team).isOfTeam)), (r.reopen n).2) := rfl

/-- In memory, a site without an open store shows nothing. -/
theorem shown_of_absent (hf : r.find n = none) (hp : r.persistent = false) (team : Int) :
    r.shown n team = none := by
  simp [shown, storeOf_number, reopen, hf, persistedSites, Settings.persistedSites, files, hp,
    Except.map]

theorem fst_read_shown (h : r.IsSound) {f : Connection → Except Failure α × Connection}
    {q : Int → Value → Table → Except Failure α} (hf : Connection.Computes f q) (n team : Int)
    (absent : Except Failure α) :
    (r.read (.of (.number n) team) absent f).1 = match r.shown n team with
      | none => .done absent
      | some t => .done (q n (r.limitAt n) t) Work.storePauses := by
  rcases reopen_cases h n with ⟨-, hr⟩ | ⟨s, r', hr, hs, ho⟩
  · simp [read, shown, storeOf_number, hr, Except.map]
  · obtain ⟨c, hc, -, hstore, hmax, -⟩ := of_reopen h hr
    have hh := ho.isSound.holds hs
    have hlimit : s.maxRows = r.limitAt n := by
      rw [hstore, Connection.maxRows_loadIdentity hc, hmax]
    by_cases ht : s.team.all (Scope.of (.number n) team).isOfTeam = true
    · simp only [read, shown, storeOf_number, hr, Except.map, Option.filter_some, ht, if_true,
        hf.fst hh.isSound_connect, hh.content_connect, ho.rowsOf]
      rw [← hlimit, ← hh.1]
      rfl
    · simp [read, shown, storeOf_number, hr, Except.map, Option.filter_some, ht]

theorem shown_of_reopen {s : SiteStore} (hr : r.reopen n = (.ok (some s), r')) (team : Int) :
    r.shown n team =
      if s.team.all (Scope.of (.number n) team).isOfTeam then some (r.rowsOf n) else none := by
  cases ht : s.team.all (Scope.of (.number n) team).isOfTeam <;>
    simp [shown, storeOf_number, hr, Except.map, Option.filter_some, ht]

/-- A store that has been asked for its owner stays with it. -/
theorem shown_of_isSettled (h : r.IsSound) {s : SiteStore} (hs : r.find n = some s)
    (hset : (r.connect s).IsSettled) (team : Int) :
    r.shown n team =
      if s.team.all (Scope.of (.number n) team).isOfTeam then some (r.rowsOf n) else none := by
  rcases reopen_cases h n with ⟨hn, -⟩ | ⟨s', r', hr, -, -⟩
  · simp [hs] at hn
  · obtain ⟨c, hc, hrows, rfl, -, hstore⟩ := of_reopen h hr
    have hh := h.holds hs
    have hset' : c.IsSettled := by
      rwa [Connection.IsSettled, hstore s hs, hrows, ← hh.content_connect]
    have hteam : c.loadIdentity.2.store.team = s.team := by
      rw [Connection.team_loadIdentity_of_isSettled hc hset', hstore s hs]
    rw [shown_of_reopen hr, hteam]

/-- A read of a site shows what it has shown before. -/
theorem shown_read (h : r.IsSound) {f : Connection → Except Failure α × Connection}
    (hf : Connection.Idle f) (n team : Int) (absent : Except Failure α) :
    (r.read (.of (.number n) team) absent f).2.shown n team = r.shown n team := by
  rcases reopen_cases h n with ⟨-, hr⟩ | ⟨s, r', hr, hs, ho⟩
  · simp [read, storeOf_number, hr, Except.map]
  obtain ⟨c, hc, hrows, hstore, -, -⟩ := of_reopen h hr
  have hh := ho.isSound.holds hs
  have hset : (r'.connect s).IsSettled := by
    have hset := Connection.isSettled_loadIdentity hc
    rw [Connection.IsSettled, ← hstore, Connection.content_loadIdentity hc, hrows, ← ho.rowsOf,
      ← hh.content_connect] at hset
    exact hset
  rw [shown_of_reopen hr]
  -- The read has asked the store for its owner, and goes on with it only if the team may see it.
  by_cases ht : s.team.all (Scope.of (.number n) team).isOfTeam = true
  · have hread : (r.read (.of (.number n) team) absent f).2 = r'.save (f (r'.connect s)).2 := by
      simp only [read, storeOf_number, hr, Except.map, Option.filter_some, ht, if_true]
    have ho' := ho.trans (opens_save_idle hf ho.isSound hs)
    have hsaved : ∃ s', (r'.save (f (r'.connect s)).2).find n = some s' ∧ s'.team = s.team ∧
        s'.identityLoaded = s.identityLoaded := by
      rcases hf _ hh.isSound_connect with hi | hi <;> rw [hi] <;>
        exact ⟨_, by rw [find_save, if_pos (by simpa [connect] using hh.1)], by simp [connect],
          by simp [connect]⟩
    obtain ⟨s', hs', hteam, hloaded⟩ := hsaved
    have hh' := ho'.isSound.holds hs'
    rw [hread, shown_of_isSettled ho'.isSound hs', hteam, ho'.rowsOf]
    rw [Connection.IsSettled, hh.content_connect, ho.rowsOf] at hset
    rw [Connection.IsSettled, hh'.content_connect, ho'.rowsOf]
    exact hset.imp_left hloaded.trans
  · have hread : (r.read (.of (.number n) team) absent f).2 = r' := by
      simp only [read, storeOf_number, hr, Except.map, Option.filter_some, ht]
      rfl
    rw [hread, shown_of_isSettled ho.isSound hs hset, ho.rowsOf]

end Registry

namespace Server

variable {s s' : Server} {site : SiteRef} {team : Int}

/-- Two servers have the same rows of a site and a team, and allow queries the same number of
rows. -/
structure SameAt (s s' : Server) (site : SiteRef) (team : Int) : Prop where
  dialect : s'.dialect = s.dialect
  maxRows : s'.maxRows = s.maxRows
  rows : s'.table.map (·.rowsOf site team) = s.table.map (·.rowsOf site team)

theorem SameAt.tables (h : s.SameAt s' site team) :
    (s.table = none ∧ s'.table = none) ∨ ∃ t t', s.table = some t ∧ s'.table = some t' ∧
      t'.rowsOf site team = t.rowsOf site team := by
  have hrows := h.rows
  cases ht : s.table <;> cases ht' : s'.table <;> simp [ht, ht'] at hrows
  · exact .inl ⟨rfl, rfl⟩
  · exact .inr ⟨_, _, rfl, rfl, hrows⟩

theorem SameAt.read (h : s.SameAt s' site team) {f : Table → Conditions → Except Failure α}
    (hf : ∀ t base, f (Table.meeting t base) [] = f t base) :
    s'.read (.of site team) f = s.read (.of site team) f := by
  rcases h.tables with ⟨ht, ht'⟩ | ⟨t, t', ht, ht', hrows⟩
  · simp only [Server.read, ht, ht']
  · rw [read_of ht _ _ (hf t), read_of ht' _ _ (hf t'), hrows]

theorem SameAt.list (h : s.SameAt s' site team) (f : EventFilters) :
    s'.list (.of site team) f = s.list (.of site team) f := by
  rcases h.tables with ⟨ht, ht'⟩ | ⟨t, t', ht, ht', hrows⟩
  · simp only [Server.list, ht, ht']
  · rw [list_of ht, list_of ht', hrows]

theorem SameAt.run {n : Int} (h : s.SameAt s' (.number n) team) (q : TableQuery) (limit : Value) :
    s'.run (.of (.number n) team) q limit = s.run (.of (.number n) team) q limit := by
  rcases h.tables with ⟨ht, ht'⟩ | ⟨t, t', ht, ht', hrows⟩
  · simp only [Server.run, ht, ht', h.maxRows]
  · rw [run_of ht, run_of ht', hrows, h.maxRows]

end Server

/-- Two storages that look alike to a team at a site: they show it the same rows. -/
inductive Engine.LooksAlike (n team : Int) : Engine → Engine → Prop
  | embedded {r r' : Registry} (left : r.IsSound) (right : r'.IsSound)
      (rows : (r'.shown n team).getD [] = (r.shown n team).getD []) :
      LooksAlike n team (.embedded r) (.embedded r')
  | server {s s' : Server} (same : s.SameAt s' (.number n) team) :
      LooksAlike n team (.server s) (.server s')
  | same (e : Engine) : LooksAlike n team e e

namespace Backend

variable {b c : Backend} {n team : Int} {l : TimeLimit}

theorem isSound_afterAll (s : Settings) (ops : List Operation) {r : Registry}
    (hr : (s.embedded.afterAll ops).engine = .embedded r) : r.IsSound := by
  obtain ⟨r', hr', h, -⟩ := run_induction s (P := fun _ _ ↦ True) trivial (by simp) ops
  cases hr.symm.trans hr'
  exact h

/-- The rows of the store that a read of a site comes to, or of the table that has the site. -/
def shown (b : Backend) (n team : Int) : Option Table :=
  match b.engine with
  | .embedded r => r.shown n team
  | .server s => s.table.map (·.rowsOf (.number n) team)
  | _ => none

structure LooksAlike (b c : Backend) (n team : Int) : Prop where
  windowDays : c.windowDays = b.windowDays
  engine : b.engine.LooksAlike n team c.engine

theorem LooksAlike.read (h : b.LooksAlike c n team)
    {own : Connection → Except Failure α × Connection} {q : Int → Value → Table → Except Failure α}
    (hown : Connection.Computes own q) {empty : Except Failure α} {check : Except Failure Unit}
    (hlimit : ∀ r r', b.engine = .embedded r → c.engine = .embedded r' →
      q n (r'.limitAt n) = q n (r.limitAt n))
    (hnil : ∀ r, b.engine = .embedded r →
      ComesTo l (q n (r.limitAt n) []) (check >>= fun _ ↦ empty))
    {shared : Server → Except Failure α}
    (hshared : ∀ s s', s.SameAt s' (.number n) team → shared s' = shared s) :
    Work.Matches l (c.shown n team = b.shown n team)
      (b.read (.of (.number n) team) empty check own shared).1
      (c.read (.of (.number n) team) empty check own shared).1 := by
  have hengine := h.engine
  generalize hb : b.engine = e at hengine
  generalize hc : c.engine = e' at hengine
  cases hengine with
  | same =>
    have hsame : (c.read (.of (.number n) team) empty check own shared).1 =
        (b.read (.of (.number n) team) empty check own shared).1 := by
      cases e <;> simp only [Backend.read, hb, hc]
    exact hsame ▸ .refl ..
  | server same =>
    simp only [Backend.read, hb, hc, hshared _ _ same]
    exact .refl ..
  | @embedded r r' left right rows =>
    rw [read_embedded hb, read_embedded hc, Registry.fst_read_shown left hown,
      Registry.fst_read_shown right hown, hlimit r r' hb hc]
    simp only [shown, hb, hc]
    -- One of the two may have a store without rows, and the other no store.
    cases hr : r.shown n team <;> cases hr' : r'.shown n team <;>
      simp only [hr, hr', Option.getD_none, Option.getD_some] at rows
    · exact .refl ..
    · exact .of_outcome (by simp) (fun _ ↦ rfl) (Work.outcome_of_comesTo (rows ▸ hnil r hb))
    · exact .of_outcome (by simp) (Work.outcome_of_comesTo (rows ▸ hnil r hb)) fun _ ↦ rfl
    · exact rows ▸ .refl ..

theorem LooksAlike.reads (h : b.LooksAlike c n team)
    {own : Connection → Except Failure α × Connection} {q : Table → Except Failure α}
    {empty : Except Failure α} (hown : Connection.IsRead own q empty)
    {shared : Server → Except Failure α}
    (hshared : ∀ s s', s.SameAt s' (.number n) team → shared s' = shared s) :
    Work.Matches l (c.shown n team = b.shown n team)
      (b.read (.of (.number n) team) empty (.ok ()) own shared).1
      (c.read (.of (.number n) team) empty (.ok ()) own shared).1 :=
  h.read hown.reads.computes (fun _ _ _ _ ↦ rfl) (fun _ _ ↦ hown.nil l) hshared

theorem LooksAlike.hasAny (h : b.LooksAlike c n team) :
    Work.Matches l (c.shown n team = b.shown n team) (b.hasAny (.of (.number n) team)).1
      (c.hasAny (.of (.number n) team)).1 :=
  h.reads Connection.isRead_hasEvents fun _ _ hs ↦
    hs.read fun t base ↦ congrArg Except.ok (t.hasAny_meeting base)

/-- Two storages look alike after a read still, and show the same if they did. -/
theorem LooksAlike.snd_read (h : b.LooksAlike c n team)
    {own : Connection → Except Failure α × Connection} (hown : Connection.Idle own)
    (empty : Except Failure α) (check : Except Failure Unit) (shared : Server → Except Failure α) :
    let b' := (b.read (.of (.number n) team) empty check own shared).2
    let c' := (c.read (.of (.number n) team) empty check own shared).2
    b'.LooksAlike c' n team ∧
      (c.shown n team = b.shown n team → c'.shown n team = b'.shown n team) := by
  have hengine := h.engine
  generalize hb : b.engine = e at hengine
  generalize hc : c.engine = e' at hengine
  cases hengine with
  | same =>
    have hsame : (c.read (.of (.number n) team) empty check own shared).2.engine =
        (b.read (.of (.number n) team) empty check own shared).2.engine := by
      cases e <;> simp only [Backend.read, hb, hc]
    have hdays (b : Backend) :
        (b.read (.of (.number n) team) empty check own shared).2.windowDays = b.windowDays := by
      unfold Backend.read
      split <;> rfl
    exact ⟨⟨by rw [hdays, hdays, h.windowDays], hsame ▸ .same _⟩,
      fun _ ↦ by rw [Backend.shown, Backend.shown, hsame]⟩
  | server same =>
    simp only [Backend.read, hb, hc]
    exact ⟨h, id⟩
  | @embedded r r' left right rows =>
    rw [read_embedded hb, read_embedded hc]
    have hr := Registry.shown_read left hown n team (check >>= fun _ ↦ empty)
    have hr' := Registry.shown_read right hown n team (check >>= fun _ ↦ empty)
    refine ⟨⟨h.windowDays, .embedded (Registry.opens_read hown left ..).isSound
      (Registry.opens_read hown right ..).isSound ?_⟩, ?_⟩
    · rwa [hr, hr']
    · simp only [shown, hb, hc, hr, hr', imp_self]

theorem LooksAlike.compile (h : b.LooksAlike c n team) (s : Scope) (w : Widget)
    (f : Option WidgetFilters) : c.compile s w f = b.compile s w f := by
  have hengine := h.engine
  unfold Backend.compile dialect isShared
  generalize b.engine = e at hengine
  generalize c.engine = e' at hengine
  cases hengine with
  | embedded => rfl
  | server same => simp only [same.dialect]
  | same => rfl

theorem dashboard_of_ok {now : Instant} {o : DashboardOptions} {f : EventFilters}
    (hf : o.filters now b.windowDays = .ok f) :
    b.dashboard now o = b.read (.of o.site o.team) (.ok (.empty f)) (.ok ()) (ownDashboard f)
      fun server ↦ server.list (.of o.site o.team) f >>= rowsOfPage f Server.source := by
  unfold dashboard
  cases hb : b.engine with
  | stalled => simp only [Backend.read, hb]
  | failing e => simp only [Backend.read, hb]
  | _ => simp only [hf]; rfl

theorem dashboard_of_error {now : Instant} {o : DashboardOptions} {e : Fault}
    (hf : o.filters now b.windowDays = .error e) :
    b.dashboard now o = (match b.engine with
      | .stalled => .unending
      | .failing e => .done (.error e)
      | _ => .done (.error (.fault e)), b) := by
  unfold dashboard
  cases hb : b.engine <;> simp only [hf]

theorem LooksAlike.dashboard (h : b.LooksAlike c n team) (now : Instant) {o : DashboardOptions}
    (hsite : o.site = .number n) (hteam : o.team = team) :
    Work.Matches l (c.shown n team = b.shown n team) (b.dashboard now o).1 (c.dashboard now o).1 ∧
      (b.dashboard now o).2.LooksAlike (c.dashboard now o).2 n team ∧
      (c.shown n team = b.shown n team →
        (c.dashboard now o).2.shown n team = (b.dashboard now o).2.shown n team) := by
  subst hteam
  cases hf : o.filters now b.windowDays with
  | error e =>
    have hf' : o.filters now c.windowDays = .error e := h.windowDays ▸ hf
    rw [dashboard_of_error hf, dashboard_of_error hf']
    refine ⟨?_, h, id⟩
    have hengine := h.engine
    generalize b.engine = e at hengine
    generalize c.engine = e' at hengine
    cases hengine <;> exact .refl ..
  | ok f =>
    have hf' : o.filters now c.windowDays = .ok f := h.windowDays ▸ hf
    rw [dashboard_of_ok hf, dashboard_of_ok hf', hsite]
    exact ⟨h.reads (Connection.isRead_dashboard f) fun s s' hs ↦ by rw [hs.list],
      h.snd_read (reads_ownDashboard f).idle ..⟩

end Backend

namespace Service

variable {s s' : Service} {sites sites' : List Site} {t : Tenant} {x : Site}

/-- Two states of the service that are the same to a caller: the caller has the same sites, each
shows the caller the same rows, and everything else may differ. -/
structure LooksAlike (s s' : Service) (sites sites' : List Site) (t : Tenant) : Prop where
  left : s.directory = .ofSites sites
  right : s'.directory = .ofSites sites'
  ids : (sites.map (·.id)).Nodup ∧ (sites'.map (·.id)).Nodup
  tags : (sites.map (·.tag)).Nodup ∧ (sites'.map (·.tag)).Nodup
  owned (x : Site) : t.owns x = true → (x ∈ sites' ↔ x ∈ sites)
  timeout : s'.timeout = s.timeout
  backend {x : Site} : x ∈ sites → t.owns x = true →
    (s.dispatcher.backend t.storage).LooksAlike (s'.dispatcher.backend t.storage) x.id t.team
  limit {x : Site} : x ∈ sites → t.owns x = true → ∃ m, ∀ r,
    (s.dispatcher.backend t.storage).engine = .embedded r ∨
      (s'.dispatcher.backend t.storage).engine = .embedded r → r.limitAt x.id = .int m

theorem find?_ofSites_eq_some_iff (hids : (sites.map (·.id)).Nodup)
    (htags : (sites.map (·.tag)).Nodup) (ref : SiteRef) :
    (Directory.ofSites sites).find? ref = some x ↔
      x ∈ sites ∧ ref = match ref with
        | .number _ => .number x.id
        | .tag _ => .tag x.tag := by
  cases ref with
  | number n =>
    constructor
    · intro h
      obtain ⟨hx, rfl⟩ := Directory.of_find?_number h
      exact ⟨hx, rfl⟩
    · rintro ⟨hx, hn⟩
      exact hn ▸ Directory.find?_number_ofSites hids hx
  | tag u =>
    constructor
    · intro h
      obtain ⟨hx, rfl⟩ := Directory.of_find?_tag h
      exact ⟨hx, rfl⟩
    · rintro ⟨hx, hu⟩
      exact hu ▸ Directory.find?_tag_ofSites htags hx

/-- The names that a caller gives lead to the caller's own sites in both, or to none. -/
theorem LooksAlike.find? (h : s.LooksAlike s' sites sites' t) (ref : SiteRef) :
    (s'.directory.find? ref).filter t.owns = (s.directory.find? ref).filter t.owns := by
  ext x
  rw [Option.filter_eq_some_iff, Option.filter_eq_some_iff, h.left, h.right,
    find?_ofSites_eq_some_iff h.ids.1 h.tags.1, find?_ofSites_eq_some_iff h.ids.2 h.tags.2]
  exact and_congr_left fun hx ↦ and_congr_left fun _ ↦ h.owned x hx

theorem LooksAlike.siteFor (h : s.LooksAlike s' sites sites' t) (number tag : Value) :
    s'.siteFor t number tag = s.siteFor t number tag := by
  unfold Service.siteFor
  cases tag.isNull <;> simp only [Directory.withNumber, Directory.withTag]
  · cases tag.asTextKey with
    | error e => rfl
    | ok key =>
      cases key with
      | none => rfl
      | some u =>
        have := h.find? (.tag u)
        simp only [Directory.find?] at this
        simp [Except.mapError, bind, Except.bind, pure, Except.pure, this]
  · cases number.asNumberKey with
    | error e => rfl
    | ok key =>
      cases key with
      | none => rfl
      | some n =>
        have := h.find? (.number n)
        simp only [Directory.find?] at this
        simp [Except.mapError, bind, Except.bind, pure, Except.pure, this]

/-- In both states a read of the site that the caller asks for comes to a store, or in both to none.
A site that is not the caller's makes no difference. -/
def ShowsSame (s s' : Service) (t : Tenant) (number tag : Value) : Prop :=
  ∀ x, s.siteFor t number tag = .ok x → (s'.dispatcher.backend t.storage).shown x.id t.team =
    (s.dispatcher.backend t.storage).shown x.id t.team

variable {number tag : Value}

theorem LooksAlike.siteFor_cases (h : s.LooksAlike s' sites sites' t) (number tag : Value) :
    (∃ e, s.siteFor t number tag = .error e ∧ s'.siteFor t number tag = .error e) ∨
      ∃ x ∈ sites, t.owns x = true ∧ s.siteFor t number tag = .ok x ∧
        s'.siteFor t number tag = .ok x := by
  rw [h.siteFor]
  cases hx : s.siteFor t number tag with
  | error e => exact .inl ⟨e, rfl, rfl⟩
  | ok x =>
    obtain ⟨hmem, hown⟩ := mem_of_siteFor h.left hx
    exact .inr ⟨x, hmem, hown, rfl, rfl⟩

theorem LooksAlike.read (h : s.LooksAlike s' sites sites' t) (site : Value)
    (empty : Except Failure α) {f : Scope → Backend → Work α × Backend}
    (hf : ∀ n b c, b.LooksAlike c n t.team → Work.Matches s.timeout
      (c.shown n t.team = b.shown n t.team) (f (.of (.number n) t.team) b).1
        (f (.of (.number n) t.team) c).1) :
    Work.Matches s.timeout (s.ShowsSame s' t site .null) (s.read t site empty f).1
      (s'.read t site empty f).1 := by
  rcases h.siteFor_cases site .null with ⟨e, hs, hs'⟩ | ⟨x, hx, hown, hs, hs'⟩
  · unfold Service.read
    rw [hs, hs']
    cases e <;> exact .refl ..
  · simp only [Service.read, hs, hs', fst_timed, h.timeout]
    exact (hf _ _ _ (h.backend hx hown)).under.mono fun hp ↦ hp x hs

theorem LooksAlike.reads (h : s.LooksAlike s' sites sites' t) (site : Value)
    {own : Connection → Except Failure α × Connection} {q : Table → Except Failure α}
    {empty : Except Failure α} (hown : Connection.IsRead own q empty)
    {shared : Scope → Server → Except Failure α}
    (hshared : ∀ n s s', s.SameAt s' (.number n) t.team →
      shared (.of (.number n) t.team) s' = shared (.of (.number n) t.team) s) :
    Work.Matches s.timeout (s.ShowsSame s' t site .null)
      (s.read t site empty fun scope b ↦ b.read scope empty (.ok ()) own (shared scope)).1
      (s'.read t site empty fun scope b ↦ b.read scope empty (.ok ()) own (shared scope)).1 :=
  h.read site empty fun n _ _ hb ↦ hb.reads hown (hshared n)

theorem fst_widget (s : Service) (t : Tenant) (site : Value) (w : Widget)
    (f : Option WidgetFilters) :
    (s.widget t site w f).1 = match s.siteFor t site .null with
      | .error e => .done (.error e)
      | .ok x =>
        match (s.dispatcher.backend t.storage).compile (.of (.number x.id) t.team) w f with
        | .error e => .done (.error e)
        | .ok q => (((s.dispatcher.backend t.storage).run (.of (.number x.id) t.team) (.chart q)
            .null).1.under s.timeout).andThen fun rows ↦ .done (chartData w q.text rows) := by
  unfold widget
  cases s.siteFor t site .null with
  | error e => rfl
  | ok x =>
    simp only
    cases (s.dispatcher.backend t.storage).compile (.of (.number x.id) t.team) w f with
    | error e => rfl
    | ok q =>
      have hfst := fst_timed s t.storage (f := (·.run (.of (.number x.id) t.team) (.chart q) .null))
      rcases hw : s.timed t.storage (·.run (.of (.number x.id) t.team) (.chart q) .null) with
        ⟨v, s'⟩
      rw [hw] at hfst
      simp only [hw, ← hfst]
      rcases v with ⟨_ | _, _⟩ | _ <;> rfl

theorem LooksAlike.widget (h : s.LooksAlike s' sites sites' t) (site : Value) (w : Widget)
    (f : Option WidgetFilters) :
    Work.Matches s.timeout (s.ShowsSame s' t site .null) (s.widget t site w f).1
      (s'.widget t site w f).1 := by
  rw [fst_widget, fst_widget]
  rcases h.siteFor_cases site .null with ⟨e, hs, hs'⟩ | ⟨x, hx, hown, hs, hs'⟩
  · rw [hs, hs']
    exact .refl ..
  · rw [hs, hs', h.timeout]
    have hb := h.backend hx hown
    obtain ⟨m, hm⟩ := h.limit hx hown
    simp only [hb.compile]
    cases (s.dispatcher.backend t.storage).compile (.of (.number x.id) t.team) w f with
    | error e => exact .refl ..
    | ok q =>
      have hrun := hb.read (l := s.timeout) (Connection.computes_run (.chart q) .null)
        (fun r r' hr hr' ↦ by rw [hm r (.inl hr), hm r' (.inr hr')])
        (fun r hr ↦ hm r (.inl hr) ▸ TableQuery.ofStore_nil s.timeout q none x.id m)
        (fun _ _ hs ↦ hs.run (.chart q) .null)
      exact (hrun.under.mono fun hp ↦ hp x hs).andThen fun rows ↦ .refl ..

theorem snd_timed {u : Unit} (hs : s.timeout.start = .ok u) (kind : StorageKind)
    (f : Backend → Work α × Backend) :
    (s.timed kind f).2.timeout = s.timeout ∧
      (s.timed kind f).2.dispatcher.backend kind = (f (s.dispatcher.backend kind)).2 := by
  simp [timed, hs, onBackend]

theorem fst_bareDashboard (s : Service) (t : Tenant) (site : Site) (d : DashboardRows) :
    (s.bareDashboard t site d).1 = (((s.dispatcher.backend t.storage).hasAny
      (.of (.number site.id) t.team)).1.under s.timeout).andThen fun hasEvents ↦
        .done (.ok (dashboardOf site t d hasEvents)) := by
  have hfst := fst_timed s t.storage (f := (·.hasAny (.of (.number site.id) t.team)))
  unfold bareDashboard
  rcases hw : s.timed t.storage (·.hasAny (.of (.number site.id) t.team)) with ⟨v, s'⟩
  rw [hw] at hfst
  simp only [← hfst]
  rcases v with ⟨_ | _, _⟩ | _ <;> rfl

theorem fst_ownDashboard (s : Service) (now : Instant) (t : Tenant) (site : Site)
    (o : DashboardOptions) :
    (s.ownDashboard now t site o).1 =
      (((s.dispatcher.backend t.storage).dashboard now o).1.under s.timeout).andThen fun d ↦
        if 0 < d.allTime then .done (.ok (dashboardOf site t d true))
        else ((s.timed t.storage (·.dashboard now o)).2.bareDashboard t site d).1 := by
  have hfst := fst_timed s t.storage (f := (·.dashboard now o))
  rw [ownDashboard_eq]
  rcases hw : s.timed t.storage (·.dashboard now o) with ⟨v, s'⟩
  rw [hw] at hfst
  simp only [← hfst]
  rcases v with ⟨_ | d, _⟩ | _
  · rfl
  · simp only [Work.andThen]
    split <;> rfl
  · rfl

theorem LooksAlike.ownDashboard (h : s.LooksAlike s' sites sites' t) (now : Instant)
    (hx : x ∈ sites) (hown : t.owns x = true) {o : DashboardOptions} (hsite : o.site = .number x.id)
    (hteam : o.team = t.team) :
    Work.Matches s.timeout ((s'.dispatcher.backend t.storage).shown x.id t.team =
        (s.dispatcher.backend t.storage).shown x.id t.team)
      (s.ownDashboard now t x o).1 (s'.ownDashboard now t x o).1 := by
  have hb := h.backend hx hown
  obtain ⟨hrows, hnext, hshown⟩ := hb.dashboard (l := s.timeout) now hsite hteam
  rw [fst_ownDashboard, fst_ownDashboard, h.timeout]
  cases hs : s.timeout.start with
  | error e =>
    simp only [Work.under, hs]
    exact .refl ..
  | ok u =>
    have hs' : s'.timeout.start = .ok u := h.timeout ▸ hs
    refine hrows.under.andThen fun d ↦ ?_
    split
    · exact .refl ..
    obtain ⟨htime, hafter⟩ := snd_timed hs t.storage (·.dashboard now o)
    obtain ⟨htime', hafter'⟩ := snd_timed hs' t.storage (·.dashboard now o)
    rw [fst_bareDashboard, fst_bareDashboard, htime, htime', hafter, hafter', h.timeout]
    have hany := hnext.hasAny (l := s.timeout)
    exact (hany.under.mono hshown).andThen fun hasEvents ↦ .refl ..

theorem LooksAlike.dashboard (h : s.LooksAlike s' sites sites' t) (now : Instant)
    (number tag : Value) (range : Option DateRange) (limit offset : Value) :
    Work.Matches s.timeout (s.ShowsSame s' t number tag)
      (s.dashboard now t number tag range limit offset).1
      (s'.dashboard now t number tag range limit offset).1 := by
  unfold Service.dashboard
  rcases h.siteFor_cases number tag with ⟨e, hs, hs'⟩ | ⟨x, hx, hown, hs, hs'⟩
  · rw [hs, hs']
    cases e <;> exact .refl ..
  · simp only [hs, hs']
    cases ho : dashboardOptions x t (range.getD {}) limit offset with
    | error e => exact .refl ..
    | ok o =>
      obtain ⟨hsite, hteam, -⟩ := of_dashboardOptions ho
      exact (h.ownDashboard now hx hown hsite hteam).mono fun hp ↦ hp x hs

/-- The caller of a call that reads, and the number and tag that the caller asks for. -/
def Call.request? : Call → Option (Tenant × Value × Value)
  | .ingest _ | .ingestMany _ => none
  | .dashboard t number tag .. => some (t, number, tag)
  | .list t site .. | .stats t site .. | .summary t site .. | .series t site .. |
    .widget t site .. => some (t, site, .null)

/-- No read tells its caller two states apart that look alike to the caller. It is answered by the
same work, if in both the site has a store that the caller may see, or in both none; in any case it
comes to the same, unless the storage fails it. -/
theorem perform_matches (h : s.LooksAlike s' sites sites' t) (now : Instant) {call : Call}
    (hc : call.request? = some (t, number, tag)) :
    Work.Matches s.timeout (s.ShowsSame s' t number tag) (s.perform now call).1
      (s'.perform now call).1 := by
  cases call with
  | ingest | ingestMany => cases hc
  | list t site f =>
    cases hc
    exact (h.reads number (Connection.isRead_list f) fun _ _ _ hs ↦ hs.list f).map
  | dashboard t number tag range limit offset =>
    cases hc
    exact (h.dashboard now number tag range limit offset).map
  | stats t site range =>
    cases hc
    exact (h.reads number (Connection.isRead_stats range) fun _ _ _ hs ↦
      hs.read fun t base ↦ congrArg Except.ok (t.stats_meeting base range)).map
  | summary t site o =>
    cases hc
    exact (h.reads number (Connection.isRead_summary o) fun _ _ _ hs ↦
      hs.read fun t base ↦ congrArg (Except.mapError _) (t.summary_meeting base o)).map
  | series t site range g byEvent =>
    cases hc
    exact (h.reads number (Connection.isRead_series range g byEvent) fun _ _ _ hs ↦
      hs.read fun t base ↦ t.series_meeting base range g byEvent).map
  | widget t site w f =>
    cases hc
    exact (h.widget number w f).map

/-- A service with stores in memory, after batches and reads. -/
def ofRun (sites : List Site) (ops : List Operation) : Service :=
  { dispatcher := ({} : Dispatcher).save .sqlite (({} : Settings).embedded.afterAll ops)
    directory := .ofSites sites }

/-- The site of a team, and the site of another. -/
def ownSite : Site := { id := 1, team := 10, tag := "own" }

def strangeSite : Site := { id := 2, team := 20, tag := "strange" }

/-- The site that a caller asks for exists in one state, with an event of its team, and does not
exist in the other. -/
theorem perform_matches_strangeSite :
    let s := ofRun [ownSite] oneView
    let s' := ofRun [ownSite, strangeSite] (oneView ++ [.insert ⟨0⟩ (.plain 2 (some 20))])
    let t : Tenant := { team := 10 }
    let call := Call.list t (.int 2) {}
    s.LooksAlike s' [ownSite] [ownSite, strangeSite] t ∧ call.request? = some (t, .int 2, .null) ∧
      Work.Matches s.timeout (s.ShowsSame s' t (.int 2) .null) (s.perform ⟨0⟩ call).1
        (s'.perform ⟨0⟩ call).1 := by
  intro s s' t call
  have h : s.LooksAlike s' [ownSite] [ownSite, strangeSite] t := by
    refine ⟨rfl, rfl, by decide, by decide, fun x hx ↦ ?_, rfl, fun {x} hx _ ↦ ?_,
      fun {x} hx _ ↦ ⟨500, ?_⟩⟩
    · have hne : x ≠ strangeSite := by
        rintro rfl
        exact absurd hx (by decide)
      simp [hne]
    · obtain rfl := List.mem_singleton.1 hx
      exact ⟨rfl, .embedded (Backend.isSound_afterAll {} oneView rfl)
        (Backend.isSound_afterAll {} (oneView ++ [.insert ⟨0⟩ (.plain 2 (some 20))]) rfl) rfl⟩
    · obtain rfl := List.mem_singleton.1 hx
      rintro r (hr | hr) <;> cases hr <;> rfl
  exact ⟨h, rfl, perform_matches h ⟨0⟩ rfl⟩

/-- The site has no store in one state, and in the other a store that has stayed empty: a page that
the storage refuses is empty in the one and fails in the other. -/
theorem empty_store_shows :
    let s := ofRun [ownSite] []
    let s' := ofRun [ownSite] failedWrite
    let t : Tenant := { team := 10 }
    let call := Call.list t (.int 1) { limit := 0x8000000000000000 }
    s.LooksAlike s' [ownSite] [ownSite] t ∧ call.request? = some (t, .int 1, .null) ∧
      (s.perform ⟨0⟩ call).1.outcome.map Except.isOk = some true ∧
      (s'.perform ⟨0⟩ call).1.outcome.map Except.isOk = some false := by
  intro s s' t call
  have hnone : (({} : Settings).embedded.afterAll []).registry.shown 1 10 = none :=
    Registry.shown_of_absent rfl rfl 10
  have hrows : ((({} : Settings).embedded.afterAll failedWrite).registry.shown 1 10).getD [] =
      ((({} : Settings).embedded.afterAll []).registry.shown 1 10).getD [] := by
    rw [hnone]
    rfl
  refine ⟨⟨rfl, rfl, by decide, by decide, fun x hx ↦ Iff.rfl, rfl, fun {x} hx _ ↦ ?_,
    fun {x} hx _ ↦ ⟨500, ?_⟩⟩, rfl, ?_, ?_⟩
  · obtain rfl := List.mem_singleton.1 hx
    exact ⟨rfl, .embedded (Backend.isSound_afterAll {} [] rfl)
      (Backend.isSound_afterAll {} failedWrite rfl) hrows⟩
  · obtain rfl := List.mem_singleton.1 hx
    rintro r (hr | hr) <;> cases hr <;> rfl
  · decide +kernel
  · decide +kernel

end Service

end Footfall
