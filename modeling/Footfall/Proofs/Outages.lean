import Footfall.Proofs.Admission
import Footfall.Proofs.Losing
import Footfall.Proofs.Strangers

/-!
Storage that has lost a table. Over any history, once others have taken away a table that this
process has made, no read of its site is answered as if the site had no events, until the process
ends. A listing tells so by a page of its own, or it fails as all other reads do.
-/

namespace Footfall

variable {α β : Type}

/-- What happens to a backend: a step of its own, or others take the table of a site away. -/
inductive Happening
  | step (o : Operation)
  | loss (n : Int)

/-- Settings under which a dashboard without a range begins before all dates. -/
def Settings.boundless : Settings := { Settings.onDisk with windowDays := .int 10000000 }

/-- The scope of a read, unless it fails before it looks for the site. -/
def Operation.scope (days : Value) : Operation → Option Scope
  | .list s _ | .hasAny s | .stats s _ | .summary s _ | .series s _ _ _ | .query s _ _ => some s
  | .dashboard now o => (o.filters now days).toOption.map fun _ ↦ .of o.site o.team
  | .insert .. | .insertAll .. | .restart => none

/-- Without a table a query that passes the guard is not run. -/
theorem TableQuery.run_none {q : TableQuery} {checked : String} (hcheck : q.check = .ok checked)
    (bound : Int) (source : String) {view : Except Fault (Table → Table)} {v : Table → Table}
    (hview : view = .ok v) :
    q.run (.int bound) source view none = .error (.outage (.store source)) := by
  obtain ⟨limit, hlimit⟩ : ∃ limit, Sql.neededLimit checked (.int bound) = .ok limit := by
    unfold Sql.neededLimit
    split <;> exact ⟨_, rfl⟩
  simp [TableQuery.run, hcheck, hlimit, hview, Except.mapError, bind, Except.bind, throw, throwThe,
    MonadExceptOf.throw]

theorem Connection.IsBroken.fst_run {c : Connection} (h : c.IsBroken) {m : Int}
    (hm : c.store.maxRows = .int m) {q : TableQuery} {checked : String}
    (hcheck : q.check = .ok checked) (limit : Option Int) :
    (c.run q (.ofWhole limit)).1 = .error c.outage := by
  obtain ⟨bound, hbound⟩ := exists_rowBound limit m
  simp only [Connection.run, hm, hbound, h.prepared, h.table]
  exact TableQuery.run_none hcheck bound _ rfl

namespace Work

variable {l : TimeLimit} {w : Work α}

/-- The work fails by an outage of the storage. -/
def IsOutage (w : Work α) : Prop := ∃ o, w.failure? = some (.outage o)

/-- The work fails since there is no time for it. -/
def IsCutShort (l : TimeLimit) (w : Work α) : Prop :=
  ∃ e, w.failure? = some e ∧ (l.start = .error e ∨ l.cutsOff = true ∧ e = .deadline l.seconds)

/-- The work fails in a certain way, unless there is no time for it. -/
def FailsWith (l : TimeLimit) (e : Failure) (w : Work α) : Prop :=
  w.failure? = some e ∨ w.IsCutShort l

/-- The work fails by an outage of the storage, unless there is no time for it. -/
def Breaks (l : TimeLimit) (w : Work α) : Prop := ∃ o, w.FailsWith l (.outage o)

theorem isOutage_done (o : Outage) (pauses : Nat) :
    (done (.error (.outage o)) pauses : Work α).IsOutage := ⟨o, rfl⟩

theorem failsWith_under {e : Failure} (h : w.failure? = some e) (l : TimeLimit) :
    (w.under l).FailsWith l e := by
  rcases w with ⟨r, pauses⟩ | _
  · rcases under_cases l r pauses with ⟨e', he, hu⟩ | ⟨hs, hcut, hu⟩ | ⟨-, -, hu⟩ <;> rw [hu]
    · exact .inr ⟨e', rfl, .inl he⟩
    · refine .inr ⟨_, rfl, .inr ⟨?_, rfl⟩⟩
      rw [Bool.and_eq_true] at hcut
      simp [TimeLimit.cutsOff, hs, hcut.1, Except.isOk, Except.toBool]
    · exact .inl h
  · cases h

theorem FailsWith.andThen {e : Failure} (h : w.FailsWith l e) (k : α → Work β) :
    (w.andThen k).FailsWith l e := by
  have hfails {e : Failure} (he : w.failure? = some e) : (w.andThen k).failure? = some e := by
    rcases w with ⟨_ | a, pauses⟩ | _ <;> cases he
    rfl
  exact h.imp hfails fun ⟨e', he, hcut⟩ ↦ ⟨e', hfails he, hcut⟩

theorem IsOutage.breaks_under (h : w.IsOutage) (l : TimeLimit) : (w.under l).Breaks l :=
  h.imp fun _ ho ↦ failsWith_under ho l

theorem Breaks.andThen (h : w.Breaks l) (k : α → Work β) : (w.andThen k).Breaks l :=
  h.imp fun _ ho ↦ ho.andThen k

end Work

namespace Backend

variable {b b₀ : Backend} {r r' r₀ : Registry} {s : Server} {n : Int} {e : Happening}
  {events : List Happening}

/-- The backend after others have taken away the table that the events of a site are in. -/
def lose (b : Backend) (n : Int) : Backend :=
  match b.engine with
  | .embedded r => { b with engine := .embedded (r.dropTable n) }
  | .server s => { b with engine := .server { s with table := none } }
  | _ => b

def meet (b : Backend) : Happening → Backend
  | .step o => b.after o
  | .loss n => b.lose n

def meetAll (b : Backend) (events : List Happening) : Backend := events.foldl meet b

@[simp] theorem meetAll_concat (b : Backend) (events : List Happening) (e : Happening) :
    b.meetAll (events ++ [e]) = (b.meetAll events).meet e := by
  simp [meetAll]

/-- A read comes to the store of a site. -/
def Asks (b : Backend) (o : Operation) (n : Int) : Prop :=
  ∃ scope, o.scope b.windowDays = some scope ∧ b.registry.Asks scope n

/-- What a step of embedded stores does: it ends the process, or the stores go on, and those are
asked whose they are to which a read comes. -/
inductive Goes (b : Backend) (r : Registry) (o : Operation) : Registry → Prop
  | ends : o = .restart → Goes b r o r.restart
  | lasts {r' : Registry} : o ≠ .restart → r.Lasts r' →
      (∀ n, r'.isLoaded n = true ↔ r.isLoaded n = true ∨ b.Asks o n ∧ r.rowsOf n ≠ []) →
      Goes b r o r'

theorem goes_read (hb : b.engine = .embedded r) (h : r.IsPlaced) {o : Operation} {scope : Scope}
    (ho : o.scope b.windowDays = some scope) (hne : o ≠ .restart)
    {own : Connection → Except Failure α × Connection} (hown : Connection.Prepares own)
    (absent : Except Failure α) : Goes b r o (r.read scope absent own).2 := by
  have hl := Registry.looks_read h hown scope absent
  refine .lasts hne hl.lasts fun n ↦ ?_
  rw [hl.isLoaded]
  simp [Asks, ho, registry_eq hb]

theorem goes_after (hb : b.engine = .embedded r) (h : r.IsPlaced) (o : Operation) :
    ∃ r', (b.after o).engine = .embedded r' ∧ Goes b r o r' := by
  have hwrite {o : Operation} {now : Instant} {records : List EventRecord}
      (hbatch : o.batch = some (now, records)) (hscope : o.scope b.windowDays = none) :
      ∃ r', (b.after o).engine = .embedded r' ∧ Goes b r o r' := by
    obtain ⟨hl, hloaded⟩ := Registry.lasts_insertAll h now records
    refine ⟨_, engine_after_of_batch hb hbatch, .lasts ?_ hl fun n ↦ ?_⟩
    · rintro rfl
      cases hbatch
    · simp [hloaded, Asks, hscope]
  have hread {o : Operation} {scope : Scope} (ho : o.scope b.windowDays = some scope)
      (hne : o ≠ .restart) {α : Type} {own : Connection → Except Failure α × Connection}
      (hown : Connection.Prepares own) {empty : Except Failure α} {check : Except Failure Unit}
      {shared : Server → Except Failure α}
      (hafter : b.after o = (b.read scope empty check own shared).2) :
      ∃ r', (b.after o).engine = .embedded r' ∧ Goes b r o r' := by
    rw [hafter, read_embedded hb]
    exact ⟨_, rfl, goes_read hb h ho hne hown _⟩
  cases o with
  | insert now record => exact hwrite rfl rfl
  | insertAll now records => exact hwrite rfl rfl
  | list s f => exact hread rfl (by simp) (Connection.prepares_list f) rfl
  | hasAny s => exact hread rfl (by simp) (Connection.prepares_read _) rfl
  | stats s range => exact hread rfl (by simp) (Connection.prepares_read _) rfl
  | summary s o => exact hread rfl (by simp) (Connection.prepares_read _) rfl
  | series s range g byEvent => exact hread rfl (by simp) (Connection.prepares_read _) rfl
  | query s q limit => exact hread rfl (by simp) (Connection.prepares_run q limit) rfl
  | dashboard now o =>
    simp only [after, dashboard_embedded hb]
    cases hf : o.filters now b.windowDays with
    | error f =>
      refine ⟨r, hb, .lasts (by simp) (.refl h) fun n ↦ ?_⟩
      simp [Asks, Operation.scope, hf, Except.toOption]
    | ok f =>
      have hscope : (Operation.dashboard now o).scope b.windowDays = some (.of o.site o.team) := by
        simp [Operation.scope, hf, Except.toOption]
      have hown : Connection.Prepares (ownDashboard f) := Connection.prepares_list f
      exact ⟨_, rfl, goes_read hb h hscope (by simp) hown _⟩
  | restart => exact ⟨r.restart, by simp [after, restart, hb], .ends rfl⟩

/-- A history of embedded stores in which the process does not end. -/
theorem lasts_meetAll (hb : b.engine = .embedded r) (h : r.IsPlaced)
    (hlasts : ∀ e ∈ events, e ≠ .step .restart) :
    ∃ r', (b.meetAll events).engine = .embedded r' ∧ r.Lasts r' ∧
      ∀ n, r.HasLost n → r'.isLoaded n = r.isLoaded n := by
  induction events using List.reverseRecOn with
  | nil => exact ⟨r, hb, .refl h, fun _ _ ↦ rfl⟩
  | append_singleton before e ih =>
    obtain ⟨r', hb', hl, hloaded⟩ := ih fun e he ↦ hlasts e (by simp [he])
    rw [meetAll_concat]
    cases e with
    | step o =>
      obtain ⟨r'', hb'', hgoes⟩ := goes_after hb' hl.isPlaced o
      cases hgoes with
      | ends ho => exact absurd (congrArg Happening.step ho) (hlasts _ (by simp))
      | lasts _ hl' hloaded' =>
        refine ⟨r'', hb'', hl.trans hl', fun n hn ↦ ?_⟩
        -- a store without its table has no rows to find an owner in
        have hrows : r'.rowsOf n = [] := by simp [Registry.rowsOf, hl.lost hn]
        rw [Bool.eq_iff_iff, hloaded', hrows, hloaded n hn]
        simp
    | loss m =>
      obtain ⟨hl', hloaded'⟩ := Registry.lasts_dropTable hl.isPlaced m
      exact ⟨_, by simp [meet, lose, hb'], hl.trans hl',
        fun n hn ↦ (hloaded' n).trans (hloaded n hn)⟩

/-- Since the process began a read has come to the store of a site while it had rows. -/
def HasAsked (b : Backend) (events : List Happening) (n : Int) : Prop :=
  ∃ before o after, events = before ++ .step o :: after ∧ (∀ e ∈ after, e ≠ .step .restart) ∧
    (b.meetAll before).Asks o n ∧ (b.meetAll before).registry.rowsOf n ≠ []

theorem hasAsked_concat : b.HasAsked (events ++ [e]) n ↔
    e ≠ .step .restart ∧ b.HasAsked events n ∨
      ∃ o, e = .step o ∧ (b.meetAll events).Asks o n ∧
        (b.meetAll events).registry.rowsOf n ≠ [] := by
  constructor
  · rintro ⟨before, o, after, hsplit, hafter, hasks⟩
    rcases List.eq_nil_or_concat after with rfl | ⟨after, last, rfl⟩
    · obtain ⟨rfl, he⟩ := List.append_inj' hsplit rfl
      cases he
      exact .inr ⟨o, rfl, hasks⟩
    · rw [List.concat_eq_append, ← List.cons_append, ← List.append_assoc] at hsplit
      obtain ⟨rfl, he⟩ := List.append_inj' hsplit rfl
      cases he
      exact .inl ⟨hafter _ (by simp), before, o, after, rfl, fun e he ↦ hafter e (by simp [he]),
        hasks⟩
  · rintro (⟨he, before, o, after, rfl, hafter, hasks⟩ | ⟨o, rfl, hasks⟩)
    · refine ⟨before, o, after ++ [e], by simp, fun x hx ↦ ?_, hasks⟩
      rcases List.mem_append.1 hx with hx | hx
      · exact hafter x hx
      · rwa [List.mem_singleton.1 hx]
    · exact ⟨events, o, [], rfl, by simp, hasks⟩

/-- A store has found out whose it is exactly if a read has come to it while it had rows. -/
theorem isLoaded_meetAll (hb : b.engine = .embedded r) (hnew : ∀ n, r.find n = none)
    (events : List Happening) :
    ∃ r', (b.meetAll events).engine = .embedded r' ∧ r'.IsPlaced ∧ r'.maxRows = r.maxRows ∧
      ∀ n, r'.isLoaded n = true ↔ b.HasAsked events n := by
  -- from the end of the history, since what a store has found out is what the last event leaves
  induction events using List.reverseRecOn with
  | nil =>
    refine ⟨r, hb, Registry.isPlaced_of_closed hnew, rfl, fun n ↦ ?_⟩
    simp [Registry.isLoaded, hnew, HasAsked]
  | append_singleton before e ih =>
    obtain ⟨r', hb', h', hmax, hloaded⟩ := ih
    simp only [meetAll_concat, hasAsked_concat, registry_eq hb']
    cases e with
    | step o =>
      obtain ⟨r'', hb'', hgoes⟩ := goes_after hb' h' o
      refine ⟨r'', hb'', ?_⟩
      cases hgoes with
      | ends ho =>
        subst ho
        have hfind (n : Int) : r'.restart.find n = none := by simp [Registry.restart, Registry.find]
        refine ⟨Registry.isPlaced_of_closed hfind, hmax, fun n ↦ ?_⟩
        simp [Registry.isLoaded, hfind, Asks, Operation.scope]
      | lasts hne hl hloaded' =>
        refine ⟨hl.isPlaced, hl.maxRows.trans hmax, fun n ↦ ?_⟩
        rw [hloaded', hloaded]
        simp [hne]
    | loss m =>
      obtain ⟨hl, hloaded'⟩ := Registry.lasts_dropTable h' m
      refine ⟨_, by simp [meet, lose, hb'], hl.isPlaced, hl.maxRows.trans hmax, fun n ↦ ?_⟩
      rw [hloaded', hloaded]
      simp

theorem server_meet (hb : b.engine = .server s) (e : Happening) :
    ∃ s', (b.meet e).engine = .server s' ∧ s'.maxRows = s.maxRows ∧
      (s.table = none → s'.table = none) := by
  have hwrite (now : Instant) (records : List EventRecord) :
      (s.insertAll now records).2.maxRows = s.maxRows ∧
        (s.table = none → (s.insertAll now records).2.table = none) := by
    unfold Server.insertAll
    split
    · exact ⟨rfl, id⟩
    · cases records.mapM Server.entry with
      | error e => exact ⟨rfl, id⟩
      | ok entries =>
        cases ht : s.table with
        | none => exact ⟨rfl, fun _ ↦ ht⟩
        | some t => cases h : t.addAll now entries <;> simp [h]
  cases e with
  | loss n => exact ⟨{ s with table := none }, by simp [meet, lose, hb], rfl, fun _ ↦ rfl⟩
  | step o =>
    cases o with
    | insert now record =>
      exact ⟨_, by simp only [meet, after, insert, insertAll, hb], hwrite now [record]⟩
    | insertAll now records =>
      exact ⟨_, by simp only [meet, after, insertAll, hb], hwrite now records⟩
    | dashboard now o =>
      refine ⟨s, ?_, rfl, id⟩
      simp only [meet, after, dashboard, hb]
      cases o.filters now b.windowDays <;> simp [Backend.read, hb]
    | restart => exact ⟨s, by simp [meet, after, restart, hb], rfl, id⟩
    | _ =>
      refine ⟨s, ?_, rfl, id⟩
      simp [meet, after, list, hasAny, stats, summary, series, run, Backend.read, hb]

theorem server_meetAll (hb : b.engine = .server s) (events : List Happening) :
    ∃ s', (b.meetAll events).engine = .server s' ∧ s'.maxRows = s.maxRows ∧
      (s.table = none → s'.table = none) := by
  induction events using List.reverseRecOn with
  | nil => exact ⟨s, hb, rfl, id⟩
  | append_singleton before e ih =>
    obtain ⟨s', hb', hmax, hnone⟩ := ih
    obtain ⟨s'', hb'', hmax', hnone'⟩ := server_meet hb' e
    rw [meetAll_concat]
    exact ⟨s'', hb'', hmax'.trans hmax, hnone' ∘ hnone⟩

theorem absent_meetAll (hb : b.engine = .absent) (events : List Happening) :
    (b.meetAll events).engine = .absent := by
  induction events using List.reverseRecOn with
  | nil => exact hb
  | append_singleton before e ih =>
    rw [meetAll_concat]
    generalize b.meetAll before = b' at ih
    cases e with
    | loss n => simp [meet, lose, ih]
    | step o =>
      cases o with
      | dashboard now o =>
        simp only [meet, after, dashboard, ih]
        cases o.filters now b'.windowDays <;> simp [Backend.read, ih]
      | _ =>
        simp [meet, after, insert, insertAll, list, hasAny, stats, summary, series, run, restart,
          Backend.read, ih]

/-- The table that the events of a site are in has been made by this process. -/
def HasMade (b : Backend) (n : Int) : Prop :=
  match b.engine with
  | .embedded r => r.HasMade n
  | .server s => s.table.isSome = true
  | _ => False

def maxRows (b : Backend) : Value :=
  match b.engine with
  | .embedded r => r.maxRows
  | .server s => s.maxRows
  | _ => .null

/-- The states to which a history leads in which others take away a table that this process has made,
and the process does not end afterwards. -/
theorem lost_cases (hb₀ : b₀.IsNew) {before after : List Happening}
    (hmade : (b₀.meetAll before).HasMade n) (hafter : ∀ e ∈ after, e ≠ .step .restart)
    (hb : b = ((b₀.meetAll before).lose n).meetAll after) :
    (b₀.isShared = false ∧ ∃ r, b.engine = .embedded r ∧ r.IsPlaced ∧ r.HasLost n ∧
      r.maxRows = b₀.maxRows ∧ (r.isLoaded n = true ↔ b₀.HasAsked before n)) ∨
      b₀.isShared = true ∧ ∃ s, b.engine = .server s ∧ s.table = none ∧ s.maxRows = b₀.maxRows := by
  subst hb
  cases he : b₀.engine with
  | embedded r₀ =>
    simp only [IsNew, he] at hb₀
    obtain ⟨r, hr, h, hmax, hloaded⟩ :=
      isLoaded_meetAll he (fun m ↦ by simp [Registry.find, hb₀.1]) before
    simp only [HasMade, hr] at hmade
    obtain ⟨hl, hloaded'⟩ := Registry.lasts_dropTable h n
    have hlost : (r.dropTable n).HasLost n := ⟨hl.made hmade, r.tableOf_dropTable n⟩
    have hlose : ((b₀.meetAll before).lose n).engine = .embedded (r.dropTable n) := by
      simp [lose, hr]
    obtain ⟨r', hr', hl', hkept⟩ := lasts_meetAll hlose hl.isPlaced hafter
    refine .inl ⟨by simp [isShared, he], r', hr', hl'.isPlaced, hl'.hasLost hlost, ?_, ?_⟩
    · rw [hl'.maxRows, hl.maxRows, hmax, maxRows, he]
    · rw [hkept n hlost, hloaded', hloaded]
  | server s₀ =>
    obtain ⟨s, hs, hmax, -⟩ := server_meetAll he before
    have hlose : ((b₀.meetAll before).lose n).engine = .server { s with table := none } := by
      simp [lose, hs]
    obtain ⟨s', hs', hmax', hnone⟩ := server_meetAll hlose after
    refine .inr ⟨by simp [isShared, he], s', hs', hnone rfl, ?_⟩
    rw [hmax', hmax, maxRows, he]
  | absent =>
    have habsent := absent_meetAll he before
    simp [HasMade, habsent] at hmade
  | stalled => simp [IsNew, he] at hb₀
  | failing e => simp [IsNew, he] at hb₀

/-- A scope names a site, and its team is that of the open store of the site, if it has any. -/
def IsFor (b : Backend) (scope : Scope) (n : Int) : Prop :=
  match b.engine with
  | .embedded r => r.Leads scope n ∧ ∀ t, r.teamOf n = some t → scope.isOfTeam t = true
  | _ => True

/-- Once its table is lost, a listing of a site is a page that says so. For an embedded store it is
that only if a read has come to the store while it had rows; otherwise the listing fails. Only a page
that ends before the first row claims that there is more. -/
theorem list_after_loss (hb₀ : b₀.IsNew) {before after : List Happening}
    (hmade : (b₀.meetAll before).HasMade n) (hafter : ∀ e ∈ after, e ≠ .step .restart)
    {scope : Scope} (hscope : (((b₀.meetAll before).lose n).meetAll after).IsFor scope n)
    (f : EventFilters) :
    let w := ((((b₀.meetAll before).lose n).meetAll after).list scope f).1
    (b₀.isShared = true ∨ b₀.HasAsked before n →
      w = .done (.ok ⟨none, ⟨f.offset, f.limit, 0, decide (f.offset + f.limit < 0)⟩, none⟩)
        Work.storePauses) ∧
    (¬(b₀.isShared = true ∨ b₀.HasAsked before n) →
      w = .done (.error (.outage (.store (SiteStore.source { site := n }))))) := by
  have hpage : EventPage.failed f =
      ⟨none, ⟨f.offset, f.limit, 0, decide (f.offset + f.limit < 0)⟩, none⟩ := rfl
  generalize hb : ((b₀.meetAll before).lose n).meetAll after = b at hscope ⊢
  rcases lost_cases hb₀ hmade hafter hb.symm with
    ⟨hshared, r, hr, h, hlost, -, hloaded⟩ | ⟨hshared, s, hs, hnone, -⟩
  · simp only [IsFor, hr] at hscope
    obtain ⟨c, hc, hsite, -, hread⟩ := Registry.read_of_lost h hlost hscope.1 hscope.2
    have houtage : c.outage = .outage (.store (SiteStore.source { site := n })) := by
      simp [Connection.outage, SiteStore.source, hsite]
    simp only [hshared, Bool.false_eq_true, false_or, ← hloaded, list, read_embedded hr, hread,
      hc.fst_list, houtage, hpage]
    constructor <;> intro hl <;> simp [hl]
  · simp only [hshared, true_or, not_true_eq_false, false_implies, and_true, forall_const]
    simp only [list, Backend.read, hs, Server.list, hnone, hpage]

/-- An embedded store is written to. -/
def oneWrite : List Happening := [.step (.insert ⟨0⟩ (.plain 1 (some 10)))]

theorem rowsOf_oneWrite : (Settings.onDisk.embedded.meetAll oneWrite).registry.rowsOf 1 =
    [Entry.row ⟨.plain 1 (some 10), 1, some 10⟩ 1 ⟨0⟩] := rfl

theorem list_after_loss_oneWrite :
    let before := oneWrite ++ [.step (.hasAny (.of (.number 1) 20))]
    let b := Settings.onDisk.embedded.meetAll before
    b.HasMade 1 ∧ (b.lose 1).IsFor (.of (.number 1) 10) 1 ∧
      Settings.onDisk.embedded.HasAsked before 1 ∧
      ((b.lose 1).list (.of (.number 1) 10) {}).1 =
        .done (.ok ⟨none, ⟨0, 100, 0, false⟩, none⟩) Work.storePauses := by
  have hmade : (Settings.onDisk.embedded.meetAll
      (oneWrite ++ [.step (.hasAny (.of (.number 1) 20))])).HasMade 1 := ⟨_, rfl, rfl⟩
  have hfor : ((Settings.onDisk.embedded.meetAll
      (oneWrite ++ [.step (.hasAny (.of (.number 1) 20))])).lose 1).IsFor (.of (.number 1) 10) 1 :=
    ⟨rfl, fun t ht ↦ by simpa using Option.some.inj ht⟩
  have hasked : Settings.onDisk.embedded.HasAsked
      (oneWrite ++ [.step (.hasAny (.of (.number 1) 20))]) 1 :=
    ⟨oneWrite, .hasAny (.of (.number 1) 20), [], rfl, by simp, ⟨_, rfl, .inl ⟨rfl, .inl rfl⟩⟩,
      by simp [rowsOf_oneWrite]⟩
  have hnew : Settings.onDisk.embedded.IsNew := ⟨rfl, rfl⟩
  have hafter : ∀ e ∈ ([] : List Happening), e ≠ .step .restart := by simp
  exact ⟨hmade, hfor, hasked,
    (list_after_loss hnew hmade hafter hfor {}).1 (.inr hasked)⟩

/-- A listing of a store that was only written to fails. -/
theorem lost_page_fails :
    let b := Settings.onDisk.embedded.meetAll oneWrite
    b.HasMade 1 ∧ b.registry.rowsOf 1 ≠ [] ∧ (b.lose 1).IsFor (.of (.number 1) 10) 1 ∧
      ((b.lose 1).list (.of (.number 1) 10) {}).1 =
        .done (.error (.outage (.store "Site store 1"))) :=
  ⟨⟨_, rfl, rfl⟩, by simp [rowsOf_oneWrite], ⟨rfl, fun t ht ↦ by simpa using Option.some.inj ht⟩,
    rfl⟩

/-- No read of a site by a team has an answer. A listing may tell so by a page of its own; all others
end in an outage, but for a dashboard whose window begins before all dates. -/
structure IsDown (b : Backend) (ref : SiteRef) (n team : Int) : Prop where
  list (f : EventFilters) : (b.list (.of ref team) f).1.IsOutage ∨
    (b.list (.of ref team) f).1 = .done (.ok (.failed f)) Work.storePauses
  hasAny : (b.hasAny (.of ref team)).1.IsOutage
  stats (range : Option DateRange) : (b.stats (.of ref team) range).1.IsOutage
  summary (o : SummaryOptions) : (b.summary (.of ref team) o).1.IsOutage
  series (range : Option DateRange) (g : Granularity) (byEvent : Value) :
    (b.series (.of ref team) range g byEvent).1.IsOutage
  dashboard (now : Instant) (o : DashboardOptions) : o.site = ref → o.team = team →
    match o.filters now b.windowDays with
    | .error f => (b.dashboard now o).1 = .done (.error (.fault f))
    | .ok _ => (b.dashboard now o).1.IsOutage
  widget {w : Widget} {f : Option WidgetFilters} {q : Report.ChartQuery} (limit : Option Int) :
    b.compile (.of (.number n) team) w f = .ok q →
      (b.run (.of (.number n) team) (.chart q) (.ofWhole limit)).1.IsOutage

end Backend

namespace Service

variable {s : Service} {t : Tenant} {x : Site}

/-- The service has no answer for a site of a caller: a listing may tell so by a page of its own, and
all other reads end in an outage, unless there is no time for them. -/
structure IsDown (s : Service) (t : Tenant) (x : Site) : Prop where
  list {site : Value} (f : EventFilters) : s.siteFor t site .null = .ok x →
    (s.list t site f).1.Breaks s.timeout ∨
      (s.list t site f).1 = (Work.done (.ok (.failed f)) Work.storePauses).under s.timeout
  stats {site : Value} (range : Option DateRange) : s.siteFor t site .null = .ok x →
    (s.stats t site range).1.Breaks s.timeout
  summary {site : Value} (o : SummaryOptions) : s.siteFor t site .null = .ok x →
    (s.summary t site o).1.Breaks s.timeout
  series {site : Value} (range : Option DateRange) (g : Granularity) (byEvent : Value) :
    s.siteFor t site .null = .ok x → (s.series t site range g byEvent).1.Breaks s.timeout
  dashboard (now : Instant) {number tag : Value} (range : Option DateRange) (limit offset : Value) :
    s.siteFor t number tag = .ok x →
      match dashboardOptions x t (range.getD {}) limit offset with
      | .error e => (s.dashboard now t number tag range limit offset).1 = .done (.error e)
      | .ok o =>
        match o.filters now (s.dispatcher.backend t.storage).windowDays with
        | .error f =>
          (s.dashboard now t number tag range limit offset).1.FailsWith s.timeout (.fault f)
        | .ok _ => (s.dashboard now t number tag range limit offset).1.Breaks s.timeout
  widget {site : Value} {w : Widget} {f : Option WidgetFilters} {q : Report.ChartQuery} :
    s.siteFor t site .null = .ok x →
      (s.dispatcher.backend t.storage).compile (.of (.number x.id) t.team) w f = .ok q →
      (s.widget t site w f).1.Breaks s.timeout

/-- A service is down for a site if the backend is that the caller's events are kept in. -/
theorem isDown_of_backend
    (h : (s.dispatcher.backend t.storage).IsDown (.number x.id) x.id t.team) : s.IsDown t x := by
  have hread {α : Type} {site : Value} (hx : s.siteFor t site .null = .ok x)
      (empty : Except Failure α) (f : Scope → Backend → Work α × Backend) :
      (s.read t site empty f).1 =
        (f (.of (.number x.id) t.team) (s.dispatcher.backend t.storage)).1.under s.timeout := by
    simp only [read, hx, fst_timed]
  constructor
  case list =>
    intro site f hx
    rw [list, hread hx]
    rcases h.list f with hf | hf
    · exact .inl (hf.breaks_under _)
    · rw [hf]
      exact .inr rfl
  case stats =>
    intro site range hx
    rw [stats, hread hx]
    exact (h.stats range).breaks_under _
  case summary =>
    intro site o hx
    rw [summary, hread hx]
    exact (h.summary o).breaks_under _
  case series =>
    intro site range g byEvent hx
    rw [series, hread hx]
    exact (h.series range g byEvent).breaks_under _
  case widget =>
    intro site w f q hx hq
    rw [fst_widget, hx]
    simp only [hq]
    exact ((h.widget none hq).breaks_under _).andThen _
  case dashboard =>
    intro now number tag range limit offset hx
    cases ho : dashboardOptions x t (range.getD {}) limit offset with
    | error e => simp only [dashboard, hx, ho]
    | ok o =>
      obtain ⟨hsite, hteam, -⟩ := of_dashboardOptions ho
      have hdown := h.dashboard now o hsite hteam
      have hfst : (s.dashboard now t number tag range limit offset).1 =
          (s.ownDashboard now t x o).1 := by
        simp only [dashboard, hx, ho]
      rw [hfst, fst_ownDashboard]
      cases hf : o.filters now (s.dispatcher.backend t.storage).windowDays with
      | error f =>
        simp only [hf] at hdown ⊢
        rw [hdown]
        exact (Work.failsWith_under rfl _).andThen _
      | ok f =>
        simp only [hf] at hdown ⊢
        exact (hdown.breaks_under _).andThen _

end Service

namespace Backend

variable {b b₀ : Backend} {n team : Int} {ref : SiteRef}

theorem isFor_number (h : b.IsFor (.of ref team) n) : b.IsFor (.of (.number n) team) n := by
  cases hb : b.engine with
  | embedded r =>
    simp only [IsFor, hb] at h ⊢
    exact ⟨rfl, fun t ht ↦ by simpa using h.2 t ht⟩
  | _ => simp only [IsFor, hb]

theorem check_of_compile {w : Widget} {f : Option WidgetFilters} {q : Report.ChartQuery}
    {scope : Scope} (h : b.compile scope w f = .ok q) : (TableQuery.chart q).check = .ok q.text :=
  Report.checkText_of_compile h

theorem isDown_embedded (hb : b.engine = .embedded r) (h : r.IsPlaced) (hlost : r.HasLost n)
    {m : Int} (hm : r.maxRows = .int m) (hfor : b.IsFor (.of ref team) n) : b.IsDown ref n team := by
  have hnumber := isFor_number hfor
  simp only [IsFor, hb] at hfor hnumber
  obtain ⟨c, hc, -, -, hread⟩ := Registry.read_of_lost h hlost hfor.1 hfor.2
  obtain ⟨c', hc', -, hmax, hread'⟩ := Registry.read_of_lost h hlost hnumber.1 hnumber.2
  have hdown {α : Type} {o o' : Outage} :
      (if r.isLoaded n then .done (.error (.outage o)) Work.storePauses
        else .done (.error (.outage o')) : Work α).IsOutage := by
    split <;> exact Work.isOutage_done ..
  have hout {α : Type} {own : Connection → Except Failure α × Connection}
      (hown : (own c).1 = .error c.outage) (empty : Except Failure α) (check : Except Failure Unit)
      (shared : Server → Except Failure α) :
      (b.read (.of ref team) empty check own shared).1.IsOutage := by
    rw [read_embedded hb, hread, hown]
    exact hdown
  constructor
  case hasAny => exact hout (hc.fst_read _) ..
  case stats => exact fun range ↦ hout (hc.fst_read _) ..
  case summary => exact fun o ↦ hout (hc.fst_read _) ..
  case series => exact fun range g byEvent ↦ hout (hc.fst_read _) ..
  case list =>
    intro f
    rw [list, read_embedded hb, hread, hc.fst_list]
    cases r.isLoaded n with
    | true => exact .inr rfl
    | false => exact .inl (Work.isOutage_done ..)
  case dashboard =>
    rintro now o rfl rfl
    rw [dashboard_embedded hb]
    cases hf : o.filters now b.windowDays with
    | error f => rfl
    | ok f =>
      have hown : (ownDashboard f c).1 = .error (.outage (.noRows (c.list f).2.store.source)) := by
        rw [ownDashboard, hc.fst_list]
        rfl
      rw [hread, hown]
      exact hdown
  case widget =>
    intro w f q limit hq
    rw [run, read_embedded hb, hread', hc'.fst_run (hmax.trans hm) (check_of_compile hq)]
    exact hdown

theorem isDown_server {s : Server} (hb : b.engine = .server s) (hnone : s.table = none) {m : Int}
    (hm : s.maxRows = .int m) : b.IsDown ref n team := by
  have hout {α : Type} (scope : Scope) (empty : Except Failure α) (check : Except Failure Unit)
      (own : Connection → Except Failure α × Connection) {shared : Server → Except Failure α}
      (hshared : shared s = .error Server.outage) :
      (b.read scope empty check own shared).1.IsOutage := by
    simp only [Backend.read, hb, hshared]
    exact Work.isOutage_done ..
  have hread {α : Type} (scope : Scope) (f : Table → Conditions → Except Failure α) :
      s.read scope f = .error Server.outage := by
    simp only [Server.read, hnone]
  have hlist (scope : Scope) (f : EventFilters) : s.list scope f = .ok (.failed f) := by
    simp only [Server.list, hnone]
  constructor
  case hasAny => exact hout _ _ _ _ (hread ..)
  case stats => exact fun range ↦ hout _ _ _ _ (hread ..)
  case summary => exact fun o ↦ hout _ _ _ _ (hread ..)
  case series => exact fun range g byEvent ↦ hout _ _ _ _ (hread ..)
  case list => exact fun f ↦ .inr (by simp only [list, Backend.read, hb, hlist])
  case dashboard =>
    rintro now o rfl rfl
    simp only [dashboard, hb]
    cases o.filters now b.windowDays with
    | error f => rfl
    | ok f =>
      simp only [Backend.read, hb, hlist]
      exact Work.isOutage_done ..
  case widget =>
    intro w f q limit hq
    obtain ⟨bound, hbound⟩ := exists_rowBound limit m
    refine hout _ _ _ _ ?_
    simp only [Server.run, hm, hbound, hnone]
    exact TableQuery.run_none (check_of_compile hq) bound _ rfl

/-- Once others have taken away a table that this process has made, and until the process ends, no read
of the site by its team is answered as if it had no events. A listing gives the page that says so or
fails, and all else fails; it fails by an outage unless a dashboard's window begins before all dates,
or there is no time for the read. -/
theorem isDown_after_loss (hb₀ : b₀.IsNew) {m : Int} (hm : b₀.maxRows = .int m)
    {before after : List Happening} (hmade : (b₀.meetAll before).HasMade n)
    (hafter : ∀ e ∈ after, e ≠ .step .restart)
    (hfor : (((b₀.meetAll before).lose n).meetAll after).IsFor (.of ref team) n) :
    (((b₀.meetAll before).lose n).meetAll after).IsDown ref n team ∧
      ∀ (s : Service) (t : Tenant) (x : Site),
        s.dispatcher.backend t.storage = ((b₀.meetAll before).lose n).meetAll after →
        x.id = n → t.team = team → s.IsDown t x := by
  generalize hb : ((b₀.meetAll before).lose n).meetAll after = b at hfor ⊢
  have hdown {ref : SiteRef} (hfor : b.IsFor (.of ref team) n) : b.IsDown ref n team := by
    rcases lost_cases hb₀ hmade hafter hb.symm with
      ⟨-, r, hr, h, hlost, hmax, -⟩ | ⟨-, s, hs, hnone, hmax⟩
    · exact isDown_embedded hr h hlost (hmax.trans hm) hfor
    · exact isDown_server hs hnone (hmax.trans hm)
  refine ⟨hdown hfor, ?_⟩
  rintro s t x hs rfl rfl
  exact Service.isDown_of_backend (hs ▸ hdown (isFor_number hfor))

theorem isDown_after_loss_oneWrite :
    let b := Settings.onDisk.embedded.meetAll oneWrite
    Settings.onDisk.embedded.maxRows = .int 500 ∧ b.HasMade 1 ∧
      (b.lose 1).IsFor (.of (.number 1) 10) 1 ∧ (b.lose 1).IsDown (.number 1) 1 10 ∧
      Service.IsDown { dispatcher := { backends := [(.sqlite, b.lose 1)] } } ⟨10, .sqlite, []⟩
        { id := 1, team := 10, tag := "tag" } := by
  have hnew : Settings.onDisk.embedded.IsNew := ⟨rfl, rfl⟩
  have hmade : (Settings.onDisk.embedded.meetAll oneWrite).HasMade 1 := ⟨_, rfl, rfl⟩
  have hafter : ∀ e ∈ ([] : List Happening), e ≠ .step .restart := by simp
  have hfor : ((Settings.onDisk.embedded.meetAll oneWrite).lose 1).IsFor (.of (.number 1) 10) 1 :=
    ⟨rfl, fun t ht ↦ by simpa using Option.some.inj ht⟩
  obtain ⟨hdown, hservice⟩ := isDown_after_loss hnew rfl hmade hafter hfor
  exact ⟨rfl, hmade, hfor, hdown, hservice _ _ _ rfl rfl rfl⟩

/-- A dashboard fails before the storage is asked, and a read for which there is no time fails too. -/
theorem lost_dashboard_faults :
    let b := Settings.boundless.embedded.meetAll oneWrite
    let s : Service := ⟨{ backends := [(.sqlite, b.lose 1)] },
      .ofSites [{ id := 1, team := 10, tag := "tag" }], ⟨.int 0⟩⟩
    b.HasMade 1 ∧ b.registry.rowsOf 1 ≠ [] ∧ (b.lose 1).IsFor (.of (.number 1) 10) 1 ∧
      ((b.lose 1).dashboard ⟨0⟩ ⟨.number 1, 10, none, 100, 0⟩).1 =
        .done (.error (.fault .outsideCalendar)) ∧
      (s.stats ⟨10, .sqlite, []⟩ (.int 1) none).1 = .done (.error (.deadline (.int 0))) := by
  have hrows : (Settings.boundless.embedded.meetAll oneWrite).registry.rowsOf 1 =
      [Entry.row ⟨.plain 1 (some 10), 1, some 10⟩ 1 ⟨0⟩] := rfl
  exact ⟨⟨_, rfl, rfl⟩, by simp [hrows], ⟨rfl, fun t ht ↦ by simpa using Option.some.inj ht⟩, rfl,
    rfl⟩

end Backend

end Footfall
