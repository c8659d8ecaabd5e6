import Footfall.Proofs.Delivery
import Footfall.Proofs.Ingestion
import Footfall.Proofs.Reordering

/-!
Ingestion in any order. Two services that have gained the same records since they were one and the
same answer every question about counts alike. If they have gained those of each site in the same
order, they also list the same events, under numbers that may differ.
-/

namespace Footfall

namespace Work

variable {α β : Type}

theorem map_id (w : Work α) : w.map id = w := by
  rcases w with ⟨_ | a, pauses⟩ | _ <;> rfl

theorem map_under (f : α → β) (l : TimeLimit) (w : Work α) :
    (w.under l).map f = (w.map f).under l := by
  unfold under
  cases l.start with
  | error e => rfl
  | ok u =>
    cases w with
    | unending => cases l.seconds.isNull <;> rfl
    | done r pauses =>
      cases hp : l.passesAtOnce && decide (promptPauses < pauses) <;>
        simp [Work.map, hp, Except.map]

end Work

namespace Backend

variable {α β : Type} {b c : Backend} {x : Site} {empty : Except Failure α}
  {q : Table → Except Failure α} {w v : Work α}

/-- Backends with a store for the same sites answer alike if they do so of their rows. -/
theorem Tells.map_eq (hb : b.Tells x empty q w) (hc : c.Tells x empty q v)
    (hstocks : b.Stocks x ↔ c.Stocks x) (hknows : b.Knows x ↔ c.Knows x) {g : α → β}
    (hq : (q (b.rowsFor x)).map g = (q (c.rowsFor x)).map g) : w.map g = v.map g := by
  by_cases hs : b.Stocks x
  · by_cases hk : b.Knows x
    · rw [hb.known hs hk, hc.known (hstocks.1 hs) (hknows.1 hk), Work.map, Work.map, hq]
    · rw [hb.unknown hs hk, hc.unknown (hstocks.1 hs) (mt hknows.2 hk)]
  · rw [hb.absent hs, hc.absent (mt hstocks.2 hs)]

end Backend

namespace Service

variable {α β : Type} {s s₁ s₂ : Service} {sites : List Site} {now : Instant}
  {rs₁ rs₂ : List EventRecord}

/-- Both services answer every question about counts alike, whoever asks. -/
structure CountsAlike (s₁ s₂ : Service) : Prop where
  stats (t : Tenant) (site : Value) (r : Option DateRange) :
    (s₁.stats t site r).1 = (s₂.stats t site r).1
  summary (t : Tenant) (site : Value) (o : SummaryOptions) :
    (s₁.summary t site o).1 = (s₂.summary t site o).1
  series (t : Tenant) (site : Value) (r : Option DateRange) (g : Granularity) (byEvent : Value) :
    (s₁.series t site r g byEvent).1 = (s₂.series t site r g byEvent).1

/-- Both services list the same events in the same order, under numbers that may differ. -/
def ListsAlike (s₁ s₂ : Service) : Prop :=
  ∀ (t : Tenant) (site : Value) (f : EventFilters),
    (s₁.list t site f).1.map EventPage.withoutIds = (s₂.list t site f).1.map EventPage.withoutIds

theorem Gains.map_read (hs : s.directory = .ofSites sites) (h₁ : s.Gains sites now s₁ rs₁)
    (h₂ : s.Gains sites now s₂ rs₂) (hperm : rs₁.Perm rs₂) (t : Tenant) (site : Value)
    {empty : Except Failure α} {f : Scope → Backend → Work α × Backend}
    {q : Table → Except Failure α}
    (hf : ∀ b : Backend, b.IsRegular sites → ∀ x ∈ sites,
      b.Tells x empty q (f (.of (.number x.id) x.team) b).1)
    {g : α → β} (hq : ∀ x ∈ sites,
      (q ((s₁.dispatcher.backend t.storage).rowsFor x)).map g =
        (q ((s₂.dispatcher.backend t.storage).rowsFor x)).map g) :
    (s₁.read t site empty f).1.map g = (s₂.read t site empty f).1.map g := by
  have hsite : s₂.siteFor t site .null = s₁.siteFor t site .null := by
    simp only [siteFor, h₁.directory, h₂.directory]
  unfold read
  rw [hsite]
  cases hx : s₁.siteFor t site .null with
  | error e => cases e <;> rfl
  | ok x =>
    obtain ⟨hmem, hown⟩ := mem_of_siteFor (h₁.directory.trans hs) hx
    -- The tenant decides which backend is asked, whatever the storage of the site.
    simp only [fst_timed, Work.map_under, h₁.timeout, h₂.timeout, ← Tenant.team_of_owns hown]
    refine congrArg _ ?_
    refine (hf _ (h₁.regular.backend _) x hmem).map_eq (hf _ (h₂.regular.backend _) x hmem)
      ?_ ?_ (hq x hmem)
    · simp only [h₁.stocks _ x hmem, h₂.stocks _ x hmem, hperm.mem_iff]
    · rw [h₁.knows, h₂.knows]

theorem Gains.isReordering (h₁ : s.Gains sites now s₁ rs₁) (h₂ : s.Gains sites now s₂ rs₂)
    (hperm : rs₁.Perm rs₂) (kind : StorageKind) {x : Site} (hx : x ∈ sites) :
    Table.IsReordering ((s₁.dispatcher.backend kind).rowsFor x)
      ((s₂.dispatcher.backend kind).rowsFor x) := by
  rw [Table.IsReordering, h₁.rows kind x hx, h₂.rows kind x hx]
  refine List.Perm.append_left _ ?_
  split
  · exact (hperm.filter _).map _
  · exact .nil

/-- In which order records have been stored cannot be told from any count. -/
theorem Gains.countsAlike (hs : s.directory = .ofSites sites) (h₁ : s.Gains sites now s₁ rs₁)
    (h₂ : s.Gains sites now s₂ rs₂) (hperm : rs₁.Perm rs₂) : CountsAlike s₁ s₂ where
  stats t site r := by
    rw [← Work.map_id (s₁.stats t site r).1, ← Work.map_id (s₂.stats t site r).1]
    refine h₁.map_read hs h₂ hperm t site (fun b hb x hx ↦ hb.tells_stats hx r) fun x hx ↦ ?_
    rw [(h₁.isReordering h₂ hperm t.storage hx).stats]
  summary t site o := by
    rw [← Work.map_id (s₁.summary t site o).1, ← Work.map_id (s₂.summary t site o).1]
    refine h₁.map_read hs h₂ hperm t site (fun b hb x hx ↦ hb.tells_summary hx o) fun x hx ↦ ?_
    rw [(h₁.isReordering h₂ hperm t.storage hx).summary]
  series t site r g byEvent := by
    rw [← Work.map_id (s₁.series t site r g byEvent).1,
      ← Work.map_id (s₂.series t site r g byEvent).1]
    refine h₁.map_read hs h₂ hperm t site (fun b hb x hx ↦ hb.tells_series hx r g byEvent)
      fun x hx ↦ ?_
    rw [(h₁.isReordering h₂ hperm t.storage hx).series]

theorem Gains.listsAlike (hs : s.directory = .ofSites sites) (h₁ : s.Gains sites now s₁ rs₁)
    (h₂ : s.Gains sites now s₂ rs₂)
    (heq : ∀ tag, rs₁.filter (·.tag == tag) = rs₂.filter (·.tag == tag)) : ListsAlike s₁ s₂ := by
  intro t site f
  refine h₁.map_read hs h₂ (perm_of_filter_eq heq) t site
    (fun b hb x hx ↦ hb.tells_list hx f) fun x hx ↦ ?_
  refine Table.Alike.mapError_list ⟨?_, ?_, ?_⟩ f
  · rw [h₁.rows _ x hx, h₂.rows _ x hx, heq]
  · exact ((h₁.regular.backend _).rowsFor hx).1
  · exact ((h₂.regular.backend _).rowsFor hx).1

/-- Whether a payload is of the site with a tag. -/
def hasTag (tag : String) (payload : Value) : Bool :=
  (Event.canonicalize payload).toOption.any (·.tag == tag)

theorem filter_record? (s : Service) (payloads : List Value) (tag : String) :
    (payloads.filterMap s.record?).filter (·.tag == tag) =
      (payloads.filter (hasTag tag)).filterMap s.record? := by
  rw [List.filter_filterMap, List.filterMap_filter]
  refine congrArg (List.filterMap · payloads) (funext fun payload ↦ ?_)
  cases hp : s.record? payload with
  | none => simp
  | some r =>
    obtain ⟨r₀, x, hr, -, rfl⟩ := record?_eq_some_iff.1 hp
    have htag : hasTag tag payload = (r₀.tag == tag) := by
      rw [hasTag, hr]
      rfl
    simp [Option.filter, htag, EventRecord.claimedBy]

/-- Payloads that are stored one by one are all stored in any order and in batches of any size, and
the counts afterwards are the same. If those of each site stay in their order, the listings are the
same but for the numbers of events. -/
theorem stored_alike (sites : List Site) (hids : (sites.map (·.id)).Nodup)
    (htags : (sites.map (·.tag)).Nodup) (d : Dispatcher) (hd : ∀ kind, (d.backend kind).IsNew)
    (l : TimeLimit) (before : List (Instant × Call)) (now : Instant) (payloads : List Value)
    (hstored : List.Forall₂ (fun c w ↦ Call.isStored c w = true) (payloads.map .ingest)
      ((run ⟨d, .ofSites sites, l⟩ before).2.runAt now (payloads.map .ingest)).1)
    (calls : List Call) (hcalls : ∀ c ∈ calls, c.isRead = false)
    (hperm : (calls.flatMap Call.payloads).Perm payloads) :
    List.Forall₂ (fun c w ↦ c.isStored w = true) calls
      ((run ⟨d, .ofSites sites, l⟩ before).2.runAt now calls).1 ∧
    CountsAlike ((run ⟨d, .ofSites sites, l⟩ before).2.runAt now calls).2
      ((run ⟨d, .ofSites sites, l⟩ before).2.runAt now (payloads.map .ingest)).2 ∧
    ((∀ tag, (calls.flatMap Call.payloads).filter (hasTag tag) = payloads.filter (hasTag tag)) →
      ListsAlike ((run ⟨d, .ofSites sites, l⟩ before).2.runAt now calls).2
        ((run ⟨d, .ofSites sites, l⟩ before).2.runAt now (payloads.map .ingest)).2) := by
  have h := (IsRegular.of_isNew hd sites l).run hids before
  generalize (run ⟨d, .ofSites sites, l⟩ before).2 = s at hstored h ⊢
  have hpayloads : (payloads.map Call.ingest).flatMap Call.payloads = payloads := by
    simp [List.flatMap_map, Call.payloads]
  have htakes := takes_of_areStored hids htags h hstored
  obtain ⟨hall, hg⟩ := (htakes.perm hperm.symm).run hids htags hcalls h
  have hone : s.Takes sites now ((payloads.map Call.ingest).flatMap Call.payloads) :=
    hpayloads.symm ▸ htakes
  obtain ⟨-, hg'⟩ := hone.run hids htags (by simp [Call.isRead]) h
  rw [hpayloads] at hg'
  refine ⟨hall, hg.countsAlike h.directory hg' (hperm.filterMap _), fun htag ↦ ?_⟩
  refine hg.listsAlike h.directory hg' fun tag ↦ ?_
  rw [filter_record?, filter_record?, htag]

/-- Payloads of two sites, in turn. -/
def turns : List Value :=
  [pageView "a", pageView "b", .object [("event", .text "click"), ("tag_id", .text "a")]]

/-- The same payloads, the first two of them as one batch and the other way round. -/
def swappedTurns : List Call :=
  [.ingestMany [pageView "b", pageView "a"],
    .ingest (.object [("event", .text "click"), ("tag_id", .text "a")])]

theorem stored_alike_swappedTurns :
    (twoSites.map (·.id)).Nodup ∧ (twoSites.map (·.tag)).Nodup ∧
    List.Forall₂ (fun c w ↦ Call.isStored c w = true) (turns.map .ingest)
      ((run ⟨twoKinds, .ofSites twoSites, {}⟩ someCalls).2.runAt ⟨4⟩ (turns.map .ingest)).1 ∧
    (∀ c ∈ swappedTurns, c.isRead = false) ∧
    (swappedTurns.flatMap Call.payloads).Perm turns ∧
    (∀ tag, (swappedTurns.flatMap Call.payloads).filter (hasTag tag) =
      turns.filter (hasTag tag)) ∧
    CountsAlike ((run ⟨twoKinds, .ofSites twoSites, {}⟩ someCalls).2.runAt ⟨4⟩ swappedTurns).2
      ((run ⟨twoKinds, .ofSites twoSites, {}⟩ someCalls).2.runAt ⟨4⟩ (turns.map .ingest)).2 ∧
    ListsAlike ((run ⟨twoKinds, .ofSites twoSites, {}⟩ someCalls).2.runAt ⟨4⟩ swappedTurns).2
      ((run ⟨twoKinds, .ofSites twoSites, {}⟩ someCalls).2.runAt ⟨4⟩ (turns.map .ingest)).2 := by
  have hids : (twoSites.map (·.id)).Nodup := by decide
  have htags : (twoSites.map (·.tag)).Nodup := by decide
  have hstored : List.Forall₂ (fun c w ↦ Call.isStored c w = true) (turns.map .ingest)
      ((run ⟨twoKinds, .ofSites twoSites, {}⟩ someCalls).2.runAt ⟨4⟩ (turns.map .ingest)).1 :=
    .cons (by cbv) (.cons (by cbv) (.cons (by cbv) .nil))
  have hcalls : ∀ c ∈ swappedTurns, c.isRead = false := by simp [swappedTurns, Call.isRead]
  have hperm : (swappedTurns.flatMap Call.payloads).Perm turns := .swap ..
  have hfilter (tag : String) : (swappedTurns.flatMap Call.payloads).filter (hasTag tag) =
      turns.filter (hasTag tag) := by
    have ha : hasTag tag (pageView "a") = ("a" == tag) := rfl
    have hb : hasTag tag (pageView "b") = ("b" == tag) := rfl
    have hswap : [pageView "b", pageView "a"].filter (hasTag tag) =
        [pageView "a", pageView "b"].filter (hasTag tag) := by
      by_cases h : tag = "a"
      · subst h
        simp [ha, hb]
      · simp [ha, hb, Ne.symm h, List.filter_cons]
    have hfirst : swappedTurns.flatMap Call.payloads =
        [pageView "b", pageView "a"] ++ turns.drop 2 := rfl
    rw [hfirst, List.filter_append, hswap, ← List.filter_append]
    rfl
  have halike := stored_alike twoSites hids htags twoKinds isNew_twoKinds {} someCalls ⟨4⟩ turns
    hstored swappedTurns hcalls hperm
  exact ⟨hids, htags, hstored, hcalls, hperm, hfilter, halike.2.1, halike.2.2 hfilter⟩

end Service

end Footfall
