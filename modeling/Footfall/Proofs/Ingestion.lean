import Footfall.Proofs.Parcelling
import Footfall.Proofs.Stocking

/-!
What a service gains by storing records. It depends on the order of those of each site alone, and
records that are admitted are stored as long as there is room for them. So payloads that are stored
one by one are also stored in any other order, and in batches of any size.
-/

namespace Footfall

namespace Service

variable {s s' s'' : Service} {sites : List Site} {now : Instant} {x : Site}
  {rs rs' : List EventRecord} {r : EventRecord} {p : Parcel}

def withBackend (s : Service) (kind : StorageKind) (b : Backend) : Service :=
  { s with dispatcher := s.dispatcher.save kind b }

theorem backend_withBackend (s : Service) (kind : StorageKind) (b : Backend) :
    (s.withBackend kind b).dispatcher.backend kind = b := Dispatcher.backend_save ..

theorem backend_withBackend_of_ne (s : Service) {kind other : StorageKind} (b : Backend)
    (h : kind ≠ other) :
    (s.withBackend kind b).dispatcher.backend other = s.dispatcher.backend other :=
  Dispatcher.backend_save_of_ne _ _ h

/-- What holds of the new backend, and of the others as they are, holds of every backend. -/
theorem forall_backend_withBackend {P : StorageKind → Backend → Prop} {kind : StorageKind}
    {b : Backend} (hb : P kind b)
    (hother : ∀ other, kind ≠ other → P other (s.dispatcher.backend other))
    (other : StorageKind) : P other ((s.withBackend kind b).dispatcher.backend other) := by
  by_cases hk : kind = other
  · subst hk
    rwa [backend_withBackend]
  · rw [backend_withBackend_of_ne s b hk]
    exact hother other hk

theorem onBackend_of_eq {α : Type} {kind : StorageKind} {f : Backend → α × Backend} {a : α}
    {b : Backend} (h : f (s.dispatcher.backend kind) = (a, b)) :
    s.onBackend kind f = (a, s.withBackend kind b) := by
  rw [onBackend, h]
  rfl

theorem onBackend_insert (s : Service) (kind : StorageKind) (now : Instant) (r : EventRecord) :
    s.onBackend kind (·.insert now r) =
      ((s.onBackend kind (·.insertAll now [r])).1.map List.head?,
        (s.onBackend kind (·.insertAll now [r])).2) := rfl

/-- The directory has the sites, and every backend answers and is written to by the service alone. -/
structure IsRegular (s : Service) (sites : List Site) : Prop where
  directory : s.directory = .ofSites sites
  backend (kind : StorageKind) : (s.dispatcher.backend kind).IsRegular sites

/-- What holds of a service, and is kept when stores are opened and when a parcel is stored. -/
structure IsKept (sites : List Site) (P : Service → Prop) : Prop where
  idles : ∀ {s s' : Service}, s.IsRegular sites → P s → s.Idles s' → P s'
  insertAll : ∀ {s : Service} {p : Parcel} (now : Instant), s.IsRegular sites → P s →
    IsParcel sites p → P (s.onBackend p.1.storage (·.insertAll now p.2)).2

namespace IsRegular

theorem of_isNew {d : Dispatcher} (hd : ∀ kind, (d.backend kind).IsNew) (sites : List Site)
    (l : TimeLimit) : IsRegular ⟨d, .ofSites sites, l⟩ sites :=
  ⟨rfl, fun kind ↦ ((hd kind).isRegular sites).1⟩

theorem withBackend (h : s.IsRegular sites) (kind : StorageKind) {b : Backend}
    (hb : b.IsRegular sites) : (s.withBackend kind b).IsRegular sites :=
  ⟨h.directory, forall_backend_withBackend (P := fun _ c ↦ c.IsRegular sites) hb
    fun other _ ↦ h.backend other⟩

theorem onBackend_insertAll (h : s.IsRegular sites) (hids : (sites.map (·.id)).Nodup)
    (hp : IsParcel sites p) (now : Instant) :
    (s.onBackend p.1.storage (·.insertAll now p.2)).2.IsRegular sites := by
  obtain ⟨result, b, rows, hi, hb, -⟩ := (h.backend p.1.storage).insertAll hids hp now
  rw [onBackend_of_eq hi]
  exact h.withBackend _ hb

variable {P : Service → Prop}

theorem storeParcels (hids : (sites.map (·.id)).Nodup) (hP : IsKept sites P) (now : Instant)
    {parcels : List Parcel} (hp : ∀ p ∈ parcels, IsParcel sites p) (h : s.IsRegular sites)
    (hs : P s) :
    (s.storeParcels now parcels).2.IsRegular sites ∧ P (s.storeParcels now parcels).2 := by
  induction parcels generalizing s with
  | nil => exact ⟨h, hs⟩
  | cons p rest ih =>
    have hafter := h.onBackend_insertAll hids (hp p (by simp)) now
    have hkept := hP.insertAll now h hs (hp p (by simp))
    rw [Service.storeParcels]
    generalize s.onBackend p.1.storage (·.insertAll now p.2) = a at hafter hkept ⊢
    obtain ⟨result, s'⟩ := a
    cases result with
    | error e => exact ⟨hafter, hkept⟩
    | ok rows => exact ih (fun q hq ↦ hp q (by simp [hq])) hafter hkept

theorem perform (h : s.IsRegular sites) (hids : (sites.map (·.id)).Nodup) (hP : IsKept sites P)
    (hs : P s) (now : Instant) (call : Call) :
    (s.perform now call).2.IsRegular sites ∧ P (s.perform now call).2 := by
  have hread (hc : call.isRead = true) :
      (s.perform now call).2.IsRegular sites ∧ P (s.perform now call).2 := by
    have hi := idles_perform (fun kind ↦ (h.backend kind).isSound) now hc
    exact ⟨⟨hi.directory.trans h.directory,
      fun kind ↦ ((h.backend kind).idles (hi.backend kind)).1⟩, hP.idles h hs hi⟩
  cases call with
  | ingest payload =>
    simp only [Service.perform, Service.ingest]
    cases Event.canonicalize payload with
    | error e => exact ⟨h, hs⟩
    | ok r =>
      cases hx : s.siteOfRecord r with
      | error e =>
        simp only [hx]
        exact ⟨h, hs⟩
      | ok x =>
        obtain ⟨hmem, htag⟩ := mem_of_siteOfRecord h.directory hx
        have hp := isParcel_singleton hmem htag
        simp only [hx, onBackend_insert]
        exact ⟨h.onBackend_insertAll hids hp now, hP.insertAll now h hs hp⟩
  | ingestMany payloads =>
    simp only [Service.perform, Service.ingestMany]
    cases hp : payloads.mapM Event.canonicalize >>= s.parcelsOf with
    | error e => exact ⟨h, hs⟩
    | ok parcels =>
      exact storeParcels hids hP now (isParcel_of_payloads hids h.directory hp) h hs
  | _ => exact hread rfl

/-- Whatever calls are made, and whether they fail or not, the service stays regular, and what is
kept still holds. -/
theorem run_kept (h : s.IsRegular sites) (hids : (sites.map (·.id)).Nodup) (hP : IsKept sites P)
    (hs : P s) (calls : List (Instant × Call)) :
    (s.run calls).2.IsRegular sites ∧ P (s.run calls).2 := by
  induction calls generalizing s with
  | nil => exact ⟨h, hs⟩
  | cons c rest ih =>
    obtain ⟨hc, hsc⟩ := h.perform hids hP hs c.1 c.2
    exact ih hc hsc

theorem run (h : s.IsRegular sites) (hids : (sites.map (·.id)).Nodup)
    (calls : List (Instant × Call)) : (s.run calls).2.IsRegular sites :=
  (h.run_kept hids (P := fun _ ↦ True) ⟨fun _ _ _ ↦ trivial, fun _ _ _ _ ↦ trivial⟩ trivial
    calls).1

end IsRegular

def tableFor (s : Service) (x : Site) : Table := (s.dispatcher.backend x.storage).tableFor x

/-- Whether the row of a record goes to the table in which those of a site are. -/
def sharesTable (s : Service) (sites : List Site) (x : Site) (r : EventRecord) : Bool :=
  sites.any fun y ↦ y.tag == r.tag && decide (y.storage = x.storage) &&
    ((s.dispatcher.backend x.storage).isShared || decide (x = y))

/-- A service has put the rows of records at the end of those of their sites. -/
structure Gains (sites : List Site) (now : Instant) (s s' : Service) (rs : List EventRecord) :
    Prop where
  directory : s'.directory = s.directory
  timeout : s'.timeout = s.timeout
  regular : s'.IsRegular sites
  keeps : ∀ kind, (s'.dispatcher.backend kind).keepsEvents =
    (s.dispatcher.backend kind).keepsEvents
  shared : ∀ kind, (s'.dispatcher.backend kind).isShared = (s.dispatcher.backend kind).isShared
  knows : ∀ kind x, (s'.dispatcher.backend kind).Knows x ↔ (s.dispatcher.backend kind).Knows x
  rows : ∀ kind, ∀ x ∈ sites,
    ((s'.dispatcher.backend kind).rowsFor x).map StoredEvent.withoutId =
      ((s.dispatcher.backend kind).rowsFor x).map StoredEvent.withoutId ++
        if x.storage = kind then (rs.filter (·.tag == x.tag)).map (x.row now) else []
  stocks : ∀ kind, ∀ x ∈ sites, (s'.dispatcher.backend kind).Stocks x ↔
    (s.dispatcher.backend kind).Stocks x ∨ x.storage = kind ∧ ∃ r ∈ rs, r.tag = x.tag
  length : ∀ x ∈ sites, (s'.tableFor x).length =
    (s.tableFor x).length + rs.countP (s.sharesTable sites x)

theorem Gains.refl (h : s.IsRegular sites) : s.Gains sites now s [] :=
  ⟨rfl, rfl, h, fun _ ↦ rfl, fun _ ↦ rfl, fun _ _ ↦ Iff.rfl, fun _ _ _ ↦ by simp,
    fun _ _ _ ↦ by simp, fun _ _ ↦ rfl⟩

theorem Gains.sharesTable (h : s.Gains sites now s' rs) :
    s'.sharesTable sites = s.sharesTable sites := by
  funext x r
  simp only [Service.sharesTable, h.shared]

theorem Gains.trans (h : s.Gains sites now s' rs) (h' : s'.Gains sites now s'' rs') :
    s.Gains sites now s'' (rs ++ rs') where
  directory := h'.directory.trans h.directory
  timeout := h'.timeout.trans h.timeout
  regular := h'.regular
  keeps kind := (h'.keeps kind).trans (h.keeps kind)
  shared kind := (h'.shared kind).trans (h.shared kind)
  knows kind x := (h'.knows kind x).trans (h.knows kind x)
  rows kind x hx := by
    rw [h'.rows kind x hx, h.rows kind x hx, List.append_assoc]
    split
    · rw [List.filter_append, List.map_append]
    · rfl
  stocks kind x hx := by
    simp only [h'.stocks kind x hx, h.stocks kind x hx, List.mem_append, or_and_right,
      exists_or, and_or_left, or_assoc]
  length x hx := by
    rw [h'.length x hx, h.length x hx, h.sharesTable, List.countP_append, Nat.add_assoc]

/-- What has been gained depends on the order of the records of each tag alone. -/
theorem Gains.congr (h : s.Gains sites now s' rs)
    (heq : ∀ tag, rs.filter (·.tag == tag) = rs'.filter (·.tag == tag)) :
    s.Gains sites now s' rs' := by
  have hperm : rs.Perm rs' := perm_of_filter_eq heq
  exact { h with
    rows := fun kind x hx ↦ heq x.tag ▸ h.rows kind x hx
    stocks := fun kind x hx ↦ by simpa only [hperm.mem_iff] using h.stocks kind x hx
    length := fun x hx ↦ hperm.countP_eq _ ▸ h.length x hx }

theorem IsParcel.sharesTable (hp : IsParcel sites p) (htags : (sites.map (·.tag)).Nodup)
    (hr : r ∈ p.2) (x : Site) : s.sharesTable sites x r = (decide (p.1.storage = x.storage) &&
      ((s.dispatcher.backend x.storage).isShared || decide (x = p.1))) := by
  have htag := (hp.claimed r hr).1
  rw [Service.sharesTable, Bool.eq_iff_iff, List.any_eq_true]
  constructor
  · rintro ⟨y, hy, hyr⟩
    rw [Bool.and_assoc, Bool.and_eq_true, beq_iff_eq, htag] at hyr
    obtain rfl := List.inj_on_of_nodup_map htags hy hp.mem hyr.1
    exact hyr.2
  · intro h
    exact ⟨p.1, hp.mem, by rw [Bool.and_assoc, h, htag, beq_self_eq_true, Bool.true_and]⟩

theorem IsParcel.countP_sharesTable (hp : IsParcel sites p) (htags : (sites.map (·.tag)).Nodup)
    (x : Site) : p.2.countP (s.sharesTable sites x) =
      if p.1.storage = x.storage ∧ ((s.dispatcher.backend x.storage).isShared = true ∨ x = p.1)
      then p.2.length else 0 := by
  rw [List.countP_congr fun r hr ↦ by rw [hp.sharesTable htags hr x]]
  split
  · rename_i hc
    exact List.countP_eq_length.2 fun _ _ ↦ by simpa using hc
  · rename_i hc
    exact List.countP_eq_zero.2 fun _ _ ↦ by simpa using hc

theorem IsParcel.exists_tag_iff (hp : IsParcel sites p) (htags : (sites.map (·.tag)).Nodup)
    (hx : x ∈ sites) : (∃ r ∈ p.2, r.tag = x.tag) ↔ x = p.1 := by
  constructor
  · rintro ⟨r, hr, htag⟩
    rw [(hp.claimed r hr).1] at htag
    exact List.inj_on_of_nodup_map htags hx hp.mem htag.symm
  · rintro rfl
    obtain ⟨r, hr⟩ := List.exists_mem_of_ne_nil _ hp.ne_nil
    exact ⟨r, hr, (hp.claimed r hr).1⟩

theorem gains_of_stores (h : s.IsRegular sites) (htags : (sites.map (·.tag)).Nodup)
    (hp : IsParcel sites p) {b : Backend}
    (hb : Backend.Stores sites now (s.dispatcher.backend p.1.storage) b p) :
    s.Gains sites now (s.withBackend p.1.storage b) p.2 := by
  have hself := s.backend_withBackend p.1.storage b
  have hother {kind : StorageKind} (hk : p.1.storage ≠ kind) :=
    s.backend_withBackend_of_ne b hk
  constructor
  case directory => rfl
  case timeout => rfl
  case regular => exact h.withBackend _ hb.regular
  case keeps =>
    exact forall_backend_withBackend
      (P := fun kind c ↦ c.keepsEvents = (s.dispatcher.backend kind).keepsEvents) hb.keeps
      fun _ _ ↦ rfl
  case shared =>
    exact forall_backend_withBackend
      (P := fun kind c ↦ c.isShared = (s.dispatcher.backend kind).isShared) hb.shared
      fun _ _ ↦ rfl
  case knows =>
    exact forall_backend_withBackend
      (P := fun kind c ↦ ∀ y, c.Knows y ↔ (s.dispatcher.backend kind).Knows y) hb.knows
      fun _ _ _ ↦ Iff.rfl
  case rows =>
    intro kind y hy
    rw [hp.filter_tag htags hy]
    -- The parcel goes to one backend, and there to the rows of one site.
    by_cases hk : p.1.storage = kind
    · subst hk
      rw [hself]
      by_cases hyp : y = p.1
      · subst hyp
        rw [hb.rows, List.map_append, if_pos rfl, if_pos rfl, Backend.newRows,
          Parcel.map_withoutId_rows]
      · simp [hb.rows_of_ne y hy hyp, hyp]
    · rw [hother hk]
      by_cases hyp : y = p.1
      · simp [hyp, hk]
      · simp [hyp]
  case stocks =>
    intro kind y hy
    rw [hp.exists_tag_iff htags hy]
    by_cases hk : p.1.storage = kind
    · subst hk
      rw [hself, hb.stocks y hy]
      exact or_congr_right ⟨fun heq ↦ ⟨congrArg Site.storage heq, heq⟩, And.right⟩
    · rw [hother hk]
      refine (or_iff_left ?_).symm
      rintro ⟨hyk, rfl⟩
      exact hk hyk
  case length =>
    intro y hy
    rw [hp.countP_sharesTable htags, tableFor, tableFor]
    by_cases hk : p.1.storage = y.storage
    · rw [← hk, hself, hb.length y hy]
      simp
    · rw [hother hk]
      simp [hk]

/-- The tag of a record is that of a site, and the numbers in its row fit. -/
def Admits (s : Service) (sites : List Site) (now : Instant) (r : EventRecord) : Prop :=
  ∃ x ∈ sites, r.tag = x.tag ∧ (s.dispatcher.backend x.storage).keepsEvents = true ∧
    (x.row now r).numbers.all fitsTable = true

/-- The numbers of the rows of records fit as well. -/
def HasRoom (s : Service) (sites : List Site) (rs : List EventRecord) : Prop :=
  ∀ x ∈ sites, (s.tableFor x).length + rs.countP (s.sharesTable sites x) < 0x8000000000000000

theorem IsRegular.hasRoom_nil (h : s.IsRegular sites) : s.HasRoom sites [] :=
  fun x hx ↦ (h.backend x.storage).length_tableFor hx

theorem HasRoom.left (h : s.HasRoom sites (rs ++ rs')) : s.HasRoom sites rs := by
  intro x hx
  have hx := h x hx
  rw [List.countP_append] at hx
  omega

theorem Gains.admits_iff (h : s.Gains sites now s' rs) {now' : Instant} :
    s'.Admits sites now' r ↔ s.Admits sites now' r := by
  simp only [Admits, h.keeps]

theorem Gains.hasRoom_iff (h : s.Gains sites now s' rs) :
    s'.HasRoom sites rs' ↔ s.HasRoom sites (rs ++ rs') := by
  refine forall₂_congr fun x hx ↦ ?_
  rw [h.length x hx, h.sharesTable, List.countP_append, Nat.add_assoc]

/-- A parcel is stored if its rows fit, and otherwise the storage is full. -/
theorem IsRegular.onBackend_cases (h : s.IsRegular sites) (hids : (sites.map (·.id)).Nodup)
    (htags : (sites.map (·.tag)).Nodup) (hp : IsParcel sites p)
    (hkeeps : (s.dispatcher.backend p.1.storage).keepsEvents = true) (now : Instant) :
    (((s.dispatcher.backend p.1.storage).newRows now p).all (·.numbers.all fitsTable) = true ∧
      ∃ rows s', s.onBackend p.1.storage (·.insertAll now p.2) = (.ok rows, s') ∧
        rows.length = p.2.length ∧ s.Gains sites now s' p.2) ∨
    ¬((s.dispatcher.backend p.1.storage).newRows now p).all (·.numbers.all fitsTable) = true ∧
      (s.onBackend p.1.storage (·.insertAll now p.2)).1 = .error (.fault .hugeForStore) := by
  rcases (h.backend p.1.storage).insertAll_cases hids hp hkeeps now with
    ⟨hfits, b, hi, hb⟩ | ⟨hfits, hfull⟩
  · exact .inl ⟨hfits, _, _, onBackend_of_eq hi, Backend.length_newRows _ now p,
      gains_of_stores h htags hp hb⟩
  · exact .inr ⟨hfits, hfull⟩

theorem IsParcel.admits_iff (hp : IsParcel sites p) (htags : (sites.map (·.tag)).Nodup)
    (hr : r ∈ p.2) : s.Admits sites now r ↔
      (s.dispatcher.backend p.1.storage).keepsEvents = true ∧
        (p.1.row now r).numbers.all fitsTable = true := by
  have htag := (hp.claimed r hr).1
  constructor
  · rintro ⟨x, hx, hrx, hadmits⟩
    obtain rfl := List.inj_on_of_nodup_map htags hx hp.mem (hrx.symm.trans htag)
    exact hadmits
  · exact fun hadmits ↦ ⟨p.1, hp.mem, htag, hadmits⟩

theorem IsParcel.exists_gains (h : s.IsRegular sites) (hids : (sites.map (·.id)).Nodup)
    (htags : (sites.map (·.tag)).Nodup) (hp : IsParcel sites p)
    (hadmits : ∀ r ∈ p.2, s.Admits sites now r) (hroom : s.HasRoom sites p.2) :
    ∃ rows s', s.onBackend p.1.storage (·.insertAll now p.2) = (.ok rows, s') ∧
      rows.length = p.2.length ∧ s.Gains sites now s' p.2 := by
  have hkeeps : (s.dispatcher.backend p.1.storage).keepsEvents = true := by
    obtain ⟨r, hr⟩ := List.exists_mem_of_ne_nil _ hp.ne_nil
    exact ((hp.admits_iff htags hr).1 (hadmits r hr)).1
  have hlength := hroom p.1 hp.mem
  rw [hp.countP_sharesTable htags, if_pos ⟨rfl, .inr rfl⟩] at hlength
  have hfits : ((s.dispatcher.backend p.1.storage).newRows now p).all
      (·.numbers.all fitsTable) = true := by
    refine Entry.fits_rows (by omega) ?_ fun e he ↦ ?_
    · simp only [Parcel.entries, List.length_map]
      simp only [tableFor] at hlength
      omega
    · obtain ⟨r, hr, rfl⟩ := List.mem_map.1 he
      exact ((hp.admits_iff htags hr).1 (hadmits r hr)).2
  rcases h.onBackend_cases hids htags hp hkeeps now with ⟨-, hstored⟩ | ⟨hfull, -⟩
  · exact hstored
  · exact absurd hfits hfull

theorem exists_gains_storeParcels (hids : (sites.map (·.id)).Nodup)
    (htags : (sites.map (·.tag)).Nodup) {parcels : List Parcel}
    (hp : ∀ p ∈ parcels, IsParcel sites p) (h : s.IsRegular sites)
    (hadmits : ∀ r ∈ contents parcels, s.Admits sites now r)
    (hroom : s.HasRoom sites (contents parcels)) :
    ∃ rows s', s.storeParcels now parcels = (.ok rows, s') ∧
      rows.length = (contents parcels).length ∧ s.Gains sites now s' (contents parcels) := by
  induction parcels generalizing s with
  | nil => exact ⟨[], s, rfl, rfl, .refl h⟩
  | cons p rest ih =>
    have hcontents : contents (p :: rest) = p.2 ++ contents rest := rfl
    rw [hcontents] at hadmits hroom ⊢
    obtain ⟨rows, s', hfirst, hrows, hg⟩ := (hp p (by simp)).exists_gains h hids htags
      (fun r hr ↦ hadmits r (by simp [hr])) hroom.left
    obtain ⟨more, s'', hrest, hmore, hg'⟩ := ih (fun q hq ↦ hp q (by simp [hq])) hg.regular
      (fun r hr ↦ hg.admits_iff.2 (hadmits r (by simp [hr]))) (hg.hasRoom_iff.2 hroom)
    refine ⟨rows ++ more, s'', ?_, ?_, hg.trans hg'⟩
    · rw [storeParcels, hfirst]
      simp only [hrest, Except.map]
    · rw [List.length_append, List.length_append, hrows, hmore]

def Call.payloads : Call → List Value
  | .ingest payload => [payload]
  | .ingestMany payloads => payloads
  | _ => []

/-- Whether an answer has an event for each payload of the call. -/
def Call.isStored (c : Call) : Work Answer → Bool
  | .done (.ok a) _ => a.stored.length == c.payloads.length
  | _ => false

/-- All payloads can be stored, one after the other. -/
structure Takes (s : Service) (sites : List Site) (now : Instant) (payloads : List Value) :
    Prop where
  admits : ∀ p ∈ payloads, ∃ r, s.record? p = some r ∧ s.Admits sites now r
  room : s.HasRoom sites (payloads.filterMap s.record?)

variable {ps ps' : List Value}

theorem Takes.perm (h : s.Takes sites now ps) (hperm : ps.Perm ps') : s.Takes sites now ps' :=
  ⟨fun p hp ↦ h.admits p (hperm.mem_iff.2 hp),
    fun x hx ↦ (hperm.filterMap _).countP_eq _ ▸ h.room x hx⟩

theorem Takes.admits_record (h : s.Takes sites now ps) (hr : r ∈ ps.filterMap s.record?) :
    s.Admits sites now r := by
  obtain ⟨p, hp, hrecord⟩ := List.mem_filterMap.1 hr
  obtain ⟨r', hr', hadmits⟩ := h.admits p hp
  obtain rfl := Option.some.inj (hr'.symm.trans hrecord)
  exact hadmits

theorem Takes.isSome_record? (h : s.Takes sites now ps) {p : Value} (hp : p ∈ ps) :
    (s.record? p).isSome = true := by
  obtain ⟨r, hr, -⟩ := h.admits p hp
  rw [hr]
  rfl

theorem Takes.length_records (h : s.Takes sites now ps) :
    (ps.filterMap s.record?).length = ps.length :=
  List.filterMap_length_eq_length.2 fun _ hp ↦ h.isSome_record? hp

theorem Gains.record?_eq (h : s.Gains sites now s' rs) : s'.record? = s.record? := by
  have hclaim : s'.claim? = s.claim? := by
    funext r
    simp only [claim?, siteOfRecord, h.directory]
  funext p
  rw [record?, record?, hclaim]

/-- Payloads are stored exactly if the first of them are, and then the rest. -/
theorem Gains.takes_append_iff (h : s.Gains sites now s' (ps.filterMap s.record?))
    (hps : s.Takes sites now ps) :
    s.Takes sites now (ps ++ ps') ↔ s'.Takes sites now ps' := by
  have hadmits (p : Value) : (∃ r, s'.record? p = some r ∧ s'.Admits sites now r) ↔
      ∃ r, s.record? p = some r ∧ s.Admits sites now r := by
    simp only [h.record?_eq, h.admits_iff]
  have hroom : s'.HasRoom sites (ps'.filterMap s'.record?) ↔
      s.HasRoom sites ((ps ++ ps').filterMap s.record?) := by
    rw [h.record?_eq, h.hasRoom_iff, List.filterMap_append]
  constructor
  · intro hall
    exact ⟨fun p hp ↦ (hadmits p).2 (hall.admits p (by simp [hp])), hroom.2 hall.room⟩
  · intro hrest
    refine ⟨fun p hp ↦ ?_, hroom.1 hrest.room⟩
    rcases List.mem_append.1 hp with hp | hp
    · exact hps.admits p hp
    · exact (hadmits p).1 (hrest.admits p hp)

theorem Takes.left (h : s.Takes sites now (ps ++ ps')) : s.Takes sites now ps :=
  ⟨fun p hp ↦ h.admits p (by simp [hp]), (List.filterMap_append ▸ h.room).left⟩

theorem record?_eq_some_iff {payload : Value} : s.record? payload = some r ↔
    ∃ r₀ x, Event.canonicalize payload = .ok r₀ ∧ s.siteOfRecord r₀ = .ok x ∧
      r = r₀.claimedBy x.id x.team := by
  constructor
  · intro h
    cases hr : Event.canonicalize payload with
    | error e => simp [record?, hr, Except.toOption] at h
    | ok r₀ =>
      have hclaim : s.claim? r₀ = some r := by simpa [record?, hr, Except.toOption] using h
      obtain ⟨x, hx⟩ := exists_siteOfRecord (by rw [hclaim]; rfl)
      exact ⟨r₀, x, rfl, hx, Option.some.inj (hclaim.symm.trans (claim?_eq hx))⟩
  · rintro ⟨r₀, x, hr, hx, rfl⟩
    rw [record?, hr]
    exact claim?_eq hx

theorem perform_ingest {payload : Value} (hr : Event.canonicalize payload = .ok r)
    (hx : s.siteOfRecord r = .ok x) : s.perform now (.ingest payload) =
      (.done (((s.onBackend x.storage (·.insertAll now [r.claimedBy x.id x.team])).1.map
          List.head?).map .event),
        (s.onBackend x.storage (·.insertAll now [r.claimedBy x.id x.team])).2) := by
  simp only [Service.perform, Service.ingest, hr, hx, onBackend_insert]

/-- One call stores its payloads, as a batch or alone. -/
theorem Takes.perform (h : s.IsRegular sites) (hids : (sites.map (·.id)).Nodup)
    (htags : (sites.map (·.tag)).Nodup) {call : Call} (hcall : call.isRead = false)
    (ht : s.Takes sites now call.payloads) : call.isStored (s.perform now call).1 = true ∧
      s.Gains sites now (s.perform now call).2 (call.payloads.filterMap s.record?) := by
  cases call with
  | ingest payload =>
    obtain ⟨r, hrecord, -⟩ := ht.admits payload (by simp [Call.payloads])
    obtain ⟨r₀, x, hr, hx, rfl⟩ := record?_eq_some_iff.1 hrecord
    obtain ⟨hmem, htag⟩ := mem_of_siteOfRecord h.directory hx
    have hrecords : (Call.ingest payload).payloads.filterMap s.record? =
        [r₀.claimedBy x.id x.team] := by
      simp [Call.payloads, hrecord]
    obtain ⟨rows, s', hstored, hrows, hg⟩ := (isParcel_singleton hmem htag).exists_gains h hids
      htags (fun r hr ↦ ht.admits_record (hrecords ▸ hr)) (hrecords ▸ ht.room)
    obtain ⟨e, rfl⟩ := List.length_eq_one_iff.1 hrows
    rw [perform_ingest hr hx, hstored]
    exact ⟨rfl, hrecords ▸ hg⟩
  | ingestMany payloads =>
    obtain ⟨parcels, hparcels, hp, hfilter⟩ :=
      exists_parcels h.directory hids htags fun p (hp : p ∈ payloads) ↦ ht.isSome_record? hp
    have hperm := perm_of_filter_eq hfilter
    obtain ⟨rows, s', hstored, hrows, hg⟩ := exists_gains_storeParcels hids htags hp h
      (fun r hr ↦ ht.admits_record (hperm.mem_iff.1 hr))
      (fun x hx ↦ hperm.countP_eq _ ▸ ht.room x hx)
    have hlength : rows.length = payloads.length :=
      hrows.trans (hperm.length_eq.trans ht.length_records)
    simp only [Service.perform, Service.ingestMany, hparcels, hstored]
    exact ⟨beq_iff_eq.2 hlength, hg.congr hfilter⟩
  | _ => cases hcall

/-- Makes calls one after the other, all at the same time. -/
def runAt (s : Service) (now : Instant) (calls : List Call) : List (Work Answer) × Service :=
  s.run (calls.map (now, ·))

/-- Payloads that can be stored are stored, however they are divided among calls. -/
theorem Takes.run (hids : (sites.map (·.id)).Nodup) (htags : (sites.map (·.tag)).Nodup)
    {calls : List Call} (hcalls : ∀ c ∈ calls, c.isRead = false) (h : s.IsRegular sites)
    (ht : s.Takes sites now (calls.flatMap Call.payloads)) :
    List.Forall₂ (fun c w ↦ c.isStored w = true) calls (s.runAt now calls).1 ∧
      s.Gains sites now (s.runAt now calls).2
        ((calls.flatMap Call.payloads).filterMap s.record?) := by
  induction calls generalizing s with
  | nil => exact ⟨.nil, .refl h⟩
  | cons c rest ih =>
    rw [List.flatMap_cons] at ht ⊢
    obtain ⟨hfirst, hg⟩ := ht.left.perform h hids htags (hcalls c (by simp))
    obtain ⟨hrest, hg'⟩ := ih (fun c hc ↦ hcalls c (by simp [hc])) hg.regular
      ((hg.takes_append_iff ht.left).1 ht)
    rw [List.filterMap_append]
    exact ⟨.cons hfirst hrest, hg.trans (hg.record?_eq ▸ hg')⟩

theorem takes_of_isStored (h : s.IsRegular sites) (hids : (sites.map (·.id)).Nodup)
    (htags : (sites.map (·.tag)).Nodup) {payload : Value}
    (hstored : (Call.ingest payload).isStored (s.perform now (.ingest payload)).1 = true) :
    s.Takes sites now [payload] := by
  cases hr : Event.canonicalize payload with
  | error f => simp [Service.perform, Service.ingest, hr, Except.map, Call.isStored] at hstored
  | ok r =>
    cases hx : s.siteOfRecord r with
    | error f => simp [Service.perform, Service.ingest, hr, hx, Except.map, Call.isStored] at hstored
    | ok x =>
      obtain ⟨hmem, htag⟩ := mem_of_siteOfRecord h.directory hx
      have hp := isParcel_singleton hmem htag
      have hrecord : s.record? payload = some (r.claimedBy x.id x.team) :=
        record?_eq_some_iff.2 ⟨r, x, hr, hx, rfl⟩
      rw [perform_ingest hr hx] at hstored
      have hkeeps : (s.dispatcher.backend x.storage).keepsEvents = true := by
        -- A backend that keeps no events answers with none.
        by_contra hno
        rw [onBackend, (h.backend x.storage).fst_insertAll_of_keepsEvents (by simpa using hno)]
          at hstored
        cases hstored
      rcases h.onBackend_cases hids htags hp hkeeps now with ⟨hfits, rows, s', -, -, hg⟩ |
        ⟨-, hfull⟩
      · have hroom := hg.hasRoom_iff.1 hg.regular.hasRoom_nil
        rw [List.append_nil] at hroom
        refine ⟨fun p hmem ↦ ?_, ?_⟩
        · obtain rfl := List.mem_singleton.1 hmem
          have hrow := List.all_eq_true.1 hfits _ List.mem_cons_self
          exact ⟨_, hrecord, (hp.admits_iff htags (by simp)).2
            ⟨hkeeps, ((Entry.fits_row _ now _).1 hrow).2⟩⟩
        · simpa [hrecord] using hroom
      · rw [hfull] at hstored
        cases hstored

/-- Payloads that have been stored one by one could be stored. -/
theorem takes_of_areStored (hids : (sites.map (·.id)).Nodup) (htags : (sites.map (·.tag)).Nodup)
    (h : s.IsRegular sites)
    (hstored : List.Forall₂ (fun c w ↦ Call.isStored c w = true) (ps.map .ingest)
      (s.runAt now (ps.map .ingest)).1) : s.Takes sites now ps := by
  induction ps generalizing s with
  | nil => exact ⟨by simp, h.hasRoom_nil⟩
  | cons p ps ih =>
    obtain ⟨hfirst, hrest⟩ := List.forall₂_cons.1 hstored
    have hp : s.Takes sites now (Call.ingest p).payloads :=
      takes_of_isStored h hids htags hfirst
    have hg := (hp.perform h hids htags rfl).2
    exact (hg.takes_append_iff hp).2 (ih hg.regular hrest)

end Service

end Footfall
