import Footfall.Proofs.Sites
import Mathlib.Data.List.Count

/-!
The records in the parcels of a batch. Each site has there the records of its tag, in the order of the
batch, whichever way the batch goes through the sites.
-/

namespace Footfall

/-- Lists that have the same items under each key are reorderings of one another. -/
theorem perm_of_filter_eq {α κ : Type} [DecidableEq κ] {key : α → κ} {xs ys : List α}
    (h : ∀ k, xs.filter (key · == k) = ys.filter (key · == k)) : xs.Perm ys := by
  classical
  refine List.perm_iff_count.2 fun a ↦ ?_
  have hcount (zs : List α) : (zs.filter (key · == key a)).count a = zs.count a :=
    List.count_filter (by simp)
  rw [← hcount xs, h, hcount]

namespace Service

variable {s : Service} {sites : List Site} {m : Keyed Int Parcel} {r : EventRecord} {x : Site}

/-- The records of parcels, one parcel after the other. -/
def contents (parcels : List Parcel) : List EventRecord := parcels.flatMap (·.2)

/-- The record under the site and team of its tag, unless it is refused. -/
def claim? (s : Service) (r : EventRecord) : Option EventRecord :=
  (s.siteOfRecord r).toOption.map fun x ↦ r.claimedBy x.id x.team

/-- The record that is stored for a payload, unless that is refused. -/
def record? (s : Service) (payload : Value) : Option EventRecord :=
  (Event.canonicalize payload).toOption.bind s.claim?

theorem IsParcel.filter_tag {p : Parcel} (hp : IsParcel sites p)
    (htags : (sites.map (·.tag)).Nodup) (hx : x ∈ sites) :
    p.2.filter (·.tag == x.tag) = if x = p.1 then p.2 else [] := by
  split
  · rename_i heq
    subst heq
    exact List.filter_eq_self.2 fun r hr ↦ by simp [(hp.claimed r hr).1]
  · rename_i hne
    refine List.filter_eq_nil_iff.2 fun r hr ↦ ?_
    rw [(hp.claimed r hr).1, beq_iff_eq]
    exact fun heq ↦ hne (List.inj_on_of_nodup_map htags hx hp.mem heq.symm)

/-- Parcels of different sites, each under the number of its own. -/
structure ArePacked (sites : List Site) (m : Keyed Int Parcel) : Prop where
  isParcel : ∀ p ∈ m, p.1 = p.2.1.id ∧ IsParcel sites p.2
  nodup : (Keyed.keys m).Nodup

theorem arePacked_nil : ArePacked sites [] := ⟨by simp, List.nodup_nil⟩

theorem ArePacked.tail {p : Int × Parcel} (h : ArePacked sites (p :: m)) : ArePacked sites m :=
  ⟨fun q hq ↦ h.isParcel q (List.mem_cons_of_mem _ hq), (List.nodup_cons.1 h.nodup).2⟩

theorem addToParcel_eq (m : Keyed Int Parcel) (x : Site) (r : EventRecord) :
    addToParcel m x r = m.put x.id (((m.find x.id).getD (x, [])).1,
      ((m.find x.id).getD (x, [])).2 ++ [r.claimedBy x.id x.team]) := rfl

theorem ArePacked.add (h : ArePacked sites m) (hids : (sites.map (·.id)).Nodup) (hx : x ∈ sites)
    (htag : x.tag = r.tag) : ArePacked sites (addToParcel m x r) :=
  ⟨isParcel_addToParcel hids h.isParcel hx htag, Keyed.nodup_keys_put h.nodup ..⟩

theorem contents_cons (p : Int × Parcel) (m : Keyed Int Parcel) :
    contents (Keyed.values (p :: m)) = p.2.2 ++ contents (Keyed.values m) := rfl

/-- There are no records of a site whose number is not among the keys. -/
theorem ArePacked.filter_eq_nil (h : ArePacked sites m) (htags : (sites.map (·.tag)).Nodup)
    (hx : x ∈ sites) (hkey : x.id ∉ Keyed.keys m) :
    (contents (Keyed.values m)).filter (·.tag == x.tag) = [] := by
  induction m with
  | nil => rfl
  | cons p rest ih =>
    obtain ⟨hid, hp⟩ := h.isParcel p (by simp)
    obtain ⟨hne, hkey⟩ := not_or.1 (List.mem_cons.not.1 hkey)
    have hother : x ≠ p.2.1 := by
      rintro rfl
      exact hne hid.symm
    rw [contents_cons, List.filter_append, hp.filter_tag htags hx, if_neg hother, ih h.tail hkey]
    rfl

/-- A record comes after those of its site. -/
theorem ArePacked.filter_add (h : ArePacked sites m) (htags : (sites.map (·.tag)).Nodup)
    (hx : x ∈ sites) (htag : x.tag = r.tag) (tag : String) :
    (contents (Keyed.values (addToParcel m x r))).filter (·.tag == tag) =
      (contents (Keyed.values m)).filter (·.tag == tag) ++
        [r.claimedBy x.id x.team].filter (·.tag == tag) := by
  rw [addToParcel_eq]
  induction m with
  | nil => rfl
  | cons p rest ih =>
    obtain ⟨k, q⟩ := p
    by_cases hk : k = x.id
    · have hkey : x.id ∉ Keyed.keys rest := hk ▸ (List.nodup_cons.1 h.nodup).1
      have hclaim : (r.claimedBy x.id x.team).tag = x.tag := htag.symm
      simp only [Keyed.put, Keyed.find, hk, if_true, Option.getD_some, contents_cons,
        List.filter_append, List.append_assoc]
      -- If the record has the tag, no later parcel has records with it.
      by_cases hxt : x.tag = tag
      · rw [← hxt, h.tail.filter_eq_nil htags hx hkey]
        simp
      · have hnone : [r.claimedBy x.id x.team].filter (·.tag == tag) = [] := by
          simp [hclaim, hxt]
        rw [hnone]
        simp
    · simp only [Keyed.put, Keyed.find, hk, if_false, contents_cons, List.filter_append,
        ih h.tail, List.append_assoc]

theorem claim?_eq (hx : s.siteOfRecord r = .ok x) :
    s.claim? r = some (r.claimedBy x.id x.team) := by
  rw [claim?, hx]
  rfl

theorem exists_siteOfRecord (h : (s.claim? r).isSome = true) :
    ∃ x, s.siteOfRecord r = .ok x := by
  cases hx : s.siteOfRecord r with
  | error e => simp [claim?, hx, Except.toOption] at h
  | ok x => exact ⟨x, rfl⟩

/-- Records of which none is refused are divided into parcels, which hold the records of each tag in
their order. -/
theorem exists_packed (hs : s.directory = .ofSites sites) (hids : (sites.map (·.id)).Nodup)
    (htags : (sites.map (·.tag)).Nodup) {records : List EventRecord}
    (hclaims : ∀ r ∈ records, (s.claim? r).isSome = true) (h : ArePacked sites m) :
    ∃ parcels, records.foldlM (fun ps r ↦ return addToParcel ps (← s.siteOfRecord r) r) m =
        Except.ok (ε := Failure) parcels ∧ ArePacked sites parcels ∧
      ∀ tag, (contents (Keyed.values parcels)).filter (·.tag == tag) =
        (contents (Keyed.values m) ++ records.filterMap s.claim?).filter (·.tag == tag) := by
  induction records generalizing m with
  | nil => exact ⟨m, rfl, h, fun tag ↦ by simp⟩
  | cons r records ih =>
    obtain ⟨x, hx⟩ := exists_siteOfRecord (hclaims r (by simp))
    obtain ⟨hmem, htag⟩ := mem_of_siteOfRecord hs hx
    obtain ⟨parcels, hparcels, hpacked, hfilter⟩ :=
      ih (fun r hr ↦ hclaims r (by simp [hr])) (h.add hids hmem htag)
    refine ⟨parcels, ?_, hpacked, fun tag ↦ ?_⟩
    · rw [List.foldlM_cons, hx]
      exact hparcels
    · rw [hfilter, List.filterMap_cons_some (claim?_eq hx), List.filter_append,
        h.filter_add htags hmem htag, List.append_cons, List.filter_append, List.filter_append]

/-- A batch of payloads of which none is refused is divided into parcels, which hold the records of
each tag in their order. -/
theorem exists_parcels (hs : s.directory = .ofSites sites) (hids : (sites.map (·.id)).Nodup)
    (htags : (sites.map (·.tag)).Nodup) {payloads : List Value}
    (hrecords : ∀ p ∈ payloads, (s.record? p).isSome = true) :
    ∃ parcels, payloads.mapM Event.canonicalize >>= s.parcelsOf = .ok parcels ∧
      (∀ p ∈ Keyed.values parcels, IsParcel sites p) ∧
      ∀ tag, (contents (Keyed.values parcels)).filter (·.tag == tag) =
        (payloads.filterMap s.record?).filter (·.tag == tag) := by
  obtain ⟨records, hmap, hclaims, heq⟩ : ∃ records,
      payloads.mapM Event.canonicalize = .ok records ∧
      (∀ r ∈ records, (s.claim? r).isSome = true) ∧
      records.filterMap s.claim? = payloads.filterMap s.record? := by
    induction payloads with
    | nil => exact ⟨[], rfl, by simp, rfl⟩
    | cons p payloads ih =>
      obtain ⟨records, hmap, hclaims, heq⟩ := ih fun p hp ↦ hrecords p (by simp [hp])
      have hp := hrecords p (by simp)
      cases hr : Event.canonicalize p with
      | error e => simp [record?, hr, Except.toOption] at hp
      | ok r =>
        have hrecord : s.record? p = s.claim? r := by
          rw [record?, hr]
          rfl
        refine ⟨r :: records, ?_, ?_, ?_⟩
        · rw [List.mapM_cons, hr, hmap]
          rfl
        · rw [hrecord] at hp
          simpa [hp] using hclaims
        · simp only [List.filterMap_cons, hrecord, heq]
  obtain ⟨parcels, hparcels, hpacked, hfilter⟩ :=
    exists_packed hs hids htags hclaims arePacked_nil
  refine ⟨parcels, ?_, fun p hp ↦ ?_, fun tag ↦ ?_⟩
  · rw [hmap]
    exact hparcels
  · obtain ⟨q, hq, rfl⟩ := List.mem_map.1 hp
    exact (hpacked.isParcel q hq).2
  · rw [hfilter, heq]
    rfl

end Service

end Footfall
