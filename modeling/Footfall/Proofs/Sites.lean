import Footfall.Proofs.Batch
import Footfall.Service.Basic

/-!
Directories of sites with distinct numbers and tags, and the parcels into which the service divides a
batch.
-/

namespace Footfall

namespace Keyed

variable {κ α : Type} [DecidableEq κ]

theorem find_foldl_put_of_not_mem {key : α → κ} (xs : List α) (m : Keyed κ α) {k : κ}
    (h : k ∉ xs.map key) : find (xs.foldl (fun m x ↦ put m (key x) x) m) k = find m k := by
  induction xs generalizing m with
  | nil => rfl
  | cons x xs ih =>
    obtain ⟨hne, hrest⟩ := not_or.1 (List.mem_cons.not.1 h)
    rw [List.foldl_cons, ih _ hrest, find_put, if_neg (Ne.symm hne)]

/-- Of things put under distinct keys, each is found under its key. -/
theorem find_foldl_put {key : α → κ} {xs : List α} (h : (xs.map key).Nodup) (m : Keyed κ α) {x : α}
    (hx : x ∈ xs) : find (xs.foldl (fun m x ↦ put m (key x) x) m) (key x) = some x := by
  induction xs generalizing m with
  | nil => cases hx
  | cons y xs ih =>
    obtain ⟨hy, hxs⟩ := List.nodup_cons.1 h
    rcases List.mem_cons.1 hx with rfl | hx
    · rw [List.foldl_cons, find_foldl_put_of_not_mem _ _ hy, find_put_self]
    · exact ih hxs _ hx

theorem of_find_foldl_put {key : α → κ} {xs : List α} {m : Keyed κ α} {k : κ} {x : α}
    (h : find (xs.foldl (fun m x ↦ put m (key x) x) m) k = some x) :
    (x ∈ xs ∧ key x = k) ∨ find m k = some x := by
  induction xs generalizing m with
  | nil => exact .inr h
  | cons y xs ih =>
    rcases ih h with ⟨hx, hk⟩ | hm
    · exact .inl ⟨by simp [hx], hk⟩
    · rw [find_put] at hm
      split at hm
      · cases hm
        exact .inl ⟨by simp, by assumption⟩
      · exact .inr hm

end Keyed

namespace Directory

variable {sites : List Site} {x : Site}

theorem foldl_add (sites : List Site) (d : Directory) :
    sites.foldl add d = ⟨sites.foldl (fun m s ↦ Keyed.put m s.id s) d.byNumber,
      sites.foldl (fun m s ↦ Keyed.put m s.tag s) d.byTag⟩ := by
  induction sites generalizing d with
  | nil => rfl
  | cons s sites ih => exact ih _

theorem find?_number_ofSites (h : (sites.map (·.id)).Nodup) (hx : x ∈ sites) :
    (ofSites sites).find? (.number x.id) = some x := by
  rw [ofSites, foldl_add]
  exact Keyed.find_foldl_put h [] hx

theorem of_find?_number {n : Int} (h : (ofSites sites).find? (.number n) = some x) :
    x ∈ sites ∧ x.id = n := by
  rw [ofSites, foldl_add] at h
  exact (Keyed.of_find_foldl_put h).resolve_right (by simp)

theorem find?_tag_ofSites (h : (sites.map (·.tag)).Nodup) (hx : x ∈ sites) :
    (ofSites sites).find? (.tag x.tag) = some x := by
  rw [ofSites, foldl_add]
  exact Keyed.find_foldl_put h [] hx

theorem of_find?_tag {t : String} (h : (ofSites sites).find? (.tag t) = some x) :
    x ∈ sites ∧ x.tag = t := by
  rw [ofSites, foldl_add] at h
  exact (Keyed.of_find_foldl_put h).resolve_right (by simp)

theorem mem_of_withNumber {v : Value} (h : (ofSites sites).withNumber v = .ok (some x)) :
    x ∈ sites := by
  obtain ⟨key, -, hkey⟩ := bind_eq_ok_iff.1 h
  obtain ⟨n, -, hn⟩ := Option.bind_eq_some_iff.1 (Except.ok.inj hkey)
  exact (of_find?_number hn).1

theorem mem_of_withTag {v : Value} (h : (ofSites sites).withTag v = .ok (some x)) :
    x ∈ sites := by
  obtain ⟨key, -, hkey⟩ := bind_eq_ok_iff.1 h
  obtain ⟨t, -, ht⟩ := Option.bind_eq_some_iff.1 (Except.ok.inj hkey)
  exact (of_find?_tag ht).1

end Directory

namespace Service

variable {sites : List Site} {s : Service} {parcels : Keyed Int Parcel} {r : EventRecord} {x : Site}

/-- A site of the directory with records of its tag, which are under its number and team. -/
structure IsParcel (sites : List Site) (p : Parcel) : Prop where
  mem : p.1 ∈ sites
  ne_nil : p.2 ≠ []
  claimed : ∀ r ∈ p.2, r.tag = p.1.tag ∧ r.site = some p.1.id ∧ r.team = some p.1.team

theorem mem_of_siteFor (hs : s.directory = .ofSites sites) {t : Tenant} {number tag : Value}
    (h : s.siteFor t number tag = .ok x) : x ∈ sites ∧ t.owns x = true := by
  unfold siteFor at h
  split at h
  · cases h
  · obtain ⟨found, hf, hfound⟩ := bind_eq_ok_iff.1 h
    rw [mapError_eq_ok_iff, hs] at hf
    cases hown : found.filter t.owns with
    | none =>
      rw [hown] at hfound
      cases hfound
    | some y =>
      rw [hown] at hfound
      cases hfound
      obtain ⟨rfl, ht⟩ := Option.filter_eq_some_iff.1 hown
      split at hf
      · exact ⟨Directory.mem_of_withNumber hf, ht⟩
      · exact ⟨Directory.mem_of_withTag hf, ht⟩

theorem mem_of_siteOfRecord (hs : s.directory = .ofSites sites) (h : s.siteOfRecord r = .ok x) :
    x ∈ sites ∧ x.tag = r.tag := by
  unfold siteOfRecord at h
  split at h
  · cases h
  · rename_i y hy
    split at h
    · cases h
      exact Directory.of_find?_tag (hs ▸ hy)
    · cases h

theorem isParcel_singleton (hx : x ∈ sites) (htag : x.tag = r.tag) :
    IsParcel sites (x, [r.claimedBy x.id x.team]) :=
  ⟨hx, by simp, by simp [EventRecord.claimedBy, htag]⟩

theorem IsParcel.concat {p : Parcel} (hp : IsParcel sites p) (htag : p.1.tag = r.tag) :
    IsParcel sites (p.1, p.2 ++ [r.claimedBy p.1.id p.1.team]) := by
  refine ⟨hp.mem, by simp, fun r' hr' ↦ ?_⟩
  rcases List.mem_append.1 hr' with hr' | hr'
  · exact hp.claimed r' hr'
  · obtain rfl := List.mem_singleton.1 hr'
    simp [EventRecord.claimedBy, htag]

theorem isParcel_addToParcel (hids : (sites.map (·.id)).Nodup)
    (h : ∀ p ∈ parcels, p.1 = p.2.1.id ∧ IsParcel sites p.2) (hx : x ∈ sites)
    (htag : x.tag = r.tag) :
    ∀ p ∈ addToParcel parcels x r, p.1 = p.2.1.id ∧ IsParcel sites p.2 := by
  intro p hp
  cases hf : parcels.find x.id with
  | none =>
    simp only [addToParcel, hf, Option.getD_none] at hp
    rcases Keyed.mem_put hp with rfl | hp
    · exact ⟨rfl, isParcel_singleton hx htag⟩
    · exact h p hp
  | some q =>
    obtain ⟨first, rs⟩ := q
    obtain ⟨hid, hq⟩ := h _ (Keyed.mem_of_find hf)
    obtain rfl : x = first := List.inj_on_of_nodup_map hids hx hq.mem hid
    simp only [addToParcel, hf, Option.getD_some] at hp
    rcases Keyed.mem_put hp with rfl | hp
    · exact ⟨rfl, hq.concat htag⟩
    · exact h p hp

theorem isParcel_of_parcelsOf (hids : (sites.map (·.id)).Nodup)
    (hs : s.directory = .ofSites sites) {records : List EventRecord} {parcels : Keyed Int Parcel}
    (h : s.parcelsOf records = .ok parcels) : ∀ p ∈ Keyed.values parcels, IsParcel sites p := by
  have hfold (records : List EventRecord) (start parcels : Keyed Int Parcel)
      (hstart : ∀ p ∈ start, p.1 = p.2.1.id ∧ IsParcel sites p.2)
      (h : records.foldlM (fun ps r ↦ return addToParcel ps (← s.siteOfRecord r) r) start =
        Except.ok (ε := Failure) parcels) : ∀ p ∈ parcels, p.1 = p.2.1.id ∧ IsParcel sites p.2 := by
    induction records generalizing start with
    | nil =>
      cases h
      exact hstart
    | cons r records ih =>
      rw [List.foldlM_cons] at h
      obtain ⟨ps, hps, hrest⟩ := bind_eq_ok_iff.1 h
      obtain ⟨x, hx, hadd⟩ := bind_eq_ok_iff.1 hps
      cases hadd
      obtain ⟨hmem, htag⟩ := mem_of_siteOfRecord hs hx
      exact ih _ (isParcel_addToParcel hids hstart hmem htag) hrest
  intro p hmem
  obtain ⟨q, hq, rfl⟩ := List.mem_map.1 hmem
  exact (hfold records [] parcels (by simp) h q hq).2

/-- The payloads of a batch that is not refused are divided into parcels. -/
theorem isParcel_of_payloads (hids : (sites.map (·.id)).Nodup) (hs : s.directory = .ofSites sites)
    {payloads : List Value} {parcels : Keyed Int Parcel}
    (h : payloads.mapM Event.canonicalize >>= s.parcelsOf = .ok parcels) :
    ∀ p ∈ Keyed.values parcels, IsParcel sites p := by
  obtain ⟨records, -, hparcels⟩ := bind_eq_ok_iff.1 h
  exact isParcel_of_parcelsOf hids hs hparcels

end Service

end Footfall
