import Footfall.Backend.Embedded
import Mathlib.Data.List.Induction
import Mathlib.Data.List.Nodup

/-!
The division of a batch into the parts that are of one site each.
-/

namespace Footfall

namespace Keyed

variable {κ α : Type} [DecidableEq κ] {m : Keyed κ α} {k : κ} {a : α}

theorem mem_of_find (h : find m k = some a) : (k, a) ∈ m := by
  induction m with
  | nil => cases h
  | cons p rest ih =>
    obtain ⟨l, b⟩ := p
    by_cases hl : l = k
    · simp only [find, hl, if_true, Option.some.injEq] at h
      simp [hl, h]
    · simp only [find, hl, if_false] at h
      exact List.mem_cons_of_mem _ (ih h)

theorem find_of_mem (hm : (keys m).Nodup) (h : (k, a) ∈ m) : find m k = some a := by
  induction m with
  | nil => cases h
  | cons p rest ih =>
    obtain ⟨l, b⟩ := p
    obtain ⟨hl, hrest⟩ := List.nodup_cons.1 hm
    rcases List.mem_cons.1 h with heq | h
    · cases heq
      simp [find]
    · have hne : l ≠ k := by
        rintro rfl
        exact hl (List.mem_map.2 ⟨_, h, rfl⟩)
      simpa [find, hne] using ih hrest h

theorem mem_put {p : κ × α} (h : p ∈ put m k a) : p = (k, a) ∨ p ∈ m := by
  induction m with
  | nil => exact .inl (by simpa [put] using h)
  | cons q rest ih =>
    obtain ⟨l, b⟩ := q
    by_cases hl : l = k
    · rw [put, if_pos hl] at h
      exact (List.mem_cons.1 h).imp_right (List.mem_cons_of_mem _)
    · rw [put, if_neg hl] at h
      rcases List.mem_cons.1 h with rfl | h
      · exact .inr (by simp)
      · exact (ih h).imp_right (List.mem_cons_of_mem _)

theorem keys_put_of_find (h : find m k = some a) (b : α) : keys (put m k b) = keys m := by
  induction m with
  | nil => cases h
  | cons p rest ih =>
    obtain ⟨l, c⟩ := p
    by_cases hl : l = k
    · simp [put, hl, keys]
    · simp only [find, hl, if_false] at h
      simpa [put, hl, keys] using ih h

theorem not_mem_keys (h : find m k = none) : k ∉ keys m := by
  induction m with
  | nil => simp [keys]
  | cons p rest ih =>
    obtain ⟨l, b⟩ := p
    by_cases hl : l = k
    · simp [find, hl] at h
    · simp only [find, hl, if_false] at h
      simpa [keys, Ne.symm hl] using ih h

theorem nodup_keys_put (hm : (keys m).Nodup) (k : κ) (a : α) : (keys (put m k a)).Nodup := by
  cases h : find m k with
  | none =>
    rw [keys_put_of_find_eq_none m k a h]
    simpa using hm.concat (not_mem_keys h)
  | some b => rwa [keys_put_of_find h]

end Keyed

section

variable {ε α β : Type} {f : α → Except ε β} {xs : List α}

theorem mapM_eq_ok_iff {ys : List β} :
    xs.mapM f = .ok ys ↔ List.Forall₂ (fun x y ↦ f x = .ok y) xs ys := by
  induction xs generalizing ys with
  | nil => simp [pure, Except.pure, eq_comm]
  | cons x rest ih =>
    simp only [List.mapM_cons, bind_eq_ok_iff, ih, pure, Except.pure, Except.ok.injEq,
      List.forall₂_cons_left_iff]
    exact exists_congr fun y ↦ by simp [eq_comm]

/-- A check of a batch stops at the first item that does not pass it. -/
theorem mapM_eq_error_iff {e : ε} : xs.mapM f = .error e ↔ ∃ before x after,
    xs = before ++ x :: after ∧ (∀ y ∈ before, ∃ b, f y = .ok b) ∧ f x = .error e := by
  induction xs with
  | nil => simp [pure, Except.pure]
  | cons x rest ih =>
    rw [List.mapM_cons]
    constructor
    · intro h
      cases hx : f x with
      | error e' =>
        simp only [hx, bind, Except.bind, Except.error.injEq] at h
        exact ⟨[], x, rest, rfl, by simp, h ▸ hx⟩
      | ok y =>
        cases hr : rest.mapM f with
        | error e' =>
          simp only [hx, hr, bind, Except.bind, Except.error.injEq] at h
          obtain ⟨before, z, after, rfl, hbefore, hz⟩ := ih.1 (h ▸ hr)
          exact ⟨x :: before, z, after, rfl, by simpa [hx] using hbefore, hz⟩
        | ok more => simp [hx, hr, bind, Except.bind, pure, Except.pure] at h
    · rintro ⟨before, z, after, heq, hbefore, hz⟩
      cases before with
      | nil =>
        obtain ⟨rfl, rfl⟩ := List.cons.inj heq
        simp [hz, bind, Except.bind]
      | cons y before =>
        obtain ⟨rfl, hrest⟩ := List.cons.inj heq
        obtain ⟨b, hb⟩ := hbefore x (by simp)
        have hr := ih.2 ⟨before, z, after, hrest, fun y hy ↦ hbefore y (by simp [hy]), hz⟩
        simp only [hb, hr, bind, Except.bind]

end

variable {rs : List (Int × EventRecord)} {site : Int} {part : List EventRecord}

theorem recordsBySite_concat (rs : List (Int × EventRecord)) (p : Int × EventRecord) :
    recordsBySite (rs ++ [p]) =
      (recordsBySite rs).put p.1 (((recordsBySite rs).find p.1).getD [] ++ [p.2]) := by
  simp [recordsBySite]

theorem nodup_keys_recordsBySite (rs : List (Int × EventRecord)) :
    (Keyed.keys (recordsBySite rs)).Nodup := by
  induction rs using List.reverseRecOn with
  | nil => exact List.nodup_nil
  | append_singleton rs p ih =>
    rw [recordsBySite_concat]
    exact Keyed.nodup_keys_put ih ..

theorem getD_find_recordsBySite (rs : List (Int × EventRecord)) (site : Int) :
    ((recordsBySite rs).find site).getD [] = (rs.filter (·.1 == site)).map (·.2) := by
  induction rs using List.reverseRecOn with
  | nil => rfl
  | append_singleton rs p ih =>
    rw [recordsBySite_concat, Keyed.find_put]
    by_cases h : p.1 = site
    · subst h
      simp [ih]
    · simp [h, ih]

theorem ne_nil_of_find_recordsBySite (h : (recordsBySite rs).find site = some part) :
    part ≠ [] := by
  induction rs using List.reverseRecOn generalizing part with
  | nil => cases h
  | append_singleton rs p ih =>
    rw [recordsBySite_concat, Keyed.find_put] at h
    split at h
    · cases h
      simp
    · exact ih h

/-- The part of a site has the records of the site, in their order. -/
theorem mem_recordsBySite (h : (site, part) ∈ recordsBySite rs) :
    part ≠ [] ∧ part = (rs.filter (·.1 == site)).map (·.2) := by
  have hf := Keyed.find_of_mem (nodup_keys_recordsBySite rs) h
  refine ⟨ne_nil_of_find_recordsBySite hf, ?_⟩
  rw [← getD_find_recordsBySite, hf]
  rfl

theorem exists_mem_recordsBySite {r : EventRecord} (h : (site, r) ∈ rs) :
    ∃ part, (site, part) ∈ recordsBySite rs ∧ r ∈ part := by
  have hr : r ∈ ((recordsBySite rs).find site).getD [] := by
    rw [getD_find_recordsBySite]
    exact List.mem_map.2 ⟨(site, r), by simp [h], rfl⟩
  cases hf : (recordsBySite rs).find site with
  | none => simp [hf] at hr
  | some part => exact ⟨part, Keyed.mem_of_find hf, by simpa [hf] using hr⟩

namespace Registry

theorem routed_eq_ok_iff {r : EventRecord} {p : Int × EventRecord} :
    routed r = .ok p ↔ r.site = some p.1 ∧ p.2 = r := by
  unfold routed
  cases r.site <;> simp [Prod.ext_iff, eq_comm]

theorem routed_eq_error_iff {r : EventRecord} {e : Failure} :
    routed r = .error e ↔ r.site = none ∧ e = .violation .noSite := by
  unfold routed
  cases r.site <;> simp [eq_comm]

/-- Records that all have a site are routed to it. -/
theorem mapM_routed {records : List EventRecord} {routed : List (Int × EventRecord)}
    (h : records.mapM Registry.routed = .ok routed) :
    routed.map (·.2) = records ∧ ∀ p ∈ routed, p.2.site = some p.1 := by
  rw [mapM_eq_ok_iff] at h
  simp only [routed_eq_ok_iff] at h
  induction h with
  | nil => simp
  | cons hp _ ih =>
    obtain ⟨hsite, rfl⟩ := hp
    simpa [hsite, ih.1] using ih.2

/-- The records of a part are records of the batch, and all of one site. -/
theorem mem_part {records : List EventRecord} {routed : List (Int × EventRecord)}
    (h : records.mapM Registry.routed = .ok routed) (hp : (site, part) ∈ recordsBySite routed) :
    part ≠ [] ∧ ∀ x ∈ part, x ∈ records ∧ x.site = some site := by
  obtain ⟨hmap, hsite⟩ := mapM_routed h
  obtain ⟨hne, rfl⟩ := mem_recordsBySite hp
  refine ⟨hne, fun x hx ↦ ?_⟩
  obtain ⟨⟨n, y⟩, hfilter, rfl⟩ := List.mem_map.1 hx
  obtain ⟨hmem, hn⟩ := List.mem_filter.1 hfilter
  obtain rfl : n = site := by simpa using hn
  exact ⟨hmap ▸ List.mem_map.2 ⟨_, hmem, rfl⟩, hsite _ hmem⟩

end Registry

end Footfall
