import Footfall.Proofs.Sites

/-!
Directories whose sites are added again. Under a number or a tag stands the site that was added last
of those that have it. A site that is added again with another tag takes the place of the old one
under its number only, so that the old tag may go on leading to the old site and to its old team.
-/

namespace Footfall

/-- Of things put under their keys, the last one of a key is found there. -/
theorem Keyed.find_foldl_put_eq {κ α : Type} [DecidableEq κ] (key : α → κ) (xs : List α)
    (m : Keyed κ α) (k : κ) :
    find (xs.foldl (fun m x ↦ put m (key x) x) m) k
      = (xs.reverse.find? fun x ↦ key x = k).or (find m k) := by
  induction xs generalizing m with
  | nil => rfl
  | cons x xs ih =>
    rw [List.foldl_cons, ih, find_put, List.reverse_cons, List.find?_append, Option.or_assoc]
    congr 1
    by_cases h : key x = k <;> simp [h]

namespace Directory

variable {d : Directory} {s : Site} {t : String}

theorem find?_number_eq_last (sites : List Site) (n : Int) :
    (ofSites sites).find? (.number n) = sites.reverse.find? fun s ↦ s.id = n := by
  rw [ofSites, foldl_add]
  exact (Keyed.find_foldl_put_eq ..).trans Option.or_none

theorem find?_tag_eq_last (sites : List Site) (t : String) :
    (ofSites sites).find? (.tag t) = sites.reverse.find? fun s ↦ s.tag = t := by
  rw [ofSites, foldl_add]
  exact (Keyed.find_foldl_put_eq ..).trans Option.or_none

/-- Each number stands once, and before the site that has it. -/
structure IsNumbered (d : Directory) : Prop where
  own : ∀ p ∈ d.byNumber, p.1 = p.2.id
  once : (Keyed.keys d.byNumber).Nodup

theorem IsNumbered.add (h : d.IsNumbered) (s : Site) : (d.add s).IsNumbered := by
  constructor
  · intro p hp
    rcases Keyed.mem_put hp with rfl | hp
    · rfl
    · exact h.own p hp
  · exact Keyed.nodup_keys_put h.once s.id s

theorem isNumbered_ofSites (sites : List Site) : (ofSites sites).IsNumbered := by
  induction sites using List.reverseRecOn with
  | nil =>
    constructor
    · intro p hp
      cases hp
    · exact List.nodup_nil
  | append_singleton sites s ih =>
    have hadd : ofSites (sites ++ [s]) = (ofSites sites).add s := by simp [ofSites]
    rw [hadd]
    exact ih.add s

theorem IsNumbered.mem_ofTeam_iff (h : d.IsNumbered) :
    s ∈ d.ofTeam (.int s.team) ↔ d.find? (.number s.id) = some s := by
  have hteam : (Value.int s.team).same (.int s.team) = true := by
    simp [Value.same, Value.number?, Number.same, Number.le,
    Number.isNan, Number.lt]
  rw [ofTeam, List.mem_filter, and_iff_left hteam]
  constructor
  · intro hs
    obtain ⟨p, hp, rfl⟩ := List.mem_map.1 hs
    have hmem : (p.2.id, p.2) ∈ d.byNumber := h.own p hp ▸ hp
    exact Keyed.find_of_mem h.once hmem
  · intro hf
    exact List.mem_map.2 ⟨_, Keyed.mem_of_find hf, rfl⟩

/-- What a tag leads to has that tag, and both its number and its team lead to it too. -/
def Agrees (d : Directory) : Prop :=
  ∀ t s, d.find? (.tag t) = some s →
    s.tag = t ∧ d.find? (.number s.id) = some s ∧ s ∈ d.ofTeam (.int s.team)

/-- Whenever a site is followed by one of its number, it is followed by one of its tag. -/
def ReplacesTags (sites : List Site) : Prop :=
  ∀ front x back, sites = front ++ x :: back →
    x.id ∈ back.map (·.id) → x.tag ∈ back.map (·.tag)

/-- The last site of a tag has none of its tag behind it, so none of its number either. -/
theorem ReplacesTags.find?_number {sites : List Site} (h : ReplacesTags sites)
    (hs : (ofSites sites).find? (.tag t) = some s) :
    (ofSites sites).find? (.number s.id) = some s := by
  rw [find?_tag_eq_last, List.find?_eq_some_iff_append] at hs
  obtain ⟨hst, later, earlier, heq, hlater⟩ := hs
  have hsites : sites = earlier.reverse ++ s :: later.reverse := by
    simpa using congrArg List.reverse heq
  have htag : s.tag ∉ later.reverse.map (·.tag) := by
    intro hmem
    obtain ⟨y, hy, hyt⟩ := List.mem_map.1 hmem
    have hne := hlater y (List.mem_reverse.1 hy)
    simp [hyt, of_decide_eq_true hst] at hne
  have hid : s.id ∉ later.reverse.map (·.id) := fun hmem ↦ htag (h _ _ _ hsites hmem)
  rw [find?_number_eq_last, List.find?_eq_some_iff_append]
  refine ⟨by simp, later, earlier, heq, ?_⟩
  intro y hy
  have hne : y.id ≠ s.id := fun he ↦ hid (List.mem_map.2 ⟨y, List.mem_reverse.2 hy, he⟩)
  simp [hne]

/-- A site whose tag does not come again is found under its tag, so an agreeing directory has it
under its number. -/
theorem Agrees.replacesTags {sites : List Site} (h : (ofSites sites).Agrees) :
    ReplacesTags sites := by
  rintro front x back rfl hid
  by_contra htag
  have hback : back.reverse.find? (fun s ↦ s.tag = x.tag) = none := by
    rw [List.find?_eq_none]
    intro y hy hyt
    exact htag (List.mem_map.2 ⟨y, List.mem_reverse.1 hy, of_decide_eq_true hyt⟩)
  have hx : (ofSites (front ++ x :: back)).find? (.tag x.tag) = some x := by
    rw [find?_tag_eq_last, List.reverse_append, List.reverse_cons, List.append_assoc,
      List.find?_append, hback]
    simp
  obtain ⟨-, hnumber, -⟩ := h _ _ hx
  obtain ⟨y, hy, hyid⟩ := List.mem_map.1 hid
  rw [find?_number_eq_last, List.reverse_append, List.reverse_cons, List.append_assoc,
    List.find?_append] at hnumber
  obtain ⟨z, hz⟩ : ∃ z, back.reverse.find? (fun s ↦ s.id = x.id) = some z :=
    Option.isSome_iff_exists.1 (List.find?_isSome.2 ⟨y, List.mem_reverse.2 hy, by simp [hyid]⟩)
  rw [hz, Option.some_or] at hnumber
  obtain rfl := Option.some.inj hnumber
  exact htag (List.mem_map_of_mem (List.mem_reverse.1 (List.mem_of_find?_eq_some hz)))

/-- A tag leads to an added site that has it. The look-ups by tag, by number and by team agree exactly
if no site is added again under its number alone. -/
theorem agrees_iff_replacesTags (sites : List Site) :
    (∀ t s, (ofSites sites).find? (.tag t) = some s → s ∈ sites ∧ s.tag = t) ∧
      ((ofSites sites).Agrees ↔ ReplacesTags sites) := by
  refine ⟨fun t s hs ↦ of_find?_tag hs, Agrees.replacesTags, ?_⟩
  intro h t s hs
  have hnumber := h.find?_number hs
  exact ⟨(of_find?_tag hs).2, hnumber, (isNumbered_ofSites sites).mem_ofTeam_iff.2 hnumber⟩

/-- A site that went to another team under a new tag: the old tag goes on leading to the old team,
which has no site any more. -/
theorem oldTag_leads_to_oldTeam :
    let sites : List Site := [⟨1, 10, "a", none, none, .sqlite⟩, ⟨1, 20, "b", none, none, .sqlite⟩]
    ((ofSites sites).find? (.tag "a")).map (·.team) = some 10 ∧
      ((ofSites sites).find? (.number 1)).map (·.team) = some 20 ∧
      (ofSites sites).ofTeam (.int 10) = [] ∧ ¬ (ofSites sites).Agrees := by
  refine ⟨by decide, by decide, by decide, ?_⟩
  intro h
  have hnumber := (h "a" ⟨1, 10, "a", none, none, .sqlite⟩ (by decide)).2.1
  revert hnumber
  decide

end Directory

end Footfall
