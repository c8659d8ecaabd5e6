import Footfall.Proofs.Chronology
import Footfall.Proofs.Owners

/-!
Numbers in decimal with zeros in front. Digits are the number that they spell, written in as many
digits, and so a number of a fixed width is read back as what it was written from.
-/

namespace Footfall

namespace Text

theorem natural_concat (ds : List Char) (c : Char) :
    natural (ds ++ [c]) = 10 * natural ds + (c.toNat - 48) := by
  simp [natural, List.foldl_append]

theorem natural_cons (c : Char) (ds : List Char) :
    natural (c :: ds) = (c.toNat - 48) * 10 ^ ds.length + natural ds := by
  induction ds using List.reverseRecOn with
  | nil => simp [natural]
  | append_singleton front d ih =>
    rw [← List.cons_append, natural_concat, ih, natural_concat, List.length_append,
      List.length_singleton, Nat.pow_succ]
    ring

theorem natural_replicate_append (w : Nat) (ds : List Char) :
    natural (List.replicate w '0' ++ ds) = natural ds := by
  induction w with
  | zero => rfl
  | succ w ih =>
    rw [← ih]
    rfl

theorem natural_padded (w n : Nat) : natural (padded w n).toList = n := by
  simp only [padded, String.toList_ofList]
  rw [natural_replicate_append, natural_toDigits]

theorem natural_lt {ds : List Char} (hd : ∀ c ∈ ds, c.isDigit = true) :
    natural ds < 10 ^ ds.length := by
  induction ds using List.reverseRecOn with
  | nil => simp [natural]
  | append_singleton front c ih =>
    obtain ⟨n, hn, rfl⟩ := exists_digitChar (hd c (by simp))
    have hfront := ih fun x hx ↦ hd x (List.mem_append_left _ hx)
    rw [natural_concat, toNat_digitChar hn, List.length_append, List.length_singleton,
      Nat.pow_succ]
    omega

end Text

theorem toList_padded_ne_nil (w n : Nat) : (padded w n).toList ≠ [] := by
  simp [padded, Nat.toDigits_ne_nil]

theorem isDigit_of_mem_padded {w n : Nat} {c : Char} (h : c ∈ (padded w n).toList) :
    c.isDigit = true := by
  simp only [padded, String.toList_ofList, List.mem_append, List.mem_replicate] at h
  rcases h with ⟨-, rfl⟩ | h
  · rfl
  · exact Nat.isDigit_of_mem_toDigits (by decide) (by decide) h

/-- Digits are a number in as many digits, by induction from the last one. -/
theorem toList_padded_natural {ds : List Char} (hne : ds ≠ [])
    (hd : ∀ c ∈ ds, c.isDigit = true) : (padded ds.length (Text.natural ds)).toList = ds := by
  induction ds using List.reverseRecOn with
  | nil => exact absurd rfl hne
  | append_singleton front c ih =>
    obtain ⟨n, hn, rfl⟩ := exists_digitChar (hd c (by simp))
    have hlast : (Nat.digitChar n).toNat - 48 = n := by rw [toNat_digitChar hn, Nat.add_sub_cancel]
    rw [Text.natural_concat, hlast, List.length_append, List.length_singleton]
    cases front with
    | nil => simp [padded, Text.natural, Nat.toDigits_of_lt_base hn]
    | cons d rest =>
      have hdiv : (10 * Text.natural (d :: rest) + n) / 10 = Text.natural (d :: rest) := by omega
      have hmod : (10 * Text.natural (d :: rest) + n) % 10 = n := by omega
      rw [toList_padded_succ (by simp), hdiv, hmod,
        ih (by simp) fun x hx ↦ hd x (List.mem_append_left _ hx)]

theorem utf8ByteSize_of_isDigit {ds : List Char} (hd : ∀ c ∈ ds, c.isDigit = true) :
    (String.ofList ds).utf8ByteSize = ds.length := by
  induction ds with
  | nil => rfl
  | cons c rest ih =>
    obtain ⟨d, hlt, rfl⟩ := exists_digitChar (hd c (by simp))
    have hone : (Nat.digitChar d).utf8Size = 1 := by interval_cases d <;> rfl
    rw [String.ofList_cons, String.utf8ByteSize_append, String.utf8ByteSize_singleton, hone,
      ih fun x hx ↦ hd x (List.mem_cons_of_mem _ hx), List.length_cons, Nat.add_comm]

/-- A number of a fixed width takes as many bytes as digits. -/
theorem utf8ByteSize_padded {w n : Nat} (hn : n < 10 ^ (w + 1)) :
    (padded (w + 1) n).utf8ByteSize = w + 1 := by
  have hd : ∀ c ∈ (padded (w + 1) n).toList, c.isDigit = true := fun c ↦ isDigit_of_mem_padded
  have h := utf8ByteSize_of_isDigit hd
  rwa [String.ofList_toList, length_padded hn] at h

namespace Time

theorem digit?_eq_some_iff {c : Char} {d : Nat} :
    digit? c = some d ↔ c.isDigit = true ∧ d = c.toNat - 48 := by
  unfold digit?
  split
  · rename_i hc
    rw [Option.some.injEq, and_iff_right hc, eq_comm]
  · rename_i hc
    simp [hc]

theorem digits?_nil (w : Nat) : digits? (w + 1) [] = none := rfl

/-- So many digits are read off the front, and are the number that they spell. -/
theorem digits?_eq_some_iff_natural {w n : Nat} {cs rest : List Char} :
    digits? w cs = some (n, rest) ↔ ∃ ds, ds.length = w ∧ (∀ c ∈ ds, c.isDigit = true) ∧
      cs = ds ++ rest ∧ n = Text.natural ds := by
  induction w generalizing n cs with
  | zero =>
    rw [digits?_zero, Option.some.injEq, Prod.mk.injEq]
    constructor
    · rintro ⟨rfl, rfl⟩
      exact ⟨[], rfl, by simp, rfl, rfl⟩
    · rintro ⟨ds, hlength, -, rfl, rfl⟩
      obtain rfl := List.length_eq_zero_iff.1 hlength
      exact ⟨rfl, rfl⟩
  | succ w ih =>
    cases cs with
    | nil =>
      simp only [digits?_nil, false_iff, reduceCtorEq]
      rintro ⟨ds, hlength, -, hnil, -⟩
      obtain ⟨rfl, -⟩ := List.nil_eq_append_iff.1 hnil
      cases hlength
    | cons c cs =>
      simp only [digits?_succ, Option.bind_eq_some_iff, digit?_eq_some_iff, Option.some.injEq,
        Prod.mk.injEq]
      constructor
      · rintro ⟨_, ⟨hc, rfl⟩, ⟨m, _⟩, hm, rfl, rfl⟩
        obtain ⟨ds, rfl, hd, rfl, rfl⟩ := ih.1 hm
        exact ⟨c :: ds, rfl, by simpa using ⟨hc, hd⟩, rfl, (Text.natural_cons ..).symm⟩
      · rintro ⟨ds, hlength, hd, hcs, rfl⟩
        obtain ⟨d, ds, rfl⟩ := List.exists_cons_of_length_eq_add_one hlength
        obtain ⟨rfl, rfl⟩ := List.cons.inj hcs
        rw [List.forall_mem_cons] at hd
        obtain rfl := Nat.succ.inj hlength
        exact ⟨_, ⟨hd.1, rfl⟩, _, ih.2 ⟨ds, rfl, hd.2, rfl, rfl⟩, (Text.natural_cons ..).symm, rfl⟩

/-- So many digits are read off the front exactly if a number of that width stands there. -/
theorem digits?_eq_some_iff {w n : Nat} {cs rest : List Char} :
    digits? (w + 1) cs = some (n, rest) ↔
      n < 10 ^ (w + 1) ∧ cs = (padded (w + 1) n).toList ++ rest := by
  rw [digits?_eq_some_iff_natural]
  constructor
  · rintro ⟨ds, hlength, hd, rfl, rfl⟩
    have hne : ds ≠ [] := List.ne_nil_of_length_eq_add_one hlength
    rw [← hlength, toList_padded_natural hne hd]
    exact ⟨Text.natural_lt hd, rfl⟩
  · rintro ⟨hn, rfl⟩
    exact ⟨_, length_padded hn, fun c ↦ isDigit_of_mem_padded, rfl, (Text.natural_padded ..).symm⟩

end Time

end Footfall
