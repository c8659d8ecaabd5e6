import Footfall.Number.Numeral
import Footfall.Value.Convert
import Mathlib.Tactic.Linarith
import Mathlib.Tactic.Ring
import Mathlib.Algebra.Order.Field.Power
import Mathlib.Algebra.Order.Field.Rat

/-!
Rounding to floating-point numbers. Whatever ratio is rounded, the significand has at most 53 bits;
a whole number that is the whole part of a floating-point number is rounded to itself; and a whole
number is rounded to none exactly from half a unit above the greatest of them.
-/

namespace Footfall

/-- Multiplying by one power of two is the same as dividing by another. -/
theorem cast_twoTo (e : Int) : (twoTo e : ℚ) = 2 ^ e * twoTo (-e) := by
  obtain ⟨n, rfl | rfl⟩ := e.eq_nat_or_neg
  · simp [twoTo]
  · simp [twoTo]

theorem twoTo_pos (e : Int) : 0 < twoTo e := Nat.pow_pos (by decide)

namespace Double

/-- The numbers that there are: the significand has at most 53 bits, and the exponent is in range. -/
def IsRepresentable : Double → Prop
  | .finite _ m e => m < twoTo 53 ∧ minExponent ≤ e ∧ e ≤ maxExponent
  | _ => True

instance : DecidablePred IsRepresentable
  | .finite .. => inferInstanceAs (Decidable (_ ∧ _))
  | .nan => inferInstanceAs (Decidable True)
  | .infinite _ => inferInstanceAs (Decidable True)

theorem roundHalfEven_le {num den bound : Nat} (h : num < bound * den) :
    roundHalfEven num den ≤ bound := by
  have hdiv : num / den < bound := Nat.div_lt_of_lt_mul (by rwa [Nat.mul_comm])
  unfold roundHalfEven
  simp only
  split <;> omega

/-- Nothing is rounded if the quotient is whole. -/
theorem roundHalfEven_mul (q : Nat) {den : Nat} (hden : 0 < den) :
    roundHalfEven (q * den) den = q := by
  simp [roundHalfEven, Nat.mul_div_cancel _ hden, hden]

/-- In units of a power of two a ratio is below a bound if it is below the bound times the unit. -/
theorem inUnits_lt_iff (num den bound : Nat) (e : Int) :
    (inUnits num den e).1 < bound * (inUnits num den e).2 ↔
      (num : ℚ) < bound * den * 2 ^ e := by
  have hpos : (0 : ℚ) < twoTo (-e) := Nat.cast_pos.2 (twoTo_pos _)
  have hcast : (bound * (inUnits num den e).2 : ℚ) = bound * den * 2 ^ e * twoTo (-e) := by
    simp only [inUnits, Nat.cast_mul, cast_twoTo e]
    ring
  rw [← Nat.cast_lt (α := ℚ), Nat.cast_mul, hcast, inUnits, Nat.cast_mul,
    mul_lt_mul_iff_left₀ hpos]

/-- A ratio has at most one bit more than its parts say. -/
theorem lt_two_zpow_log2 (num : Nat) {den : Nat} (hden : 0 < den) :
    (num : ℚ) < den * 2 ^ ((num.log2 : Int) - den.log2 + 1) := by
  have hnum : (num : ℚ) < 2 ^ (num.log2 + 1) := by exact_mod_cast Nat.lt_log2_self
  have hle : (2 ^ den.log2 : ℚ) ≤ den := by exact_mod_cast Nat.log2_self_le hden.ne'
  have hsplit : (2 : ℚ) ^ (num.log2 + 1) =
      2 ^ den.log2 * 2 ^ ((num.log2 : Int) - den.log2 + 1) := by
    rw [← zpow_natCast, ← zpow_natCast, ← zpow_add₀ two_ne_zero]
    congr 1
    push_cast
    ring
  calc (num : ℚ) < 2 ^ (num.log2 + 1) := hnum
    _ = 2 ^ den.log2 * 2 ^ ((num.log2 : Int) - den.log2 + 1) := hsplit
    _ ≤ den * 2 ^ ((num.log2 : Int) - den.log2 + 1) := by gcongr

theorem inUnits_pos (num : Nat) {den : Nat} (hden : 0 < den) (e : Int) :
    0 < (inUnits num den e).2 := Nat.mul_pos hden (twoTo_pos e)

/-- In units of the exponent that is chosen for it, a ratio has at most 53 bits. -/
theorem inUnits_exponentOf_lt (num : Nat) {den : Nat} (hden : 0 < den) :
    (inUnits num den (exponentOf num den)).1 <
      twoTo 53 * (inUnits num den (exponentOf num den)).2 := by
  have hbound : ((twoTo 53 : Nat) : ℚ) = 2 ^ (53 : Int) := (cast_twoTo 53).trans (by simp [twoTo])
  have hrange (e f : Int) (hef : e ≤ f) (h : (num : ℚ) < den * 2 ^ (53 + e)) :
      (num : ℚ) < twoTo 53 * den * 2 ^ f := by
    calc (num : ℚ) < den * 2 ^ (53 + e) := h
      _ ≤ den * 2 ^ (53 + f) := by gcongr; norm_num
      _ = twoTo 53 * den * 2 ^ f := by rw [hbound, zpow_add₀ two_ne_zero]; ring
  rw [inUnits_lt_iff]
  unfold exponentOf
  simp only
  split
  · refine hrange _ _ (le_max_left ..) ?_
    have h := lt_two_zpow_log2 num hden
    convert h using 3
    ring
  · rename_i hsmall
    refine hrange _ _ (le_max_left ..) ?_
    have h := (inUnits_lt_iff num den (twoTo 52) _).1
      (Nat.lt_mul_of_div_lt (Nat.lt_of_not_le hsmall) (inUnits_pos num hden _))
    have hsplit : (2 : ℚ) ^ (53 + ((num.log2 : Int) - den.log2 - 53)) =
        ((twoTo 52 : Nat) : ℚ) * 2 ^ ((num.log2 : Int) - den.log2 - 52) := by
      rw [show ((twoTo 52 : Nat) : ℚ) = 2 ^ (52 : Int) from (cast_twoTo 52).trans (by simp [twoTo]),
        ← zpow_add₀ two_ne_zero]
      congr 1
      ring
    rw [hsplit]
    linarith

/-- A ratio has at least as many bits as its parts say, but one. -/
theorem two_zpow_log2_le {num den : Nat} (hnum : 0 < num) :
    (den : ℚ) * 2 ^ ((num.log2 : Int) - den.log2 - 1) ≤ num := by
  have hle : (2 ^ num.log2 : ℚ) ≤ num := by exact_mod_cast Nat.log2_self_le hnum.ne'
  have hlt : (den : ℚ) < 2 ^ (den.log2 + 1) := by exact_mod_cast Nat.lt_log2_self
  have hsplit : (2 : ℚ) ^ (den.log2 + 1) * 2 ^ ((num.log2 : Int) - den.log2 - 1) =
      2 ^ num.log2 := by
    rw [← zpow_natCast, ← zpow_natCast, ← zpow_add₀ two_ne_zero]
    congr 1
    push_cast
    ring
  calc (den : ℚ) * 2 ^ ((num.log2 : Int) - den.log2 - 1)
      ≤ 2 ^ (den.log2 + 1) * 2 ^ ((num.log2 : Int) - den.log2 - 1) := by gcongr
    _ = 2 ^ num.log2 := hsplit
    _ ≤ num := hle

theorem cast_twoTo_of_nonneg {b : Int} (hb : 0 ≤ b) : (twoTo b : ℚ) = 2 ^ b := by
  obtain ⟨n, rfl⟩ := Int.eq_ofNat_of_zero_le hb
  simp [twoTo]

/-- A ratio has the bits that are asked for in the greater of two units, or else in the smaller. -/
theorem bits_le {num den : Nat} (hnum : 0 < num) (hden : 0 < den) {b k e : Int} (hb : 0 ≤ b)
    (hk : k = num.log2 - den.log2)
    (he : e = if twoTo b ≤ (inUnits num den (k - b)).1 / (inUnits num den (k - b)).2
      then k - b else k - (b + 1)) : (twoTo b : ℚ) * den * 2 ^ e ≤ num := by
  split at he
  · rename_i hlarge
    rw [he, ← not_lt, ← inUnits_lt_iff, not_lt]
    exact (Nat.le_div_iff_mul_le (inUnits_pos num hden _)).1 hlarge
  · have hsplit : (twoTo b : ℚ) * 2 ^ e = 2 ^ (k - 1) := by
      rw [he, cast_twoTo_of_nonneg hb, ← zpow_add₀ two_ne_zero]
      congr 1
      ring
    have hle : (den : ℚ) * 2 ^ ((num.log2 : Int) - den.log2 - 1) ≤ num := two_zpow_log2_le hnum
    rw [← hk, ← hsplit] at hle
    linarith

/-- The bits of a number and the unit that they are counted in: there are 53 of them, or the unit is
the smallest. -/
structure IsNormal (m : Nat) (e : Int) : Prop where
  lt : m < twoTo 53
  le_exponent : minExponent ≤ e
  exponent_le : e ≤ maxExponent
  full : e = minExponent ∨ twoTo 52 ≤ m

/-- In units of the exponent that is chosen for it a ratio has 53 bits, unless that is the least. -/
theorem le_exponentOf {num den : Nat} (hnum : 0 < num) (hden : 0 < den) :
    exponentOf num den = minExponent ∨
      (twoTo 52 : ℚ) * den * 2 ^ exponentOf num den ≤ num := by
  obtain ⟨e, he⟩ : ∃ e : Int, e = if twoTo 52 ≤
      (inUnits num den ((num.log2 : Int) - den.log2 - 52)).1 /
        (inUnits num den ((num.log2 : Int) - den.log2 - 52)).2
      then (num.log2 : Int) - den.log2 - 52 else (num.log2 : Int) - den.log2 - (52 + 1) := ⟨_, rfl⟩
  have hexponent : exponentOf num den = max e minExponent := by
    rw [he]
    rfl
  rw [hexponent]
  rcases le_total minExponent e with h | h
  · rw [max_eq_left h]
    exact .inr (bits_le hnum hden (by decide) rfl he)
  · exact .inl (max_eq_right h)

theorem le_roundHalfEven (num den : Nat) : num / den ≤ roundHalfEven num den := by
  unfold roundHalfEven
  simp only
  split <;> omega

/-- What a ratio is rounded to, which is no zero if the ratio has one of the smallest units. -/
theorem ofRatio_cases (negative : Bool) (num : Nat) {den : Nat} (hden : 0 < den) :
    ofRatio negative num den = .infinite negative ∨
      ∃ m e, ofRatio negative num den = .finite negative m e ∧ IsNormal m e ∧
        (den ≤ num * twoTo (-minExponent) → m ≠ 0) := by
  by_cases hnum : num = 0
  · refine .inr ⟨0, minExponent, if_pos hnum, ⟨twoTo_pos 53, le_rfl, by decide, .inl rfl⟩, ?_⟩
    simp only [hnum, Nat.zero_mul]
    omega
  have hmin : minExponent ≤ exponentOf num den := le_max_right ..
  have hfull := le_exponentOf (Nat.pos_of_ne_zero hnum) hden
  rw [← not_lt (b := (twoTo 52 : ℚ) * den * 2 ^ exponentOf num den), ← inUnits_lt_iff, not_lt]
    at hfull
  have hle := roundHalfEven_le (inUnits_exponentOf_lt num hden)
  have hge := le_roundHalfEven (inUnits num den (exponentOf num den)).1
    (inUnits num den (exponentOf num den)).2
  have hpos := inUnits_pos num hden (exponentOf num den)
  unfold ofRatio
  simp only [if_neg hnum]
  generalize hq : roundHalfEven (inUnits num den (exponentOf num den)).1
    (inUnits num den (exponentOf num den)).2 = q at *
  by_cases hbits : q = twoTo 53
  · simp only [if_pos hbits]
    split
    · exact .inl rfl
    · refine .inr ⟨_, _, rfl, ⟨by decide, by omega, by omega, .inr le_rfl⟩, fun _ ↦ ?_⟩
      exact (twoTo_pos 52).ne'
  · simp only [if_neg hbits]
    split
    · exact .inl rfl
    · have hfull' : exponentOf num den = minExponent ∨ twoTo 52 ≤ q :=
        hfull.imp_right fun h ↦ ((Nat.le_div_iff_mul_le hpos).2 h).trans hge
      refine .inr ⟨_, _, rfl, ⟨by omega, hmin, by omega, hfull'⟩, fun hunit ↦ ?_⟩
      rcases hfull' with he | hlarge
      · rw [he] at hge
        have hone : den * twoTo minExponent = den := Nat.mul_one den
        have : 1 ≤ num * twoTo (-minExponent) / (den * twoTo minExponent) := by
          rw [hone]
          exact (Nat.one_le_div_iff hden).2 hunit
        exact Nat.pos_iff_ne_zero.1 (this.trans hge)
      · exact ((twoTo_pos 52).trans_le hlarge).ne'

theorem isRepresentable_zero (negative : Bool) : (finite negative 0 minExponent).IsRepresentable :=
  ⟨twoTo_pos 53, by decide, by decide⟩

/-- What a ratio is rounded to is a number that there is. -/
theorem isRepresentable_ofRatio (negative : Bool) (num : Nat) {den : Nat} (hden : 0 < den) :
    (ofRatio negative num den).IsRepresentable := by
  rcases ofRatio_cases negative num hden with h | ⟨m, e, h, hnormal, -⟩
  · rw [h]
    trivial
  · rw [h]
    exact ⟨hnormal.lt, hnormal.le_exponent, hnormal.exponent_le⟩

theorem isRepresentable_ofInt (n : Int) : (ofInt n).IsRepresentable :=
  isRepresentable_ofRatio _ _ Nat.one_pos

theorem isRepresentable_ofDecimal (negative : Bool) (digits : Nat) (exponent : Int) :
    (ofDecimal negative digits exponent).IsRepresentable := by
  unfold ofDecimal
  simp only
  split
  · exact isRepresentable_zero negative
  · split
    · trivial
    · split
      · exact isRepresentable_zero negative
      · exact isRepresentable_ofRatio _ _ (Nat.pow_pos (by decide))

/-- A ratio that is a whole number of units is not rounded. -/
theorem ofRatio_of_exact (negative : Bool) {num den q : Nat} {e : Int} (hden : 0 < den)
    (hq : q ≠ 0) (hnormal : IsNormal q e)
    (hu : (inUnits num den e).1 = q * (inUnits num den e).2) :
    ofRatio negative num den = .finite negative q e := by
  have hpos := inUnits_pos num hden e
  have hnum : 0 < num := by
    apply Nat.pos_of_ne_zero
    rintro rfl
    have hzero : q * (inUnits 0 den e).2 = 0 := by simpa [inUnits] using hu.symm
    rcases Nat.mul_eq_zero.1 hzero with h | h
    · exact hq h
    · omega
  have hsmaller {f g : Int} (hf : (num : ℚ) < twoTo 53 * den * 2 ^ f)
      (hg : (twoTo 52 : ℚ) * den * 2 ^ g ≤ num) : g ≤ f := by
    have hden' : (0 : ℚ) < den := Nat.cast_pos.2 hden
    have hbits : ((twoTo 53 : Nat) : ℚ) = 2 * (twoTo 52 : Nat) := by
      rw [cast_twoTo_of_nonneg (by decide), cast_twoTo_of_nonneg (by decide)]
      norm_num
    have hlt : (twoTo 52 * den : ℚ) * 2 ^ g < twoTo 52 * den * 2 ^ (f + 1) := by
      calc (twoTo 52 * den : ℚ) * 2 ^ g ≤ num := hg
        _ < twoTo 53 * den * 2 ^ f := hf
        _ = twoTo 52 * den * 2 ^ (f + 1) := by rw [zpow_add_one₀ two_ne_zero, hbits]; ring
    have hunits : (0 : ℚ) < twoTo 52 * den := mul_pos (Nat.cast_pos.2 (twoTo_pos 52)) hden'
    have := (zpow_lt_zpow_iff_right₀ one_lt_two).1 (lt_of_mul_lt_mul_left hlt hunits.le)
    omega
  have hhigh : (num : ℚ) < twoTo 53 * den * 2 ^ e := by
    rw [← inUnits_lt_iff, hu]
    exact Nat.mul_lt_mul_of_pos_right hnormal.lt hpos
  have hhigh' := (inUnits_lt_iff ..).1 (inUnits_exponentOf_lt num hden)
  have hexponent : exponentOf num den = e := by
    have hmin : minExponent ≤ exponentOf num den := le_max_right ..
    apply le_antisymm
    · rcases le_exponentOf hnum hden with h | h
      · exact h ▸ hnormal.le_exponent
      · exact hsmaller hhigh h
    · rcases hnormal.full with h | h
      · exact h ▸ hmin
      · refine hsmaller hhigh' ?_
        rw [← not_lt, ← inUnits_lt_iff, hu, not_lt]
        exact Nat.mul_le_mul_right _ h
  unfold ofRatio
  simp only [hexponent]
  rw [if_neg hnum.ne', hu, roundHalfEven_mul q hpos, if_neg hnormal.lt.ne]
  simp only
  rw [if_neg (not_lt.2 hnormal.exponent_le)]

theorem mul_twoTo_of_exact {n q : Nat} {e : Int}
    (hu : (inUnits n 1 e).1 = q * (inUnits n 1 e).2) : (q : Int) * twoTo e = n * twoTo (-e) := by
  simp only [inUnits, Nat.one_mul] at hu
  exact_mod_cast hu.symm

theorem truncate?_of_exact {n q : Nat} {e : Int}
    (hu : (inUnits n 1 e).1 = q * (inUnits n 1 e).2) :
    (finite false q e).truncate? = some (n : Int) := by
  have hne : ((twoTo (-e) : Nat) : Int) ≠ 0 := by exact_mod_cast (twoTo_pos (-e)).ne'
  simp [truncate?, ratio?, mul_twoTo_of_exact hu, Int.mul_tdiv_cancel _ hne]

/-- A whole number that can be written with 53 bits and a power of two is not rounded. -/
theorem exists_ofInt_eq {m e : Nat} (hm : m < 2 ^ 53) (he : e ≤ 971) (hpos : 0 < m) :
    ∃ q k, ofInt ((m * 2 ^ e : Nat) : Int) = .finite false q k ∧
      (inUnits (m * 2 ^ e) 1 k).1 = q * (inUnits (m * 2 ^ e) 1 k).2 := by
  generalize hn : m * 2 ^ e = n
  have hne : n ≠ 0 := by
    rw [← hn]
    exact Nat.mul_ne_zero hpos.ne' (Nat.pow_pos (by decide)).ne'
  have hlt : n < 2 ^ (53 + e) := by
    rw [← hn, Nat.pow_add]
    exact Nat.mul_lt_mul_of_pos_right hm (Nat.pow_pos (by decide))
  have hlog : n.log2 < 53 + e := (Nat.log2_lt hne).2 hlt
  have hle : (2 : ℚ) ^ n.log2 ≤ n := by exact_mod_cast Nat.log2_self_le hne
  have hltlog : (n : ℚ) < 2 ^ (n.log2 + 1) := by exact_mod_cast Nat.lt_log2_self
  generalize hk : n.log2 = k at *
  have hunits (bound : Nat) : (inUnits n 1 (k - 52)).1 < twoTo bound * (inUnits n 1 (k - 52)).2 ↔
      (n : ℚ) < 2 ^ ((bound : Int) + (k - 52)) := by
    have hbound : ((twoTo bound : Nat) : ℚ) = 2 ^ (bound : Int) := by simp [twoTo]
    rw [inUnits_lt_iff, hbound, zpow_add₀ two_ne_zero]
    simp
  obtain ⟨q, hq⟩ : ∃ q, (inUnits n 1 (k - 52)).1 = q * (inUnits n 1 (k - 52)).2 := by
    -- The power of two in the number is large enough for its units.
    obtain ⟨j, hj⟩ := Nat.exists_eq_add_of_le (show ((k : Int) - 52).toNat ≤ e by omega)
    refine ⟨m * 2 ^ j * twoTo (-((k : Int) - 52)), ?_⟩
    simp only [inUnits, twoTo, ← hn, hj, Nat.pow_add, Nat.one_mul, Nat.pow_eq]
    ring
  have hupos := inUnits_pos n Nat.one_pos (k - 52)
  have hlow : twoTo 52 ≤ q := by
    by_contra hlow
    have h := (hunits 52).1 (by
      rw [hq]
      exact Nat.mul_lt_mul_of_pos_right (not_le.1 hlow) hupos)
    rw [show ((52 : Nat) : Int) + (k - 52) = (k : Int) by omega, zpow_natCast] at h
    exact absurd h (not_lt.2 hle)
  have hhigh : q < twoTo 53 := by
    have h := (hunits 53).2 (by
      rwa [show ((53 : Nat) : Int) + (k - 52) = ((k + 1 : Nat) : Int) by omega, zpow_natCast])
    rw [hq] at h
    exact Nat.lt_of_mul_lt_mul_right h
  have hnonneg : decide ((n : Int) < 0) = false := by simp
  have hround : ofRatio false n 1 = .finite false q (k - 52) :=
    ofRatio_of_exact false Nat.one_pos ((twoTo_pos 52).trans_le hlow).ne'
      ⟨hhigh, by unfold minExponent; omega, by unfold maxExponent; omega, .inr hlow⟩ hq
  exact ⟨q, k - 52, by rw [ofInt, Int.natAbs_natCast, hnonneg, hround], hq⟩

theorem truncate?_ofInt {m e : Nat} (hm : m < 2 ^ 53) (he : e ≤ 971) (hpos : 0 < m) :
    (ofInt ((m * 2 ^ e : Nat) : Int)).truncate? = some ((m * 2 ^ e : Nat) : Int) := by
  obtain ⟨q, k, hk, hq⟩ := exists_ofInt_eq hm he hpos
  rw [hk]
  exact truncate?_of_exact hq

/-- A whole number of 53 bits stays the whole number that it is. -/
theorem whole?_ofInt {n : Nat} (hn : n < 2 ^ 53) :
    (ofInt n).isFinite = true ∧ (ofInt n).whole? = some (n : Int) := by
  rcases n.eq_zero_or_pos with rfl | hpos
  · exact ⟨rfl, rfl⟩
  · obtain ⟨q, k, hk, hq⟩ := exists_ofInt_eq (e := 0) hn (by omega) hpos
    rw [Nat.pow_zero, Nat.mul_one] at hk hq
    have hvalue := mul_twoTo_of_exact hq
    have hne : ((twoTo (-k) : Nat) : Int) ≠ 0 := by exact_mod_cast (twoTo_pos (-k)).ne'
    rw [hk]
    exact ⟨rfl, by simp [whole?, ratio?, hvalue, Int.mul_fmod_left, Int.mul_fdiv_cancel _ hne]⟩

/-- The whole part of a number can be written with 53 bits and a power of two. -/
theorem exists_of_truncate? {x : Double} {n : Int} (hx : x.IsRepresentable)
    (h : x.truncate? = some n) (hn : 0 < n) :
    ∃ m e : Nat, n = ((m * 2 ^ e : Nat) : Int) ∧ m < 2 ^ 53 ∧ e ≤ 971 ∧ 0 < m := by
  cases x with
  | nan => cases h
  | infinite s => cases h
  | finite s m e =>
    obtain ⟨hm, -, hmax⟩ := hx
    have hvalue : n = ((if s then -(m * twoTo e : Int) else m * twoTo e).tdiv (twoTo (-e))) :=
      (Option.some.inj h).symm
    cases s with
    | true =>
      rw [if_pos rfl, Int.neg_tdiv] at hvalue
      have hnonneg : 0 ≤ ((m * twoTo e : Int).tdiv (twoTo (-e))) :=
        Int.tdiv_nonneg (by positivity) (by positivity)
      omega
    | false =>
      rw [if_neg (by decide)] at hvalue
      have hquotient : n = ((m * twoTo e / twoTo (-e) : Nat) : Int) := by
        rw [hvalue]
        exact_mod_cast Int.ofNat_tdiv (m * twoTo e) (twoTo (-e))
      obtain ⟨j, rfl | rfl⟩ := e.eq_nat_or_neg
      · have hn' : n = ((m * 2 ^ j : Nat) : Int) := by simpa [twoTo] using hquotient
        refine ⟨m, j, hn', hm, by unfold maxExponent at hmax; omega, Nat.pos_of_ne_zero ?_⟩
        rintro rfl
        simp [hn'] at hn
      · have hn' : n = ((m / 2 ^ j : Nat) : Int) := by simpa [twoTo] using hquotient
        refine ⟨m / 2 ^ j, 0, by simp [hn'], Nat.lt_of_le_of_lt (Nat.div_le_self ..) hm, by omega, ?_⟩
        rw [hn'] at hn
        exact_mod_cast hn

/-- A positive whole number that is the whole part of a number is not rounded. -/
theorem truncate?_ofInt_of_truncate? {x : Double} {n : Int} (hx : x.IsRepresentable)
    (h : x.truncate? = some n) (hn : 0 < n) : (ofInt n).truncate? = some n := by
  obtain ⟨m, e, rfl, hm, he, hpos⟩ := exists_of_truncate? hx h hn
  exact truncate?_ofInt hm he hpos

/-- Half a unit rounds up from an odd number of units. -/
theorem roundHalfEven_eq_add_one_iff {num q h : Nat} (hh : 0 < h) (hodd : q % 2 = 1)
    (hlt : num < (q + 1) * (2 * h)) : roundHalfEven num (2 * h) = q + 1 ↔ (2 * q + 1) * h ≤ num := by
  have hle : num / (2 * h) ≤ q := Nat.lt_succ_iff.1 (Nat.div_lt_of_lt_mul (by rwa [Nat.mul_comm]))
  have hrest : num % (2 * h) < 2 * h := Nat.mod_lt _ (by omega)
  have hsplit : num = 2 * h * (num / (2 * h)) + num % (2 * h) := (Nat.div_add_mod _ _).symm
  have hodd' : (2 * q + 1) * h = 2 * h * q + h := by ring
  unfold roundHalfEven
  simp only
  generalize num / (2 * h) = d at *
  generalize num % (2 * h) = r at *
  rcases hle.lt_or_eq with hd | rfl
  · have hmul : 2 * h * (d + 1) ≤ 2 * h * q := Nat.mul_le_mul_left _ hd
    rw [Nat.mul_add] at hmul
    split <;> omega
  · split <;> omega

/-- A whole number in units of two times a power of two. -/
theorem inUnits_one (m j : Nat) : inUnits m 1 (j + 1 : Nat) = (m, 2 * 2 ^ j) := by
  have hneg : (-((j + 1 : Nat) : Int)).toNat = 0 := by omega
  rw [inUnits, twoTo, hneg, twoTo, Int.toNat_natCast, Nat.pow_eq, Nat.pow_eq, Nat.pow_succ']
  simp

theorem exponentOf_one {m j : Nat} (h : m.log2 = j + 52) : exponentOf m 1 = j := by
  have hne : m ≠ 0 := by
    rintro rfl
    simp [Nat.log2_zero] at h
  have hk : (m.log2 : Int) - Nat.log2 1 - 52 = j := by
    rw [h, show Nat.log2 1 = 0 by decide]
    omega
  have hlarge : twoTo 52 ≤ (inUnits m 1 j).1 / (inUnits m 1 j).2 := by
    have hle : 2 ^ m.log2 ≤ m := Nat.log2_self_le hne
    rw [h, Nat.pow_add] at hle
    rw [Nat.le_div_iff_mul_le (inUnits_pos m Nat.one_pos _)]
    simpa [inUnits, twoTo, Nat.mul_comm] using hle
  unfold exponentOf
  simp only [hk]
  rw [if_pos hlarge]
  exact max_eq_left (by unfold minExponent; omega)

theorem exponentOf_one_le {m : Nat} (h : m.log2 ≤ 1022) : exponentOf m 1 ≤ 970 := by
  have hone : Nat.log2 1 = 0 := by decide
  unfold exponentOf
  simp only [hone]
  refine max_le ?_ (by decide)
  split <;> omega

/-- A ratio is rounded to no number if the exponent is too large, or grows too large when rounding
gives the significand one more bit. -/
theorem ofRatio_eq_infinite_iff {negative : Bool} {num den : Nat} (hnum : num ≠ 0) :
    (∃ s, ofRatio negative num den = .infinite s) ↔ maxExponent < exponentOf num den ∨
      maxExponent = exponentOf num den ∧
        roundHalfEven (inUnits num den (exponentOf num den)).1
          (inUnits num den (exponentOf num den)).2 = twoTo 53 := by
  unfold ofRatio
  simp only
  rw [if_neg hnum]
  generalize exponentOf num den = e
  have hmax : maxExponent = 971 := rfl
  by_cases hbit : roundHalfEven (inUnits num den e).1 (inUnits num den e).2 = twoTo 53
  · simp only [hbit, if_true, and_true]
    by_cases he : maxExponent < e + 1
    · rw [if_pos he]
      exact iff_of_true ⟨_, rfl⟩ (by omega)
    · rw [if_neg he]
      exact iff_of_false (fun ⟨_, h⟩ ↦ by cases h) (by omega)
  · simp only [hbit, if_false, and_false, or_false]
    by_cases he : maxExponent < e
    · rw [if_pos he]
      exact iff_of_true ⟨_, rfl⟩ he
    · rw [if_neg he]
      exact iff_of_false (fun ⟨_, h⟩ ↦ by cases h) he

/-- A whole number is beyond the floating-point numbers from half a unit above the greatest of
them. -/
theorem ofInt_eq_infinite_iff (n : Int) :
    (∃ s, ofInt n = .infinite s) ↔ (2 ^ 54 - 1) * 2 ^ 970 ≤ n.natAbs := by
  unfold ofInt
  generalize n.natAbs = m
  by_cases hzero : m = 0
  · subst hzero
    exact iff_of_false (fun ⟨_, h⟩ ↦ by cases h) (not_le.2 (Nat.mul_pos (by decide) (by positivity)))
  have hbelow {k : Nat} (h : m.log2 + 1 ≤ k + 970) : m < 2 ^ k * 2 ^ 970 := by
    rw [← Nat.pow_add]
    exact Nat.lt_log2_self.trans_le (Nat.pow_le_pow_right (by decide) h)
  have habove {k : Nat} (h : k + 970 ≤ m.log2) : 2 ^ k * 2 ^ 970 ≤ m := by
    rw [← Nat.pow_add]
    exact (Nat.pow_le_pow_right (by decide) h).trans (Nat.log2_self_le hzero)
  have hunits := inUnits_one m 970
  have hmax : maxExponent = 971 := rfl
  have hpos : 0 < 2 ^ 970 := pow_pos two_pos 970
  rw [ofRatio_eq_infinite_iff hzero]
  generalize 2 ^ 970 = unit at *
  rcases lt_trichotomy m.log2 1023 with hlog | hlog | hlog
  · have he : exponentOf m 1 ≤ 970 := exponentOf_one_le (by omega)
    have hlt := hbelow (k := 53) (by omega)
    exact iff_of_false (by omega) (by omega)
  · have he : exponentOf m 1 = (971 : Nat) := exponentOf_one (by omega)
    have hbits : twoTo 53 = 2 ^ 53 - 1 + 1 := rfl
    have hlt := hbelow (k := 54) (by omega)
    rw [he, hunits, hbits, roundHalfEven_eq_add_one_iff hpos (by decide) (by omega)]
    omega
  · have he : exponentOf m 1 = (m.log2 - 52 : Nat) := exponentOf_one (by omega)
    have hle := habove (k := 54) (by omega)
    exact iff_of_true (.inl (by omega)) (by omega)

end Double

namespace Numeral

variable {cs : List Char} {x : Double}

theorem exists_of_readDecimal {negative : Bool} (h : readDecimal negative cs = some x) :
    ∃ digits e, x = .ofDecimal negative digits e := by
  unfold readDecimal at h
  simp only at h
  split at h <;> split at h
  · cases h
  · obtain ⟨e, -, rfl⟩ := Option.map_eq_some_iff.1 h
    exact ⟨_, _, rfl⟩
  · cases h
  · obtain ⟨e, -, rfl⟩ := Option.map_eq_some_iff.1 h
    exact ⟨_, _, rfl⟩

theorem isRepresentable_readReal? (h : readReal? cs = some x) : x.IsRepresentable := by
  unfold readReal? at h
  simp only at h
  split at h
  · cases h
    trivial
  · split at h
    · cases h
      trivial
    · obtain ⟨digits, e, rfl⟩ := exists_of_readDecimal h
      exact Double.isRepresentable_ofDecimal ..

end Numeral

end Footfall
