import Footfall.Number.Front
import Footfall.Proofs.Sums
import Mathlib.Data.List.TakeWhile

/-!
The number at the front of a text, and when it is zero. It is if there is no digit but zeros at the
front, and then only if the power of ten is too small. That nothing else is rounded to zero is seen
from the sizes of the products and quotients of 64 bits that the number is computed from.
-/

namespace Footfall

namespace Extended

variable {x y r : Extended} {u v : ℚ} {num den : Nat}

def value (x : Extended) : ℚ := x.significand * 2 ^ x.exponent

/-- The value is about as great as it is to be. -/
def IsNear (x : Extended) (v : ℚ) : Prop := v ≤ 2 * x.value ∧ x.value ≤ 11 / 10 * v

theorem significand_pos (h : 0 < x.value) : 0 < x.significand := by
  apply Nat.pos_of_ne_zero
  intro hzero
  rw [value, hzero, Nat.cast_zero, zero_mul] at h
  exact lt_irrefl 0 h

theorem IsNear.scaled (h : x.IsNear v) (e : Int) : (x.scaled e).IsNear (v * 2 ^ e) := by
  have hvalue : (x.scaled e).value = x.value * 2 ^ e := by
    rw [value, value, Extended.scaled, zpow_add₀ two_ne_zero]
    ring
  have hpos : (0 : ℚ) ≤ 2 ^ e := by positivity
  rw [IsNear, hvalue]
  exact ⟨by linarith [mul_le_mul_of_nonneg_right h.1 hpos],
    by linarith [mul_le_mul_of_nonneg_right h.2 hpos]⟩

/-- What a quotient is rounded to is half a unit away at most. -/
theorem roundHalfEven_near (num : Nat) (hden : 0 < den) :
    2 * num ≤ (2 * Double.roundHalfEven num den + 1) * den ∧
      2 * Double.roundHalfEven num den * den ≤ 2 * num + den := by
  have hsplit : num = den * (num / den) + num % den := (Nat.div_add_mod _ _).symm
  have hrest : num % den < den := Nat.mod_lt _ hden
  have hlow : (2 * (num / den) + 1) * den = 2 * (den * (num / den)) + den := by ring
  have hhigh : 2 * (num / den) * den = 2 * (den * (num / den)) := by ring
  have hlow' : (2 * (num / den + 1) + 1) * den = 2 * (den * (num / den)) + 3 * den := by ring
  have hhigh' : 2 * (num / den + 1) * den = 2 * (den * (num / den)) + 2 * den := by ring
  unfold Double.roundHalfEven
  simp only
  split <;> omega

theorem isNear_ofRatio (hnum : 0 < num) (hden : 0 < den) :
    (ofRatio num den).IsNear (num / den) := by
  have hbits : (twoTo 63 : ℚ) * den * 2 ^ exponentOf num den ≤ num :=
    Double.bits_le hnum hden (by decide) rfl rfl
  rw [Double.cast_twoTo_of_nonneg (by decide)] at hbits
  obtain ⟨hlow, hhigh⟩ := roundHalfEven_near (Double.inUnits num den (exponentOf num den)).1
    (Double.inUnits_pos num hden (exponentOf num den))
  rw [IsNear, value, ofRatio]
  simp only
  generalize exponentOf num den = e at *
  generalize Double.roundHalfEven (Double.inUnits num den e).1 (Double.inUnits num den e).2 = q at *
  -- both bounds without the power of two that the units were made whole by
  have hunit : (0 : ℚ) < twoTo (-e) := Nat.cast_pos.2 (twoTo_pos _)
  have hlow' : 2 * (num : ℚ) ≤ (2 * q + 1) * (den * 2 ^ e) := by
    have h : ((2 * (num * twoTo (-e)) : Nat) : ℚ) ≤ ((2 * q + 1) * (den * twoTo e) : Nat) :=
      Nat.cast_le.2 hlow
    push_cast [cast_twoTo e] at h
    exact le_of_mul_le_mul_right (by linarith) hunit
  have hhigh' : 2 * q * (den * 2 ^ e) ≤ 2 * (num : ℚ) + den * 2 ^ e := by
    have h : ((2 * q * (den * twoTo e) : Nat) : ℚ) ≤ (2 * (num * twoTo (-e)) + den * twoTo e : Nat) :=
      Nat.cast_le.2 hhigh
    push_cast [cast_twoTo e] at h
    exact le_of_mul_le_mul_right (by linarith) hunit
  have hden' : (0 : ℚ) < den := Nat.cast_pos.2 hden
  have hsmall : 10 * (den * 2 ^ e) ≤ (num : ℚ) := by
    have : (10 : ℚ) * (den * 2 ^ e) ≤ 2 ^ (63 : Int) * (den * 2 ^ e) := by
      gcongr
      norm_num
    linarith
  constructor
  · rw [div_le_iff₀ hden']
    linarith
  · rw [← mul_div_assoc, le_div_iff₀ hden']
    linarith

theorem isNear_mul (hx : 0 < x.value) (hy : 0 < y.value) : (x.mul y).IsNear (x.value * y.value) := by
  have hnear := (isNear_ofRatio (Nat.mul_pos (significand_pos hx) (significand_pos hy))
    Nat.one_pos).scaled (x.exponent + y.exponent)
  have hvalue : x.value * y.value = (x.significand * y.significand : Nat) / (1 : Nat) *
      2 ^ (x.exponent + y.exponent) := by
    rw [value, value, zpow_add₀ two_ne_zero]
    push_cast
    ring
  rw [hvalue]
  exact hnear

theorem isNear_div (hx : 0 < x.value) (hy : 0 < y.value) : (x.div y).IsNear (x.value / y.value) := by
  have hnear := (isNear_ofRatio (significand_pos hx) (significand_pos hy)).scaled
    (x.exponent - y.exponent)
  have hvalue : x.value / y.value = x.significand / y.significand *
      2 ^ (x.exponent - y.exponent) := by
    rw [value, value, zpow_sub₀ two_ne_zero]
    ring
  rw [hvalue]
  exact hnear

/-- Multiplying by a power keeps within the powers of a smaller and a greater number. -/
theorem value_mulPower (r x : Extended) (n : Nat) {a b c d : ℚ} (ha : 0 < a) (hc : 0 < c)
    (hr : a ≤ r.value ∧ r.value ≤ b) (hx : 2 * c ≤ x.value ∧ 11 / 10 * x.value ≤ d) :
    a * c ^ n ≤ (mulPower r x n).value ∧ (mulPower r x n).value ≤ b * d ^ n := by
  induction r, x, n using mulPower.induct generalizing a b c d with
  | case1 r x =>
    rw [mulPower, if_pos rfl]
    simpa using hr
  | case2 r x n hn ih =>
    have hrpos : 0 < r.value := ha.trans_le hr.1
    have hxpos : 0 < x.value := by linarith [hx.1]
    have hdpos : 0 ≤ d := by linarith [hx.2]
    have hsquare : 2 * c ^ 2 ≤ (x.mul x).value ∧ 11 / 10 * (x.mul x).value ≤ d ^ 2 := by
      obtain ⟨hlow, hhigh⟩ := isNear_mul hxpos hxpos
      have hc2 : (2 * c) * (2 * c) ≤ x.value * x.value :=
        mul_le_mul hx.1 hx.1 (by linarith) hxpos.le
      have hd2 : (11 / 10 * x.value) * (11 / 10 * x.value) ≤ d * d :=
        mul_le_mul hx.2 hx.2 (by linarith) hdpos
      constructor
      · linarith
      · linarith
    have hfactor : a * c ^ (n % 2) ≤ (if n % 2 = 1 then r.mul x else r).value ∧
        (if n % 2 = 1 then r.mul x else r).value ≤ b * d ^ (n % 2) := by
      rcases Nat.mod_two_eq_zero_or_one n with heven | hodd
      · rw [heven, if_neg (by decide)]
        simpa using hr
      · rw [hodd, if_pos rfl, pow_one, pow_one]
        obtain ⟨hlow, hhigh⟩ := isNear_mul hrpos hxpos
        have hac : a * (2 * c) ≤ r.value * x.value :=
          mul_le_mul hr.1 hx.1 (by linarith) hrpos.le
        have hbd : r.value * (11 / 10 * x.value) ≤ b * d :=
          mul_le_mul hr.2 hx.2 (by linarith) (hrpos.le.trans hr.2)
        constructor
        · linarith
        · linarith
    have hpow (c : ℚ) : c ^ n = c ^ (n % 2) * (c ^ 2) ^ (n / 2) := by
      rw [← pow_mul, ← pow_add, Nat.mod_add_div]
    rw [mulPower, if_neg hn, hpow c, hpow d, ← mul_assoc, ← mul_assoc]
    exact ih (by positivity) (by positivity) hfactor hsquare

theorem value_powerOfTen (n : Nat) :
    5 ^ n ≤ (powerOfTen n).value ∧ (powerOfTen n).value ≤ 11 ^ n := by
  have hone : (ofNat 1).value = 1 := by
    rw [show ofNat 1 = ⟨2 ^ 63, -63⟩ by decide, value]
    norm_num
  have hten : (ofNat 10).value = 10 := by
    rw [show ofNat 10 = ⟨10 * 2 ^ 60, -60⟩ by decide, value]
    norm_num
  have h := value_mulPower (ofNat 1) (ofNat 10) n (a := 1) (b := 1) (c := 5) (d := 11) (by norm_num)
    (by norm_num) (by rw [hone]; norm_num) (by rw [hten]; norm_num)
  rwa [one_mul, one_mul] at h

/-- A value of at least a smallest unit is not rounded to zero. -/
theorem not_isZero_toDouble (negative : Bool)
    (h : 1 ≤ x.value * twoTo (-Double.minExponent)) : ¬(x.toDouble negative).IsZero := by
  have hunit : twoTo (-x.exponent) ≤
      x.significand * twoTo x.exponent * twoTo (-Double.minExponent) := by
    have hpos : (0 : ℚ) ≤ twoTo (-x.exponent) := Nat.cast_nonneg _
    have hcast : ((x.significand * twoTo x.exponent * twoTo (-Double.minExponent) : Nat) : ℚ) =
        x.value * twoTo (-Double.minExponent) * twoTo (-x.exponent) := by
      push_cast [value, cast_twoTo x.exponent]
      ring
    rw [← Nat.cast_le (α := ℚ), hcast]
    linarith [mul_le_mul_of_nonneg_right h hpos]
  rw [toDouble]
  rcases Double.ofRatio_cases negative (x.significand * twoTo x.exponent) (twoTo_pos (-x.exponent))
    with hr | ⟨m, e, hr, -, hne⟩
  · rw [hr]
    exact id
  · rw [hr]
    exact hne hunit

end Extended

namespace Numeral

open Double

theorem lastPower_eq : lastPower = .finite false 5010420900022432 971 := by decide +kernel

/-- A number that is not zero is not made zero by the last power of ten. -/
theorem not_isZero_mul_lastPower {x : Double} (hx : x.IsRepresentable) (hne : ¬x.IsZero) :
    ¬(x.mul lastPower).IsZero := by
  rw [lastPower_eq]
  cases x with
  | nan => exact id
  | infinite s => exact id
  | finite s m e =>
    have hle : minExponent ≤ e := hx.2.1
    have hunit : twoTo (-(e + 971)) ≤
        m * 5010420900022432 * twoTo (e + 971) * twoTo (-minExponent) := by
      have hpos : 0 < m * 5010420900022432 * twoTo (e + 971) :=
        Nat.mul_pos (Nat.mul_pos (Nat.pos_of_ne_zero hne) (by decide)) (twoTo_pos _)
      have hdvd : twoTo (-(e + 971)) ∣ twoTo (-minExponent) := twoTo_dvd_twoTo (by omega)
      exact (Nat.le_of_dvd (twoTo_pos _) hdvd).trans (Nat.le_mul_of_pos_left _ hpos)
    rcases ofRatio_cases (s != false) (m * 5010420900022432 * twoTo (e + 971))
      (twoTo_pos (-(e + 971))) with h | ⟨k, f, h, -, hk⟩
    · rw [mul, h]
      exact id
    · rw [mul, h]
      exact hk hunit

theorem isRepresentable_toDouble (negative : Bool) (x : Extended) :
    (x.toDouble negative).IsRepresentable := isRepresentable_ofRatio _ _ (twoTo_pos _)

theorem value_ofNat {s : Nat} (hs : s ≠ 0) : (1 / 2 : ℚ) ≤ (Extended.ofNat s).value := by
  have hone : (1 : ℚ) ≤ s := by exact_mod_cast Nat.pos_of_ne_zero hs
  have h := (Extended.isNear_ofRatio (Nat.pos_of_ne_zero hs) Nat.one_pos).1
  rw [Nat.cast_one, div_one] at h
  rw [Extended.ofNat]
  linarith

theorem value_ofNat_pos {s : Nat} (hs : s ≠ 0) : 0 < (Extended.ofNat s).value := by
  linarith [value_ofNat hs]

theorem value_powerOfTen_pos (n : Nat) : 0 < (Extended.powerOfTen n).value :=
  (by positivity : (0 : ℚ) < 5 ^ n).trans_le (Extended.value_powerOfTen n).1

theorem not_isZero_product (negative : Bool) {s : Nat} (hs : s ≠ 0) (n : Nat) :
    ¬(((Extended.ofNat s).mul (Extended.powerOfTen n)).toDouble negative).IsZero := by
  apply Extended.not_isZero_toDouble
  have hpower : (1 : ℚ) ≤ (Extended.powerOfTen n).value :=
    (one_le_pow₀ (by norm_num)).trans (Extended.value_powerOfTen n).1
  have hmul : 1 / 2 * 1 ≤ (Extended.ofNat s).value * (Extended.powerOfTen n).value :=
    mul_le_mul (value_ofNat hs) hpower zero_le_one (value_ofNat_pos hs).le
  have hnear := (Extended.isNear_mul (value_ofNat_pos hs) (value_powerOfTen_pos n)).1
  generalize (Extended.ofNat s).value * (Extended.powerOfTen n).value = v at *
  generalize ((Extended.ofNat s).mul (Extended.powerOfTen n)).value = w at *
  have hquarter : 1 / 4 ≤ w := by linarith
  have hunits : (4 : ℚ) ≤ twoTo (-minExponent) := by
    exact_mod_cast (show 4 ≤ twoTo (-minExponent) by decide +kernel)
  calc (1 : ℚ) = 1 / 4 * 4 := by norm_num
    _ ≤ w * twoTo (-minExponent) := by gcongr

/-- No number becomes zero when it is multiplied by a power of ten. -/
theorem not_isZero_raised (negative : Bool) {s : Nat} (hs : s ≠ 0) (n : Nat) :
    ¬(raised negative s n).IsZero := by
  unfold raised
  simp only
  split
  · exact not_isZero_product negative hs n
  · split
    · exact not_isZero_mul_lastPower (isRepresentable_toDouble ..) (not_isZero_product negative hs _)
    · exact id

theorem four_mul_pow_le {n : Nat} (hn : n ≤ 307) : 4 * 11 ^ n ≤ twoTo (-minExponent) :=
  (Nat.mul_le_mul_left 4 (Nat.pow_le_pow_right (by decide) hn)).trans (by decide +kernel)

/-- No number becomes zero when it is divided by a power of ten that is in range itself. -/
theorem not_isZero_lowered (negative : Bool) {s n : Nat} (hs : s ≠ 0) (hn : n ≤ 307) :
    ¬(lowered negative s n).IsZero := by
  unfold lowered
  simp only [if_pos hn]
  apply Extended.not_isZero_toDouble
  have hpos := value_powerOfTen_pos n
  have hpower := (Extended.value_powerOfTen n).2
  have hnear := (Extended.isNear_div (value_ofNat_pos hs) hpos).1
  rw [div_le_iff₀ hpos] at hnear
  have hunits : (4 * 11 ^ n : ℚ) ≤ twoTo (-minExponent) := by exact_mod_cast four_mul_pow_le hn
  have hhalf := value_ofNat hs
  generalize ((Extended.ofNat s).div (Extended.powerOfTen n)).value = w at *
  generalize (Extended.powerOfTen n).value = p at *
  have hquarter : 1 ≤ w * (4 * p) := by linarith
  have hw : 0 ≤ w := by
    by_contra hneg
    have : w * (4 * p) ≤ 0 := mul_nonpos_of_nonpos_of_nonneg (le_of_not_ge hneg) (by positivity)
    linarith
  calc (1 : ℚ) ≤ w * (4 * p) := hquarter
    _ ≤ w * (4 * 11 ^ n) := by gcongr
    _ ≤ w * twoTo (-minExponent) := by gcongr

theorem absorb_ne_zero {s : Nat} (hs : s ≠ 0) (n : Nat) : (absorb s n).1 ≠ 0 := by
  induction n generalizing s with
  | zero => exact hs
  | succ n ih =>
    rw [absorb]
    split
    · exact hs
    · exact ih (by omega)

theorem release_ne_zero {s : Nat} (hs : s ≠ 0) (n : Nat) :
    (release s n).1 ≠ 0 ∧ (release s n).2 ≤ n := by
  induction n generalizing s with
  | zero => exact ⟨hs, le_rfl⟩
  | succ n ih =>
    rw [release]
    split
    · obtain ⟨hne, hle⟩ := ih (s := s / 10) (by omega)
      exact ⟨hne, hle.trans (Nat.le_succ n)⟩
    · exact ⟨hs, le_rfl⟩

theorem not_isZero_ofRatio_one (negative : Bool) {s : Nat} (hs : s ≠ 0) :
    ¬(Double.ofRatio negative s 1).IsZero := by
  rcases ofRatio_cases negative s Nat.one_pos with h | ⟨m, e, h, -, hne⟩
  · rw [h]
    exact id
  · rw [h]
    exact hne (Nat.mul_pos (Nat.pos_of_ne_zero hs) (twoTo_pos _))

theorem not_isZero_scaledReal (negative : Bool) {s : Nat} (hs : s ≠ 0) {e : Int} (he : -307 ≤ e) :
    ¬(scaledReal negative s e).IsZero := by
  unfold scaledReal
  rw [if_neg hs]
  by_cases hnonneg : 0 ≤ e
  · simp only [if_pos hnonneg]
    have ht := absorb_ne_zero hs e.toNat
    split
    · exact not_isZero_ofRatio_one negative ht
    · exact not_isZero_raised negative ht _
  · simp only [if_neg hnonneg]
    obtain ⟨ht, hle⟩ := release_ne_zero hs (-e).toNat
    split
    · exact not_isZero_ofRatio_one negative ht
    · exact not_isZero_lowered negative ht (by omega)

theorem isRepresentable_raised (negative : Bool) (s n : Nat) :
    (raised negative s n).IsRepresentable := by
  unfold raised
  simp only
  split
  · exact isRepresentable_toDouble ..
  · split
    · exact isRepresentable_mul ..
    · trivial

theorem isRepresentable_lowered (negative : Bool) (s n : Nat) :
    (lowered negative s n).IsRepresentable := by
  unfold lowered
  simp only
  split
  · exact isRepresentable_toDouble ..
  · split
    · exact isRepresentable_div ..
    · exact isRepresentable_zero negative

theorem isRepresentable_scaledReal (negative : Bool) (s : Nat) (e : Int) :
    (scaledReal negative s e).IsRepresentable := by
  unfold scaledReal
  split
  · exact isRepresentable_zero negative
  · generalize (if 0 ≤ e then absorb s e.toNat else release s (-e).toNat) = p
    simp only
    split
    · exact isRepresentable_ofRatio _ _ Nat.one_pos
    · split
      · exact isRepresentable_raised ..
      · exact isRepresentable_lowered ..

/-- The digits at the front of a text before and after its point, and what follows them. -/
def front (text : String) : List Char × List Char × List Char :=
  let cs := (frontSign (text.toList.dropWhile isFrontBlank)).2
  (cs.takeWhile Char.isDigit, frontFraction (cs.dropWhile Char.isDigit))

def frontDigits (text : String) : List Char := (front text).1 ++ (front text).2.1

/-- The power of ten that the last of the digits at the front counts. -/
def frontPower (text : String) : Int := frontExponent (front text).2.2 - (front text).2.1.length

theorem isDigit_of_mem_front (text : String) :
    (∀ c ∈ (front text).1, c.isDigit = true) ∧ ∀ c ∈ (front text).2.1, c.isDigit = true := by
  constructor
  · exact fun c hc ↦ List.mem_takeWhile_imp hc
  · unfold front frontFraction
    simp only
    split
    · exact fun c hc ↦ List.mem_takeWhile_imp hc
    · simp

section

variable {f : Nat × Int → Char → Nat × Int}

/-- The significand stays zero as long as zeros are taken. -/
theorem foldl_eq_zero_iff
    (hf : ∀ p c, c.isDigit = true → ((f p c).1 = 0 ↔ p.1 = 0 ∧ c = '0')) {ds : List Char}
    (hds : ∀ c ∈ ds, c.isDigit = true) (p : Nat × Int) :
    (ds.foldl f p).1 = 0 ↔ p.1 = 0 ∧ ∀ c ∈ ds, c = '0' := by
  induction ds generalizing p with
  | nil => simp
  | cons c ds ih =>
    obtain ⟨hc, hrest⟩ := List.forall_mem_cons.1 hds
    rw [List.foldl_cons, ih hrest, hf p c hc, List.forall_mem_cons, and_assoc]

/-- The power is lowered by no more than each digit lowers it. -/
theorem le_foldl_power {k : Int} (hf : ∀ p c, p.2 - k ≤ (f p c).2) (ds : List Char)
    (p : Nat × Int) : p.2 - k * ds.length ≤ (ds.foldl f p).2 := by
  induction ds generalizing p with
  | nil => simp
  | cons c ds ih =>
    have hstep := hf p c
    have hrest := ih (f p c)
    rw [List.foldl_cons, List.length_cons]
    push_cast
    linarith

end

theorem eq_zero_of_isDigit {c : Char} (hc : c.isDigit = true) (h : c.toNat - 48 = 0) : c = '0' := by
  have hlow : 48 ≤ c.toNat := (Char.isDigit_iff_toNat.1 hc).1
  exact Char.toNat_inj.1 (show c.toNat = 48 by omega)

theorem digit_eq_zero_iff {s : Nat} {c : Char} (hc : c.isDigit = true) :
    10 * s + (c.toNat - 48) = 0 ↔ s = 0 ∧ c = '0' := by
  constructor
  · intro h
    exact ⟨by omega, eq_zero_of_isDigit hc (by omega)⟩
  · rintro ⟨rfl, rfl⟩
    rfl

theorem ne_zero_of_isFull {s : Nat} (h : isFull s = true) : s ≠ 0 := by
  rintro rfl
  exact absurd h (by decide)

theorem takeWholeDigit_eq_zero_iff (p : Nat × Int) (c : Char) (hc : c.isDigit = true) :
    (takeWholeDigit p c).1 = 0 ↔ p.1 = 0 ∧ c = '0' := by
  unfold takeWholeDigit
  split
  · rename_i hfull
    exact iff_of_false (ne_zero_of_isFull hfull) fun h ↦ ne_zero_of_isFull hfull h.1
  · exact digit_eq_zero_iff hc

theorem takeFractionDigit_eq_zero_iff (p : Nat × Int) (c : Char) (hc : c.isDigit = true) :
    (takeFractionDigit p c).1 = 0 ↔ p.1 = 0 ∧ c = '0' := by
  unfold takeFractionDigit
  split
  · rename_i hfull
    exact iff_of_false (ne_zero_of_isFull hfull) fun h ↦ ne_zero_of_isFull hfull h.1
  · exact digit_eq_zero_iff hc

/-- What is at the front comes to a significand and a power of ten. -/
theorem exists_frontReal_eq (text : String) : ∃ negative s e,
    frontReal text = scaledReal negative s e ∧ (s = 0 ↔ ∀ c ∈ frontDigits text, c = '0') ∧
      frontPower text ≤ e := by
  obtain ⟨hwhole, hfraction⟩ := isDigit_of_mem_front text
  refine ⟨_, _, _, rfl, ?_, ?_⟩
  · show (List.foldl takeFractionDigit (List.foldl takeWholeDigit (0, 0) (front text).1)
      (front text).2.1).1 = 0 ↔ _
    rw [foldl_eq_zero_iff takeFractionDigit_eq_zero_iff hfraction,
      foldl_eq_zero_iff takeWholeDigit_eq_zero_iff hwhole, frontDigits, List.forall_mem_append]
    simp
  · show frontPower text ≤ (List.foldl takeFractionDigit (List.foldl takeWholeDigit (0, 0)
      (front text).1) (front text).2.1).2 + frontExponent (front text).2.2
    have hwhole' := le_foldl_power (f := takeWholeDigit) (k := 0) (fun p c ↦ by
      unfold takeWholeDigit
      split <;> simp) (front text).1 (0, 0)
    have hfraction' := le_foldl_power (f := takeFractionDigit) (k := 1) (fun p c ↦ by
      unfold takeFractionDigit
      split <;> simp) (front text).2.1 (List.foldl takeWholeDigit (0, 0) (front text).1)
    rw [frontPower]
    omega

theorem isRepresentable_frontReal (text : String) : (frontReal text).IsRepresentable := by
  obtain ⟨negative, s, e, h, -⟩ := exists_frontReal_eq text
  rw [h]
  exact isRepresentable_scaledReal ..

/-- A text without a digit but zeros at its front is zero. -/
theorem isZero_frontReal {text : String} (h : ∀ c ∈ frontDigits text, c = '0') :
    (frontReal text).IsZero := by
  obtain ⟨negative, s, e, hreal, hzero, -⟩ := exists_frontReal_eq text
  rw [hreal, scaledReal, if_pos (hzero.2 h)]
  rfl

/-- Another text is zero only if its power of ten is out of range. -/
theorem of_isZero_frontReal {text : String} (h : (frontReal text).IsZero) :
    (∀ c ∈ frontDigits text, c = '0') ∨ frontPower text < -307 := by
  obtain ⟨negative, s, e, hreal, hzero, hpower⟩ := exists_frontReal_eq text
  rw [hreal] at h
  rw [← hzero, or_iff_not_imp_left]
  intro hs
  by_contra hrange
  exact not_isZero_scaledReal negative hs (by omega) h

end Numeral

end Footfall
