import Footfall.Proofs.Counting
import Footfall.Proofs.Doubles

/-!
Times of day as an embedded store rounds them to milliseconds. Each rounding errs by one part in
`2 ^ 53` at most, so that all of them together stay below a microsecond: an instant is seen on the day
after its own exactly from half a millisecond before midnight on.
-/

namespace Footfall

namespace Double

variable {x y : Double} {a b : ℚ}

/-- A finite number that is not negative, and what it is. -/
def HasValue (x : Double) (a : ℚ) : Prop := ∃ m e, x = finite false m e ∧ (m * 2 ^ e : ℚ) = a

/-- A number that the given one may have been rounded to. -/
def IsNear (x : Double) (a : ℚ) : Prop := ∃ v, x.HasValue v ∧ |v - a| ≤ (a + 1) / 2 ^ 53

theorem roundHalfEven_error (num : Nat) {den : Nat} (hden : 0 < den) :
    |(roundHalfEven num den : ℚ) - num / den| ≤ 1 / 2 := by
  have hrest := Nat.mod_lt num hden
  have hsplit := Nat.div_add_mod num den
  have hbounds : 2 * num ≤ 2 * (den * roundHalfEven num den) + den ∧
      2 * (den * roundHalfEven num den) ≤ 2 * num + den := by
    unfold roundHalfEven
    simp only
    split
    · omega
    · rw [Nat.mul_add_one]
      omega
  have hpos : (0 : ℚ) < den := Nat.cast_pos.2 hden
  have hlow : (2 * num : ℚ) ≤ 2 * (den * roundHalfEven num den) + den := by exact_mod_cast hbounds.1
  have hhigh : (2 * (den * roundHalfEven num den) : ℚ) ≤ 2 * num + den := by
    exact_mod_cast hbounds.2
  have hmul : (den : ℚ) * (num / den) = num := mul_div_cancel₀ _ hpos.ne'
  rw [abs_le]
  constructor <;> refine le_of_mul_le_mul_left ?_ hpos <;> linarith

/-- In units of a power of two a ratio is what it is. -/
theorem inUnits_ratio (num : Nat) {den : Nat} (hden : 0 < den) (e : Int) :
    ((inUnits num den e).1 / (inUnits num den e).2 : ℚ) * 2 ^ e = num / den := by
  have hunit : (twoTo (-e) : ℚ) ≠ 0 := Nat.cast_ne_zero.2 (twoTo_pos _).ne'
  have hden' : (den : ℚ) ≠ 0 := Nat.cast_ne_zero.2 hden.ne'
  have hpow : (2 : ℚ) ^ e ≠ 0 := zpow_ne_zero _ two_ne_zero
  simp only [inUnits, Nat.cast_mul, cast_twoTo e]
  field_simp

/-- A ratio that is not too great is rounded by one part in `2 ^ 53` at most, or by less than the
smallest unit. -/
theorem isNear_ofRatio {num den : Nat} (hden : 0 < den) (hsmall : (num : ℚ) / den < 2 ^ 200) :
    (ofRatio false num den).IsNear (num / den) := by
  rcases num.eq_zero_or_pos with rfl | hnum
  · exact ⟨0, ⟨0, minExponent, rfl, by simp⟩, by norm_num⟩
  have hpos : (0 : ℚ) < den := Nat.cast_pos.2 hden
  generalize he : exponentOf num den = e
  generalize hq : roundHalfEven (inUnits num den e).1 (inUnits num den e).2 = q
  have hunit : (0 : ℚ) < 2 ^ e := zpow_pos two_pos e
  have hexponent : e = minExponent ∨ (2 : ℚ) ^ 52 * 2 ^ e ≤ num / den := by
    have hle := le_exponentOf hnum hden
    rw [he, cast_twoTo_of_nonneg (by decide)] at hle
    refine hle.imp_right fun h ↦ ?_
    rw [le_div_iff₀ hpos]
    rw [zpow_ofNat] at h
    linarith
  have herror : |(q * 2 ^ e : ℚ) - num / den| ≤ (num / den + 1) / 2 ^ 53 := by
    have hhalf := roundHalfEven_error (inUnits num den e).1 (inUnits_pos num hden e)
    rw [hq] at hhalf
    have hratio := inUnits_ratio num hden e
    have hquotient : (0 : ℚ) ≤ num / den := by positivity
    calc |(q * 2 ^ e : ℚ) - num / den|
        = |(q : ℚ) - (inUnits num den e).1 / (inUnits num den e).2| * 2 ^ e := by
          rw [← hratio, ← sub_mul, abs_mul, abs_of_pos hunit]
      _ ≤ 1 / 2 * 2 ^ e := by gcongr
      _ ≤ (num / den + 1) / 2 ^ 53 := by
          rcases hexponent with h | h
          · have hleast : (2 : ℚ) ^ e ≤ 2 ^ (-52 : Int) :=
              zpow_le_zpow_right₀ one_le_two (h ▸ by decide)
            rw [zpow_neg] at hleast
            norm_num at hleast ⊢
            linarith
          · norm_num at h ⊢
            linarith
  have hrange : e + 1 ≤ maxExponent := by
    rcases hexponent with h | h
    · exact h ▸ by decide
    · have hlt : (2 : ℚ) ^ e < 2 ^ (200 : Int) := by
        have hfactor : (2 : ℚ) ^ e ≤ 2 ^ 52 * 2 ^ e := le_mul_of_one_le_left hunit.le (by norm_num)
        exact_mod_cast (hfactor.trans h).trans_lt hsmall
      have := (zpow_lt_zpow_iff_right₀ one_lt_two).1 hlt
      unfold maxExponent
      omega
  refine ⟨_, ?_, herror⟩
  unfold ofRatio
  simp only [if_neg hnum.ne', he, hq]
  by_cases hbits : q = twoTo 53
  · simp only [if_pos hbits]
    rw [if_neg (by omega)]
    refine ⟨_, _, rfl, ?_⟩
    rw [hbits, cast_twoTo_of_nonneg (by decide), cast_twoTo_of_nonneg (by decide),
      zpow_add_one₀ two_ne_zero]
    norm_num
    ring
  · simp only [if_neg hbits]
    rw [if_neg (by omega)]
    exact ⟨_, _, rfl, rfl⟩

theorem HasValue.nonneg (h : x.HasValue a) : 0 ≤ a := by
  obtain ⟨m, e, -, rfl⟩ := h
  positivity

theorem hasValue_ofInt {n : Nat} (hn : n < 2 ^ 53) : (ofInt n).HasValue n := by
  rcases n.eq_zero_or_pos with rfl | hpos
  · exact ⟨0, minExponent, rfl, by simp⟩
  · obtain ⟨q, k, hk, hq⟩ := exists_ofInt_eq (e := 0) hn (by omega) hpos
    rw [Nat.pow_zero, Nat.mul_one] at hk hq
    refine ⟨q, k, hk, ?_⟩
    have hratio := inUnits_ratio n Nat.one_pos k
    have hunits : ((inUnits n 1 k).2 : ℚ) ≠ 0 := Nat.cast_ne_zero.2 (inUnits_pos n Nat.one_pos k).ne'
    rwa [hq, Nat.cast_mul, mul_div_cancel_right₀ _ hunits, Nat.cast_one, div_one] at hratio

theorem isNear_div (hx : x.HasValue a) (hy : y.HasValue b) (hb : 0 < b) (hsmall : a / b < 2 ^ 200) :
    (x.div y).IsNear (a / b) := by
  obtain ⟨m, e, rfl, rfl⟩ := hx
  obtain ⟨k, f, rfl, rfl⟩ := hy
  have hk : k ≠ 0 := by
    rintro rfl
    simp at hb
  have hratio : ((m * twoTo (e - f) : Nat) : ℚ) / (k * twoTo (f - e) : Nat) =
      m * 2 ^ e / (k * 2 ^ f) := by
    have hunit : (twoTo (f - e) : ℚ) ≠ 0 := Nat.cast_ne_zero.2 (twoTo_pos _).ne'
    have hk' : (k : ℚ) ≠ 0 := Nat.cast_ne_zero.2 hk
    have hpow : (2 : ℚ) ^ f ≠ 0 := zpow_ne_zero _ two_ne_zero
    rw [Nat.cast_mul, Nat.cast_mul, cast_twoTo (e - f), neg_sub, zpow_sub₀ two_ne_zero]
    field_simp
  have hnear := isNear_ofRatio (Nat.mul_pos (Nat.pos_of_ne_zero hk) (twoTo_pos (f - e)))
    (hratio ▸ hsmall)
  rw [hratio] at hnear
  rwa [div, if_neg hk]

theorem isNear_mul (hx : x.HasValue a) (hy : y.HasValue b) (hsmall : a * b < 2 ^ 200) :
    (x.mul y).IsNear (a * b) := by
  obtain ⟨m, e, rfl, rfl⟩ := hx
  obtain ⟨k, f, rfl, rfl⟩ := hy
  have hratio : ((m * k * twoTo (e + f) : Nat) : ℚ) / (twoTo (-(e + f)) : Nat) =
      m * 2 ^ e * (k * 2 ^ f) := by
    have hunit : (twoTo (-(e + f)) : ℚ) ≠ 0 := Nat.cast_ne_zero.2 (twoTo_pos _).ne'
    rw [Nat.cast_mul, Nat.cast_mul, cast_twoTo (e + f), zpow_add₀ two_ne_zero]
    field_simp
  have hnear := isNear_ofRatio (twoTo_pos (-(e + f))) (hratio ▸ hsmall)
  rwa [hratio] at hnear

theorem isNear_add (hx : x.HasValue a) (hy : y.HasValue b) (hsmall : a + b < 2 ^ 200) :
    (x.add y).IsNear (a + b) := by
  obtain ⟨m, e, rfl, rfl⟩ := hx
  obtain ⟨k, f, rfl, rfl⟩ := hy
  by_cases hzero : m = 0 ∧ k = 0
  · rw [add, if_pos hzero, hzero.1, hzero.2]
    exact ⟨0, ⟨0, minExponent, rfl, by simp⟩, by norm_num⟩
  have hratio : ((m * twoTo e * twoTo (-f) + k * twoTo f * twoTo (-e) : Nat) : ℚ) /
      (twoTo (-e) * twoTo (-f) : Nat) = m * 2 ^ e + k * 2 ^ f := by
    have he : (twoTo (-e) : ℚ) ≠ 0 := Nat.cast_ne_zero.2 (twoTo_pos _).ne'
    have hf : (twoTo (-f) : ℚ) ≠ 0 := Nat.cast_ne_zero.2 (twoTo_pos _).ne'
    push_cast
    rw [cast_twoTo e, cast_twoTo f]
    field_simp
  have hnear := isNear_ofRatio (Nat.mul_pos (twoTo_pos (-e)) (twoTo_pos (-f))) (hratio ▸ hsmall)
  rw [hratio] at hnear
  have hsum : (m * twoTo e * twoTo (-f) + k * twoTo f * twoTo (-e) : Int) =
      (m * twoTo e * twoTo (-f) + k * twoTo f * twoTo (-e) : Nat) := by push_cast; ring
  rw [add, if_neg hzero]
  simp only [ratio?, Bool.false_eq_true, if_false]
  rwa [hsum, ofSignedRatio, decide_eq_false (Int.natCast_nonneg _).not_gt, Int.natAbs_natCast]

theorem truncate?_of_hasValue (h : x.HasValue a) : x.truncate? = some ⌊a⌋ := by
  obtain ⟨m, e, rfl, rfl⟩ := h
  have hunit : (0 : ℚ) < twoTo (-e) := Nat.cast_pos.2 (twoTo_pos _)
  have hvalue : (m * 2 ^ e : ℚ) = ((m * twoTo e : Nat) : ℚ) / (twoTo (-e) : Nat) := by
    rw [eq_div_iff hunit.ne', Nat.cast_mul, cast_twoTo e]
    ring
  rw [hvalue, Rat.floor_natCast_div_natCast, truncate?, ratio?, Option.map_some]
  simp only [Bool.false_eq_true, if_false]
  rw [Int.tdiv_eq_ediv_of_nonneg (by positivity)]
  push_cast
  rfl

end Double

namespace Instant

open Double

/-- The milliseconds of a minute before they are cut off, computed as a store does. -/
def realMillis (s f : Nat) : Double :=
  (((Double.ofInt s).add ((Double.ofInt f).div (Double.ofInt second))).mul
    (Double.ofInt 1000)).add (Double.ofDecimal false 5 (-1))

/-- Four roundings take the milliseconds, with the half that is added to them, less than a
millionth away. -/
theorem exists_hasValue_realMillis {s f : Nat} (hs : s < 60) (hf : f < 1000000) :
    ∃ v : ℚ, (realMillis s f).HasValue v ∧
      |v - ((s * 1000000 + f) / 1000 + 1 / 2)| < 1 / 1000000 := by
  have hs' : (s : ℚ) ≤ 59 := by exact_mod_cast Nat.le_of_lt_succ hs
  have hf' : (f : ℚ) < 1000000 := by exact_mod_cast hf
  have hs₀ : (0 : ℚ) ≤ s := s.cast_nonneg
  have hf₀ : (0 : ℚ) ≤ f := f.cast_nonneg
  have hsecond : (Double.ofInt second).HasValue 1000000 := hasValue_ofInt (n := second) (by decide)
  have hthousand : (Double.ofInt 1000).HasValue 1000 := hasValue_ofInt (n := 1000) (by decide)
  have hhalf : (Double.ofDecimal false 5 (-1)).HasValue (1 / 2) :=
    ⟨2 ^ 52, -53, by decide, by norm_num⟩
  obtain ⟨v₁, hv₁, herror₁⟩ := isNear_div (hasValue_ofInt (n := f) (by omega)) hsecond
    (by norm_num) (by linarith)
  rw [abs_le] at herror₁
  obtain ⟨v₂, hv₂, herror₂⟩ := isNear_add (hasValue_ofInt (n := s) (by omega)) hv₁ (by linarith)
  rw [abs_le] at herror₂
  obtain ⟨v₃, hv₃, herror₃⟩ := isNear_mul hv₂ hthousand (by linarith)
  rw [abs_le] at herror₃
  obtain ⟨v₄, hv₄, herror₄⟩ := isNear_add hv₃ hhalf (by linarith)
  rw [abs_le] at herror₄
  refine ⟨v₄, hv₄, ?_⟩
  rw [abs_lt]
  constructor <;> linarith

/-- Half a millisecond before the end of a minute its milliseconds are those of the next one. -/
theorem truncate?_realMillis {s f : Nat} (hs : s < 60) (hf : f < 1000000) :
    ∃ n : Int, (realMillis s f).truncate? = some n ∧ n ≤ 60000 ∧
      (n < 60000 ↔ s * 1000000 + f + 500 < 60000000) := by
  by_cases htie : s * 1000000 + f = 59999500
  · -- the one point at which the roundings decide, each of which is exact there
    obtain ⟨rfl, rfl⟩ : s = 59 ∧ f = 999500 := by omega
    exact ⟨60000, by decide +kernel, by omega, by omega⟩
  obtain ⟨v, hv, herror⟩ := exists_hasValue_realMillis hs hf
  rw [abs_lt] at herror
  have hbound : (s * 1000000 + f : ℚ) ≤ 59999999 := by exact_mod_cast (by omega)
  refine ⟨⌊v⌋, truncate?_of_hasValue hv, ?_, ?_⟩
  · exact Int.le_of_lt_add_one (Int.floor_lt.2 (by push_cast; linarith))
  · rw [Int.floor_lt]
    constructor
    · intro hlt
      by_contra hlate
      have hge : (59999501 : ℚ) ≤ s * 1000000 + f := by exact_mod_cast (by omega)
      push_cast at hlt
      linarith
    · intro hearly
      have hle : (s * 1000000 + f : ℚ) ≤ 59999499 := by exact_mod_cast (by omega)
      push_cast
      linarith

/-- A store sees an instant on its own day unless it is one of the last half millisecond. -/
theorem storedDay_eq_day_iff (t : Instant) :
    t.storedDay = t.day ↔ t.sinceMidnight + 500 < dayLength := by
  have hclock : t.secondOfMinute * 1000000 + t.fraction = t.sinceMidnight % 60000000 := by
    simp only [secondOfMinute, fraction, sinceMidnight, dayLength_eq, second]
    omega
  have hminutes : 60 * t.hourOfDay + t.minuteOfHour = t.sinceMidnight / 60000000 := by
    simp only [hourOfDay, minuteOfHour, hour, second]
    omega
  have hsince : t.sinceMidnight < dayLength := Nat.mod_lt _ (by decide)
  obtain ⟨n, hn, hle, hlt⟩ := truncate?_realMillis (s := t.secondOfMinute) (f := t.fraction)
    (Nat.mod_lt _ (by decide)) (Nat.mod_lt _ (by decide))
  have hmillis : t.storedMillis = (t.sinceMidnight / 60000000 : Nat) * 60000 + n := by
    show (60 * t.hourOfDay + t.minuteOfHour : Int) * 60000 +
      (realMillis t.secondOfMinute t.fraction).truncate?.getD 0 = _
    rw [hn, ← hminutes]
    push_cast
    rfl
  rw [hclock] at hlt
  rw [dayLength_eq] at hsince ⊢
  rw [storedDay, hmillis, dayMillis]
  split <;> omega

theorem isBucketed_iff (t : Instant) : t.IsBucketed ↔ t.micros + 500 < limit := by
  have hseen := t.storedDay_eq_day_iff
  have hday : t.storedDay = t.day ∨ t.storedDay = t.day + 1 := by
    unfold storedDay
    split <;> simp
  rw [sinceMidnight, dayLength_eq] at hseen
  rw [IsBucketed, limit, dayLength_eq]
  rw [day, dayLength_eq] at hseen hday
  omega

end Instant

end Footfall
