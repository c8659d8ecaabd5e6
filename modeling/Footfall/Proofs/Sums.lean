import Footfall.Proofs.Doubles

/-!
Sums of floating-point numbers. What a sum has come to is not changed by a zero, be it positive or
negative, and by nothing but a zero when it is zero itself. So a zero may stand anywhere among the
numbers that are added up.
-/

namespace Footfall.Double

variable {x y z : Double} {s t : Bool} {m k : Nat} {e f : Int}

/-- One of the two zeros. -/
def IsZero : Double → Prop
  | .finite _ m _ => m = 0
  | _ => False

instance : DecidablePred IsZero
  | .finite _ m _ => inferInstanceAs (Decidable (m = 0))
  | .nan => inferInstanceAs (Decidable False)
  | .infinite _ => inferInstanceAs (Decidable False)

/-- What a sum comes to: the positive zero, a number that is no zero, or no finite number. -/
def IsTotal : Double → Prop
  | .finite s m e => finite s m e = zero ∨ m ≠ 0 ∧ IsNormal m e
  | _ => True

theorem isTotal_zero : IsTotal zero := .inl rfl

/-- The value of a number in units of the power of two that its denominator is. -/
def numerator (s : Bool) (m : Nat) (e : Int) : Int := if s then -(m * twoTo e) else m * twoTo e

theorem numerator_eq_zero_iff : numerator s m e = 0 ↔ m = 0 := by
  have hunit := (twoTo_pos e).ne'
  cases s <;> simp [numerator, hunit]

theorem add_finite (h : ¬(m = 0 ∧ k = 0)) : add (finite s m e) (finite t k f) =
    ofSignedRatio (numerator s m e * twoTo (-f) + numerator t k f * twoTo (-e))
      (twoTo (-e) * twoTo (-f)) := by
  rw [add, if_neg h]
  rfl

theorem twoTo_dvd_twoTo (h : e ≤ f) : twoTo e ∣ twoTo f := pow_dvd_pow 2 (by omega)

/-- Values of two numbers differ by a smallest unit at least, if they differ. -/
theorem units_le {a b : Int} (he : minExponent ≤ e) (hf : minExponent ≤ f)
    (hne : a * twoTo (-f) + b * twoTo (-e) ≠ 0) :
    twoTo (-e) * twoTo (-f) ≤
      (a * twoTo (-f) + b * twoTo (-e)).natAbs * twoTo (-minExponent) := by
  -- the greater of the two exponents gives a unit that divides both values
  have hunit {u v : Nat} {n : Int} (hn : n ≠ 0) (hu : (u : Int) ∣ n) (hv : v ∣ twoTo (-minExponent)) :
      v * u ≤ n.natAbs * twoTo (-minExponent) := by
    rw [Nat.mul_comm v]
    apply Nat.mul_le_mul
    · exact Nat.le_of_dvd (Int.natAbs_pos.2 hn) (Int.natCast_dvd.1 hu)
    · exact Nat.le_of_dvd (twoTo_pos _) hv
  rcases le_total e f with h | h
  · refine hunit hne ?_ (twoTo_dvd_twoTo (by omega))
    apply dvd_add (Dvd.intro_left _ rfl)
    exact Dvd.dvd.mul_left (Int.natCast_dvd_natCast.2 (twoTo_dvd_twoTo (by omega))) b
  · rw [Nat.mul_comm]
    refine hunit hne ?_ (twoTo_dvd_twoTo (by omega))
    refine dvd_add ?_ (Dvd.intro_left _ rfl)
    exact Dvd.dvd.mul_left (Int.natCast_dvd_natCast.2 (twoTo_dvd_twoTo (by omega))) a

/-- A ratio of at least a smallest unit is not rounded to zero. -/
theorem ofSignedRatio_of_ne_zero {n : Int} {den : Nat} (hden : 0 < den)
    (hunit : den ≤ n.natAbs * twoTo (-minExponent)) :
    ¬IsZero (ofSignedRatio n den) ∧ IsTotal (ofSignedRatio n den) := by
  rcases ofRatio_cases (decide (n < 0)) n.natAbs hden with h | ⟨m, e, h, hnormal, hne⟩
  · rw [ofSignedRatio, h]
    exact ⟨id, trivial⟩
  · rw [ofSignedRatio, h]
    exact ⟨hne hunit, .inr ⟨hne hunit, hnormal⟩⟩

theorem isTotal_add (hx : IsTotal x) (hy : y.IsRepresentable) : IsTotal (add x y) := by
  cases x with
  | nan => cases y <;> trivial
  | infinite s =>
    cases y with
    | nan => trivial
    | infinite t =>
      rw [add]
      split <;> trivial
    | finite t k f => trivial
  | finite s m e =>
    cases y with
    | nan => trivial
    | infinite t => trivial
    | finite t k f =>
      by_cases hzero : m = 0 ∧ k = 0
      · obtain ⟨rfl, rfl⟩ := hzero
        rcases hx with hx | ⟨hne, -⟩
        · cases hx
          exact .inl rfl
        · exact absurd rfl hne
      · rw [add_finite hzero]
        by_cases hsum : numerator s m e * twoTo (-f) + numerator t k f * twoTo (-e) = 0
        · rw [hsum]
          exact .inl rfl
        · have he : minExponent ≤ e := by
            rcases hx with hx | ⟨-, hnormal⟩
            · cases hx
              exact le_rfl
            · exact hnormal.le_exponent
          exact (ofSignedRatio_of_ne_zero (Nat.mul_pos (twoTo_pos _) (twoTo_pos _))
            (units_le he hy.2.1 hsum)).2

/-- A zero does not change what a sum has come to. -/
theorem add_of_isZero (hx : IsTotal x) (hz : z.IsZero) : add x z = x := by
  cases z with
  | nan => cases hz
  | infinite t => cases hz
  | finite t k f =>
    obtain rfl : k = 0 := hz
    cases x with
    | nan => rfl
    | infinite s => rfl
    | finite s m e =>
      rcases hx with hx | ⟨hne, hnormal⟩
      · cases hx
        rfl
      · have hnumerator : numerator t 0 f = 0 := numerator_eq_zero_iff.2 rfl
        rw [add_finite fun h ↦ hne h.1, hnumerator, Int.zero_mul, Int.add_zero, ofSignedRatio]
        have hpos : 0 < (m * twoTo e * twoTo (-f) : Int) := by
          exact_mod_cast Nat.mul_pos (Nat.mul_pos (Nat.pos_of_ne_zero hne) (twoTo_pos e)) (twoTo_pos _)
        have hsign : decide (numerator s m e * twoTo (-f) < 0) = s := by
          cases s
          · exact decide_eq_false (not_lt.2 hpos.le)
          · refine decide_eq_true ?_
            rw [numerator, if_pos rfl, Int.neg_mul]
            omega
        have habs : (numerator s m e * twoTo (-f)).natAbs = m * twoTo e * twoTo (-f) := by
          cases s <;> simp [numerator, Int.natAbs_mul]
        rw [hsign, habs]
        refine ofRatio_of_exact s (Nat.mul_pos (twoTo_pos _) (twoTo_pos _)) hne hnormal ?_
        simp only [inUnits]
        ring

/-- Only a zero leaves zero what it is. -/
theorem add_zero_iff (hx : x.IsRepresentable) : add zero x = zero ↔ x.IsZero := by
  refine ⟨fun h ↦ ?_, add_of_isZero isTotal_zero⟩
  cases x with
  | nan => cases h
  | infinite s => cases h
  | finite s m e =>
    by_contra hne
    have hzero : ¬(0 = 0 ∧ m = 0) := fun h ↦ hne h.2
    have hnumerator : numerator false 0 minExponent = 0 := numerator_eq_zero_iff.2 rfl
    have hsum : numerator false 0 minExponent * twoTo (-e) +
        numerator s m e * twoTo (-minExponent) ≠ 0 := by
      rw [hnumerator, Int.zero_mul, Int.zero_add]
      refine mul_ne_zero (fun h ↦ hne (numerator_eq_zero_iff.1 h)) ?_
      exact_mod_cast (twoTo_pos _).ne'
    have hsigned := (ofSignedRatio_of_ne_zero (Nat.mul_pos (twoTo_pos _) (twoTo_pos _))
      (units_le le_rfl hx.2.1 hsum)).1
    rw [← add_finite hzero] at hsigned
    exact hsigned (h.symm ▸ rfl)

theorem isTotal_foldl {xs : List Double} (h : ∀ x ∈ xs, x.IsRepresentable) (hx : IsTotal x) :
    IsTotal (xs.foldl add x) := by
  induction xs generalizing x with
  | nil => exact hx
  | cons y xs ih =>
    obtain ⟨hy, hxs⟩ := List.forall_mem_cons.1 h
    exact ih hxs (isTotal_add hx hy)

/-- A zero among the numbers does not change their sum. -/
theorem sum_insert {xs : List Double} (h : ∀ x ∈ xs, x.IsRepresentable) (hz : z.IsZero)
    (ys : List Double) : sum (xs ++ z :: ys) = sum (xs ++ ys) := by
  rw [sum, sum, List.foldl_append, List.foldl_append, List.foldl_cons,
    add_of_isZero (isTotal_foldl h isTotal_zero) hz]

theorem sum_of_isZero {xs : List Double} (h : ∀ x ∈ xs, x.IsZero) : sum xs = zero := by
  induction xs with
  | nil => rfl
  | cons x xs ih =>
    obtain ⟨hx, hxs⟩ := List.forall_mem_cons.1 h
    have hfirst : sum ([] ++ x :: xs) = sum ([] ++ xs) := sum_insert (by simp) hx xs
    exact hfirst.trans (ih hxs)

theorem isRepresentable_mul (x y : Double) : (mul x y).IsRepresentable := by
  cases x <;> cases y
  case finite.finite => exact isRepresentable_ofRatio _ _ (twoTo_pos _)
  case finite.infinite | infinite.finite =>
    rw [mul]
    split <;> trivial
  all_goals trivial

theorem isRepresentable_div (x y : Double) : (div x y).IsRepresentable := by
  cases x <;> cases y
  case finite.finite =>
    rw [div]
    split
    · split <;> trivial
    · rename_i hne
      exact isRepresentable_ofRatio _ _ (Nat.mul_pos (Nat.pos_of_ne_zero hne) (twoTo_pos _))
  case finite.infinite => exact isRepresentable_zero _
  all_goals trivial

/-- Zero divided by how many there are is zero. -/
theorem zero_div_ofInt {n : Nat} (hn : 0 < n) : zero.div (ofInt n) = zero := by
  have hsign : decide ((n : Int) < 0) = false := decide_eq_false (by omega)
  have hunit : 1 ≤ n * twoTo (-minExponent) := Nat.mul_pos hn (twoTo_pos _)
  rw [ofInt, hsign, Int.natAbs_natCast]
  rcases ofRatio_cases false n Nat.one_pos with h | ⟨m, e, h, -, hne⟩
  · rw [h]
    rfl
  · rw [h, zero, div, if_neg (hne hunit), Nat.zero_mul]
    rfl

end Footfall.Double
