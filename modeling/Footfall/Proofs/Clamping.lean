import Footfall.Proofs.Listing
import Footfall.Proofs.Rounding
import Footfall.Report.Compile

/-!
Numbers of any size as limits and offsets. A limit is the number rounded down and brought into its
range, although a chart makes a floating-point number of it first and a summary a whole one. An
offset is kept from being negative. Two kinds of numbers are not taken: a chart breaks down at whole
numbers beyond the floating-point numbers, and a summary at infinite ones.
-/

namespace Footfall

namespace Double

variable {x : Double} {q : ℚ}

/-- The value of a finite number. -/
def value? : Double → Option ℚ
  | .finite s m e => some ((if s then -(m : ℚ) else m) * 2 ^ e)
  | _ => none

theorem exists_ratio? (h : x.value? = some q) :
    ∃ (n : Int) (d : Nat), x.ratio? = some (n, d) ∧ 0 < d ∧ (n / d : ℚ) = q := by
  cases x with
  | nan => cases h
  | infinite s => cases h
  | finite s m e =>
    obtain rfl := Option.some.inj h
    have hunit : (twoTo (-e) : ℚ) ≠ 0 := Nat.cast_ne_zero.2 (twoTo_pos _).ne'
    refine ⟨_, _, rfl, twoTo_pos _, ?_⟩
    rw [div_eq_iff hunit]
    cases s <;> simp [cast_twoTo e, mul_assoc]

theorem floor?_of_value? (h : x.value? = some q) : x.floor? = some ⌊q⌋ := by
  obtain ⟨n, d, hratio, -, rfl⟩ := exists_ratio? h
  rw [floor?, hratio, Option.map_some, Rat.floor_intCast_div_natCast,
    Int.fdiv_eq_ediv_of_nonneg _ (Int.natCast_nonneg d)]

/-- Dropping the fraction is the same as rounding down, but for negative numbers. -/
theorem exists_truncate? (h : x.value? = some q) :
    ∃ n, x.truncate? = some n ∧ max 0 n = max 0 ⌊q⌋ := by
  obtain ⟨n, d, hratio, hpos, rfl⟩ := exists_ratio? h
  refine ⟨n.tdiv d, by rw [truncate?, hratio, Option.map_some], ?_⟩
  rw [Rat.floor_intCast_div_natCast]
  rcases le_or_gt 0 n with hn | hn
  · rw [Int.tdiv_eq_ediv_of_nonneg hn]
  · have htdiv : 0 ≤ (-n).tdiv d := Int.tdiv_nonneg (by omega) (Int.natCast_nonneg d)
    rw [Int.neg_tdiv] at htdiv
    have hediv : n / d < 0 := Int.ediv_neg_of_neg_of_pos hn (by omega)
    omega

/-- A whole number of more than 53 bits keeps its 53 bits in units that are not below one. -/
theorem le_of_ofInt_eq_finite {n m : Nat} {s : Bool} {e : Int} (hn : 2 ^ 53 ≤ n)
    (h : ofInt n = .finite s m e) : twoTo 52 ≤ m ∧ 0 ≤ e := by
  have hne : n ≠ 0 := by omega
  obtain ⟨j, hj⟩ : ∃ j, n.log2 = j + 52 :=
    Nat.exists_eq_add_of_le' ((Nat.le_log2 hne).2 (by omega))
  have hbits : twoTo 52 ≤ (inUnits n 1 j).1 / (inUnits n 1 j).2 := by
    have hle : 2 ^ n.log2 ≤ n := Nat.log2_self_le hne
    rw [hj, Nat.pow_add] at hle
    rw [Nat.le_div_iff_mul_le (inUnits_pos n Nat.one_pos _)]
    simpa [inUnits, twoTo, Nat.mul_comm] using hle
  have hround := hbits.trans (le_roundHalfEven ..)
  unfold ofInt ofRatio at h
  simp only [Int.natAbs_natCast, hne, if_false, exponentOf_one hj] at h
  generalize roundHalfEven (inUnits n 1 j).1 (inUnits n 1 j).2 = r at *
  by_cases hcarry : r = twoTo 53
  · simp only [hcarry, if_true] at h
    split at h
    · cases h
    · cases h
      exact ⟨le_rfl, by omega⟩
  · simp only [hcarry, if_false] at h
    split at h
    · cases h
    · cases h
      exact ⟨hround, by omega⟩

theorem le_value_ofInt {n m : Nat} {s : Bool} {e : Int} (hn : 2 ^ 53 ≤ n)
    (h : ofInt n = .finite s m e) : (500 : ℚ) ≤ m * 2 ^ e := by
  obtain ⟨hbits, hunit⟩ := le_of_ofInt_eq_finite hn h
  have hm : (500 : ℚ) ≤ m := by exact_mod_cast (show 500 ≤ twoTo 52 by decide).trans hbits
  exact hm.trans (le_mul_of_one_le_right m.cast_nonneg (one_le_zpow₀ one_le_two hunit))

end Double

/-- A number rounded down and brought into the range from 1 to 500. -/
def clampedFloor (q : ℚ) : Int := min (max 1 ⌊q⌋) 500

theorem clampedFloor_mem (q : ℚ) : 1 ≤ clampedFloor q ∧ clampedFloor q ≤ 500 := by
  unfold clampedFloor
  omega

theorem monotone_clampedFloor : Monotone clampedFloor := fun _ _ h ↦
  min_le_min_right 500 (max_le_max_left 1 (Int.floor_mono h))

theorem clampedFloor_of_nonpos {q : ℚ} (h : q ≤ 0) : clampedFloor q = 1 := by
  have hfloor : ⌊q⌋ ≤ 0 := Int.floor_nonpos h
  unfold clampedFloor
  omega

theorem clampedFloor_of_le {q : ℚ} (h : 500 ≤ q) : clampedFloor q = 500 := by
  have hfloor : 500 ≤ ⌊q⌋ := Int.le_floor.2 (by exact_mod_cast h)
  unfold clampedFloor
  omega

/-- A whole number may change when it becomes a floating-point number, but its limit does not: it
stays the same up to 53 bits, and beyond them it stays large, or negative. -/
theorem Double.exists_value?_ofInt {n : Int} (h : n.natAbs < (2 ^ 54 - 1) * 2 ^ 970) :
    ∃ q, (ofInt n).value? = some q ∧ clampedFloor q = clampedFloor n := by
  obtain ⟨m, e, heq⟩ : ∃ m e, ofInt n = .finite (decide (n < 0)) m e := by
    rcases ofRatio_cases (decide (n < 0)) n.natAbs Nat.one_pos with heq | ⟨m, e, heq, -⟩
    · exact absurd ((ofInt_eq_infinite_iff n).1 ⟨_, heq⟩) h.not_ge
    · exact ⟨m, e, heq⟩
  rcases lt_or_ge n 0 with hneg | hnonneg
  · have hvalue : (ofInt n).value? = some (-(m : ℚ) * 2 ^ e) := by
      rw [heq, decide_eq_true hneg]
      rfl
    have hq : -(m : ℚ) * 2 ^ e ≤ 0 :=
      mul_nonpos_of_nonpos_of_nonneg (neg_nonpos.2 m.cast_nonneg) (by positivity)
    have hn : (n : ℚ) ≤ 0 := by exact_mod_cast hneg.le
    exact ⟨_, hvalue, (clampedFloor_of_nonpos hq).trans (clampedFloor_of_nonpos hn).symm⟩
  · lift n to Nat using hnonneg
    rcases lt_or_ge n (2 ^ 53) with hsmall | hlarge
    · obtain ⟨k, f, hk, hvalue⟩ := hasValue_ofInt hsmall
      refine ⟨n, ?_, by rw [Int.cast_natCast]⟩
      rw [hk, ← hvalue]
      rfl
    · have hvalue : (ofInt n).value? = some ((m : ℚ) * 2 ^ e) := by
        rw [heq, decide_eq_false (Int.natCast_nonneg n).not_gt]
        rfl
      have hn : (500 : ℚ) ≤ (n : Int) := by exact_mod_cast (by omega)
      exact ⟨_, hvalue,
        (clampedFloor_of_le (le_value_ofInt hlarge heq)).trans (clampedFloor_of_le hn).symm⟩

namespace Number

variable {v : Number} {q : ℚ}

/-- The value of a number, if it is finite. -/
def value? : Number → Option ℚ
  | .whole n => some n
  | .real x => x.value?

/-- A whole number beyond the floating-point numbers: it is half a unit or more above the greatest of
them, or as far below the least. -/
def IsVast : Number → Prop
  | .whole n => (2 ^ 54 - 1) * 2 ^ 970 ≤ n.natAbs
  | .real _ => False

theorem isVast_two_pow {k : Nat} (h : 1024 ≤ k) : (whole (2 ^ k)).IsVast := by
  obtain ⟨j, rfl⟩ := Nat.exists_eq_add_of_le (show 970 ≤ k by omega)
  have hbits : 2 ^ 54 - 1 ≤ 2 ^ j :=
    (Nat.sub_le ..).trans (Nat.pow_le_pow_right two_pos (by omega))
  have hle (unit : Nat) : (2 ^ 54 - 1) * 2 ^ unit ≤ ((2 : Int) ^ (unit + j)).natAbs := by
    rw [Int.natAbs_pow, Nat.pow_add, Nat.mul_comm]
    exact Nat.mul_le_mul_left _ hbits
  exact hle 970

theorem exists_toWhole (h : v.value? = some q) :
    ∃ n, v.toValue.toWhole = .ok n ∧ max 0 n = max 0 ⌊q⌋ := by
  cases v with
  | whole n =>
    obtain rfl := Option.some.inj h
    exact ⟨n, rfl, by rw [Int.floor_intCast]⟩
  | real x =>
    obtain ⟨n, hn, hmax⟩ := Double.exists_truncate? h
    refine ⟨n, ?_, hmax⟩
    cases x with
    | nan => cases h
    | infinite s => cases h
    | finite s m e => simp [toValue, Value.toWhole, hn]

theorem eq_zero_of_not_isTruthy (h : v.value? = some q) (hv : v.toValue.isTruthy = false) :
    q = 0 := by
  cases v with
  | whole n =>
    obtain rfl := Option.some.inj h
    simpa [toValue, Value.isTruthy] using hv
  | real x =>
    cases x with
    | nan => cases h
    | infinite s => cases h
    | finite s m e =>
      obtain rfl := Option.some.inj h
      have hm : m = 0 := by simpa [toValue, Value.isTruthy] using hv
      simp [hm]

end Number

namespace Report

variable {v : Number}

theorem rowLimit_real (x : Double) : rowLimit (.real x) = x.value?.elim 25 clampedFloor := by
  cases h : x.value? with
  | some q => rw [rowLimit, Double.floor?_of_value? h, Option.elim_some, clampedFloor, max_comm]
  | none =>
    cases x with
    | nan => rfl
    | infinite s => rfl
    | finite s m e => cases h

theorem clampLimit_of_isVast (h : v.IsVast) : clampLimit v.toValue = .error .hugeForReal := by
  cases v with
  | real x => exact h.elim
  | whole n =>
    obtain ⟨s, hs⟩ := (Double.ofInt_eq_infinite_iff n).2 h
    simp [clampLimit, Number.toValue, Value.toReal, hs]

theorem clampLimit_of_not_isVast (h : ¬v.IsVast) :
    clampLimit v.toValue = .ok (v.value?.elim 25 clampedFloor) := by
  cases v with
  | real x => exact congrArg Except.ok (rowLimit_real x)
  | whole n =>
    obtain ⟨q, hq, hclamped⟩ := Double.exists_value?_ofInt (not_le.1 h)
    have hlimit : clampLimit (.int n) = .ok (rowLimit (.real (Double.ofInt n))) := by
      cases hx : Double.ofInt n with
      | infinite s => simp [hx, Double.value?] at hq
      | nan => simp [clampLimit, Value.toReal, hx]
      | finite s m e => simp [clampLimit, Value.toReal, hx]
    rw [Number.toValue, hlimit, rowLimit_real, hq, Option.elim_some, hclamped]
    rfl

end Report

namespace Field

variable {α : Type} {fields : Fields} {name other : String} {default : α} {read : Value → Reading α}

theorem optional_put_self (v : Value) :
    Field.optional (Value.put fields name v) name default read = (read v).under (.key name) := by
  rw [Field.optional, Value.lookup_put_self]

theorem optional_put_of_ne (h : other ≠ name) (v : Value) :
    Field.optional (Value.put fields name v) other default read =
      Field.optional fields other default read := by
  rw [Field.optional, Value.lookup_put_of_ne _ _ h, Field.optional]

end Field

namespace SummaryOptions

variable {o : SummaryOptions} {fields : Fields} {v : Number} {q : ℚ}

theorem read_eq_accepted_iff : SummaryOptions.read (.object fields) = .accepted o ↔
    Field.optional fields "date_range" none (Field.nullable DateRange.read) = .accepted o.range ∧
    Field.optional fields "search" none readSearch = .accepted o.search ∧
    Field.optional fields "sort_by" .count (Field.choice SummarySort.all SummarySort.name) =
      .accepted o.sort ∧
    Field.optional fields "sort_direction" .descending
      (Field.choice Direction.all Direction.name) = .accepted o.direction ∧
    Field.optional fields "limit" 50 readLimit = .accepted o.limit ∧
    Field.optional fields "offset" 0 readOffset = .accepted o.offset := by
  constructor
  · intro h
    obtain ⟨_, heq, hfields⟩ := Reading.bind_eq_accepted.1 h
    cases heq
    obtain ⟨g, offset, hg, hoffset, rfl⟩ := Reading.seq_eq_accepted.1 hfields
    obtain ⟨g₁, limit, hg₁, hlimit, rfl⟩ := Reading.seq_eq_accepted.1 hg
    obtain ⟨g₂, direction, hg₂, hdirection, rfl⟩ := Reading.seq_eq_accepted.1 hg₁
    obtain ⟨g₃, sort, hg₃, hsort, rfl⟩ := Reading.seq_eq_accepted.1 hg₂
    obtain ⟨g₄, search, hg₄, hsearch, rfl⟩ := Reading.seq_eq_accepted.1 hg₃
    obtain ⟨range, hrange, rfl⟩ := Reading.map_eq_accepted.1 hg₄
    exact ⟨hrange, hsearch, hsort, hdirection, hlimit, hoffset⟩
  · rintro ⟨hrange, hsearch, hsort, hdirection, hlimit, hoffset⟩
    simp only [SummaryOptions.read, Field.record, Reading.bind, hrange, hsearch, hsort, hdirection,
      hlimit, hoffset]
    rfl

/-- Another limit in the place of the one that is there, or of none, is all that is read anew. -/
theorem read_put_limit (h : SummaryOptions.read (.object fields) = .accepted o) (v : Value) :
    SummaryOptions.read (.object (Value.put fields "limit" v)) =
      ((readLimit v).under (.key "limit")).map fun n ↦ { o with limit := n } := by
  obtain ⟨hrange, hsearch, hsort, hdirection, -, hoffset⟩ := read_eq_accepted_iff.1 h
  simp only [SummaryOptions.read, Field.record, Reading.bind, Field.optional_put_self,
    Field.optional_put_of_ne, ne_eq, String.reduceEq, not_false_eq_true, hrange, hsearch, hsort,
    hdirection, hoffset]
  cases readLimit v <;> rfl

theorem read_put_offset (h : SummaryOptions.read (.object fields) = .accepted o) (v : Value) :
    SummaryOptions.read (.object (Value.put fields "offset" v)) =
      ((readOffset v).under (.key "offset")).map fun n ↦ { o with offset := n } := by
  obtain ⟨hrange, hsearch, hsort, hdirection, hlimit, -⟩ := read_eq_accepted_iff.1 h
  simp only [SummaryOptions.read, Field.record, Reading.bind, Field.optional_put_self,
    Field.optional_put_of_ne, ne_eq, String.reduceEq, not_false_eq_true, hrange, hsearch, hsort,
    hdirection, hlimit]
  cases readOffset v <;> rfl

/-- A function that sees no difference between negative numbers and zero sees none between dropping
the fraction and rounding down. -/
theorem converted_toValue (h : v.value? = some q) {f : Int → Int} (hf : ∀ n, f n = f (max 0 n)) :
    converted v.toValue f = .accepted (f ⌊q⌋) := by
  obtain ⟨n, hn, hmax⟩ := Number.exists_toWhole h
  rw [converted, hn]
  exact congrArg Reading.accepted ((hf n).trans (hmax ▸ (hf ⌊q⌋).symm))

theorem readLimit_toValue (h : v.value? = some q) :
    readLimit v.toValue = .accepted (clampedFloor q) := by
  have hconverted : readLimit v.toValue = converted v.toValue clampLimit := by cases v <;> rfl
  rw [hconverted, converted_toValue h fun n ↦ by unfold clampLimit; omega]
  rfl

theorem readOffset_toValue (h : v.value? = some q) :
    readOffset v.toValue = .accepted (max 0 ⌊q⌋) := by
  unfold readOffset
  split
  · exact converted_toValue h fun n ↦ by omega
  · rename_i hzero
    rw [Number.eq_zero_of_not_isTruthy h (Bool.eq_false_iff.2 hzero), Int.floor_zero, max_self]

/-- A number as the limit of a chart, and as the limit or offset in options that are accepted without
it. Every number becomes its clamped floor, or what is not finite the default of a chart, and an
offset that is not negative, but for two gaps: a vast number is a fault in a chart, and an infinite
one in a summary. -/
theorem limits_of_number (h : SummaryOptions.read (.object fields) = .accepted o) (v : Number) :
    (¬v.IsVast → Report.clampLimit v.toValue = .ok (v.value?.elim 25 clampedFloor)) ∧
    (v.IsVast → Report.clampLimit v.toValue = .error .hugeForReal) ∧
    (∀ q, v.value? = some q →
      SummaryOptions.read (.object (Value.put fields "limit" v.toValue)) =
        .accepted { o with limit := clampedFloor q } ∧
      SummaryOptions.read (.object (Value.put fields "offset" v.toValue)) =
        .accepted { o with offset := max 0 ⌊q⌋ }) ∧
    (∀ s, v = .real (.infinite s) →
      SummaryOptions.read (.object (Value.put fields "limit" v.toValue)) = .failed .infinite ∧
      SummaryOptions.read (.object (Value.put fields "offset" v.toValue)) = .failed .infinite) ∧
    Monotone clampedFloor ∧ ∀ q, 1 ≤ clampedFloor q ∧ clampedFloor q ≤ 500 := by
  refine ⟨Report.clampLimit_of_not_isVast, Report.clampLimit_of_isVast, fun q hq ↦ ⟨?_, ?_⟩, ?_,
    monotone_clampedFloor, clampedFloor_mem⟩
  · rw [read_put_limit h, readLimit_toValue hq]
    rfl
  · rw [read_put_offset h, readOffset_toValue hq]
    rfl
  · rintro s rfl
    exact ⟨read_put_limit h _, read_put_offset h _⟩

/-- Twelve and three quarters. -/
def fraction : Number := .real (.finite false 51 (-2))

theorem limits_of_number_fraction :
    SummaryOptions.read (.object [("search", .text "up")]) = .accepted { search := some "up" } ∧
    fraction.value? = some (51 / 4) ∧ ¬fraction.IsVast ∧
    Report.clampLimit fraction.toValue = .ok 12 ∧
    SummaryOptions.read (.object [("search", .text "up"), ("limit", fraction.toValue)]) =
      .accepted { search := some "up", limit := 12 } ∧
    SummaryOptions.read (.object [("search", .text "up"), ("offset", fraction.toValue)]) =
      .accepted { search := some "up", offset := 12 } := by
  have hread : SummaryOptions.read (.object [("search", .text "up")]) =
      .accepted { search := some "up" } := by rfl
  have hvalue : fraction.value? = some (51 / 4) := by
    simp only [fraction, Number.value?, Double.value?]
    norm_num
  have hfloor : ⌊(51 / 4 : ℚ)⌋ = 12 := by norm_num
  obtain ⟨hchart, -, hsummary, -⟩ := limits_of_number hread fraction
  have hclamped : clampedFloor (51 / 4) = 12 := by rw [clampedFloor, hfloor]; rfl
  obtain ⟨hlimit, hoffset⟩ := hsummary _ hvalue
  rw [hclamped] at hlimit
  rw [hfloor] at hoffset
  refine ⟨hread, hvalue, not_false, ?_, hlimit, hoffset⟩
  rw [hchart not_false, hvalue, Option.elim_some, hclamped]

/-- The first power of two beyond the floating-point numbers has a clamped floor but no limit of a
chart, and an infinite limit is not brought into the range of a summary. -/
theorem vastLimit_breaks : clampedFloor (2 ^ 1024) = 500 ∧
    Report.clampLimit (.int (2 ^ 1024)) = .error .hugeForReal ∧
    SummaryOptions.read (.object [("limit", .float (.infinite false))]) = .failed .infinite := by
  have hlarge : (500 : ℚ) ≤ 2 ^ 1024 := by
    calc (500 : ℚ) ≤ 2 ^ 9 := by norm_num
      _ ≤ 2 ^ 1024 := pow_le_pow_right₀ one_le_two (by decide)
  have hvast := Report.clampLimit_of_isVast (Number.isVast_two_pow (le_refl 1024))
  rw [Number.toValue] at hvast
  exact ⟨clampedFloor_of_le hlarge, hvast, by rfl⟩

end SummaryOptions

end Footfall
