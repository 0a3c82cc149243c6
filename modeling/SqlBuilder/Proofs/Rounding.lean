import Mathlib.Algebra.Order.Field.Power
import Mathlib.Data.Int.Log
import Mathlib.Data.Rat.Floor
import Mathlib.Tactic.FieldSimp
import Mathlib.Tactic.Linarith
import Mathlib.Tactic.Positivity
import SqlBuilder.Number.Double

/-!
# Rounding keeps the order

A greater quotient is never rounded to a smaller word (`BinaryFormat.round_mono`): the unit is
given by the binary logarithm (`unitExponent_eq`), and where it grows, the significand starts again
at its least full length.  The words of a format are in the order of their values too
(`quotient_ratio_mono`), so that multiplying and dividing by powers of ten keep the order of
doubles.
-/

namespace SqlBuilder

namespace BinaryFormat

/-- The rational number of a numerator and a denominator. -/
def quotient (p : Nat × Nat) : ℚ :=
  p.1 / p.2

theorem twoTo_pos (k : Nat) : 0 < twoTo k := Nat.pow_pos (by decide)

theorem cast_twoTo (k : Nat) : ((twoTo k : Nat) : ℚ) = 2 ^ k := Nat.cast_pow 2 k

/-! ## Rounding quotients -/

theorem roundDiv_mono {n d n' d' : Nat} (pos : 0 < d) (pos' : 0 < d') (h : n * d' ≤ n' * d) :
    roundDiv n d ≤ roundDiv n' d' := by
  have split := Nat.div_add_mod n d
  have split' := Nat.div_add_mod n' d'
  have le : n / d ≤ n' / d' := by
    rw [Nat.le_div_iff_mul_le pos']
    refine Nat.le_of_mul_le_mul_right ?_ pos
    calc n / d * d' * d = n / d * d * d' := by ring
      _ ≤ n * d' := Nat.mul_le_mul_right d' (Nat.div_mul_le_self n d)
      _ ≤ n' * d := h
  unfold roundDiv
  dsimp only
  rcases Nat.lt_or_eq_of_le le with less | same
  · split <;> split <;> omega
  -- With equal whole parts the remainders are in the order of the quotients.
  have remainders : n % d * d' ≤ n' % d' * d := by
    rw [← split, ← split', same] at h
    nlinarith
  rw [same]
  split
  · split <;> omega
  next up =>
    split
    next down =>
      simp only [Bool.or_eq_true, Bool.and_eq_true, decide_eq_true_eq, beq_iff_eq] at up down
      rcases down with down | ⟨tie, even⟩
      · have half : d ≤ 2 * (n % d) := by omega
        nlinarith
      · have more : d < 2 * (n % d) := by omega
        nlinarith
    next => exact Nat.le_refl _

theorem roundDiv_one (n : Nat) : roundDiv n 1 = n := by
  simp [roundDiv, Nat.mod_one]

theorem roundDiv_le {n d c : Nat} (pos : 0 < d) (h : n ≤ c * d) : roundDiv n d ≤ c := by
  rw [← roundDiv_one c]
  exact roundDiv_mono pos Nat.one_pos (by omega)

theorem le_roundDiv {n d c : Nat} (pos : 0 < d) (h : c * d ≤ n) : c ≤ roundDiv n d := by
  rw [← roundDiv_one c]
  exact roundDiv_mono Nat.one_pos pos (by omega)

/-! ## The unit -/

theorem descale_pos {den : Nat} (pos : 0 < den) (num : Nat) (e : Int) :
    0 < (descale num den e).2 := by
  unfold descale
  split
  · exact Nat.mul_pos pos (twoTo_pos _)
  · exact pos

theorem quotient_descale (num den : Nat) (e : Int) :
    quotient (descale num den e) = quotient (num, den) / 2 ^ e := by
  unfold descale quotient
  split
  next up =>
    obtain ⟨k, rfl⟩ := Int.eq_ofNat_of_zero_le up
    simp [cast_twoTo, div_div]
  next down =>
    obtain ⟨k, rfl⟩ : ∃ k : Nat, e = -k := ⟨(-e).toNat, by omega⟩
    simp [cast_twoTo]
    ring

theorem div_lt_iff {n d c : Nat} (pos : 0 < d) : n / d < c ↔ quotient (n, d) < c := by
  have pos' : (0 : ℚ) < d := Nat.cast_pos.2 pos
  rw [Nat.div_lt_iff_lt_mul pos, quotient, div_lt_iff₀ pos', ← Nat.cast_mul, Nat.cast_lt]

/-- The binary logarithm of a quotient, up to one, by the logarithms of its two parts. -/
theorem log_quotient {num den : Nat} (hnum : 0 < num) (hden : 0 < den) :
    (2 : ℚ) ^ ((Nat.log2 num : Int) - Nat.log2 den - 1) ≤ quotient (num, den) ∧
      quotient (num, den) < 2 ^ ((Nat.log2 num : Int) - Nat.log2 den + 1) := by
  have num_le : (2 : ℚ) ^ Nat.log2 num ≤ num := by exact_mod_cast Nat.log2_self_le hnum.ne'
  have num_lt : (num : ℚ) < 2 ^ (Nat.log2 num + 1) := by exact_mod_cast Nat.lt_log2_self
  have den_le : (2 : ℚ) ^ Nat.log2 den ≤ den := by exact_mod_cast Nat.log2_self_le hden.ne'
  have den_lt : (den : ℚ) < 2 ^ (Nat.log2 den + 1) := by exact_mod_cast Nat.lt_log2_self
  have pos : (0 : ℚ) < den := Nat.cast_pos.2 hden
  constructor
  · have power : (2 : ℚ) ^ ((Nat.log2 num : Int) - Nat.log2 den - 1) =
        2 ^ Nat.log2 num / 2 ^ (Nat.log2 den + 1) := by
      rw [sub_sub, zpow_sub₀ two_ne_zero]
      norm_cast
    rw [power, quotient]
    exact div_le_div₀ (by positivity) num_le pos den_lt.le
  · have power : (2 : ℚ) ^ ((Nat.log2 num : Int) - Nat.log2 den + 1) =
        2 ^ (Nat.log2 num + 1) / 2 ^ Nat.log2 den := by
      rw [sub_add_eq_add_sub, zpow_sub₀ two_ne_zero]
      norm_cast
    rw [power, quotient, div_lt_div_iff₀ pos (by positivity)]
    exact mul_lt_mul num_lt den_le (by positivity) (by positivity)

theorem le_log_iff {q : ℚ} (pos : 0 < q) (e : Int) : e ≤ Int.log 2 q ↔ 2 ^ e ≤ q := by
  rw [← Int.zpow_le_iff_le_log one_lt_two pos, Nat.cast_ofNat]

theorem log_lt_iff {q : ℚ} (pos : 0 < q) (e : Int) : Int.log 2 q < e ↔ q < 2 ^ e := by
  rw [← Int.lt_zpow_iff_log_lt one_lt_two pos, Nat.cast_ofNat]

/-- The unit has the exponent of the leading bit less the length of the significand, or the least
exponent. -/
theorem unitExponent_eq (f : BinaryFormat) {num den : Nat} (hnum : 0 < num) (hden : 0 < den) :
    f.unitExponent num den =
      max (Int.log 2 (quotient (num, den)) - (f.precision - 1 : Nat)) (-f.leastExponent) := by
  obtain ⟨low, high⟩ := log_quotient hnum hden
  have pos : (0 : ℚ) < quotient (num, den) := lt_of_lt_of_le (by positivity) low
  have le := (le_log_iff pos _).2 low
  have lt := (log_lt_iff pos _).2 high
  have short : ∀ e : Int, (descale num den e).1 / (descale num den e).2 <
      twoTo (f.precision - 1) ↔ Int.log 2 (quotient (num, den)) < e + (f.precision - 1 : Nat) := by
    intro e
    rw [div_lt_iff (descale_pos hden num e), quotient_descale, cast_twoTo,
      div_lt_iff₀ (by positivity), log_lt_iff pos, add_comm e, zpow_add₀ two_ne_zero, zpow_natCast]
  unfold unitExponent
  simp only [short]
  split <;> omega

theorem quotient_pos {num den : Nat} (hnum : 0 < num) (hden : 0 < den) :
    0 < quotient (num, den) :=
  div_pos (Nat.cast_pos.2 hnum) (Nat.cast_pos.2 hden)

theorem quotient_le_iff {n d n' d' : Nat} (pos : 0 < d) (pos' : 0 < d') :
    quotient (n, d) ≤ quotient (n', d') ↔ n * d' ≤ n' * d := by
  rw [quotient, quotient, div_le_div_iff₀ (Nat.cast_pos.2 pos) (Nat.cast_pos.2 pos'),
    ← Nat.cast_mul, ← Nat.cast_mul, Nat.cast_le]

theorem quotient_le_natCast_iff {n d c : Nat} (pos : 0 < d) :
    quotient (n, d) ≤ c ↔ n ≤ c * d := by
  rw [quotient, div_le_iff₀ (Nat.cast_pos.2 pos), ← Nat.cast_mul, Nat.cast_le]

theorem natCast_le_quotient_iff {n d c : Nat} (pos : 0 < d) :
    c ≤ quotient (n, d) ↔ c * d ≤ n := by
  rw [quotient, le_div_iff₀ (Nat.cast_pos.2 pos), ← Nat.cast_mul, Nat.cast_le]

section

variable (f : BinaryFormat) {num den : Nat} (hnum : 0 < num) (hden : 0 < den)
include hnum hden

/-- In its unit a quotient has at most the length of a significand. -/
theorem roundDiv_unit_le :
    roundDiv (descale num den (f.unitExponent num den)).1
      (descale num den (f.unitExponent num den)).2 ≤ 2 * twoTo (f.precision - 1) := by
  have unit := f.unitExponent_eq hnum hden
  generalize f.unitExponent num den = e at unit ⊢
  have below : quotient (num, den) < 2 ^ (1 + (f.precision - 1 : Nat) + e : Int) :=
    (log_lt_iff (quotient_pos hnum hden) _).1 (by omega)
  apply roundDiv_le (descale_pos hden num e)
  rw [← quotient_le_natCast_iff (descale_pos hden num e), quotient_descale,
    div_le_iff₀ (by positivity), Nat.cast_mul, cast_twoTo]
  rw [zpow_add₀ two_ne_zero, zpow_add₀ two_ne_zero, zpow_one, zpow_natCast] at below
  exact below.le

/-- In a unit above the least, a quotient has the full length of a significand. -/
theorem le_roundDiv_unit (above : -(f.leastExponent : Int) < f.unitExponent num den) :
    twoTo (f.precision - 1) ≤ roundDiv (descale num den (f.unitExponent num den)).1
      (descale num den (f.unitExponent num den)).2 := by
  have unit := f.unitExponent_eq hnum hden
  generalize f.unitExponent num den = e at unit above ⊢
  have full : 2 ^ ((f.precision - 1 : Nat) + e : Int) ≤ quotient (num, den) :=
    (le_log_iff (quotient_pos hnum hden) _).1 (by omega)
  apply le_roundDiv (descale_pos hden num e)
  rw [← natCast_le_quotient_iff (descale_pos hden num e), quotient_descale,
    le_div_iff₀ (by positivity), cast_twoTo]
  rwa [zpow_add₀ two_ne_zero, zpow_natCast] at full

end

theorem round_of_ne_zero (f : BinaryFormat) {num : Nat} (h : num ≠ 0) (den : Nat) :
    f.round num den = min f.infinity
      ((f.unitExponent num den + f.leastExponent).toNat * twoTo (f.precision - 1) +
        roundDiv (descale num den (f.unitExponent num den)).1
          (descale num den (f.unitExponent num den)).2) :=
  if_neg h

/-- A greater quotient is not rounded to a smaller word. -/
theorem round_mono (f : BinaryFormat) {num den num' den' : Nat} (hden : 0 < den) (hden' : 0 < den')
    (h : quotient (num, den) ≤ quotient (num', den')) : f.round num den ≤ f.round num' den' := by
  rcases Nat.eq_zero_or_pos num with rfl | hnum
  · exact Nat.zero_le _
  have hnum' : num' ≠ 0 := by
    rintro rfl
    have pos := quotient_pos hnum hden
    have none : quotient (0, den') = 0 := by simp [quotient]
    linarith
  have upper := f.roundDiv_unit_le hnum hden
  have lower := f.le_roundDiv_unit (Nat.pos_of_ne_zero hnum') hden'
  have least : -(f.leastExponent : Int) ≤ f.unitExponent num den := by
    rw [f.unitExponent_eq hnum hden]
    exact le_max_right _ _
  have order : f.unitExponent num den ≤ f.unitExponent num' den' := by
    have logs := Int.log_mono_right (b := 2) (quotient_pos hnum hden) h
    rw [f.unitExponent_eq hnum hden, f.unitExponent_eq (Nat.pos_of_ne_zero hnum') hden']
    omega
  rw [round_of_ne_zero f hnum.ne', round_of_ne_zero f hnum']
  generalize f.unitExponent num den = e at *
  generalize f.unitExponent num' den' = e' at *
  apply min_le_min_left
  rcases Int.lt_or_eq_of_le order with less | rfl
  · have more : (e + f.leastExponent).toNat + 1 ≤ (e' + f.leastExponent).toNat := by omega
    have step := Nat.mul_le_mul_right (twoTo (f.precision - 1)) more
    have full := lower (by omega)
    rw [Nat.add_mul, Nat.one_mul] at step
    omega
  · apply Nat.add_le_add_left
    apply roundDiv_mono (descale_pos hden _ _) (descale_pos hden' _ _)
    rw [← quotient_le_iff (descale_pos hden _ _) (descale_pos hden' _ _), quotient_descale,
      quotient_descale]
    exact div_le_div_of_nonneg_right h (by positivity)

/-! ## The values of words -/

theorem quotient_ratio (f : BinaryFormat) (w : Nat) :
    quotient (f.ratio w) = (f.parts w).1 * 2 ^ (f.parts w).2 := by
  unfold ratio quotient
  dsimp only
  split
  next up =>
    obtain ⟨k, hk⟩ := Int.eq_ofNat_of_zero_le up
    simp [hk, cast_twoTo]
  next down =>
    obtain ⟨k, hk⟩ : ∃ k : Nat, (f.parts w).2 = -k := ⟨(-(f.parts w).2).toNat, by omega⟩
    simp [hk, cast_twoTo]
    ring

theorem ratio_pos (f : BinaryFormat) (w : Nat) : 0 < (f.ratio w).2 := by
  unfold ratio
  dsimp only
  split
  · exact Nat.one_pos
  · exact twoTo_pos _

/-- A value lies below the power of two that its biased exponent gives. -/
theorem quotient_ratio_le (f : BinaryFormat) (w : Nat) :
    quotient (f.ratio w) ≤
      twoTo (f.precision - 1) *
        2 ^ ((w / twoTo (f.precision - 1) : Nat) - f.leastExponent : Int) := by
  have rest := Nat.mod_lt w (twoTo_pos (f.precision - 1))
  rw [quotient_ratio]
  unfold parts
  dsimp only
  split
  next zero =>
    rw [zero, Nat.cast_zero, zero_sub]
    exact mul_le_mul_of_nonneg_right (Nat.cast_le.2 rest.le) (by positivity)
  next =>
    have twice : twoTo (f.precision - 1) + w % twoTo (f.precision - 1) ≤
        twoTo (f.precision - 1) * 2 := by omega
    have power := zpow_add_one₀ (two_ne_zero (α := ℚ))
      ((w / twoTo (f.precision - 1) : Nat) - 1 - f.leastExponent)
    rw [sub_right_comm, sub_add_cancel] at power
    rw [power, mul_comm _ (2 : ℚ), ← mul_assoc, sub_right_comm]
    exact mul_le_mul_of_nonneg_right (by exact_mod_cast twice) (by positivity)

/-- A value of full length is at least half the power of two that its biased exponent gives. -/
theorem le_quotient_ratio (f : BinaryFormat) {w : Nat} (full : 0 < w / twoTo (f.precision - 1)) :
    twoTo (f.precision - 1) *
        2 ^ ((w / twoTo (f.precision - 1) : Nat) - 1 - f.leastExponent : Int) ≤
      quotient (f.ratio w) := by
  rw [quotient_ratio]
  unfold parts
  dsimp only
  rw [if_neg full.ne']
  exact mul_le_mul_of_nonneg_right (Nat.cast_le.2 (Nat.le_add_right _ _)) (by positivity)

/-- Words are in the order of their values. -/
theorem quotient_ratio_mono (f : BinaryFormat) {w w' : Nat} (h : w ≤ w') :
    quotient (f.ratio w) ≤ quotient (f.ratio w') := by
  rcases Nat.lt_or_eq_of_le (Nat.div_le_div_right (c := twoTo (f.precision - 1)) h) with
    less | same
  · refine (f.quotient_ratio_le w).trans
      (le_trans ?_ (f.le_quotient_ratio (Nat.zero_lt_of_lt less)))
    apply mul_le_mul_of_nonneg_left _ (Nat.cast_nonneg _)
    exact zpow_le_zpow_right₀ one_le_two (by omega)
  · have split := Nat.div_add_mod w (twoTo (f.precision - 1))
    have split' := Nat.div_add_mod w' (twoTo (f.precision - 1))
    have parts : (f.parts w).2 = (f.parts w').2 ∧ (f.parts w).1 ≤ (f.parts w').1 := by
      rw [same] at split
      unfold BinaryFormat.parts
      dsimp only
      rw [same]
      split_ifs <;> constructor <;> simp <;> omega
    rw [quotient_ratio, quotient_ratio, parts.1]
    exact mul_le_mul_of_nonneg_right (Nat.cast_le.2 parts.2) (by positivity)

end BinaryFormat

namespace Double

open BinaryFormat

/-! ## Doubles -/

/-- The value of a finite double without its sign. -/
def absValue (x : Double) : ℚ :=
  quotient x.ratio

theorem absValue_mono {x y : Double} (h : x.magnitude ≤ y.magnitude) : x.absValue ≤ y.absValue :=
  BinaryFormat.double.quotient_ratio_mono h

theorem magnitude_ofMagnitude (negative : Bool) {w : Nat} (h : w < signBit) :
    (ofMagnitude negative w).magnitude = w := by
  have bit : signBit = 2 ^ 63 := rfl
  simp only [magnitude, ofMagnitude, UInt64.toNat_ofNat', bit] at h ⊢
  split <;> omega

theorem magnitude_ofRatio (negative : Bool) (num den : Nat) :
    (ofRatio negative num den).magnitude = BinaryFormat.double.round num den := by
  apply magnitude_ofMagnitude
  have infinite : BinaryFormat.double.infinity < signBit := by decide
  unfold BinaryFormat.round
  split
  · decide
  · exact lt_of_le_of_lt (Nat.min_le_left _ _) infinite

/-- Rounding keeps the order of quotients, whatever their signs. -/
theorem magnitude_ofRatio_mono {negative negative' : Bool} {n d n' d' : Nat} (pos : 0 < d)
    (pos' : 0 < d') (h : quotient (n, d) ≤ quotient (n', d')) :
    (ofRatio negative n d).magnitude ≤ (ofRatio negative' n' d').magnitude := by
  rw [magnitude_ofRatio, magnitude_ofRatio]
  exact BinaryFormat.double.round_mono pos pos' h

theorem magnitude_ofInt_mono {m n : Nat} (h : m ≤ n) :
    (ofInt m).magnitude ≤ (ofInt n).magnitude := by
  apply magnitude_ofRatio_mono Nat.one_pos Nat.one_pos
  rw [quotient_le_iff Nat.one_pos Nat.one_pos]
  omega

theorem isFinite_of_le {x y : Double} (h : x.magnitude ≤ y.magnitude) (finite : y.isFinite = true) :
    x.isFinite = true := by
  simp only [isFinite, decide_eq_true_eq] at finite ⊢
  exact lt_of_le_of_lt h finite

theorem isFinite_neg {x : Double} (h : x.isFinite = true) : x.neg.isFinite = true := by
  have below : x.magnitude < signBit := Nat.mod_lt _ (by decide)
  simpa only [isFinite, neg, magnitude_ofMagnitude _ below] using h

theorem timesTenPow_eq (x : Double) (k : Nat) :
    x.timesTenPow k = ofRatio x.isNegative (x.ratio.1 * (tenPow k).ratio.1)
      (x.ratio.2 * (tenPow k).ratio.2) := rfl

theorem overTenPow_eq (x : Double) (k : Nat) :
    x.overTenPow k = ofRatio x.isNegative (x.ratio.1 * (tenPow k).ratio.2)
      (x.ratio.2 * (tenPow k).ratio.1) := rfl

theorem ratio_pos (x : Double) : 0 < x.ratio.2 :=
  BinaryFormat.double.ratio_pos x.magnitude

theorem absValue_nonneg (x : Double) : 0 ≤ x.absValue :=
  div_nonneg (Nat.cast_nonneg _) (Nat.cast_nonneg _)

theorem magnitude_tenPow_mono {k l : Nat} (h : k ≤ l) :
    (tenPow k).magnitude ≤ (tenPow l).magnitude := by
  apply magnitude_ofRatio_mono Nat.one_pos Nat.one_pos
  rw [quotient_le_iff Nat.one_pos Nat.one_pos, Nat.mul_one, Nat.mul_one]
  exact Nat.pow_le_pow_right (by decide) h

theorem one_le_absValue_tenPow (k : Nat) : 1 ≤ (tenPow k).absValue := by
  have one : (tenPow 0).ratio = (twoTo 52, twoTo 52) := by decide
  have nonzero : ((twoTo 52 : Nat) : ℚ) ≠ 0 := Nat.cast_ne_zero.2 (twoTo_pos 52).ne'
  calc 1 = (tenPow 0).absValue := by rw [absValue, one, quotient, div_self nonzero]
    _ ≤ (tenPow k).absValue := absValue_mono (magnitude_tenPow_mono (Nat.zero_le k))

/-- Products with powers of ten are in the order of the factors. -/
theorem magnitude_timesTenPow_mono {x y : Double} (h : x.magnitude ≤ y.magnitude) {k l : Nat}
    (hkl : k ≤ l) : (x.timesTenPow k).magnitude ≤ (y.timesTenPow l).magnitude := by
  have product : ∀ (z : Double) (k : Nat), quotient (z.ratio.1 * (tenPow k).ratio.1,
      z.ratio.2 * (tenPow k).ratio.2) = z.absValue * (tenPow k).absValue := by
    intro z k
    simp [absValue, quotient, div_mul_div_comm]
  rw [timesTenPow_eq, timesTenPow_eq]
  apply magnitude_ofRatio_mono (Nat.mul_pos (ratio_pos _) (ratio_pos _))
    (Nat.mul_pos (ratio_pos _) (ratio_pos _))
  rw [product, product]
  exact mul_le_mul (absValue_mono h) (absValue_mono (magnitude_tenPow_mono hkl))
    (absValue_nonneg _) (absValue_nonneg _)

/-- A quotient by a power of ten is not greater than a greater number, rounded again. -/
theorem magnitude_overTenPow_le {x y : Double} (h : x.magnitude ≤ y.magnitude) (k : Nat) :
    (x.overTenPow k).magnitude ≤ (ofRatio false y.ratio.1 y.ratio.2).magnitude := by
  have nonzero : 0 < (tenPow k).ratio.1 := by
    by_contra zero
    have none : (tenPow k).absValue = 0 := by
      rw [absValue, quotient, Nat.eq_zero_of_not_pos zero, Nat.cast_zero, zero_div]
    have one := one_le_absValue_tenPow k
    linarith
  have division : quotient (x.ratio.1 * (tenPow k).ratio.2, x.ratio.2 * (tenPow k).ratio.1) =
      x.absValue / (tenPow k).absValue := by
    simp [absValue, quotient, div_div_div_eq]
  rw [overTenPow_eq]
  apply magnitude_ofRatio_mono (Nat.mul_pos (ratio_pos _) nonzero) (ratio_pos _)
  rw [division]
  exact (div_le_self (absValue_nonneg x) (one_le_absValue_tenPow k)).trans (absValue_mono h)

end Double

end SqlBuilder
