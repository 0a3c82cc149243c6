import SqlBuilder.Number.Shortest
import SqlBuilder.Proofs.Digits
import SqlBuilder.Proofs.Rounding

/-!
# The shortest decimal lies near its double

Seventeen digits always suffice: the search ends with a decimal in the basin of the double
(`exists_nearest_seventeen`), so that the shortest decimal has at most seventeen digits
(`shortest_bounds`) and an exponent that is not beyond that of the double.  The greatest finite
double bounds the decimals of all others (`shortest_le_limit`), which is why a written double is
never read as infinite.
-/

namespace SqlBuilder

open BinaryFormat

theorem tenTo_pos (k : Nat) : 0 < tenTo k := Nat.pow_pos (by decide)

theorem cast_tenTo (k : Nat) : ((tenTo k : Nat) : ℚ) = 10 ^ k := Nat.cast_pow 10 k

/-- The decimal with the given digits, and with the given exponent of the last digit. -/
def decimal (d : Nat) (k : Int) : ℚ :=
  d * 10 ^ k

namespace Double

/-! ## The basin of a double -/

theorem gridPoint_pos (den d : Nat) (k : Int) : 0 < (gridPoint den d k).2 := by
  unfold gridPoint
  split
  · exact Nat.one_pos
  · exact tenTo_pos _

theorem quotient_gridPoint (den d : Nat) (k : Int) :
    quotient (gridPoint den d k) = decimal d k * den := by
  unfold gridPoint quotient decimal
  split
  next up =>
    obtain ⟨k, rfl⟩ := Int.eq_ofNat_of_zero_le up
    simp [cast_tenTo]
  next down =>
    obtain ⟨k, rfl⟩ : ∃ j : Nat, k = -j := ⟨(-k).toNat, by omega⟩
    simp [cast_tenTo]
    ring

namespace Basin

theorem contains_eq (b : Basin) (d : Nat) (k : Int) :
    b.contains d k = true ↔
      if b.closed then b.low ≤ decimal d k * b.den ∧ decimal d k * b.den ≤ b.high
      else b.low < decimal d k * b.den ∧ decimal d k * b.den < b.high := by
  have pos := gridPoint_pos b.den d k
  rw [← quotient_gridPoint]
  unfold contains
  generalize gridPoint b.den d k = p at pos ⊢
  obtain ⟨n, f⟩ := p
  have pos' : (0 : ℚ) < f := Nat.cast_pos.2 pos
  dsimp only
  split
  · simp only [quotient, Bool.and_eq_true, decide_eq_true_eq, le_div_iff₀ pos', div_le_iff₀ pos',
      ← Nat.cast_mul, Nat.cast_le]
  · simp only [quotient, Bool.and_eq_true, decide_eq_true_eq, lt_div_iff₀ pos', div_lt_iff₀ pos',
      ← Nat.cast_mul, Nat.cast_lt]

theorem bounds_of_contains {b : Basin} {d : Nat} {k : Int} (h : b.contains d k = true) :
    b.low ≤ decimal d k * b.den ∧ decimal d k * b.den ≤ b.high := by
  rw [contains_eq] at h
  split at h
  · exact h
  · exact ⟨h.1.le, h.2.le⟩

theorem contains_of_lt {b : Basin} {d : Nat} {k : Int} (low : b.low < decimal d k * b.den)
    (high : decimal d k * b.den < b.high) : b.contains d k = true := by
  rw [contains_eq]
  split
  · exact ⟨low.le, high.le⟩
  · exact ⟨low, high⟩

/-- The digits of the greatest decimal with exponent `k` that does not exceed the value. -/
def below (b : Basin) (k : Int) : Nat :=
  if 0 ≤ k then b.value / (b.den * tenTo k.toNat) else b.value * tenTo (-k).toNat / b.den

theorem below_bounds {b : Basin} (pos : 0 < b.den) (k : Int) :
    decimal (b.below k) k * b.den ≤ b.value ∧ b.value < decimal (b.below k + 1) k * b.den := by
  unfold below
  split
  next up =>
    obtain ⟨k, rfl⟩ := Int.eq_ofNat_of_zero_le up
    have whole : ∀ d : Nat, decimal d k * b.den = ((d * (b.den * tenTo k) : Nat) : ℚ) := by
      intro d
      simp only [decimal, zpow_natCast, Nat.cast_mul, cast_tenTo]
      ring
    rw [whole, whole, Nat.cast_le, Nat.cast_lt, Int.toNat_natCast, Nat.add_mul, Nat.one_mul]
    exact ⟨Nat.div_mul_le_self _ _, Nat.lt_div_mul_add (Nat.mul_pos pos (tenTo_pos k))⟩
  next down =>
    obtain ⟨k, rfl⟩ : ∃ j : Nat, k = -j := ⟨(-k).toNat, by omega⟩
    have part : ∀ d : Nat, decimal d (-k) * b.den = ((d * b.den : Nat) : ℚ) / tenTo k := by
      intro d
      simp only [decimal, zpow_neg, zpow_natCast, Nat.cast_mul, cast_tenTo]
      ring
    have ten : (0 : ℚ) < tenTo k := Nat.cast_pos.2 (tenTo_pos k)
    rw [part, part, div_le_iff₀ ten, lt_div_iff₀ ten, ← Nat.cast_mul, Nat.cast_le, Nat.cast_lt,
      Int.neg_neg, Int.toNat_natCast, Nat.add_mul, Nat.one_mul]
    exact ⟨Nat.div_mul_le_self _ _, Nat.lt_div_mul_add pos⟩

theorem nearest_eq_none_iff (b : Basin) (k : Int) :
    b.nearest k = none ↔
      b.contains (b.below k) k = false ∧ b.contains (b.below k + 1) k = false := by
  unfold nearest below
  dsimp only
  generalize (if 0 ≤ k then _ else _ : Nat) = d
  cases b.contains d k <;> cases b.contains (d + 1) k <;> simp
  split <;> simp

theorem contains_of_nearest {b : Basin} {k : Int} {d : Nat} (h : b.nearest k = some d) :
    b.contains d k = true := by
  unfold nearest at h
  dsimp only at h
  generalize (if 0 ≤ k then _ else _ : Nat) = d' at h
  split at h
  · cases h
  · cases h
    assumption
  · cases h
    assumption
  · split at h <;> cases h <;> assumption

/-- A grid that is finer than the basin is wide has a decimal in it. -/
theorem exists_nearest {b : Basin} (pos : 0 < b.den) (low : b.low ≤ b.value)
    (high : b.value < b.high) {k : Int} (fine : b.low + (10 : ℚ) ^ k * b.den < b.high) :
    ∃ d, b.nearest k = some d := by
  obtain ⟨le, lt⟩ := below_bounds pos k
  have low' : (b.low : ℚ) ≤ b.value := Nat.cast_le.2 low
  have high' : (b.value : ℚ) < b.high := Nat.cast_lt.2 high
  have next : decimal (b.below k + 1) k * b.den =
      decimal (b.below k) k * b.den + 10 ^ k * b.den := by
    simp only [decimal, Nat.cast_add, Nat.cast_one]
    ring
  rw [← Option.ne_none_iff_exists']
  intro none
  obtain ⟨outside, outside'⟩ := (nearest_eq_none_iff b k).1 none
  rcases lt_or_ge (b.low : ℚ) (decimal (b.below k) k * b.den) with above | beneath
  · rw [contains_of_lt above (by linarith)] at outside
    cases outside
  · rw [contains_of_lt (by linarith) (by linarith)] at outside'
    cases outside'

/-- The search ends at a decimal in the basin, at the latest on a grid that has one. -/
theorem contains_search {b : Basin} {n j : Nat} (hj : j < n) {k : Int}
    (found : ∃ d, b.nearest (k - j) = some d) :
    b.contains (b.search n k).1 (b.search n k).2 = true ∧ k - j ≤ (b.search n k).2 ∧
      (b.search n k).2 ≤ k := by
  induction n generalizing j k with
  | zero => exact absurd hj (Nat.not_lt_zero _)
  | succ n ih =>
    rw [search]
    cases here : b.nearest k with
    | some d => exact ⟨contains_of_nearest here, by dsimp only; omega, Int.le_refl _⟩
    | none =>
      cases j with
      | zero =>
        obtain ⟨d, hd⟩ := found
        rw [Nat.cast_zero, Int.sub_zero, here] at hd
        cases hd
      | succ j =>
        have found' : ∃ d, b.nearest (k - 1 - j) = some d := by
          rwa [Int.sub_sub, Int.add_comm 1]
        obtain ⟨inside, low, high⟩ := ih (Nat.lt_of_succ_lt_succ hj) found'
        dsimp only
        exact ⟨inside, by omega, by omega⟩

end Basin

theorem lt_tenTo_decimalLength (n : Nat) : n < 10 ^ decimalLength n :=
  (Nat.length_toDigits_le_iff (by decide) (List.length_pos_iff.2 Nat.toDigits_ne_nil)).1
    (Nat.le_refl _)

theorem tenTo_decimalLength_le {n : Nat} (pos : 0 < n) : 10 ^ (decimalLength n - 1) ≤ n := by
  rcases Nat.eq_zero_or_pos (decimalLength n - 1) with one | more
  · rw [one]
    exact pos
  · by_contra less
    have short : decimalLength n ≤ decimalLength n - 1 :=
      (Nat.length_toDigits_le_iff (by decide) more).2 (Nat.lt_of_not_ge less)
    omega

/-- The exponent of the leading digit of a quotient. -/
theorem leadingExponent_bounds {num den : Nat} (hnum : 0 < num) (hden : 0 < den) :
    10 ^ leadingExponent num den ≤ quotient (num, den) ∧
      quotient (num, den) < 10 ^ (leadingExponent num den + 1) := by
  have some : ∀ n, 0 < decimalLength n := fun n => List.length_pos_iff.2 Nat.toDigits_ne_nil
  have den' : (0 : ℚ) < den := Nat.cast_pos.2 hden
  unfold leadingExponent quotient
  split
  next whole =>
    have low := tenTo_decimalLength_le (Nat.div_pos whole hden)
    have high := lt_tenTo_decimalLength (num / den)
    obtain ⟨l, hl⟩ : ∃ l, decimalLength (num / den) = l + 1 :=
      ⟨_, (Nat.succ_pred_eq_of_pos (some _)).symm⟩
    rw [hl, Nat.add_sub_cancel, Nat.le_div_iff_mul_le hden] at low
    rw [hl, Nat.div_lt_iff_lt_mul hden] at high
    rw [hl, Nat.cast_succ, add_sub_cancel_right, le_div_iff₀ den', div_lt_iff₀ den']
    constructor
    · exact_mod_cast low
    · exact_mod_cast high
  next part =>
    have pos : 0 < (den - 1) / num := Nat.div_pos (by omega) hnum
    have low := tenTo_decimalLength_le pos
    have high := lt_tenTo_decimalLength ((den - 1) / num)
    obtain ⟨l, hl⟩ : ∃ l, decimalLength ((den - 1) / num) = l + 1 :=
      ⟨_, (Nat.succ_pred_eq_of_pos (some _)).symm⟩
    rw [hl, Nat.add_sub_cancel, Nat.le_div_iff_mul_le hnum] at low
    rw [hl, Nat.div_lt_iff_lt_mul hnum] at high
    have high' : den ≤ 10 ^ (l + 1) * num := by omega
    have low' : 10 ^ l * num < den := by omega
    have exponent : -((l + 1 : Nat) : Int) + 1 = -l := by omega
    rw [hl, exponent, zpow_neg, zpow_neg, zpow_natCast, zpow_natCast, le_div_iff₀ den',
      div_lt_iff₀ den', inv_mul_le_iff₀ (by positivity), lt_inv_mul_iff₀ (by positivity)]
    constructor
    · exact_mod_cast high'
    · exact_mod_cast low'

/-! ## The shortest decimal -/

/-- The significand and the exponent of a finite double are bounded, and only the greatest double
has the greatest of both. -/
theorem parts_bounds {x : Double} (finite : x.isFinite = true) :
    (BinaryFormat.double.parts x.magnitude).1 < 2 ^ 53 ∧
      (BinaryFormat.double.parts x.magnitude).2 ≤ 971 ∧
      (x.magnitude ≠ BinaryFormat.double.infinity - 1 →
        (BinaryFormat.double.parts x.magnitude).2 = 971 →
        (BinaryFormat.double.parts x.magnitude).1 ≤ 2 ^ 53 - 2) := by
  have step : twoTo (BinaryFormat.double.precision - 1) = 2 ^ 52 := rfl
  have least : BinaryFormat.double.leastExponent = 1074 := rfl
  have infinite : BinaryFormat.double.infinity = 2047 * 2 ^ 52 := rfl
  have below : x.magnitude < 2047 * 2 ^ 52 := of_decide_eq_true finite
  unfold BinaryFormat.parts
  rw [step, least, infinite]
  dsimp only
  split <;> refine ⟨?_, ?_, ?_⟩ <;> dsimp only <;> omega

theorem parts_pos {x : Double} (nonzero : x.isZero = false) :
    0 < (BinaryFormat.double.parts x.magnitude).1 := by
  have pos : x.magnitude ≠ 0 := by simpa [isZero] using nonzero
  have step : twoTo (BinaryFormat.double.precision - 1) = 2 ^ 52 := rfl
  unfold BinaryFormat.parts
  rw [step]
  dsimp only
  split <;> dsimp only <;> omega

/-- The basin of a double reaches half a unit up, and half a unit or a quarter of one down. -/
theorem exists_basin (x : Double) :
    ∃ scale den : Nat, 0 < den ∧
      (scale : ℚ) * 4 = 2 ^ (BinaryFormat.double.parts x.magnitude).2 * den ∧
      ∃ down closed, (down = 2 ∨ down = 1 ∧ (BinaryFormat.double.parts x.magnitude).1 = 2 ^ 52) ∧
        x.basin =
          { low := (4 * (BinaryFormat.double.parts x.magnitude).1 - down) * scale
            value := 4 * (BinaryFormat.double.parts x.magnitude).1 * scale
            high := (4 * (BinaryFormat.double.parts x.magnitude).1 + 2) * scale
            den := den
            closed := closed } := by
  unfold basin
  generalize BinaryFormat.double.parts x.magnitude = p
  obtain ⟨m, e⟩ := p
  dsimp only
  have down : (if m == twoTo 52 && decide (-1074 < e) then 1 else 2) = 2 ∨
      (if m == twoTo 52 && decide (-1074 < e) then 1 else 2) = 1 ∧ m = 2 ^ 52 := by
    split
    next narrow =>
      simp only [Bool.and_eq_true, beq_iff_eq] at narrow
      exact .inr ⟨rfl, narrow.1⟩
    next => exact .inl rfl
  generalize (if m == twoTo 52 && decide (-1074 < e) then 1 else 2) = d at down ⊢
  by_cases up : 0 ≤ e
  · obtain ⟨k, rfl⟩ := Int.eq_ofNat_of_zero_le up
    refine ⟨twoTo k, 4, by decide, ?_, d, _, down, by rw [if_pos up, Int.toNat_natCast]⟩
    simp [cast_twoTo]
  · obtain ⟨k, rfl⟩ : ∃ j : Nat, e = -j := ⟨(-e).toNat, by omega⟩
    refine ⟨1, 4 * twoTo k, Nat.mul_pos (by decide) (twoTo_pos k), ?_, d, _, down, by
      rw [if_neg up, Int.neg_neg, Int.toNat_natCast]⟩
    simp [cast_twoTo]
    field_simp

section

variable {scale den : Nat} {e : Int}

theorem scale_pos (hden : 0 < den) (unit : (scale : ℚ) * 4 = 2 ^ e * den) : 0 < scale := by
  rw [← Nat.cast_pos (α := ℚ)]
  have : (0 : ℚ) < 2 ^ e * den := mul_pos (by positivity) (Nat.cast_pos.2 hden)
  linarith

theorem quotient_scaled (hden : 0 < den) (unit : (scale : ℚ) * 4 = 2 ^ e * den) (m : Nat) :
    quotient (4 * m * scale, den) = m * 2 ^ e := by
  rw [quotient, div_eq_iff (Nat.cast_pos.2 hden).ne', mul_assoc (m : ℚ), ← unit]
  push_cast
  ring

end

theorem stripZeros_spec (n d : Nat) (k : Int) (pos : 0 < d) :
    0 < (stripZeros n (d, k)).1 ∧ (stripZeros n (d, k)).1 ≤ d ∧
      decimal (stripZeros n (d, k)).1 (stripZeros n (d, k)).2 = decimal d k := by
  induction n generalizing d k with
  | zero => exact ⟨pos, Nat.le_refl _, rfl⟩
  | succ n ih =>
    rw [stripZeros]
    split
    next zero =>
      obtain ⟨c, rfl⟩ := Nat.dvd_of_mod_eq_zero zero
      have whole : 10 * c / 10 = c := by omega
      obtain ⟨pos', le, same⟩ := ih c (k + 1) (by omega)
      rw [whole]
      refine ⟨pos', by omega, same.trans ?_⟩
      rw [decimal, decimal, zpow_add_one₀ (by norm_num)]
      push_cast
      ring
    next => exact ⟨pos, Nat.le_refl _, rfl⟩

/-- On the grid of seventeen digits there is a decimal in the basin. -/
theorem exists_nearest_seventeen {x : Double} (finite : x.isFinite = true)
    (nonzero : x.isZero = false) :
    ∃ d, x.basin.nearest (leadingExponent x.basin.value x.basin.den - (16 : Nat)) = some d := by
  obtain ⟨short, -, -⟩ := parts_bounds finite
  have pos := parts_pos nonzero
  obtain ⟨scale, den, hden, unit, down, closed, hdown, basin⟩ := exists_basin x
  generalize BinaryFormat.double.parts x.magnitude = p at *
  obtain ⟨m, e⟩ := p
  dsimp only at *
  have scale_pos := scale_pos hden unit
  have leading := (leadingExponent_bounds (Nat.mul_pos (by omega : 0 < 4 * m) scale_pos) hden).1
  rw [basin]
  dsimp only
  generalize leadingExponent (4 * m * scale) den = l at *
  have le : (4 * m - down) * scale ≤ 4 * m * scale := Nat.mul_le_mul_right _ (Nat.sub_le _ _)
  have lt : 4 * m * scale < (4 * m + 2) * scale := Nat.mul_lt_mul_of_pos_right (by omega) scale_pos
  apply Basin.exists_nearest hden le lt
  -- The leading power of ten has ten to the sixteenth steps of the grid, and a basin is wider than
  -- the same part of its value.
  have power : (10 : ℚ) ^ l = 10 ^ (l - (16 : Nat)) * 10 ^ 16 := by
    rw [← zpow_natCast, ← zpow_add₀ (by norm_num), Int.sub_add_cancel]
  generalize (10 : ℚ) ^ (l - (16 : Nat)) = step at power ⊢
  have grid : step * 10 ^ 16 * den ≤ ((4 * m * scale : Nat) : ℚ) := by
    rwa [power, quotient, le_div_iff₀ (Nat.cast_pos.2 hden)] at leading
  have wide : 4 * m * scale < (2 + down) * 10 ^ 16 * scale :=
    Nat.mul_lt_mul_of_pos_right (by omega) scale_pos
  have width : (4 * m + 2) * scale = (4 * m - down) * scale + (2 + down) * scale := by
    rw [← Nat.add_mul]
    congr 1
    omega
  have wide' := (Nat.cast_lt (α := ℚ)).2 wide
  rw [width]
  push_cast at grid wide' ⊢
  linarith

/-- On a grid with at most seventeen digits up to some power of ten, there are fewer than twice as
many points up to twice that power. -/
theorem lt_of_decimal_lt {d : Nat} {k l : Int} (below : decimal d k < 2 * 10 ^ (l + 1))
    (fine : l - 16 ≤ k) : d < 2 * 10 ^ 17 := by
  have step : (10 : ℚ) ^ (l + 1) ≤ 10 ^ k * 10 ^ 17 := by
    rw [← zpow_natCast, ← zpow_add₀ (by norm_num)]
    exact zpow_le_zpow_right₀ (by norm_num) (by push_cast; omega)
  have grid : (0 : ℚ) < 10 ^ k := by positivity
  have bound : (d : ℚ) < 2 * 10 ^ 17 := by
    rw [← mul_lt_mul_iff_of_pos_right grid]
    unfold decimal at below
    linarith
  exact_mod_cast bound

/-- The shortest decimal has few enough digits for a significand of 64 bits and lies at most half a
unit above the double. -/
theorem shortest_bounds {x : Double} (finite : x.isFinite = true) (nonzero : x.isZero = false) :
    0 < x.shortest.1 ∧ x.shortest.1 < twoTo 64 ∧
      decimal x.shortest.1 x.shortest.2 ≤ ((BinaryFormat.double.parts x.magnitude).1 + 1 / 2) *
        2 ^ (BinaryFormat.double.parts x.magnitude).2 := by
  have pos := parts_pos nonzero
  obtain ⟨inside, fine, -⟩ :=
    Basin.contains_search (by decide : 16 < 17) (exists_nearest_seventeen finite nonzero)
  obtain ⟨scale, den, hden, unit, down, closed, hdown, basin⟩ := exists_basin x
  show 0 < (stripZeros 17 (x.basin.search 17 _)).1 ∧ (stripZeros 17 (x.basin.search 17 _)).1 < _ ∧
    decimal (stripZeros 17 (x.basin.search 17 _)).1 (stripZeros 17 (x.basin.search 17 _)).2 ≤ _
  generalize x.basin.search 17 (leadingExponent x.basin.value x.basin.den) = r at *
  obtain ⟨d, k⟩ := r
  obtain ⟨low, high⟩ := Basin.bounds_of_contains inside
  rw [basin] at low high fine
  generalize BinaryFormat.double.parts x.magnitude = p at *
  obtain ⟨m, e⟩ := p
  dsimp only at *
  have scale_pos := scale_pos hden unit
  have hd : 0 < d := by
    by_contra zero
    obtain rfl : d = 0 := by omega
    have : 0 < (4 * m - down) * scale := Nat.mul_pos (by omega) scale_pos
    rw [decimal, Nat.cast_zero, zero_mul, zero_mul, ← Nat.cast_zero, Nat.cast_le] at low
    omega
  have below : decimal d k ≤ (m + 1 / 2) * 2 ^ e := by
    rw [← mul_le_mul_iff_of_pos_right (Nat.cast_pos.2 hden), mul_assoc, ← unit]
    push_cast at high
    linarith
  have small : d < twoTo 64 := by
    have leading := (leadingExponent_bounds (Nat.mul_pos (by omega : 0 < 4 * m) scale_pos) hden).2
    generalize leadingExponent (4 * m * scale) den = l at leading fine
    have one : (1 : ℚ) ≤ m := by exact_mod_cast pos
    have unit_pos : (0 : ℚ) < 2 ^ e := by positivity
    have twice : decimal d k < 2 * 10 ^ (l + 1) := by
      rw [quotient_scaled hden unit] at leading
      nlinarith
    have bound := lt_of_decimal_lt twice fine
    show d < 2 ^ 64
    omega
  obtain ⟨pos', le, same⟩ := stripZeros_spec 17 d k hd
  exact ⟨pos', Nat.lt_of_le_of_lt le small, same.trans_le below⟩

/-- No double has a leading digit beyond the place of the greatest double's. -/
theorem leading_shortest_lt {x : Double} (finite : x.isFinite = true) (nonzero : x.isZero = false) :
    x.shortest.2 + decimalLength x.shortest.1 - 1 < 309 := by
  obtain ⟨pos, -, below⟩ := shortest_bounds finite nonzero
  obtain ⟨short, top, -⟩ := parts_bounds finite
  generalize x.shortest = p at *
  obtain ⟨d, k⟩ := p
  dsimp only at *
  have significand : ((BinaryFormat.double.parts x.magnitude).1 : ℚ) + 1 ≤ 2 ^ 53 := by
    exact_mod_cast short
  have digits : (10 : ℚ) ^ (decimalLength d - 1) ≤ d := by
    exact_mod_cast tenTo_decimalLength_le pos
  have length : 0 < decimalLength d := List.length_pos_iff.2 Nat.toDigits_ne_nil
  have power : (2 : ℚ) ^ 53 * 2 ^ (971 : Int) < 10 ^ (309 : Int) := by
    have whole : twoTo 53 * twoTo 971 < tenTo 309 := by decide +kernel
    rwa [← Nat.cast_lt (α := ℚ), Nat.cast_mul, cast_twoTo, cast_twoTo, cast_tenTo, ← zpow_natCast,
      ← zpow_natCast, ← zpow_natCast] at whole
  rw [← zpow_lt_zpow_iff_right₀ (by norm_num : (1 : ℚ) < 10)]
  calc (10 : ℚ) ^ (k + decimalLength d - 1) = 10 ^ (decimalLength d - 1) * 10 ^ k := by
        rw [← zpow_natCast, ← zpow_add₀ (by norm_num)]
        congr 1
        omega
    _ ≤ decimal d k := mul_le_mul_of_nonneg_right digits (by positivity)
    _ ≤ ((BinaryFormat.double.parts x.magnitude).1 + 1 / 2) *
          2 ^ (BinaryFormat.double.parts x.magnitude).2 := below
    _ ≤ 2 ^ 53 * 2 ^ (971 : Int) :=
        mul_le_mul (by linarith) (zpow_le_zpow_right₀ one_le_two top) (by positivity)
          (by positivity)
    _ < 10 ^ (309 : Int) := power

/-- Half way between the two greatest doubles. -/
def limit : Nat :=
  (2 ^ 54 - 3) * 2 ^ 970

/-- The digits of the greatest double. -/
theorem shortest_greatest {x : Double} (h : x.magnitude = BinaryFormat.double.infinity - 1) :
    x.shortest = (17976931348623157, 292) := by
  unfold shortest basin
  rw [h]
  decide +kernel

/-- The shortest decimal of every other double lies below the greatest by half a unit. -/
theorem shortest_le_limit {x : Double} (finite : x.isFinite = true) (nonzero : x.isZero = false)
    (h : x.magnitude ≠ BinaryFormat.double.infinity - 1) :
    decimal x.shortest.1 x.shortest.2 ≤ limit := by
  obtain ⟨-, -, below⟩ := shortest_bounds finite nonzero
  obtain ⟨short, top, next⟩ := parts_bounds finite
  refine below.trans ?_
  have next := next h
  generalize BinaryFormat.double.parts x.magnitude = p at *
  obtain ⟨m, e⟩ := p
  dsimp only at *
  have limit_eq : (limit : ℚ) = (2 ^ 54 - 3) * 2 ^ (970 : Int) := by
    rw [limit, Nat.cast_mul, Nat.cast_pow, zpow_ofNat]
    norm_num
  have pos : (0 : ℚ) < 2 ^ (970 : Int) := by positivity
  rw [limit_eq]
  rcases Int.lt_or_eq_of_le top with lower | rfl
  · have significand : (m : ℚ) + 1 ≤ 2 ^ 53 := by exact_mod_cast short
    have unit : (2 : ℚ) ^ e ≤ 2 ^ (970 : Int) := zpow_le_zpow_right₀ one_le_two (by omega)
    calc (m + 1 / 2) * (2 : ℚ) ^ e ≤ 2 ^ 53 * 2 ^ (970 : Int) :=
          mul_le_mul (by linarith) unit (by positivity) (by positivity)
      _ ≤ (2 ^ 54 - 3) * 2 ^ (970 : Int) := mul_le_mul_of_nonneg_right (by norm_num) pos.le
  · have significand : (m : ℚ) + 2 ≤ 2 ^ 53 := by
      have : m + 2 ≤ 2 ^ 53 := by
        have := next rfl
        omega
      exact_mod_cast this
    have unit : (2 : ℚ) ^ (971 : Int) = 2 ^ (970 : Int) * 2 := zpow_add_one₀ two_ne_zero 970
    calc (m + 1 / 2) * (2 : ℚ) ^ (971 : Int) = (2 * m + 1) * 2 ^ (970 : Int) := by
          rw [unit]
          ring
      _ ≤ (2 ^ 54 - 3) * 2 ^ (970 : Int) := mul_le_mul_of_nonneg_right (by linarith) pos.le

end Double

end SqlBuilder
