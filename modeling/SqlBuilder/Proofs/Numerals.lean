import SqlBuilder.Json.Compact
import SqlBuilder.Json.Scan
import SqlBuilder.Proofs.Decimals
import SqlBuilder.Proofs.Digits

/-!
# Written numbers are numerals in range

The text of a number is scanned as one number, whatever follows it (`Number.scanNumeral_write`).
An integer is read as itself.  The reader scales a double by powers of ten and rounds at each step,
so the number that it reads may be a neighbour of the one that was written; it is always a finite
one (`exists_number_writeDouble`), since scaling keeps the order of doubles and no decimal is
greater than that of the greatest of them, which is finite when read.  `Double.Recovered` holds of
the doubles that are read as themselves.
-/

namespace SqlBuilder

namespace Json

/-! ## Numerals -/

theorem exists_of_bind_eq_ok {ε α β : Type} {x : Except ε α} {f : α → Except ε β} {b : β}
    (h : x >>= f = .ok b) : ∃ a, x = .ok a ∧ f a = .ok b := by
  cases x with
  | error e => cases h
  | ok a => exact ⟨a, rfl, h⟩

/-- Whether a text does not go on with anything that could belong to a numeral. -/
def EndsNumeral (cs : List Char) : Prop :=
  EndsDigits cs ∧ cs.head? ≠ some '.' ∧ cs.head? ≠ some 'e' ∧ cs.head? ≠ some 'E'

theorem scanDigits_append {cs run left rest : List Char} (h : scanDigits cs = .ok (run, left))
    (ends : EndsDigits rest) : scanDigits (cs ++ rest) = .ok (run, left ++ rest) := by
  have same : (cs ++ rest).takeWhile Char.isDigit = cs.takeWhile Char.isDigit :=
    takeWhile_isDigit_append cs ends
  have within : (cs.takeWhile Char.isDigit).length ≤ cs.length :=
    (List.takeWhile_prefix _).length_le
  simp only [scanDigits, same, List.drop_append_of_le_length within] at h ⊢
  by_cases empty : (cs.takeWhile Char.isDigit).isEmpty
  · rw [if_pos empty] at h
    cases h
  · rw [if_neg empty] at h ⊢
    cases h
    rfl

theorem scanDigits_digits {ds : List Char} (digits : ∀ c ∈ ds, c.isDigit) (some : ds ≠ []) :
    scanDigits ds = .ok (ds, []) := by
  have all : ds.takeWhile Char.isDigit = ds := List.takeWhile_eq_self_iff.2 digits
  have nonempty : ds.isEmpty = false := by simpa using some
  simp [scanDigits, all, nonempty]

theorem scanFraction_of_head? {cs : List Char} (h : cs.head? ≠ some '.') :
    scanFraction cs = .ok ([], cs) := by
  unfold scanFraction
  split
  · simp at h
  · rfl

theorem scanFraction_append {cs run left rest : List Char}
    (h : scanFraction cs = .ok (run, left)) (ends : EndsNumeral rest) :
    scanFraction (cs ++ rest) = .ok (run, left ++ rest) := by
  by_cases point : cs.head? = some '.'
  · obtain ⟨cs, rfl⟩ : ∃ cs', cs = '.' :: cs' := List.head?_eq_some_iff.1 point
    have digits : scanDigits cs = .ok (run, left) := h
    exact scanDigits_append digits ends.1
  · rw [scanFraction_of_head? point] at h
    cases h
    apply scanFraction_of_head?
    cases cs with
    | nil => exact ends.2.1
    | cons c cs => exact point

theorem scanExponentDigits_append {down : Bool} {cs left rest : List Char}
    {e : Option (Bool × List Char)} (h : scanExponentDigits down cs = .ok (e, left))
    (ends : EndsDigits rest) :
    scanExponentDigits down (cs ++ rest) = .ok (e, left ++ rest) := by
  unfold scanExponentDigits at h ⊢
  cases digits : scanDigits cs with
  | error f =>
    rw [digits] at h
    cases h
  | ok p =>
    rw [digits] at h
    cases h
    rw [scanDigits_append digits ends]
    rfl

/-- The digits of an exponent, after their sign if there is one. -/
def scanSignedDigits : List Char → Except Fault (Option (Bool × List Char) × List Char)
  | '+' :: rest => scanExponentDigits false rest
  | '-' :: rest => scanExponentDigits true rest
  | cs => scanExponentDigits false cs

theorem scanExponent_cons (c : Char) (cs : List Char) :
    scanExponent (c :: cs) =
      if c = 'e' || c = 'E' then scanSignedDigits cs else .ok (none, c :: cs) := by
  show (if c = 'e' || c = 'E' then _ else _) = _
  congr 1
  split
  · rfl
  · rfl
  · next plus minus => simp [scanSignedDigits]

theorem scanSignedDigits_append {cs left rest : List Char} {e : Option (Bool × List Char)}
    (h : scanSignedDigits cs = .ok (e, left)) (ends : EndsDigits rest) :
    scanSignedDigits (cs ++ rest) = .ok (e, left ++ rest) := by
  cases cs with
  | nil => cases h
  | cons c cs =>
    by_cases plus : c = '+'
    · subst plus
      have digits : scanExponentDigits false cs = .ok (e, left) := h
      exact scanExponentDigits_append digits ends
    by_cases minus : c = '-'
    · subst minus
      have digits : scanExponentDigits true cs = .ok (e, left) := h
      exact scanExponentDigits_append digits ends
    have unsigned : ∀ ds, scanSignedDigits (c :: ds) = scanExponentDigits false (c :: ds) := by
      intro ds
      simp [scanSignedDigits, plus, minus]
    rw [unsigned] at h
    rw [List.cons_append, unsigned]
    exact scanExponentDigits_append h ends

theorem scanExponent_of_head? {cs : List Char} (h : cs.head? ≠ some 'e' ∧ cs.head? ≠ some 'E') :
    scanExponent cs = .ok (none, cs) := by
  cases cs with
  | nil => rfl
  | cons c cs =>
    have letter : ¬(c = 'e' || c = 'E') := by simpa using h
    rw [scanExponent_cons, if_neg letter]

theorem scanExponent_append {cs left rest : List Char} {e : Option (Bool × List Char)}
    (h : scanExponent cs = .ok (e, left)) (ends : EndsNumeral rest) :
    scanExponent (cs ++ rest) = .ok (e, left ++ rest) := by
  cases cs with
  | nil =>
    cases h
    exact scanExponent_of_head? ends.2.2
  | cons c cs =>
    rw [scanExponent_cons] at h
    rw [List.cons_append, scanExponent_cons]
    by_cases letter : (c = 'e' || c = 'E') = true
    · rw [if_pos letter] at h ⊢
      exact scanSignedDigits_append h ends.1
    · rw [if_neg letter] at h ⊢
      cases h
      rfl

/-- The numeral at the head of a text, after its sign. -/
def scanUnsigned (negative : Bool) (cs : List Char) : Except Fault (Numeral × List Char) := do
  let (whole, cs) ← scanDigits cs
  if 1 < whole.length && whole.head? == some '0' then .error .malformed
  else
    let (fraction, cs) ← scanFraction cs
    let (exponent, cs) ← scanExponent cs
    return ({ negative, whole, fraction, exponent }, cs)

theorem scanNumeral_minus (cs : List Char) : scanNumeral ('-' :: cs) = scanUnsigned true cs := rfl

theorem scanNumeral_of_head? {cs : List Char} (h : cs.head? ≠ some '-') :
    scanNumeral cs = scanUnsigned false cs := by
  unfold scanNumeral
  split
  next heq =>
    split at heq
    · simp at h
    · cases heq
      rfl

theorem scanUnsigned_append {negative : Bool} {cs left rest : List Char} {s : Numeral}
    (h : scanUnsigned negative cs = .ok (s, left)) (ends : EndsNumeral rest) :
    scanUnsigned negative (cs ++ rest) = .ok (s, left ++ rest) := by
  obtain ⟨⟨run, cs₁⟩, whole, h⟩ := exists_of_bind_eq_ok h
  by_cases zero : (decide (1 < run.length) && run.head? == some '0') = true
  · simp only [zero] at h
    cases h
  simp only [zero] at h
  obtain ⟨⟨run', cs₂⟩, fraction, h⟩ := exists_of_bind_eq_ok h
  obtain ⟨⟨e, cs₃⟩, exponent, h⟩ := exists_of_bind_eq_ok h
  cases h
  simp [scanUnsigned, scanDigits_append whole ends.1, scanFraction_append fraction ends,
    scanExponent_append exponent ends, bind, Except.bind, zero, pure, Except.pure]

theorem scanNumeral_append {cs rest : List Char} {s : Numeral} (h : scanNumeral cs = .ok (s, []))
    (ends : EndsNumeral rest) : scanNumeral (cs ++ rest) = .ok (s, rest) := by
  by_cases minus : cs.head? = some '-'
  · obtain ⟨cs, rfl⟩ : ∃ cs', cs = '-' :: cs' := List.head?_eq_some_iff.1 minus
    rw [scanNumeral_minus] at h
    rw [List.cons_append, scanNumeral_minus]
    exact scanUnsigned_append h ends
  · rw [scanNumeral_of_head? minus] at h
    have minus' : (cs ++ rest).head? ≠ some '-' := by
      cases cs with
      | nil => cases h
      | cons c cs => exact minus
    rw [scanNumeral_of_head? minus']
    exact scanUnsigned_append h ends

/-- The first character of a numeral shows that it is one. -/
theorem exists_startsNumeral {cs : List Char} {p : Numeral × List Char}
    (h : scanNumeral cs = .ok p) : ∃ c cs', cs = c :: cs' ∧ startsNumeral c := by
  cases cs with
  | nil => cases h
  | cons c cs =>
    refine ⟨c, cs, rfl, ?_⟩
    by_cases minus : c = '-'
    · subst minus
      rfl
    have head : (c :: cs).head? ≠ some '-' := by simpa using minus
    rw [scanNumeral_of_head? head] at h
    obtain ⟨p, whole, -⟩ := exists_of_bind_eq_ok h
    by_cases digit : c.isDigit
    · simp [startsNumeral, digit]
    · simp [scanDigits, digit] at whole

/-! ### Numbers -/

/-- The reader of numbers gives a number back from its own text. -/
def Number.Recovered (n : Number) : Prop :=
  ∃ s, scanNumeral n.write = .ok (s, []) ∧ s.value = some n

theorem le_ofDigitChars (cs : List Char) (n : Nat) : n ≤ Nat.ofDigitChars 10 cs n := by
  rw [Nat.ofDigitChars_eq_ofDigitChars_zero]
  have := Nat.le_mul_of_pos_left n (Nat.pow_pos (n := cs.length) (by decide : 0 < 10))
  omega

theorem Numeral.gather_of_lt (cs : List Char) {n : Nat}
    (h : Nat.ofDigitChars 10 cs n < twoTo 64) :
    gather n cs = (Nat.ofDigitChars 10 cs n, []) := by
  induction cs generalizing n with
  | nil => rfl
  | cons c cs ih =>
    rw [Nat.ofDigitChars_cons] at h ⊢
    have fits : 10 * n + digitValue c < twoTo 64 :=
      Nat.lt_of_le_of_lt (le_ofDigitChars cs _) h
    rw [gather, if_pos fits]
    exact ih h

/-- The digits of a number make up a numeral without fraction and exponent. -/
theorem scanUnsigned_toDigits (negative : Bool) (n : Nat) :
    scanUnsigned negative (Nat.toDigits 10 n) =
      .ok (⟨negative, Nat.toDigits 10 n, [], none⟩, []) := by
  have digits : ∀ c ∈ Nat.toDigits 10 n, c.isDigit := fun c => isDigit_of_mem_toDigits
  have leading : ¬(decide (1 < (Nat.toDigits 10 n).length) &&
      (Nat.toDigits 10 n).head? == some '0') = true := by
    rcases Nat.eq_zero_or_pos n with rfl | pos
    · decide
    · have := head?_toDigits_ne_zero pos
      simp [this]
  simp only [scanUnsigned, scanDigits_digits digits Nat.toDigits_ne_nil, bind, Except.bind, leading]
  rfl

theorem Number.recovered_integer (i : Int) (low : -9223372036854775808 ≤ i)
    (high : i < 18446744073709551616) : (Number.integer i low high).Recovered := by
  have gathered : Numeral.gather 0 (Nat.toDigits 10 i.natAbs) = (i.natAbs, []) := by
    have value := Nat.ofDigitChars_ten_toDigits (n := i.natAbs)
    have fits : i.natAbs < twoTo 64 := by
      show i.natAbs < 2 ^ 64
      omega
    rw [Numeral.gather_of_lt _ (value.symm ▸ fits), value]
  refine ⟨⟨decide (i < 0), Nat.toDigits 10 i.natAbs, [], none⟩, ?_, ?_⟩
  · by_cases neg : i < 0
    · show scanNumeral (writeInt i) = _
      rw [writeInt, if_pos neg, scanNumeral_minus, scanUnsigned_toDigits, decide_eq_true neg]
    · have head : (Nat.toDigits 10 i.natAbs).head? ≠ some '-' := by
        intro minus
        have := isDigit_of_mem_toDigits (List.mem_of_head? minus)
        revert this
        decide
      show scanNumeral (writeInt i) = _
      rw [writeInt, if_neg neg, scanNumeral_of_head? head, scanUnsigned_toDigits,
        decide_eq_false neg]
  · have inRange : ¬(decide (i < 0) && (decide (i.natAbs = 0) || decide (twoTo 63 < i.natAbs))) =
        true := by
      show ¬(decide (i < 0) && (decide (i.natAbs = 0) || decide (2 ^ 63 < i.natAbs))) = true
      simp
      omega
    have signed : (if decide (i < 0) = true then -(i.natAbs : Int) else i.natAbs) = i := by
      by_cases neg : i < 0
      · rw [if_pos (decide_eq_true neg)]
        omega
      · rw [if_neg (by simpa using neg)]
        omega
    simp only [Numeral.value, gathered, List.isEmpty_nil, Option.isNone_none, Bool.and_self]
    rw [if_pos trivial, if_neg inRange, signed, Numeral.integer?, dif_pos ⟨low, high⟩]

end Json

/-- A double is finite, and the reader of numbers gives it back from its own text. -/
def Double.Recovered (x : Double) : Prop :=
  ∃ finite : x.isFinite = true, (Json.Number.double x finite).Recovered

namespace Json

/-! ### Doubles -/

namespace Numeral

theorem gather_lt {n : Nat} (h : n < twoTo 64) (cs : List Char) : (gather n cs).1 < twoTo 64 := by
  induction cs generalizing n with
  | nil => exact h
  | cons c cs ih =>
    rw [gather]
    split
    next fits => exact ih fits
    next => exact h

/-- Dividing a significand by powers of ten ends at a finite number. -/
theorem exists_scaled_down {n : Nat} (small : n < twoTo 64) {e : Int} (down : e ≤ 0) :
    ∃ y, scaled n e = some y ∧ y.isFinite = true := by
  have dividend := Double.magnitude_ofInt_mono small.le
  have finite : (Double.ofInt (twoTo 64)).isFinite = true := by decide +kernel
  have again : (Double.ofRatio false (Double.ofInt (twoTo 64)).ratio.1
      (Double.ofInt (twoTo 64)).ratio.2).magnitude = (Double.ofInt (twoTo 64)).magnitude := by
    decide +kernel
  have smaller : ∀ {x : Double}, x.magnitude ≤ (Double.ofInt (twoTo 64)).magnitude →
      ∀ k, (x.overTenPow k).magnitude ≤ (Double.ofInt (twoTo 64)).magnitude := fun h k =>
    again ▸ Double.magnitude_overTenPow_le h k
  unfold scaled
  dsimp only
  split
  next up =>
    obtain rfl : e = 0 := Int.le_antisymm down up
    have whole := Double.magnitude_timesTenPow_mono dividend (Nat.le_refl 0)
    exact ⟨_, rfl, Double.isFinite_of_le whole (by decide +kernel)⟩
  next =>
    split
    next => exact ⟨_, rfl, Double.isFinite_of_le (smaller dividend _) finite⟩
    next =>
      split <;>
        exact ⟨_, rfl, Double.isFinite_of_le (smaller (smaller dividend _) _) finite⟩

/-- A significand times a power of ten is finite up to the limit.  Significands below two to the
power 64 come near the limit only with the last twenty powers. -/
theorem exists_scaled_up {n k : Nat} (small : n < twoTo 64) (hk : k < 309)
    (below : n * 10 ^ k ≤ Double.limit) : ∃ y, scaled n k = some y ∧ y.isFinite = true := by
  have lower : ((Double.ofInt (twoTo 64)).timesTenPow 288).isFinite = true := by decide +kernel
  have upper : ∀ j < 20,
      ((Double.ofInt (Double.limit / 10 ^ (289 + j) : Nat)).timesTenPow (289 + j)).isFinite =
        true := by decide +kernel
  have finite : ((Double.ofInt n).timesTenPow k).isFinite = true := by
    rcases Nat.lt_or_ge k 289 with few | many
    · have order := Double.magnitude_ofInt_mono small.le
      exact Double.isFinite_of_le
        (Double.magnitude_timesTenPow_mono order (Nat.le_of_lt_succ few)) lower
    · obtain ⟨j, rfl⟩ := Nat.exists_eq_add_of_le many
      have le := (Nat.le_div_iff_mul_le (Nat.pow_pos (by decide))).2 below
      have order := Double.magnitude_ofInt_mono le
      exact Double.isFinite_of_le (Double.magnitude_timesTenPow_mono order (Nat.le_refl _))
        (upper j (by omega))
  have whole : 0 ≤ (k : Int) := Int.natCast_nonneg k
  have within : (k : Int).natAbs ≤ 308 := by omega
  refine ⟨_, ?_, finite⟩
  rw [scaled, if_pos whole, if_pos within, Int.natAbs_natCast]

/-- The reader of numbers scales the shortest decimal of a double to a finite number. -/
theorem exists_scaled_shortest {x : Double} (finite : x.isFinite = true)
    (nonzero : x.isZero = false) :
    ∃ y, scaled x.shortest.1 x.shortest.2 = some y ∧ y.isFinite = true := by
  obtain ⟨pos, small, -⟩ := Double.shortest_bounds finite nonzero
  by_cases greatest : x.magnitude = BinaryFormat.double.infinity - 1
  · rw [Double.shortest_greatest greatest]
    exact ⟨_, rfl, by decide +kernel⟩
  have below := Double.shortest_le_limit finite nonzero greatest
  have leading := Double.leading_shortest_lt finite nonzero
  have length : 0 < decimalLength x.shortest.1 := List.length_pos_iff.2 Nat.toDigits_ne_nil
  generalize x.shortest = p at *
  obtain ⟨d, k⟩ := p
  rcases Int.le_total k 0 with down | up
  · exact exists_scaled_down small down
  · obtain ⟨k, rfl⟩ := Int.eq_ofNat_of_zero_le up
    have below' : d * 10 ^ k ≤ Double.limit := by
      rw [decimal, zpow_natCast] at below
      exact_mod_cast below
    exact exists_scaled_up small (by dsimp only at leading length; omega) below'

theorem exists_signed (negative : Bool) {y : Double} (finite : y.isFinite = true) :
    ∃ n, signed negative y = some n := by
  have finite' : (if negative then y.neg else y).isFinite = true := by
    split
    · exact Double.isFinite_neg finite
    · exact finite
  exact ⟨_, dif_pos finite'⟩

theorem exists_scaled_signed (negative : Bool) {o : Option Double}
    (h : ∃ y, o = some y ∧ y.isFinite = true) : ∃ n, o.bind (signed negative) = some n := by
  obtain ⟨y, rfl, finite⟩ := h
  exact exists_signed negative finite

/-- A numeral with a point and no exponent is in range if its whole part is short. -/
theorem exists_value_pointed (negative : Bool) {whole fraction : List Char}
    (short : Nat.ofDigitChars 10 whole 0 < twoTo 64) (places : fraction ≠ []) :
    ∃ n, (⟨negative, whole, fraction, none⟩ : Numeral).value = some n := by
  have kept : fraction.isEmpty = false := by simpa using places
  simp only [value, gather_of_lt _ short, kept, Bool.and_false, Bool.false_and, Bool.false_eq_true,
    if_false, withExponent]
  apply exists_scaled_signed
  exact exists_scaled_down (gather_lt short fraction) (by simp)

end Numeral

theorem ofDigitChars_lt {cs : List Char} (digits : ∀ c ∈ cs, c.isDigit) (n : Nat) :
    Nat.ofDigitChars 10 cs n < (n + 1) * 10 ^ cs.length := by
  induction cs generalizing n with
  | nil => simp [Nat.ofDigitChars_nil]
  | cons c cs ih =>
    have range := toNat_range_of_isDigit (digits c List.mem_cons_self)
    have zero : '0'.toNat = 48 := rfl
    rw [Nat.ofDigitChars_cons, List.length_cons, Nat.pow_succ']
    calc Nat.ofDigitChars 10 cs (10 * n + (c.toNat - '0'.toNat))
        < (10 * n + (c.toNat - '0'.toNat) + 1) * 10 ^ cs.length :=
          ih (fun d hd => digits d (List.mem_cons_of_mem c hd)) _
      _ ≤ (n + 1) * 10 * 10 ^ cs.length := Nat.mul_le_mul_right _ (by omega)
      _ = (n + 1) * (10 * 10 ^ cs.length) := Nat.mul_assoc _ _ _

/-- Digits, a point and more digits make up a numeral. -/
theorem scanUnsigned_pointed (negative : Bool) {whole fraction : List Char}
    (digits : ∀ c ∈ whole, c.isDigit) (some : whole ≠ [])
    (leading : whole.length = 1 ∨ whole.head? ≠ Option.some '0')
    (places : ∀ c ∈ fraction, c.isDigit) (some' : fraction ≠ []) :
    scanUnsigned negative (whole ++ '.' :: fraction) =
      .ok (⟨negative, whole, fraction, none⟩, []) := by
  have first : scanDigits (whole ++ '.' :: fraction) = .ok (whole, [] ++ '.' :: fraction) :=
    scanDigits_append (scanDigits_digits digits some) (endsDigits_cons rfl)
  have single : ¬(decide (1 < whole.length) && whole.head? == Option.some '0') = true := by
    rcases leading with one | head
    · simp [one]
    · simp [head]
  have more : scanFraction ('.' :: fraction) = .ok (fraction, []) := scanDigits_digits places some'
  simp only [scanUnsigned, first, bind, Except.bind, single, List.nil_append, more]
  rfl

theorem scanExponent_digits (down : Bool) {ds : List Char} (digits : ∀ c ∈ ds, c.isDigit)
    (some : ds ≠ []) :
    scanExponent ('e' :: (if down then '-' else '+') :: ds) = .ok (Option.some (down, ds), []) := by
  have scanned : ∀ b, scanExponentDigits b ds = .ok (Option.some (b, ds), []) := by
    intro b
    rw [scanExponentDigits, scanDigits_digits digits some]
    rfl
  cases down
  · exact scanned false
  · exact scanned true

/-- A digit, perhaps a point and more digits, and an exponent make up a numeral. -/
theorem scanUnsigned_exponent (negative down : Bool) {c : Char} {fraction ds cs : List Char}
    (digit : c.isDigit) (ends : EndsDigits cs)
    (places : scanFraction cs = .ok (fraction, 'e' :: (if down then '-' else '+') :: ds))
    (digits : ∀ c ∈ ds, c.isDigit) (some : ds ≠ []) :
    scanUnsigned negative (c :: cs) =
      .ok (⟨negative, [c], fraction, Option.some (down, ds)⟩, []) := by
  have one : scanDigits [c] = .ok ([c], []) :=
    scanDigits_digits (by simpa using digit) (List.cons_ne_nil _ _)
  have first : scanDigits (c :: cs) = .ok ([c], cs) := scanDigits_append one ends
  simp only [scanUnsigned, first, bind, Except.bind, places, scanExponent_digits down digits some]
  rfl

/-- The numeral of a number that is not zero, with its leading digit before the point. -/
theorem exists_value_exponent (negative down : Bool) {c : Char} {fraction : List Char} {d l : Nat}
    (written : c :: fraction = Nat.toDigits 10 d) (small : d < twoTo 64)
    (scaled : down = false → l ≤ Numeral.maxExponent ∧
      ∃ y, Numeral.scaled d (l - fraction.length) = some y ∧ y.isFinite = true) :
    ∃ n, (⟨negative, [c], fraction, some (down, Nat.toDigits 10 l)⟩ : Numeral).value = some n := by
  have all : Nat.ofDigitChars 10 fraction (Nat.ofDigitChars 10 [c] 0) = d := by
    rw [← Nat.ofDigitChars_append, List.singleton_append, written, Nat.ofDigitChars_ten_toDigits]
  have grows : Nat.ofDigitChars 10 [c] 0 ≤ d := all ▸ le_ofDigitChars fraction _
  have value : digitsValue (Nat.toDigits 10 l) = l := Nat.ofDigitChars_ten_toDigits
  have first := Numeral.gather_of_lt [c] (n := 0) (Nat.lt_of_le_of_lt grows small)
  have more := Numeral.gather_of_lt fraction (all.symm ▸ small)
  rw [all] at more
  simp only [Numeral.value, first, more, List.isEmpty_nil, Option.isNone_some, Bool.and_false,
    Bool.false_eq_true, if_false, Numeral.withExponent, value, List.length_nil, Nat.sub_zero,
    Nat.cast_zero, Int.zero_sub]
  cases down with
  | false =>
    obtain ⟨within, y, hy, finite⟩ := scaled rfl
    have exponent : (-fraction.length + l : Int) = l - fraction.length := by omega
    rw [if_pos within, if_neg Bool.false_ne_true, exponent, hy]
    exact Numeral.exists_signed negative finite
  | true =>
    split
    · exact Numeral.exists_scaled_signed negative (Numeral.exists_scaled_down small (by simp))
    · rw [Bool.or_true, if_pos rfl]
      exact Numeral.exists_signed negative (by decide +kernel)

/-- At most sixteen digits, a point and more digits make up a numeral in range. -/
theorem exists_number_pointed (negative : Bool) (whole : List Char) {fraction : List Char}
    (digits : ∀ c ∈ whole, c.isDigit) (some : whole ≠ []) (short : whole.length ≤ 16)
    (leading : whole.length = 1 ∨ whole.head? ≠ Option.some '0')
    (places : ∀ c ∈ fraction, c.isDigit) (some' : fraction ≠ []) :
    ∃ s n, scanUnsigned negative (whole ++ '.' :: fraction) = .ok (s, []) ∧
      s.value = Option.some n := by
  have power : 10 ^ whole.length ≤ 10 ^ 16 := Nat.pow_le_pow_right (by decide) short
  have below := ofDigitChars_lt digits 0
  have small : Nat.ofDigitChars 10 whole 0 < twoTo 64 := by
    show _ < 2 ^ 64
    omega
  obtain ⟨n, value⟩ := Numeral.exists_value_pointed negative small some'
  exact ⟨_, n, scanUnsigned_pointed negative digits some leading places some', value⟩

theorem isDigit_of_mem_zeros {n : Nat} {c : Char} (h : c ∈ List.replicate n '0') : c.isDigit := by
  rw [List.eq_of_mem_replicate h]
  rfl

section

variable {digits : List Char} (negative : Bool) (areDigits : ∀ c ∈ digits, c.isDigit)
  (some : digits ≠ [])

include areDigits some

/-- All digits and some zeros stand before the point, and one zero after it. -/
theorem exists_number_zerosAfter {n : Nat} (short : digits.length + n ≤ 16)
    (head : digits.head? ≠ Option.some '0') :
    ∃ s m, scanUnsigned negative (digits ++ List.replicate n '0' ++ '.' :: ['0']) = .ok (s, []) ∧
      s.value = Option.some m := by
  apply exists_number_pointed
  · intro c hc
    exact (List.mem_append.1 hc).elim (areDigits c) isDigit_of_mem_zeros
  · exact List.append_ne_nil_of_left_ne_nil some _
  · rwa [List.length_append, List.length_replicate]
  · rw [List.head?_append_of_ne_nil _ some]
    exact .inr head
  · exact fun c hc => isDigit_of_mem_zeros (n := 1) hc
  · exact List.cons_ne_nil _ _

/-- The point stands among the digits. -/
theorem exists_number_between {l : Nat} (short : l < 16) (more : l + 1 < digits.length)
    (head : digits.head? ≠ Option.some '0') :
    ∃ s m, scanUnsigned negative (digits.take (l + 1) ++ '.' :: digits.drop (l + 1)) =
      .ok (s, []) ∧ s.value = Option.some m := by
  have head' : (digits.take (l + 1)).head? = digits.head? := by simp [List.head?_take]
  apply exists_number_pointed
  · exact fun c hc => areDigits c (List.mem_of_mem_take hc)
  · intro none
    rw [none, List.head?_nil] at head'
    exact some (List.head?_eq_none_iff.1 head'.symm)
  · rw [List.length_take]
    omega
  · exact .inr (head'.symm ▸ head)
  · exact fun c hc => areDigits c (List.mem_of_mem_drop hc)
  · rw [Ne, List.drop_eq_nil_iff]
    omega

/-- All digits stand after the point, after some zeros. -/
theorem exists_number_zerosBefore (n : Nat) :
    ∃ s m, scanUnsigned negative ('0' :: '.' :: List.replicate n '0' ++ digits) = .ok (s, []) ∧
      s.value = Option.some m := by
  apply exists_number_pointed negative ['0']
  · exact fun c hc => isDigit_of_mem_zeros (n := 1) hc
  · exact List.cons_ne_nil _ _
  · decide
  · exact .inl rfl
  · intro c hc
    exact (List.mem_append.1 hc).elim isDigit_of_mem_zeros (areDigits c)
  · exact List.append_ne_nil_of_right_ne_nil _ some

end

/-- A point and digits, or nothing, before an exponent. -/
theorem scanFraction_pointed {cs : List Char} (digits : ∀ c ∈ cs, c.isDigit) (rest : List Char) :
    scanFraction ((if cs.isEmpty then [] else '.' :: cs) ++ 'e' :: rest) =
      .ok (cs, 'e' :: rest) := by
  cases cs with
  | nil => simp [scanFraction]
  | cons c cs =>
    exact scanDigits_append (scanDigits_digits digits (List.cons_ne_nil _ _)) (endsDigits_cons rfl)

/-- One digit stands before the point, or before the exponent if there are no more. -/
theorem exists_number_exponent (negative : Bool) {d : Nat} {c : Char} {cs : List Char} {l : Int}
    (written : c :: cs = Nat.toDigits 10 d) (small : d < twoTo 64) (leading : l < 309)
    (scaled : ∃ y, Numeral.scaled d (l - cs.length) = some y ∧ y.isFinite = true) :
    ∃ s n, scanUnsigned negative (c :: ((if cs.isEmpty then [] else '.' :: cs) ++
      'e' :: (if l < 0 then '-' else '+') :: Nat.toDigits 10 l.natAbs)) = .ok (s, []) ∧
        s.value = some n := by
  have digits : ∀ c' ∈ c :: cs, c'.isDigit := fun c' hc => isDigit_of_mem_toDigits (written ▸ hc)
  obtain ⟨digit, places⟩ := List.forall_mem_cons.1 digits
  have ends : ∀ rest, EndsDigits ((if cs.isEmpty then [] else '.' :: cs) ++ 'e' :: rest) := by
    intro rest
    cases cs <;> exact endsDigits_cons rfl
  obtain ⟨n, value⟩ : ∃ n, (⟨negative, [c], cs, some (decide (l < 0), Nat.toDigits 10 l.natAbs)⟩ :
      Numeral).value = some n := by
    apply exists_value_exponent negative _ written small
    intro up
    have up := of_decide_eq_false up
    have same : (l.natAbs : Int) = l := by omega
    refine ⟨?_, same ▸ scaled⟩
    show l.natAbs ≤ 2 ^ 31 - 1
    omega
  refine ⟨_, n, scanUnsigned_exponent negative (decide (l < 0)) digit (ends _) ?_
    (fun c => isDigit_of_mem_toDigits) Nat.toDigits_ne_nil, value⟩
  simp only [decide_eq_true_eq]
  exact scanFraction_pointed places _

/-- The text of a decimal is a numeral in range if the reader of numbers can scale the decimal. -/
theorem exists_number_writeDecimal (negative : Bool) {d : Nat} {k : Int} (pos : 0 < d)
    (small : d < twoTo 64) (leading : k + decimalLength d - 1 < 309)
    (scaled : ∃ y, Numeral.scaled d k = some y ∧ y.isFinite = true) :
    ∃ s n, scanUnsigned negative (writeDecimal d k) = .ok (s, []) ∧ s.value = some n := by
  have digits : ∀ c ∈ Nat.toDigits 10 d, c.isDigit := fun c => isDigit_of_mem_toDigits
  have head := head?_toDigits_ne_zero pos
  obtain ⟨c, cs, written⟩ := List.exists_cons_of_ne_nil (Nat.toDigits_ne_nil (b := 10) (n := d))
  rw [decimalLength] at leading
  unfold writeDecimal
  dsimp only
  split
  next positional =>
    simp only [isPositional, Bool.and_eq_true, decide_eq_true_eq] at positional
    split
    next => exact exists_number_zerosAfter negative digits Nat.toDigits_ne_nil (by omega) head
    split
    next =>
      exact exists_number_between negative digits Nat.toDigits_ne_nil (by omega) (by omega) head
    next => exact exists_number_zerosBefore negative digits Nat.toDigits_ne_nil _
  next =>
    rw [written] at leading ⊢
    have scale : k + (c :: cs).length - 1 - cs.length = k := by
      rw [List.length_cons]
      omega
    have number := exists_number_exponent negative written.symm small leading (scale.symm ▸ scaled)
    cases cs with
    | nil => exact number
    | cons c' cs => exact number

theorem head?_ne_minus {negative : Bool} {cs : List Char} {p : Numeral × List Char}
    (h : scanUnsigned negative cs = .ok p) : cs.head? ≠ some '-' := by
  intro minus
  obtain ⟨cs, rfl⟩ : ∃ cs', cs = '-' :: cs' := List.head?_eq_some_iff.1 minus
  cases h

/-- Every finite double is written as a numeral that the reader of numbers takes as a number. -/
theorem exists_number_writeDouble {x : Double} (finite : x.isFinite = true) :
    ∃ s n, scanNumeral (writeDouble x) = .ok (s, []) ∧ s.value = some n := by
  have magnitude : ∀ negative, ∃ s n, scanUnsigned negative
      (if x.isZero then ['0', '.', '0'] else writeDecimal x.shortest.1 x.shortest.2) =
        .ok (s, []) ∧ s.value = some n := by
    intro negative
    by_cases zero : x.isZero = true
    · rw [if_pos zero]
      have zeros : ∀ c ∈ ['0'], c.isDigit := List.forall_mem_singleton.2 rfl
      exact exists_number_pointed negative ['0'] zeros (List.cons_ne_nil _ _) (by decide) (.inl rfl)
        zeros (List.cons_ne_nil _ _)
    · have nonzero : x.isZero = false := by simpa using zero
      obtain ⟨pos, small, -⟩ := Double.shortest_bounds finite nonzero
      rw [if_neg zero]
      exact exists_number_writeDecimal negative pos small
        (Double.leading_shortest_lt finite nonzero)
        (Numeral.exists_scaled_shortest finite nonzero)
  have text : writeDouble x = (if x.isNegative then ['-'] else []) ++
      if x.isZero then ['0', '.', '0'] else writeDecimal x.shortest.1 x.shortest.2 := by
    unfold writeDouble
    split <;> cases x.isNegative <;> rfl
  rw [text]
  by_cases negative : x.isNegative = true
  · rw [if_pos negative]
    exact magnitude true
  · obtain ⟨s, n, scanned, value⟩ := magnitude false
    rw [if_neg negative]
    exact ⟨s, n, (scanNumeral_of_head? (head?_ne_minus scanned)).trans scanned, value⟩

/-! ### Reading again -/

/-- The number that the text of a number is read as. -/
def Number.reread (n : Number) : Number :=
  match scanNumeral n.write with
  | .ok (s, _) => s.value.getD n
  | .error _ => n

/-- The text of a number is a numeral in range. -/
theorem Number.scanNumeral_write (n : Number) :
    ∃ s, scanNumeral n.write = .ok (s, []) ∧ s.value = some n.reread := by
  have inRange : ∃ s m, scanNumeral n.write = .ok (s, []) ∧ s.value = some m := by
    cases n with
    | integer i low high =>
      obtain ⟨s, scanned, value⟩ := recovered_integer i low high
      exact ⟨s, _, scanned, value⟩
    | double x finite => exact exists_number_writeDouble finite
  obtain ⟨s, m, scanned, value⟩ := inRange
  refine ⟨s, scanned, ?_⟩
  simp only [reread, scanned, value, Option.getD_some]

theorem Number.reread_of_recovered {n : Number} (h : n.Recovered) : n.reread = n := by
  obtain ⟨s, scanned, value⟩ := h
  rw [reread, scanned]
  exact congrArg (·.getD n) value

theorem Number.reread_integer (i : Int) (low : -9223372036854775808 ≤ i)
    (high : i < 18446744073709551616) : (integer i low high).reread = .integer i low high :=
  reread_of_recovered (recovered_integer i low high)

end Json

end SqlBuilder
