import Mathlib.Tactic.Linarith
import Mathlib.Tactic.Ring
import Slang.Number.Numeral
import Slang.Proofs.Number.Bits

/-!
# Rounding a fraction to the nearest double

The exact value of a decimal is a fraction. It is brought to the exponent of the result while a
round bit and a sticky bit keep what is needed of the rest, rounded once, and shifted once more if
rounding made it too long. Every fraction in the interval of a double is rounded to that double.
-/

namespace Slang.Double

open Float.Model Float.Model.UnpackedFloat

/-! ## The two bits behind a significand -/

/-- The whole part of a fraction with what rounding needs to know of the rest. -/
def extended (n d : Nat) : ExtendedMantissa :=
  ⟨n / d, d ≤ 2 * (n % d), n % d ≠ 0 ∧ 2 * (n % d) ≠ d⟩

theorem shiftRightOne_extended (n : Nat) {d : Nat} (hd : 0 < d) :
    (extended n d).shiftRightOne = extended n (d * 2) := by
  have hlt : n % d < d := Nat.mod_lt n hd
  have hrest : n % (d * 2) = n % d + d * (n / d % 2) := Nat.mod_mul
  rw [extended, extended, ExtendedMantissa.shiftRightOne, Nat.div_div_eq_div_mul, hrest]
  have hparity := Nat.mod_two_eq_zero_or_one (n / d)
  rw [ExtendedMantissa.mk.injEq]
  refine ⟨rfl, ?_, ?_⟩ <;> rw [Bool.eq_iff_iff] <;> rcases hparity with h | h <;> simp [h] <;> omega

theorem shiftRight_extended (n : Nat) {d : Nat} (hd : 0 < d) (k : Nat) :
    extended n d >>> k = extended n (d * 2 ^ k) := by
  induction k with
  | zero => simp [HShiftRight.hShiftRight, Nat.repeat]
  | succ k ih =>
    have hpos : 0 < d * 2 ^ k := Nat.mul_pos hd (Nat.pow_pos (by decide))
    have hstep : extended n d >>> (k + 1) = (extended n d >>> k).shiftRightOne := rfl
    rw [hstep, ih, shiftRightOne_extended n hpos, Nat.pow_succ, Nat.mul_assoc]

theorem ofMantissaAndAccuracy_fraction (n : Nat) {d : Nat} (hd : 0 < d) :
    ExtendedMantissa.ofMantissaAndAccuracy (n / d) (accuracyOfFraction (n % d) d) =
      extended n d := by
  unfold accuracyOfFraction extended
  by_cases hzero : n % d = 0
  · simp [hzero, ExtendedMantissa.ofMantissaAndAccuracy]
    omega
  · rcases Nat.lt_trichotomy (2 * (n % d)) d with h | h | h
    · simp [hzero, Nat.compare_eq_lt.2 h, ExtendedMantissa.ofMantissaAndAccuracy]
      omega
    · simp [hzero, h, ExtendedMantissa.ofMantissaAndAccuracy]
    · simp [hzero, Nat.compare_eq_gt.2 h, ExtendedMantissa.ofMantissaAndAccuracy]
      omega

theorem roundedMantissa_extended (n : Nat) {d : Nat} (hd : 0 < d) :
    (extended n d).roundedMantissa =
      if 2 * (n % d) < d then n / d
      else if 2 * (n % d) = d then n / d + n / d % 2
      else n / d + 1 := by
  unfold ExtendedMantissa.roundedMantissa extended
  rcases Nat.lt_trichotomy (2 * (n % d)) d with h | h | h
  · by_cases hzero : n % d = 0
    · simp [hzero, hd, Nat.not_le.2 hd, ExtendedMantissa.accuracy, Accuracy.roundToNearestEven]
    · simp [hzero, h, h.ne, Nat.not_le.2 h, ExtendedMantissa.accuracy,
        Accuracy.roundToNearestEven]
  · simp [h, ExtendedMantissa.accuracy, Accuracy.roundToNearestEven]
  · have hzero : n % d ≠ 0 := by omega
    simp [hzero, h.le, h.ne', Nat.not_lt.2 h.le, ExtendedMantissa.accuracy,
      Accuracy.roundToNearestEven]

/-- A whole number nearest to a fraction, and even if there are two of them. -/
structure IsNearest (n d m : Nat) : Prop where
  le_add : 2 * m * d ≤ 2 * n + d
  add_le : 2 * n ≤ 2 * m * d + d
  even : 2 * m * d = 2 * n + d ∨ 2 * n = 2 * m * d + d → m % 2 = 0

theorem IsNearest.roundedMantissa_eq {n d m : Nat} (hd : 0 < d) (h : IsNearest n d m) :
    (extended n d).roundedMantissa = m := by
  rw [roundedMantissa_extended n hd]
  have hlt : n % d < d := Nat.mod_lt n hd
  have hn : n = n / d * d + n % d := by rw [Nat.mul_comm, Nat.div_add_mod]
  obtain ⟨hlow, hhigh, heven⟩ := h
  generalize n / d = q at *
  generalize n % d = r at *
  subst hn
  have hle : q ≤ m := by
    by_contra hbelow
    have : (m + 1) * d ≤ q * d := Nat.mul_le_mul_right d (by omega)
    nlinarith
  have hge : m ≤ q + 1 := by
    by_contra habove
    have : (q + 2) * d ≤ m * d := Nat.mul_le_mul_right d (by omega)
    nlinarith
  -- Only the whole part and the number after it are near enough.
  rcases Nat.eq_or_lt_of_le hle with rfl | hnext
  · have htie : 2 * r = d → q % 2 = 0 := fun htie => heven (.inr (by rw [Nat.mul_assoc]; omega))
    rw [Nat.mul_assoc] at hhigh
    split_ifs with hbelow hhalf <;> omega
  · obtain rfl : m = q + 1 := by omega
    have hwhole : 2 * (q + 1) * d = 2 * (q * d) + 2 * d := by ring
    have htie : 2 * r = d → (q + 1) % 2 = 0 := fun htie => heven (.inl (by omega))
    split_ifs with hbelow hhalf <;> omega

/-! ## Rounding to the format of a double -/

theorem binary64_targetExponent (m a : Nat) :
    Format.binary64.targetExponent (totalExponent m ((a : Int) - 1074)) =
      ((m.log2 + a - 52 : Nat) : Int) - 1074 := by
  have hbits : (Format.binary64.mantissaBits : Int) = 53 := rfl
  have hleast : Format.binary64.minExponent = -1074 := rfl
  rw [Format.targetExponent, totalExponent, hbits, hleast]
  omega

/-- Bringing a fraction to its exponent, which is counted from the least one. -/
theorem shiftToTargetExponent_fraction (n a : Nat) {d : Nat} (hd : 0 < d) :
    shiftToTargetExponent Format.binary64 (n / d) ((a : Int) - 1074)
        (accuracyOfFraction (n % d) d) =
      (extended n (d * 2 ^ ((n / d).log2 + a - 52 - a)),
        ((a + ((n / d).log2 + a - 52 - a) : Nat) : Int) - 1074) := by
  have hshift : (((((n / d).log2 + a - 52 : Nat) : Int) - 1074) - ((a : Int) - 1074)).toNat =
      (n / d).log2 + a - 52 - a := by omega
  rw [shiftToTargetExponent, shiftToExponent, binary64_targetExponent, hshift,
    ofMantissaAndAccuracy_fraction n hd, shiftRight_extended n hd]
  congr 1
  omega

theorem shiftToTargetExponent_exact (m a : Nat) :
    shiftToTargetExponent Format.binary64 m ((a : Int) - 1074) .exact =
      (extended m (2 ^ (m.log2 + a - 52 - a)),
        ((a + (m.log2 + a - 52 - a) : Nat) : Int) - 1074) := by
  have h := shiftToTargetExponent_fraction m a Nat.one_pos
  rwa [Nat.div_one, Nat.mod_one, Nat.one_mul] at h

/-- The distance to the next smaller double in quarters of a unit, halved: at a power of two it is
half as wide as elsewhere. -/
def gap (m s : Nat) : Nat :=
  if m = 2 ^ 52 ∧ 0 < s then 1 else 2

theorem gap_pos (m s : Nat) : 0 < gap m s := by
  unfold gap
  split <;> decide

theorem gap_le (m s : Nat) : gap m s ≤ 2 := by
  unfold gap
  split <;> decide

/-- The fraction of smallest doubles lies in the interval of a double. -/
structure IsRounded (n d m s : Nat) : Prop where
  low : (4 * m - gap m s) * 2 ^ s * d ≤ 4 * n
  high : 4 * n ≤ (4 * m + 2) * 2 ^ s * d
  odd : m % 2 = 1 → (4 * m - gap m s) * 2 ^ s * d < 4 * n ∧ 4 * n < (4 * m + 2) * 2 ^ s * d

/-- The interval does not depend on how the fraction is written. -/
theorem IsRounded.mul_right {n d m s c : Nat} (h : IsRounded n d m s) (hc : 0 < c) :
    IsRounded (n * c) (d * c) m s := by
  obtain ⟨hlow, hhigh, hodd⟩ := h
  refine ⟨?_, ?_, ?_⟩
  · rw [← Nat.mul_assoc, ← Nat.mul_assoc]
    exact Nat.mul_le_mul_right c hlow
  · rw [← Nat.mul_assoc, ← Nat.mul_assoc]
    exact Nat.mul_le_mul_right c hhigh
  · intro hm
    rw [← Nat.mul_assoc, ← Nat.mul_assoc, ← Nat.mul_assoc]
    exact ⟨Nat.mul_lt_mul_of_pos_right (hodd hm).1 hc, Nat.mul_lt_mul_of_pos_right (hodd hm).2 hc⟩

theorem two_pow_log2_mul_le {n d : Nat} (hpos : 0 < n / d) (a : Nat) :
    2 ^ ((n / d).log2 + a) * d ≤ n * 2 ^ a := by
  have hlog : 2 ^ (n / d).log2 ≤ n / d := Nat.log2_self_le hpos.ne'
  calc 2 ^ ((n / d).log2 + a) * d = 2 ^ (n / d).log2 * d * 2 ^ a := by ring
    _ ≤ n / d * d * 2 ^ a := by gcongr
    _ ≤ n * 2 ^ a := by gcongr; exact Nat.div_mul_le_self n d

theorem lt_two_pow_log2_mul (n a : Nat) {d : Nat} (hd : 0 < d) :
    n * 2 ^ a < 2 ^ ((n / d).log2 + 1 + a) * d := by
  have hlog : n / d < 2 ^ ((n / d).log2 + 1) := Nat.lt_log2_self
  have hn : n < 2 ^ ((n / d).log2 + 1) * d := (Nat.div_lt_iff_lt_mul hd).1 hlog
  calc n * 2 ^ a < 2 ^ ((n / d).log2 + 1) * d * 2 ^ a :=
        Nat.mul_lt_mul_of_pos_right hn (Nat.pow_pos (by decide))
    _ = 2 ^ ((n / d).log2 + 1 + a) * d := by ring

theorem log2_lt_of_isRounded {n d a m s : Nat} (hd : 0 < d) (hc : IsCanonical m s)
    (hpos : 0 < n / d) (h : IsRounded (n * 2 ^ a) d m s) : (n / d).log2 + a < 53 + s := by
  have hm : 4 * m + 2 < 2 ^ 55 := by have := hc.lt; omega
  have hlt : 2 ^ ((n / d).log2 + a) * d * 4 < 2 ^ (53 + s) * d * 4 := by
    calc 2 ^ ((n / d).log2 + a) * d * 4 ≤ n * 2 ^ a * 4 :=
          Nat.mul_le_mul_right 4 (two_pow_log2_mul_le hpos a)
      _ ≤ (4 * m + 2) * 2 ^ s * d := by have := h.high; omega
      _ < 2 ^ 55 * 2 ^ s * d := by gcongr
      _ = 2 ^ (53 + s) * d * 4 := by rw [Nat.pow_add]; ring
  have hpow := Nat.lt_of_mul_lt_mul_right (Nat.lt_of_mul_lt_mul_right hlt)
  exact (Nat.pow_lt_pow_iff_right (by decide)).1 hpow

/-- A bound on the significand bounds the exponent of the fraction. -/
theorem lt_log2_of_isRounded {n d a m s k : Nat} (hd : 0 < d)
    (h : IsRounded (n * 2 ^ a) d m s) (hk : 2 ^ k < 4 * m - gap m s) :
    k + s < (n / d).log2 + a + 3 := by
  have hlt : 2 ^ (k + s) * d < 2 ^ ((n / d).log2 + a + 3) * d := by
    calc 2 ^ (k + s) * d = 2 ^ k * 2 ^ s * d := by ring
      _ ≤ (4 * m - gap m s) * 2 ^ s * d := by gcongr
      _ ≤ 4 * (n * 2 ^ a) := h.low
      _ < 4 * (2 ^ ((n / d).log2 + 1 + a) * d) :=
        Nat.mul_lt_mul_of_pos_left (lt_two_pow_log2_mul n a hd) (by decide)
      _ = 2 ^ ((n / d).log2 + a + 3) * d := by ring
  exact (Nat.pow_lt_pow_iff_right (by decide)).1 (Nat.lt_of_mul_lt_mul_right hlt)

/-- A fraction has the exponent of the double in whose interval it lies, or the next smaller one if
it lies below a power of two. -/
theorem exponent_of_isRounded {n d a m s : Nat} (hd : 0 < d) (hc : IsCanonical m s)
    (ha : a ≤ (n / d).log2 + a - 52) (h : IsRounded (n * 2 ^ a) d m s) :
    (n / d).log2 + a - 52 = s ∨
      (n / d).log2 + a - 52 + 1 = s ∧ m = 2 ^ 52 ∧ n * 2 ^ a < 2 ^ (52 + s) * d := by
  have hupper : (n / d).log2 = 0 ∨ (n / d).log2 + a < 53 + s := by
    rcases Nat.eq_zero_or_pos (n / d) with hzero | hpos
    · exact .inl (by rw [hzero]; rfl)
    · exact .inr (log2_lt_of_isRounded hd hc hpos h)
  by_cases hs : s = 0
  · left
    omega
  · have hnormal : 2 ^ 52 ≤ m := hc.normal.resolve_left hs
    rcases Nat.eq_or_lt_of_le hnormal with hm | hm
    · have hlow : 53 + s < (n / d).log2 + a + 3 := by
        apply lt_log2_of_isRounded hd h
        simp [gap, ← hm, Nat.pos_of_ne_zero hs]
      have hbound := lt_two_pow_log2_mul n a hd
      by_cases hlast : (n / d).log2 + a = 51 + s
      · right
        have hexp : (n / d).log2 + 1 + a = 52 + s := by omega
        rw [hexp] at hbound
        exact ⟨by omega, hm.symm, hbound⟩
      · left
        omega
    · have hlow : 54 + s < (n / d).log2 + a + 3 := by
        apply lt_log2_of_isRounded hd h
        rw [gap, if_neg (by omega)]
        omega
      left
      omega

theorem roundWithAccuracy_eq_finite {sign : Sign} {q m : Nat} {e e₁ e₂ : Int} {accuracy : Accuracy}
    {em₁ em₂ : ExtendedMantissa} (hm : 0 < m)
    (hfirst : shiftToTargetExponent Format.binary64 q e accuracy = (em₁, e₁))
    (hsecond : shiftToTargetExponent Format.binary64 em₁.roundedMantissa e₁ .exact = (em₂, e₂))
    (hmantissa : em₂.mantissa = m) :
    roundWithAccuracy Format.binary64 sign q e accuracy = .finite sign m e₂ hm := by
  subst hmantissa
  simp [roundWithAccuracy, hfirst, hsecond, hm.ne']

theorem mul_two_pow_eq (x d : Nat) {a b : Nat} (hab : a ≤ b) :
    x * 2 ^ b * d = x * (d * 2 ^ (b - a)) * 2 ^ a := by
  rw [← Nat.pow_sub_mul_pow 2 hab]
  ring

/-- On the exponent of the double, its significand is the nearest whole number. -/
theorem IsRounded.isNearest {n d a m s : Nat} (has : a ≤ s) (h : IsRounded (n * 2 ^ a) d m s) :
    IsNearest n (d * 2 ^ (s - a)) m := by
  obtain ⟨hlow, hhigh, hodd⟩ := h
  rw [mul_two_pow_eq _ d has, ← Nat.mul_assoc 4] at hlow hhigh
  rw [mul_two_pow_eq _ d has, mul_two_pow_eq _ d has, ← Nat.mul_assoc 4] at hodd
  have hpow : 0 < 2 ^ a := Nat.pow_pos (by decide)
  have hgap := gap_le m s
  generalize d * 2 ^ (s - a) = D at *
  have hbelow : (4 * m - gap m s) * D ≤ 4 * n := Nat.le_of_mul_le_mul_right hlow hpow
  have habove : 4 * n ≤ (4 * m + 2) * D := Nat.le_of_mul_le_mul_right hhigh hpow
  have hstrict (hm : m % 2 = 1) : (4 * m - gap m s) * D < 4 * n ∧ 4 * n < (4 * m + 2) * D :=
    ⟨Nat.lt_of_mul_lt_mul_right (hodd hm).1, Nat.lt_of_mul_lt_mul_right (hodd hm).2⟩
  have hwide : gap m s * D ≤ 2 * D := Nat.mul_le_mul_right D hgap
  rw [Nat.sub_mul, Nat.mul_assoc] at hbelow hstrict
  rw [Nat.add_mul, Nat.mul_assoc] at habove hstrict
  refine ⟨?_, ?_, ?_⟩ <;> rw [Nat.mul_assoc 2 m D]
  · omega
  · omega
  · intro htie
    by_contra heven
    have := hstrict (by omega)
    omega

/-- Below a power of two the nearest whole number, on the smaller exponent, is the next power. -/
theorem IsRounded.isNearest_below {n d a b : Nat} (hab : a ≤ b)
    (h : IsRounded (n * 2 ^ a) d (2 ^ 52) (b + 1)) (hlt : n * 2 ^ a < 2 ^ (52 + (b + 1)) * d) :
    IsNearest n (d * 2 ^ (b - a)) (2 ^ 53) := by
  have hgap : gap (2 ^ 52) (b + 1) = 1 := by simp [gap]
  have hlow : (2 ^ 55 - 2) * 2 ^ b * d ≤ 4 * (n * 2 ^ a) := by
    calc (2 ^ 55 - 2) * 2 ^ b * d = (4 * 2 ^ 52 - 1) * 2 ^ (b + 1) * d := by
          rw [Nat.pow_succ 2 b]; ring
      _ ≤ 4 * (n * 2 ^ a) := by rw [← hgap]; exact h.low
  rw [mul_two_pow_eq _ d hab, ← Nat.mul_assoc 4] at hlow
  have hbelow := Nat.le_of_mul_le_mul_right hlow (Nat.pow_pos Nat.zero_lt_two)
  have hpow : 2 ^ (52 + (b + 1)) = 2 ^ 53 * 2 ^ b := by rw [← Nat.pow_add]; congr 1; omega
  rw [hpow, mul_two_pow_eq _ d hab] at hlt
  have habove := Nat.lt_of_mul_lt_mul_right hlt
  generalize d * 2 ^ (b - a) = D at *
  refine ⟨by omega, by omega, fun _ => by decide⟩

/-- Every fraction in the interval of a double is rounded to that double. -/
theorem roundWithAccuracy_of_isRounded {n d a m s : Nat} (hd : 0 < d) (hc : IsCanonical m s)
    (ha : a ≤ (n / d).log2 + a - 52) (h : IsRounded (n * 2 ^ a) d m s) :
    roundWithAccuracy Format.binary64 .positive (n / d) ((a : Int) - 1074)
        (accuracyOfFraction (n % d) d) =
      .finite .positive m ((s : Int) - 1074) hc.pos := by
  have hpos (k : Nat) : 0 < d * 2 ^ k := Nat.mul_pos hd (Nat.pow_pos (by decide))
  have hfirst := shiftToTargetExponent_fraction n a hd
  rw [Nat.add_sub_cancel' ha] at hfirst
  rcases exponent_of_isRounded hd hc ha h with hexp | ⟨hexp, rfl, hlt⟩
  · rw [hexp] at ha hfirst
    have hrounded := (h.isNearest ha).roundedMantissa_eq (hpos _)
    have hlog : m.log2 < 53 := (Nat.log2_lt hc.pos.ne').2 hc.lt
    have hsecond := shiftToTargetExponent_exact m s
    rw [show m.log2 + s - 52 - s = 0 by omega] at hsecond
    rw [← hrounded] at hsecond
    refine roundWithAccuracy_eq_finite hc.pos hfirst hsecond ?_
    rw [hrounded]
    simp [extended]
  · generalize (n / d).log2 + a - 52 = b at *
    subst hexp
    have hrounded := (h.isNearest_below ha hlt).roundedMantissa_eq (hpos _)
    have hsecond := shiftToTargetExponent_exact (2 ^ 53) b
    rw [Nat.log2_two_pow, show 53 + b - 52 - b = 1 by omega] at hsecond
    rw [← hrounded] at hsecond
    refine roundWithAccuracy_eq_finite hc.pos hfirst hsecond ?_
    rw [hrounded]
    simp [extended]

/-! ## Rounding decimals -/

theorem ofScientific_of_isRounded_whole {digits e m s : Nat} (hdigits : digits ≠ 0)
    (he : e ≤ 2048) (hc : IsCanonical m s) (h : IsRounded (digits * 10 ^ e * one) 1 m s) :
    UnpackedFloat.ofScientific Format.binary64 digits e =
      .finite .positive m ((s : Int) - 1074) hc.pos := by
  have hn : digits <<< 53 * 10 ^ e * 2 ^ 1021 = digits * 10 ^ e * one := by
    rw [Nat.shiftLeft_eq, Nat.mul_right_comm digits, Nat.mul_assoc, two_pow_mul_two_pow rfl]
  have hlog : 52 ≤ (digits <<< 53 * 10 ^ e).log2 := by
    have hpos : 0 < digits * 10 ^ e := Nat.mul_pos (by omega) (Nat.pow_pos (by decide))
    have heq : digits <<< 53 * 10 ^ e = digits * 10 ^ e * 2 ^ 53 := by
      rw [Nat.shiftLeft_eq, Nat.mul_right_comm]
    rw [heq, Nat.le_log2 (by omega)]
    omega
  have hround := roundWithAccuracy_of_isRounded (n := digits <<< 53 * 10 ^ e) (a := 1021)
    Nat.one_pos hc (by rw [Nat.div_one]; omega) (by rw [hn]; exact h)
  rw [Nat.div_one, Nat.mod_one] at hround
  have hbits : (2 : Int) ^ Format.binary64.exponentBits = 2048 := rfl
  rw [UnpackedFloat.ofScientific, dif_neg hdigits, if_neg (by rw [hbits]; omega),
    if_neg (by rw [hbits]; omega), if_pos (Int.natCast_nonneg e)]
  exact hround

/-- A quotient is computed with enough bits that only bits are dropped when it is rounded. -/
theorem divCore_fraction {n d : Nat} (hn : n ≠ 0) (hd : 0 < d) :
    ∃ a : Nat, a ≤ 1074 ∧ a ≤ (n * 2 ^ (1074 - a) / d).log2 + a - 52 ∧
      divCore Format.binary64 n 0 d 0 =
        (n * 2 ^ (1074 - a) / d, (a : Int) - 1074,
          accuracyOfFraction (n * 2 ^ (1074 - a) % d) d) := by
  have hbits : (Format.binary64.mantissaBits : Int) = 53 := rfl
  have hleast : Format.binary64.minExponent = -1074 := rfl
  -- The exponent of the quotient, counted from the least one.
  obtain ⟨a, ha⟩ : ∃ a : Nat, min 0 (max ((n.log2 : Int) - d.log2 - 53) (-1074)) = a - 1074 :=
    ⟨(min 0 (max ((n.log2 : Int) - d.log2 - 53) (-1074)) + 1074).toNat, by omega⟩
  refine ⟨a, by omega, ?_, ?_⟩
  · rcases Nat.eq_zero_or_pos a with rfl | hpos
    · exact Nat.zero_le _
    · have hlog : 2 ^ 52 ≤ n * 2 ^ (1074 - a) / d := by
        rw [Nat.le_div_iff_mul_le hd]
        calc 2 ^ 52 * d ≤ 2 ^ 52 * 2 ^ (d.log2 + 1) :=
              Nat.mul_le_mul_left _ Nat.lt_log2_self.le
          _ = 2 ^ (52 + (d.log2 + 1)) := (Nat.pow_add 2 _ _).symm
          _ ≤ 2 ^ (n.log2 + (1074 - a)) := Nat.pow_le_pow_right (by decide) (by omega)
          _ = 2 ^ n.log2 * 2 ^ (1074 - a) := Nat.pow_add 2 _ _
          _ ≤ n * 2 ^ (1074 - a) := Nat.mul_le_mul_right _ (Nat.log2_self_le hn)
      have := (Nat.le_log2 (by omega)).2 hlog
      omega
  · have htarget : min ((0 : Int) - 0) (Format.binary64.targetExponent
        (totalExponent n 0 - totalExponent d 0)) = a - 1074 := by
      rw [← ha, Format.targetExponent, totalExponent, totalExponent, hbits, hleast]
      omega
    have hshift : ((0 : Int) - 0 - (a - 1074)).toNat = 1074 - a := by omega
    rw [divCore, htarget, hshift, Nat.shiftLeft_eq]

theorem ofScientific_of_isRounded_fraction {digits e m s : Nat} (hdigits : digits ≠ 0)
    (he : e + 1 ≤ 2048 + digits.log2) (hc : IsCanonical m s)
    (h : IsRounded (digits * one) (10 ^ (e + 1)) m s) :
    UnpackedFloat.ofScientific Format.binary64 digits (Int.negSucc e) =
      .finite .positive m ((s : Int) - 1074) hc.pos := by
  have hd : 0 < 10 ^ (e + 1) := Nat.pow_pos (by decide)
  obtain ⟨a, ha, hlog, hdiv⟩ := divCore_fraction hdigits hd
  have hn : digits * 2 ^ (1074 - a) * 2 ^ a = digits * one := by
    rw [Nat.mul_assoc, two_pow_mul_two_pow (Nat.sub_add_cancel ha)]
  have hround := roundWithAccuracy_of_isRounded hd hc hlog (by rw [hn]; exact h)
  have hbits : (2 : Int) ^ Format.binary64.exponentBits = 2048 := rfl
  rw [UnpackedFloat.ofScientific, dif_neg hdigits, if_neg (by rw [hbits]; omega),
    if_neg (by rw [hbits]; omega), if_neg (by omega)]
  have hexp : (-Int.negSucc e).toNat = e + 1 := rfl
  simp only [UnpackedFloat.div, hexp, hdiv]
  exact hround

/-- A decimal as a fraction: its numerator. -/
def Decimal.numerator (d : Decimal) : Nat :=
  d.digits * 10 ^ d.exponent.toNat

/-- A decimal as a fraction: its denominator. -/
def Decimal.denominator (d : Decimal) : Nat :=
  10 ^ (-d.exponent).toNat

/-- The decimal lies in the interval of a double. -/
def Decimal.IsRounded (d : Decimal) (m s : Nat) : Prop :=
  Double.IsRounded (d.numerator * one) d.denominator m s

namespace Decimal

variable {d : Decimal} {m s : Nat}

theorem denominator_pos (d : Decimal) : 0 < d.denominator :=
  Nat.pow_pos (by decide)

theorem IsRounded.denominator_le (hc : IsCanonical m s) (h : d.IsRounded m s) :
    d.denominator ≤ 4 * (d.numerator * one) := by
  have hgap := gap_le m s
  have hlow : 0 < (4 * m - gap m s) * 2 ^ s :=
    Nat.mul_pos (by have := hc.pos; omega) (Nat.pow_pos (by decide))
  exact (Nat.le_mul_of_pos_left _ hlow).trans h.low

theorem IsRounded.digits_ne_zero (hc : IsCanonical m s) (h : d.IsRounded m s) :
    d.digits ≠ 0 := by
  intro hzero
  have hle := h.denominator_le hc
  rw [numerator, hzero, Nat.zero_mul, Nat.zero_mul] at hle
  have := d.denominator_pos
  omega

/-- The decimal is too small for its exponent to be large. -/
theorem IsRounded.exponent_le (hc : IsCanonical m s) (h : d.IsRounded m s) :
    d.exponent ≤ 400 := by
  by_contra hlarge
  have hdenominator : d.denominator = 1 := by
    rw [denominator, Int.toNat_of_nonpos (by omega), Nat.pow_zero]
  have hnumerator : 10 ^ d.exponent.toNat ≤ d.numerator :=
    Nat.le_mul_of_pos_left _ (Nat.pos_of_ne_zero (h.digits_ne_zero hc))
  have hlt : 2 ^ (3 * d.exponent.toNat + 2 + 1074) < 2 ^ (55 + s) := by
    calc 2 ^ (3 * d.exponent.toNat + 2 + 1074) = 4 * (2 ^ (3 * d.exponent.toNat) * one) := by
          rw [← two_pow_mul_one, Nat.pow_add]; ring
      _ ≤ 4 * (d.numerator * one) := by
        gcongr; exact (two_pow_le_ten_pow (by omega)).trans hnumerator
      _ ≤ (4 * m + 2) * 2 ^ s * d.denominator := h.high
      _ < 2 ^ 55 * 2 ^ s := by
        rw [hdenominator, Nat.mul_one]
        have := hc.lt
        gcongr
        omega
      _ = 2 ^ (55 + s) := (Nat.pow_add 2 55 s).symm
  have hexponents := (Nat.pow_lt_pow_iff_right (by decide)).1 hlt
  have := hc.le
  omega

/-- The decimal is too large for its exponent to be small. -/
theorem IsRounded.le_exponent (hc : IsCanonical m s) (h : d.IsRounded m s) :
    -(400 + Nat.log2 d.digits : Int) ≤ d.exponent := by
  by_contra hsmall
  have hnumerator : d.numerator = d.digits := by
    rw [numerator, Int.toNat_of_nonpos (by omega), Nat.pow_zero, Nat.mul_one]
  have hlt : 2 ^ (3 * (-d.exponent).toNat) < 2 ^ (d.digits.log2 + 1 + 2 + 1074) := by
    calc 2 ^ (3 * (-d.exponent).toNat) ≤ d.denominator := two_pow_le_ten_pow (by omega)
      _ ≤ 4 * (d.numerator * one) := h.denominator_le hc
      _ < 4 * (2 ^ (d.digits.log2 + 1) * one) := by
        rw [hnumerator]
        exact Nat.mul_lt_mul_of_pos_left (Nat.mul_lt_mul_of_pos_right Nat.lt_log2_self one_pos)
          (by decide)
      _ = 2 ^ (d.digits.log2 + 1 + 2 + 1074) := by
        rw [← two_pow_mul_one, Nat.pow_add _ _ 2]; ring
  have hexponents := (Nat.pow_lt_pow_iff_right (by decide)).1 hlt
  omega

end Decimal

theorem ofDecimal_of_isRounded {d : Decimal} {m s : Nat} (hc : IsCanonical m s)
    (h : d.IsRounded m s) :
    ofDecimal d =
      Float.ofModel (Float.Model.pack (.finite .positive m ((s : Int) - 1074) hc.pos)) := by
  have hdigits := h.digits_ne_zero hc
  have hle := h.exponent_le hc
  have hge := h.le_exponent hc
  rw [ofDecimal, if_neg hdigits, if_neg (by omega), if_neg (by omega), Float.Model.ofScientific]
  congr 2
  unfold Decimal.IsRounded Decimal.numerator Decimal.denominator at h
  generalize d.exponent = exponent at *
  cases exponent with
  | ofNat e =>
    have hnone : (-(e : Int)).toNat = 0 := by omega
    rw [Int.ofNat_eq_natCast] at h hle
    rw [hnone, Nat.pow_zero, Int.toNat_natCast] at h
    exact ofScientific_of_isRounded_whole hdigits (by omega) hc h
  | negSucc e =>
    rw [Int.toNat_negSucc, Nat.pow_zero, Nat.mul_one] at h
    exact ofScientific_of_isRounded_fraction hdigits (by omega) hc h

end Slang.Double
