import Slang.Proofs.Number.Rounding

/-!
# Integers as doubles

An integer is converted to the double that is nearest to it.  The result is finite exactly for the
integers that round to at most the largest finite double, and it is a zero for no integer but zero.
-/

namespace Slang.Double

open Float.Model Float.Model.UnpackedFloat

/-! ## Finite doubles and zeros -/

/-- A double is an infinity, no number, a zero, or a finite double with a significand. -/
theorem cases_of_double (x : Float) :
    x = infinity ∨ x = -infinity ∨ x = nan ∨ x = 0 ∨ x = -0 ∨
      exponentBits x ≠ 2047 ∧ 0 < significand x := by
  by_cases hfinite : exponentBits x = 2047
  · by_cases hfraction : fractionBits x = 0
    · have hexact : exact x = .infinite (isNegative x) := by
        rw [exact, if_pos hfinite, if_pos hfraction]
      have hx := eq_infinity_of_exact hexact
      split at hx
      · exact .inr (.inl hx)
      · exact .inl hx
    · have hexact : exact x = .undefined := by rw [exact, if_pos hfinite, if_neg hfraction]
      exact .inr (.inr (.inl (eq_nan_of_exact hexact)))
  · by_cases hzero : significand x = 0
    · have hx := eq_zero_of_significand_eq_zero hzero
      split at hx
      · exact .inr (.inr (.inr (.inr (.inl hx))))
      · exact .inr (.inr (.inr (.inl hx)))
    · exact .inr (.inr (.inr (.inr (.inr ⟨hfinite, Nat.pos_of_ne_zero hzero⟩))))

theorem isFinite_of_significand {x : Float} (hfinite : exponentBits x ≠ 2047)
    (hpos : 0 < significand x) : x.isFinite = true := by
  change x.toModel.unpack.isFinite = true
  rw [unpack_of_finite hfinite hpos]
  rfl

theorem not_beq_zero_of_significand {x : Float} (hfinite : exponentBits x ≠ 2047)
    (hpos : 0 < significand x) : (x == 0) = false := by
  have hzero : (0 : Float).toModel.unpack = .zero .positive := rfl
  change x.toModel.unpack.beq (0 : Float).toModel.unpack = false
  rw [unpack_of_finite hfinite hpos, hzero]
  cases sign x <;> rfl

/-- Only the two zeros compare equal to zero. -/
theorem beq_zero_iff (x : Float) : (x == 0) = true ↔ x = 0 ∨ x = -0 := by
  constructor
  · intro hzero
    rcases cases_of_double x with rfl | rfl | rfl | hx | hx | ⟨hfinite, hpos⟩
    · exact absurd hzero (by decide +kernel)
    · exact absurd hzero (by decide +kernel)
    · exact absurd hzero (by decide +kernel)
    · exact .inl hx
    · exact .inr hx
    · rw [not_beq_zero_of_significand hfinite hpos] at hzero
      cases hzero
  · rintro (rfl | rfl)
    · decide +kernel
    · decide +kernel

theorem neg_of_significand {x : Float} (hfinite : exponentBits x ≠ 2047)
    (hpos : 0 < significand x) :
    exponentBits (-x) ≠ 2047 ∧ 0 < significand (-x) := by
  have hc := isCanonical_of_finite hfinite hpos
  have hneg : -x = Float.ofModel (Float.Model.pack (.finite (-sign x) (significand x)
      ((shift x : Int) - 1074) hc.pos)) := by
    change Float.ofModel (Float.Model.pack x.toModel.unpack.neg) = _
    rw [unpack_of_finite hfinite hpos]
    rfl
  obtain ⟨-, -, hsignificand, hexponent⟩ := parts_of_pack (-sign x) hc
  rw [hneg, hsignificand]
  exact ⟨hexponent, hpos⟩

/-! ## Rounding a whole number -/

/-- A fraction between two powers of two, rounded to fifty-three bits.  It reaches the upper power
from half a unit below it on. -/
theorem roundedMantissa_between {n d : Nat} (hd : 0 < d) (hlow : 2 ^ 52 * d ≤ n)
    (hhigh : n < 2 ^ 53 * d) :
    2 ^ 52 ≤ (extended n d).roundedMantissa ∧ (extended n d).roundedMantissa ≤ 2 ^ 53 ∧
      ((extended n d).roundedMantissa = 2 ^ 53 ↔ (2 ^ 54 - 1) * d ≤ 2 * n) := by
  have hq : 2 ^ 52 ≤ n / d := (Nat.le_div_iff_mul_le hd).2 hlow
  have hq' : n / d < 2 ^ 53 := (Nat.div_lt_iff_lt_mul hd).2 hhigh
  have hr : n % d < d := Nat.mod_lt n hd
  have hn : n = n / d * d + n % d := by rw [Nat.mul_comm, Nat.div_add_mod]
  rw [roundedMantissa_extended n hd]
  generalize n / d = q at *
  generalize n % d = r at *
  -- Only the last whole number below the power can be rounded up to it.
  have hlast : (2 ^ 54 - 1) * d ≤ 2 * n ↔ q = 2 ^ 53 - 1 ∧ d ≤ 2 * r := by
    by_cases hlast : q = 2 ^ 53 - 1
    · subst hlast
      omega
    · have hle : q * d ≤ (2 ^ 53 - 2) * d := Nat.mul_le_mul_right d (by omega)
      omega
  rw [hlast]
  split_ifs <;> omega

theorem overflow_eq {p : Nat} (h : p = 970) : overflow = (2 ^ 54 - 1) * 2 ^ p := by
  have hsum : 1024 = 54 + p := by omega
  have hbound : overflow = 2 ^ (54 + p) - 2 ^ p := by
    unfold overflow
    rw [hsum, ← h]
    rfl
  rw [hbound, Nat.pow_add, Nat.sub_mul, Nat.one_mul]

/-- The exponent of a whole number after rounding is in the range of doubles exactly below the
bound.  Where rounding reaches the next power of two, the exponent is one larger. -/
theorem log2_le_iff_lt_overflow {n : Nat} (hn : n ≠ 0) :
    (if (2 ^ 54 - 1) * 2 ^ (n.log2 + 1) ≤ 2 * (n * 2 ^ 53) then n.log2 ≤ 1022
      else n.log2 ≤ 1023) ↔ n < overflow := by
  obtain ⟨p, hp⟩ : ∃ p, p = 970 := ⟨_, rfl⟩
  have hlow : 2 ^ n.log2 ≤ n := Nat.log2_self_le hn
  have hhigh : n < 2 ^ (n.log2 + 1) := Nat.lt_log2_self
  have hmono {a b : Nat} (h : a ≤ b) : 2 ^ a ≤ 2 ^ b := Nat.pow_le_pow_right (by decide) h
  have hpow (k : Nat) : 2 ^ (k + p) = 2 ^ k * 2 ^ p := Nat.pow_add 2 k p
  rw [overflow_eq hp]
  split
  · rename_i hlast
    constructor
    · intro hle
      have := hmono (show n.log2 + 1 ≤ 53 + p by omega)
      rw [hpow] at this
      omega
    · intro hlt
      by_contra hlarge
      have := hmono (show 54 + p ≤ n.log2 + 1 by omega)
      rw [hpow] at this
      omega
  · rename_i hlast
    constructor
    · intro hle
      have := hmono (show n.log2 + 1 ≤ 54 + p by omega)
      rw [hpow] at this
      omega
    · intro hlt
      by_contra hlarge
      have := hmono (show 54 + p ≤ n.log2 by omega)
      rw [hpow] at this
      omega

theorem log2_shiftLeft {n : Nat} (hn : n ≠ 0) (k : Nat) : (n <<< k).log2 = n.log2 + k := by
  rw [Nat.shiftLeft_eq, Nat.log2_eq_iff (Nat.mul_ne_zero hn (Nat.two_pow_pos k).ne')]
  refine ⟨?_, ?_⟩
  · rw [Nat.pow_add]
    exact Nat.mul_le_mul_right _ (Nat.log2_self_le hn)
  · rw [Nat.add_right_comm, Nat.pow_add]
    exact Nat.mul_lt_mul_of_pos_right Nat.lt_log2_self (Nat.two_pow_pos k)

theorem ofScientific_whole {n : Nat} (hn : n ≠ 0) :
    UnpackedFloat.ofScientific Format.binary64 n 0 =
      roundWithAccuracy Format.binary64 .positive (n <<< 53) (((1021 : Nat) : Int) - 1074)
        .exact := by
  have hbits : (2 : Int) ^ Format.binary64.exponentBits = 2048 := rfl
  have hone : n <<< 53 * 10 ^ 0 = n <<< 53 := by rw [Nat.pow_zero, Nat.mul_one]
  have hround : roundWithAccuracy Format.binary64 .positive (n <<< 53 * 10 ^ 0)
        (((1021 : Nat) : Int) - 1074) .exact =
      roundWithAccuracy Format.binary64 .positive (n <<< 53) (((1021 : Nat) : Int) - 1074)
        .exact := by rw [hone]
  rw [UnpackedFloat.ofScientific, dif_neg hn, if_neg (by rw [hbits]; omega),
    if_neg (by rw [hbits]; omega), if_pos (Int.le_refl 0)]
  exact hround

/-- A whole number is rounded to a significand of fifty-three bits, and the exponent tells whether
it is too large for a double. -/
theorem exists_ofScientific_eq {n : Nat} (hn : n ≠ 0) :
    ∃ (m s : Nat) (hm : 0 < m), 2 ^ 52 ≤ m ∧ m < 2 ^ 53 ∧ (s ≤ 2045 ↔ n < overflow) ∧
      UnpackedFloat.ofScientific Format.binary64 n 0 =
        .finite .positive m ((s : Int) - 1074) hm := by
  have hlog := log2_shiftLeft hn 53
  have hfirst := shiftToTargetExponent_exact (n <<< 53) 1021
  have hshift : n.log2 + 53 + 1021 - 52 - 1021 = n.log2 + 1 := by omega
  rw [hlog, hshift] at hfirst
  have hlow : 2 ^ 52 * 2 ^ (n.log2 + 1) ≤ n * 2 ^ 53 := by
    have := Nat.log2_self_le hn
    rw [Nat.pow_succ]
    omega
  have hhigh : n * 2 ^ 53 < 2 ^ 53 * 2 ^ (n.log2 + 1) := by
    have : n < 2 ^ (n.log2 + 1) := Nat.lt_log2_self
    omega
  obtain ⟨hr, hr', hlast⟩ := roundedMantissa_between (Nat.two_pow_pos _) hlow hhigh
  have hrange := log2_le_iff_lt_overflow hn
  rw [← Nat.shiftLeft_eq n 53] at hr hr' hlast hrange
  rw [ofScientific_whole hn]
  by_cases hcarry : (extended (n <<< 53) (2 ^ (n.log2 + 1))).roundedMantissa = 2 ^ 53
  · rw [if_pos (hlast.1 hcarry)] at hrange
    have hsecond := shiftToTargetExponent_exact (2 ^ 53) (1021 + (n.log2 + 1))
    have hone : 53 + (1021 + (n.log2 + 1)) - 52 - (1021 + (n.log2 + 1)) = 1 := by omega
    rw [Nat.log2_two_pow, hone] at hsecond
    rw [← hcarry] at hsecond
    have hmantissa : (extended (2 ^ 53) (2 ^ 1)).mantissa = 2 ^ 52 := by simp [extended]
    rw [← hcarry] at hmantissa
    refine ⟨2 ^ 52, 1021 + (n.log2 + 1) + 1, by decide, Nat.le_refl _, by decide, ?_, ?_⟩
    · rw [← hrange]
      omega
    · exact roundWithAccuracy_eq_finite (by decide) hfirst hsecond hmantissa
  · rw [if_neg (mt hlast.2 hcarry)] at hrange
    generalize hm : (extended (n <<< 53) (2 ^ (n.log2 + 1))).roundedMantissa = m at *
    have hlog : m.log2 = 52 := (Nat.log2_eq_iff (by omega)).2 ⟨hr, by omega⟩
    have hsecond := shiftToTargetExponent_exact m (1021 + (n.log2 + 1))
    have hnone : 52 + (1021 + (n.log2 + 1)) - 52 - (1021 + (n.log2 + 1)) = 0 := by omega
    rw [hlog, hnone] at hsecond
    rw [← hm] at hsecond
    refine ⟨m, 1021 + (n.log2 + 1), by omega, hr, by omega, ?_, ?_⟩
    · rw [← hrange]
      omega
    · exact roundWithAccuracy_eq_finite (by omega) hfirst hsecond (by rw [hm]; simp [extended])

/-- An exponent beyond the range of doubles makes the result infinite. -/
theorem pack_eq_infinity {m s : Nat} (hm : 0 < m) (hs : 2045 < s) :
    Float.ofModel (Float.Model.pack (.finite .positive m ((s : Int) - 1074) hm)) = infinity := by
  have hbiased : ((s : Int) - 1074 + Format.binary64.exponentBias +
      Format.binary64.mantissaBitsWithoutImplicit).toNat = s + 1 := by
    have hbias : (Format.binary64.exponentBias : Int) = 1023 := rfl
    have hbits : (Format.binary64.mantissaBitsWithoutImplicit : Int) = 52 := rfl
    rw [hbias, hbits]
    omega
  have hexponent : 2 ^ Format.binary64.exponentBits = 2048 := rfl
  have hpack : UnpackedFloat.pack Format.binary64 (.finite .positive m ((s : Int) - 1074) hm) =
      packedInfinity Format.binary64 .positive := by
    rw [UnpackedFloat.pack]
    dsimp only
    rw [hbiased, hexponent, if_pos (by omega)]
  apply eq_of_toNat_toBits_eq
  have hbits := congrArg BitVec.toNat hpack
  exact Eq.trans hbits (by decide)

/-! ## Small whole numbers -/

/-- A significand of fifty-three bits with zeros behind it is rounded to itself. -/
theorem roundWithAccuracy_exact {σ : Sign} {m : Nat} (a k : Nat) (hlow : 2 ^ 52 ≤ m)
    (hhigh : m < 2 ^ 53) :
    roundWithAccuracy Format.binary64 σ (m * 2 ^ k) ((a : Int) - 1074) .exact =
      .finite σ m (((a + k : Nat) : Int) - 1074) (by omega) := by
  have hlog : m.log2 = 52 := (Nat.log2_eq_iff (by omega)).2 ⟨hlow, hhigh⟩
  have hlog' : (m * 2 ^ k).log2 = 52 + k := by
    rw [← Nat.shiftLeft_eq, log2_shiftLeft (by omega), hlog]
  have hfirst := shiftToTargetExponent_exact (m * 2 ^ k) a
  have hsecond := shiftToTargetExponent_exact m (a + k)
  have hshift : 52 + k + a - 52 - a = k := by omega
  have hnone : 52 + (a + k) - 52 - (a + k) = 0 := by omega
  rw [hlog', hshift] at hfirst
  rw [hlog, hnone] at hsecond
  have hround : (extended (m * 2 ^ k) (2 ^ k)).roundedMantissa = m := by
    have hpos : 0 < 2 ^ k := Nat.two_pow_pos k
    rw [roundedMantissa_extended _ hpos, Nat.mul_mod_left, Nat.mul_div_cancel _ hpos,
      if_pos (by omega)]
  rw [← hround] at hsecond
  exact roundWithAccuracy_eq_finite (by omega) hfirst hsecond (by rw [hround]; simp [extended])

/-- The significand of a small whole number: the number with zeros behind it. -/
theorem shiftLeft_between {n : Nat} (hn : n ≠ 0) (h : n < 2 ^ 53) :
    2 ^ 52 ≤ n <<< (52 - n.log2) ∧ n <<< (52 - n.log2) < 2 ^ 53 := by
  have hle : n.log2 ≤ 52 := Nat.le_of_lt_succ ((Nat.log2_lt hn).2 h)
  have hlog := log2_shiftLeft hn (52 - n.log2)
  rw [Nat.add_sub_cancel' hle, Nat.log2_eq_iff] at hlog
  · exact hlog
  · rw [Nat.shiftLeft_eq]
    exact Nat.mul_ne_zero hn (Nat.two_pow_pos _).ne'

theorem ofNat_small {n : Nat} (hn : n ≠ 0) (h : n < 2 ^ 53) :
    ∃ hm : 0 < n <<< (52 - n.log2),
      UnpackedFloat.ofNat Format.binary64 n =
        .finite .positive (n <<< (52 - n.log2)) (((n.log2 + 1022 : Nat) : Int) - 1074) hm := by
  obtain ⟨hlow, hhigh⟩ := shiftLeft_between hn h
  refine ⟨by omega, ?_⟩
  have hle : n.log2 ≤ 52 := Nat.le_of_lt_succ ((Nat.log2_lt hn).2 h)
  have hcompare : compare (n : Int) 0 = .gt := Int.compare_eq_gt.mpr (by omega)
  have htarget : Format.binary64.targetExponent (totalExponent n 0) = (n.log2 : Int) - 52 := by
    have hbits : (Format.binary64.mantissaBits : Int) = 53 := rfl
    have hleast : Format.binary64.minExponent = -1074 := rfl
    rw [Format.targetExponent, totalExponent, hbits, hleast]
    omega
  have hround := roundWithAccuracy_exact (σ := .positive) (n.log2 + 1022) 0 hlow hhigh
  rw [Nat.pow_zero, Nat.mul_one, Nat.add_zero] at hround
  have hshift : (0 - ((n.log2 : Int) - 52)).toNat = 52 - n.log2 := by omega
  have hexponent : (0 : Int) - ((52 - n.log2 : Nat) : Int) =
      ((n.log2 + 1022 : Nat) : Int) - 1074 := by omega
  rw [UnpackedFloat.ofNat, UnpackedFloat.ofInt, UnpackedFloat.normalize, hcompare]
  dsimp only
  rw [UnpackedFloat.round, decreaseExponent, Int.toNat_natCast, htarget, hshift, hexponent]
  exact hround

/-- Multiplication with one changes no double with a full significand. -/
theorem mul_one_of_normal {x : Float} (hfinite : exponentBits x ≠ 2047)
    (hlow : 2 ^ 52 ≤ significand x) (hshift : 52 ≤ shift x) :
    x * Float.ofBits 0x3FF0000000000000 = x := by
  have hpos : 0 < significand x := by omega
  have hc := isCanonical_of_finite hfinite hpos
  have hone : (Float.ofBits 0x3FF0000000000000).toModel.unpack =
      .finite .positive (2 ^ 52) (-52) (by decide) := rfl
  have hsign : sign x * .positive = sign x := by cases sign x <;> rfl
  have hexponent : (shift x : Int) - 1074 + -52 = ((shift x - 52 : Nat) : Int) - 1074 := by omega
  have hround := roundWithAccuracy_exact (σ := sign x) (shift x - 52) 52 hlow hc.lt
  rw [Nat.sub_add_cancel hshift] at hround
  change Float.ofModel (Float.Model.pack
    (UnpackedFloat.mul Format.binary64 x.toModel.unpack _)) = x
  rw [hone, unpack_of_finite hfinite hpos, UnpackedFloat.mul, hsign, hexponent, hround]
  exact ofModel_pack_eq hc rfl rfl rfl

/-! ## Conversion -/

theorem ofNat_eq_of_small {n : Nat} (h : n < 2 ^ 53) :
    Float.ofNat n = n.toUInt64.toFloat * Float.ofBits 0x3FF0000000000000 := by
  change Float.ofScientific n false 0 = _
  rw [Float.ofScientific, dif_pos ⟨h, by decide⟩]
  rfl

theorem ofNat_eq_of_large {n : Nat} (h : 2 ^ 53 ≤ n) :
    Float.ofNat n =
      Float.ofModel (Float.Model.pack (UnpackedFloat.ofScientific Format.binary64 n 0)) := by
  change Float.ofScientific n false 0 = _
  rw [Float.ofScientific, dif_neg (by omega)]
  rfl

/-- Small whole numbers take a way of their own, by a product with one. -/
theorem ofNat_of_small {n : Nat} (hn : n ≠ 0) (h : n < 2 ^ 53) :
    exponentBits (Float.ofNat n) ≠ 2047 ∧ 0 < significand (Float.ofNat n) := by
  obtain ⟨hm, hsmall⟩ := ofNat_small hn h
  obtain ⟨hlow, hhigh⟩ := shiftLeft_between hn h
  have hlog : n.log2 < 53 := (Nat.log2_lt hn).2 h
  have hc : IsCanonical (n <<< (52 - n.log2)) (n.log2 + 1022) :=
    ⟨hm, hhigh, .inr hlow, by omega⟩
  have hword : n.toUInt64.toNat = n := Nat.mod_eq_of_lt (by omega)
  have hdouble : n.toUInt64.toFloat = Float.ofModel (Float.Model.pack
      (.finite .positive (n <<< (52 - n.log2)) (((n.log2 + 1022 : Nat) : Int) - 1074) hc.pos)) := by
    change Float.ofModel (Float.Model.pack
      (UnpackedFloat.ofNat Format.binary64 n.toUInt64.toNat)) = _
    rw [hword, hsmall]
  obtain ⟨-, hshift, hsignificand, hexponent⟩ := parts_of_pack .positive hc
  rw [← hdouble] at hshift hsignificand hexponent
  rw [ofNat_eq_of_small h,
    mul_one_of_normal hexponent (by rw [hsignificand]; exact hlow) (by omega), hsignificand]
  exact ⟨hexponent, hm⟩

theorem ofNat_of_lt {n : Nat} (hn : n ≠ 0) (h : n < overflow) :
    exponentBits (Float.ofNat n) ≠ 2047 ∧ 0 < significand (Float.ofNat n) := by
  by_cases hsmall : n < 2 ^ 53
  · exact ofNat_of_small hn hsmall
  · obtain ⟨m, s, hm, hlow, hhigh, hrange, hround⟩ := exists_ofScientific_eq hn
    have hc : IsCanonical m s := ⟨hm, hhigh, .inr hlow, hrange.2 h⟩
    obtain ⟨-, -, hsignificand, hexponent⟩ := parts_of_pack .positive hc
    rw [ofNat_eq_of_large (Nat.not_lt.mp hsmall), hround, hsignificand]
    exact ⟨hexponent, hm⟩

theorem ofNat_of_le {n : Nat} (h : overflow ≤ n) : Float.ofNat n = infinity := by
  have hlarge : 2 ^ 53 ≤ n := by
    obtain ⟨p, hp⟩ : ∃ p, p = 970 := ⟨_, rfl⟩
    have hpos : 0 < 2 ^ p := Nat.two_pow_pos p
    rw [overflow_eq hp] at h
    omega
  obtain ⟨m, s, hm, -, -, hrange, hround⟩ := exists_ofScientific_eq (n := n) (by omega)
  rw [ofNat_eq_of_large hlarge, hround]
  exact pack_eq_infinity hm (by omega)

theorem ofInt_of_lt {n : Int} (hn : n ≠ 0) (h : n.natAbs < overflow) :
    exponentBits (Float.ofInt n) ≠ 2047 ∧ 0 < significand (Float.ofInt n) := by
  cases n with
  | ofNat n => exact ofNat_of_lt (by rintro rfl; exact hn rfl) h
  | negSucc n =>
      obtain ⟨hexponent, hsignificand⟩ := ofNat_of_lt (Nat.succ_ne_zero n) h
      exact neg_of_significand hexponent hsignificand

/-- An integer becomes a finite double exactly below the bound. -/
theorem isFinite_ofInt_iff (n : Int) :
    (Float.ofInt n).isFinite = true ↔ n.natAbs < overflow := by
  constructor
  · intro hfinite
    by_contra hlarge
    cases n with
    | ofNat n =>
        have hresult : Float.ofInt (.ofNat n) = infinity := ofNat_of_le (Nat.not_lt.mp hlarge)
        rw [hresult] at hfinite
        exact absurd hfinite (by decide)
    | negSucc n =>
        have hresult : Float.ofInt (.negSucc n) = -infinity :=
          congrArg Float.neg (ofNat_of_le (Nat.not_lt.mp hlarge))
        rw [hresult] at hfinite
        exact absurd hfinite (by decide)
  · intro hlt
    by_cases hn : n = 0
    · subst hn
      decide
    · obtain ⟨hexponent, hsignificand⟩ := ofInt_of_lt hn hlt
      exact isFinite_of_significand hexponent hsignificand

/-- The conversion fails where the nearest double would be an infinity. -/
theorem ofInt?_eq (n : Int) :
    ofInt? n = if (Float.ofInt n).isFinite then some (Float.ofInt n) else none := by
  rw [ofInt?]
  by_cases h : n.natAbs < overflow
  · rw [if_pos h, if_pos ((isFinite_ofInt_iff n).2 h)]
  · rw [if_neg h, if_neg (mt (isFinite_ofInt_iff n).1 h)]

/-- No integer but zero becomes a zero. -/
theorem ofInt_beq_zero_iff {n : Int} (h : (Float.ofInt n).isFinite = true) :
    (Float.ofInt n == 0) = true ↔ n = 0 := by
  constructor
  · intro hzero
    by_contra hn
    obtain ⟨hexponent, hsignificand⟩ := ofInt_of_lt hn ((isFinite_ofInt_iff n).1 h)
    rw [not_beq_zero_of_significand hexponent hsignificand] at hzero
    cases hzero
  · rintro rfl
    decide

end Slang.Double
