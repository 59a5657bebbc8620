import Mathlib
import Slang.Number.Double

/-!
# The bits of a double

A double is its bits, and of a finite double the bits are, as a number, the sum of its sign, its
shift and its significand. So a double is known from these three, packing them gives the double
back, and negation changes the sign alone.
-/

namespace Slang.Double

open Float.Model Float.Model.UnpackedFloat

/-! ## Units and powers -/

theorem one_eq {k : Nat} (h : k = 1074) : one = 2 ^ k := by
  unfold one
  rw [← h]
  rfl

theorem one_pos : 0 < one := by
  obtain ⟨k, hk⟩ : ∃ k, k = 1074 := ⟨_, rfl⟩
  rw [one_eq hk]
  exact Nat.two_pow_pos k

theorem two_pow_mul_two_pow {a b : Nat} (h : a + b = 1074) : 2 ^ a * 2 ^ b = one := by
  rw [one_eq h, Nat.pow_add]

theorem two_pow_mul_one (k : Nat) : 2 ^ k * one = 2 ^ (k + 1074) := by
  rw [one_eq rfl, ← Nat.pow_add]

theorem ten_pow_le_two_pow {e k : Nat} (h : 10 * e ≤ 3 * k) : 10 ^ e ≤ 2 ^ k := by
  apply (Nat.pow_le_pow_iff_left (n := 3) (by decide)).1
  calc (10 ^ e) ^ 3 = (10 ^ 3) ^ e := Nat.pow_right_comm 10 e 3
    _ ≤ (2 ^ 10) ^ e := Nat.pow_le_pow_left (by decide) e
    _ = 2 ^ (10 * e) := (Nat.pow_mul 2 10 e).symm
    _ ≤ 2 ^ (k * 3) := Nat.pow_le_pow_right (by decide) (by omega)
    _ = (2 ^ k) ^ 3 := Nat.pow_mul 2 k 3

theorem two_pow_le_ten_pow {e k : Nat} (h : 28 * k ≤ 93 * e) : 2 ^ k ≤ 10 ^ e := by
  apply (Nat.pow_le_pow_iff_left (n := 28) (by decide)).1
  calc (2 ^ k) ^ 28 = 2 ^ (k * 28) := (Nat.pow_mul 2 k 28).symm
    _ ≤ 2 ^ (93 * e) := Nat.pow_le_pow_right (by decide) (by omega)
    _ = (2 ^ 93) ^ e := Nat.pow_mul 2 93 e
    _ ≤ (10 ^ 28) ^ e := Nat.pow_le_pow_left (by decide) e
    _ = (10 ^ e) ^ 28 := Nat.pow_right_comm 10 28 e

/-! ## Parts and bits -/

/-- A double is determined by its bits. -/
theorem eq_of_toNat_toBits_eq {x y : Float} (h : x.toBits.toNat = y.toBits.toNat) : x = y :=
  Float.toBits_inj.1 (UInt64.toNat.inj h)

/-- A significand and an exponent, counted from the least one, as a finite double has them. -/
structure IsCanonical (m s : Nat) : Prop where
  pos : 0 < m
  lt : m < 2 ^ 53
  normal : s = 0 ∨ 2 ^ 52 ≤ m
  le : s ≤ 2045

/-- The sign of a double. -/
def sign (x : Float) : Sign :=
  if isNegative x then .negative else .positive

theorem toNat_packComponents (sign : Sign) (e : BitVec 11) (m : BitVec 52) :
    (packComponents Format.binary64 sign e m).toNat =
      sign.toBitVec.toNat * 2 ^ 63 + e.toNat * 2 ^ 52 + m.toNat := by
  have he : sign.toBitVec.toNat <<< 11 ||| e.toNat = sign.toBitVec.toNat <<< 11 + e.toNat :=
    (Nat.shiftLeft_add_eq_or_of_lt e.isLt _).symm
  have hm (n : Nat) : n <<< 52 ||| m.toNat = n <<< 52 + m.toNat :=
    (Nat.shiftLeft_add_eq_or_of_lt m.isLt _).symm
  rw [packComponents, BitVec.toNat_append, BitVec.toNat_append, hm, he]
  simp only [Nat.shiftLeft_eq]
  ring

theorem toNat_pack_finite (sign : Sign) {m s : Nat} (hc : IsCanonical m s) :
    (UnpackedFloat.pack Format.binary64 (.finite sign m ((s : Int) - 1074) hc.pos)).toNat =
      sign.toBitVec.toNat * 2 ^ 63 + s * 2 ^ 52 + m := by
  obtain ⟨hpos, hlt, hnormal, hle⟩ := hc
  have hbiased : ((s : Int) - 1074 + Format.binary64.exponentBias +
      Format.binary64.mantissaBitsWithoutImplicit).toNat = s + 1 := by
    have hbias : (Format.binary64.exponentBias : Int) = 1023 := rfl
    have hbits : (Format.binary64.mantissaBitsWithoutImplicit : Int) = 52 := rfl
    rw [hbias, hbits]
    omega
  have hmantissa : Format.binary64.mantissaBits = 53 := rfl
  have hexponent : 2 ^ Format.binary64.exponentBits = 2048 := rfl
  rw [UnpackedFloat.pack]
  dsimp only
  rw [hbiased, hmantissa, hexponent, if_neg (by omega)]
  have hlog : m.log2 < 53 := (Nat.log2_lt hpos.ne').2 hlt
  have hlog' : 52 ≤ m.log2 ↔ 2 ^ 52 ≤ m := Nat.le_log2 hpos.ne'
  by_cases hfull : 2 ^ 52 ≤ m
  · rw [if_pos (by omega), toNat_packComponents, BitVec.toNat_ofNat, BitVec.toNat_ofNat]
    omega
  · rw [if_neg (by omega), toNat_packComponents, BitVec.toNat_ofNat, BitVec.toNat_ofNat]
    omega

theorem toNat_sign (x : Float) : (sign x).toBitVec.toNat = x.toBits.toNat / 2 ^ 63 := by
  have hlt : x.toBits.toNat < 2 ^ 64 := x.toBits.toNat_lt
  unfold sign isNegative
  by_cases h : x.toBits.toNat / Nat.pow 2 63 = 1
  · rw [decide_eq_true h, if_pos rfl]
    exact h.symm
  · have hzero : x.toBits.toNat / 2 ^ 63 = 0 := by
      rw [Nat.pow_eq] at h
      omega
    rw [decide_eq_false h, if_neg (by decide), hzero]
    rfl

theorem toNat_toBits (x : Float) :
    x.toBits.toNat = (sign x).toBitVec.toNat * 2 ^ 63 + shift x * 2 ^ 52 + significand x := by
  rw [toNat_sign]
  unfold shift significand exponentBits fractionBits
  simp only [Nat.pow_eq]
  split <;> omega

theorem isCanonical_of_finite {x : Float} (hfinite : exponentBits x ≠ 2047)
    (hpos : 0 < significand x) : IsCanonical (significand x) (shift x) := by
  have hbits : exponentBits x < 2 ^ 11 := Nat.mod_lt _ (by decide)
  have hfraction : fractionBits x < 2 ^ 52 := Nat.mod_lt _ (by decide)
  refine ⟨hpos, ?_, ?_, ?_⟩
  · unfold significand
    rw [Nat.pow_eq]
    split <;> omega
  · unfold significand shift
    rw [Nat.pow_eq]
    split <;> omega
  · unfold shift
    omega

/-- A packed double has the parts that it was packed from. -/
theorem parts_of_pack (σ : Sign) {m s : Nat} (hc : IsCanonical m s) :
    let y := Float.ofModel (Float.Model.pack (.finite σ m ((s : Int) - 1074) hc.pos))
    sign y = σ ∧ shift y = s ∧ significand y = m ∧ exponentBits y ≠ 2047 := by
  intro y
  have hbits : y.toBits.toNat = σ.toBitVec.toNat * 2 ^ 63 + s * 2 ^ 52 + m :=
    toNat_pack_finite σ hc
  obtain ⟨hpos, hlt, hnormal, hle⟩ := hc
  have hsign : y.toBits.toNat / 2 ^ 63 = σ.toBitVec.toNat := by omega
  refine ⟨?_, ?_, ?_, ?_⟩
  · unfold sign isNegative
    rw [Nat.pow_eq, hsign]
    cases σ <;> rfl
  · unfold shift exponentBits
    rw [hbits]
    simp only [Nat.pow_eq]
    omega
  · unfold significand exponentBits fractionBits
    rw [hbits]
    simp only [Nat.pow_eq]
    split <;> omega
  · unfold exponentBits
    rw [hbits]
    simp only [Nat.pow_eq]
    omega

/-- Packing the parts of a finite double gives the double back. -/
theorem ofModel_pack_eq {x : Float} {m s : Nat} {σ : Sign} (hc : IsCanonical m s)
    (hsign : sign x = σ) (hshift : shift x = s) (hsignificand : significand x = m) :
    Float.ofModel (Float.Model.pack (.finite σ m ((s : Int) - 1074) hc.pos)) = x := by
  apply eq_of_toNat_toBits_eq
  rw [toNat_toBits x, hsign, hshift, hsignificand, ← toNat_pack_finite σ hc]
  rfl

theorem toNat_unpackMantissa (x : Float) :
    (@unpackMantissa Format.binary64 x.toModel.toBits.toBitVec).toNat = fractionBits x := by
  rw [unpackMantissa, BitVec.toNat_cast, BitVec.extractLsb_toNat]
  rfl

theorem toNat_unpackExponent (x : Float) :
    (@unpackExponent Format.binary64 x.toModel.toBits.toBitVec).toNat = exponentBits x := by
  rw [unpackExponent, BitVec.toNat_cast, BitVec.extractLsb_toNat, Nat.shiftRight_eq_div_pow]
  rfl

theorem ofBitVec_unpackSign (x : Float) :
    Sign.ofBitVec (@unpackSign Format.binary64 x.toModel.toBits.toBitVec) = sign x := by
  have hlt : x.toBits.toNat / 2 ^ 63 < 2 := by
    have := x.toBits.toNat_lt
    omega
  have hbit : (@unpackSign Format.binary64 x.toModel.toBits.toBitVec).toNat =
      x.toBits.toNat / 2 ^ 63 := by
    rw [unpackSign, BitVec.toNat_cast, BitVec.extractLsb_toNat, Nat.shiftRight_eq_div_pow]
    exact Nat.mod_eq_of_lt hlt
  have hzero : @unpackSign Format.binary64 x.toModel.toBits.toBitVec = 0#1 ↔
      x.toBits.toNat / 2 ^ 63 = 0 := by
    rw [← BitVec.toNat_inj, hbit]
    rfl
  unfold Sign.ofBitVec sign isNegative
  by_cases h : x.toBits.toNat / 2 ^ 63 = 0
  · rw [if_pos (hzero.2 h), Nat.pow_eq, h]
    rfl
  · have hone : x.toBits.toNat / 2 ^ 63 = 1 := by omega
    rw [if_neg (mt hzero.1 h), Nat.pow_eq, hone]
    rfl

theorem unpack_of_finite {x : Float} (hfinite : exponentBits x ≠ 2047)
    (hpos : 0 < significand x) :
    x.toModel.unpack = .finite (sign x) (significand x) ((shift x : Int) - 1074) hpos := by
  have hmantissa := toNat_unpackMantissa x
  have hexponent := toNat_unpackExponent x
  have hones : @unpackExponent Format.binary64 x.toModel.toBits.toBitVec ≠ -1#_ := by
    rw [← BitVec.toNat_inj.ne, hexponent]
    exact hfinite
  have hbias : (Format.binary64.exponentBias : Int) = 1023 := rfl
  have hbits : (Format.binary64.mantissaBitsWithoutImplicit : Int) = 52 := rfl
  rw [Float.Model.unpack, UnpackedFloat.unpack]
  dsimp only
  rw [if_neg hones]
  by_cases hzero : exponentBits x = 0
  · have hexponentZero : @unpackExponent Format.binary64 x.toModel.toBits.toBitVec = 0#_ := by
      rw [← BitVec.toNat_inj, hexponent, hzero]
      rfl
    have hmantissaPos : @unpackMantissa Format.binary64 x.toModel.toBits.toBitVec ≠ 0#_ := by
      rw [← BitVec.toNat_inj.ne, hmantissa]
      simp [significand, hzero] at hpos
      exact hpos.ne'
    rw [if_pos hexponentZero, dif_neg hmantissaPos]
    congr 1
    · exact ofBitVec_unpackSign x
    · rw [hmantissa, significand, if_pos hzero]
    · rw [hexponent, hzero, shift, hzero, hbias, hbits]
      rfl
  · have hexponentPos : @unpackExponent Format.binary64 x.toModel.toBits.toBitVec ≠ 0#_ := by
      rw [← BitVec.toNat_inj.ne, hexponent]
      exact hzero
    rw [if_neg hexponentPos]
    congr 1
    · exact ofBitVec_unpackSign x
    · have hor := Nat.shiftLeft_add_eq_or_of_lt
        (@unpackMantissa Format.binary64 x.toModel.toBits.toBitVec).isLt 1
      rw [BitVec.toNat_append, significand, if_neg hzero, ← hmantissa]
      exact hor.symm
    · rw [hexponent, shift, hbias, hbits]
      omega

/-- Negation changes the sign and nothing else. -/
theorem neg_eq_of_finite {x y : Float} (hfinite : exponentBits x ≠ 2047)
    (hpos : 0 < significand x) (hsign : sign y = -sign x) (hshift : shift y = shift x)
    (hsignificand : significand y = significand x) : -x = y := by
  have hunpacked : -x =
      Float.ofModel (Float.Model.pack (.finite (-sign x) (significand x)
        ((shift x : Int) - 1074) hpos)) := by
    change Float.ofModel (Float.Model.pack x.toModel.unpack.neg) = _
    rw [unpack_of_finite hfinite hpos]
    rfl
  rw [hunpacked]
  exact ofModel_pack_eq (isCanonical_of_finite hfinite hpos) hsign hshift hsignificand

/-! ## Zeros, infinities and the double that is no number -/

theorem eq_zero_of_significand_eq_zero {x : Float} (h : significand x = 0) :
    x = if isNegative x then -0 else 0 := by
  have hshift : shift x = 0 := by
    unfold significand at h
    unfold shift
    rw [Nat.pow_eq] at h
    split at h <;> omega
  have hbits := toNat_toBits x
  rw [h, hshift, sign] at hbits
  apply eq_of_toNat_toBits_eq
  by_cases hnegative : isNegative x
  · rw [if_pos hnegative] at hbits ⊢
    exact hbits.trans (by decide +kernel)
  · rw [if_neg hnegative] at hbits ⊢
    exact hbits.trans (by decide +kernel)

theorem eq_infinity_of_exact {x : Float} {negative : Bool} (h : exact x = .infinite negative) :
    x = if negative then -Double.infinity else Double.infinity := by
  unfold exact at h
  split at h
  case isFalse => cases h
  case isTrue hones =>
    split at h
    case isFalse => cases h
    case isTrue hfraction =>
      obtain rfl : isNegative x = negative := by simpa using h
      have hshift : shift x = 2046 := by rw [shift, hones]
      have hsignificand : significand x = 2 ^ 52 := by
        rw [significand, if_neg (by omega), hfraction]
        rfl
      have hbits := toNat_toBits x
      rw [hshift, hsignificand, sign] at hbits
      apply eq_of_toNat_toBits_eq
      by_cases hnegative : isNegative x
      · rw [if_pos hnegative] at hbits ⊢
        exact hbits.trans (by decide)
      · rw [if_neg hnegative] at hbits ⊢
        exact hbits.trans (by decide)

theorem eq_nan_of_exact {x : Float} (h : exact x = .undefined) : x = nan := by
  unfold exact at h
  split at h
  case isFalse => cases h
  case isTrue hones =>
    split at h
    case isTrue => cases h
    case isFalse hfraction =>
      have hexponent : @unpackExponent Format.binary64 x.toModel.toBits.toBitVec = -1#_ := by
        rw [← BitVec.toNat_inj, toNat_unpackExponent, hones]
        rfl
      have hmantissa : @unpackMantissa Format.binary64 x.toModel.toBits.toBitVec ≠ 0#_ := by
        rw [← BitVec.toNat_inj.ne, toNat_unpackMantissa]
        exact hfraction
      have hpacked := x.toModel.valid.eq_packedNaN hexponent hmantissa
      apply eq_of_toNat_toBits_eq
      have hbits : x.toBits.toNat = (packedNaN Format.binary64).toNat :=
        congrArg BitVec.toNat hpacked
      exact hbits.trans (by decide)

end Slang.Double
