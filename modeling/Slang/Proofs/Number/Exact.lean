import Slang.Proofs.Number.Conversion

/-!
# The number that a double stands for

A finite double stands for a rational number, which its sign, its mantissa and its exponent give.
Counting in the smallest positive double yields the same number, so a double has an integer exactly
if it stands for one.  Since significands are canonical, no two finite doubles but the two zeros
stand for the same number, and comparing doubles is comparing what they stand for.
-/

namespace Slang.Double

open Float.Model Float.Model.UnpackedFloat

/-- The number that a finite double stands for. -/
def rational? (x : Float) : Option ℚ :=
  match x.toModel.unpack with
  | .zero _ => some 0
  | .finite .positive mantissa exponent _ => some (mantissa * 2 ^ exponent)
  | .finite .negative mantissa exponent _ => some (-(mantissa * 2 ^ exponent))
  | .infinity _ | .notANumber => none

/-- The number that so many units are. -/
def Exact.rational? : Exact → Option ℚ
  | .finite units => some (units / one)
  | .infinite _ | .undefined => none

/-! ## Counting in units -/

theorem nan_eq : nan = Float.nan := by decide

theorem exact_infinity : exact infinity = .infinite false := by decide +kernel

theorem exact_neg_infinity : exact (-infinity) = .infinite true := by decide +kernel

theorem exact_nan : exact nan = .undefined := by decide +kernel

theorem exact_zero : exact 0 = .finite 0 := by decide +kernel

theorem exact_neg_zero : exact (-0) = .finite 0 := by decide +kernel

/-- So many units, with the sign of the double. -/
theorem exact_of_finite {x : Float} (h : exponentBits x ≠ 2047) :
    exact x = .finite (if isNegative x then -(magnitude x : Int) else magnitude x) :=
  if_neg h

theorem exact_eq_undefined_iff (x : Float) : exact x = .undefined ↔ x.isNaN = true := by
  rw [Float.isNaN_eq_decide_eq_nan, decide_eq_true_iff, ← nan_eq]
  constructor
  · exact eq_nan_of_exact
  · rintro rfl
    exact exact_nan

theorem magnitude_div_one (x : Float) :
    (magnitude x : ℚ) / one = significand x * 2 ^ ((shift x : Int) - 1074) := by
  obtain ⟨k, hk⟩ : ∃ k : Nat, k = 1074 := ⟨_, rfl⟩
  have hexponent : (shift x : Int) - 1074 = (shift x : Int) - (k : Int) := by rw [hk]; rfl
  have htwo : (2 : ℚ) ≠ 0 := by norm_num
  rw [hexponent, zpow_sub₀ htwo, zpow_natCast, zpow_natCast, magnitude, one_eq hk, Nat.pow_eq]
  push_cast
  exact mul_div_assoc _ _ _

/-- Counting the units of a double gives the number it stands for. -/
theorem rational?_eq (x : Float) : rational? x = (exact x).rational? := by
  rcases cases_of_double x with rfl | rfl | rfl | rfl | rfl | ⟨hfinite, hpos⟩
  · rw [exact_infinity]
    rfl
  · rw [exact_neg_infinity]
    rfl
  · rw [exact_nan]
    rfl
  · rw [exact_zero, Exact.rational?, Int.cast_zero, zero_div]
    rfl
  · rw [exact_neg_zero, Exact.rational?, Int.cast_zero, zero_div]
    rfl
  · have hunits := magnitude_div_one x
    rw [rational?, unpack_of_finite hfinite hpos, exact_of_finite hfinite, sign]
    by_cases hnegative : isNegative x = true
    · rw [if_pos hnegative, if_pos hnegative, Exact.rational?, Int.cast_neg, Int.cast_natCast,
        neg_div, hunits]
    · rw [if_neg hnegative, if_neg hnegative, Exact.rational?, Int.cast_natCast, hunits]

theorem isFinite_iff_exists_rational? (x : Float) :
    x.isFinite = true ↔ ∃ q, rational? x = some q := by
  change x.toModel.unpack.isFinite = true ↔ _
  unfold rational?
  cases x.toModel.unpack with
  | infinity σ => simp [UnpackedFloat.isFinite]
  | notANumber => simp [UnpackedFloat.isFinite]
  | zero σ => simp [UnpackedFloat.isFinite]
  | finite σ mantissa exponent hpos => cases σ <;> simp [UnpackedFloat.isFinite]

/-! ## Whole numbers -/

theorem cast_one_ne_zero : (one : ℚ) ≠ 0 :=
  Nat.cast_ne_zero.mpr one_pos.ne'

/-- As many units as `n` times one are the number `n`. -/
theorem Exact.rational?_whole (n : Int) : (Exact.finite (n * one)).rational? = some (n : ℚ) := by
  rw [Exact.rational?, Int.cast_mul, Int.cast_natCast, mul_div_cancel_right₀ _ cast_one_ne_zero]

/-- What stands for a number is known from the number. -/
theorem Exact.rational?_inj {e e' : Exact} {q : ℚ} (h : e.rational? = some q) :
    e'.rational? = some q ↔ e' = e := by
  constructor
  · intro h'
    cases e with
    | infinite negative => cases h
    | undefined => cases h
    | finite m =>
        cases e' with
        | infinite negative => cases h'
        | undefined => cases h'
        | finite n =>
            have hquotient : (n : ℚ) / one = m / one := Option.some_inj.mp (h'.trans h.symm)
            rw [div_left_inj' cast_one_ne_zero, Int.cast_inj] at hquotient
            rw [hquotient]
  · rintro rfl
    exact h

/-- The integer of a double is the number that the double stands for. -/
theorem toInt?_eq_some_iff (x : Float) (n : Int) :
    toInt? x = some n ↔ rational? x = some (n : ℚ) := by
  have hone : (one : Int) ≠ 0 := Int.natCast_ne_zero.mpr one_pos.ne'
  rw [rational?_eq, Exact.rational?_inj (Exact.rational?_whole n), toInt?]
  cases exact x with
  | infinite negative => exact ⟨nofun, nofun⟩
  | undefined => exact ⟨nofun, nofun⟩
  | finite units =>
      dsimp only
      rw [Option.ite_none_right_eq_some, Option.some_inj, Exact.finite.injEq]
      constructor
      · rintro ⟨hrest, rfl⟩
        exact (Int.ediv_mul_cancel_of_emod_eq_zero hrest).symm
      · rintro rfl
        exact ⟨Int.mul_emod_left n one, Int.mul_ediv_cancel n hone⟩

/-! ## Comparison -/

/-- A significand and an exponent are known from the number that they are. -/
theorem IsCanonical.eq_of_mul_eq {m s m' s' : Nat} (hc : IsCanonical m s) (hc' : IsCanonical m' s')
    (h : m * 2 ^ s = m' * 2 ^ s') : m = m' ∧ s = s' := by
  -- With the larger exponent comes a full significand, which is too large after shifting.
  have hle : ∀ {m s m' s' : Nat}, IsCanonical m s → IsCanonical m' s' →
      m * 2 ^ s = m' * 2 ^ s' → s ≤ s' := by
    intro m s m' s' hc hc' h
    by_contra hlt
    obtain ⟨d, rfl⟩ : ∃ d, s = s' + d + 1 := ⟨s - s' - 1, by omega⟩
    have hfull : 2 ^ 52 ≤ m := hc.normal.resolve_left (Nat.succ_ne_zero _)
    have hm : m * 2 ^ (d + 1) = m' := by
      apply Nat.eq_of_mul_eq_mul_right (Nat.two_pow_pos s')
      rw [← h, Nat.mul_assoc, ← Nat.pow_add]
      congr 2
      omega
    have hshift : 2 ^ 1 ≤ 2 ^ (d + 1) := Nat.pow_le_pow_right Nat.two_pos (by omega)
    have hlarge : 2 ^ 52 * 2 ^ 1 ≤ m * 2 ^ (d + 1) := Nat.mul_le_mul hfull hshift
    have hlt' := hc'.lt
    omega
  have hs : s = s' := le_antisymm (hle hc hc' h) (hle hc' hc h.symm)
  subst hs
  exact ⟨Nat.eq_of_mul_eq_mul_right (Nat.two_pow_pos s) h, rfl⟩

theorem isZero_of_magnitude_eq_zero {x : Float} (h : magnitude x = 0) : x = 0 ∨ x = -0 := by
  have hsignificand : significand x = 0 :=
    (Nat.mul_eq_zero.mp h).resolve_right (Nat.two_pow_pos (shift x)).ne'
  have hx := eq_zero_of_significand_eq_zero hsignificand
  split at hx
  · exact .inr hx
  · exact .inl hx

/-- A number other than zero has one sign. -/
theorem signed_inj {s t : Bool} {a b : Nat}
    (h : (if s then -(a : Int) else a) = if t then -(b : Int) else b) :
    a = b ∧ (a ≠ 0 → s = t) := by
  cases s <;> cases t <;> simp at h ⊢ <;> omega

/-- Finite doubles that stand for the same number are the same, unless they are zeros. -/
theorem eq_of_magnitude_eq {x y : Float} (hx : exponentBits x ≠ 2047) (hy : exponentBits y ≠ 2047)
    (hsign : isNegative x = isNegative y) (hmagnitude : magnitude x = magnitude y)
    (hpos : magnitude x ≠ 0) : x = y := by
  have hsignificand {z : Float} (hz : magnitude z ≠ 0) : 0 < significand z :=
    Nat.pos_of_ne_zero fun hzero => hz (by rw [magnitude, hzero, Nat.zero_mul])
  have hcx := isCanonical_of_finite hx (hsignificand hpos)
  have hcy := isCanonical_of_finite hy (hsignificand (hmagnitude ▸ hpos))
  obtain ⟨hm, hs⟩ := hcx.eq_of_mul_eq hcy hmagnitude
  apply eq_of_toNat_toBits_eq
  rw [toNat_toBits x, toNat_toBits y, hm, hs, sign, sign, hsign]

/-- Two doubles with one exact value are the same double, or they are zeros. -/
theorem eq_or_zeros_of_exact_eq {x y : Float} (h : exact x = exact y) :
    x = y ∨ (x = 0 ∨ x = -0) ∧ (y = 0 ∨ y = -0) := by
  cases hy : exact y with
  | undefined => exact .inl ((eq_nan_of_exact (h.trans hy)).trans (eq_nan_of_exact hy).symm)
  | infinite negative =>
      exact .inl ((eq_infinity_of_exact (h.trans hy)).trans (eq_infinity_of_exact hy).symm)
  | finite units =>
      have hfinite {z : Float} (hz : exact z = .finite units) : exponentBits z ≠ 2047 := by
        intro hones
        rw [exact, if_pos hones] at hz
        split at hz <;> cases hz
      have hx := hfinite (h.trans hy)
      have hy := hfinite hy
      rw [exact_of_finite hx, exact_of_finite hy, Exact.finite.injEq] at h
      obtain ⟨hmagnitude, hsign⟩ := signed_inj h
      by_cases hzero : magnitude x = 0
      · exact .inr ⟨isZero_of_magnitude_eq_zero hzero,
          isZero_of_magnitude_eq_zero (hmagnitude ▸ hzero)⟩
      · exact .inl (eq_of_magnitude_eq hx hy (hsign hzero) hmagnitude hzero)

/-- Doubles compare equal if they have one exact value and are numbers. -/
theorem beq_iff_exact_eq (x y : Float) :
    (x == y) = true ↔ exact x = exact y ∧ exact x ≠ .undefined := by
  have hnumber (z : Float) : z ≠ Float.nan ↔ exact z ≠ .undefined := by
    rw [Ne, Ne, exact_eq_undefined_iff, Float.isNaN_eq_decide_eq_nan, decide_eq_true_iff]
  rw [Float.beq_iff_ne_nan_and_eq, hnumber, hnumber]
  constructor
  · rintro ⟨hx, -, rfl | ⟨rfl, rfl⟩ | ⟨rfl, rfl⟩⟩
    · exact ⟨rfl, hx⟩
    · exact ⟨exact_zero.trans exact_neg_zero.symm, hx⟩
    · exact ⟨exact_neg_zero.trans exact_zero.symm, hx⟩
  · rintro ⟨h, hx⟩
    refine ⟨hx, h ▸ hx, ?_⟩
    rcases eq_or_zeros_of_exact_eq h with hsame | ⟨rfl | rfl, rfl | rfl⟩
    · exact .inl hsame
    · exact .inl rfl
    · exact .inr (.inl ⟨rfl, rfl⟩)
    · exact .inr (.inr ⟨rfl, rfl⟩)
    · exact .inl rfl

end Slang.Double
