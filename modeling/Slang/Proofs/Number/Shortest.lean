import Slang.Proofs.Number.Rounding

/-!
# The shortest decimal reads back

A grid that is finer than a quarter of the gap between doubles has a point in the interval of a
double, right below its value, and the search reaches such a grid in time. So the shortest decimal
lies in the interval, and rounding it gives the double back.
-/

namespace Slang.Double

open Float.Model Float.Model.UnpackedFloat

/-! ## The search -/

namespace Interval

variable {i : Interval}

theorem contains_of_nearest? {n : Nat} (h : i.nearest? = some n) :
    i.contains (n * i.denominator) = true := by
  unfold nearest? at h
  dsimp only at h
  split at h
  case h_1 => cases h
  case h_2 hbelow habove => exact Option.some.inj h ▸ hbelow
  case h_3 hbelow habove => exact Option.some.inj h ▸ habove
  case h_4 hbelow habove =>
    split at h
    · exact Option.some.inj h ▸ hbelow
    · exact Option.some.inj h ▸ habove

/-- The whole number below the value is in the interval if the lower end is at least one away. -/
theorem isSome_nearest? (hpos : 0 < i.denominator) (hlow : i.low + i.denominator ≤ i.value)
    (hhigh : i.value < i.high) : i.nearest?.isSome = true := by
  have hbelow : i.value / i.denominator * i.denominator ≤ i.value := Nat.div_mul_le_self _ _
  have habove : i.value < i.value / i.denominator * i.denominator + i.denominator :=
    Nat.lt_div_mul_add hpos
  have hcontains : i.contains (i.value / i.denominator * i.denominator) = true := by
    unfold contains
    split <;> simp <;> omega
  unfold nearest?
  dsimp only
  rw [hcontains]
  split
  · contradiction
  · rfl
  · contradiction
  · split <;> rfl

theorem contains_search (exponent : Int) (steps : Nat)
    (h : ∃ k < steps, (i.scale (exponent - k)).nearest?.isSome = true) :
    (i.scale (i.search exponent steps).exponent).contains
      ((i.search exponent steps).digits *
        (i.scale (i.search exponent steps).exponent).denominator) = true := by
  induction steps generalizing exponent with
  | zero => omega
  | succ steps ih =>
    unfold search
    split
    case h_1 digits hfound => exact contains_of_nearest? hfound
    case h_2 hnone =>
      apply ih
      obtain ⟨k, hk, hsome⟩ := h
      cases k with
      | zero => simp [hnone] at hsome
      | succ k =>
        have hexponent : exponent - 1 - (k : Int) = exponent - ((k + 1 : Nat) : Int) := by omega
        exact ⟨k, by omega, hexponent ▸ hsome⟩

end Interval

/-! ## Decimals in the interval of a double -/

theorem gap_eq (x : Float) :
    (if fractionBits x = 0 && exponentBits x > 1 then 1 else 2) =
      gap (significand x) (shift x) := by
  have hfraction : fractionBits x < 2 ^ 52 := Nat.mod_lt _ (by decide)
  have hiff : (fractionBits x = 0 && exponentBits x > 1) = true ↔
      significand x = 2 ^ 52 ∧ 0 < shift x := by
    unfold significand shift
    rw [Nat.pow_eq]
    simp only [Bool.and_eq_true, decide_eq_true_eq]
    split <;> omega
  unfold gap
  simp only [hiff]

theorem contains_scale (i : Interval) (d : Decimal) :
    (i.scale d.exponent).contains (d.digits * (i.scale d.exponent).denominator) =
      if i.closed then
        i.low * d.denominator ≤ d.numerator * i.denominator &&
          d.numerator * i.denominator ≤ i.high * d.denominator
      else
        i.low * d.denominator < d.numerator * i.denominator &&
          d.numerator * i.denominator < i.high * d.denominator := by
  obtain ⟨digits, exponent⟩ := d
  cases exponent with
  | ofNat e =>
    have hproduct : digits * (i.denominator * 10 ^ e) = digits * 10 ^ e * i.denominator := by ring
    simp [Interval.scale, Interval.contains, Decimal.numerator, Decimal.denominator, hproduct]
  | negSucc e =>
    simp [Interval.scale, Interval.contains, Decimal.numerator, Decimal.denominator]
    rfl

theorem isRounded_of_contains {x : Float} {d : Decimal}
    (h : ((interval x).scale d.exponent).contains
      (d.digits * ((interval x).scale d.exponent).denominator) = true) :
    d.IsRounded (significand x) (shift x) := by
  have hproduct : d.numerator * (4 * one) = 4 * (d.numerator * one) := Nat.mul_left_comm ..
  rw [contains_scale] at h
  simp only [interval, gap_eq, hproduct, Nat.pow_eq] at h
  by_cases heven : significand x % 2 = 0
  · simp only [heven, decide_true, if_true, Bool.and_eq_true, decide_eq_true_eq] at h
    exact ⟨h.1, h.2, fun hodd => by omega⟩
  · simp only [heven, decide_false, Bool.false_eq_true, if_false, Bool.and_eq_true,
      decide_eq_true_eq] at h
    exact ⟨h.1.le, h.2.le, fun _ => h⟩

/-! ## The grid that is fine enough -/

theorem log2_magnitude_le {x : Float} (hc : IsCanonical (significand x) (shift x)) :
    Nat.log2 (magnitude x) ≤ shift x + 52 := by
  have hpos : magnitude x ≠ 0 :=
    (Nat.mul_pos hc.pos (Nat.pow_pos (by decide))).ne'
  have hlt : magnitude x < 2 ^ (shift x + 53) := by
    rw [magnitude, Nat.pow_eq, Nat.pow_add, Nat.mul_comm]
    exact Nat.mul_lt_mul_of_pos_left hc.lt (Nat.pow_pos (by decide))
  have := (Nat.log2_lt hpos).2 hlt
  omega

theorem four_mul_one {k : Nat} (h : k = 2 + 1074) : 4 * one = 2 ^ k := by
  have hfour : (4 : Nat) = 2 ^ 2 := rfl
  rw [h, ← two_pow_mul_one, ← hfour]

theorem interval_low_add {x : Float} (hc : IsCanonical (significand x) (shift x)) :
    (interval x).low + 2 ^ shift x ≤ (interval x).value := by
  have hpos := gap_pos (significand x) (shift x)
  have hle := gap_le (significand x) (shift x)
  have hsignificand := hc.pos
  simp only [interval, gap_eq, Nat.pow_eq]
  rw [← Nat.succ_mul]
  exact Nat.mul_le_mul_right _ (by omega)

theorem interval_value_lt (x : Float) : (interval x).value < (interval x).high :=
  Nat.mul_lt_mul_of_pos_right (by omega) (Nat.pow_pos (by decide))

/-- Nineteen powers of ten below the first grid, the grid is finer than a quarter of the gap. -/
theorem isSome_nearest?_of_fine {x : Float} (hc : IsCanonical (significand x) (shift x)) :
    ((interval x).scale (topExponent x - 19)).nearest?.isSome = true := by
  have hlog := log2_magnitude_le hc
  have hlow := interval_low_add hc
  have hhigh := interval_value_lt x
  have hle := hc.le
  have htop : topExponent x - 19 ≤ ((shift x : Int) - 1021) * 30103 / 100000 - 18 := by
    unfold topExponent
    omega
  obtain ⟨k, hk⟩ : ∃ k, k = 2 + 1074 := ⟨_, rfl⟩
  generalize topExponent x - 19 = exponent at *
  cases exponent with
  | ofNat e =>
    rw [Int.ofNat_eq_natCast] at htop
    have hgrid : 4 * one * 10 ^ e ≤ 2 ^ shift x := by
      calc 4 * one * 10 ^ e = 10 ^ e * 2 ^ k := by rw [four_mul_one hk, Nat.mul_comm]
        _ ≤ 2 ^ (shift x - k) * 2 ^ k :=
          Nat.mul_le_mul_right _ (ten_pow_le_two_pow (by omega))
        _ = 2 ^ shift x := Nat.pow_sub_mul_pow 2 (by omega)
    apply Interval.isSome_nearest?
    · exact Nat.mul_pos (Nat.mul_pos (by decide) one_pos) (Nat.pow_pos (by decide))
    · exact (Nat.add_le_add_left hgrid _).trans hlow
    · exact hhigh
  | negSucc e =>
    have hgrid : 4 * one ≤ 2 ^ shift x * 10 ^ (e + 1) := by
      calc 4 * one = 2 ^ k := four_mul_one hk
        _ ≤ 2 ^ (shift x + (k - shift x)) := Nat.pow_le_pow_right (by decide) (by omega)
        _ = 2 ^ shift x * 2 ^ (k - shift x) := Nat.pow_add 2 _ _
        _ ≤ 2 ^ shift x * 10 ^ (e + 1) :=
          Nat.mul_le_mul_left _ (two_pow_le_ten_pow (by omega))
    apply Interval.isSome_nearest?
    · exact Nat.mul_pos (by decide) one_pos
    · calc (interval x).low * 10 ^ (e + 1) + 4 * one
          ≤ (interval x).low * 10 ^ (e + 1) + 2 ^ shift x * 10 ^ (e + 1) :=
            Nat.add_le_add_left hgrid _
        _ = ((interval x).low + 2 ^ shift x) * 10 ^ (e + 1) := (Nat.add_mul ..).symm
        _ ≤ (interval x).value * 10 ^ (e + 1) := Nat.mul_le_mul_right _ hlow
    · exact Nat.mul_lt_mul_of_pos_right hhigh (Nat.pow_pos (by decide))

/-- The shortest decimal of a double lies in its interval. -/
theorem isRounded_shortest {x : Float} (hc : IsCanonical (significand x) (shift x)) :
    (shortest x).IsRounded (significand x) (shift x) := by
  have hmagnitude : magnitude x ≠ 0 := (Nat.mul_pos hc.pos (Nat.pow_pos (by decide))).ne'
  rw [shortest, if_neg hmagnitude]
  apply isRounded_of_contains
  apply Interval.contains_search
  exact ⟨19, by decide, isSome_nearest?_of_fine hc⟩

/-- A decimal in the interval of a finite double is read as that double. -/
theorem toDouble_of_isRounded {x : Float} {d : Decimal} (hfinite : exponentBits x ≠ 2047)
    (hpos : 0 < significand x) (h : d.IsRounded (significand x) (shift x)) :
    Numeral.toDouble ⟨isNegative x, d⟩ = x := by
  have hc := isCanonical_of_finite hfinite hpos
  rw [Numeral.toDouble, ofDecimal_of_isRounded hc h]
  by_cases hnegative : isNegative x
  · rw [if_pos hnegative]
    obtain ⟨hsign, hshift, hsignificand, hones⟩ := parts_of_pack .positive hc
    apply neg_eq_of_finite hones (by rw [hsignificand]; exact hpos) _ hshift.symm
      hsignificand.symm
    rw [hsign, sign, if_pos hnegative]
    rfl
  · rw [if_neg hnegative]
    exact ofModel_pack_eq hc (by rw [sign, if_neg hnegative]) rfl rfl

end Slang.Double
