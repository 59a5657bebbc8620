import Mathlib.Tactic.Ring
import Slang.Number.Numeral

/-!
# Rows of digits

What a row of digits denotes, place by place, and that the digits of a number denote that number.
-/

namespace Slang

theorem isWritable_iff (n : Int) : isWritable n = true ↔ n.natAbs < 10 ^ digitLimit := by
  unfold isWritable natDigits
  rw [decide_eq_true_eq]
  exact Nat.length_toDigits_le_iff (by decide) (by decide)

theorem isWritable_neg (n : Int) : isWritable (-n) = isWritable n := by
  simp [isWritable]

/-! ## The value of a row -/

theorem digitValue_lt {c : Char} (h : isDigit c = true) : c.toNat - '0'.toNat < 10 := by
  have hle : c ≤ '9' := by
    unfold isDigit at h
    simp only [Bool.and_eq_true, decide_eq_true_eq] at h
    exact h.2
  have hnat : c.toNat ≤ '9'.toNat := hle
  have hnine : '9'.toNat = 57 := rfl
  have hzero : '0'.toNat = 48 := rfl
  omega

theorem digitsValue_append (front back : List Char) :
    digitsValue (front ++ back) = digitsValue front * 10 ^ back.length + digitsValue back := by
  have hfront : digitsValue (front ++ back) = Nat.ofDigitChars 10 back (digitsValue front) :=
    List.foldl_append
  rw [hfront, Nat.ofDigitChars_eq_ofDigitChars_zero, Nat.mul_comm]
  rfl

theorem digitsValue_zeros (k : Nat) : digitsValue (Double.zeros k) = 0 :=
  Nat.ofDigitChars_replicate_zero.trans (Nat.mul_zero _)

theorem digitsValue_lt {digits : List Char} (h : ∀ c ∈ digits, isDigit c = true) :
    digitsValue digits < 10 ^ digits.length := by
  induction digits with
  | nil => decide
  | cons c later ih =>
    have hc := digitValue_lt (h c (by simp))
    have hlater := ih fun d hd => h d (by simp [hd])
    have hvalue : digitsValue [c] ≤ 9 := by
      simp only [digitsValue, List.foldl_cons, List.foldl_nil]
      omega
    rw [← List.singleton_append, digitsValue_append, List.length_append, List.length_singleton,
      Nat.add_comm 1, Nat.pow_succ]
    have := Nat.mul_le_mul_right (10 ^ later.length) hvalue
    omega

/-! ## The digits of a number -/

theorem digitsValue_natDigits (n : Nat) : digitsValue (natDigits n) = n :=
  Nat.ofDigitChars_ten_toDigits

theorem natDigits_ne_nil (n : Nat) : natDigits n ≠ [] :=
  Nat.toDigits_ne_nil

theorem isDigit_of_mem_natDigits {n : Nat} : ∀ c ∈ natDigits n, isDigit c = true := by
  intro c hc
  have h := Nat.isDigit_of_mem_toDigits (by decide) (by decide) hc
  simpa [isDigit, Char.isDigit, Char.le_def, UInt32.le_iff_toNat_le] using h

theorem digitChar_ne_zero {n : Nat} (hlt : n < 10) (hpos : n ≠ 0) : n.digitChar ≠ '0' := by
  have hall : ∀ k < 10, k ≠ 0 → Nat.digitChar k ≠ '0' := by decide
  exact hall n hlt hpos

/-- Only the number zero has digits that start with zero. -/
theorem eq_zero_of_head_natDigits {n : Nat} (h : (natDigits n).head? = some '0') : n = 0 := by
  induction n using Nat.strong_induction_on with
  | h n ih =>
    by_cases hlt : n < 10
    · rw [natDigits, Nat.toDigits_of_lt_base hlt, List.head?_cons, Option.some.injEq] at h
      by_contra hpos
      exact digitChar_ne_zero hlt hpos h
    · obtain ⟨c, later, hdigits⟩ := List.exists_cons_of_ne_nil (natDigits_ne_nil (n / 10))
      have hsplit : natDigits n = natDigits (n / 10) ++ [(n % 10).digitChar] :=
        Nat.toDigits_of_base_le (by decide) (by omega)
      have hhead : (natDigits (n / 10)).head? = some '0' := by
        rw [hsplit, hdigits] at h
        rw [hdigits]
        exact h
      have hzero := ih (n / 10) (by omega) hhead
      omega

/-! ## Splitting a row off a text -/

/-- The text does not start with a digit. -/
def StartsNoDigit (rest : List Char) : Prop :=
  ∀ c ∈ rest.head?, isDigit c = false

theorem takeWhile_isDigit_append {digits rest : List Char} (h : ∀ c ∈ digits, isDigit c = true)
    (hrest : StartsNoDigit rest) : (digits ++ rest).takeWhile isDigit = digits := by
  rw [List.takeWhile_append_of_pos h]
  cases rest with
  | nil => simp
  | cons c later =>
    have hc : isDigit c = false := hrest c (by simp)
    simp [hc]

theorem dropWhile_isDigit_append {digits rest : List Char} (h : ∀ c ∈ digits, isDigit c = true)
    (hrest : StartsNoDigit rest) : (digits ++ rest).dropWhile isDigit = rest := by
  rw [List.dropWhile_append_of_pos h]
  cases rest with
  | nil => rfl
  | cons c later =>
    have hc : isDigit c = false := hrest c (by simp)
    simp [hc]

end Slang
