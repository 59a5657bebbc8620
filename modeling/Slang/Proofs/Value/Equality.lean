import Slang.Proofs.Number.Exact
import Slang.Value.Basic

/-!
# Equality of values

Each value stands for something: a number for its exact value, every other value for itself with its
data in normal form.  Two values are equal if they stand for the same thing, unless that is no
number at all.  So equality is symmetric and transitive, and what is not equal to itself is the
double that is no number.  Only an integer and a double can be equal across kinds, and they are if
the double stands for that very integer; no rounding takes part.
-/

namespace Slang.Value

/-! ## What a value stands for -/

/-- The exact value of a number, and any other value in normal form. -/
def standing (value : Value) : Double.Exact ⊕ Value :=
  match value.amount? with
  | some amount => .inl amount
  | none => .inr value.normal

/-- The value is the double that is no number. -/
def IsNaN : Value → Prop
  | .number x => x.isNaN = true
  | _ => False

/-- An integer, and a double that stands for exactly this integer. -/
def IsIntegerOf : Value → Value → Prop
  | .integer n, .number x => Double.rational? x = some (n : ℚ)
  | _, _ => False

/-- A value that a program can have: its characters hold text, and it is no list and no object. -/
def IsScalar : Value → Prop
  | .character content => ∃ s, content = .text s
  | .list _ | .record _ => False
  | _ => True

theorem standing_integer (n : Int) : (integer n).standing = .inl (.finite (n * Double.one)) :=
  rfl

theorem standing_number (x : Float) : (number x).standing = .inl (Double.exact x) :=
  rfl

theorem standing_of_not_isNumber {value : Value} (h : value.isNumber = false) :
    value.standing = .inr value.normal := by
  cases value with
  | integer n => cases h
  | number x => cases h
  | _ => rfl

theorem exists_standing_of_isNumber {value : Value} (h : value.isNumber = true) :
    ∃ amount, value.standing = .inl amount := by
  cases value with
  | integer n => exact ⟨_, standing_integer n⟩
  | number x => exact ⟨_, standing_number x⟩
  | _ => cases h

theorem isNaN_iff (value : Value) : value.IsNaN ↔ value.standing = .inl .undefined := by
  cases value with
  | number x =>
      rw [standing_number, Sum.inl.injEq, Double.exact_eq_undefined_iff]
      rfl
  | integer n => exact ⟨nofun, nofun⟩
  | _ => exact ⟨nofun, nofun⟩

/-- Two values are equal if they stand for the same thing and that is not no number. -/
theorem equals_iff (a b : Value) :
    a.equals b = true ↔ a.standing = b.standing ∧ a.standing ≠ .inl .undefined := by
  unfold equals standing
  cases a.amount? with
  | some x =>
      cases b.amount? with
      | some y => simp
      | none => simp
  | none =>
      cases b.amount? with
      | some y => simp
      | none => simp

/-! ## An equivalence but for one value -/

theorem equals_symm {a b : Value} (h : a.equals b = true) : b.equals a = true := by
  rw [equals_iff] at h ⊢
  exact ⟨h.1.symm, h.1 ▸ h.2⟩

theorem equals_trans {a b c : Value} (hab : a.equals b = true) (hbc : b.equals c = true) :
    a.equals c = true := by
  rw [equals_iff] at hab hbc ⊢
  exact ⟨hab.1.trans hbc.1, hab.2⟩

theorem equals_self_iff (a : Value) : a.equals a = true ↔ ¬a.IsNaN := by
  rw [equals_iff, isNaN_iff]
  exact and_iff_right rfl

theorem not_equals_of_isNaN {a : Value} (h : a.IsNaN) (b : Value) : a.equals b = false := by
  rw [← Bool.not_eq_true, equals_iff]
  rintro ⟨-, hnumber⟩
  exact hnumber ((isNaN_iff a).mp h)

/-! ## Numbers -/

/-- Doubles are equal values if they compare equal. -/
theorem equals_number (x y : Float) : (number x).equals (number y) = (x == y) := by
  rw [Bool.eq_iff_iff, equals_iff, standing_number, standing_number, Double.beq_iff_exact_eq,
    Sum.inl.injEq, Ne, Sum.inl.injEq]

/-- A number equals a finite double if it stands for the same number. -/
theorem equals_number_iff {a : Value} {e : Double.Exact} {y : Float} {q : ℚ}
    (ha : a.standing = .inl e) (hq : e.rational? = some q) :
    a.equals (number y) = true ↔ Double.rational? y = some q := by
  have hdefined : e ≠ .undefined := by
    rintro rfl
    cases hq
  rw [equals_iff, ha, standing_number, Sum.inl.injEq, Ne, Sum.inl.injEq, Double.rational?_eq,
    Double.Exact.rational?_inj hq, and_iff_left hdefined]
  exact eq_comm

theorem equals_finite_iff {x y : Float} {p q : ℚ} (hx : Double.rational? x = some p)
    (hy : Double.rational? y = some q) : (number x).equals (number y) = true ↔ p = q := by
  rw [Double.rational?_eq] at hx
  rw [equals_number_iff (standing_number x) hx, hy, Option.some_inj]
  exact eq_comm

theorem equals_integer_number_iff (n : Int) (x : Float) :
    (integer n).equals (number x) = true ↔ Double.rational? x = some (n : ℚ) :=
  equals_number_iff (standing_integer n) (Double.Exact.rational?_whole n)

/-! ## Kinds -/

theorem kind_normal (value : Value) : value.normal.kind = value.kind := by
  cases value <;> rfl

/-- Only an integer and a double can be equal and differ in kind. -/
theorem kind_eq_or_isIntegerOf {a b : Value} (h : a.equals b = true) :
    a.kind = b.kind ∨ a.IsIntegerOf b ∨ b.IsIntegerOf a := by
  have hstanding := ((equals_iff a b).mp h).1
  cases ha : a.isNumber with
  | false =>
      rw [standing_of_not_isNumber ha] at hstanding
      cases hb : b.isNumber with
      | true =>
          obtain ⟨amount, hamount⟩ := exists_standing_of_isNumber hb
          cases hstanding.trans hamount
      | false =>
          rw [standing_of_not_isNumber hb, Sum.inr.injEq] at hstanding
          rw [← kind_normal a, hstanding, kind_normal]
          exact .inl rfl
  | true =>
      cases hb : b.isNumber with
      | false =>
          obtain ⟨amount, hamount⟩ := exists_standing_of_isNumber ha
          rw [hamount, standing_of_not_isNumber hb] at hstanding
          cases hstanding
      | true =>
          cases a with
          | integer n =>
              cases b with
              | integer m => exact .inl rfl
              | number x => exact .inr (.inl ((equals_integer_number_iff n x).mp h))
              | _ => cases hb
          | number x =>
              cases b with
              | integer n =>
                  exact .inr (.inr ((equals_integer_number_iff n x).mp (equals_symm h)))
              | number y => exact .inl rfl
              | _ => cases hb
          | _ => cases ha

theorem normal_of_isScalar {value : Value} (h : value.IsScalar) : value.normal = value := by
  cases value with
  | character content =>
      obtain ⟨s, rfl⟩ := h
      rw [normal, Json.normal]
  | list items => exact h.elim
  | record fields => exact h.elim
  | _ => rfl

theorem equals_integer_iff (m n : Int) : (integer m).equals (integer n) = true ↔ m = n := by
  have hone : (Double.one : Int) ≠ 0 := Int.natCast_ne_zero.mpr Double.one_pos.ne'
  rw [equals_iff, standing_integer, standing_integer, and_iff_left nofun, Sum.inl.injEq,
    Double.Exact.finite.injEq, mul_left_inj' hone]

/-- Apart from doubles, values of one kind are equal only if they are the same. -/
theorem equals_iff_eq_of_kind_eq {a b : Value} (ha : a.IsScalar) (hb : b.IsScalar)
    (hkind : a.kind = b.kind) (hnumber : a.kind ≠ .number) : a.equals b = true ↔ a = b := by
  cases hisNumber : a.isNumber with
  | true =>
      cases a with
      | integer m =>
          cases b with
          | integer n => rw [equals_integer_iff, integer.injEq]
          | _ => cases hkind
      | number x => exact (hnumber rfl).elim
      | _ => cases hisNumber
  | false =>
      have hother : b.isNumber = false := by
        cases b with
        | integer n => cases a <;> cases hkind; cases hisNumber
        | number x => exact (hnumber hkind).elim
        | _ => rfl
      rw [equals_iff, standing_of_not_isNumber hisNumber, standing_of_not_isNumber hother,
        normal_of_isScalar ha, normal_of_isScalar hb, and_iff_left nofun, Sum.inr.injEq]

theorem not_equals_of_kind_ne {a b : Value} (hkind : a.kind ≠ b.kind) (ha : ¬a.IsIntegerOf b)
    (hb : ¬b.IsIntegerOf a) : a.equals b = false := by
  rw [← Bool.not_eq_true]
  intro h
  rcases kind_eq_or_isIntegerOf h with hsame | hleft | hright
  · exact hkind hsame
  · exact ha hleft
  · exact hb hright

theorem equals_of_isIntegerOf {a b : Value} (h : a.IsIntegerOf b) : a.equals b = true := by
  cases a with
  | integer n =>
      cases b with
      | number x => exact (equals_integer_number_iff n x).mpr h
      | _ => exact h.elim
  | _ => exact h.elim

/-- Equality is an equivalence among all values but the double that is no number, which equals
nothing.  Values of different kinds are equal only if one is an integer and the other a double that
stands for exactly this integer.  Among doubles it is comparison, which goes by the exact value, and
in every other kind it is identity. -/
theorem equality_is_equivalence_away_from_nan :
    (∀ a b : Value, a.equals b = true → b.equals a = true) ∧
    (∀ a b c : Value, a.equals b = true → b.equals c = true → a.equals c = true) ∧
    (∀ a : Value, a.equals a = true ↔ ¬a.IsNaN) ∧
    (∀ a b : Value, a.IsNaN → a.equals b = false) ∧
    (∀ a b : Value, a.kind ≠ b.kind →
      (a.equals b = true ↔ a.IsIntegerOf b ∨ b.IsIntegerOf a)) ∧
    (∀ a : Value, ghosted.equals a = true ↔ a = ghosted) ∧
    (∀ holds (a : Value), a.isNumber = true → (boolean holds).equals a = false) ∧
    (∀ content s, (character content).equals (text s) = false) ∧
    (∀ x y, (number x).equals (number y) = (x == y)) ∧
    (∀ x y p q, Double.rational? x = some p → Double.rational? y = some q →
      ((number x).equals (number y) = true ↔ p = q)) ∧
    (∀ a b : Value, a.IsScalar → b.IsScalar → a.kind = b.kind → a.kind ≠ .number →
      (a.equals b = true ↔ a = b)) := by
  refine ⟨fun _ _ => equals_symm, fun _ _ _ => equals_trans, equals_self_iff,
    fun a b hnan => not_equals_of_isNaN hnan b, fun a b hkind => ⟨fun h => ?_, ?_⟩,
    fun a => ⟨fun h => ?_, ?_⟩, fun holds a hnumber => ?_,
    fun content s => not_equals_of_kind_ne nofun id id, equals_number,
    fun _ _ _ _ => equals_finite_iff, fun _ _ => equals_iff_eq_of_kind_eq⟩
  · exact (kind_eq_or_isIntegerOf h).resolve_left hkind
  · rintro (h | h)
    · exact equals_of_isIntegerOf h
    · exact equals_symm (equals_of_isIntegerOf h)
  · rcases kind_eq_or_isIntegerOf h with hkind | hleft | hright
    · cases a <;> cases hkind
      rfl
    · exact hleft.elim
    · cases a <;> exact hright.elim
  · rintro rfl
    exact (equals_self_iff ghosted).mpr id
  · cases a with
    | integer n => exact not_equals_of_kind_ne nofun id id
    | number x => exact not_equals_of_kind_ne nofun id id
    | _ => cases hnumber

/-- The double after which not every integer is a double. -/
def Sample.wide : Float := Float.ofBits 0x4340000000000000

theorem Sample.rational?_wide : Double.rational? wide = some (9007199254740992 : ℚ) := by
  have hunpacked : wide.toModel.unpack = .finite .positive (2 ^ 52) 1 (by decide) := rfl
  rw [Double.rational?, hunpacked]
  norm_num

/-- Both zeros equal the integer zero and so each other, and no integer equals a double that it
would only be rounded to. -/
theorem equality_is_equivalence_away_from_nan_zeros :
    (number 0).equals (number (-0)) = true ∧
      (integer 9007199254740992).equals (number Sample.wide) = true ∧
      (integer 9007199254740993).equals (number Sample.wide) = false := by
  obtain ⟨hsymm, htrans, -, -, hkinds, -⟩ := equality_is_equivalence_away_from_nan
  have hkinds (n : Int) (x : Float) := hkinds (integer n) (number x) nofun
  have hzero : (integer 0).equals (number 0) = true := (hkinds 0 0).mpr (.inl rfl)
  have hnegative : (integer 0).equals (number (-0)) = true := (hkinds 0 (-0)).mpr (.inl rfl)
  refine ⟨htrans _ _ _ (hsymm _ _ hzero) hnegative, ?_, ?_⟩
  · exact (hkinds _ _).mpr (.inl Sample.rational?_wide)
  · rw [← Bool.not_eq_true, hkinds]
    rintro (h | h)
    · have hsame := Option.some_inj.mp (Sample.rational?_wide.symm.trans h)
      norm_num at hsame
    · exact h

end Slang.Value
