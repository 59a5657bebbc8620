import Mathlib.Algebra.Order.Floor.Ring
import Slang.Proofs.Value.Equality
import Slang.Proofs.Value.Plain

/-!
# Doubles for the integer sigil

A double is turned into an integer if it stands for one, and the integer then takes its place: the
two are equal, they are printed alike, both fit the integer sigil, and fitting the integer once more
changes nothing.  A double with a fractional part, an infinity and the double that is no number are
type mismatches.
-/

namespace Slang

namespace Double

/-- The double is finite and has no fractional part. -/
def IsWhole (x : Float) : Prop :=
  x.isFinite = true ∧ ∀ q, rational? x = some q → Int.fract q = 0

theorem isWhole_iff_exists_toInt? (x : Float) : IsWhole x ↔ ∃ n, toInt? x = some n := by
  constructor
  · rintro ⟨hfinite, hfract⟩
    obtain ⟨q, hq⟩ := (isFinite_iff_exists_rational? x).mp hfinite
    refine ⟨⌊q⌋, (toInt?_eq_some_iff x _).mpr ?_⟩
    rw [hq, Option.some_inj, ← sub_eq_zero]
    exact hfract q hq
  · rintro ⟨n, hn⟩
    rw [toInt?_eq_some_iff] at hn
    constructor
    · exact (isFinite_iff_exists_rational? x).mpr ⟨n, hn⟩
    · intro q hq
      rw [Option.some_inj.mp (hq.symm.trans hn), Int.fract_intCast]

end Double

/-! ## Printing -/

namespace Value

theorem render_integer_of_toInt? {x : Float} {n : Int} (h : Double.toInt? x = some n) :
    (integer n).render = .ok (intText n) :=
  if_pos (isWritable_of_toInt? h)

theorem render_number_of_toInt? {x : Float} {n : Int} (h : Double.toInt? x = some n) :
    (number x).render = .ok (intText n) := by
  rw [render, numberText, h]

end Value

/-! ## Fitting the integer sigil -/

namespace Sigil

theorem wholeNumber_eq_ok_iff (x : Float) (n : Int) :
    wholeNumber x = .ok n ↔ Double.toInt? x = some n := by
  unfold wholeNumber
  cases Double.toInt? x with
  | none => exact ⟨nofun, nofun⟩
  | some m => rw [Except.ok.injEq, Option.some_inj]

theorem wholeNumber_of_not_isWhole {x : Float} (h : ¬Double.IsWhole x) :
    wholeNumber x = .error (.notWhole x) := by
  unfold wholeNumber
  cases hn : Double.toInt? x with
  | none => rfl
  | some n => exact (h ((Double.isWhole_iff_exists_toInt? x).mpr ⟨n, hn⟩)).elim

theorem check_integer_of_admits {value : Value} (h : integer.admits value = true) :
    check value (.text "$") = .ok () := by
  unfold check
  split
  · rfl
  · exact if_pos h

theorem coerce_integer (n : Int) : coerce (.integer n) (.text "$") = .ok (.integer n) :=
  rfl

/-- The integer of a double always passes the check. -/
theorem coerce_number (x : Float) :
    coerce (.number x) (.text "$") = (wholeNumber x).map .integer := by
  have hsteps : coerce (.number x) (.text "$") =
      (wholeNumber x).map .integer >>= fun value : Value =>
        check value (.text "$") >>= fun _ => pure value := rfl
  rw [hsteps]
  cases wholeNumber x with
  | ok n => rfl
  | error mismatch => rfl

end Sigil

theorem fit_of_coerce {value fitted : Value} {sigil : Json}
    (h : Sigil.coerce value sigil = .ok fitted) (target : Mark) :
    fit value sigil target = .ok fitted := by
  rw [fit, h]

theorem fit_of_coerce_error {value : Value} {sigil : Json} {mismatch : Sigil.Mismatch}
    (h : Sigil.coerce value sigil = .error mismatch) (t : Token) :
    fit value sigil t.mark =
      .error (.runtime t.mark (.typeMismatch (Sigil.strip t.lexeme) mismatch)) := by
  rw [fit, h]
  rfl

/-- A double is an integer for the integer sigil exactly if it is finite and without fractional
part.  The integer has the value of the double, is equal to it and printed like it, and both are
accepted; fitting gives the integer for the double and for the integer itself.  Every other double
is a type mismatch. -/
theorem integer_sigil_keeps_value (x : Float) (t : Token) :
    ((∃ n, Sigil.wholeNumber x = .ok n) ↔ Double.IsWhole x) ∧
    (∀ n, Sigil.wholeNumber x = .ok n →
      Double.rational? x = some (n : ℚ) ∧
      (Value.integer n).equals (.number x) = true ∧
      (∃ s, (Value.integer n).render = .ok s ∧ (Value.number x).render = .ok s) ∧
      Sigil.check (.integer n) (.text "$") = .ok () ∧
      Sigil.check (.number x) (.text "$") = .ok () ∧
      fit (.number x) (.text "$") t.mark = .ok (.integer n) ∧
      fit (.integer n) (.text "$") t.mark = .ok (.integer n)) ∧
    (¬Double.IsWhole x →
      fit (.number x) (.text "$") t.mark =
        .error (.runtime t.mark (.typeMismatch (Sigil.strip t.lexeme) (.notWhole x)))) := by
  refine ⟨?_, fun n hwhole => ?_, fun hfraction => ?_⟩
  · rw [Double.isWhole_iff_exists_toInt?]
    exact exists_congr (Sigil.wholeNumber_eq_ok_iff x)
  · have hcoerce : Sigil.coerce (.number x) (.text "$") = .ok (.integer n) := by
      rw [Sigil.coerce_number, hwhole]
      rfl
    rw [Sigil.wholeNumber_eq_ok_iff] at hwhole
    have hvalue := (Double.toInt?_eq_some_iff x n).mp hwhole
    have hadmits : Sigil.integer.admits (.number x) = true := by rw [Sigil.admits, hwhole]; rfl
    exact ⟨hvalue, (Value.equals_integer_number_iff n x).mpr hvalue,
      ⟨_, Value.render_integer_of_toInt? hwhole, Value.render_number_of_toInt? hwhole⟩,
      Sigil.check_integer_of_admits rfl, Sigil.check_integer_of_admits hadmits,
      fit_of_coerce hcoerce t.mark,
      fit_of_coerce (Sigil.coerce_integer n) t.mark⟩
  · have hcoerce : Sigil.coerce (.number x) (.text "$") = .error (.notWhole x) := by
      rw [Sigil.coerce_number, Sigil.wholeNumber_of_not_isWhole hfraction]
      rfl
    exact fit_of_coerce_error hcoerce t

/-- A variable with the integer sigil. -/
def Sample.whole : Token :=
  ⟨.sigilIdentifier, "$n", .absent, 1⟩

/-- A double as large as any significand is taken as the integer it is; an infinity is refused. -/
theorem integer_sigil_keeps_value_wide :
    fit (.number Value.Sample.wide) (.text "$") Sample.whole.mark =
        .ok (.integer 9007199254740992) ∧
      fit (.number Double.infinity) (.text "$") Sample.whole.mark =
        .error (.runtime Sample.whole.mark (.typeMismatch "n" (.notWhole Double.infinity))) := by
  constructor
  · have hwhole : Sigil.wholeNumber Value.Sample.wide = .ok 9007199254740992 := by
      rw [Sigil.wholeNumber_eq_ok_iff, Double.toInt?_eq_some_iff]
      exact Value.Sample.rational?_wide
    obtain ⟨-, hkeeps, -⟩ := integer_sigil_keeps_value Value.Sample.wide Sample.whole
    obtain ⟨-, -, -, -, -, hfit, -⟩ := hkeeps _ hwhole
    exact hfit
  · obtain ⟨-, -, hrefused⟩ := integer_sigil_keeps_value Double.infinity Sample.whole
    exact hrefused fun hwhole => absurd hwhole.1 (by decide)

end Slang
