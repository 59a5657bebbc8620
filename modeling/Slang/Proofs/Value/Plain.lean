import Mathlib.Tactic.Ring
import Slang.Proofs.Grammar.Spelling
import Slang.Proofs.Number.Bits
import Slang.Proofs.Number.Digits
import Slang.Run.Eval
import Slang.Token.Segment
import Slang.Value.Sigil

/-!
# Plain values

Expressions from a source text evaluate to plain values only: no lists, no objects, characters that
hold text, and integers that can be written.  All of them can be printed.  The operators keep values
plain, and so does fitting a value to a sigil; what they fail with is never the cause of a malformed
tree.
-/

namespace Slang

/-- A result is a value with the one property or a failure with the other. -/
def Yields {ε α : Type} (value : α → Prop) (failure : ε → Prop) : Except ε α → Prop
  | .ok a => value a
  | .error e => failure e

theorem Yields.bind
    {ε α β : Type} {p : α → Prop} {q : β → Prop} {failure : ε → Prop} {x : Except ε α}
    {f : α → Except ε β} (h : Yields p failure x) (hf : ∀ a, p a → Yields q failure (f a)) :
    Yields q failure (x >>= f) := by
  cases x with
  | error e => exact h
  | ok a => exact hf a h

theorem Yields.imp
    {ε α : Type} {p q : α → Prop} {failure failure' : ε → Prop} {x : Except ε α}
    (h : Yields p failure x) (hvalue : ∀ a, p a → q a) (hfailure : ∀ e, failure e → failure' e) :
    Yields q failure' x := by
  cases x with
  | error e => exact hfailure e h
  | ok a => exact hvalue a h

theorem Yields.mono
    {ε α : Type} {p : α → Prop} {failure failure' : ε → Prop} {x : Except ε α}
    (h : Yields p failure x) (hfailure : ∀ e, failure e → failure' e) : Yields p failure' x :=
  h.imp (fun _ => id) hfailure

/-! ## Integers that can be written -/

theorem isWritable_integerEntry (entry : List Char) :
    isWritable (Value.integerEntry entry) = true := by
  rw [isWritable_iff]
  unfold Value.integerEntry
  dsimp only
  split
  · rename_i h
    simp only [Bool.and_eq_true, decide_eq_true_eq, List.all_eq_true] at h
    have hlt := digitsValue_lt h.1.2
    have hle : 10 ^ (Numeral.splitSign entry).2.length ≤ 10 ^ digitLimit :=
      Nat.pow_le_pow_right (by decide) h.2
    split
    · rw [Int.natAbs_neg, Int.natAbs_natCast]
      exact Nat.lt_of_lt_of_le hlt hle
    · rw [Int.natAbs_natCast]
      exact Nat.lt_of_lt_of_le hlt hle
  · exact Nat.pow_pos (by decide)

theorem magnitude_lt {x : Float} {k : Nat} (hk : 1024 ≤ k) (h : Double.exponentBits x ≠ 2047) :
    Double.magnitude x < 2 ^ k * Double.one := by
  rcases Nat.eq_zero_or_pos (Double.significand x) with hzero | hpos
  · rw [Double.magnitude, hzero, Nat.zero_mul]
    exact Nat.mul_pos (Nat.two_pow_pos k) Double.one_pos
  · have hc := Double.isCanonical_of_finite h hpos
    have hle := hc.le
    calc
      Double.significand x * 2 ^ Double.shift x < 2 ^ 53 * 2 ^ Double.shift x :=
        Nat.mul_lt_mul_of_pos_right hc.lt (Nat.two_pow_pos _)
      _ = 2 ^ (53 + Double.shift x) := (Nat.pow_add 2 53 _).symm
      _ ≤ 2 ^ (k + 1074) := Nat.pow_le_pow_right Nat.two_pos (by omega)
      _ = 2 ^ k * Double.one := (Double.two_pow_mul_one k).symm

theorem natAbs_lt_of_toInt? {x : Float} {n : Int} (h : Double.toInt? x = some n) :
    n.natAbs < 2 ^ 1024 := by
  unfold Double.toInt? Double.exact at h
  by_cases hexponent : Double.exponentBits x = 2047
  · rw [if_pos hexponent] at h
    split at h
    · rename_i heq
      split at heq <;> cases heq
    · cases h
  · rw [if_neg hexponent] at h
    simp only [Option.ite_none_right_eq_some, Option.some.injEq] at h
    obtain ⟨hwhole, rfl⟩ := h
    have hmagnitude := magnitude_lt (Nat.le_refl 1024) hexponent
    -- The division leaves no rest, so the count of units is a multiple of one.
    have hunits := congrArg Int.natAbs (Int.mul_ediv_cancel_of_emod_eq_zero hwhole)
    rw [Int.natAbs_mul, Int.natAbs_natCast] at hunits
    have hsign : (if Double.isNegative x = true then -(Double.magnitude x : Int)
        else Double.magnitude x).natAbs = Double.magnitude x := by
      split
      · rw [Int.natAbs_neg, Int.natAbs_natCast]
      · rw [Int.natAbs_natCast]
    rw [hsign] at hunits
    rw [← hunits] at hmagnitude
    rw [Nat.mul_comm] at hmagnitude
    exact Nat.lt_of_mul_lt_mul_right hmagnitude

/-- A double without fractional part is an integer of few digits. -/
theorem isWritable_of_toInt? {x : Float} {n : Int} (h : Double.toInt? x = some n) :
    isWritable n = true := by
  rw [isWritable_iff]
  calc
    n.natAbs < 2 ^ 1024 := natAbs_lt_of_toInt? h
    _ ≤ 2 ^ digitLimit := by
        apply Nat.pow_le_pow_right
        · decide
        · decide
    _ ≤ 10 ^ digitLimit := Nat.pow_le_pow_left (by decide) digitLimit

/-! ## Plain values -/

namespace Value

/-- A value of a program from source text. -/
def IsPlain : Value → Prop
  | .integer n => isWritable n = true
  | .character content => ∃ s, content = .text s
  | .list _ | .record _ => False
  | _ => True

theorem IsPlain.render {value : Value} (h : value.IsPlain) : ∃ s, value.render = .ok s := by
  cases value with
  | ghosted => exact ⟨_, rfl⟩
  | boolean b => exact ⟨_, rfl⟩
  | integer n => exact ⟨intText n, if_pos h⟩
  | number x => exact ⟨_, rfl⟩
  | text s => exact ⟨s, rfl⟩
  | character content =>
      obtain ⟨s, rfl⟩ := h
      exact ⟨s, rfl⟩
  | list items => exact h.elim
  | record fields => exact h.elim

theorem isPlain_ofEntry (line : List Char) (sigil : Json) : (ofEntry line sigil).IsPlain := by
  unfold ofEntry
  split
  · exact isWritable_integerEntry _
  · trivial
  · trivial

end Value

/-! ## Operators -/

/-- A cause that only a tree that is not made by the parser can have. -/
def Cause.IsInternal : Cause → Prop
  | .unknownSign _ | .unknownOperator _ | .typeMismatch _ (.unknownSigil _) => True
  | _ => False

/-- An operand does not fit the operator. -/
def Cause.IsOfOperand : Cause → Prop
  | .leftOperand _ _ _ | .rightOperand _ _ _ | .tooLarge _ => True
  | .divisionByZero | .moduloByZero | .signOperand _ => True
  | _ => False

theorem Cause.IsOfOperand.not_isInternal {cause : Cause} (h : cause.IsOfOperand) :
    ¬cause.IsInternal := by
  cases cause with
  | unknownSign lexeme => exact h.elim
  | unknownOperator lexeme => exact h.elim
  | typeMismatch name mismatch => exact h.elim
  | _ => exact id

namespace Value

/-- A result of an operator is plain, and its failure is one of the program. -/
abbrev Computes (result : Except Cause Value) : Prop :=
  Yields IsPlain (fun cause => ¬cause.IsInternal) result

theorem yields_operands (operator : String) (a b : Value) :
    Yields (fun _ => True) Cause.IsOfOperand (operands operator a b) := by
  unfold operands
  split
  · trivial
  split
  · trivial
  split <;> trivial

theorem yields_add (operator : String) (a b : Value) :
    Yields IsPlain Cause.IsOfOperand (add operator a b) := by
  unfold add
  split
  · trivial
  · trivial
  split
  · trivial
  split
  · trivial
  · exact (yields_operands operator a b).bind fun _ _ => trivial

theorem yields_numeric?
    {kind : Token.Kind} {f : Float → Float → Except Cause Value} (h : numeric? kind = some f)
    (x y : Float) : Yields IsPlain Cause.IsOfOperand (f x y) := by
  unfold numeric? at h
  split at h <;> cases h
  case h_3 =>
    unfold divide
    split <;> trivial
  case h_4 =>
    unfold modulo
    split <;> trivial
  all_goals trivial

/-- Every operator of the grammar is known. -/
theorem exists_operator
    {kind : Token.Kind} (h : Grammar.IsBinary kind) (hplus : kind ≠ .plus)
    (hnumeric : numeric? kind = none) : ∃ f, general? kind = some f := by
  cases kind <;> simp_all [Grammar.IsBinary, Grammar.level?, numeric?, general?]

theorem computes_binary
    {operator : Mark} (h : Grammar.IsBinary operator.kind) (a b : Value) :
    Computes (binary operator a b) := by
  unfold binary
  split
  · exact (yields_add _ a b).mono fun _ => Cause.IsOfOperand.not_isInternal
  · rename_i hplus
    split
    · rename_i f hf
      refine Yields.mono ?_ fun _ => Cause.IsOfOperand.not_isInternal
      exact (yields_operands _ a b).bind fun operands _ => yields_numeric? hf _ _
    · trivial
    · rename_i hnumeric hgeneral
      obtain ⟨f, hf⟩ := exists_operator h hplus hnumeric
      rw [hgeneral] at hf
      cases hf

theorem computes_negate {value : Value} (h : value.IsPlain) : Computes value.negate := by
  cases value with
  | integer n =>
      change isWritable (-n) = true
      rw [isWritable_neg]
      exact h
  | number x => trivial
  | _ => exact id

theorem computes_unary
    {operator : Mark} (h : Grammar.IsSign operator.kind) {value : Value} (hvalue : value.IsPlain) :
    Computes (value.unary operator) := by
  unfold unary
  rcases h with hnot | hminus
  · rw [if_pos hnot]
    trivial
  · rw [if_neg (by simp [hminus]), if_pos hminus]
    exact computes_negate hvalue

end Value

/-! ## Sigils -/

namespace Sigil

/-- A mismatch with a sigil that exists. -/
def Mismatch.IsKnown : Mismatch → Prop
  | .unknownSigil _ => False
  | _ => True

theorem ofText?_singleton {c : Char} (h : Segment.isSigil c = true) :
    (ofText? (String.singleton c)).isSome = true := by
  unfold Segment.isSigil at h
  simp only [Bool.or_eq_true, beq_iff_eq] at h
  rcases h with (rfl | rfl) | rfl <;> decide

theorem yields_coerce
    {value : Value} {sigil : Json} (hvalue : value.IsPlain) (hsigil : (ofJson? sigil).isSome = true) :
    Yields Value.IsPlain Mismatch.IsKnown (coerce value sigil) := by
  have hcheck : ∀ value, Yields (fun _ => True) Mismatch.IsKnown (check value sigil) := by
    intro value
    unfold check
    split
    · trivial
    · split
      · rename_i hnone
        simp [hnone] at hsigil
      · split <;> trivial
  have hafter : ∀ fitted : Value, fitted.IsPlain →
      Yields Value.IsPlain Mismatch.IsKnown (do check fitted sigil; pure fitted) := by
    intro fitted hfitted
    refine (hcheck fitted).bind ?_
    exact fun _ _ => hfitted
  unfold coerce
  dsimp only
  split
  · refine Yields.bind ?_ hafter
    unfold wholeNumber
    split
    · rename_i hn
      exact isWritable_of_toInt? hn
    · trivial
  · exact hafter _ hvalue

end Sigil

/-- The failure is one of the program, at the given place. -/
def Fault.IsAt (mark : Mark) : Fault → Prop
  | .runtime place cause => place = mark ∧ ¬cause.IsInternal
  | _ => False

theorem yields_fit
    {value : Value} {sigil : Json} {target : Mark} {s : String} (hvalue : value.IsPlain)
    (hsigil : (Sigil.ofJson? sigil).isSome = true) (htarget : target.lexeme = .text s) :
    Yields Value.IsPlain (Fault.IsAt target) (fit value sigil target) := by
  have hcoerce := Sigil.yields_coerce hvalue hsigil
  have hname : target.name = .ok (Sigil.strip s) := by simp [Mark.name, htarget]
  unfold fit
  cases hresult : Sigil.coerce value sigil with
  | ok fitted =>
      rw [hresult] at hcoerce
      exact hcoerce
  | error mismatch =>
      rw [hresult] at hcoerce
      rw [hname]
      refine ⟨rfl, ?_⟩
      cases mismatch with
      | unknownSigil sigil => exact hcoerce.elim
      | kind expected found => exact id
      | notWhole x => exact id

end Slang
