import Slang.Proofs.Number.Conversion
import Slang.Proofs.Value.Plain
import Slang.Run.Eval

/-!
# The domains of the operators

Equality and the logical operators take any two values.  Arithmetic and comparison take two numbers
that become finite doubles, and division takes no zero on its right; `+` also joins two texts.  What
can stand in the way of an operator is listed here in the order in which it is looked for, and an
operator fails with the first of these that applies.
-/

namespace Slang

namespace Token.Kind

/-- The operators that compute a number. -/
def isArithmetic : Kind → Bool
  | .plus | .minus | .times | .divide | .modulo | .power => true
  | _ => false

/-- The operators that compare two numbers. -/
def isComparison : Kind → Bool
  | .less | .greater | .lessEqual | .greaterEqual => true
  | _ => false

/-- The operators that take any two values. -/
def isGeneral : Kind → Bool
  | .equal | .notEqual | .and | .or => true
  | _ => false

/-- The operators that divide. -/
def isDivision : Kind → Bool
  | .divide | .modulo => true
  | _ => false

end Token.Kind

namespace Value

/-- An integer has a finite double nearest to it; no other value is converted. -/
def Converts : Value → Prop
  | .integer n => (Float.ofInt n).isFinite = true
  | _ => True

/-- The integer zero, or one of the two zeros among the doubles. -/
def IsZero : Value → Prop
  | .integer n => n = 0
  | .number x => x = 0 ∨ x = -0
  | _ => False

/-- What an operator on numbers asks of its operands. -/
structure Operable (kind : Token.Kind) (a b : Value) : Prop where
  left : a.isNumber = true
  right : b.isNumber = true
  size : a.Converts ∧ b.Converts
  divisor : ¬(kind.isDivision = true ∧ b.IsZero)

/-! ## Operands as doubles -/

theorem exists_toDouble?_iff (value : Value) :
    (∃ x, value.toDouble? = some x) ↔ value.isNumber = true ∧ value.Converts := by
  cases value with
  | integer n => simp [toDouble?, isNumber, Converts, Double.ofInt?_eq]
  | _ => simp [toDouble?, isNumber, Converts]

theorem beq_zero_iff_isZero {value : Value} {x : Float} (h : value.toDouble? = some x) :
    (x == 0) = true ↔ value.IsZero := by
  cases value with
  | integer n =>
      simp only [toDouble?, Double.ofInt?_eq, Option.ite_none_right_eq_some, Option.some.injEq] at h
      obtain ⟨hfinite, rfl⟩ := h
      exact Double.ofInt_beq_zero_iff hfinite
  | number y =>
      cases h
      exact Double.beq_zero_iff x
  | _ => cases h

/-- Two numbers become doubles unless one of them is too large. -/
theorem operands_of_isNumber (operator : String) {a b : Value} (ha : a.isNumber = true)
    (hb : b.isNumber = true) :
    (¬(a.Converts ∧ b.Converts) ∧ operands operator a b = .error (.tooLarge operator)) ∨
    ∃ x y, a.toDouble? = some x ∧ b.toDouble? = some y ∧ operands operator a b = .ok (x, y) := by
  have hleft := exists_toDouble?_iff a
  have hright := exists_toDouble?_iff b
  simp only [operands, ha, hb]
  cases hx : a.toDouble? with
  | none => exact .inl ⟨by simp_all, rfl⟩
  | some x =>
      cases hy : b.toDouble? with
      | none => exact .inl ⟨by simp_all, rfl⟩
      | some y => exact .inr ⟨x, y, rfl, rfl, rfl⟩

/-- A result of the kind that the operator gives for numbers. -/
def FitsOperator (kind : Token.Kind) (value : Value) : Prop :=
  (kind.isArithmetic = true → ∃ x, value = .number x) ∧
    (kind.isComparison = true → ∃ holds, value = .boolean holds)

theorem fitsOperator_number {kind : Token.Kind} (h : kind.isComparison = false) (x : Float) :
    (number x).FitsOperator kind :=
  ⟨fun _ => ⟨x, rfl⟩, fun hcomparison => absurd (h.symm.trans hcomparison) Bool.false_ne_true⟩

theorem fitsOperator_boolean {kind : Token.Kind} (h : kind.isArithmetic = false) (holds : Bool) :
    (boolean holds).FitsOperator kind :=
  ⟨fun harithmetic => absurd (h.symm.trans harithmetic) Bool.false_ne_true,
    fun _ => ⟨holds, rfl⟩⟩

/-- The function can be the operator on doubles: it fails on a zero divisor and in no other case. -/
def IsOperation (kind : Token.Kind) (f : Float → Float → Except Cause Value) : Prop :=
  ∀ x y,
    (kind.isDivision = true ∧ (y == 0) = true ∧
      f x y = .error (if kind = .divide then .divisionByZero else .moduloByZero)) ∨
    (¬(kind.isDivision = true ∧ (y == 0) = true) ∧
      ∃ value, f x y = .ok value ∧ value.FitsOperator kind)

/-- A function that gives fitting values everywhere computes an operator that does not divide. -/
theorem isOperation_of_total {kind : Token.Kind} {f : Float → Float → Value}
    (hdivision : kind.isDivision = false) (hfits : ∀ x y, (f x y).FitsOperator kind) :
    IsOperation kind fun x y => .ok (f x y) :=
  fun x y => .inr ⟨fun h => absurd (hdivision.symm.trans h.1) Bool.false_ne_true,
    f x y, rfl, hfits x y⟩

theorem isOperation_divide : IsOperation .divide divide := by
  intro x y
  cases hzero : y == 0 with
  | true => exact .inl ⟨rfl, rfl, by simp [divide, hzero]⟩
  | false => exact .inr ⟨by simp, _, by simp [divide, hzero]; rfl, fitsOperator_number rfl _⟩

theorem isOperation_modulo : IsOperation .modulo modulo := by
  intro x y
  cases hzero : y == 0 with
  | true => exact .inl ⟨rfl, rfl, by simp [modulo, hzero]⟩
  | false => exact .inr ⟨by simp, _, by simp [modulo, hzero]; rfl, fitsOperator_number rfl _⟩

/-- Every operator on numbers but `+` is computed from doubles alone. -/
theorem exists_isOperation {kind : Token.Kind}
    (h : kind.isArithmetic = true ∨ kind.isComparison = true) (hplus : kind ≠ .plus) :
    ∃ f, numeric? kind = some f ∧ IsOperation kind f := by
  cases kind
  case plus => exact absurd rfl hplus
  case divide => exact ⟨_, rfl, isOperation_divide⟩
  case modulo => exact ⟨_, rfl, isOperation_modulo⟩
  case minus | times | power =>
    exact ⟨_, rfl, isOperation_of_total rfl fun _ _ => fitsOperator_number rfl _⟩
  case less | greater | lessEqual | greaterEqual =>
    exact ⟨_, rfl, isOperation_of_total rfl fun _ _ => fitsOperator_boolean rfl _⟩
  all_goals exact absurd h (by decide)

end Value

/-! ## Obstacles -/

/-- What can stand in the way of an arithmetic operator or a comparison. -/
inductive Obstacle where
  /-- The left operand is of a wrong kind. -/
  | left
  /-- The right operand is of a wrong kind. -/
  | right
  /-- An integer is too large for a double. -/
  | size
  /-- The divisor is zero. -/
  | zero

namespace Obstacle

/-- The obstacles that are looked for before this one. -/
def earlier : Obstacle → List Obstacle
  | .left => []
  | .right => [.left]
  | .size => [.left, .right]
  | .zero => [.left, .right, .size]

/-- A text on the left of `+` is to be joined with another one. -/
def Joins (kind : Token.Kind) (a : Value) : Prop :=
  kind = .plus ∧ a.kind = .text

/-- The obstacle is there for the operator and the operands. -/
def Applies (kind : Token.Kind) (a b : Value) : Obstacle → Prop
  | .left => a.isNumber = false ∧ ¬Joins kind a
  | .right => Joins kind a ∧ b.kind ≠ .text ∨ ¬Joins kind a ∧ b.isNumber = false
  | .size => ¬(a.Converts ∧ b.Converts)
  | .zero => kind.isDivision = true ∧ b.IsZero

/-- The obstacle is there, and none that is looked for before it. -/
structure IsFirst (kind : Token.Kind) (a b : Value) (obstacle : Obstacle) : Prop where
  applies : obstacle.Applies kind a b
  first : ∀ other ∈ obstacle.earlier, ¬other.Applies kind a b

/-- The obstacle as it is reported. -/
def cause (operator : Mark) (a b : Value) : Obstacle → Cause
  | .left =>
    if operator.kind = .plus then .leftOperand "+" "a number or text" a.kind
    else .leftOperand operator.lexeme.shown "a number" a.kind
  | .right =>
    if operator.kind = .plus then
      .rightOperand "+" (if a.kind = .text then "text" else "a number") b.kind
    else .rightOperand operator.lexeme.shown "a number" b.kind
  | .size => .tooLarge operator.lexeme.shown
  | .zero => if operator.kind = .divide then .divisionByZero else .moduloByZero

variable {kind : Token.Kind} {a b : Value}

theorem isFirst_left (ha : a.isNumber = false) (hjoins : ¬Joins kind a) :
    IsFirst kind a b .left :=
  ⟨⟨ha, hjoins⟩, List.forall_mem_nil _⟩

theorem not_applies_left (h : a.isNumber = true) : ¬Applies kind a b .left := by
  rintro ⟨hnumber, -⟩
  rw [h] at hnumber
  cases hnumber

theorem not_joins_of_isNumber (h : a.isNumber = true) : ¬Joins kind a := by
  rintro ⟨-, htext⟩
  cases a <;> simp_all [Value.isNumber, Value.kind]

theorem isFirst_right (ha : a.isNumber = true) (hb : b.isNumber = false) :
    IsFirst kind a b .right :=
  ⟨.inr ⟨not_joins_of_isNumber ha, hb⟩, List.forall_mem_singleton.mpr (not_applies_left ha)⟩

theorem not_applies_right (ha : a.isNumber = true) (hb : b.isNumber = true) :
    ¬Applies kind a b .right := by
  rintro (⟨hjoins, -⟩ | ⟨-, hnumber⟩)
  · exact not_joins_of_isNumber ha hjoins
  · rw [hb] at hnumber
    cases hnumber

/-- Nothing is in the way of operands that are accepted. -/
theorem not_applies_of_operable (h : Value.Operable kind a b) (obstacle : Obstacle) :
    ¬Applies kind a b obstacle := by
  cases obstacle with
  | left => exact not_applies_left h.left
  | right => exact not_applies_right h.left h.right
  | size => exact not_not_intro h.size
  | zero => exact h.divisor

theorem isFirst_size (ha : a.isNumber = true) (hb : b.isNumber = true)
    (hsize : ¬(a.Converts ∧ b.Converts)) : IsFirst kind a b .size := by
  refine ⟨hsize, List.forall_mem_cons.mpr ⟨not_applies_left ha, ?_⟩⟩
  exact List.forall_mem_singleton.mpr (not_applies_right ha hb)

theorem isFirst_zero (ha : a.isNumber = true) (hb : b.isNumber = true)
    (hsize : a.Converts ∧ b.Converts) (hzero : kind.isDivision = true ∧ b.IsZero) :
    IsFirst kind a b .zero := by
  refine ⟨hzero, List.forall_mem_cons.mpr ⟨not_applies_left ha, ?_⟩⟩
  refine List.forall_mem_cons.mpr ⟨not_applies_right ha hb, ?_⟩
  exact List.forall_mem_singleton.mpr (not_not_intro hsize)

end Obstacle

namespace Value

/-- The operands are accepted, and the value is of the kind that the operator gives. -/
def IsResult (kind : Token.Kind) (a b value : Value) : Prop :=
  Operable kind a b ∧ value.FitsOperator kind

/-- The cause reports the first obstacle. -/
def IsReported (operator : Mark) (a b : Value) (cause : Cause) : Prop :=
  ∃ obstacle : Obstacle, obstacle.IsFirst operator.kind a b ∧ cause = obstacle.cause operator a b

variable {operator : Mark} {a b : Value}

/-- Two numbers pass the checks of their kinds, and an operator computed from their doubles gives a
result or reports that one of them is too large or that the divisor is zero. -/
theorem yields_of_isNumber {f : Float → Float → Except Cause Value}
    (hf : IsOperation operator.kind f) (ha : a.isNumber = true) (hb : b.isNumber = true) :
    Yields (IsResult operator.kind a b) (IsReported operator a b)
      (operands operator.lexeme.shown a b >>= fun (x, y) => f x y) := by
  rcases operands_of_isNumber operator.lexeme.shown ha hb with
    ⟨hsize, hresult⟩ | ⟨x, y, hx, hy, hresult⟩
  · rw [hresult]
    exact ⟨.size, Obstacle.isFirst_size ha hb hsize, rfl⟩
  · rw [hresult]
    have hsize : a.Converts ∧ b.Converts :=
      ⟨((exists_toDouble?_iff a).mp ⟨x, hx⟩).2, ((exists_toDouble?_iff b).mp ⟨y, hy⟩).2⟩
    change Yields _ _ (f x y)
    rcases hf x y with ⟨hdivision, hzero, hfails⟩ | ⟨hzero, value, hvalue, hfits⟩
    · rw [hfails]
      rw [beq_zero_iff_isZero hy] at hzero
      exact ⟨.zero, Obstacle.isFirst_zero ha hb hsize ⟨hdivision, hzero⟩, rfl⟩
    · rw [hvalue]
      rw [beq_zero_iff_isZero hy] at hzero
      exact ⟨⟨ha, hb, hsize, hzero⟩, hfits⟩

/-- An operator on numbers other than `+` gives a result, or it reports the first obstacle. -/
theorem yields_numeric (h : operator.kind.isArithmetic = true ∨ operator.kind.isComparison = true)
    (hplus : operator.kind ≠ .plus) (a b : Value) :
    Yields (IsResult operator.kind a b) (IsReported operator a b) (binary operator a b) := by
  obtain ⟨f, hnumeric, hf⟩ := exists_isOperation h hplus
  have hbinary : binary operator a b =
      operands operator.lexeme.shown a b >>= fun (x, y) => f x y := by
    simp only [binary, if_neg hplus, hnumeric]
  rw [hbinary]
  cases ha : a.isNumber with
  | false =>
      simp only [operands, ha]
      exact ⟨.left, Obstacle.isFirst_left ha fun hjoins => hplus hjoins.1,
        by rw [Obstacle.cause, if_neg hplus]⟩
  | true =>
      cases hb : b.isNumber with
      | false =>
          simp only [operands, ha, hb]
          exact ⟨.right, Obstacle.isFirst_right ha hb, by rw [Obstacle.cause, if_neg hplus]⟩
      | true => exact yields_of_isNumber hf ha hb

/-- A sum of other values than two texts is a number, or the first obstacle is reported. -/
theorem yields_sum (hplus : operator.kind = .plus) (htexts : ¬(a.kind = .text ∧ b.kind = .text)) :
    Yields (IsResult operator.kind a b) (IsReported operator a b) (binary operator a b) := by
  rw [binary, if_pos hplus]
  unfold add
  split
  · exact absurd ⟨rfl, rfl⟩ htexts
  · -- A text on the left asks for another one.
    refine ⟨.right, ⟨.inl ⟨⟨hplus, rfl⟩, fun hkind => htexts ⟨rfl, hkind⟩⟩, ?_⟩, ?_⟩
    · exact List.forall_mem_singleton.mpr fun happlies => happlies.2 ⟨hplus, rfl⟩
    · rw [Obstacle.cause, if_pos hplus]
      rfl
  · rename_i hjoin _
    have htext : a.kind ≠ .text := by
      cases a with
      | text s => exact (hjoin s rfl).elim
      | _ => exact nofun
    cases ha : a.isNumber with
    | false =>
        exact ⟨.left, Obstacle.isFirst_left ha fun hjoins => htext hjoins.2,
          by rw [Obstacle.cause, if_pos hplus]⟩
    | true =>
        cases hb : b.isNumber with
        | false =>
            exact ⟨.right, Obstacle.isFirst_right ha hb,
              by rw [Obstacle.cause, if_pos hplus, if_neg htext]⟩
        | true =>
            have hsum : IsOperation operator.kind fun x y => .ok (.number (x + y)) := by
              rw [hplus]
              exact isOperation_of_total rfl fun _ _ => fitsOperator_number rfl _
            exact yields_of_isNumber hsum ha hb

/-- Unless two texts are joined, an operator on numbers gives a result or reports the first
obstacle. -/
theorem yields_binary (h : operator.kind.isArithmetic = true ∨ operator.kind.isComparison = true)
    (htexts : ¬(Obstacle.Joins operator.kind a ∧ b.kind = .text)) :
    Yields (IsResult operator.kind a b) (IsReported operator a b) (binary operator a b) := by
  by_cases hplus : operator.kind = .plus
  · exact yields_sum hplus fun hkinds => htexts ⟨⟨hplus, hkinds.1⟩, hkinds.2⟩
  · exact yields_numeric h hplus a b

theorem IsReported.not_operable {cause : Cause} (h : IsReported operator a b cause) :
    ¬Operable operator.kind a b := by
  obtain ⟨obstacle, hfirst, -⟩ := h
  exact fun hoperable => Obstacle.not_applies_of_operable hoperable obstacle hfirst.applies

theorem exists_binary_of_isGeneral (h : operator.kind.isGeneral = true) (a b : Value) :
    ∃ holds, binary operator a b = .ok (.boolean holds) := by
  obtain ⟨kind, lexeme, literal, line⟩ := operator
  cases kind
  case equal | notEqual | and | or => exact ⟨_, rfl⟩
  all_goals cases h

theorem binary_texts (h : operator.kind = .plus) (s t : String) :
    binary operator (.text s) (.text t) = .ok (.text (s ++ t)) := by
  rw [binary, if_pos h, add]

end Value

theorem Grammar.isBinary_iff (kind : Token.Kind) :
    IsBinary kind ↔
      kind.isGeneral = true ∨ kind.isArithmetic = true ∨ kind.isComparison = true := by
  unfold IsBinary
  cases kind <;> decide

/-! ## Domains -/

/-- What the binary operators accept.  Equality and the logical operators give a truth value for any
two values, and `+` joins two texts.  In every other case an operator succeeds exactly on two
numbers that become finite doubles, the second one not a zero if it divides; arithmetic then gives a
double and a comparison a truth value.  A failure is placed at the operator and reports the first
obstacle. -/
theorem binary_operator_domain (operator : Mark) (a b : Value) :
    let kind := operator.kind
    let result := Fault.locate operator (Value.binary operator a b)
    (Grammar.IsBinary kind ↔
      kind.isGeneral = true ∨ kind.isArithmetic = true ∨ kind.isComparison = true) ∧
    (kind.isGeneral = true → ∃ holds, result = .ok (.boolean holds)) ∧
    (kind = .plus → ∀ s t, a = .text s → b = .text t → result = .ok (.text (s ++ t))) ∧
    (kind.isArithmetic = true ∨ kind.isComparison = true →
      ¬(kind = .plus ∧ a.kind = .text ∧ b.kind = .text) →
      ((∃ value, result = .ok value) ↔ Value.Operable kind a b) ∧
      (∀ value, result = .ok value → value.FitsOperator kind) ∧
      ∀ fault, result = .error fault →
        ∃ obstacle : Obstacle, obstacle.IsFirst kind a b ∧
          fault = .runtime operator (obstacle.cause operator a b)) := by
  intro kind result
  have hlocate : result = Fault.locate operator (Value.binary operator a b) := rfl
  refine ⟨Grammar.isBinary_iff kind, fun hgeneral => ?_, fun hplus s t ha hb => ?_,
    fun hnumeric htexts => ?_⟩
  · obtain ⟨holds, hbinary⟩ := Value.exists_binary_of_isGeneral hgeneral a b
    rw [hbinary] at hlocate
    exact ⟨holds, hlocate⟩
  · rw [ha, hb, Value.binary_texts hplus] at hlocate
    exact hlocate
  · have htexts : ¬(Obstacle.Joins kind a ∧ b.kind = .text) :=
      fun h => htexts ⟨h.1.1, h.1.2, h.2⟩
    have hyields := Value.yields_binary hnumeric htexts
    cases hbinary : Value.binary operator a b with
    | ok value =>
        rw [hbinary] at hlocate hyields
        obtain ⟨hoperable, hfits⟩ := hyields
        refine ⟨⟨fun _ => hoperable, fun _ => ⟨value, hlocate⟩⟩, fun other hother => ?_,
          fun fault hfault => ?_⟩
        · cases hlocate.symm.trans hother
          exact hfits
        · cases hlocate.symm.trans hfault
    | error cause =>
        rw [hbinary] at hlocate hyields
        have hfails : ∀ value, result ≠ .ok value := fun value hvalue => by
          cases hlocate.symm.trans hvalue
        refine ⟨⟨fun ⟨value, hvalue⟩ => (hfails value hvalue).elim,
          fun hoperable => (hyields.not_operable hoperable).elim⟩,
          fun value hvalue => (hfails value hvalue).elim, fun fault hfault => ?_⟩
        obtain ⟨obstacle, hfirst, rfl⟩ := hyields
        cases hlocate.symm.trans hfault
        exact ⟨obstacle, hfirst, rfl⟩

/-- The sign of a remainder. -/
def Sample.remainder : Mark :=
  ⟨.modulo, .text "%", .null, .integer 1⟩

/-- An integer that is too large is reported although the divisor is a zero as well. -/
theorem binary_operator_domain_remainder :
    (∃ value, Fault.locate Sample.remainder
      (Value.binary Sample.remainder (.integer 7) (.integer (-2))) = .ok value) ∧
    Fault.locate Sample.remainder
      (Value.binary Sample.remainder (.integer Double.overflow) (.number (-0))) =
        .error (.runtime Sample.remainder (.tooLarge "%")) := by
  have hlarge : ¬(Float.ofInt Double.overflow).isFinite = true := by
    rw [Double.isFinite_ofInt_iff, Int.natAbs_natCast]
    exact Nat.lt_irrefl Double.overflow
  constructor
  · have hdomain := binary_operator_domain Sample.remainder (.integer 7) (.integer (-2))
    refine (hdomain.2.2.2 (.inl rfl) (by decide)).1.mpr ⟨rfl, rfl, ⟨?_, ?_⟩, ?_⟩
    · exact (Double.isFinite_ofInt_iff 7).mpr (by decide +kernel)
    · exact (Double.isFinite_ofInt_iff (-2)).mpr (by decide +kernel)
    · exact fun hzero => absurd hzero.2 (by decide : ¬(-2 : Int) = 0)
  · have hdomain :=
      binary_operator_domain Sample.remainder (.integer Double.overflow) (.number (-0))
    obtain ⟨hdefined, -, hfaults⟩ := hdomain.2.2.2 (.inl rfl) (by decide)
    cases hresult : Fault.locate Sample.remainder
        (Value.binary Sample.remainder (.integer Double.overflow) (.number (-0))) with
    | ok value => exact (hlarge (hdefined.mp ⟨value, hresult⟩).size.1).elim
    | error fault =>
        obtain ⟨obstacle, hfirst, rfl⟩ := hfaults fault hresult
        have hsize : Obstacle.size ∉ obstacle.earlier :=
          fun hearlier => hfirst.first .size hearlier fun hsize => hlarge hsize.1
        cases obstacle with
        | left => cases hfirst.applies.1
        | right =>
            rcases hfirst.applies with ⟨⟨hplus, -⟩, -⟩ | ⟨-, hnumber⟩
            · cases hplus
            · cases hnumber
        | size => rfl
        | zero => exact (hsize (.tail _ (.tail _ (.head _)))).elim

end Slang
