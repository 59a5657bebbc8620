import Mathlib.Data.List.TakeWhile
import Slang.Proofs.Number.Digits
import Slang.Value.Sigil

/-!
# What a line denotes

The texts that denote an integer or a decimal number are described here as a grammar, without regard
to how they are read.  A line that is read for an integer or a number gives what its text denotes
and zero if the text denotes nothing; the blanks around the text do not count.  An integer that can
be written is read back from its own text.
-/

namespace Slang

/-! ## Blanks around a text -/

namespace Text

/-- The line is the text with blanks around it, and the text has no blank at its ends. -/
def Trimmed (line text : List Char) : Prop :=
  ∃ before after, line = before ++ text ++ after ∧
    (∀ c ∈ before, isBlank c = true) ∧ (∀ c ∈ after, isBlank c = true) ∧
    (∀ c ∈ text.head?, isBlank c = false) ∧ ∀ c ∈ text.getLast?, isBlank c = false

theorem dropWhile_isBlank_append {before text : List Char}
    (hbefore : ∀ c ∈ before, isBlank c = true)
    (htext : ∀ c ∈ text.head?, isBlank c = false) : (before ++ text).dropWhile isBlank = text := by
  rw [List.dropWhile_append_of_pos hbefore]
  cases text with
  | nil => rfl
  | cons c rest => exact List.dropWhile_cons_of_neg (by simp [htext c rfl])

theorem isBlank_head?_dropWhile (row : List Char) :
    ∀ c ∈ (row.dropWhile isBlank).head?, isBlank c = false := by
  intro c hc
  have hhead := List.head?_dropWhile_not isBlank row
  rw [Option.mem_def.mp hc] at hhead
  exact hhead

theorem Trimmed.trim_eq {line text : List Char} (h : Trimmed line text) : trim line = text := by
  obtain ⟨before, after, rfl, hbefore, hafter, hhead, hlast⟩ := h
  have hreverse : ∀ c ∈ after.reverse, isBlank c = true :=
    fun c hc => hafter c (List.mem_reverse.mp hc)
  unfold trim
  cases text with
  | nil =>
      have hblank : ∀ c ∈ before ++ after, isBlank c = true :=
        fun c hc => (List.mem_append.mp hc).elim (hbefore c) (hafter c)
      have hdrop : (before ++ after ++ []).dropWhile isBlank = [] :=
        dropWhile_isBlank_append hblank nofun
      rw [List.append_nil] at hdrop ⊢
      rw [hdrop]
      rfl
  | cons c rest =>
      have hstart : ∀ d ∈ (c :: rest ++ after).head?, isBlank d = false := hhead
      rw [List.append_assoc, dropWhile_isBlank_append hbefore hstart, List.reverse_append,
        dropWhile_isBlank_append hreverse, List.reverse_reverse]
      rw [List.head?_reverse]
      exact hlast

theorem trimmed_trim (line : List Char) : Trimmed line (trim line) := by
  have hfront := List.takeWhile_append_dropWhile (p := isBlank) (l := line)
  have hback :=
    List.takeWhile_append_dropWhile (p := isBlank) (l := (line.dropWhile isBlank).reverse)
  have hrest := congrArg List.reverse hback
  rw [List.reverse_append, List.reverse_reverse] at hrest
  refine ⟨line.takeWhile isBlank, ((line.dropWhile isBlank).reverse.takeWhile isBlank).reverse, ?_,
    fun c hc => List.mem_takeWhile_imp hc,
    fun c hc => List.mem_takeWhile_imp (List.mem_reverse.mp hc), ?_, ?_⟩
  · rw [List.append_assoc, trim, hrest, hfront]
  · intro c hc
    apply isBlank_head?_dropWhile line
    rw [← hrest, List.head?_append, ← trim, Option.mem_def.mp hc]
    rfl
  · rw [trim, List.getLast?_reverse]
    exact isBlank_head?_dropWhile _

end Text

/-! ## The grammar of entries -/

namespace Entry

/-- A sign that may be left out, and whether it is a minus. -/
inductive SignText : List Char → Bool → Prop where
  | none : SignText [] false
  | plus : SignText ['+'] false
  | minus : SignText ['-'] true

/-- One or more digits. -/
structure IsRow (digits : List Char) : Prop where
  ne_nil : digits ≠ []
  isDigit : ∀ c ∈ digits, isDigit c = true

/-- The integer with the sign and the digits. -/
def signedRow (negative : Bool) (digits : List Char) : Int :=
  if negative then -(Nat.ofDigitChars 10 digits 0 : Int) else Nat.ofDigitChars 10 digits 0

/-- The text is an integer: a sign that may be left out, and 1 to 4300 digits. -/
inductive DenotesInteger : List Char → Int → Prop where
  | row {sign digits : List Char} {negative : Bool} : SignText sign negative → IsRow digits →
      digits.length ≤ 4300 → DenotesInteger (sign ++ digits) (signedRow negative digits)

/-- The text is a row of digits with a point behind, among or before them, or without a point.  The
other two are the digits before and after the point. -/
inductive MantissaText : List Char → List Char → List Char → Prop where
  | whole {whole : List Char} : IsRow whole → MantissaText whole whole []
  | point {whole fraction : List Char} : IsRow whole → (∀ c ∈ fraction, isDigit c = true) →
      MantissaText (whole ++ '.' :: fraction) whole fraction
  | fraction {fraction : List Char} : IsRow fraction → MantissaText ('.' :: fraction) [] fraction

/-- The text is an exponent, which may be left out: a mark, a sign or none, and digits. -/
inductive ExponentText : List Char → Int → Prop where
  | none : ExponentText [] 0
  | mark {c : Char} {sign digits : List Char} {negative : Bool} : c = 'e' ∨ c = 'E' →
      SignText sign negative → IsRow digits →
      ExponentText (c :: (sign ++ digits)) (signedRow negative digits)

/-- The text is a decimal number: the digits on both sides of the point, read as one number, and the
power of ten that puts the point back in its place. -/
inductive DenotesNumber : List Char → Numeral → Prop where
  | decimal {sign mantissa whole fraction tail : List Char} {negative : Bool} {exponent : Int} :
      SignText sign negative → MantissaText mantissa whole fraction → ExponentText tail exponent →
      DenotesNumber (sign ++ (mantissa ++ tail))
        ⟨negative, Nat.ofDigitChars 10 (whole ++ fraction) 0, exponent - fraction.length⟩

/-! ## Signs -/

/-- The text does not start with a sign. -/
def StartsNoSign (text : List Char) : Prop :=
  ∀ c ∈ text.head?, c ≠ '-' ∧ c ≠ '+'

theorem ne_sign_of_isDigit {c : Char} (h : isDigit c = true) : c ≠ '-' ∧ c ≠ '+' := by
  constructor
  · rintro rfl
    cases h
  · rintro rfl
    cases h

theorem IsRow.startsNoSign {digits : List Char} (h : IsRow digits) (rest : List Char) :
    StartsNoSign (digits ++ rest) := by
  cases digits with
  | nil => exact absurd rfl h.ne_nil
  | cons c later =>
      rintro d ⟨⟩
      exact ne_sign_of_isDigit (h.isDigit c (.head later))

theorem SignText.splitSign_append {sign text : List Char} {negative : Bool}
    (h : SignText sign negative) (htext : StartsNoSign text) :
    Numeral.splitSign (sign ++ text) = (negative, text) := by
  cases h with
  | plus => rfl
  | minus => rfl
  | none =>
      rw [List.nil_append]
      unfold Numeral.splitSign
      split
      · exact absurd rfl (htext _ rfl).1
      · exact absurd rfl (htext _ rfl).2
      · rfl

theorem exists_signText (text : List Char) :
    ∃ sign, SignText sign (Numeral.splitSign text).1 ∧
      text = sign ++ (Numeral.splitSign text).2 := by
  unfold Numeral.splitSign
  split
  · exact ⟨_, .minus, rfl⟩
  · exact ⟨_, .plus, rfl⟩
  · exact ⟨_, .none, rfl⟩

/-! ## Integers -/

/-- The digits after the sign are accepted exactly if they are a row. -/
theorem isRow_iff (digits : List Char) :
    IsRow digits ↔ (!digits.isEmpty && digits.all isDigit) = true := by
  rw [Bool.and_eq_true, Bool.not_eq_true', List.isEmpty_eq_false_iff, List.all_eq_true]
  exact ⟨fun h => ⟨h.ne_nil, h.isDigit⟩, fun h => ⟨h.1, h.2⟩⟩

theorem DenotesInteger.integerEntry_eq {text : List Char} {n : Int} (h : DenotesInteger text n) :
    Value.integerEntry text = n := by
  obtain ⟨hsign, hrow, hlength⟩ := h
  rename_i sign digits negative
  have hsplit := hsign.splitSign_append (hrow.startsNoSign [])
  rw [List.append_nil] at hsplit
  rw [Value.integerEntry, hsplit]
  dsimp only
  rw [(isRow_iff digits).mp hrow, decide_eq_true (show digits.length ≤ digitLimit from hlength)]
  rfl

theorem integerEntry_eq_zero {text : List Char} (h : ∀ n, ¬DenotesInteger text n) :
    Value.integerEntry text = 0 := by
  obtain ⟨sign, hsign, htext⟩ := exists_signText text
  rw [Value.integerEntry]
  refine if_neg fun haccepted => ?_
  rw [Bool.and_eq_true, ← isRow_iff, decide_eq_true_eq] at haccepted
  rw [htext] at h
  exact h _ (.row hsign haccepted.1 haccepted.2)

/-! ## Numbers -/

theorem exponent?_eq_some_iff (tail : List Char) (exponent : Int) :
    Numeral.exponent? tail = some exponent ↔ ExponentText tail exponent := by
  constructor
  · intro h
    cases tail with
    | nil =>
        cases h
        exact .none
    | cons c text =>
        obtain ⟨sign, hsign, htext⟩ := exists_signText text
        rw [Numeral.exponent?] at h
        simp only [Bool.and_assoc, Option.ite_none_right_eq_some, Option.some.injEq] at h
        obtain ⟨haccepted, rfl⟩ := h
        rw [Bool.and_eq_true, ← isRow_iff, Bool.or_eq_true, decide_eq_true_eq,
          decide_eq_true_eq] at haccepted
        have hmark := ExponentText.mark haccepted.1 hsign haccepted.2
        rw [← htext] at hmark
        exact hmark
  · intro h
    cases h with
    | none => rfl
    | @mark c sign digits negative hmark hsign hrow =>
        have hsplit := hsign.splitSign_append (hrow.startsNoSign [])
        rw [List.append_nil] at hsplit
        have hc : (decide (c = 'e') || decide (c = 'E')) = true := by
          rw [Bool.or_eq_true, decide_eq_true_eq, decide_eq_true_eq]
          exact hmark
        rw [Numeral.exponent?, hsplit]
        simp only [Bool.and_assoc, (isRow_iff digits).mp hrow, hc]
        rfl

/-- The digits behind a point at the start of a text, and what follows them. -/
def afterPoint (text : List Char) : List Char × List Char :=
  match text with
  | '.' :: more => (more.takeWhile isDigit, more.dropWhile isDigit)
  | _ => ([], text)

theorem parse?_eq (text : List Char) :
    Numeral.parse? text =
      let unsigned := (Numeral.splitSign text).2
      let whole := unsigned.takeWhile isDigit
      let parts := afterPoint (unsigned.dropWhile isDigit)
      if whole.isEmpty && parts.1.isEmpty then none
      else (Numeral.exponent? parts.2).map fun exponent =>
        ⟨(Numeral.splitSign text).1, digitsValue (whole ++ parts.1), exponent - parts.1.length⟩ :=
  rfl

/-- What can follow a mantissa: it starts neither with a digit nor with a point. -/
def EndsMantissa (tail : List Char) : Prop :=
  ∀ c ∈ tail.head?, isDigit c = false ∧ c ≠ '.'

theorem ExponentText.endsMantissa {tail : List Char} {exponent : Int}
    (h : ExponentText tail exponent) : EndsMantissa tail := by
  cases h with
  | none => exact nofun
  | mark hmark =>
      rintro d ⟨⟩
      rcases hmark with rfl | rfl <;> decide

theorem afterPoint_of_endsMantissa {tail : List Char} (h : EndsMantissa tail) :
    afterPoint tail = ([], tail) := by
  unfold afterPoint
  split
  · exact absurd rfl (h _ rfl).2
  · rfl

/-- Either the text starts with a point, or it is left as it is. -/
theorem afterPoint_cases (text : List Char) :
    (∃ more, text = '.' :: more ∧
      afterPoint text = (more.takeWhile isDigit, more.dropWhile isDigit)) ∨
    afterPoint text = ([], text) := by
  unfold afterPoint
  split
  · exact .inl ⟨_, rfl, rfl⟩
  · exact .inr rfl

theorem startsNoDigit_point (rest : List Char) : StartsNoDigit ('.' :: rest) := by
  rintro c ⟨⟩
  decide

theorem afterPoint_point {fraction tail : List Char} (hfraction : ∀ c ∈ fraction, isDigit c = true)
    (htail : EndsMantissa tail) : afterPoint ('.' :: (fraction ++ tail)) = (fraction, tail) := by
  have hdigit : StartsNoDigit tail := fun c hc => (htail c hc).1
  rw [afterPoint, takeWhile_isDigit_append hfraction hdigit,
    dropWhile_isDigit_append hfraction hdigit]

theorem MantissaText.startsNoSign {mantissa whole fraction : List Char}
    (h : MantissaText mantissa whole fraction) (tail : List Char) :
    StartsNoSign (mantissa ++ tail) := by
  cases h with
  | whole hwhole => exact hwhole.startsNoSign tail
  | point hwhole =>
      rw [List.append_assoc]
      exact hwhole.startsNoSign _
  | fraction =>
      rintro c ⟨⟩
      decide

/-- A mantissa is taken apart at its point, whatever follows it. -/
theorem MantissaText.split_append {mantissa whole fraction tail : List Char}
    (h : MantissaText mantissa whole fraction) (htail : EndsMantissa tail) :
    (mantissa ++ tail).takeWhile isDigit = whole ∧
      afterPoint ((mantissa ++ tail).dropWhile isDigit) = (fraction, tail) := by
  have hdigit : StartsNoDigit tail := fun c hc => (htail c hc).1
  cases h with
  | whole hwhole =>
      rw [takeWhile_isDigit_append hwhole.isDigit hdigit,
        dropWhile_isDigit_append hwhole.isDigit hdigit]
      exact ⟨rfl, afterPoint_of_endsMantissa htail⟩
  | point hwhole hfraction =>
      have hpoint := startsNoDigit_point (fraction ++ tail)
      rw [List.append_assoc, List.cons_append, takeWhile_isDigit_append hwhole.isDigit hpoint,
        dropWhile_isDigit_append hwhole.isDigit hpoint]
      exact ⟨rfl, afterPoint_point hfraction htail⟩
  | fraction hfraction => exact ⟨rfl, afterPoint_point hfraction.isDigit htail⟩

theorem MantissaText.not_isEmpty {mantissa whole fraction : List Char}
    (h : MantissaText mantissa whole fraction) : (whole.isEmpty && fraction.isEmpty) = false := by
  rw [Bool.and_eq_false_iff, List.isEmpty_eq_false_iff, List.isEmpty_eq_false_iff]
  cases h with
  | whole hwhole => exact .inl hwhole.ne_nil
  | point hwhole => exact .inl hwhole.ne_nil
  | fraction hfraction => exact .inr hfraction.ne_nil

/-- Every text with a digit before or behind its point starts with a mantissa. -/
theorem exists_mantissaText (text : List Char)
    (h : ((text.takeWhile isDigit).isEmpty &&
      (afterPoint (text.dropWhile isDigit)).1.isEmpty) = false) :
    ∃ mantissa, MantissaText mantissa (text.takeWhile isDigit)
        (afterPoint (text.dropWhile isDigit)).1 ∧
      text = mantissa ++ (afterPoint (text.dropWhile isDigit)).2 := by
  have htext := List.takeWhile_append_dropWhile (p := isDigit) (l := text)
  have hdigits : ∀ {row : List Char}, ∀ c ∈ row.takeWhile isDigit, isDigit c = true :=
    fun c hc => List.mem_takeWhile_imp hc
  rw [Bool.and_eq_false_iff, List.isEmpty_eq_false_iff, List.isEmpty_eq_false_iff] at h
  rcases afterPoint_cases (text.dropWhile isDigit) with ⟨more, hrest, hparts⟩ | hparts
  · have hmore := List.takeWhile_append_dropWhile (p := isDigit) (l := more)
    rw [hparts] at h ⊢
    rw [hrest, ← hmore] at htext
    by_cases hwhole : text.takeWhile isDigit = []
    · have hfraction := h.resolve_left (not_not_intro hwhole)
      rw [hwhole] at htext ⊢
      exact ⟨_, .fraction ⟨hfraction, hdigits⟩, htext.symm⟩
    · refine ⟨_, .point ⟨hwhole, hdigits⟩ hdigits, ?_⟩
      rw [List.append_assoc, List.cons_append, htext]
  · rw [hparts] at h ⊢
    have hwhole := h.resolve_right (not_not_intro rfl)
    exact ⟨_, .whole ⟨hwhole, hdigits⟩, htext.symm⟩

theorem parse?_eq_some_iff (text : List Char) (numeral : Numeral) :
    Numeral.parse? text = some numeral ↔ DenotesNumber text numeral := by
  constructor
  · intro h
    obtain ⟨sign, hsign, htext⟩ := exists_signText text
    rw [parse?_eq] at h
    simp only [Option.ite_none_left_eq_some, Bool.not_eq_true, Option.map_eq_some_iff] at h
    obtain ⟨hdigits, exponent, hexponent, rfl⟩ := h
    obtain ⟨mantissa, hmantissa, hunsigned⟩ := exists_mantissaText _ hdigits
    have hnumber :=
      DenotesNumber.decimal hsign hmantissa ((exponent?_eq_some_iff _ _).mp hexponent)
    rw [← hunsigned, ← htext] at hnumber
    exact hnumber
  · intro h
    cases h with
    | @decimal sign mantissa whole fraction tail negative exponent hsign hmantissa htail =>
        obtain ⟨hwhole, hpoint⟩ := hmantissa.split_append htail.endsMantissa
        rw [parse?_eq, hsign.splitSign_append (hmantissa.startsNoSign tail)]
        dsimp only
        rw [hwhole, hpoint]
        dsimp only
        rw [hmantissa.not_isEmpty, (exponent?_eq_some_iff tail exponent).mpr htail]
        rfl

theorem numberEntry_eq_zero {text : List Char} (h : ∀ numeral, ¬DenotesNumber text numeral) :
    Value.numberEntry text = 0 := by
  unfold Value.numberEntry
  split
  · rename_i numeral hparse
    exact absurd ((parse?_eq_some_iff text numeral).mp hparse) (h numeral)
  · rfl

theorem DenotesNumber.numberEntry_eq {text : List Char} {numeral : Numeral}
    (h : DenotesNumber text numeral) : Value.numberEntry text = numeral.toDouble := by
  rw [Value.numberEntry, (parse?_eq_some_iff text numeral).mpr h]

/-! ## Reading what was written -/

theorem isBlank_of_isDigit {c : Char} (h : isDigit c = true) : Text.isBlank c = false := by
  have hcodes : ∀ n ∈ List.range' '0'.toNat 10, Text.blankRanges.contains n = false := by decide
  unfold isDigit at h
  simp only [Bool.and_eq_true, decide_eq_true_eq] at h
  have hlow : '0'.toNat ≤ c.toNat := h.1
  have hhigh : c.toNat ≤ '9'.toNat := h.2
  exact hcodes c.toNat (List.mem_range'_1.mpr ⟨hlow, Nat.lt_succ_of_le hhigh⟩)

/-- The text of an integer denotes it. -/
theorem denotesInteger_intText {n : Int} (h : (Nat.toDigits 10 n.natAbs).length ≤ 4300) :
    DenotesInteger (intText n).toList n := by
  have hrow : IsRow (natDigits n.natAbs) := ⟨natDigits_ne_nil _, isDigit_of_mem_natDigits⟩
  have hvalue : Nat.ofDigitChars 10 (natDigits n.natAbs) 0 = n.natAbs :=
    digitsValue_natDigits n.natAbs
  rw [intText, String.toList_ofList]
  split
  · rename_i hnegative
    have hminus := DenotesInteger.row .minus hrow h
    rw [signedRow, hvalue, if_pos rfl, Int.ofNat_natAbs_of_nonpos (Int.le_of_lt hnegative),
      Int.neg_neg] at hminus
    exact hminus
  · rename_i hnonneg
    have hplain := DenotesInteger.row .none hrow h
    rw [signedRow, hvalue, if_neg Bool.false_ne_true,
      Int.natAbs_of_nonneg (Int.not_lt.mp hnonneg)] at hplain
    exact hplain

theorem DenotesInteger.forall_not_isBlank {text : List Char} {n : Int} (h : DenotesInteger text n) :
    ∀ c ∈ text, Text.isBlank c = false := by
  obtain ⟨hsign, hrow, -⟩ := h
  rw [List.forall_mem_append]
  refine ⟨?_, fun c hc => isBlank_of_isDigit (hrow.isDigit c hc)⟩
  cases hsign with
  | none => exact nofun
  | plus => exact List.forall_mem_singleton.mpr rfl
  | minus => exact List.forall_mem_singleton.mpr rfl

/-- No blank is at an end of the text of an integer. -/
theorem DenotesInteger.trimmed {text : List Char} {n : Int} (h : DenotesInteger text n)
    {before after : List Char} (hbefore : ∀ c ∈ before, Text.isBlank c = true)
    (hafter : ∀ c ∈ after, Text.isBlank c = true) :
    Text.Trimmed (before ++ text ++ after) text :=
  ⟨before, after, rfl, hbefore, hafter,
    fun c hc => h.forall_not_isBlank c (List.mem_of_mem_head? hc),
    fun c hc => h.forall_not_isBlank c (List.mem_of_mem_getLast? hc)⟩

end Entry

namespace Value

theorem ofEntry_integer {line text : List Char} (h : Text.Trimmed line text) :
    ofEntry line (.text "$") = .integer (integerEntry text) := by
  rw [← h.trim_eq]
  rfl

theorem ofEntry_number {line text : List Char} (h : Text.Trimmed line text) :
    ofEntry line (.text "%") = .number (numberEntry text) := by
  rw [← h.trim_eq]
  rfl

end Value

/-- A line is read as the number that its text denotes, and as zero if the text denotes none; an
integer is read back from its own text with any blanks around it. -/
theorem entry_reads_denoted_number (line : List Char) :
    (∃ text, Text.Trimmed line text) ∧
    (∀ text, Text.Trimmed line text →
      (∀ n, Entry.DenotesInteger text n → Value.ofEntry line (.text "$") = .integer n) ∧
      ((∀ n, ¬Entry.DenotesInteger text n) → Value.ofEntry line (.text "$") = .integer 0) ∧
      (∀ numeral, Entry.DenotesNumber text numeral →
        Value.ofEntry line (.text "%") = .number numeral.toDouble) ∧
      ((∀ numeral, ¬Entry.DenotesNumber text numeral) →
        Value.ofEntry line (.text "%") = .number 0)) ∧
    ∀ n : Int, (Nat.toDigits 10 n.natAbs).length ≤ 4300 →
      ∃ s, (Value.integer n).render = .ok s ∧
        ∀ before after, (∀ c ∈ before, Text.isBlank c = true) →
          (∀ c ∈ after, Text.isBlank c = true) → line = before ++ s.toList ++ after →
          Value.ofEntry line (.text "$") = .integer n := by
  refine ⟨⟨_, Text.trimmed_trim line⟩, fun text htext => ?_, fun n hn => ?_⟩
  · rw [Value.ofEntry_integer htext, Value.ofEntry_number htext]
    refine ⟨fun n hn => ?_, fun hnone => ?_, fun numeral hnumeral => ?_, fun hnone => ?_⟩
    · rw [hn.integerEntry_eq]
    · rw [Entry.integerEntry_eq_zero hnone]
    · rw [hnumeral.numberEntry_eq]
    · rw [Entry.numberEntry_eq_zero hnone]
  · have hwritable : isWritable n = true := decide_eq_true hn
    refine ⟨intText n, if_pos hwritable, fun before after hbefore hafter hline => ?_⟩
    have hdenotes := Entry.denotesInteger_intText hn
    rw [hline, Value.ofEntry_integer (hdenotes.trimmed hbefore hafter), hdenotes.integerEntry_eq]

namespace Entry.Sample

/-- A decimal number without digits before its point. -/
def half : List Char := ['-', '.', '5', 'E', '+', '1']

/-- The number between blanks. -/
def padded : List Char := ['\u3000'] ++ half ++ ['\t', ' ']

theorem trimmed_padded : Text.Trimmed padded half := by
  refine ⟨['\u3000'], ['\t', ' '], rfl, List.forall_mem_singleton.mpr rfl,
    List.forall_mem_cons.mpr ⟨rfl, List.forall_mem_singleton.mpr rfl⟩, ?_, ?_⟩
  · rintro c ⟨⟩
    rfl
  · rintro c ⟨⟩
    rfl

theorem denotesNumber_half : DenotesNumber half ⟨true, 5, 0⟩ :=
  have hfive : IsRow ['5'] := ⟨nofun, List.forall_mem_singleton.mpr rfl⟩
  have hone : IsRow ['1'] := ⟨nofun, List.forall_mem_singleton.mpr rfl⟩
  .decimal .minus (.fraction hfive) (.mark (.inr rfl) .plus hone)

theorem not_denotesInteger_half (n : Int) : ¬DenotesInteger half n := by
  generalize htext : half = text
  rintro ⟨hsign, hrow, -⟩
  rename_i sign digits negative
  have hmem : 'E' ∈ sign ++ digits := htext ▸ by decide
  rcases List.mem_append.mp hmem with hmem | hmem
  · cases hsign <;> exact absurd hmem (by decide)
  · exact absurd (hrow.isDigit 'E' hmem) (by decide)

end Entry.Sample

/-- Blanks of any script are ignored, and a number is no integer for having no fraction. -/
theorem entry_reads_denoted_number_padded :
    Value.ofEntry Entry.Sample.padded (.text "%") = .number (Numeral.mk true ⟨5, 0⟩).toDouble ∧
      Value.ofEntry Entry.Sample.padded (.text "$") = .integer 0 := by
  obtain ⟨-, hreads, -⟩ := entry_reads_denoted_number Entry.Sample.padded
  obtain ⟨-, hinteger, hnumber, -⟩ := hreads Entry.Sample.half Entry.Sample.trimmed_padded
  exact ⟨hnumber _ Entry.Sample.denotesNumber_half,
    hinteger Entry.Sample.not_denotesInteger_half⟩

end Slang
