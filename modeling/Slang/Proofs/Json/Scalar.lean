import Slang.Json.Parser
import Slang.Json.Printer
import Slang.Proofs.Number.Digits
import Slang.Proofs.Number.Shortest

/-!
# Reading back written numbers

A number is read back from its text in front of anything that a value can be followed by when it is
laid out.  An integer has its digits, a double the digits of its shortest decimal, with a point, with
an exponent or with both; what is read is that decimal, or the same with one more zero.
-/

namespace Slang.Json

open Double

/-- What can follow a value that is laid out: nothing, a comma or a line break. -/
def IsDelimited (rest : List Char) : Prop :=
  ∀ c ∈ rest.head?, c = ',' ∨ c = '\n'

theorem IsDelimited.startsNoDigit {rest : List Char} (h : IsDelimited rest) :
    StartsNoDigit rest := by
  intro c hc
  rcases h c hc with rfl | rfl <;> decide

/-! ## The parts of a numeral -/

/-- The digits before the point: a zero alone, or digits that do not start with one. -/
structure IsWhole (whole : List Char) : Prop where
  ne_nil : whole ≠ []
  digits : ∀ c ∈ whole, isDigit c = true
  zero : whole.head? = some '0' → whole = ['0']

theorem isWhole_natDigits (n : Nat) : IsWhole (natDigits n) := by
  refine ⟨natDigits_ne_nil n, isDigit_of_mem_natDigits, ?_⟩
  intro hzero
  rw [eq_zero_of_head_natDigits hzero]
  rfl

theorem wholeDigits_append {whole rest : List Char} (h : IsWhole whole)
    (hrest : StartsNoDigit rest) : wholeDigits (whole ++ rest) = whole := by
  obtain ⟨c, later, rfl⟩ := List.exists_cons_of_ne_nil h.ne_nil
  by_cases hc : c = '0'
  · subst hc
    rw [h.zero rfl]
    rfl
  · have hall : wholeDigits (c :: (later ++ rest)) = (c :: (later ++ rest)).takeWhile isDigit := by
      unfold wholeDigits
      split
      · simp_all
      · rfl
    rw [List.cons_append, hall, ← List.cons_append]
    exact takeWhile_isDigit_append h.digits hrest

theorem readNumber_eq_integer (negative : Bool) {whole rest : List Char} (h : IsWhole whole)
    (hlength : whole.length ≤ digitLimit) (hrest : StartsNoDigit rest)
    (hfraction : splitFraction rest = ([], rest)) (hexponent : splitExponent rest = (none, rest)) :
    readNumber negative (whole ++ rest) =
      .ok (.integer (if negative then -(digitsValue whole : Int) else digitsValue whole), rest) := by
  have hne : whole.isEmpty = false := List.isEmpty_eq_false_iff.2 h.ne_nil
  unfold readNumber
  rw [wholeDigits_append h hrest]
  dsimp only
  rw [List.drop_left, hne, hfraction]
  dsimp only
  rw [hexponent]
  simp [Nat.not_lt.2 hlength]

theorem readNumber_eq_number (negative : Bool) {whole rest fraction after later : List Char}
    {exponent : Option Int} (h : IsWhole whole) (hrest : StartsNoDigit rest)
    (hfraction : splitFraction rest = (fraction, after))
    (hexponent : splitExponent after = (exponent, later))
    (hsome : (fraction.isEmpty && exponent.isNone) = false) :
    readNumber negative (whole ++ rest) =
      .ok (.number (Numeral.toDouble
        ⟨negative, digitsValue (whole ++ fraction), exponent.getD 0 - fraction.length⟩), later) := by
  have hne : whole.isEmpty = false := List.isEmpty_eq_false_iff.2 h.ne_nil
  unfold readNumber
  rw [wholeDigits_append h hrest]
  dsimp only
  rw [List.drop_left, hne, hfraction]
  dsimp only
  rw [hexponent, hsome]
  rfl

/-! ## Splitting off the fraction and the exponent -/

theorem splitFraction_append {fraction rest : List Char} (hne : fraction ≠ [])
    (h : ∀ c ∈ fraction, isDigit c = true) (hrest : StartsNoDigit rest) :
    splitFraction ('.' :: (fraction ++ rest)) = (fraction, rest) := by
  have hnil : fraction.isEmpty = false := List.isEmpty_eq_false_iff.2 hne
  simp only [splitFraction, takeWhile_isDigit_append h hrest, dropWhile_isDigit_append h hrest, hnil]
  rfl

theorem splitFraction_of_ne {c : Char} (later : List Char) (hc : c ≠ '.') :
    splitFraction (c :: later) = ([], c :: later) := by
  unfold splitFraction
  split
  · simp_all
  · rfl

theorem splitExponent_append (negative : Bool) {power rest : List Char} (hne : power ≠ [])
    (h : ∀ c ∈ power, isDigit c = true) (hrest : StartsNoDigit rest) :
    splitExponent ('e' :: (if negative then '-' else '+') :: (power ++ rest)) =
      (some (if negative then -(digitsValue power : Int) else digitsValue power), rest) := by
  have hnil : power.isEmpty = false := List.isEmpty_eq_false_iff.2 hne
  cases negative <;>
    simp [splitExponent, Numeral.splitSign, takeWhile_isDigit_append h hrest,
      dropWhile_isDigit_append h hrest, hnil]

theorem IsDelimited.splitFraction_eq {rest : List Char} (h : IsDelimited rest) :
    splitFraction rest = ([], rest) := by
  cases rest with
  | nil => rfl
  | cons c later =>
    apply splitFraction_of_ne
    rintro rfl
    rcases h _ rfl with heq | heq <;> exact absurd heq (by decide)

theorem IsDelimited.splitExponent_eq {rest : List Char} (h : IsDelimited rest) :
    splitExponent rest = (none, rest) := by
  cases rest with
  | nil => rfl
  | cons c later =>
    have hc : (c = 'e' || c = 'E') = false := by
      rcases h c rfl with rfl | rfl <;> decide
    simp [splitExponent, hc]

/-! ## Written decimals -/

/-- The text of a decimal, in front of a rest, is read as a decimal in the same intervals. -/
def ReadsAs (text : List Char) (d : Decimal) : Prop :=
  ∀ (negative : Bool) (rest : List Char), IsDelimited rest →
    ∃ found : Decimal,
      readNumber negative (text ++ rest) = .ok (.number (Numeral.toDouble ⟨negative, found⟩), rest) ∧
        ∀ m s, d.IsRounded m s → found.IsRounded m s

theorem isDigit_of_mem_zeros {k : Nat} : ∀ c ∈ zeros k, isDigit c = true := by
  intro c hc
  rw [List.eq_of_mem_replicate hc]
  decide

theorem startsNoDigit_point (later : List Char) : StartsNoDigit ('.' :: later) := by
  rintro c ⟨⟩
  decide

theorem isDigit_of_mem_zero : ∀ c ∈ ['0'], isDigit c = true :=
  List.forall_mem_singleton.2 rfl

theorem isWhole_zero : IsWhole ['0'] :=
  ⟨by simp, isDigit_of_mem_zero, fun _ => rfl⟩

theorem IsWhole.append {front back : List Char} (h : IsWhole front) (hzero : front ≠ ['0'])
    (hback : ∀ c ∈ back, isDigit c = true) : IsWhole (front ++ back) := by
  refine ⟨by simp [h.ne_nil], ?_, ?_⟩
  · intro c hc
    rcases List.mem_append.1 hc with hc | hc
    · exact h.digits c hc
    · exact hback c hc
  · obtain ⟨c, later, rfl⟩ := List.exists_cons_of_ne_nil h.ne_nil
    intro hhead
    exact absurd (h.zero hhead) hzero

theorem IsWhole.take {whole : List Char} (h : IsWhole whole) (k : Nat) :
    IsWhole (whole.take (k + 1)) := by
  obtain ⟨c, later, rfl⟩ := List.exists_cons_of_ne_nil h.ne_nil
  refine ⟨by simp, fun d hd => h.digits d (List.mem_of_mem_take hd), ?_⟩
  intro hhead
  rw [h.zero hhead]
  simp

theorem ReadsAs.of_isRounded {text : List Char} {d d' : Decimal} (h : ReadsAs text d')
    (hrounded : ∀ m s, d.IsRounded m s → d'.IsRounded m s) : ReadsAs text d := by
  intro negative rest hrest
  obtain ⟨found, hread, hfound⟩ := h negative rest hrest
  exact ⟨found, hread, fun m s hd => hfound m s (hrounded m s hd)⟩

/-- Digits with a point among them denote the whole row, shifted by the length of the fraction. -/
theorem readsAs_point {whole fraction : List Char} {d : Decimal} (hwhole : IsWhole whole)
    (hne : fraction ≠ []) (hfraction : ∀ c ∈ fraction, isDigit c = true)
    (hdigits : digitsValue (whole ++ fraction) = d.digits)
    (hexponent : -(fraction.length : Int) = d.exponent) :
    ReadsAs (whole ++ '.' :: fraction) d := by
  intro negative rest hrest
  have hread := readNumber_eq_number negative hwhole (startsNoDigit_point (fraction ++ rest))
    (splitFraction_append hne hfraction hrest.startsNoDigit) hrest.splitExponent_eq
    (by simp [hne])
  rw [hdigits, Option.getD_none, Int.zero_sub, hexponent] at hread
  refine ⟨d, ?_, fun _ _ h => h⟩
  rw [List.append_assoc]
  exact hread

theorem readsAs_positional_small {n : Nat} {e : Int}
    (hsmall : e + (natDigits n).length - 1 < 0) :
    ReadsAs (positional (natDigits n) (e + (natDigits n).length - 1)) ⟨n, e⟩ := by
  rw [positional, if_pos hsmall]
  change ReadsAs (['0'] ++ '.' :: (zeros _ ++ natDigits n)) _
  apply readsAs_point isWhole_zero
  · simp [natDigits_ne_nil]
  · intro c hc
    rcases List.mem_append.1 hc with hc | hc
    · exact isDigit_of_mem_zeros c hc
    · exact isDigit_of_mem_natDigits c hc
  · rw [digitsValue_append, digitsValue_append, digitsValue_zeros, digitsValue_natDigits]
    simp [digitsValue]
  · simp [zeros]
    omega

theorem readsAs_positional_split {n : Nat} {e : Int} (hpos : 0 ≤ e + (natDigits n).length - 1)
    (hlong : ¬(natDigits n).length ≤ (e + (natDigits n).length - 1).toNat + 1) :
    ReadsAs (positional (natDigits n) (e + (natDigits n).length - 1)) ⟨n, e⟩ := by
  rw [positional, if_neg (by omega), if_neg hlong]
  apply readsAs_point ((isWhole_natDigits n).take _)
  · simp
    omega
  · exact fun c hc => isDigit_of_mem_natDigits c (List.mem_of_mem_drop hc)
  · rw [List.take_append_drop, digitsValue_natDigits]
  · rw [List.length_drop]
    change -(((natDigits n).length - ((e + (natDigits n).length - 1).toNat + 1) : Nat) : Int) = e
    omega

theorem isRounded_of_zero_added {n k m s : Nat} (h : Decimal.IsRounded ⟨n, k⟩ m s) :
    Decimal.IsRounded ⟨n * 10 ^ (k + 1), -1⟩ m s := by
  have hscaled := IsRounded.mul_right h (c := 10) (by decide)
  have hnone : (-(k : Int)).toNat = 0 := by omega
  have hnumerator : n * 10 ^ k * one * 10 = n * 10 ^ (k + 1) * one := by
    rw [Nat.pow_succ]
    ring
  unfold Decimal.IsRounded
  simp only [Decimal.numerator, Decimal.denominator, Int.toNat_natCast, hnone] at hscaled ⊢
  rw [hnumerator] at hscaled
  simpa using hscaled

/-- Digits that do not reach the point are filled up with zeros, and a zero follows the point. -/
theorem readsAs_positional_filled {n : Nat} {e : Int} (hn : n ≠ 0)
    (hpos : 0 ≤ e + (natDigits n).length - 1)
    (hshort : (natDigits n).length ≤ (e + (natDigits n).length - 1).toNat + 1) :
    ReadsAs (positional (natDigits n) (e + (natDigits n).length - 1)) ⟨n, e⟩ := by
  rw [positional, if_neg (by omega), if_pos hshort]
  obtain ⟨k, rfl⟩ : ∃ k : Nat, e = k := ⟨e.toNat, by omega⟩
  have hzeros : ((k : Int) + (natDigits n).length - 1).toNat + 1 - (natDigits n).length = k := by
    omega
  rw [hzeros]
  refine ReadsAs.of_isRounded ?_ fun m s => isRounded_of_zero_added
  apply readsAs_point
  · apply (isWhole_natDigits n).append _ isDigit_of_mem_zeros
    intro hzero
    exact hn (eq_zero_of_head_natDigits (by rw [hzero]; rfl))
  · simp
  · exact isDigit_of_mem_zero
  · rw [digitsValue_append, digitsValue_append, digitsValue_zeros, digitsValue_natDigits]
    simp [digitsValue, zeros, Nat.pow_succ]
    ring
  · rfl

theorem startsNoDigit_exponent (later : List Char) : StartsNoDigit ('e' :: later) := by
  rintro c ⟨⟩
  decide

theorem splitFraction_optional {fraction later : List Char}
    (h : ∀ c ∈ fraction, isDigit c = true) :
    splitFraction ((if fraction.isEmpty then [] else '.' :: fraction) ++ 'e' :: later) =
      (fraction, 'e' :: later) := by
  cases fraction with
  | nil => exact splitFraction_of_ne later (by decide)
  | cons c others => exact splitFraction_append (by simp) h (startsNoDigit_exponent later)

/-- An exponent mark and digits after it move the point of the row before it. -/
theorem readsAs_exponent {whole fraction power : List Char} {d : Decimal} (small : Bool)
    (hwhole : IsWhole whole) (hfraction : ∀ c ∈ fraction, isDigit c = true)
    (hne : power ≠ []) (hpower : ∀ c ∈ power, isDigit c = true)
    (hdigits : digitsValue (whole ++ fraction) = d.digits)
    (hexponent : (if small then -(digitsValue power : Int) else digitsValue power)
      - fraction.length = d.exponent) :
    ReadsAs (whole ++ ((if fraction.isEmpty then [] else '.' :: fraction) ++
      'e' :: (if small then '-' else '+') :: power)) d := by
  intro negative rest hrest
  have hstart : StartsNoDigit ((if fraction.isEmpty then [] else '.' :: fraction) ++
      'e' :: (if small then '-' else '+') :: (power ++ rest)) := by
    cases fraction with
    | nil => exact startsNoDigit_exponent _
    | cons c others => exact startsNoDigit_point _
  have hread := readNumber_eq_number negative hwhole hstart (splitFraction_optional hfraction)
    (splitExponent_append small hne hpower hrest.startsNoDigit) (by simp)
  rw [hdigits, Option.getD_some, hexponent] at hread
  refine ⟨d, ?_, fun _ _ h => h⟩
  simpa using hread

theorem readsAs_scientific {n : Nat} {e : Int} :
    ReadsAs (scientific layout (natDigits n) (e + (natDigits n).length - 1)) ⟨n, e⟩ := by
  have hpos : 0 < (natDigits n).length := List.length_pos_iff.2 (natDigits_ne_nil n)
  generalize hexponent : e + (natDigits n).length - 1 = exponent
  generalize hpower : zeros (layout.exponentWidth - (natDigits exponent.natAbs).length) ++
    natDigits exponent.natAbs = power
  have hdigits : ∀ c ∈ power, isDigit c = true := by
    intro c hc
    rw [← hpower] at hc
    rcases List.mem_append.1 hc with hc | hc
    · exact isDigit_of_mem_zeros c hc
    · exact isDigit_of_mem_natDigits c hc
  have hvalue : digitsValue power = exponent.natAbs := by
    rw [← hpower, digitsValue_append, digitsValue_zeros, digitsValue_natDigits, Nat.zero_mul,
      Nat.zero_add]
  have htext : scientific layout (natDigits n) exponent =
      (natDigits n).take 1 ++
        ((if ((natDigits n).drop 1).isEmpty then [] else '.' :: (natDigits n).drop 1) ++
          'e' :: (if decide (exponent < 0) then '-' else '+') :: power) := by
    simp [scientific, ← hpower]
  rw [htext]
  apply readsAs_exponent _ ((isWhole_natDigits n).take 0)
  · exact fun c hc => isDigit_of_mem_natDigits c (List.mem_of_mem_drop hc)
  · simp [← hpower, natDigits_ne_nil]
  · exact hdigits
  · rw [List.take_append_drop, digitsValue_natDigits]
  · rw [hvalue, List.length_drop]
    simp only [decide_eq_true_eq]
    split <;> omega

/-- A decimal other than zero is read back from its text. -/
theorem readsAs_write {d : Decimal} (h : d.digits ≠ 0) : ReadsAs (d.write layout) d := by
  obtain ⟨n, e⟩ := d
  unfold Decimal.write
  dsimp only
  by_cases hrange : (layout.least ≤ e + (natDigits n).length - 1 &&
      e + (natDigits n).length - 1 < layout.bound) = true
  · rw [if_pos hrange]
    rcases Int.lt_or_le (e + (natDigits n).length - 1) 0 with hsmall | hpos
    · exact readsAs_positional_small hsmall
    · by_cases hshort : (natDigits n).length ≤ (e + (natDigits n).length - 1).toNat + 1
      · exact readsAs_positional_filled h hpos hshort
      · exact readsAs_positional_split hpos hshort
  · rw [if_neg hrange]
    exact readsAs_scientific

/-! ## Scalars -/

theorem exists_digit_of_readNumber {negative : Bool} {cs : List Char} {found : Json × List Char}
    (h : readNumber negative cs = .ok found) : ∃ c later, cs = c :: later ∧ isDigit c = true := by
  have hne : wholeDigits cs ≠ [] := by
    intro hnil
    simp [readNumber, hnil] at h
  unfold wholeDigits at hne
  split at hne
  case h_1 later => exact ⟨'0', later, rfl, by decide⟩
  case h_2 =>
    cases cs with
    | nil => exact absurd rfl hne
    | cons c later =>
      refine ⟨c, later, rfl, ?_⟩
      by_contra hc
      simp [hc] at hne

theorem eq_append_of_after? {word : String} {cs rest : List Char} (h : after? word cs = some rest) :
    cs = word.toList ++ rest := by
  unfold after? at h
  split at h
  case isTrue hprefix =>
    obtain ⟨tail, rfl⟩ := List.isPrefixOf_iff_prefix.1 hprefix
    rw [List.drop_left, Option.some.injEq] at h
    rw [h]
  case isFalse => cases h

/-- No word starts with a digit, nor with one character and a digit. -/
theorem exists_start_of_mem_words {entry : String × Json} (h : entry ∈ words) :
    ∃ w v vs, entry.1.toList = w :: v :: vs ∧ isDigit w = false ∧ isDigit v = false := by
  have hall : ∀ entry ∈ words, entry.1.toList.head?.map isDigit = some false ∧
      (entry.1.toList.drop 1).head?.map isDigit = some false := by decide
  obtain ⟨hfirst, hsecond⟩ := hall entry h
  match hword : entry.1.toList with
  | [] => simp [hword] at hfirst
  | [w] => simp [hword] at hsecond
  | w :: v :: vs =>
    rw [hword] at hfirst hsecond
    exact ⟨w, v, vs, rfl, Option.some.inj hfirst, Option.some.inj hsecond⟩

theorem findSome?_words_eq_none {cs : List Char}
    (h : ∀ entry ∈ words, ∀ rest, cs ≠ entry.1.toList ++ rest) :
    (words.findSome? fun (word, value) => (after? word cs).map fun later => (value, later)) =
      none := by
  rw [List.findSome?_eq_none_iff]
  rintro ⟨word, value⟩ hmem
  rw [Option.map_eq_none_iff, Option.eq_none_iff_forall_ne_some]
  intro rest hafter
  exact h _ hmem rest (eq_append_of_after? hafter)

theorem readScalar_of_readNumber {cs : List Char} {found : Json × List Char}
    (h : readNumber false cs = .ok found) : readScalar cs = .ok found := by
  obtain ⟨c, later, rfl, hc⟩ := exists_digit_of_readNumber h
  have hfresh : ∀ entry ∈ words, ∀ rest, c :: later ≠ entry.1.toList ++ rest := by
    intro entry hentry rest heq
    obtain ⟨w, v, vs, hword, hw, -⟩ := exists_start_of_mem_words hentry
    rw [hword, List.cons_append, List.cons.injEq] at heq
    rw [heq.1, hw] at hc
    cases hc
  have hminus : c ≠ '-' := by
    rintro rfl
    exact absurd hc (by decide)
  unfold readScalar
  rw [findSome?_words_eq_none hfresh]
  dsimp only
  split
  · simp_all
  · exact h

theorem readScalar_of_readNumber_minus {cs : List Char} {found : Json × List Char}
    (h : readNumber true cs = .ok found) : readScalar ('-' :: cs) = .ok found := by
  obtain ⟨c, later, rfl, hc⟩ := exists_digit_of_readNumber h
  have hfresh : ∀ entry ∈ words, ∀ rest, '-' :: c :: later ≠ entry.1.toList ++ rest := by
    intro entry hentry rest heq
    obtain ⟨w, v, vs, hword, -, hv⟩ := exists_start_of_mem_words hentry
    rw [hword, List.cons_append, List.cons_append, List.cons.injEq, List.cons.injEq] at heq
    rw [heq.2.1, hv] at hc
    cases hc
  unfold readScalar
  rw [findSome?_words_eq_none hfresh]
  exact h

/-- An integer is read back from its text. -/
theorem readScalar_intText {n : Int} (h : isWritable n = true) {rest : List Char}
    (hrest : IsDelimited rest) : readScalar ((intText n).toList ++ rest) = .ok (.integer n, rest) := by
  have hread (negative : Bool) := readNumber_eq_integer negative (isWhole_natDigits n.natAbs)
    (of_decide_eq_true h) hrest.startsNoDigit hrest.splitFraction_eq hrest.splitExponent_eq
  rw [intText, String.toList_ofList]
  split
  case isTrue hnegative =>
    rw [List.cons_append]
    apply readScalar_of_readNumber_minus
    rw [hread true, if_pos rfl, digitsValue_natDigits]
    congr 3
    omega
  case isFalse hnonnegative =>
    apply readScalar_of_readNumber
    rw [hread false, if_neg (by decide), digitsValue_natDigits]
    congr 3
    omega

theorem toDouble_zero {x : Float} (h : significand x = 0) (e : Int) :
    Numeral.toDouble ⟨isNegative x, ⟨0, e⟩⟩ = x := by
  have hzero : ofDecimal ⟨0, e⟩ = 0 := by rw [ofDecimal, if_pos rfl]
  rw [Numeral.toDouble, hzero]
  exact (eq_zero_of_significand_eq_zero h).symm

theorem readNumber_shortest {x : Float} (hfinite : exponentBits x ≠ 2047) {rest : List Char}
    (hrest : IsDelimited rest) :
    readNumber (isNegative x) ((shortest x).write layout ++ rest) = .ok (.number x, rest) := by
  rcases Nat.eq_zero_or_pos (significand x) with hzero | hpos
  · have hshortest : shortest x = ⟨0, 0⟩ := by
      rw [shortest, if_pos (by rw [magnitude, hzero, Nat.zero_mul])]
    have hread := readNumber_eq_number (isNegative x) isWhole_zero
      (startsNoDigit_point (['0'] ++ rest))
      (splitFraction_append (by simp) isDigit_of_mem_zero hrest.startsNoDigit) hrest.splitExponent_eq
      (by simp)
    rw [hshortest]
    refine hread.trans ?_
    congr 3
    exact toDouble_zero hzero _
  · have hc := isCanonical_of_finite hfinite hpos
    have hrounded := isRounded_shortest hc
    obtain ⟨found, hread, hfound⟩ :=
      readsAs_write (hrounded.digits_ne_zero hc) (isNegative x) rest hrest
    rw [hread, toDouble_of_isRounded hfinite hpos (hfound _ _ hrounded)]

/-- A double is read back from its text. -/
theorem readScalar_numberText (x : Float) {rest : List Char} (hrest : IsDelimited rest) :
    readScalar ((numberText x).toList ++ rest) = .ok (.number x, rest) := by
  unfold numberText
  split
  case h_1 hexact =>
    rw [eq_nan_of_exact hexact]
    rfl
  case h_2 negative hexact =>
    rw [eq_infinity_of_exact hexact]
    cases negative <;> rfl
  case h_3 units hexact =>
    have hfinite : exponentBits x ≠ 2047 := by
      intro hones
      rw [exact, if_pos hones] at hexact
      split at hexact <;> cases hexact
    have hread := readNumber_shortest hfinite hrest
    rw [Double.text, hexact, String.toList_ofList]
    split
    case isTrue hnegative =>
      rw [hnegative] at hread
      exact readScalar_of_readNumber_minus hread
    case isFalse hnonnegative =>
      rw [Bool.not_eq_true] at hnonnegative
      rw [hnonnegative] at hread
      exact readScalar_of_readNumber hread

end Slang.Json
