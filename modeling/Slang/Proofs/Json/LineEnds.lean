import Slang.Proofs.Json.RoundTrip

/-!
# Line ends of written values

A written value has no carriage return in it.  Those of a text are escaped, and the lines of a
layout end in single line breaks.
-/

namespace Slang

namespace Double

theorem return_not_mem_of_isDigit {cs : List Char} (h : ∀ c ∈ cs, isDigit c = true) :
    '\r' ∉ cs := by
  intro hmem
  exact absurd (h '\r' hmem) (by decide)

theorem return_not_mem_zeros (k : Nat) : '\r' ∉ zeros k :=
  return_not_mem_of_isDigit Json.isDigit_of_mem_zeros

theorem return_not_mem_natDigits (n : Nat) : '\r' ∉ natDigits n :=
  return_not_mem_of_isDigit isDigit_of_mem_natDigits

theorem return_not_mem_positional {digits : List Char} (h : '\r' ∉ digits) (exponent : Int) :
    '\r' ∉ positional digits exponent := by
  have htake : ∀ k, '\r' ∉ digits.take k := fun k hmem => h (List.mem_of_mem_take hmem)
  have hdrop : ∀ k, '\r' ∉ digits.drop k := fun k hmem => h (List.mem_of_mem_drop hmem)
  unfold positional
  split
  · simp [h, return_not_mem_zeros]
  · dsimp only
    split
    · simp [h, return_not_mem_zeros]
    · simp [htake, hdrop]

theorem return_not_mem_scientific (l : Layout) {digits : List Char} (h : '\r' ∉ digits)
    (exponent : Int) : '\r' ∉ scientific l digits exponent := by
  have htake : '\r' ∉ digits.take 1 := fun hmem => h (List.mem_of_mem_take hmem)
  have hdrop : '\r' ∉ digits.drop 1 := fun hmem => h (List.mem_of_mem_drop hmem)
  unfold scientific
  split_ifs <;> simp_all [return_not_mem_zeros, return_not_mem_natDigits]

theorem return_not_mem_text (x : Float) : '\r' ∉ (text x).toList := by
  have hdigits : '\r' ∉ (shortest x).write layout := by
    unfold Decimal.write
    dsimp only
    split
    · exact return_not_mem_positional (return_not_mem_natDigits _) _
    · exact return_not_mem_scientific _ (return_not_mem_natDigits _) _
  unfold text
  split
  · decide
  · split_ifs <;> decide
  · split_ifs <;> simp [hdigits]

end Double

namespace Json

theorem return_not_mem_intText (n : Int) : '\r' ∉ (intText n).toList := by
  unfold intText
  split_ifs <;> simp [Double.return_not_mem_natDigits]

theorem return_not_mem_numberText (x : Float) : '\r' ∉ (numberText x).toList := by
  unfold numberText
  split
  · decide
  · split_ifs <;> decide
  · exact Double.return_not_mem_text x

theorem return_not_mem_escape (c : Char) : '\r' ∉ escape c := by
  have hhex : ∀ n < 0x20, '\r' ∉ Text.hex 4 n := by decide
  unfold escape
  split_ifs with hmark hbreak hreturn htab hback hfeed hcontrol
  · rw [Bool.or_eq_true, decide_eq_true_eq, decide_eq_true_eq] at hmark
    rcases hmark with rfl | rfl <;> decide
  · decide
  · decide
  · decide
  · decide
  · decide
  · simp [hhex _ hcontrol]
  · rw [List.mem_singleton]
    exact fun heq => hreturn heq.symm

theorem return_not_mem_quote (s : String) : '\r' ∉ (quote s).toList := by
  have hescaped : '\r' ∉ s.toList.flatMap escape := by
    intro hmem
    obtain ⟨c, -, hc⟩ := List.mem_flatMap.1 hmem
    exact return_not_mem_escape c hc
  rw [toList_quote]
  simp [hescaped]

theorem return_not_mem_newLine (level : Nat) : '\r' ∉ (newLine level).toList := by
  simp [toList_newLine]

theorem return_not_mem_joined (level : Nat) {lines : List String}
    (h : ∀ line ∈ lines, '\r' ∉ line.toList) : '\r' ∉ joined level lines := by
  induction lines with
  | nil => simp [joined]
  | cons line later ih =>
    rw [List.forall_mem_cons] at h
    cases later with
    | nil =>
      rw [joined_singleton]
      exact h.1
    | cons next others =>
      rw [joined_cons_cons]
      simp [h.1, return_not_mem_newLine, ih h.2]

theorem return_not_mem_enclose {opening closing : String} (hopening : '\r' ∉ opening.toList)
    (hclosing : '\r' ∉ closing.toList) (level : Nat) {lines : List String}
    (h : ∀ line ∈ lines, '\r' ∉ line.toList) :
    '\r' ∉ (enclose opening closing level lines).toList := by
  by_cases hne : lines = []
  · simp [enclose, hne, hopening, hclosing]
  · rw [toList_enclose _ _ _ hne]
    simp [hopening, hclosing, return_not_mem_newLine, return_not_mem_joined _ h]

mutual

theorem return_not_mem_pretty (level : Nat) (j : Json) : '\r' ∉ (pretty level j).toList := by
  match j with
  | .null => simp [pretty]
  | .boolean value =>
    cases value <;> simp [pretty]
  | .integer value =>
    rw [pretty]
    exact return_not_mem_intText value
  | .number value =>
    rw [pretty]
    exact return_not_mem_numberText value
  | .text value =>
    rw [pretty]
    exact return_not_mem_quote value
  | .array items =>
    rw [pretty]
    exact return_not_mem_enclose (by decide) (by decide) level
      (return_not_mem_prettyItems (level + 1) items)
  | .object fields =>
    rw [pretty]
    exact return_not_mem_enclose (by decide) (by decide) level
      (return_not_mem_prettyFields (level + 1) fields)

theorem return_not_mem_prettyItems (level : Nat) (items : List Json) :
    ∀ line ∈ prettyItems level items, '\r' ∉ line.toList := by
  match items with
  | [] => simp [prettyItems]
  | item :: later =>
    rw [prettyItems, List.forall_mem_cons]
    exact ⟨return_not_mem_pretty level item, return_not_mem_prettyItems level later⟩

theorem return_not_mem_prettyFields (level : Nat) (fields : List (String × Json)) :
    ∀ line ∈ prettyFields level fields, '\r' ∉ line.toList := by
  match fields with
  | [] => simp [prettyFields]
  | field :: later =>
    rw [prettyFields, List.forall_mem_cons]
    exact ⟨return_not_mem_prettyField level field, return_not_mem_prettyFields level later⟩

theorem return_not_mem_prettyField (level : Nat) (field : String × Json) :
    '\r' ∉ (prettyField level field).toList := by
  match field with
  | (key, value) =>
    rw [prettyField]
    simp [return_not_mem_quote, return_not_mem_pretty level value]

end

end Json

end Slang
