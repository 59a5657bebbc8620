import Mathlib.Data.List.Forall2
import Slang.Proofs.Token.Layout

/-!
# The line of a token

A token starts on the line that is reached by the text in front of it.  The line that it records is
the one where its lexeme ends.  The two differ for the lexemes that hold a line break, and these are
texts.
-/

namespace Slang

/-- A lexeme that goes over several lines is a text. -/
theorem Lexeme.eq_text_of_break {kind : Token.Kind} {lexeme : List Char} {literal : Literal}
    (h : Lexeme kind lexeme literal) (hbreak : '\n' ∈ lexeme) : kind = .text := by
  have hsymbols : ∀ kind ∈ Token.Kind.symbols, '\n' ∉ kind.symbol.toList := by decide
  have hletter : Text.isLetter '\n' ≠ true := by decide +kernel
  have hword : Text.isWordChar '\n' ≠ true := by decide +kernel
  have hdigit : isDigit '\n' ≠ true := by decide
  -- No word holds a line break, whether it is a keyword or a name.
  have hrow : ∀ {c rest}, Text.isLetter c = true → (∀ d ∈ rest, Text.isWordChar d = true) →
      '\n' ∉ c :: rest := by
    intro c rest hc hrest hmem
    rcases List.mem_cons.mp hmem with rfl | hmem
    · exact hletter hc
    · exact hword (hrest _ hmem)
  cases h with
  | symbol hkind htext =>
      rw [← String.toList_ofList (l := lexeme), ← htext] at hbreak
      exact absurd hbreak (hsymbols _ hkind)
  | keyword hkeyword =>
      obtain ⟨c, rest, rfl, hc, hrest, -⟩ := keyword_cases hkeyword
      exact absurd hbreak (hrow hc hrest)
  | identifier hc hrest => exact absurd hbreak (hrow hc hrest)
  | sigil hsigil hc hrest =>
      have hmem := List.mem_of_ne_of_mem (by rcases hsigil with rfl | rfl | rfl <;> decide) hbreak
      exact absurd hmem (hrow hc hrest)
  | whole hne hdigits => exact absurd (hdigits _ hbreak) hdigit
  | fraction hwhole hfraction hdigits =>
      refine absurd (hdigits '\n' ?_) hdigit
      simpa using hbreak
  | text hbody => rfl
  | character hquote hline => simp [hline.symm] at hbreak

namespace Segment

/-- For each token the text in front of it, and for the mark of the end the whole text.  The given
text comes before the segments. -/
def fronts (before : List Char) : List Segment → List (List Char)
  | [] => [before]
  | .token _ lexeme _ :: later => before :: fronts (before ++ lexeme) later
  | s :: later => fronts (before ++ s.text) later

end Segment

namespace Scan

open Segment

/-- One after the other, the tokens stand where the text in front of them ends. -/
theorem forall₂_fronts_place (before : List Char) (segments : List Segment) :
    List.Forall₂
      (fun front t => front ++ t.lexeme.toList <+: before ++ segments.flatMap text ∧
        t.line = lineAfter (front ++ t.lexeme.toList))
      (fronts before segments) (place (lineAfter before) segments).tokens := by
  induction segments generalizing before with
  | nil => simp [fronts, place]
  | cons s later ih =>
      have hlater := ih (before ++ s.text)
      rw [List.append_assoc, ← List.flatMap_cons, ← lineAfter_append] at hlater
      cases s with
      | token kind lexeme literal =>
          refine .cons ⟨?_, ?_⟩ hlater
          · rw [String.toList_ofList, List.flatMap_cons, ← List.append_assoc]
            exact List.prefix_append _ _
          · rw [String.toList_ofList]
            exact lineAfter_append before (.token kind lexeme literal)
      | _ => exact hlater

theorem eq_text_of_break {source : String} {t : Token} (ht : t ∈ (ofSource source).tokens)
    (hbreak : '\n' ∈ t.lexeme.toList) : t.kind = .text := by
  obtain ⟨body, line, htokens, hlexemes⟩ := exists_tokens_eq source
  rw [htokens] at ht
  rcases List.mem_append.mp ht with hbody | hlast
  · exact (hlexemes t hbody).eq_text_of_break hbreak
  · rw [List.mem_singleton.mp hlast] at hbreak
    cases hbreak

/-- A token records the line on which its lexeme ends: one more than the line breaks in front of it
and inside it.  So the line is the one on which the token starts exactly if its lexeme holds no line
break, which is the case for every token that is not a text. -/
theorem token_line_is_that_of_its_end (source : String) :
    List.Forall₂
      (fun (front : List Char) (t : Token) => front ++ t.lexeme.toList <+: source.toList ∧
        t.line = 1 + front.count '\n' + t.lexeme.toList.count '\n' ∧
        (t.line = 1 + front.count '\n' ↔ '\n' ∉ t.lexeme.toList))
      (fronts [] (split source.toList)) (ofSource source).tokens ∧
    ∀ t ∈ (ofSource source).tokens, t.kind ≠ .text → '\n' ∉ t.lexeme.toList := by
  refine ⟨?_, fun t ht hkind hbreak => hkind (eq_text_of_break ht hbreak)⟩
  have hplaced := forall₂_fronts_place [] (split source.toList)
  rw [List.nil_append, flatMap_text_split] at hplaced
  refine hplaced.imp fun front t ⟨hstart, hline⟩ => ⟨hstart, ?_, ?_⟩
  · rw [hline, lineAfter, List.count_append, Nat.add_assoc]
  · rw [hline, lineAfter, List.count_append, ← List.count_eq_zero]
    omega

namespace Sample

/-- A text over two lines, and a word after it. -/
def wrapped : String := "\"a\nb\" c"

theorem fronts_wrapped :
    fronts [] (split wrapped.toList) = [[], "\"a\nb\" ".toList, wrapped.toList] := by
  decide +kernel

theorem tokens_wrapped :
    (ofSource wrapped).tokens =
      [⟨.text, "\"a\nb\"", .text "a\nb", 2⟩, ⟨.identifier, "c", .absent, 2⟩,
        ⟨.endOfFile, "", .absent, 2⟩] := by
  decide +kernel

end Sample

theorem token_line_is_that_of_its_end_word :
    let word : Token := ⟨.identifier, "c", .absent, 2⟩
    word ∈ (ofSource Sample.wrapped).tokens ∧ word.kind ≠ .text ∧ '\n' ∉ word.lexeme.toList ∧
      List.Forall₂ (fun (front : List Char) (t : Token) => t.line = 1 + front.count '\n' ↔
          '\n' ∉ t.lexeme.toList)
        (fronts [] (split Sample.wrapped.toList)) (ofSource Sample.wrapped).tokens := by
  intro word
  have hmem : word ∈ (ofSource Sample.wrapped).tokens := by
    rw [Sample.tokens_wrapped]
    decide
  obtain ⟨hlines, hbreaks⟩ := token_line_is_that_of_its_end Sample.wrapped
  exact ⟨hmem, by decide, hbreaks word hmem (by decide), hlines.imp fun _ _ h => h.2.2⟩

/-- A text over two lines does not record the line on which it starts. -/
theorem wrapped_text_records_a_later_line :
    ¬∀ source : String,
      List.Forall₂ (fun (front : List Char) (t : Token) => t.line = 1 + front.count '\n')
        (fronts [] (split source.toList)) (ofSource source).tokens := by
  intro hstarts
  have hsample := hstarts Sample.wrapped
  rw [Sample.fronts_wrapped, Sample.tokens_wrapped] at hsample
  obtain ⟨hfirst, -⟩ := List.forall₂_cons.mp hsample
  exact absurd hfirst (by decide)

end Scan

end Slang
