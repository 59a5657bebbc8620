import Slang.Proofs.Token.Layout
import Slang.Proofs.Value.Plain

/-!
# Names of variables

A variable is written with its sigil or without it.  The name that is left without the sigil is a
word: a letter, and after it letters, digits and low lines of any script.  No such character is a
sigil or a blank one, so that there is only one way to take the sigil off: the first character is
dropped, or the lexeme is trimmed and stripped, or there is nothing to be done.
-/

namespace Slang

/-! ## Characters of words -/

namespace Text

/-- A letter, and after it characters that continue a word. -/
def IsWord (name : String) : Prop :=
  ∃ c rest, name.toList = c :: rest ∧ isLetter c = true ∧ ∀ d ∈ rest, isWordChar d = true

theorem Ranges.exists_of_contains
    {ranges : Ranges} {n : Nat} (h : ranges.contains n = true) :
    ∃ range ∈ ranges, range.1 ≤ n ∧ n ≤ range.2 := by
  induction ranges with
  | nil => cases h
  | cons range later ih =>
      obtain ⟨low, high⟩ := range
      unfold Ranges.contains at h
      by_cases hlow : n < low
      · simp [hlow] at h
      · rw [if_neg hlow, Bool.or_eq_true, decide_eq_true_eq] at h
        rcases h with hhigh | hlater
        · exact ⟨(low, high), .head later, Nat.le_of_not_lt hlow, hhigh⟩
        · obtain ⟨range, hmem, hin⟩ := ih hlater
          exact ⟨range, .tail _ hmem, hin⟩

/-- No character of a word is blank. -/
theorem isBlank_of_isWordChar {c : Char} (h : isWordChar c = true) : isBlank c = false := by
  have hcodes : ∀ range ∈ blankRanges, ∀ n ∈ List.range' range.1 (range.2 + 1 - range.1),
      letterRanges.contains n = false ∧ numericRanges.contains n = false ∧ n ≠ '_'.toNat := by
    decide +kernel
  by_contra hblank
  rw [Bool.not_eq_false] at hblank
  obtain ⟨range, hrange, hlow, hhigh⟩ := Ranges.exists_of_contains hblank
  obtain ⟨hletter, hnumeric, hline⟩ :=
    hcodes range hrange c.toNat (List.mem_range'_1.mpr ⟨hlow, by omega⟩)
  simp only [isWordChar, isLetter, isNumeric, hletter, hnumeric, Bool.false_or, beq_iff_eq] at h
  exact hline (congrArg Char.toNat h)

/-- No character of a word is a sigil. -/
theorem isSigil_of_isWordChar {c : Char} (h : isWordChar c = true) :
    Segment.isSigil c = false := by
  have hreserved : c ∉ Segment.reserved := Segment.not_mem_reserved (by decide +kernel) h
  simp_all [Segment.reserved, Segment.isSigil]

theorem trim_eq_self {cs : List Char} (h : ∀ c ∈ cs, isBlank c = false) : trim cs = cs := by
  have hdrop : ∀ row : List Char, (∀ c ∈ row, isBlank c = false) → row.dropWhile isBlank = row := by
    intro row hrow
    cases row with
    | nil => rfl
    | cons c rest => exact List.dropWhile_cons_of_neg (by simp [hrow c (.head rest)])
  unfold trim
  rw [hdrop cs h, hdrop cs.reverse fun c hc => h c (List.mem_reverse.mp hc), List.reverse_reverse]

theorem IsWord.forall_isWordChar {name : String} (h : IsWord name) :
    ∀ c ∈ name.toList, isWordChar c = true := by
  obtain ⟨c, rest, hname, hc, hrest⟩ := h
  rw [hname]
  exact Segment.forall_isWordChar hc hrest

theorem IsWord.ne_empty {name : String} (h : IsWord name) : name ≠ "" := by
  rintro rfl
  obtain ⟨c, rest, hname, -⟩ := h
  cases hname

end Text

/-! ## Taking off the sigil -/

namespace Sigil

open Text

theorem ofText?_singleton_of_not {c : Char} (h : Segment.isSigil c = false) :
    ofText? (String.singleton c) = none := by
  have hne : ∀ s : String, s.toList.all Segment.isSigil = true → String.singleton c ≠ s := by
    rintro _ hs rfl
    simp [h] at hs
  unfold ofText?
  rw [if_neg (hne "@" (by decide)), if_neg (hne "$" (by decide)), if_neg (hne "%" (by decide))]

theorem strip_of_isWord {name : String} (h : IsWord name) : strip name = name := by
  have hblank : ∀ c ∈ name.toList, isBlank c = false :=
    fun c hc => isBlank_of_isWordChar (h.forall_isWordChar c hc)
  have hword := h.forall_isWordChar
  obtain ⟨c, rest, hname, -⟩ := h
  have hsigil : Segment.isSigil c = false := isSigil_of_isWordChar (hword c (by simp [hname]))
  unfold strip
  rw [trim_eq_self hblank, hname]
  simp only [ofText?_singleton_of_not hsigil, Option.isSome_none, Bool.false_eq_true, if_false]
  rw [← hname, String.ofList_toList]

theorem strip_cons_of_isWord {name : String} (h : IsWord name) {sigil : Char}
    (hsigil : Segment.isSigil sigil = true) :
    strip (String.ofList (sigil :: name.toList)) = name := by
  have hfirst : isBlank sigil = false := by
    simp only [Segment.isSigil, Bool.or_eq_true, beq_iff_eq] at hsigil
    rcases hsigil with (rfl | rfl) | rfl <;> decide
  have hblank : ∀ c ∈ sigil :: name.toList, isBlank c = false :=
    List.forall_mem_cons.mpr
      ⟨hfirst, fun c hc => isBlank_of_isWordChar (h.forall_isWordChar c hc)⟩
  unfold strip
  rw [String.toList_ofList, trim_eq_self hblank]
  simp only [ofText?_singleton hsigil, if_true]
  exact String.ofList_toList

end Sigil

/-- A mark whose lexeme is a word names this word. -/
theorem Mark.name_of_isWord {mark : Mark} {name : String} (h : mark.lexeme = .text name)
    (hword : Text.IsWord name) : mark.name = .ok name := by
  simp only [Mark.name, h]
  rw [Sigil.strip_of_isWord hword]

/-! ## Tokens -/

namespace Lexeme

open Text

theorem keyword_ne_identifier {word : String} {kind : Token.Kind}
    (h : (word, kind) ∈ Token.Kind.keywords) : kind ≠ .identifier ∧ kind ≠ .sigilIdentifier := by
  have hkinds : ∀ entry ∈ Token.Kind.keywords,
      entry.2 ≠ .identifier ∧ entry.2 ≠ .sigilIdentifier := by decide
  exact hkinds _ h

theorem isWord_of_identifier {lexeme : List Char} {literal : Literal}
    (h : Lexeme .identifier lexeme literal) : IsWord (String.ofList lexeme) := by
  cases h with
  | symbol hkind htext => exact absurd hkind (by decide)
  | keyword hword => exact ((keyword_ne_identifier hword).1 rfl).elim
  | identifier hc hrest hword => exact ⟨_, _, String.toList_ofList, hc, hrest⟩

theorem exists_word_of_sigil {lexeme : List Char} {literal : Literal}
    (h : Lexeme .sigilIdentifier lexeme literal) :
    ∃ sigil name, Segment.isSigil sigil = true ∧ IsWord name ∧ lexeme = sigil :: name.toList := by
  cases h with
  | symbol hkind htext => exact absurd hkind (by decide)
  | keyword hword => exact ((keyword_ne_identifier hword).2 rfl).elim
  | @sigil sigil c rest hsigil hc hrest =>
      refine ⟨sigil, String.ofList (c :: rest), ?_, ?_, by rw [String.toList_ofList]⟩
      · rcases hsigil with rfl | rfl | rfl <;> rfl
      · exact ⟨c, rest, String.toList_ofList, hc, hrest⟩

end Lexeme

namespace Token

open Text Grammar

/-- What a variable is called, with a sigil in front of it or without one, is a word. -/
structure IsWellNamed (t : Token) : Prop where
  identifier : t.kind = .identifier → IsWord t.lexeme
  sigil : t.kind = .sigilIdentifier → ∃ sigil name,
    Segment.isSigil sigil = true ∧ IsWord name ∧ t.lexeme.toList = sigil :: name.toList

theorem isWellNamed_of_lexeme {t : Token} (h : Lexeme t.kind t.lexeme.toList t.literal) :
    t.IsWellNamed := by
  constructor
  · intro hkind
    rw [hkind] at h
    have hword := h.isWord_of_identifier
    rwa [String.ofList_toList] at hword
  · intro hkind
    rw [hkind] at h
    exact h.exists_word_of_sigil

/-- All tokens of a source text are well named. -/
theorem isWellNamed_of_mem_ofSource {source : String} {t : Token}
    (h : t ∈ (Scan.ofSource source).tokens) : t.IsWellNamed := by
  obtain ⟨body, line, htokens, hlexemes⟩ := Scan.exists_tokens_eq source
  rw [htokens, List.mem_append, List.mem_singleton] at h
  rcases h with hbody | rfl
  · exact isWellNamed_of_lexeme (hlexemes t hbody)
  · exact ⟨(nomatch ·), (nomatch ·)⟩

theorem isWellNamed_of_closes {t : Token} (h : Closes t.kind) : t.IsWellNamed := by
  rcases h with h | h | h <;> exact ⟨by simp [h], by simp [h]⟩

variable {t : Token}

/-- The name of a variable that is written with a sigil is what is left without the first
character. -/
theorem IsWellNamed.name_of_sigil (h : t.IsWellNamed) (hkind : t.kind = .sigilIdentifier) :
    IsWord (String.ofList (t.lexeme.toList.drop 1)) ∧
      t.mark.name = .ok (String.ofList (t.lexeme.toList.drop 1)) := by
  obtain ⟨sigil, name, hsigil, hname, hlexeme⟩ := h.sigil hkind
  have hdropped : String.ofList (t.lexeme.toList.drop 1) = name := by
    rw [hlexeme, List.drop_one, List.tail_cons, String.ofList_toList]
  have hspelled : t.lexeme = String.ofList (sigil :: name.toList) := by
    rw [← hlexeme, String.ofList_toList]
  rw [hdropped]
  refine ⟨hname, ?_⟩
  change Except.ok (Sigil.strip t.lexeme) = Except.ok name
  rw [hspelled, Sigil.strip_cons_of_isWord hname hsigil]

end Token

end Slang
