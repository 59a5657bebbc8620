import Slang.Token.Scan

/-!
# Scanned tokens

The segments of a source text cover it without gap or overlap.  From this it follows on which lines
tokens can stand.  A token has the literal that its kind promises, and only the last one marks the
end.
-/

namespace Slang

/-- The data of a token are what its kind promises. -/
structure Token.Faithful (t : Token) : Prop where
  number : t.kind = .number → ∃ x, t.literal = .number x
  text : t.kind = .text ∨ t.kind = .character → ∃ s, t.literal = .text s
  sigil : t.kind = .sigilIdentifier → ∃ c rest, t.lexeme.toList = c :: rest ∧ Segment.isSigil c = true

namespace Segment

/-! ## Segments cover the text -/

theorem text_operator (c : Char) (p : Pair) (rest : List Char) :
    (operator c p rest).1.text ++ (operator c p rest).2 = c :: rest := by
  unfold operator
  split
  · split <;> simp_all [text]
  · simp [text]

theorem text_number (c : Char) (rest : List Char) :
    (number c rest).1.text ++ (number c rest).2 = c :: rest := by
  have hrest : rest.takeWhile isDigit ++ rest.dropWhile isDigit = rest :=
    List.takeWhile_append_dropWhile
  unfold number
  dsimp only
  split
  · rename_i d later hafter
    have hlater : later.takeWhile isDigit ++ later.dropWhile isDigit = later :=
      List.takeWhile_append_dropWhile
    rw [hafter] at hrest
    split
    · simp [text, hlater, hrest]
    · simp [text, hafter, hrest]
  · simp [text, hrest]

theorem text_quotedText (rest : List Char) :
    (quotedText rest).1.text ++ (quotedText rest).2 = '"' :: rest := by
  have hrest : rest.takeWhile (· != '"') ++ rest.dropWhile (· != '"') = rest :=
    List.takeWhile_append_dropWhile
  unfold quotedText
  dsimp only
  split
  · rename_i hafter
    rw [hafter] at hrest
    simp [text, hrest]
  · rename_i hafter
    rw [hafter, List.append_nil] at hrest
    simp [text, hrest]

theorem text_quotedCharacter (rest : List Char) :
    (quotedCharacter rest).1.text ++ (quotedCharacter rest).2 = '\'' :: rest := by
  have hrest : rest.takeWhile (fun c => c != '\'' && c != '\n') ++
      rest.dropWhile (fun c => c != '\'' && c != '\n') = rest :=
    List.takeWhile_append_dropWhile
  unfold quotedCharacter
  dsimp only
  split
  · rename_i hafter
    rw [hafter] at hrest
    split
    · simp [text, hrest]
    · simp [text, hrest]
  · simp [text]

theorem text_commentAfter {c : Char} {rest : List Char} (h : commentMark.isPrefixOf rest = true) :
    (commentAfter c rest).1.text ++ (commentAfter c rest).2 = c :: rest := by
  obtain ⟨inside, rfl⟩ := List.isPrefixOf_iff_prefix.mp h
  have hinside : inside.takeWhile (· != '.') ++ inside.dropWhile (· != '.') = inside :=
    List.takeWhile_append_dropWhile
  unfold commentAfter
  rw [List.drop_left]
  dsimp only
  split
  · rename_i hafter
    rw [hafter] at hinside
    simp [text, hinside]
  · rename_i hafter
    rw [hafter, List.append_nil] at hinside
    simp [text, hinside]

theorem text_next (c : Char) (rest : List Char) :
    (next c rest).1.text ++ (next c rest).2 = c :: rest := by
  unfold next
  split
  · rfl
  split
  · exact text_operator ..
  split
  · rfl
  split
  · simp [sigilWord, text]
  split
  · rfl
  split
  · rename_i hcomment
    simp only [Bool.and_eq_true] at hcomment
    exact text_commentAfter hcomment.2
  split
  · simp [word, text]
  split
  · exact text_number ..
  split
  · rename_i hquote
    rw [hquote]
    exact text_quotedText rest
  split
  · rename_i hquote
    rw [hquote]
    exact text_quotedCharacter rest
  · rfl

theorem flatMap_text_split (cs : List Char) : (split cs).flatMap text = cs := by
  induction cs using split.induct with
  | case1 => simp [split]
  | case2 c rest ih => rw [split, List.flatMap_cons, ih, text_next]

/-! ## Segments keep what their kinds promise -/

/-- The kinds of tokens that promise nothing about their data. -/
def isBare : Token.Kind → Bool
  | .number | .text | .character | .sigilIdentifier | .endOfFile => false
  | _ => true

theorem isBare_of_single? {c : Char} {kind : Token.Kind} (h : single? c = some kind) :
    isBare kind = true := by
  unfold single? at h
  split at h <;> cases h <;> rfl

theorem isBare_of_pair? {c : Char} {p : Pair} (h : pair? c = some p) :
    isBare p.both = true ∧ isBare p.alone = true := by
  unfold pair? at h
  split at h <;> cases h <;> exact ⟨rfl, rfl⟩

theorem isBare_ofWord (word : String) : isBare (.ofWord word) = true := by
  have hkeywords : ∀ entry ∈ Token.Kind.keywords, isBare entry.2 = true := by decide
  unfold Token.Kind.ofWord
  cases hlookup : Token.Kind.keywords.lookup word with
  | none => rfl
  | some kind =>
      obtain ⟨before, after, hsplit, -⟩ := List.lookup_eq_some_iff.mp hlookup
      exact hkeywords (word, kind) (by simp [hsplit])

/-- A segment that is a token has data as its kind promises and does not mark the end. -/
def Keeps : Segment → Prop
  | .token kind lexeme literal =>
    kind ≠ .endOfFile ∧ ∀ line, Token.Faithful ⟨kind, String.ofList lexeme, literal, line⟩
  | _ => True

theorem keeps_of_isBare {kind : Token.Kind} (h : isBare kind = true) (lexeme : List Char) :
    Keeps (.token kind lexeme .absent) := by
  refine ⟨?_, fun line => ⟨?_, ?_, ?_⟩⟩
  all_goals cases kind <;> simp_all [isBare]

theorem keeps_operator {c : Char} {p : Pair} (h : pair? c = some p) (rest : List Char) :
    (operator c p rest).1.Keeps := by
  obtain ⟨hboth, halone⟩ := isBare_of_pair? h
  unfold operator
  split
  · split
    · exact keeps_of_isBare hboth _
    · exact keeps_of_isBare halone _
  · exact keeps_of_isBare halone _

theorem keeps_sigilWord {c : Char} (h : isSigil c = true) (rest : List Char) :
    (sigilWord c rest).1.Keeps := by
  refine ⟨by simp, fun line => ⟨by simp, by simp, fun _ => ?_⟩⟩
  exact ⟨c, rest.takeWhile Text.isWordChar, String.toList_ofList, h⟩

theorem keeps_number (c : Char) (rest : List Char) : (number c rest).1.Keeps := by
  have hkeeps : ∀ lexeme whole fraction,
      Keeps (.token .number lexeme (numberLiteral whole fraction)) := by
    intro lexeme whole fraction
    exact ⟨by simp, fun line => ⟨fun _ => ⟨_, rfl⟩, by simp, by simp⟩⟩
  unfold number
  dsimp only
  split
  · split <;> exact hkeeps _ _ _
  · exact hkeeps _ _ _

theorem keeps_quotedText (rest : List Char) : (quotedText rest).1.Keeps := by
  unfold quotedText
  dsimp only
  split
  · exact ⟨by simp, fun line => ⟨by simp, fun _ => ⟨_, rfl⟩, by simp⟩⟩
  · trivial

theorem keeps_quotedCharacter (rest : List Char) : (quotedCharacter rest).1.Keeps := by
  unfold quotedCharacter
  dsimp only
  split
  · split
    · exact ⟨by simp, fun line => ⟨by simp, fun _ => ⟨_, rfl⟩, by simp⟩⟩
    · trivial
  · trivial

theorem keeps_commentAfter (c : Char) (rest : List Char) : (commentAfter c rest).1.Keeps := by
  unfold commentAfter
  dsimp only
  split <;> trivial

theorem keeps_next (c : Char) (rest : List Char) : (next c rest).1.Keeps := by
  unfold next
  split
  · rename_i hsingle
    exact keeps_of_isBare (isBare_of_single? hsingle) _
  split
  · rename_i hpair
    exact keeps_operator hpair rest
  split
  · trivial
  split
  · rename_i hsigil
    simp only [Bool.and_eq_true] at hsigil
    exact keeps_sigilWord hsigil.1 rest
  split
  · exact keeps_of_isBare rfl _
  split
  · exact keeps_commentAfter c rest
  split
  · exact keeps_of_isBare (isBare_ofWord _) _
  split
  · exact keeps_number c rest
  split
  · exact keeps_quotedText rest
  split
  · exact keeps_quotedCharacter rest
  · trivial

theorem keeps_split (cs : List Char) : ∀ segment ∈ split cs, segment.Keeps := by
  induction cs using split.induct with
  | case1 => simp [split]
  | case2 c rest ih =>
      rw [split]
      simpa using ⟨keeps_next c rest, ih⟩

end Segment

/-! ## Tokens of a scan -/

namespace Scan

/-- The tokens end in the only one that marks the end, and they all have the data that their kinds
promise. -/
theorem exists_place_eq
    {segments : List Segment} (h : ∀ segment ∈ segments, segment.Keeps) (line : Nat) :
    ∃ body last, (place line segments).tokens = body ++ [last] ∧ last.kind = .endOfFile ∧
      (∀ t ∈ body, t.kind ≠ .endOfFile) ∧ ∀ t ∈ body, t.Faithful := by
  induction segments generalizing line with
  | nil => exact ⟨[], _, rfl, rfl, by simp, by simp⟩
  | cons segment later ih =>
      obtain ⟨body, last, htokens, hlast, honly, hfaithful⟩ :=
        ih (fun s hs => h s (by simp [hs])) (line + segment.lineBreaks)
      cases segment with
      | token kind lexeme literal =>
          obtain ⟨hkind, htoken⟩ := h _ (List.mem_cons_self ..)
          let line := line + Segment.lineBreaks (.token kind lexeme literal)
          refine ⟨⟨kind, String.ofList lexeme, literal, line⟩ :: body, last, ?_, hlast, ?_, ?_⟩
          · exact congrArg (List.cons _) htokens
          · exact List.forall_mem_cons.mpr ⟨hkind, honly⟩
          · exact List.forall_mem_cons.mpr ⟨htoken line, hfaithful⟩
      | layout c => exact ⟨body, last, htokens, hlast, honly, hfaithful⟩
      | comment text => exact ⟨body, last, htokens, hlast, honly, hfaithful⟩
      | reported text problem => exact ⟨body, last, htokens, hlast, honly, hfaithful⟩

theorem line_of_mem_place
    {segments : List Segment} {line : Nat} {t : Token} (h : t ∈ (place line segments).tokens) :
    line ≤ t.line ∧ t.line ≤ line + (segments.flatMap Segment.text).count '\n' := by
  induction segments generalizing line with
  | nil =>
      simp only [place, List.mem_singleton] at h
      simp [h]
  | cons segment later ih =>
      rw [List.flatMap_cons, List.count_append]
      -- All later tokens stand below the line breaks of this segment.
      have hlater : t ∈ (place (line + segment.lineBreaks) later).tokens →
          line ≤ t.line ∧ t.line ≤
            line + (segment.text.count '\n' + (later.flatMap Segment.text).count '\n') := by
        intro ht
        have := ih ht
        unfold Segment.lineBreaks at this
        omega
      cases segment with
      | token kind lexeme literal =>
          rcases List.mem_cons.mp h with rfl | ht
          · simp only [Segment.lineBreaks]
            omega
          · exact hlater ht
      | layout c => exact hlater h
      | comment text => exact hlater h
      | reported text problem => exact hlater h

theorem exists_ofSource_eq (source : String) :
    ∃ body last, (ofSource source).tokens = body ++ [last] ∧ last.kind = .endOfFile ∧
      (∀ t ∈ body, t.kind ≠ .endOfFile) ∧ ∀ t ∈ body, t.Faithful :=
  exists_place_eq (Segment.keeps_split source.toList) 1

/-- The data of scanned tokens are what their kinds promise. -/
theorem faithful_of_mem_ofSource {source : String} {t : Token}
    (h : t ∈ (ofSource source).tokens) : t.Faithful := by
  obtain ⟨body, last, htokens, hlast, -, hfaithful⟩ := exists_ofSource_eq source
  rw [htokens, List.mem_append, List.mem_singleton] at h
  rcases h with hbody | rfl
  · exact hfaithful t hbody
  · exact ⟨by simp [hlast], by simp [hlast], by simp [hlast]⟩

/-- Tokens stand on the lines of their source text. -/
theorem line_of_mem_ofSource {source : String} {t : Token} (h : t ∈ (ofSource source).tokens) :
    1 ≤ t.line ∧ t.line ≤ 1 + source.toList.count '\n' := by
  have := line_of_mem_place h
  rwa [Segment.flatMap_text_split] at this

end Scan

end Slang
