import Slang.Proofs.Token.Lexeme

/-!
# Tiling of a source text

Scanning steps over a source text from left to right, and each character belongs to exactly one
segment.  A segment is a token, a layout character, a comment, or a piece that is reported, and each
of these has its form.  Tokens and diagnostics are read off the segments in their order, on the line
where the segment ends.
-/

namespace Slang

namespace Segment

/-! ## The forms of segments -/

/-- The mark that opens a comment. -/
def commentOpener : List Char := 'F' :: commentMark

/-- The segment has one of the forms that segments have before the given rest of the text. -/
inductive IsTile : Segment → List Char → Prop
  /-- A lexeme of the kind, where no comment starts. -/
  | token {kind : Token.Kind} {lexeme : List Char} {literal : Literal} {rest : List Char}
      (hlexeme : Lexeme kind lexeme literal) (hcomment : ¬commentOpener <+: lexeme ++ rest) :
      IsTile (.token kind lexeme literal) rest
  | layout {c : Char} {rest : List Char} (hc : c = ' ' ∨ c = '\r' ∨ c = '\t' ∨ c = '\n') :
      IsTile (.layout c) rest
  /-- A comment ends with the first point after its mark. -/
  | comment {body rest : List Char} (hbody : '.' ∉ body) :
      IsTile (.comment (commentOpener ++ body ++ ['.'])) rest
  /-- A character that is no layout and no quote, and no lexeme by itself. -/
  | unexpected {c : Char} {rest : List Char} (hlayout : isLayout c = false) (htext : c ≠ '"')
      (hcharacter : c ≠ '\'') (hlexeme : ∀ kind literal, ¬Lexeme kind [c] literal) :
      IsTile (.reported [c] (.unexpected c)) rest
  /-- A character literal on one line that holds no or several characters. -/
  | characterLength {body rest : List Char} (hquote : '\'' ∉ body) (hline : '\n' ∉ body)
      (hlength : body.length ≠ 1) :
      IsTile (.reported ('\'' :: body ++ ['\'']) .characterLength) rest
  /-- A character literal that is not closed goes on to the end of the line or of the text. -/
  | openCharacter {body rest : List Char} (hquote : '\'' ∉ body) (hline : '\n' ∉ body)
      (hrest : ∀ c ∈ rest.head?, c = '\n') :
      IsTile (.reported ('\'' :: body) .openCharacter) rest
  /-- A text that is not closed goes on to the end. -/
  | openText {body : List Char} (hquote : '"' ∉ body) :
      IsTile (.reported ('"' :: body) .openText) []
  /-- A comment that is not closed goes on to the end. -/
  | openComment {body : List Char} (hbody : '.' ∉ body) :
      IsTile (.reported (commentOpener ++ body) .openComment) []

/-- No lexeme that starts where the segment starts is longer than the segment. -/
def IsMaximal (s : Segment) (rest : List Char) : Prop :=
  ∀ kind lexeme literal, Lexeme kind lexeme literal → lexeme <+: s.text ++ rest →
    lexeme.length ≤ s.text.length

theorem not_mem_takeWhile_ne (c : Char) (text : List Char) : c ∉ text.takeWhile (· != c) := by
  intro hmem
  simpa using List.mem_takeWhile_imp hmem

theorem head_of_dropWhile {p : Char → Bool} {text later : List Char} {c : Char}
    (h : text.dropWhile p = c :: later) : p c = false := by
  have hhead := List.head?_dropWhile_not p text
  rw [h] at hhead
  simpa using hhead

theorem isTile_commentAfter {rest : List Char} (h : commentMark <+: rest) :
    (commentAfter 'F' rest).1.IsTile (commentAfter 'F' rest).2 := by
  obtain ⟨inside, rfl⟩ := h
  have hbody := not_mem_takeWhile_ne '.' inside
  unfold commentAfter
  rw [List.drop_left]
  dsimp only
  split
  · rename_i point later hafter
    have hpoint : point = '.' := by simpa using head_of_dropWhile hafter
    subst hpoint
    exact .comment hbody
  · exact .openComment hbody

theorem quotedText_cases (rest : List Char) :
    (quotedText rest).1.Reads ∨ (quotedText rest).1.IsTile (quotedText rest).2 := by
  have hbody := not_mem_takeWhile_ne '"' rest
  unfold quotedText
  dsimp only
  split
  · rename_i quote later hafter
    have hquote : quote = '"' := by simpa using head_of_dropWhile hafter
    subst hquote
    exact .inl ⟨_, _, _, rfl, .text hbody⟩
  · exact .inr (.openText hbody)

theorem quotedCharacter_cases (rest : List Char) :
    (quotedCharacter rest).1.Reads ∨ (quotedCharacter rest).1.IsTile (quotedCharacter rest).2 := by
  let inside := fun c => c != '\'' && c != '\n'
  have hinside : ∀ c ∈ rest.takeWhile inside, c ≠ '\'' ∧ c ≠ '\n' := by
    intro c hc
    simpa [inside] using List.mem_takeWhile_imp hc
  have hquote : '\'' ∉ rest.takeWhile inside := fun hc => (hinside _ hc).1 rfl
  have hline : '\n' ∉ rest.takeWhile inside := fun hc => (hinside _ hc).2 rfl
  unfold quotedCharacter
  dsimp only
  split
  · split
    · rename_i hlength
      obtain ⟨c, hc⟩ := List.length_eq_one_iff.mp hlength
      have hmem : c ∈ rest.takeWhile inside := by simp [inside, hc]
      obtain ⟨hne, hne'⟩ := hinside c hmem
      rw [hc]
      exact .inl ⟨_, _, _, rfl, .character hne hne'⟩
    · rename_i hlength
      exact .inr (.characterLength hquote hline hlength)
  · rename_i hafter
    refine .inr (.openCharacter hquote hline fun c hc => ?_)
    obtain ⟨later, hlater⟩ := List.head?_eq_some_iff.mp hc
    have hstop := head_of_dropWhile hlater
    -- The literal would be closed by a quote.
    have hne : c ≠ '\'' := by
      rintro rfl
      exact hafter later hlater
    simpa [hne] using hstop

/-- A character that is a lexeme is an operator, a letter or a digit. -/
theorem cases_of_lexeme_singleton {kind : Token.Kind} {c : Char} {literal : Literal}
    (h : Lexeme kind [c] literal) :
    single? c ≠ none ∨ pair? c ≠ none ∨ c = '%' ∨ Text.isLetter c = true ∨ isDigit c = true := by
  generalize hlexeme : [c] = lexeme at h
  cases h with
  | symbol hkind hsymbol =>
      subst hlexeme
      rcases symbol_cases hkind hsymbol with ⟨d, hd, hsingle⟩ | ⟨d, p, hpair, hd⟩ | ⟨hd, -⟩
      · cases hd
        exact .inl (by simp [hsingle])
      · rcases hd with ⟨hd, -⟩ | ⟨hd, -⟩
        · cases hd
          exact .inr (.inl (by simp [hpair]))
        · cases hd
      · cases hd
        exact .inr (.inr (.inl rfl))
  | keyword hword =>
      obtain ⟨d, row, rfl, hd, -⟩ := Lexeme.keyword_cases hword
      cases hlexeme
      exact .inr (.inr (.inr (.inl hd)))
  | identifier hc =>
      cases hlexeme
      exact .inr (.inr (.inr (.inl hc)))
  | whole hne hdigits =>
      subst hlexeme
      exact .inr (.inr (.inr (.inr (hdigits c (by simp)))))
  | fraction hwhole => exact absurd hlexeme (by simp [List.cons_eq_append_iff, hwhole])
  | _ => exact absurd hlexeme (by simp)

theorem isTile_next (c : Char) (rest : List Char) :
    (next c rest).1.IsTile (next c rest).2 := by
  by_cases hcomment : commentOpener <+: c :: rest
  · obtain ⟨rfl, hmark⟩ := List.cons_prefix_cons.mp hcomment
    rw [next_comment hmark]
    exact isTile_commentAfter hmark
  have htoken : ∀ {s : Segment} {after : List Char}, s.text ++ after = c :: rest → s.Reads →
      s.IsTile after := by
    rintro s after htext ⟨kind, lexeme, literal, rfl, hlexeme⟩
    rw [← htext] at hcomment
    exact .token hlexeme hcomment
  unfold next
  split
  · rename_i hsingle
    exact htoken rfl ⟨_, _, _, rfl, lexeme_of_single? hsingle⟩
  rename_i hsingle
  split
  · rename_i hpair
    exact htoken (text_operator ..) (reads_operator hpair rest)
  rename_i hpair
  split
  · rename_i hlayout
    exact .layout (isLayout_iff.mp hlayout)
  rename_i hlayout
  split
  · rename_i hsigil
    exact htoken (by simp [sigilWord, text]) (reads_sigilWord hsigil)
  split
  · rename_i hpercent
    subst hpercent
    exact htoken rfl ⟨_, _, _, rfl, .symbol (by decide) (by decide)⟩
  rename_i hpercent
  split
  · rename_i hmark
    simp only [Bool.and_eq_true, decide_eq_true_eq, List.isPrefixOf_iff_prefix] at hmark
    exact (hcomment (List.cons_prefix_cons.mpr ⟨hmark.1.symm, hmark.2⟩)).elim
  split
  · rename_i hletter
    exact htoken (by simp [word, text]) (reads_word hletter rest)
  rename_i hletter
  split
  · rename_i hdigit
    exact htoken (text_number ..) (reads_number hdigit rest)
  rename_i hdigit
  split
  · rename_i hquote
    subst hquote
    exact (quotedText_cases rest).elim (htoken (text_quotedText rest)) id
  rename_i hquote
  split
  · rename_i hapostrophe
    subst hapostrophe
    exact (quotedCharacter_cases rest).elim (htoken (text_quotedCharacter rest)) id
  rename_i hapostrophe
  refine .unexpected (by simpa using hlayout) hquote hapostrophe fun kind literal hlexeme => ?_
  rcases cases_of_lexeme_singleton hlexeme with h | h | h | h | h
  · exact h hsingle
  · exact h hpair
  · exact hpercent h
  · exact hletter h
  · exact hdigit h

theorem isMaximal_next (c : Char) (rest : List Char) :
    (next c rest).1.IsMaximal (next c rest).2 := by
  intro kind lexeme literal hlexeme hstart
  rw [text_next] at hstart
  exact length_le_of_starts hlexeme hstart

/-- Wherever a segment stands in a text, it has its form, and no lexeme starts there that is
longer. -/
theorem isTile_of_split {cs : List Char} {before after : List Segment} {s : Segment}
    (h : split cs = before ++ s :: after) :
    s.IsTile (after.flatMap text) ∧ s.IsMaximal (after.flatMap text) := by
  induction cs using split.induct generalizing before with
  | case1 => simp [split] at h
  | case2 c rest ih =>
      rw [split] at h
      cases before with
      | nil =>
          obtain ⟨rfl, rfl⟩ := List.cons.inj h
          rw [flatMap_text_split]
          exact ⟨isTile_next c rest, isMaximal_next c rest⟩
      | cons first before => exact ih (List.cons.inj h).2

/-! ## Lines -/

/-- The segments, each with the text up to its end.  The given text comes before them. -/
def withReach (before : List Char) : List Segment → List (List Char × Segment)
  | [] => []
  | s :: later => (before ++ s.text, s) :: withReach (before ++ s.text) later

/-- The token that a segment is, on the given line. -/
def token? (line : Nat) : Segment → Option Token
  | .token kind lexeme literal => some ⟨kind, String.ofList lexeme, literal, line⟩
  | _ => none

/-- The diagnostic for a segment that is reported, on the given line. -/
def diagnostic? (line : Nat) : Segment → Option Diagnostic
  | .reported _ problem => some ⟨line, problem⟩
  | _ => none

end Segment

namespace Scan

open Segment

/-- The line that is reached after a text. -/
def lineAfter (text : List Char) : Nat :=
  1 + text.count '\n'

theorem lineAfter_append (before : List Char) (s : Segment) :
    lineAfter before + s.lineBreaks = lineAfter (before ++ s.text) := by
  rw [lineAfter, lineAfter, lineBreaks, List.count_append, Nat.add_assoc]

theorem tokens_place (before : List Char) (segments : List Segment) :
    (place (lineAfter before) segments).tokens =
      (withReach before segments).filterMap (fun r => r.2.token? (lineAfter r.1)) ++
        [⟨.endOfFile, "", .absent, lineAfter (before ++ segments.flatMap text)⟩] := by
  induction segments generalizing before with
  | nil => simp [place, withReach]
  | cons s later ih =>
      have hlater := ih (before ++ s.text)
      cases s <;>
        simp [place, withReach, lineAfter_append, token?, hlater, List.append_assoc]

theorem diagnostics_place (before : List Char) (segments : List Segment) :
    (place (lineAfter before) segments).diagnostics =
      (withReach before segments).filterMap fun r => r.2.diagnostic? (lineAfter r.1) := by
  induction segments generalizing before with
  | nil => simp [place, withReach]
  | cons s later ih =>
      have hlater := ih (before ++ s.text)
      cases s <;> simp [place, withReach, lineAfter_append, diagnostic?, hlater]

end Scan

open Segment Scan in
/-- Every character of a source text belongs to exactly one segment, and every segment has one of
the forms of segments.  The tokens are the segments that are lexemes, in their order, and a last one
that marks the end.  Each reported segment has one diagnostic, in their order.  Tokens and diagnostics
stand on the line that is reached at the end of their segments.  A lexeme has the kind and the literal
of its lexical class, and it is the longest that starts in its place. -/
theorem scan_tiles_source (source : String) :
    let segments := split source.toList
    segments.flatMap text = source.toList ∧
    (∀ before s after, segments = before ++ s :: after →
      s.IsTile (after.flatMap text) ∧ s.IsMaximal (after.flatMap text)) ∧
    (ofSource source).tokens =
      (withReach [] segments).filterMap (fun r => r.2.token? (lineAfter r.1)) ++
        [⟨.endOfFile, "", .absent, lineAfter source.toList⟩] ∧
    (ofSource source).diagnostics =
      (withReach [] segments).filterMap fun r => r.2.diagnostic? (lineAfter r.1) := by
  intro segments
  have htext : segments.flatMap text = source.toList := flatMap_text_split source.toList
  refine ⟨htext, fun before s after h => isTile_of_split h, ?_, ?_⟩
  · have htokens := tokens_place [] segments
    rw [List.nil_append, htext] at htokens
    exact htokens
  · exact diagnostics_place [] segments

end Slang
