import Slang.Proofs.Token.Tiling

/-!
# Layout

The lexemes of any source text may be written out again with other layout and comments between them,
as long as a layout character comes first after each lexeme.  Scanning the new text reports nothing
and gives the same tokens, on other lines.
-/

namespace Slang

namespace Token

/-- What there is of a token apart from its line. -/
def content (t : Token) : Kind × String × Literal :=
  (t.kind, t.lexeme, t.literal)

/-- The token as a segment of a text. -/
def segment (t : Token) : Segment :=
  .token t.kind t.lexeme.toList t.literal

end Token

namespace Segment

/-- Layout characters and complete comments, in any order. -/
inductive IsFiller : List Char → Prop
  | nil : IsFiller []
  | layout {c : Char} {rest : List Char} (hc : c = ' ' ∨ c = '\r' ∨ c = '\t' ∨ c = '\n')
      (hrest : IsFiller rest) : IsFiller (c :: rest)
  | comment {body rest : List Char} (hbody : '.' ∉ body) (hrest : IsFiller rest) :
      IsFiller (commentOpener ++ body ++ '.' :: rest)

/-- A filler whose first character is a layout character. -/
def IsGap (gap : List Char) : Prop :=
  ∃ c rest, gap = c :: rest ∧ (c = ' ' ∨ c = '\r' ∨ c = '\t' ∨ c = '\n') ∧ IsFiller rest

/-- The lexemes in their order, with a gap after each, which may be missing after the last. -/
inductive LaidOut : List (List Char) → List Char → Prop
  | nil : LaidOut [] []
  | last (lexeme : List Char) : LaidOut [lexeme] lexeme
  | cons {lexeme gap rest : List Char} {later : List (List Char)} (hgap : IsGap gap)
      (hlater : LaidOut later rest) : LaidOut (lexeme :: later) (lexeme ++ gap ++ rest)

/-! ## Segments that add nothing -/

/-- The segment is neither a token nor reported. -/
def isSkipped : Segment → Bool
  | .layout _ | .comment _ => true
  | _ => false

/-- The segments that are tokens or reported. -/
def significant (segments : List Segment) : List Segment :=
  segments.filter fun s => !s.isSkipped

theorem significant_cons_of_isSkipped {s : Segment} (h : s.isSkipped = true)
    (later : List Segment) : significant (s :: later) = significant later := by
  simp [significant, h]

theorem significant_cons_token (kind : Token.Kind) (lexeme : List Char) (literal : Literal)
    (later : List Segment) :
    significant (.token kind lexeme literal :: later) =
      .token kind lexeme literal :: significant later := by
  simp [significant, isSkipped]

theorem split_comment {body : List Char} (h : '.' ∉ body) (rest : List Char) :
    split (commentOpener ++ body ++ '.' :: rest) =
      .comment (commentOpener ++ body ++ ['.']) :: split rest := by
  have hbody := forall_bne_of_not_mem h
  have hafter : commentAfter 'F' (commentMark ++ (body ++ '.' :: rest)) =
      (.comment (commentOpener ++ body ++ ['.']), rest) := by
    simp [commentAfter, commentOpener, List.takeWhile_append_of_pos hbody,
      List.dropWhile_append_of_pos hbody]
  rw [commentOpener, List.append_assoc, List.cons_append, split,
    next_comment (List.prefix_append _ _), hafter]
  rfl

/-- A filler is stepped over, whatever comes after it. -/
theorem significant_filler_append {filler : List Char} (h : IsFiller filler) (rest : List Char) :
    significant (split (filler ++ rest)) = significant (split rest) := by
  induction h with
  | nil => rfl
  | @layout c later hc hlater ih =>
      rw [List.cons_append, split, next_of_isLayout (isLayout_iff.mpr hc),
        significant_cons_of_isSkipped rfl, ih]
  | @comment body later hbody hlater ih =>
      rw [List.append_assoc, List.cons_append, split_comment hbody,
        significant_cons_of_isSkipped rfl, ih]

/-! ## Lexemes that are laid out -/

theorem IsGap.isFiller {gap : List Char} (h : IsGap gap) : IsFiller gap := by
  obtain ⟨c, rest, rfl, hc, hrest⟩ := h
  exact .layout hc hrest

theorem IsGap.startsBreak {gap : List Char} (h : IsGap gap) (rest : List Char) :
    StartsBreak (gap ++ rest) := by
  obtain ⟨c, later, rfl, hc, -⟩ := h
  intro d hd
  cases hd
  exact isLayout_iff.mpr hc

/-- Lexemes that are laid out are read as tokens, and nothing else but layout and comments. -/
theorem significant_of_laidOut {tokens : List Token}
    (htokens : ∀ t ∈ tokens, Lexeme t.kind t.lexeme.toList t.literal) {text : List Char}
    (h : LaidOut (tokens.map (·.lexeme.toList)) text) :
    significant (split text) = tokens.map Token.segment := by
  induction tokens generalizing text with
  | nil =>
      cases h
      simp [split, significant]
  | cons t later ih =>
      obtain ⟨ht, hlater⟩ := List.forall_mem_cons.mp htokens
      generalize hlexemes : (t :: later).map (·.lexeme.toList) = lexemes at h
      cases h with
      | nil => cases hlexemes
      | last lexeme =>
          obtain ⟨rfl, hnil⟩ := List.cons.inj hlexemes
          obtain rfl := List.map_eq_nil_iff.mp hnil
          have hend : StartsBreak [] := by simp [StartsBreak]
          have hread := split_lexeme_append ht hend
          rw [List.append_nil, split] at hread
          rw [hread, significant_cons_token]
          rfl
      | @cons lexeme gap rest lexemes hgap hrest =>
          obtain ⟨rfl, rfl⟩ := List.cons.inj hlexemes
          have hread := split_lexeme_append ht (hgap.startsBreak rest)
          rw [List.append_assoc, hread, significant_cons_token,
            significant_filler_append hgap.isFiller, ih hlater hrest]
          rfl

theorem mem_of_mem_withReach {before : List Char} {segments : List Segment}
    {r : List Char × Segment} (h : r ∈ withReach before segments) : r.2 ∈ segments := by
  induction segments generalizing before with
  | nil => cases h
  | cons s later ih =>
      rcases List.mem_cons.mp h with rfl | hlater
      · exact List.mem_cons_self
      · exact List.mem_cons_of_mem s (ih hlater)

theorem lexeme_of_mem_split {cs : List Char} {kind : Token.Kind} {lexeme : List Char}
    {literal : Literal} (h : .token kind lexeme literal ∈ split cs) : Lexeme kind lexeme literal := by
  obtain ⟨before, after, hsplit⟩ := List.append_of_mem h
  have htile := (isTile_of_split hsplit).1
  generalize after.flatMap text = rest at htile
  cases htile with
  | token hlexeme => exact hlexeme

end Segment

namespace Scan

open Segment

/-- The tokens of a source text are lexemes, and the mark of the end comes after them. -/
theorem exists_tokens_eq (source : String) :
    ∃ body line, (ofSource source).tokens = body ++ [⟨.endOfFile, "", .absent, line⟩] ∧
      ∀ t ∈ body, Lexeme t.kind t.lexeme.toList t.literal := by
  refine ⟨_, _, tokens_place [] (split source.toList), fun t ht => ?_⟩
  obtain ⟨⟨reach, s⟩, hr, htoken⟩ := List.mem_filterMap.mp ht
  have hmem : s ∈ split source.toList := mem_of_mem_withReach hr
  cases s with
  | token kind lexeme literal =>
      cases htoken
      rw [String.toList_ofList]
      exact lexeme_of_mem_split hmem
  | _ => cases htoken

/-- Segments that are tokens, with others between them that add nothing, are placed as these
tokens. -/
theorem place_of_significant {segments : List Segment} {tokens : List Token}
    (h : significant segments = tokens.map Token.segment) (line : Nat) :
    (place line segments).diagnostics = [] ∧
      (place line segments).tokens.map Token.content =
        tokens.map Token.content ++ [(.endOfFile, "", .absent)] := by
  induction segments generalizing tokens line with
  | nil =>
      obtain rfl := List.map_eq_nil_iff.mp h.symm
      exact ⟨rfl, rfl⟩
  | cons s later ih =>
      cases s with
      | token kind lexeme literal =>
          rw [significant_cons_token] at h
          obtain ⟨t, tokens, rfl, ht, htokens⟩ := List.map_eq_cons_iff.mp h.symm
          obtain ⟨hdiagnostics, hcontents⟩ := ih htokens.symm _
          cases ht
          refine ⟨hdiagnostics, ?_⟩
          simp only [place, List.map_cons, List.cons_append, hcontents]
          simp [Token.content]
      | layout c => exact ih h _
      | comment body => exact ih h _
      | reported body problem =>
          obtain ⟨t, tokens, rfl, ht, -⟩ := List.map_eq_cons_iff.mp h.symm
          cases ht

end Scan

open Segment Scan in
/-- Scanning undoes writing out.  The lexemes of a source text, written out with any gaps between them
and any filler before the first, are scanned without a diagnostic into tokens of the same kinds,
lexemes and literals, with the mark of the end after them. -/
theorem scan_undoes_layout (source : String) {filler text : List Char} (hfiller : IsFiller filler)
    (htext : LaidOut ((ofSource source).tokens.dropLast.map (·.lexeme.toList)) text) :
    let scan := ofSource (String.ofList (filler ++ text))
    scan.diagnostics = [] ∧
      scan.tokens.map Token.content = (ofSource source).tokens.map Token.content := by
  intro scan
  obtain ⟨body, line, htokens, hlexemes⟩ := exists_tokens_eq source
  rw [htokens, List.dropLast_concat] at htext
  have hsignificant : significant (split (filler ++ text)) = body.map Token.segment := by
    rw [significant_filler_append hfiller, significant_of_laidOut hlexemes htext]
  have hscan : scan = place 1 (split (filler ++ text)) := by
    simp only [scan, ofSource, String.toList_ofList]
  obtain ⟨hdiagnostics, hcontents⟩ := place_of_significant hsignificant 1
  rw [hscan, htokens]
  refine ⟨hdiagnostics, ?_⟩
  rw [hcontents, List.map_append]
  rfl

namespace Scan.Sample

open Segment

/-- A text with a stray character, a character literal that is not closed, and lexemes that stand
close together. -/
def source : String := "~%a%5.FYI \"FYI.\"'xy"

/-- A comment over two lines. -/
def filler : List Char := "FYI.\n.".toList

/-- The lexemes of the source text, one of them after a comment with a quote in it. -/
def text : List Char := "%a\n% FYI.'.5\t. FYI \"FYI.\"\r".toList

theorem isFiller_filler : IsFiller filler :=
  @IsFiller.comment ['\n'] [] (by decide) .nil

theorem laidOut_text :
    LaidOut ((ofSource source).tokens.dropLast.map (·.lexeme.toList)) text := by
  have hlexemes : (ofSource source).tokens.dropLast.map (·.lexeme.toList) =
      ["%a".toList, ['%'], ['5'], ['.'], "FYI".toList, "\"FYI.\"".toList] := by decide +kernel
  have hgap : ∀ c ∈ [' ', '\r', '\t', '\n'], IsGap [c] :=
    fun c hc => ⟨c, [], rfl, by simpa using hc, .nil⟩
  have hcomment : IsGap " FYI.'.".toList :=
    ⟨' ', _, rfl, by decide, @IsFiller.comment ['\''] [] (by decide) .nil⟩
  rw [hlexemes]
  exact .cons (hgap '\n' (by decide)) (.cons hcomment (.cons (hgap '\t' (by decide))
    (.cons (hgap ' ' (by decide)) (.cons (hgap ' ' (by decide)) (.cons (hgap '\r' (by decide))
    .nil)))))

end Scan.Sample

open Segment Scan in
theorem scan_undoes_layout_sample :
    IsFiller Sample.filler ∧
    LaidOut ((ofSource Sample.source).tokens.dropLast.map (·.lexeme.toList)) Sample.text ∧
    let scan := ofSource (String.ofList (Sample.filler ++ Sample.text))
    scan.diagnostics = [] ∧
      scan.tokens.map Token.content = (ofSource Sample.source).tokens.map Token.content :=
  ⟨Sample.isFiller_filler, Sample.laidOut_text,
    scan_undoes_layout Sample.source Sample.isFiller_filler Sample.laidOut_text⟩

end Slang
