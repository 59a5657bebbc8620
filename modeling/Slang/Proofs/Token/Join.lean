import Slang.Proofs.Parser.Lines
import Slang.Proofs.Token.Tiling

/-!
# Scanning two texts as one

Two source texts are joined by a line break.  Where the first one leaves neither a text nor a
comment open, no segment reaches over the break.  The segments of the joined text are then those of
the first one, the break and those of the second one, whose lines come after those of the first.
-/

namespace Slang

namespace Segment

/-- A text or a comment that goes on up to the end of the source text. -/
def runsOn : Segment → Bool
  | .reported _ .openText | .reported _ .openComment => true
  | _ => false

/-- Where a row of characters ends inside a text, it ends there in front of any other text. -/
theorem span_append
    {p : Char → Bool} {row : List Char} (tail : List Char)
    (h : row.dropWhile p ≠ [] ∨ ∀ c ∈ tail.head?, p c = false) :
    (row ++ tail).takeWhile p = row.takeWhile p ∧
      (row ++ tail).dropWhile p = row.dropWhile p ++ tail := by
  induction row with
  | nil =>
      have htail : ∀ c ∈ tail.head?, p c = false := by simpa using h
      cases tail with
      | nil => simp
      | cons c later => simp [htail c rfl]
  | cons c later ih =>
      by_cases hc : p c = true
      · simpa [hc] using ih (by simpa [hc] using h)
      · simp [hc]

theorem span_append_break {p : Char → Bool} (hp : p '\n' = false) (row later : List Char) :
    (row ++ '\n' :: later).takeWhile p = row.takeWhile p ∧
      (row ++ '\n' :: later).dropWhile p = row.dropWhile p ++ '\n' :: later :=
  span_append _ (.inr (by simpa using hp))

theorem startsWithLetter_append_break (rest later : List Char) :
    startsWithLetter (rest ++ '\n' :: later) = startsWithLetter rest := by
  cases rest with
  | nil => exact StartsBreak.startsWithLetter_eq_false (by simp [StartsBreak, isLayout])
  | cons c rest => rfl

theorem isPrefixOf_append_break
    (mark : List Char) (hmark : '\n' ∉ mark) (rest later : List Char) :
    mark.isPrefixOf (rest ++ '\n' :: later) = mark.isPrefixOf rest := by
  induction mark generalizing rest with
  | nil => simp
  | cons c mark ih =>
      obtain ⟨hc, hmark⟩ : '\n' ≠ c ∧ '\n' ∉ mark := by simpa using hmark
      cases rest with
      | nil => simp [List.isPrefixOf_cons_cons, hc.symm]
      | cons d rest => simp [List.isPrefixOf_cons_cons, ih hmark rest]

section Readers

variable (later : List Char)

theorem operator_append_break {c : Char} {p : Pair} (h : pair? c = some p) (rest : List Char) :
    operator c p (rest ++ '\n' :: later) =
      ((operator c p rest).1, (operator c p rest).2 ++ '\n' :: later) := by
  cases rest with
  | nil => exact operator_alone h (by simp [StartsBreak, isLayout])
  | cons d rest =>
      by_cases hd : d = p.second
      · simp [operator, hd]
      · simp [operator, hd]

theorem number_append_break (c : Char) (rest : List Char) :
    number c (rest ++ '\n' :: later) =
      ((number c rest).1, (number c rest).2 ++ '\n' :: later) := by
  obtain ⟨htake, hdrop⟩ := span_append_break (p := isDigit) rfl rest later
  simp only [number, htake, hdrop]
  cases hafter : rest.dropWhile isDigit with
  | nil => rfl
  | cons e after =>
      by_cases he : e = '.'
      · subst he
        cases after with
        | nil => rfl
        | cons d more =>
            obtain ⟨hmore, hrest⟩ := span_append_break (p := isDigit) rfl more later
            by_cases hd : isDigit d = true
            · simp [hd, hmore, hrest]
            · simp [hd]
      · simp [he]

theorem quotedText_append_break
    {rest : List Char} (h : (quotedText rest).1.runsOn = false) :
    quotedText (rest ++ '\n' :: later) =
      ((quotedText rest).1, (quotedText rest).2 ++ '\n' :: later) := by
  unfold quotedText at h ⊢
  cases hafter : rest.dropWhile (· != '"') with
  | nil => simp [hafter, runsOn] at h
  | cons quote after =>
      have hclosed : rest.dropWhile (· != '"') ≠ [] := by simp [hafter]
      obtain ⟨htake, hdrop⟩ := span_append ('\n' :: later) (.inl hclosed)
      simp [htake, hdrop, hafter]

theorem quotedCharacter_append_break (rest : List Char) :
    quotedCharacter (rest ++ '\n' :: later) =
      ((quotedCharacter rest).1, (quotedCharacter rest).2 ++ '\n' :: later) := by
  obtain ⟨htake, hdrop⟩ := span_append_break (p := fun c => c != '\'' && c != '\n') rfl rest later
  simp only [quotedCharacter, htake, hdrop]
  cases hafter : rest.dropWhile fun c => c != '\'' && c != '\n' with
  | nil => rfl
  | cons e after =>
      by_cases he : e = '\''
      · subst he
        by_cases hlength : (rest.takeWhile fun c => c != '\'' && c != '\n').length = 1
        · simp [hlength]
        · simp [hlength]
      · simp [he]

theorem commentAfter_append_break
    {c : Char} {rest : List Char} (hmark : commentMark.isPrefixOf rest = true)
    (h : (commentAfter c rest).1.runsOn = false) :
    commentAfter c (rest ++ '\n' :: later) =
      ((commentAfter c rest).1, (commentAfter c rest).2 ++ '\n' :: later) := by
  obtain ⟨inside, rfl⟩ := List.isPrefixOf_iff_prefix.mp hmark
  unfold commentAfter at h ⊢
  rw [List.drop_left] at h
  rw [List.append_assoc, List.drop_left, List.drop_left]
  cases hafter : inside.dropWhile (· != '.') with
  | nil => simp [hafter, runsOn] at h
  | cons point after =>
      have hclosed : inside.dropWhile (· != '.') ≠ [] := by simp [hafter]
      obtain ⟨htake, hdrop⟩ := span_append ('\n' :: later) (.inl hclosed)
      simp [htake, hdrop, hafter]

/-- A segment that ends before the line break is the same without it. -/
theorem next_append_break
    {c : Char} {rest : List Char} (h : (next c rest).1.runsOn = false) :
    next c (rest ++ '\n' :: later) = ((next c rest).1, (next c rest).2 ++ '\n' :: later) := by
  have hmark := isPrefixOf_append_break commentMark (by decide) rest later
  obtain ⟨htake, hdrop⟩ := span_append_break (p := Text.isWordChar) (by decide +kernel) rest later
  by_cases hcomment : c = 'F' ∧ commentMark.isPrefixOf rest = true
  · obtain ⟨rfl, hstarts⟩ := hcomment
    have hnext {rest : List Char} (h : commentMark.isPrefixOf rest = true) :
        next 'F' rest = commentAfter 'F' rest := next_comment (List.isPrefixOf_iff_prefix.mp h)
    rw [hnext hstarts] at h ⊢
    rw [hnext (hmark.trans hstarts)]
    exact commentAfter_append_break later hstarts h
  by_cases hquote : c = '"'
  · subst hquote
    exact quotedText_append_break later h
  unfold next
  rw [startsWithLetter_append_break, hmark]
  split
  · rfl
  split
  · rename_i p hpair
    exact operator_append_break later hpair rest
  repeat' split
  · rfl
  · simp [sigilWord, htake, hdrop]
  · rfl
  · simp_all
  · simp [word, htake, hdrop]
  · exact number_append_break later c rest
  · exact quotedCharacter_append_break later rest
  · rfl

end Readers

theorem split_break (later : List Char) :
    split ('\n' :: later) = .layout '\n' :: split later := by
  rw [split, next_of_isLayout (c := '\n') rfl]

theorem split_append_break
    {cs : List Char} (h : ∀ s ∈ split cs, s.runsOn = false) (later : List Char) :
    split (cs ++ '\n' :: later) = split cs ++ .layout '\n' :: split later := by
  induction cs using split.induct with
  | case1 =>
      have hnil : split [] = [] := by rw [split]
      rw [List.nil_append, split_break, hnil, List.nil_append]
  | case2 c rest ih =>
      have hcons : split (c :: rest) = (next c rest).1 :: split (next c rest).2 := by rw [split]
      rw [hcons] at h ⊢
      obtain ⟨hfirst, hothers⟩ := List.forall_mem_cons.mp h
      rw [List.cons_append, split, next_append_break later hfirst, ih hothers, List.cons_append]

end Segment

/-- The diagnostic on its new line. -/
def Diagnostic.moved (f : Nat → Nat) (d : Diagnostic) : Diagnostic :=
  { d with line := f d.line }

namespace Scan

open Segment

theorem place_add (line k : Nat) (segments : List Segment) :
    place (line + k) segments =
      ⟨(place line segments).tokens.map (·.moved (· + k)),
        (place line segments).diagnostics.map (·.moved (· + k))⟩ := by
  induction segments generalizing line with
  | nil => rfl
  | cons s later ih =>
      have hlater := ih (line + s.lineBreaks)
      rw [Nat.add_right_comm] at hlater
      cases s <;> simp [place, hlater, Token.moved, Diagnostic.moved, Nat.add_right_comm]

theorem tokens_place_ne_nil (line : Nat) (segments : List Segment) :
    (place line segments).tokens ≠ [] := by
  induction segments generalizing line with
  | nil => simp [place]
  | cons s later ih => cases s <;> simp [place, ih]

theorem place_append (line : Nat) (first later : List Segment) :
    place line (first ++ later) =
      let rest := place (line + (first.flatMap text).count '\n') later
      ⟨(place line first).tokens.dropLast ++ rest.tokens,
        (place line first).diagnostics ++ rest.diagnostics⟩ := by
  induction first generalizing line with
  | nil => simp [place]
  | cons s first ih =>
      have hlater := ih (line + s.lineBreaks)
      rw [lineBreaks, Nat.add_assoc, ← List.count_append, ← List.flatMap_cons] at hlater
      have hne := tokens_place_ne_nil (line + s.text.count '\n') first
      cases s <;> simp_all [place, lineBreaks, List.dropLast_cons_of_ne_nil]

/-- No text and no comment is still open at the end of the source text. -/
def IsClosed (scan : Scan) : Prop :=
  ∀ d ∈ scan.diagnostics, d.problem ≠ .openText ∧ d.problem ≠ .openComment

theorem runsOn_eq_false_of_isClosed
    {line : Nat} {segments : List Segment} (h : (place line segments).IsClosed) :
    ∀ s ∈ segments, s.runsOn = false := by
  induction segments generalizing line with
  | nil => simp
  | cons s later ih =>
      rw [List.forall_mem_cons]
      cases s with
      | token kind lexeme literal => exact ⟨rfl, ih h⟩
      | layout c => exact ⟨rfl, ih h⟩
      | comment body => exact ⟨rfl, ih h⟩
      | reported body problem =>
          obtain ⟨⟨htext, hcomment⟩, hlater⟩ := List.forall_mem_cons.mp h
          refine ⟨?_, ih hlater⟩
          cases problem <;> simp_all [runsOn]

/-- The scan of two texts that are joined by a line break.  Nothing is lost but the end mark of the
first one. -/
theorem ofSource_join {first : String} (h : (ofSource first).IsClosed) (second : String) :
    let k := 1 + first.toList.count '\n'
    ofSource (first ++ "\n" ++ second) =
      ⟨(ofSource first).tokens.dropLast ++ (ofSource second).tokens.map (·.moved (· + k)),
        (ofSource first).diagnostics ++ (ofSource second).diagnostics.map (·.moved (· + k))⟩ := by
  intro k
  have htext : (first ++ "\n" ++ second).toList = first.toList ++ '\n' :: second.toList := by
    simp [String.toList_append]
  have hsplit := split_append_break (runsOn_eq_false_of_isClosed h) second.toList
  have hsecond : place (1 + first.toList.count '\n') (.layout '\n' :: split second.toList) =
      place (1 + k) (split second.toList) := by
    simp [place, lineBreaks, text, k, Nat.add_comm]
  rw [ofSource, htext, hsplit, place_append, flatMap_text_split, hsecond, place_add]
  rfl

theorem isClosed_of_messages
    {scan : Scan} (h : ∀ d ∈ scan.diagnostics,
      d.problem.message ≠ "Unterminated string." ∧ d.problem.message ≠ "Comment Incomplete") :
    scan.IsClosed := by
  intro d hd
  obtain ⟨htext, hcomment⟩ := h d hd
  constructor
  · intro hproblem
    exact htext (congrArg Problem.message hproblem)
  · intro hproblem
    exact hcomment (congrArg Problem.message hproblem)

/-- Scanning may be done line by line.  If the first text is not reported to leave a text or a
comment open, then the two texts joined by a line break have the tokens of the first one up to its
end mark and then those of the second one, and the reports of both in the same order.  What comes
from the second text stands on a later line and is the same otherwise. -/
theorem scan_composes_at_line_break
    (first second : String)
    (hfirst : ∀ d ∈ (ofSource first).diagnostics,
      d.problem.message ≠ "Unterminated string." ∧ d.problem.message ≠ "Comment Incomplete") :
    let k := 1 + first.toList.count '\n'
    let joined := ofSource (first ++ "\n" ++ second)
    ∃ body last, (ofSource first).tokens = body ++ [last] ∧ last.kind = .endOfFile ∧
      (∀ t ∈ body, t.kind ≠ .endOfFile) ∧
      joined.tokens =
        body ++ (ofSource second).tokens.map (fun t => { t with line := t.line + k }) ∧
      joined.diagnostics = (ofSource first).diagnostics ++
        (ofSource second).diagnostics.map (fun d => { d with line := d.line + k }) := by
  intro k joined
  have hjoined := ofSource_join (isClosed_of_messages hfirst) second
  obtain ⟨body, last, htokens, hlast, hbody, -⟩ := exists_ofSource_eq first
  have hdrop : (ofSource first).tokens.dropLast = body := by
    rw [htokens, List.dropLast_concat]
  rw [hdrop] at hjoined
  exact ⟨body, last, htokens, hlast, hbody, congrArg Scan.tokens hjoined,
    congrArg Scan.diagnostics hjoined⟩

namespace Sample

/-- A text on two lines with a character that is not closed and one that is not expected. -/
def untidy : String := "x as 'y\nspill #"

/-- A text whose last line leaves a text open. -/
def unquoted : String := "4 +\n\"z"

end Sample

theorem scan_composes_at_line_break_untidy :
    let joined := ofSource (Sample.untidy ++ "\n" ++ Sample.unquoted)
    (ofSource Sample.untidy).diagnostics = [⟨1, .openCharacter⟩, ⟨2, .unexpected '#'⟩] ∧
      joined.diagnostics =
        [⟨1, .openCharacter⟩, ⟨2, .unexpected '#'⟩] ++ [⟨2 + 2, .openText⟩] ∧
      ∃ body last, (ofSource Sample.untidy).tokens = body ++ [last] ∧ last.kind = .endOfFile ∧
        (∀ t ∈ body, t.kind ≠ .endOfFile) ∧
        joined.tokens = body ++
          (ofSource Sample.unquoted).tokens.map (fun t => { t with line := t.line + 2 }) := by
  intro joined
  have hfirst : (ofSource Sample.untidy).diagnostics =
      [⟨1, .openCharacter⟩, ⟨2, .unexpected '#'⟩] := by decide +kernel
  have hsecond : (ofSource Sample.unquoted).diagnostics = [⟨2, .openText⟩] := by decide +kernel
  obtain ⟨body, last, htokens, hlast, hbody, hjoined, hreports⟩ :=
    scan_composes_at_line_break Sample.untidy Sample.unquoted (by decide +kernel)
  rw [hfirst, hsecond] at hreports
  exact ⟨hfirst, hreports, body, last, htokens, hlast, hbody, hjoined⟩

end Scan

end Slang
