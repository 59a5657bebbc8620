import Slang.Token.Segment

/-!
# Scanning

Scanning cuts a source text into segments and puts them on lines: every token and every reported
problem stands on the line where its segment ends. A problem never stops the scan.
-/

namespace Slang

namespace Segment

theorem length_dropWhile_le
    (p : Char → Bool) (cs : List Char) :
    (cs.dropWhile p).length ≤ cs.length := by
  induction cs with
  | nil => simp
  | cons c cs ih =>
      rw [List.dropWhile_cons]
      split
      · exact Nat.le_succ_of_le ih
      · exact Nat.le_refl _

theorem length_operator_le
    (c : Char) (p : Pair) (rest : List Char) :
    (operator c p rest).2.length ≤ rest.length := by
  unfold operator
  split
  · split <;> simp
  · simp

theorem length_number_le
    (c : Char) (rest : List Char) :
    (number c rest).2.length ≤ rest.length := by
  have hrest := length_dropWhile_le isDigit rest
  unfold number
  dsimp only
  split
  · rename_i d later hafter
    have hlater := length_dropWhile_le isDigit later
    rw [hafter] at hrest
    simp only [List.length_cons] at hrest
    split
    · simp only
      omega
    · simp only [hafter, List.length_cons]
      omega
  · exact hrest

theorem length_quotedText_le (rest : List Char) :
    (quotedText rest).2.length ≤ rest.length := by
  have hrest := length_dropWhile_le (· != '"') rest
  unfold quotedText
  dsimp only
  split
  · rename_i hafter
    rw [hafter] at hrest
    simp only [List.length_cons] at hrest
    simp only
    omega
  · simp

theorem length_quotedCharacter_le (rest : List Char) :
    (quotedCharacter rest).2.length ≤ rest.length := by
  have hrest := length_dropWhile_le (fun c => c != '\'' && c != '\n') rest
  unfold quotedCharacter
  dsimp only
  split
  · rename_i hafter
    rw [hafter] at hrest
    simp only [List.length_cons] at hrest
    split <;> simp only <;> omega
  · exact hrest

theorem length_commentAfter_le
    (c : Char) (rest : List Char) :
    (commentAfter c rest).2.length ≤ rest.length := by
  have hinside := length_dropWhile_le (· != '.') (rest.drop commentMark.length)
  rw [List.length_drop] at hinside
  unfold commentAfter
  dsimp only
  split
  · rename_i hafter
    rw [hafter] at hinside
    simp only [List.length_cons] at hinside
    simp only
    omega
  · simp

/-- A segment takes at least one character. -/
theorem length_next_le
    (c : Char) (rest : List Char) :
    (next c rest).2.length ≤ rest.length := by
  unfold next
  split
  · exact Nat.le_refl _
  split
  · exact length_operator_le ..
  repeat' split
  · exact Nat.le_refl _
  · exact length_dropWhile_le ..
  · exact Nat.le_refl _
  · exact length_commentAfter_le ..
  · exact length_dropWhile_le ..
  · exact length_number_le ..
  · exact length_quotedText_le ..
  · exact length_quotedCharacter_le ..
  · exact Nat.le_refl _

/-- The segments of a text, from left to right. -/
def split : List Char → List Segment
  | [] => []
  | c :: rest => (next c rest).1 :: split (next c rest).2
termination_by cs => cs.length
decreasing_by exact Nat.lt_succ_of_le (length_next_le c rest)

/-- How many lines end inside a segment. -/
def lineBreaks (s : Segment) : Nat :=
  s.text.count '\n'

end Segment

/-- A problem of the source text and the line where it was noticed. -/
structure Diagnostic where
  line : Nat
  problem : Problem
deriving DecidableEq

/-- What a source text consists of. -/
structure Scan where
  /-- The tokens, closed by one that marks the end of the text. -/
  tokens : List Token
  diagnostics : List Diagnostic
deriving DecidableEq

namespace Scan

/-- Puts segments on lines, the first of which starts on the given line. -/
def place (line : Nat) : List Segment → Scan
  | [] => ⟨[⟨.endOfFile, "", .absent, line⟩], []⟩
  | s :: later =>
    let line := line + s.lineBreaks
    let scan := place line later
    match s with
    | .token kind lexeme literal =>
      { scan with tokens := ⟨kind, String.ofList lexeme, literal, line⟩ :: scan.tokens }
    | .reported _ problem => { scan with diagnostics := ⟨line, problem⟩ :: scan.diagnostics }
    | _ => scan

/-- Scans a source text. -/
def ofSource (source : String) : Scan :=
  place 1 (Segment.split source.toList)

end Scan

end Slang
