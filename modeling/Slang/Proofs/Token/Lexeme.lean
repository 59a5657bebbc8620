import Mathlib.Data.List.TakeWhile
import Slang.Proofs.Number.Digits
import Slang.Proofs.Token.Scanned

/-!
# Lexemes

This module says which texts are lexemes of which kind, and what literal they denote, without any
reference to the functions that cut a source text into segments.  Then it connects the two.  Where a
segment is a token, its text is a lexeme of that kind.  No segment is shorter than a lexeme that
starts in the same place.  A lexeme before a layout character, or at the end of the text, is read as
it stands.
-/

namespace Slang

/-- The kinds of tokens with a fixed text that is no word. -/
def Token.Kind.symbols : List Token.Kind :=
  [.leftParen, .rightParen, .leftBrace, .rightBrace, .comma, .dot, .semicolon, .colon, .plus,
   .increment, .minus, .decrement, .times, .divide, .modulo, .power, .and, .or, .not, .notEqual,
   .assign, .equal, .greater, .greaterEqual, .less, .lessEqual]

/-- The texts of the tokens of a kind, each with the literal that it denotes. -/
inductive Lexeme : Token.Kind → List Char → Literal → Prop
  | symbol {kind : Token.Kind} {lexeme : List Char} (hkind : kind ∈ Token.Kind.symbols)
      (htext : kind.symbol = String.ofList lexeme) : Lexeme kind lexeme .absent
  | keyword {kind : Token.Kind} {lexeme : List Char}
      (hword : (String.ofList lexeme, kind) ∈ Token.Kind.keywords) : Lexeme kind lexeme .absent
  | identifier {c : Char} {rest : List Char} (hc : Text.isLetter c = true)
      (hrest : ∀ d ∈ rest, Text.isWordChar d = true)
      (hword : ∀ entry ∈ Token.Kind.keywords, entry.1 ≠ String.ofList (c :: rest)) :
      Lexeme .identifier (c :: rest) .absent
  | sigil {sigil c : Char} {rest : List Char} (hsigil : sigil = '@' ∨ sigil = '$' ∨ sigil = '%')
      (hc : Text.isLetter c = true) (hrest : ∀ d ∈ rest, Text.isWordChar d = true) :
      Lexeme .sigilIdentifier (sigil :: c :: rest) .absent
  | whole {digits : List Char} (hne : digits ≠ []) (hdigits : ∀ d ∈ digits, isDigit d = true) :
      Lexeme .number digits (.number (Double.ofDecimal ⟨digitsValue digits, 0⟩))
  | fraction {whole fraction : List Char} (hwhole : whole ≠ []) (hfraction : fraction ≠ [])
      (hdigits : ∀ d ∈ whole ++ fraction, isDigit d = true) :
      Lexeme .number (whole ++ '.' :: fraction)
        (.number (Double.ofDecimal ⟨digitsValue (whole ++ fraction), -(fraction.length : Int)⟩))
  | text {body : List Char} (hbody : '"' ∉ body) :
      Lexeme .text ('"' :: body ++ ['"']) (.text (String.ofList body))
  | character {c : Char} (hquote : c ≠ '\'') (hline : c ≠ '\n') :
      Lexeme .character ['\'', c, '\''] (.text (String.ofList [c]))

namespace Lexeme

/-- A letter and word characters make up a keyword or an identifier. -/
theorem word {c : Char} {rest : List Char} (hc : Text.isLetter c = true)
    (hrest : ∀ d ∈ rest, Text.isWordChar d = true) :
    Lexeme (.ofWord (String.ofList (c :: rest))) (c :: rest) .absent := by
  unfold Token.Kind.ofWord
  cases hlookup : Token.Kind.keywords.lookup (String.ofList (c :: rest)) with
  | some kind =>
      obtain ⟨before, after, hsplit, -⟩ := List.lookup_eq_some_iff.mp hlookup
      exact .keyword (by simp [hsplit])
  | none =>
      refine .identifier hc hrest fun entry hentry heq => ?_
      have hnone := List.lookup_eq_none_iff.mp hlookup entry hentry
      simp [heq] at hnone

/-- Every keyword is a word of that kind. -/
theorem keyword_cases {kind : Token.Kind} {lexeme : List Char}
    (h : (String.ofList lexeme, kind) ∈ Token.Kind.keywords) :
    ∃ c rest, lexeme = c :: rest ∧ Text.isLetter c = true ∧
      (∀ d ∈ rest, Text.isWordChar d = true) ∧ kind = .ofWord (String.ofList lexeme) := by
  have hstarts : ∀ entry ∈ Token.Kind.keywords, entry.2 = .ofWord entry.1 ∧
      entry.1.toList.head?.any Text.isLetter = true ∧
      entry.1.toList.tail.all Text.isWordChar = true := by decide +kernel
  obtain ⟨hkind, hhead, htail⟩ := hstarts _ h
  rw [String.toList_ofList] at hhead htail
  cases lexeme with
  | nil => cases hhead
  | cons c rest => exact ⟨c, rest, rfl, hhead, List.all_eq_true.mp htail, hkind⟩

end Lexeme

namespace Segment

/-! ## The first character of a segment -/

/-- The characters that have a role of their own at the start of a segment, apart from letters and
digits. -/
def reserved : List Char :=
  ['(', ')', '{', '}', ',', '.', ';', ':', '*', '/', '^', '&', '|', '+', '-', '!', '=', '>', '<',
   ' ', '\r', '\t', '\n', '@', '$', '%', '"', '\'']

theorem single?_eq_none {c : Char} (h : c ∉ reserved) : single? c = none := by
  unfold single?
  split
  case h_14 => rfl
  all_goals simp [reserved] at h

theorem pair?_eq_none {c : Char} (h : c ∉ reserved) : pair? c = none := by
  unfold pair?
  split
  case h_7 => rfl
  all_goals simp [reserved] at h

theorem not_mem_reserved {p : Char → Bool} (hp : reserved.any p = false) {c : Char}
    (h : p c = true) : c ∉ reserved := by
  intro hc
  have hany : reserved.any p = true := List.any_eq_true.mpr ⟨c, hc, h⟩
  exact Bool.false_ne_true (hp.symm.trans hany)

theorem not_mem_reserved_of_isLetter {c : Char} (h : Text.isLetter c = true) : c ∉ reserved :=
  not_mem_reserved (by decide +kernel) h

theorem not_mem_reserved_of_isDigit {c : Char} (h : isDigit c = true) : c ∉ reserved :=
  not_mem_reserved (by decide +kernel) h

theorem isLetter_of_isDigit {c : Char} (h : isDigit c = true) : Text.isLetter c = false := by
  have hcodes : ∀ n < 58, Text.letterRanges.contains n = false := by decide +kernel
  have hle : c ≤ '9' := by
    simp only [isDigit, Bool.and_eq_true, decide_eq_true_eq] at h
    exact h.2
  exact hcodes c.toNat (Nat.lt_succ_of_le hle)

/-- A character without a role of its own starts a comment, a word or a number, or it is
unexpected. -/
theorem next_of_not_reserved {c : Char} (h : c ∉ reserved) (rest : List Char) :
    next c rest =
      if c = 'F' && commentMark.isPrefixOf rest then commentAfter c rest
      else if Text.isLetter c then word c rest
      else if isDigit c then number c rest
      else (.reported [c] (.unexpected c), rest) := by
  have hlayout : isLayout c = false := by simp_all [reserved, isLayout]
  have hsigil : isSigil c = false := by simp_all [reserved, isSigil]
  have hpercent : c ≠ '%' := by simp_all [reserved]
  have htext : c ≠ '"' := by simp_all [reserved]
  have hcharacter : c ≠ '\'' := by simp_all [reserved]
  simp only [next, single?_eq_none h, pair?_eq_none h, hlayout, hsigil, hpercent, htext,
    hcharacter, Bool.false_and, Bool.false_eq_true, if_false]

theorem next_of_isLetter {c : Char} (h : Text.isLetter c = true) {rest : List Char}
    (hcomment : ¬(c = 'F' ∧ commentMark <+: rest)) : next c rest = word c rest := by
  rw [next_of_not_reserved (not_mem_reserved_of_isLetter h), if_neg, if_pos h]
  simpa [List.isPrefixOf_iff_prefix] using hcomment

theorem next_of_isDigit {c : Char} (h : isDigit c = true) (rest : List Char) :
    next c rest = number c rest := by
  have hletter := isLetter_of_isDigit h
  have hmark : c ≠ 'F' := by
    rintro rfl
    cases hletter
  rw [next_of_not_reserved (not_mem_reserved_of_isDigit h)]
  simp [hletter, hmark, h]

theorem next_comment {rest : List Char} (h : commentMark <+: rest) :
    next 'F' rest = commentAfter 'F' rest := by
  rw [next_of_not_reserved (by decide), if_pos]
  simpa [List.isPrefixOf_iff_prefix] using h

theorem isLayout_iff {c : Char} :
    isLayout c = true ↔ c = ' ' ∨ c = '\r' ∨ c = '\t' ∨ c = '\n' := by
  simp [isLayout, or_assoc]

theorem next_of_isLayout {c : Char} (h : isLayout c = true) (rest : List Char) :
    next c rest = (.layout c, rest) := by
  rcases isLayout_iff.mp h with rfl | rfl | rfl | rfl <;> rfl

theorem next_of_single? {c : Char} {kind : Token.Kind} (h : single? c = some kind)
    (rest : List Char) : next c rest = (.token kind [c] .absent, rest) := by
  simp [next, h]

theorem next_of_pair? {c : Char} {p : Pair} (h : pair? c = some p) (rest : List Char) :
    next c rest = operator c p rest := by
  have hsingle : single? c = none := by
    unfold pair? at h
    split at h
    case h_7 => cases h
    all_goals rfl
  simp [next, hsingle, h]

theorem next_of_sigil {c : Char} (h : c = '@' ∨ c = '$' ∨ c = '%') {d : Char}
    (hd : Text.isLetter d = true) (rest : List Char) :
    next c (d :: rest) = sigilWord c (d :: rest) := by
  rcases h with rfl | rfl | rfl <;>
    simp [next, single?, pair?, isLayout, isSigil, startsWithLetter, hd]

theorem forall_isWordChar {c : Char} (hc : Text.isLetter c = true) {row : List Char}
    (hrow : ∀ d ∈ row, Text.isWordChar d = true) : ∀ d ∈ c :: row, Text.isWordChar d = true :=
  List.forall_mem_cons.mpr ⟨by simp [Text.isWordChar, hc], hrow⟩

theorem next_of_quote (rest : List Char) : next '"' rest = quotedText rest := rfl

theorem next_of_apostrophe (rest : List Char) : next '\'' rest = quotedCharacter rest := rfl

/-! ## Tokens are lexemes -/

/-- The segment is a token whose text is a lexeme of its kind. -/
def Reads (s : Segment) : Prop :=
  ∃ kind lexeme literal, s = .token kind lexeme literal ∧ Lexeme kind lexeme literal

theorem lexeme_of_single? {c : Char} {kind : Token.Kind} (h : single? c = some kind) :
    Lexeme kind [c] .absent := by
  unfold single? at h
  split at h
  case h_14 => cases h
  all_goals
    cases h
    exact .symbol (by decide) (by decide)

theorem lexeme_of_pair? {c : Char} {p : Pair} (h : pair? c = some p) :
    Lexeme p.both [c, p.second] .absent ∧ Lexeme p.alone [c] .absent := by
  unfold pair? at h
  split at h
  case h_7 => cases h
  all_goals
    cases h
    exact ⟨.symbol (by decide) (by decide), .symbol (by decide) (by decide)⟩

theorem reads_operator {c : Char} {p : Pair} (h : pair? c = some p) (rest : List Char) :
    (operator c p rest).1.Reads := by
  obtain ⟨hboth, halone⟩ := lexeme_of_pair? h
  unfold operator
  split
  · split
    · rename_i hsecond
      subst hsecond
      exact ⟨_, _, _, rfl, hboth⟩
    · exact ⟨_, _, _, rfl, halone⟩
  · exact ⟨_, _, _, rfl, halone⟩

theorem reads_sigilWord {c : Char} {rest : List Char}
    (h : (isSigil c && startsWithLetter rest) = true) : (sigilWord c rest).1.Reads := by
  obtain ⟨hsigil, hstarts⟩ := Bool.and_eq_true_iff.mp h
  have hcases : c = '@' ∨ c = '$' ∨ c = '%' := by simpa [isSigil, or_assoc] using hsigil
  cases rest with
  | nil => cases hstarts
  | cons d later =>
      have hd : Text.isLetter d = true := hstarts
      have hword : Text.isWordChar d = true := by simp [Text.isWordChar, hd]
      refine ⟨_, _, _, rfl, ?_⟩
      rw [List.takeWhile_cons_of_pos hword]
      exact .sigil hcases hd fun e he => List.mem_takeWhile_imp he

theorem reads_word {c : Char} (h : Text.isLetter c = true) (rest : List Char) :
    (word c rest).1.Reads :=
  ⟨_, _, _, rfl, .word h fun _ hd => List.mem_takeWhile_imp hd⟩

theorem reads_number {c : Char} (h : isDigit c = true) (rest : List Char) :
    (number c rest).1.Reads := by
  have hwhole : ∀ d ∈ c :: rest.takeWhile isDigit, isDigit d = true :=
    List.forall_mem_cons.mpr ⟨h, fun d hd => List.mem_takeWhile_imp hd⟩
  have hreads : Lexeme .number (c :: rest.takeWhile isDigit)
      (numberLiteral (c :: rest.takeWhile isDigit) []) := by
    simpa [numberLiteral] using Lexeme.whole (List.cons_ne_nil _ _) hwhole
  unfold number
  dsimp only
  split
  · split
    · rename_i d later _ hd
      refine ⟨_, _, _, rfl, .fraction (List.cons_ne_nil _ _) (List.cons_ne_nil _ _) ?_⟩
      refine List.forall_mem_append.mpr ⟨hwhole, ?_⟩
      exact List.forall_mem_cons.mpr ⟨hd, fun e he => List.mem_takeWhile_imp he⟩
    · exact ⟨_, _, _, rfl, hreads⟩
  · exact ⟨_, _, _, rfl, hreads⟩

/-! ## Where a lexeme is seen -/

/-- The text of a symbol is one character, which may have a second one after it, or two. -/
theorem symbol_cases {kind : Token.Kind} (hkind : kind ∈ Token.Kind.symbols) {lexeme : List Char}
    (htext : kind.symbol = String.ofList lexeme) :
    (∃ c, lexeme = [c] ∧ single? c = some kind) ∨
      (∃ c p, pair? c = some p ∧
        (lexeme = [c] ∧ kind = p.alone ∨ lexeme = [c, p.second] ∧ kind = p.both)) ∨
      lexeme = ['%'] ∧ kind = .modulo := by
  have hsymbols : ∀ kind ∈ Token.Kind.symbols,
      reserved.any (fun c => kind.symbol = String.ofList [c] ∧ single? c = some kind) ∨
        reserved.any (fun c => (pair? c).any fun p =>
          kind.symbol = String.ofList [c] ∧ kind = p.alone ∨
            kind.symbol = String.ofList [c, p.second] ∧ kind = p.both) ∨
        kind.symbol = String.ofList ['%'] ∧ kind = .modulo := by decide +kernel
  simp only [List.any_eq_true, Option.any_eq_true, decide_eq_true_eq] at hsymbols
  have hinj : ∀ {text : List Char}, kind.symbol = String.ofList text → lexeme = text :=
    fun h => String.ofList_injective (htext.symm.trans h)
  rcases hsymbols kind hkind with ⟨c, -, h, hsingle⟩ | ⟨c, -, p, hpair, h⟩ | ⟨h, hmodulo⟩
  · exact .inl ⟨c, hinj h, hsingle⟩
  · refine .inr (.inl ⟨c, p, hpair, ?_⟩)
    rcases h with ⟨h, hkind⟩ | ⟨h, hkind⟩
    · exact .inl ⟨hinj h, hkind⟩
    · exact .inr ⟨hinj h, hkind⟩
  · exact .inr (.inr ⟨hinj h, hmodulo⟩)

theorem operator_both (c : Char) (p : Pair) (rest : List Char) :
    operator c p (p.second :: rest) = (.token p.both [c, p.second] .absent, rest) := by
  simp [operator]

/-- A whole part and a fraction of digits, each taken apart at its first digit. -/
theorem digits_of_fraction {c d : Char} {row more : List Char}
    (h : ∀ e ∈ c :: row ++ d :: more, isDigit e = true) :
    isDigit c = true ∧ (∀ e ∈ row, isDigit e = true) ∧
      isDigit d = true ∧ ∀ e ∈ more, isDigit e = true := by
  simpa [or_imp, forall_and, and_assoc] using h

theorem number_fraction {c d : Char} {digits : List Char}
    (hdigits : ∀ e ∈ digits, isDigit e = true) (hd : isDigit d = true) (rest : List Char) :
    number c (digits ++ '.' :: d :: rest) =
      (.token .number (c :: digits ++ '.' :: d :: rest.takeWhile isDigit)
        (numberLiteral (c :: digits) (d :: rest.takeWhile isDigit)), rest.dropWhile isDigit) := by
  have hpoint : StartsNoDigit ('.' :: d :: rest) := by simp [StartsNoDigit, isDigit]
  simp [number, takeWhile_isDigit_append hdigits hpoint, dropWhile_isDigit_append hdigits hpoint, hd]

theorem forall_bne_of_not_mem {d : Char} {body : List Char} (h : d ∉ body) :
    ∀ c ∈ body, (c != d) = true :=
  fun _ hc => bne_iff_ne.mpr (ne_of_mem_of_not_mem hc h)

theorem quotedText_append {body : List Char} (h : '"' ∉ body) (rest : List Char) :
    quotedText (body ++ '"' :: rest) =
      (.token .text ('"' :: body ++ ['"']) (.text (String.ofList body)), rest) := by
  have hbody := forall_bne_of_not_mem h
  simp [quotedText, List.takeWhile_append_of_pos hbody, List.dropWhile_append_of_pos hbody]

theorem quotedCharacter_cons {c : Char} (hquote : c ≠ '\'') (hline : c ≠ '\n')
    (rest : List Char) :
    quotedCharacter (c :: '\'' :: rest) =
      (.token .character ['\'', c, '\''] (.text (String.ofList [c])), rest) := by
  simp [quotedCharacter, hquote, hline]

/-! ## Segments are as long as lexemes -/

theorem one_le_length_next (c : Char) (rest : List Char) :
    1 ≤ (next c rest).1.text.length := by
  have htext := congrArg List.length (text_next c rest)
  have hle := length_next_le c rest
  rw [List.length_append, List.length_cons] at htext
  omega

theorem length_le_takeWhile {p : Char → Bool} {row text : List Char}
    (hrow : ∀ c ∈ row, p c = true) (hstart : row <+: text) :
    row.length ≤ (text.takeWhile p).length := by
  obtain ⟨rest, rfl⟩ := hstart
  simp [List.takeWhile_append_of_pos hrow]

theorem length_commentAfter (c : Char) (rest : List Char) :
    4 ≤ (commentAfter c rest).1.text.length := by
  unfold commentAfter
  dsimp only
  split <;> simp [text, commentMark]

/-- A word ends before the point of a comment mark. -/
theorem span_commentMark (inside : List Char) :
    (commentMark ++ inside).takeWhile Text.isWordChar = ['Y', 'I'] ∧
      (commentMark ++ inside).dropWhile Text.isWordChar = '.' :: inside := by
  have hY : Text.isWordChar 'Y' = true := by decide +kernel
  have hI : Text.isWordChar 'I' = true := by decide +kernel
  have hpoint : Text.isWordChar '.' = false := by decide +kernel
  simp [commentMark, hY, hI, hpoint]

/-- A word is at most as long as the segment in its place, also where that is a comment. -/
theorem length_word_le {c : Char} (hc : Text.isLetter c = true) {row rest : List Char}
    (hrow : ∀ d ∈ row, Text.isWordChar d = true) (hstart : row <+: rest) :
    (c :: row).length ≤ (next c rest).1.text.length := by
  have hrest := length_le_takeWhile hrow hstart
  by_cases hcomment : c = 'F' ∧ commentMark <+: rest
  · obtain ⟨rfl, inside, rfl⟩ := hcomment
    have hlength := length_commentAfter 'F' (commentMark ++ inside)
    rw [(span_commentMark inside).1] at hrest
    rw [next_comment (List.prefix_append _ _), List.length_cons]
    simp only [List.length_cons, List.length_nil] at hrest
    omega
  · rw [next_of_isLetter hc hcomment]
    simpa [word, text] using hrest

theorem length_number_le_text {c : Char} {row rest : List Char}
    (hrow : ∀ d ∈ row, isDigit d = true) (hstart : row <+: rest) :
    (c :: row).length ≤ (number c rest).1.text.length := by
  have hrest := length_le_takeWhile hrow hstart
  unfold number
  dsimp only
  split
  · split
    · simp only [text, List.length_append, List.length_cons]
      omega
    · simpa [text] using hrest
  · simpa [text] using hrest

/-- No lexeme that starts where a segment starts is longer than the segment. -/
theorem length_le_of_starts {kind : Token.Kind} {lexeme : List Char} {literal : Literal}
    (h : Lexeme kind lexeme literal) {c : Char} {rest : List Char} (hstart : lexeme <+: c :: rest) :
    lexeme.length ≤ (next c rest).1.text.length := by
  obtain ⟨later, htext⟩ := hstart
  cases h with
  | symbol hkind hsymbol =>
      rcases symbol_cases hkind hsymbol with ⟨d, rfl, -⟩ | ⟨d, p, hpair, hlexeme⟩ | ⟨rfl, -⟩
      · exact one_le_length_next c rest
      · rcases hlexeme with ⟨rfl, -⟩ | ⟨rfl, -⟩
        · exact one_le_length_next c rest
        · simp only [List.cons_append, List.nil_append, List.cons.injEq] at htext
          obtain ⟨rfl, rfl⟩ := htext
          rw [next_of_pair? hpair, operator_both]
          exact le_rfl
      · exact one_le_length_next c rest
  | keyword hword =>
      obtain ⟨d, row, rfl, hd, hrow, -⟩ := Lexeme.keyword_cases hword
      obtain ⟨rfl, rfl⟩ := List.cons.inj htext
      exact length_word_le hd hrow (List.prefix_append row later)
  | @identifier d row hd hrow hword =>
      obtain ⟨rfl, rfl⟩ := List.cons.inj htext
      exact length_word_le hd hrow (List.prefix_append row later)
  | @sigil sigil d row hsigil hd hrow =>
      simp only [List.cons_append, List.cons.injEq] at htext
      obtain ⟨rfl, rfl⟩ := htext
      have hle := length_le_takeWhile (forall_isWordChar hd hrow)
        (List.prefix_append (d :: row) later)
      rw [next_of_sigil hsigil hd]
      exact Nat.succ_le_succ hle
  | whole hne hdigits =>
      obtain ⟨d, row, rfl⟩ := List.exists_cons_of_ne_nil hne
      obtain ⟨rfl, rfl⟩ := List.cons.inj htext
      obtain ⟨hd, hrow⟩ := List.forall_mem_cons.mp hdigits
      rw [next_of_isDigit hd]
      exact length_number_le_text hrow (List.prefix_append row later)
  | @fraction whole fraction hwhole hfraction hdigits =>
      obtain ⟨d, row, rfl⟩ := List.exists_cons_of_ne_nil hwhole
      obtain ⟨e, more, rfl⟩ := List.exists_cons_of_ne_nil hfraction
      obtain ⟨hd, hrow, he, hmore⟩ := digits_of_fraction hdigits
      simp only [List.cons_append, List.append_assoc, List.cons.injEq] at htext
      obtain ⟨rfl, rfl⟩ := htext
      have hle := length_le_takeWhile hmore (List.prefix_append more later)
      rw [next_of_isDigit hd, number_fraction hrow he]
      simpa [text] using hle
  | @text body hbody =>
      simp only [List.cons_append, List.append_assoc, List.nil_append, List.cons.injEq] at htext
      obtain ⟨rfl, rfl⟩ := htext
      rw [next_of_quote, quotedText_append hbody]
      exact le_rfl
  | @character d hquote hline =>
      simp only [List.cons_append, List.nil_append, List.cons.injEq] at htext
      obtain ⟨rfl, rfl⟩ := htext
      rw [next_of_apostrophe, quotedCharacter_cons hquote hline]
      exact le_rfl

/-! ## Reading a lexeme before a break -/

/-- The text is empty, or it starts with a layout character. -/
def StartsBreak (rest : List Char) : Prop :=
  ∀ c ∈ rest.head?, isLayout c = true

theorem isWordChar_of_isLayout {c : Char} (h : isLayout c = true) :
    Text.isWordChar c = false := by
  rcases isLayout_iff.mp h with rfl | rfl | rfl | rfl <;> decide +kernel

namespace StartsBreak

variable {rest : List Char}

theorem takeWhile_append (h : StartsBreak rest) {p : Char → Bool}
    (hp : ∀ c, isLayout c = true → p c = false) {row : List Char} (hrow : ∀ c ∈ row, p c = true) :
    (row ++ rest).takeWhile p = row := by
  rw [List.takeWhile_append_of_pos hrow]
  cases rest with
  | nil => simp
  | cons c later => simp [hp c (h c rfl)]

theorem dropWhile_append (h : StartsBreak rest) {p : Char → Bool}
    (hp : ∀ c, isLayout c = true → p c = false) {row : List Char} (hrow : ∀ c ∈ row, p c = true) :
    (row ++ rest).dropWhile p = rest := by
  rw [List.dropWhile_append_of_pos hrow]
  cases rest with
  | nil => simp
  | cons c later => simp [hp c (h c rfl)]

theorem startsNoDigit (h : StartsBreak rest) : StartsNoDigit rest := by
  intro c hc
  rcases isLayout_iff.mp (h c hc) with rfl | rfl | rfl | rfl <;> rfl

theorem startsWithLetter_eq_false (h : StartsBreak rest) : startsWithLetter rest = false := by
  cases rest with
  | nil => rfl
  | cons c later =>
      have hword := isWordChar_of_isLayout (h c rfl)
      simp only [Text.isWordChar, Bool.or_eq_false_iff] at hword
      exact hword.1.1

/-- The mark of a comment would end in the word or in the break. -/
theorem not_starts_commentMark (h : StartsBreak rest) {row : List Char}
    (hrow : ∀ c ∈ row, Text.isWordChar c = true) : ¬commentMark <+: row ++ rest := by
  rintro ⟨inside, hinside⟩
  have hdrop := h.dropWhile_append (fun _ => isWordChar_of_isLayout) hrow
  rw [← hinside, (span_commentMark inside).2] at hdrop
  have hpoint : isLayout '.' = true := h '.' (by simp [← hdrop])
  cases hpoint

end StartsBreak

theorem next_word {c : Char} (hc : Text.isLetter c = true) {row rest : List Char}
    (hrow : ∀ d ∈ row, Text.isWordChar d = true) (hrest : StartsBreak rest) :
    next c (row ++ rest) =
      (.token (.ofWord (String.ofList (c :: row))) (c :: row) .absent, rest) := by
  rw [next_of_isLetter hc fun hcomment => hrest.not_starts_commentMark hrow hcomment.2]
  simp only [word, hrest.takeWhile_append (fun _ => isWordChar_of_isLayout) hrow,
    hrest.dropWhile_append (fun _ => isWordChar_of_isLayout) hrow]

theorem isLayout_second {c : Char} {p : Pair} (h : pair? c = some p) :
    isLayout p.second = false := by
  unfold pair? at h
  split at h
  case h_7 => cases h
  all_goals
    cases h
    rfl

theorem operator_alone {c : Char} {p : Pair} (hpair : pair? c = some p) {rest : List Char}
    (hrest : StartsBreak rest) : operator c p rest = (.token p.alone [c] .absent, rest) := by
  cases rest with
  | nil => rfl
  | cons d later =>
      have hne : d ≠ p.second := by
        rintro rfl
        exact Bool.false_ne_true ((isLayout_second hpair).symm.trans (hrest p.second rfl))
      simp [operator, hne]

theorem number_whole {c : Char} {digits rest : List Char}
    (hdigits : ∀ d ∈ digits, isDigit d = true) (hrest : StartsBreak rest) :
    number c (digits ++ rest) =
      (.token .number (c :: digits) (numberLiteral (c :: digits) []), rest) := by
  have hstop := hrest.startsNoDigit
  simp only [number, takeWhile_isDigit_append hdigits hstop, dropWhile_isDigit_append hdigits hstop]
  split
  · cases hrest '.' rfl
  · rfl

theorem ofWord_eq_identifier {word : String}
    (h : ∀ entry ∈ Token.Kind.keywords, entry.1 ≠ word) : Token.Kind.ofWord word = .identifier := by
  have hlookup : Token.Kind.keywords.lookup word = none :=
    List.lookup_eq_none_iff.mpr fun entry hentry => by simpa using (h entry hentry).symm
  simp [Token.Kind.ofWord, hlookup]

/-- A lexeme before a break is read as it stands. -/
theorem split_lexeme_append {kind : Token.Kind} {lexeme : List Char} {literal : Literal}
    (h : Lexeme kind lexeme literal) {rest : List Char} (hrest : StartsBreak rest) :
    split (lexeme ++ rest) = .token kind lexeme literal :: split rest := by
  -- It is enough to see what the first segment is.
  have hsplit : ∀ {c : Char} {row : List Char}, lexeme = c :: row →
      next c (row ++ rest) = (.token kind lexeme literal, rest) →
      split (lexeme ++ rest) = .token kind lexeme literal :: split rest := by
    rintro c row rfl hnext
    rw [List.cons_append, split, hnext]
  cases h with
  | symbol hkind hsymbol =>
      rcases symbol_cases hkind hsymbol with ⟨c, rfl, hsingle⟩ | ⟨c, p, hpair, hlexeme⟩ | ⟨rfl, rfl⟩
      · exact hsplit rfl (next_of_single? hsingle _)
      · rcases hlexeme with ⟨rfl, rfl⟩ | ⟨rfl, rfl⟩
        · exact hsplit rfl ((next_of_pair? hpair _).trans (operator_alone hpair hrest))
        · exact hsplit rfl ((next_of_pair? hpair _).trans (operator_both c p rest))
      · refine hsplit rfl ?_
        simp [next, single?, pair?, isLayout, isSigil, hrest.startsWithLetter_eq_false]
  | keyword hword =>
      obtain ⟨c, row, rfl, hc, hrow, rfl⟩ := Lexeme.keyword_cases hword
      exact hsplit rfl (next_word hc hrow hrest)
  | @identifier c row hc hrow hword =>
      have hnext := next_word hc hrow hrest
      rw [ofWord_eq_identifier hword] at hnext
      exact hsplit rfl hnext
  | @sigil sigil c row hsigil hc hrow =>
      refine hsplit rfl ?_
      have hall := forall_isWordChar hc hrow
      rw [List.cons_append, next_of_sigil hsigil hc, ← List.cons_append]
      simp only [sigilWord, hrest.takeWhile_append (fun _ => isWordChar_of_isLayout) hall,
        hrest.dropWhile_append (fun _ => isWordChar_of_isLayout) hall]
  | whole hne hdigits =>
      obtain ⟨c, row, rfl⟩ := List.exists_cons_of_ne_nil hne
      obtain ⟨hc, hrow⟩ := List.forall_mem_cons.mp hdigits
      refine hsplit rfl ?_
      rw [next_of_isDigit hc, number_whole hrow hrest]
      simp [numberLiteral]
  | @fraction whole fraction hwhole hfraction hdigits =>
      obtain ⟨c, row, rfl⟩ := List.exists_cons_of_ne_nil hwhole
      obtain ⟨d, more, rfl⟩ := List.exists_cons_of_ne_nil hfraction
      obtain ⟨hc, hrow, hd, hmore⟩ := digits_of_fraction hdigits
      have hstop := hrest.startsNoDigit
      refine hsplit List.cons_append ?_
      rw [next_of_isDigit hc, List.append_assoc, List.cons_append, List.cons_append,
        number_fraction hrow hd, takeWhile_isDigit_append hmore hstop,
        dropWhile_isDigit_append hmore hstop]
      rfl
  | @text body hbody =>
      refine hsplit List.cons_append ?_
      rw [next_of_quote, List.append_assoc, List.cons_append, quotedText_append hbody]
      rfl
  | @character c hquote hline =>
      exact hsplit rfl ((next_of_apostrophe _).trans (quotedCharacter_cons hquote hline rest))

end Segment

end Slang
