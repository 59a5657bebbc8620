import Slang.Proofs.Grammar.Expression
import Slang.Proofs.Grammar.Tokens
import Slang.Proofs.Token.Scanned

/-!
# What is parsed is spelled by its tokens

Reading a statement takes the tokens that spell it, up to closing words that are missing at the end.
The statement is canonical, because every function reads on as long as it can: what comes after an
expression cannot go on with it, and what comes after a conditional without alternative is not the
word for one.

What holds of the tokens of every source text therefore holds of the programs that are parsed from
it.  The bridge is a spelling of the program: it consists of tokens of the text and of words that
close the blocks that are open at the end of the text.
-/

namespace Slang.Grammar

open Slang.Parser

theorem isTerminator_iff (kind : Token.Kind) : kind.isTerminator = true ↔ Closes kind := by
  cases kind <;> simp [Token.Kind.isTerminator, Closes]

/-! ## Statements with their surroundings -/

/-- A row of tokens spells a canonical statement whose last closing words may be missing at the end,
and the tokens after it do not go on with that statement. -/
structure Clause (node : Node) (used rest : List Token) : Prop where
  spelled : ∃ tokens, Spells node tokens ∧ Cut tokens used rest
  canonical : Canonical node
  after_expression : endsInExpression node = true → Follow loosest rest
  after_conditional : endsInConditional node = true → ∀ t ∈ rest.head?, t.kind ≠ .deadass

/-- A statement without an open block is spelled in full. -/
theorem Clause.of_spells
    {node : Node} {used rest : List Token} (hspelled : Spells node used)
    (hcanonical : Canonical node) (hexpression : endsInExpression node = true → Follow loosest rest)
    (hconditional : endsInConditional node = false) : Clause node used rest where
  spelled := ⟨used, hspelled, .refl used rest⟩
  canonical := hcanonical
  after_expression := hexpression
  after_conditional := by simp [hconditional]

/-- Reading a statement takes the tokens that spell it. -/
def StatementSound (ts : List Token) : Prop :=
  ∀ node rest, plain (statement ts) = .ok (node, rest) →
    ∃ used, ts = used ++ rest ∧ Clause node used rest

/-- Reading an alternative takes nothing, or the word for it and a statement. -/
def AlternativeSound (ts : List Token) : Prop :=
  ∀ node rest, plain (alternative ts) = .ok (node, rest) →
    (node = .absent ∧ rest = ts ∧ ∀ t ∈ ts.head?, t.kind ≠ .deadass) ∨
      ∃ word used, ts = word :: (used ++ rest) ∧ word.kind = .deadass ∧ Clause node used rest

/-- Reading the rest of a block takes the tokens that spell its statements and the closing word. -/
def BlockSound (ts : List Token) : Prop :=
  ∀ body rest, plain (block ts) = .ok (body, rest) →
    CanonicalAll body ∧ ∃ used inner closing, ts = used ++ rest ∧ SpellsAll body inner ∧
      Closes closing.kind ∧ Cut (inner ++ [closing]) used rest

theorem statementSound_spill
    {t : Token} {ts : List Token} (hkind : t.kind = .spill) : StatementSound (t :: ts) := by
  intro node rest h
  rw [plain_statement_spill ts hkind, bind_eq_ok] at h
  obtain ⟨⟨value, afterValue⟩, hvalue, hrest⟩ := h
  cases hrest
  obtain ⟨used, rfl, phrase⟩ := plain_expression_eq_ok_iff.mp hvalue
  exact ⟨t :: used, rfl, .of_spells (.spill hkind phrase.spelled) phrase.canonical
    (fun _ => phrase.follow) rfl⟩

theorem statementSound_listen
    {t : Token} {ts : List Token} (hkind : t.kind = .listen) : StatementSound (t :: ts) := by
  intro node rest h
  rw [plain_statement_listen ts hkind, plain_listen, bind_eq_ok] at h
  obtain ⟨⟨prompt, afterPrompt⟩, hprompt, h⟩ := h
  rw [bind_eq_ok] at h
  obtain ⟨⟨word, afterWord⟩, hword, h⟩ := h
  rw [bind_eq_ok] at h
  obtain ⟨⟨target, afterTarget⟩, htarget, hrest⟩ := h
  cases hrest
  obtain ⟨hpromptKind, rfl⟩ := eq_cons_of_plain_expect hprompt
  obtain ⟨hwordKind, hafterPrompt⟩ := eq_cons_of_plain_expect hword
  obtain ⟨htargetKind, hafterWord⟩ := eq_cons_of_plain_expect htarget
  dsimp only at hafterPrompt hafterWord
  subst hafterWord hafterPrompt
  exact ⟨[t, prompt, word, target], rfl,
    .of_spells (.listen hkind hpromptKind hwordKind htargetKind) htargetKind (by simp [endsInExpression])
      rfl⟩

/-- A declaration is read the same with and without the word in front of it. -/
theorem clause_of_declaration
    {target : Token} {ts : List Token} {node : Node} {rest : List Token}
    (htarget : target.kind = .sigilIdentifier)
    (h : plain (declaration target ts) = .ok (node, rest)) :
    ∃ used, ts = used ++ rest ∧ Clause node (target :: used) rest ∧
      ∀ tea : Token, tea.kind = .tea → Clause node (tea :: target :: used) rest := by
  rw [plain_declaration, bind_eq_ok] at h
  obtain ⟨⟨word, afterWord⟩, hword, h⟩ := h
  rw [bind_eq_ok] at h
  obtain ⟨⟨value, afterValue⟩, hvalue, h⟩ := h
  rw [bind_eq_ok] at h
  obtain ⟨_, hdeclared, hrest⟩ := h
  cases hrest
  obtain ⟨sigil, hsigil, rfl⟩ := head?_of_declaredSigil hdeclared
  obtain ⟨hwordKind, rfl⟩ := eq_cons_of_plain_expect hword
  obtain ⟨used, hused, phrase⟩ := plain_expression_eq_ok_iff.mp hvalue
  dsimp only at hused
  subst hused
  have hcanonical :
      Canonical (.declaration (.text (String.singleton sigil)) (nameOf target) value) :=
    ⟨rfl, phrase.canonical⟩
  refine ⟨word :: used, rfl, ?_, fun tea htea => ?_⟩
  · exact .of_spells (.declaration htarget hsigil hwordKind phrase.spelled) hcanonical
      (fun _ => phrase.follow) rfl
  · exact .of_spells (.teaDeclaration htea htarget hsigil hwordKind phrase.spelled) hcanonical
      (fun _ => phrase.follow) rfl

theorem statementSound_tea
    {t : Token} {ts : List Token} (hkind : t.kind = .tea) : StatementSound (t :: ts) := by
  intro node rest h
  rw [plain_statement_tea ts hkind, bind_eq_ok] at h
  obtain ⟨⟨target, afterTarget⟩, htarget, h⟩ := h
  obtain ⟨htargetKind, rfl⟩ := eq_cons_of_plain_expect htarget
  obtain ⟨used, hused, -, hclause⟩ := clause_of_declaration htargetKind h
  dsimp only at hused
  subst hused
  exact ⟨t :: target :: used, rfl, hclause t hkind⟩

theorem statementSound_sigil
    {t : Token} {ts : List Token} (hkind : t.kind = .sigilIdentifier) :
    StatementSound (t :: ts) := by
  intro node rest h
  rw [plain_statement_sigil ts hkind] at h
  obtain ⟨used, rfl, hclause, -⟩ := clause_of_declaration hkind h
  exact ⟨t :: used, rfl, hclause⟩

theorem statementSound_colon
    {t : Token} {ts : List Token} (hkind : t.kind = .colon) (hblock : BlockSound ts) :
    StatementSound (t :: ts) := by
  intro node rest h
  rw [plain_statement_colon ts hkind, bind_eq_ok] at h
  obtain ⟨⟨body, afterBody⟩, hbody, hrest⟩ := h
  cases hrest
  obtain ⟨hcanonical, used, inner, closing, rfl, hspelled, hclosing, hcut⟩ :=
    hblock body afterBody hbody
  exact ⟨t :: used, rfl, ⟨_, .block hkind hclosing hspelled, hcut.prepend [t]⟩, hcanonical,
    by simp [endsInExpression], by simp [endsInConditional]⟩

/-- A condition with the statements that depend on it, after the word that opens them. -/
theorem clause_conditional
    {bet : Token} {condition consequent otherwise : Node}
    {test first afterFirst rest : List Token} (hbet : bet.kind = .bet)
    (hcondition : Phrase loosest condition test (first ++ afterFirst))
    (hconsequent : Clause consequent first afterFirst)
    (hotherwise : (otherwise = .absent ∧ rest = afterFirst ∧
        ∀ t ∈ afterFirst.head?, t.kind ≠ .deadass) ∨
      ∃ word second, afterFirst = word :: (second ++ rest) ∧ word.kind = .deadass ∧
        Clause otherwise second rest) :
    ∃ used, bet :: (test ++ (first ++ afterFirst)) = used ++ rest ∧
      Clause (.conditional condition consequent otherwise) used rest := by
  have hminus : opensWith .minus consequent = false := by
    rw [Bool.eq_false_iff]
    intro hopens
    obtain ⟨tokens, hspelled, hcut⟩ := hconsequent.spelled
    obtain ⟨t, later, rfl, ht⟩ := hspelled.head_of_opensWith hopens
    obtain ⟨_, rfl, -⟩ := hcut.head (by simp [ht, Closes])
    have hfollow := (follow_cons.mp hcondition.follow).2 2 (by rw [ht]; rfl)
    simp [loosest] at hfollow
  rcases hotherwise with ⟨rfl, rfl, hnot⟩ | ⟨word, second, rfl, hword, halternative⟩
  · obtain ⟨tokens, hspelled, hcut⟩ := hconsequent.spelled
    refine ⟨bet :: (test ++ first), by simp, ?_, ?_, ?_, fun _ => hnot⟩
    · exact ⟨_, .conditional hbet hcondition.spelled hspelled, hcut.prepend (bet :: test)⟩
    · exact ⟨hcondition.canonical, hconsequent.canonical, hminus, .inl rfl⟩
    · intro hends
      exact hconsequent.after_expression (by simpa [endsInExpression, Node.isAbsent, Node.shape?]
        using hends)
  · obtain ⟨firstTokens, hfirst, hfirstCut⟩ := hconsequent.spelled
    obtain ⟨tokens, hsecond, hcut⟩ := halternative.spelled
    have hall : firstTokens = first := hfirstCut.eq_of_not_atEnd (by simp [AtEnd, hword])
    rw [hall] at hfirst
    have hpresent := hsecond.isAbsent_eq_false
    have hedge : endsInConditional consequent = false := by
      rw [Bool.eq_false_iff]
      intro hends
      exact hconsequent.after_conditional hends word (by simp) hword
    refine ⟨bet :: (test ++ (first ++ word :: second)), by simp, ?_, ?_, ?_, ?_⟩
    · refine ⟨_, .alternative hbet hcondition.spelled hfirst hword hsecond, ?_⟩
      simpa using hcut.prepend (bet :: (test ++ (first ++ [word])))
    · exact ⟨hcondition.canonical, hconsequent.canonical, hminus,
        .inr ⟨halternative.canonical, hedge⟩⟩
    · intro hends
      exact halternative.after_expression (by simpa [endsInExpression, hpresent] using hends)
    · intro hends
      exact halternative.after_conditional (by simpa [endsInConditional, hpresent] using hends)

theorem statementSound_bet
    {t : Token} {ts : List Token} (hkind : t.kind = .bet)
    (hstatement : ∀ rest : Shorter ts, StatementSound rest.val)
    (halternative : ∀ (rest : Shorter ts) (later : Shorter rest.val), AlternativeSound later.val) :
    StatementSound (t :: ts) := by
  intro node rest h
  rw [plain_statement_bet ts hkind, bind_eq_ok] at h
  obtain ⟨⟨condition, afterCondition⟩, hcondition, h⟩ := h
  rw [bind_eq_ok] at h
  obtain ⟨⟨consequent, afterConsequent⟩, hconsequent, h⟩ := h
  rw [bind_eq_ok] at h
  obtain ⟨⟨otherwise, afterOtherwise⟩, hotherwise, hrest⟩ := h
  cases hrest
  obtain ⟨shorter, -, rfl⟩ := exists_of_plain_eq_ok hcondition
  obtain ⟨first, hfirst, clause⟩ := hstatement shorter consequent afterConsequent hconsequent
  obtain ⟨shorter', -, rfl⟩ := exists_of_plain_eq_ok hconsequent
  have hsecond := halternative shorter shorter' otherwise afterOtherwise hotherwise
  obtain ⟨test, htest, phrase⟩ := plain_expression_eq_ok_iff.mp hcondition
  rw [hfirst] at htest phrase
  obtain ⟨used, hused, hclause⟩ := clause_conditional hkind phrase clause hsecond
  exact ⟨used, (congrArg (List.cons t) htest).trans hused, hclause⟩

theorem statementSound_assignment
    {t : Token} {ts : List Token} (hopener : isOpener t.kind = false)
    (hassign : t.kind = .identifier ∧ startsWith .asWord ts = true) :
    StatementSound (t :: ts) := by
  intro node rest h
  rw [plain_statement_other ts hopener, if_pos hassign, plain_assignment, bind_eq_ok] at h
  obtain ⟨⟨word, afterWord⟩, hword, h⟩ := h
  rw [bind_eq_ok] at h
  obtain ⟨⟨value, afterValue⟩, hvalue, hrest⟩ := h
  cases hrest
  obtain ⟨hwordKind, rfl⟩ := eq_cons_of_plain_expect hword
  obtain ⟨used, hused, phrase⟩ := plain_expression_eq_ok_iff.mp hvalue
  dsimp only at hused
  subst hused
  exact ⟨t :: word :: used, rfl, .of_spells (.assignment hassign.1 hwordKind phrase.spelled)
    ⟨hassign.1, phrase.canonical⟩ (fun _ => phrase.follow) rfl⟩

theorem statementSound_expression
    {t : Token} {ts : List Token} (hopener : isOpener t.kind = false)
    (hassign : ¬(t.kind = .identifier ∧ startsWith .asWord ts = true)) :
    StatementSound (t :: ts) := by
  intro node rest h
  rw [plain_statement_other ts hopener, if_neg hassign, bind_eq_ok] at h
  obtain ⟨⟨value, afterValue⟩, hvalue, hrest⟩ := h
  cases hrest
  obtain ⟨used, hused, phrase⟩ := plain_expression_eq_ok_iff.mp hvalue
  have hsigil : opensWith .sigilIdentifier value = false := by
    rw [Bool.eq_false_iff]
    intro hopens
    obtain ⟨first, later, rfl, hfirst⟩ := phrase.spelled.head_of_opensWith hopens
    rw [List.cons_append, List.cons.injEq] at hused
    rw [hused.1, hfirst] at hopener
    cases hopener
  exact ⟨used, hused, .of_spells (.expression phrase.spelled) ⟨phrase.canonical, hsigil⟩
    (fun _ => phrase.follow) rfl⟩

theorem alternativeSound_nil : AlternativeSound [] := by
  intro node rest h
  rw [plain_alternative_nil] at h
  cases h
  exact .inl ⟨rfl, rfl, by simp⟩

theorem alternativeSound_stop
    {t : Token} {ts : List Token} (hkind : t.kind ≠ .deadass) : AlternativeSound (t :: ts) := by
  intro node rest h
  rw [plain_alternative_cons, if_neg hkind] at h
  cases h
  exact .inl ⟨rfl, rfl, by simpa using hkind⟩

theorem alternativeSound_step
    {t : Token} {ts : List Token} (hkind : t.kind = .deadass) (hstatement : StatementSound ts) :
    AlternativeSound (t :: ts) := by
  intro node rest h
  rw [plain_alternative_cons, if_pos hkind] at h
  obtain ⟨used, rfl, clause⟩ := hstatement node rest h
  exact .inr ⟨t, used, rfl, hkind, clause⟩

/-- A closing word that is written down when the tokens end before a block does. -/
def closingWord : Token := ⟨.endWord, "end", .absent, 0⟩

theorem plain_block_of_atEnd
    {ts : List Token} (hend : AtEnd ts) : plain (block ts) = .ok ([], ts) := by
  cases ts with
  | nil => exact plain_block_nil
  | cons t later =>
      have hkind : t.kind = .endOfFile := hend t (by simp)
      have hterminator : ¬t.kind.isTerminator = true := by simp [hkind, Token.Kind.isTerminator]
      rw [plain_block_cons, if_neg hterminator, if_pos hkind]

theorem blockSound_atEnd {ts : List Token} (hend : AtEnd ts) : BlockSound ts := by
  intro body rest h
  rw [plain_block_of_atEnd hend] at h
  cases h
  refine ⟨trivial, [], [], closingWord, rfl, .nil, .inl rfl, [closingWord], rfl, ?_, fun _ => hend⟩
  intro t ht
  rw [List.mem_singleton.mp ht]
  exact .inl rfl

theorem blockSound_close
    {t : Token} {ts : List Token} (hkind : t.kind.isTerminator = true) : BlockSound (t :: ts) := by
  intro body rest h
  rw [plain_block_cons, if_pos hkind] at h
  cases h
  exact ⟨trivial, [t], [], t, rfl, .nil, (isTerminator_iff _).mp hkind, .refl [t] ts⟩

section Sequences

variable {node : Node} {later : List Node} {first used rest inner tail : List Token}
  (hclause : Clause node first (used ++ rest)) (hspelled : SpellsAll later inner)
  (hcut : Cut (inner ++ tail) used rest)

include hclause hspelled hcut

/-- A statement in front of canonical ones does not end in an expression that the next one could go
on with, because reading it stopped there. -/
theorem canonicalAll_cons (hcanonical : CanonicalAll later) : CanonicalAll (node :: later) := by
  refine ⟨hclause.canonical, ?_, hcanonical⟩
  intro hends next hnext
  rw [Bool.eq_false_iff]
  intro hopens
  cases hspelled with
  | nil => simp at hnext
  | cons hhead =>
      cases hnext
      obtain ⟨t, more, rfl, ht⟩ := hhead.head_of_opensWith hopens
      rw [List.cons_append, List.cons_append] at hcut
      obtain ⟨_, rfl, -⟩ := hcut.head (by simp [ht, Closes])
      have hlt := (hclause.after_expression hends t (by simp)).2 2 (by rw [ht]; rfl)
      simp [loosest] at hlt

theorem spellsAll_cons (htail : ∀ t ∈ tail, Closes t.kind) :
    ∃ tokens, SpellsAll (node :: later) tokens ∧ Cut (tokens ++ tail) (first ++ used) rest := by
  obtain ⟨tokens, hnode, hnodeCut⟩ := hclause.spelled
  refine ⟨tokens ++ inner, .cons hnode hspelled, ?_⟩
  rw [List.append_assoc]
  refine hnodeCut.append hcut ?_
  intro t ht hkind
  rcases List.mem_append.mp ht with ht | ht
  · exact hspelled.ne_endOfFile t ht hkind
  · simpa [hkind, Closes] using htail t ht

end Sequences

theorem blockSound_step
    {t : Token} {ts : List Token} (hterminator : ¬t.kind.isTerminator = true)
    (hend : t.kind ≠ .endOfFile) (hstatement : StatementSound (t :: ts))
    (hblock : ∀ rest : Shorter (t :: ts), BlockSound rest.val) : BlockSound (t :: ts) := by
  intro body rest h
  rw [plain_block_cons, if_neg hterminator, if_neg hend, bind_eq_ok] at h
  obtain ⟨⟨node, afterNode⟩, hnode, h⟩ := h
  rw [bind_eq_ok] at h
  obtain ⟨⟨later, afterLater⟩, hlater, hrest⟩ := h
  cases hrest
  obtain ⟨first, hfirst, clause⟩ := hstatement node afterNode hnode
  obtain ⟨shorter, -, rfl⟩ := exists_of_plain_eq_ok hnode
  obtain ⟨hcanonical, used, inner, closing, hused, hspelled, hclosing, hcut⟩ :=
    hblock shorter later afterLater hlater
  rw [hused] at hfirst clause
  obtain ⟨tokens, htokens, htokensCut⟩ :=
    spellsAll_cons clause hspelled hcut (by simpa using hclosing)
  exact ⟨canonicalAll_cons clause hspelled hcut hcanonical, first ++ used, tokens, closing,
    by rw [hfirst, List.append_assoc], htokens, hclosing, htokensCut⟩

theorem statementSound_nil : StatementSound [] := by
  intro node rest h
  rw [plain_statement_nil] at h
  cases h

/-- Every result of reading a statement is spelled by the tokens that were taken. -/
theorem statementSound (ts : List Token) : StatementSound ts := by
  have hall := statement.mutual_induct StatementSound AlternativeSound BlockSound
    statementSound_nil (fun _ _ => statementSound_spill) (fun _ _ => statementSound_listen)
    (fun _ _ => statementSound_tea) (fun _ _ => statementSound_sigil)
    (fun _ _ => statementSound_colon) (fun _ _ => statementSound_bet)
    (fun _ _ h1 h2 h3 h4 h5 h6 h => statementSound_assignment
      (isOpener_eq_false h1 h2 h3 h4 h5 h6) (by simpa using h))
    (fun _ _ h1 h2 h3 h4 h5 h6 h => statementSound_expression
      (isOpener_eq_false h1 h2 h3 h4 h5 h6) (by simpa using h))
    alternativeSound_nil (fun _ _ => alternativeSound_step) (fun _ _ => alternativeSound_stop)
    (blockSound_atEnd (by simp [AtEnd])) (fun _ _ => blockSound_close)
    (fun _ _ _ hend => blockSound_atEnd (by simpa [AtEnd] using hend))
    (fun _ _ => blockSound_step)
  exact hall.1 ts

/-! ## Programs -/

theorem program_of_atEnd {ts : List Token} (hend : AtEnd ts) : program ts = .ok [] := by
  cases ts with
  | nil => rw [program]
  | cons t later => rw [program_cons, if_pos (hend t (by simp))]

/-- Reading a program takes the tokens that spell its statements and stops at the end. -/
theorem spelled_of_program
    (ts : List Token) (statements : List Node) (h : program ts = .ok statements) :
    CanonicalAll statements ∧ ∃ used rest tokens, ts = used ++ rest ∧ AtEnd rest ∧
      SpellsAll statements tokens ∧ Cut tokens used rest := by
  induction ts using program.induct generalizing statements with
  | case1 =>
      rw [program_of_atEnd (by simp [AtEnd])] at h
      cases h
      exact ⟨trivial, [], [], [], rfl, by simp [AtEnd], .nil, .refl [] []⟩
  | case2 t later hkind =>
      have hend : AtEnd (t :: later) := by simpa [AtEnd] using hkind
      rw [program_of_atEnd hend] at h
      cases h
      exact ⟨trivial, [], t :: later, [], rfl, hend, .nil, .refl [] _⟩
  | case3 t later hkind ih =>
      rw [program_cons, if_neg hkind, bind_eq_ok] at h
      obtain ⟨⟨node, afterNode⟩, hnode, h⟩ := h
      rw [bind_eq_ok] at h
      obtain ⟨others, hothers, hrest⟩ := h
      cases hrest
      obtain ⟨first, hfirst, clause⟩ := statementSound _ node afterNode hnode
      obtain ⟨shorter, -, rfl⟩ := exists_of_plain_eq_ok hnode
      obtain ⟨hcanonical, used, rest, inner, hused, hend, hspelled, hcut⟩ :=
        ih shorter others hothers
      rw [hused] at hfirst clause
      rw [← List.append_nil inner] at hcut
      obtain ⟨tokens, htokens, htokensCut⟩ := spellsAll_cons clause hspelled hcut (by simp)
      rw [List.append_nil] at htokensCut
      exact ⟨canonicalAll_cons clause hspelled hcut hcanonical, first ++ used, rest, tokens,
        by rw [hfirst, List.append_assoc], hend, htokens, htokensCut⟩

/-- The end mark is where a program stops, so that it takes all tokens in front of it. -/
theorem eq_of_append_atEnd
    {tokens used rest : List Token} {last : Token} (hlast : last.kind = .endOfFile)
    (honly : ∀ t ∈ tokens, t.kind ≠ .endOfFile) (hused : ∀ t ∈ used, t.kind ≠ .endOfFile)
    (hrest : AtEnd rest) (h : tokens ++ [last] = used ++ rest) : used = tokens := by
  induction tokens generalizing used with
  | nil =>
      cases used with
      | nil => rfl
      | cons t more =>
          rw [List.nil_append, List.cons_append, List.cons.injEq] at h
          exact absurd (h.1 ▸ hlast) (hused t (by simp))
  | cons first later ih =>
      cases used with
      | nil =>
          rw [List.nil_append] at h
          exact absurd (hrest first (by simp [← h])) (honly first (by simp))
      | cons t more =>
          simp only [List.cons_append, List.cons.injEq] at h
          have hmore := ih (fun t ht => honly t (by simp [ht])) (fun t ht => hused t (by simp [ht])) h.2
          rw [h.1, hmore]

theorem spellsProgram_of_program
    {tokens : List Token} {last : Token} {statements : List Node} (hlast : last.kind = .endOfFile)
    (honly : ∀ t ∈ tokens, t.kind ≠ .endOfFile)
    (h : program (tokens ++ [last]) = .ok statements) : SpellsProgram statements tokens := by
  obtain ⟨-, used, rest, row, htokens, hend, hspelled, missing, rfl, hmissing, -⟩ :=
    spelled_of_program _ statements h
  have hused : ∀ t ∈ used, t.kind ≠ .endOfFile :=
    fun t ht => hspelled.ne_endOfFile t (List.mem_append_left _ ht)
  have heq := eq_of_append_atEnd hlast honly hused hend htokens
  rw [heq] at hspelled
  exact ⟨missing, hmissing, hspelled⟩

/-- A parsed program is canonical, and the tokens in front of the end mark spell it: none of them is
lost, repeated or out of place. -/
theorem canonical_and_spelled_of_parsed
    {tokens : List Token} {last : Token} {statements : List Node} (hlast : last.kind = .endOfFile)
    (honly : ∀ t ∈ tokens, t.kind ≠ .endOfFile)
    (h : program (tokens ++ [last]) = .ok statements) :
    SpellsProgram statements tokens ∧ CanonicalAll statements :=
  ⟨spellsProgram_of_program hlast honly h, (spelled_of_program _ statements h).1⟩

namespace Sample

/-- A token of the first line that denotes nothing by itself. -/
def token (kind : Token.Kind) (lexeme : String) : Token := ⟨kind, lexeme, .absent, 1⟩

/-- The tokens of `bet x bet x spill x - x - x deadass : spill -x ^ x`, with a block that is still
open at the end. -/
def tokens : List Token :=
  [token .bet "bet", token .identifier "x", token .bet "bet", token .identifier "x",
   token .spill "spill", token .identifier "x", token .minus "-", token .identifier "x",
   token .minus "-", token .identifier "x", token .deadass "deadass", token .colon ":",
   token .spill "spill", token .minus "-", token .identifier "x", token .power "^",
   token .identifier "x"]

/-- The variable of the program. -/
def x : Node := .identifier (token .identifier "x").mark

/-- The difference that is written first. -/
def difference : Node :=
  .binary (.binary x (token .minus "-").mark x) (token .minus "-").mark x

/-- The power that is written with a sign in front of it. -/
def negated : Node :=
  .unary (token .minus "-").mark (.binary x (token .power "^").mark x)

/-- The tree of the program: the alternative belongs to the inner condition. -/
def tree : List Node :=
  [.conditional x (.conditional x (.spill difference) (.block [.spill negated])) .absent]

end Sample

theorem canonical_and_spelled_of_parsed_sample :
    program (Sample.tokens ++ [Sample.token .endOfFile ""]) = .ok Sample.tree ∧
      SpellsProgram Sample.tree Sample.tokens ∧ CanonicalAll Sample.tree := by
  have h : program (Sample.tokens ++ [Sample.token .endOfFile ""]) = .ok Sample.tree := by cbv
  exact ⟨h, canonical_and_spelled_of_parsed rfl (by decide) h⟩

end Slang.Grammar

namespace Slang

open Grammar

/-! ## Programs of source texts -/

theorem Token.faithful_of_closes {t : Token} (h : Closes t.kind) : t.Faithful := by
  rcases h with h | h | h <;> exact ⟨by simp [h], by simp [h], by simp [h]⟩

/-- A parsed program is spelled by tokens of its source text and by closing words. -/
theorem exists_spelling {source : String} {program : List Node}
    (h : Parser.program (Scan.ofSource source).tokens = .ok program) :
    ∃ tokens, SpellsAll program tokens ∧
      ∀ t ∈ tokens, t ∈ (Scan.ofSource source).tokens ∨ Closes t.kind := by
  obtain ⟨body, last, htokens, hlast, honly, -⟩ := Scan.exists_ofSource_eq source
  rw [htokens] at h
  obtain ⟨missing, hmissing, hspelled⟩ := spellsProgram_of_program hlast honly h
  refine ⟨body ++ missing, hspelled, fun t ht => ?_⟩
  rcases List.mem_append.mp ht with hbody | ht
  · exact .inl (by simp [htokens, hbody])
  · exact .inr (hmissing t ht)

/-- A parsed program is spelled by faithful tokens. -/
theorem exists_faithful_spelling {source : String} {program : List Node}
    (h : Parser.program (Scan.ofSource source).tokens = .ok program) :
    ∃ tokens, SpellsAll program tokens ∧ ∀ t ∈ tokens, t.Faithful := by
  obtain ⟨tokens, hspelled, hmem⟩ := exists_spelling h
  refine ⟨tokens, hspelled, fun t ht => ?_⟩
  rcases hmem t ht with hscanned | hcloses
  · exact Scan.faithful_of_mem_ofSource hscanned
  · exact Token.faithful_of_closes hcloses

end Slang
