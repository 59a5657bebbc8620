import Slang.Proofs.Grammar.Sound

/-!
# What is spelled is parsed

The tokens that spell a canonical statement are read as that statement, in front of any tokens that
do not go on with it.  Statements are not separated from one another, so the work is to show that
every function stops where the spelling of its statement ends.
-/

namespace Slang.Grammar

open Slang.Parser

/-- The tokens after a statement do not go on with it. -/
structure Stops (node : Node) (rest : List Token) : Prop where
  after_expression : endsInExpression node = true → Follow loosest rest
  after_conditional : endsInConditional node = true → ∀ t ∈ rest.head?, t.kind ≠ .deadass
  /-- A variable in front of this word would be assigned to. -/
  not_as : ∀ t ∈ rest.head?, t.kind ≠ .asWord

/-! ## What comes after a statement -/

theorem level?_of_startsStatement
    {kind : Token.Kind} (h : startsStatement kind = true) (hminus : kind ≠ .minus) :
    kind ≠ .power ∧ level? kind = none := by
  cases kind <;> simp_all [startsStatement, startsExpression, level?]

theorem Follow.of_startsStatement
    {t : Token} {later : List Token} (h : startsStatement t.kind = true)
    (hminus : t.kind ≠ .minus) : Follow loosest (t :: later) := by
  obtain ⟨hpower, hlevel⟩ := level?_of_startsStatement h hminus
  refine follow_cons.mpr ⟨hpower, fun k hk => ?_⟩
  rw [hlevel] at hk
  cases hk

/-- What can come after a statement: another one, a closing word or the end. -/
def Next (later : List Node) (rest : List Token) : Prop :=
  ∀ t ∈ rest.head?,
    (startsStatement t.kind = true ∧
      (t.kind = .minus → ∃ next ∈ later.head?, opensWith .minus next = true)) ∨
    Closes t.kind ∨ t.kind = .endOfFile

/-- Where later statements or the closing words after them are read, one of them comes first. -/
theorem next_of_cut
    {later : List Node} {inner tail used rest : List Token} (hspelled : SpellsAll later inner)
    (htail : ∀ t ∈ tail, Closes t.kind) (hempty : tail = [] → AtEnd rest)
    (hcut : Cut (inner ++ tail) used rest) : Next later (used ++ rest) := by
  obtain ⟨missing, htokens, -, hend⟩ := hcut
  intro t ht
  cases used with
  | nil =>
      -- Either all of it is missing or there was nothing to read.
      have hatEnd : AtEnd rest := by
        by_cases hmissing : missing = []
        · simp [hmissing] at htokens
          exact hempty htokens.2
        · exact hend hmissing
      exact .inr (.inr (hatEnd t ht))
  | cons _ more =>
      cases ht
      cases hspelled with
      | nil =>
          rw [List.nil_append] at htokens
          exact .inr (.inl (htail t (by simp [htokens])))
      | cons hnode =>
          obtain ⟨first, _, rfl, hstarts, hminus⟩ := hnode.head
          simp only [List.cons_append, List.cons.injEq] at htokens
          rw [← htokens.1]
          exact .inl ⟨hstarts, fun h => ⟨_, rfl, hminus h⟩⟩

theorem Stops.of_next
    {node : Node} {later : List Node} {rest : List Token} (hcanonical : CanonicalAll (node :: later))
    (h : Next later rest) : Stops node rest := by
  constructor
  · intro hends
    cases rest with
    | nil => exact follow_nil loosest
    | cons t more =>
        rcases h t rfl with ⟨hstarts, hminus⟩ | hcloses | hend
        · refine .of_startsStatement hstarts fun hkind => ?_
          obtain ⟨next, hnext, hopens⟩ := hminus hkind
          simp [hcanonical.2.1 hends next hnext] at hopens
        · refine follow_cons.mpr ?_
          rcases hcloses with h | h | h <;> simp [h, level?]
        · exact follow_cons.mpr (by simp [hend, level?])
  · intro _ t ht hkind
    simpa [hkind, startsStatement, startsExpression, Closes] using h t ht
  · intro t ht hkind
    simpa [hkind, startsStatement, startsExpression, Closes] using h t ht

/-! ## Statements -/

/-- The tokens are read as the statement. -/
def StatementReads (node : Node) (tokens : List Token) : Prop :=
  ∀ used rest, Cut tokens used rest → Stops node rest →
    plain (statement (used ++ rest)) = .ok (node, rest)

/-- The tokens and a closing word after them are read as the rest of a block. -/
def BlockReads (body : List Node) (tokens : List Token) : Prop :=
  ∀ used rest closing, Closes closing.kind → Cut (tokens ++ [closing]) used rest →
    plain (block (used ++ rest)) = .ok (body, rest)

theorem plain_expression_of_spelled
    {e : Node} {used rest : List Token} (hspelled : SpellsExpression e used)
    (hcanonical : CanonicalExpression e) (hfollow : Follow loosest rest) :
    plain (expression (used ++ rest)) = .ok (e, rest) :=
  plain_expression_eq_ok_iff.mpr ⟨used, rfl, hspelled, hcanonical, looseness_le_loosest e, hfollow⟩

theorem SpellsExpression.not_closes
    {e : Node} {used : List Token} (h : SpellsExpression e used) :
    ∀ t ∈ used, ¬Closes t.kind :=
  fun t ht => not_closes_of_inExpression (h.mem_inExpression t ht)

theorem statementReads_spill
    {word : Token} {value : Node} {tokens : List Token} (hword : word.kind = .spill)
    (hvalue : SpellsExpression value tokens) (hcanonical : Canonical (.spill value)) :
    StatementReads (.spill value) (word :: tokens) := by
  intro used rest hcut hstops
  obtain rfl := hcut.eq_of_not_closes (by simpa [hword, Closes] using hvalue.not_closes)
  have hread := plain_expression_of_spelled hvalue hcanonical (hstops.after_expression rfl)
  rw [List.cons_append, plain_statement_spill _ hword, hread]
  rfl

theorem plain_declaration_of_spelled
    {target word : Token} {sigil : Char} {value : Node} {tokens rest : List Token}
    (hsigil : target.lexeme.toList.head? = some sigil) (hword : word.kind = .asWord)
    (hvalue : SpellsExpression value tokens) (hcanonical : CanonicalExpression value)
    (hfollow : Follow loosest rest) :
    plain (declaration target (word :: (tokens ++ rest))) =
      .ok (.declaration (.text (String.singleton sigil)) (nameOf target) value, rest) := by
  have hread := plain_expression_of_spelled hvalue hcanonical hfollow
  rw [plain_declaration, plain_expect_cons, if_pos hword, declaredSigil_of_head? hsigil]
  dsimp only [Except.bind]
  rw [hread]
  rfl

theorem statementReads_declaration
    {target word : Token} {sigil : Char} {value : Node} {tokens : List Token}
    (htarget : target.kind = .sigilIdentifier)
    (hsigil : target.lexeme.toList.head? = some sigil) (hword : word.kind = .asWord)
    (hvalue : SpellsExpression value tokens) (hcanonical : CanonicalExpression value) :
    StatementReads (.declaration (.text (String.singleton sigil)) (nameOf target) value)
      (target :: word :: tokens) := by
  intro used rest hcut hstops
  obtain rfl := hcut.eq_of_not_closes (by simpa [htarget, hword, Closes] using hvalue.not_closes)
  rw [List.cons_append, plain_statement_sigil _ htarget]
  exact plain_declaration_of_spelled hsigil hword hvalue hcanonical (hstops.after_expression rfl)

theorem statementReads_teaDeclaration
    {tea target word : Token} {sigil : Char} {value : Node} {tokens : List Token}
    (htea : tea.kind = .tea) (htarget : target.kind = .sigilIdentifier)
    (hsigil : target.lexeme.toList.head? = some sigil) (hword : word.kind = .asWord)
    (hvalue : SpellsExpression value tokens) (hcanonical : CanonicalExpression value) :
    StatementReads (.declaration (.text (String.singleton sigil)) (nameOf target) value)
      (tea :: target :: word :: tokens) := by
  intro used rest hcut hstops
  obtain rfl := hcut.eq_of_not_closes (by
    simpa [htea, htarget, hword, Closes] using hvalue.not_closes)
  rw [List.cons_append, plain_statement_tea _ htea, List.cons_append, plain_expect_cons,
    if_pos htarget]
  exact plain_declaration_of_spelled hsigil hword hvalue hcanonical (hstops.after_expression rfl)

theorem statementReads_assignment
    {target word : Token} {value : Node} {tokens : List Token} (htarget : target.kind = .identifier)
    (hword : word.kind = .asWord) (hvalue : SpellsExpression value tokens)
    (hcanonical : Canonical (.assignment target.mark value)) :
    StatementReads (.assignment target.mark value) (target :: word :: tokens) := by
  intro used rest hcut hstops
  obtain rfl := hcut.eq_of_not_closes (by simpa [htarget, hword, Closes] using hvalue.not_closes)
  have hread := plain_expression_of_spelled hvalue hcanonical.2 (hstops.after_expression rfl)
  have hassign : target.kind = .identifier ∧ startsWith .asWord (word :: tokens ++ rest) = true :=
    ⟨htarget, by simp [startsWith, hword]⟩
  rw [List.cons_append, plain_statement_other _ (by simp [htarget, isOpener]), if_pos hassign,
    plain_assignment, List.cons_append, plain_expect_cons, if_pos hword]
  dsimp only [Except.bind]
  rw [hread]

theorem statementReads_listen
    {listen prompt word target : Token} (hlisten : listen.kind = .listen)
    (hprompt : prompt.kind = .text) (hword : word.kind = .asWord)
    (htarget : target.kind = .sigilIdentifier) :
    StatementReads (.listen prompt.literal.toJson target.mark) [listen, prompt, word, target] := by
  intro used rest hcut hstops
  obtain rfl := hcut.eq_of_not_closes (by simp [hlisten, hprompt, hword, htarget, Closes])
  simp [plain_statement_listen _ hlisten, plain_listen, plain_expect_cons, hprompt, hword, htarget,
    Except.bind]

/-- An expression that stands as a statement is not taken for the start of another statement. -/
theorem statementReads_expression
    {value : Node} {tokens : List Token} (hvalue : SpellsExpression value tokens)
    (hcanonical : Canonical (.expression value)) :
    StatementReads (.expression value) tokens := by
  intro used rest hcut hstops
  obtain rfl := hcut.eq_of_not_closes hvalue.not_closes
  have hread := plain_expression_of_spelled hvalue hcanonical.1 (hstops.after_expression rfl)
  have hmem := hvalue.mem_inExpression
  obtain ⟨t, later, rfl, hstarts, hopens⟩ := hvalue.head
  have hsigil : t.kind ≠ .sigilIdentifier := by
    intro hkind
    simpa [hkind, hcanonical.2] using hopens (.inr hkind)
  have hopener : isOpener t.kind = false := by
    revert hstarts hsigil
    cases t.kind <;> simp [startsExpression, isOpener]
  have hassign : ¬(t.kind = .identifier ∧ startsWith .asWord (later ++ rest) = true) := by
    rintro ⟨-, has⟩
    cases later with
    | nil =>
        cases rest with
        | nil => simp [startsWith] at has
        | cons next _ => exact hstops.not_as next rfl (by simpa [startsWith] using has)
    | cons next _ =>
        have hnext : next.kind = .asWord := by simpa [startsWith] using has
        simpa [hnext, inExpression] using hmem next (by simp)
  rw [List.cons_append] at hread ⊢
  rw [plain_statement_other _ hopener, if_neg hassign, hread]
  rfl

theorem statementReads_block
    {opening closing : Token} {body : List Node} {tokens : List Token}
    (hopening : opening.kind = .colon) (hclosing : Closes closing.kind)
    (hbody : BlockReads body tokens) :
    StatementReads (.block body) (opening :: (tokens ++ [closing])) := by
  intro used rest hcut hstops
  obtain ⟨more, rfl, hmore⟩ := hcut.head (by simp [hopening, Closes])
  rw [List.cons_append, plain_statement_colon _ hopening, hbody more rest closing hclosing hmore]
  rfl

theorem plain_alternative_of_not_deadass
    {rest : List Token} (h : ∀ t ∈ rest.head?, t.kind ≠ .deadass) :
    plain (alternative rest) = .ok (.absent, rest) := by
  cases rest with
  | nil => exact plain_alternative_nil
  | cons t later => rw [plain_alternative_cons, if_neg (h t rfl)]

section Conditionals

variable {bet : Token} {condition consequent : Node} {test first : List Token}
  (hbet : bet.kind = .bet) (hcondition : SpellsExpression condition test)
  (hconsequent : Spells consequent first) (hfirst : StatementReads consequent first)

include hbet hcondition hconsequent hfirst

/-- The condition is read up to the first token of the statement that depends on it. -/
theorem plain_statement_conditional
    {used rest : List Token} (hcanonical : CanonicalExpression condition)
    (hminus : opensWith .minus consequent = false) (hcut : Cut first used rest)
    (hstops : Stops consequent rest) :
    plain (statement (bet :: (test ++ (used ++ rest)))) =
      (plain (alternative rest)).bind fun otherwise =>
        .ok (.conditional condition consequent otherwise.1, otherwise.2) := by
  have hread := hfirst used rest hcut hstops
  obtain ⟨t, later, rfl, hstarts, hopens⟩ := hconsequent.head
  obtain ⟨more, rfl, -⟩ := hcut.head (not_closes_of_startsStatement hstarts)
  have hfollow : Follow loosest (t :: more ++ rest) := by
    refine .of_startsStatement hstarts fun hkind => ?_
    simp [hopens hkind] at hminus
  rw [plain_statement_bet _ hbet, plain_expression_of_spelled hcondition hcanonical hfollow]
  dsimp only [Except.bind]
  rw [hread]

theorem statementReads_conditional
    (hcanonical : Canonical (.conditional condition consequent .absent)) :
    StatementReads (.conditional condition consequent .absent) (bet :: (test ++ first)) := by
  intro used rest hcut hstops
  obtain ⟨htest, -, hminus, -⟩ := hcanonical
  obtain ⟨t, later, hhead, hstarts, -⟩ := hconsequent.head
  have hcut' : Cut (bet :: test ++ t :: later) used rest := by simpa [hhead] using hcut
  obtain ⟨more, rfl, hmore⟩ := hcut'.through (not_closes_of_startsStatement hstarts)
  have hfirstCut : Cut first (t :: more) rest := by
    rw [hhead]
    exact hmore.prepend [t]
  have hfirstStops : Stops consequent rest := by
    refine ⟨fun hends => hstops.after_expression ?_, fun _ => hstops.after_conditional rfl,
      hstops.not_as⟩
    simpa [endsInExpression, Node.isAbsent, Node.shape?] using hends
  have hread := plain_statement_conditional hbet hcondition hconsequent hfirst htest hminus hfirstCut
    hfirstStops
  have htokens : bet :: test ++ t :: more ++ rest = bet :: (test ++ (t :: more ++ rest)) := by simp
  rw [htokens, hread, plain_alternative_of_not_deadass (hstops.after_conditional rfl)]
  rfl

theorem statementReads_alternative
    {deadass : Token} {otherwise : Node} {second : List Token} (hdeadass : deadass.kind = .deadass)
    (hotherwise : Spells otherwise second) (hsecond : StatementReads otherwise second)
    (hcanonical : Canonical (.conditional condition consequent otherwise)) :
    StatementReads (.conditional condition consequent otherwise)
      (bet :: (test ++ (first ++ deadass :: second))) := by
  intro used rest hcut hstops
  obtain ⟨htest, -, hminus, hotherwiseCanonical⟩ := hcanonical
  have hpresent := hotherwise.isAbsent_eq_false
  obtain ⟨-, hedge⟩ := hotherwiseCanonical.resolve_left (by simp [hpresent])
  have hcut' : Cut (bet :: (test ++ first) ++ deadass :: second) used rest := by simpa using hcut
  obtain ⟨more, rfl, hmore⟩ := hcut'.through (by simp [hdeadass, Closes])
  have hfirstStops : Stops consequent (deadass :: (more ++ rest)) :=
    ⟨fun _ => follow_cons.mpr (by simp [hdeadass, level?]), by simp [hedge], by simp [hdeadass]⟩
  have hsecondStops : Stops otherwise rest := by
    refine ⟨fun hends => hstops.after_expression ?_, fun hends => hstops.after_conditional ?_,
      hstops.not_as⟩
    · simpa [endsInExpression, hpresent] using hends
    · simpa [endsInConditional, hpresent] using hends
  have hread := plain_statement_conditional hbet hcondition hconsequent hfirst htest hminus
    (.refl first _) hfirstStops
  have htokens : bet :: (test ++ first) ++ deadass :: more ++ rest =
      bet :: (test ++ (first ++ deadass :: (more ++ rest))) := by
    simp
  rw [htokens, hread, plain_alternative_cons, if_pos hdeadass,
    hsecond more rest hmore hsecondStops]
  rfl

end Conditionals

theorem blockReads_nil : BlockReads [] [] := by
  intro used rest closing hclosing hcut
  rw [List.nil_append] at hcut
  obtain ⟨missing, htokens, -, hend⟩ := hcut
  cases used with
  | nil =>
      have hne : missing ≠ [] := by
        rintro rfl
        simp at htokens
      exact plain_block_of_atEnd (hend hne)
  | cons t more =>
      simp at htokens
      obtain ⟨rfl, rfl, -⟩ := htokens
      rw [List.cons_append, plain_block_cons, if_pos ((isTerminator_iff _).mpr hclosing)]
      rfl

theorem blockReads_cons
    {node : Node} {later : List Node} {first inner : List Token} (hnode : Spells node first)
    (hlater : SpellsAll later inner) (hfirst : StatementReads node first)
    (hinner : BlockReads later inner) (hcanonical : CanonicalAll (node :: later)) :
    BlockReads (node :: later) (first ++ inner) := by
  intro used rest closing hclosing hcut
  rw [List.append_assoc] at hcut
  obtain ⟨own, more, rfl, hown, hmore⟩ := hcut.split
  have hnext : Next later (more ++ rest) :=
    next_of_cut hlater (by simpa using hclosing) (by simp) hmore
  have hread := hfirst own (more ++ rest) hown (.of_next hcanonical hnext)
  have hrest := hinner more rest closing hclosing hmore
  obtain ⟨t, tokens, rfl, hstarts, -⟩ := hnode.head
  obtain ⟨_, rfl, -⟩ := hown.head (not_closes_of_startsStatement hstarts)
  have hterminator : ¬t.kind.isTerminator = true := by
    rw [isTerminator_iff]
    exact not_closes_of_startsStatement hstarts
  have hend : t.kind ≠ .endOfFile := hnode.ne_endOfFile t (by simp)
  rw [List.append_assoc, List.cons_append, plain_block_cons, if_neg hterminator, if_neg hend]
  rw [List.cons_append] at hread
  rw [hread]
  dsimp only [Except.bind]
  rw [hrest]

mutual

/-- The tokens that spell a canonical statement are read as that statement. -/
theorem Spells.reads
    {node : Node} {tokens : List Token} (h : Spells node tokens) (hcanonical : Canonical node) :
    StatementReads node tokens := by
  cases h with
  | spill hword hvalue => exact statementReads_spill hword hvalue hcanonical
  | expression hvalue => exact statementReads_expression hvalue hcanonical
  | declaration htarget hsigil hword hvalue =>
      exact statementReads_declaration htarget hsigil hword hvalue hcanonical.2
  | teaDeclaration htea htarget hsigil hword hvalue =>
      exact statementReads_teaDeclaration htea htarget hsigil hword hvalue hcanonical.2
  | assignment htarget hword hvalue =>
      exact statementReads_assignment htarget hword hvalue hcanonical
  | listen hlisten hprompt hword htarget =>
      exact statementReads_listen hlisten hprompt hword htarget
  | block hopening hclosing hbody =>
      exact statementReads_block hopening hclosing (hbody.reads hcanonical)
  | conditional hbet hcondition hconsequent =>
      exact statementReads_conditional hbet hcondition hconsequent
        (hconsequent.reads hcanonical.2.1) hcanonical
  | alternative hbet hcondition hconsequent hdeadass hotherwise =>
      have hpresent := hotherwise.isAbsent_eq_false
      obtain ⟨-, hfirst, -, hsecond⟩ := id hcanonical
      obtain ⟨hsecond, -⟩ := hsecond.resolve_left (by simp [hpresent])
      exact statementReads_alternative hbet hcondition hconsequent (hconsequent.reads hfirst)
        hdeadass hotherwise (hotherwise.reads hsecond) hcanonical

/-- The tokens that spell canonical statements are read as the body of a block. -/
theorem SpellsAll.reads
    {body : List Node} {tokens : List Token} (h : SpellsAll body tokens)
    (hcanonical : CanonicalAll body) : BlockReads body tokens := by
  cases h with
  | nil => exact blockReads_nil
  | cons hnode hlater =>
      exact blockReads_cons hnode hlater (hnode.reads hcanonical.1) (hlater.reads hcanonical.2.2)
        hcanonical

end

/-! ## Programs -/

theorem program_of_cut
    {statements : List Node} {tokens used rest : List Token} (h : SpellsAll statements tokens)
    (hcanonical : CanonicalAll statements) (hcut : Cut tokens used rest) (hrest : AtEnd rest) :
    program (used ++ rest) = .ok statements := by
  induction statements generalizing tokens used with
  | nil =>
      cases h
      obtain rfl := hcut.eq_of_not_closes (by simp)
      exact program_of_atEnd hrest
  | cons node later ih =>
      cases h with
      | @cons _ _ first inner hnode hlater =>
          obtain ⟨own, more, rfl, hown, hmore⟩ := hcut.split
          have hmore' : Cut (inner ++ []) more rest := by simpa using hmore
          have hnext := next_of_cut hlater (by simp) (fun _ => hrest) hmore'
          have hread := hnode.reads hcanonical.1 own (more ++ rest) hown (.of_next hcanonical hnext)
          have hothers := ih hlater hcanonical.2.2 hmore
          obtain ⟨t, tokens, rfl, hstarts, -⟩ := hnode.head
          obtain ⟨_, rfl, -⟩ := hown.head (not_closes_of_startsStatement hstarts)
          have hend : t.kind ≠ .endOfFile := hnode.ne_endOfFile t (by simp)
          rw [List.append_assoc, List.cons_append, program_cons, if_neg hend]
          rw [List.cons_append] at hread
          rw [hread]
          dsimp only [Except.bind]
          rw [hothers]

theorem program_of_spelled
    {statements : List Node} {tokens : List Token} {last : Token}
    (hcanonical : CanonicalAll statements) (hspelled : SpellsProgram statements tokens)
    (hlast : last.kind = .endOfFile) : program (tokens ++ [last]) = .ok statements := by
  obtain ⟨missing, hmissing, hspelled⟩ := hspelled
  have hend : AtEnd [last] := by simpa [AtEnd] using hlast
  exact program_of_cut hspelled hcanonical ⟨missing, rfl, hmissing, fun _ => hend⟩ hend

/-- Every spelling of a canonical program is parsed as that program, whether or not the words are
written that may be left out.  It spells no other canonical program. -/
theorem parsed_of_canonical_of_spelled
    {statements : List Node} {tokens : List Token} {last : Token}
    (hcanonical : CanonicalAll statements) (hspelled : SpellsProgram statements tokens)
    (hlast : last.kind = .endOfFile) :
    program (tokens ++ [last]) = .ok statements ∧
      ∀ other, CanonicalAll other → SpellsProgram other tokens → other = statements := by
  have hread := program_of_spelled hcanonical hspelled hlast
  refine ⟨hread, fun other hotherCanonical hotherSpelled => ?_⟩
  have hother := program_of_spelled hotherCanonical hotherSpelled hlast
  exact Except.ok.inj (hother.symm.trans hread)

namespace Sample

theorem token_kind (kind : Token.Kind) (lexeme : String) : (token kind lexeme).kind = kind := rfl

theorem canonicalAll_tree : CanonicalAll tree := by
  simp [tree, difference, negated, x, token_kind, CanonicalAll, Canonical, CanonicalExpression,
    opensWith, IsSign, level?, looseness, isPrimary, endsInConditional, Node.isAbsent, Node.shape?]

theorem spellsProgram_tree : SpellsProgram tree tokens := by
  have hx : SpellsExpression x [token .identifier "x"] := .identifier (.inl rfl)
  have hminus : IsBinary (token .minus "-").kind := .inl rfl
  have hpower : IsBinary (token .power "^").kind := .inr rfl
  have hsign : IsSign (token .minus "-").kind := .inr rfl
  have hclosing : Closes closingWord.kind := .inl rfl
  have hfirst := Spells.spill (token_kind .spill "spill") (.binary hminus (.binary hminus hx hx) hx)
  have hsecond := Spells.spill (token_kind .spill "spill") (.unary hsign (.binary hpower hx hx))
  have hblock := Spells.block (token_kind .colon ":") hclosing (.cons hsecond .nil)
  have hinner :=
    Spells.alternative (token_kind .bet "bet") hx hfirst (token_kind .deadass "deadass") hblock
  have hall := SpellsAll.cons (.conditional (token_kind .bet "bet") hx hinner) .nil
  exact ⟨[closingWord], by simpa using hclosing, hall⟩

end Sample

theorem parsed_of_canonical_of_spelled_sample :
    CanonicalAll Sample.tree ∧ SpellsProgram Sample.tree Sample.tokens ∧
      program (Sample.tokens ++ [Sample.token .endOfFile ""]) = .ok Sample.tree ∧
      ∀ other, CanonicalAll other → SpellsProgram other Sample.tokens → other = Sample.tree :=
  ⟨Sample.canonicalAll_tree, Sample.spellsProgram_tree,
    parsed_of_canonical_of_spelled Sample.canonicalAll_tree Sample.spellsProgram_tree rfl⟩

end Slang.Grammar
