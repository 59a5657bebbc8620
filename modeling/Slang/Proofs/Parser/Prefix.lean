import Slang.Proofs.Grammar.Sequence
import Slang.Proofs.Parser.Lines
import Slang.Proofs.Parser.Lookahead

/-!
# Parsing gives up at the first impossible token

A parse error says two things.  The tokens in front of the reported one can be completed to a
program, and no program starts with them and the reported token.  This holds of every parsing
function, because each one reads with one token of lookahead, and then of whole programs.  The one
thing in the way of completing them is a variable without a sigil whose declaration has begun; among
the tokens of a source text there is none.

An error holds the token and not its index.  The parser looks at no line, so the lines of the tokens
are free to carry their indices.
-/

namespace Slang.Parser

open Slang.Grammar

/-! ## Expressions -/

theorem resumes_chain (rank : Nat) (left : Node) :
    Resumes fun rest => plain (chain rank left rest) :=
  resumes_of_breaks fun _ hrest => plain_chain_of_follow (hrest.follow _)

theorem resumes_power (base : Node) : Resumes fun rest => plain (power base rest) :=
  resumes_of_breaks fun _ hrest => plain_power_of_follow (hrest.follow _)

/-- A function that leaves an expression where it was, because its operator does not come next. -/
theorem predictive_stop
    {free : List Token → Prop} {f : List Token → Reading Node} {e : Node} {t : Token}
    {ts : List Token} (hstop : ∀ rest, f (t :: rest) = .ok (e, t :: rest))
    (hbreaks : ∀ rest, Breaks rest → f rest = .ok (e, rest)) : Predictive free f (t :: ts) := by
  apply predictive_same
  · intro rest hhead
    obtain ⟨later, rfl⟩ : ∃ later, rest = t :: later := List.head?_eq_some_iff.mp hhead
    exact hstop later
  · exact fun _ => hbreaks

theorem resumes_closing (inner : Node) :
    Resumes fun rest => (plain (expect .rightParen .closingParen rest)).bind fun closing =>
      .ok (Node.group inner, closing.2) := by
  refine ⟨[typical .rightParen], .group inner, genuine_typical (by simp), fun rest _ => ⟨?_, ?_⟩⟩
  · exact breaks_cons.mpr (by simp [level?])
  · simp [plain_expect_cons, Except.bind]

theorem predictive_closing (inner : Node) (ts : List Token) :
    Predictive Anywhere
      (fun rest => (plain (expect .rightParen .closingParen rest)).bind fun closing =>
        .ok (Node.group inner, closing.2)) ts :=
  predictive_expect .rightParen .closingParen (by simp) ts (fun _ _ => predictive_done _)
    (resumes_done (Node.group inner)).finishes

/-- The shortest expression to go on with. -/
theorem readable_ghosted : Readable .ghosted [typical .ghosted] :=
  .of_leaf rfl

theorem finishes_primary : Finishes fun rest => plain (primary rest) :=
  ⟨[typical .ghosted], .ghosted, genuine_typical (by simp),
    fun rest _ => readable_ghosted.primary rfl rest⟩

theorem finishes_unary : Finishes fun rest => plain (unary rest) := by
  refine ⟨[typical .ghosted], .ghosted, genuine_typical (by simp), fun rest hrest => ?_⟩
  exact readable_ghosted.operand rfl rest (hrest.follow 0)

theorem predictive_binary (rank : Nat) (ts : List Token) :
    Predictive Anywhere (fun rest => plain (binary rank rest)) ts := by
  have hall := binary.mutual_induct
    (fun rank ts => Predictive Anywhere (fun rest => plain (binary rank rest)) ts)
    (fun rank left ts => Predictive Anywhere (fun rest => plain (chain rank left rest)) ts)
    (fun ts => Predictive Anywhere (fun rest => plain (unary rest)) ts)
    (fun base ts => Predictive Anywhere (fun rest => plain (power base rest)) ts)
    (fun ts => Predictive Anywhere (fun rest => plain (primary rest)) ts)
    ?_ ?_ ?_ ?_ ?_ ?_ ?_ ?_ ?_ ?_ ?_ ?_ ?_ ?_ ?_
  · exact hall.1 rank ts
  · intro ts hunary
    simpa only [plain_binary_zero] using hunary
  · intro ts rank hbinary hchain
    simp only [plain_binary_succ]
    exact hbinary.bind (forall_of_plain hchain) (resumes_chain rank)
  · intro rank left
    exact predictive_nil
  · intro rank left t ts hrank hbinary hchain
    refine Predictive.cons ?_ (ne_endOfFile_of_rank? hrank)
      fun rest => by rw [plain_chain_cons, if_pos hrank]
    exact hbinary.bind (forall_of_plain hchain)
      fun right => resumes_chain rank (.binary left t.mark right)
  · intro rank left t ts hrank
    apply predictive_stop
    · intro rest
      rw [plain_chain_cons, if_neg hrank]
    · exact fun _ hrest => plain_chain_of_follow (hrest.follow _)
  · exact predictive_nil
  · intro t ts hsign hunary
    refine Predictive.cons ?_ (ne_endOfFile_of_isSign hsign)
      fun rest => by rw [plain_unary_cons, if_pos hsign]
    exact hunary.map _
  · intro t ts hsign hprimary hpower
    have hoperand : Predictive Anywhere (fun rest => (plain (primary rest)).bind fun base =>
        plain (power base.1 base.2)) (t :: ts) :=
      hprimary.bind (forall_of_plain hpower) resumes_power
    apply hoperand.congr _ (fun _ _ => length_lt_of_plain) finishes_unary
    intro rest
    left
    dsimp only
    rw [plain_unary_cons, if_neg hsign]
  · intro base
    exact predictive_nil
  · intro base t ts hkind hunary
    refine Predictive.cons ?_ (by simp [hkind]) fun rest => by rw [plain_power_cons, if_pos hkind]
    exact hunary.map _
  · intro base t ts hkind
    apply predictive_stop
    · intro rest
      rw [plain_power_cons, if_neg hkind]
    · exact fun _ hrest => plain_power_of_follow (hrest.follow _)
  · exact predictive_nil
  · intro t ts leaf hleaf
    exact Predictive.cons (predictive_done leaf) (ne_endOfFile_of_leaf? hleaf)
      fun rest => by rw [plain_primary_cons, hleaf]
  · intro t ts hleaf hkind hbinary
    have hgroup : Predictive Anywhere
        (fun rest => (plain (binary loosest rest)).bind fun inner =>
          (plain (expect .rightParen .closingParen inner.2)).bind fun closing =>
            .ok (Node.group inner.1, closing.2)) ts :=
      hbinary.bind (fun inner rest _ => predictive_closing inner rest) resumes_closing
    apply hgroup.cons (by simp [hkind])
    intro rest
    rw [plain_primary_cons, hleaf]
    dsimp only
    rw [if_pos hkind]
  · intro t ts hleaf hkind
    apply predictive_error .expression
    · intro rest
      rw [plain_primary_cons, hleaf]
      dsimp only
      rw [if_neg hkind]
    · exact finishes_primary

theorem predictive_expression (ts : List Token) :
    Predictive Anywhere (fun rest => plain (expression rest)) ts :=
  predictive_binary loosest ts

theorem resumes_expression : Resumes fun rest => plain (expression rest) := by
  refine ⟨[typical .ghosted], .ghosted, genuine_typical (by simp), fun rest hrest => ⟨?_, ?_⟩⟩
  · exact breaks_cons.mpr (by simp [level?])
  · exact readable_ghosted.binary (Nat.zero_le _) hrest.1

/-! ## Statements -/

/-- Every rest that the end mark does not come next in. -/
def NotAtEnd (rest : List Token) : Prop :=
  ∀ t ∈ rest.head?, t.kind ≠ .endOfFile

theorem Predictive.of_anywhere
    {α : Type} {f : List Token → Reading α} {ts : List Token} (h : Predictive Anywhere f ts) :
    Predictive NotAtEnd f ts where
  ok := by
    intro a rest hread hend
    obtain ⟨hrest, used, hused, htakes⟩ := h.ok hread hend
    exact ⟨hrest, used, hused, htakes.same, fun _ => htakes.broken trivial⟩
  error := h.error

/-- What a declaration reads after its variable. -/
theorem predictive_initializer (ts : List Token) :
    Predictive Anywhere (fun rest => (plain (expect .asWord .asInDeclaration rest)).bind fun word =>
      plain (expression word.2)) ts := by
  apply predictive_expect .asWord .asInDeclaration (by simp) ts
  · exact fun _ rest => predictive_expression rest
  · exact resumes_expression.finishes

theorem finishes_initializer :
    Finishes fun rest => (plain (expect .asWord .asInDeclaration rest)).bind fun word =>
      plain (expression word.2) :=
  finishes_expect .asWord .asInDeclaration (by simp) resumes_expression.finishes

/-- The variable of a declaration is looked at last. -/
theorem plain_declaration_eq (target : Token) (ts : List Token) :
    plain (declaration target ts) =
      ((plain (expect .asWord .asInDeclaration ts)).bind fun word =>
        plain (expression word.2)).bind fun value =>
          (declaredSigil target).bind fun sigil =>
            .ok (.declaration (.text sigil) (declaredName target).mark value.1, value.2) := by
  rw [plain_declaration]
  cases plain (expect .asWord .asInDeclaration ts) with
  | error failure => rfl
  | ok word => rfl

theorem predictive_declaration (target : Token) (ts : List Token) :
    Predictive Anywhere (fun rest => plain (declaration target rest)) ts := by
  simp only [plain_declaration_eq]
  cases hsigil : declaredSigil target with
  | ok sigil => exact (predictive_initializer ts).map (Node.declaration (.text sigil) _)
  | error failure =>
      obtain ⟨-, rfl⟩ := declaredSigil_eq_error_iff.mp hsigil
      exact (predictive_initializer ts).unmarked target

theorem finishes_declaration {target : Token} (h : target.lexeme ≠ "") :
    Finishes fun rest => plain (declaration target rest) := by
  obtain ⟨sigil, hsigil⟩ := exists_head?_iff.mpr h
  simp only [plain_declaration_eq, declaredSigil_of_head? hsigil]
  exact finishes_initializer.bind fun value => resumes_done (Node.declaration _ _ value)

theorem predictive_listen (ts : List Token) :
    Predictive Anywhere (fun rest => plain (listen rest)) ts := by
  simp only [plain_listen]
  have hdone (prompt target : Token) :=
    (resumes_done (Node.listen prompt.literal.toJson target.mark)).finishes
  have htarget (prompt : Token) :
      Finishes fun rest => (plain (expect .sigilIdentifier .inputVariable rest)).bind fun target =>
        .ok (Node.listen prompt.literal.toJson target.1.mark, target.2) :=
    finishes_expect .sigilIdentifier .inputVariable (by simp) (hdone prompt _)
  apply predictive_expect .text .prompt (by simp) ts
  · intro prompt rest
    dsimp only
    apply predictive_expect .asWord .asAfterPrompt (by simp) rest
    · intro word rest
      apply predictive_expect .sigilIdentifier .inputVariable (by simp) rest
      · exact fun target rest => predictive_done (Node.listen prompt.literal.toJson target.mark)
      · exact hdone prompt _
    · exact htarget prompt
  · dsimp only
    apply finishes_expect .asWord .asAfterPrompt (by simp)
    exact htarget (typical .text)

theorem resumes_statement : Resumes fun rest => plain (statement rest) := by
  refine ⟨[typical .ghosted], .expression .ghosted, genuine_typical (by simp),
    fun rest hrest => ⟨?_, ?_⟩⟩
  · exact breaks_cons.mpr (by simp [level?])
  · have hread : plain (expression (typical .ghosted :: rest)) = .ok (.ghosted, rest) :=
      readable_ghosted.binary (Nat.zero_le _) hrest.1
    rw [List.singleton_append]
    dsimp only
    rw [plain_statement_other rest rfl, if_neg (by simp), hread]
    rfl

theorem resumes_alternative : Resumes fun rest => plain (alternative rest) :=
  resumes_of_breaks fun _ hrest => plain_alternative_of_not_deadass fun t ht => (hrest.2 t ht).1

theorem resumes_block : Resumes fun rest => plain (block rest) := by
  refine ⟨[typical .endWord], [], genuine_typical (by simp), fun rest _ => ⟨?_, ?_⟩⟩
  · exact breaks_cons.mpr (by simp [level?])
  · rw [List.singleton_append]
    dsimp only
    rw [plain_block_cons, if_pos (by rfl)]

/-- An expression in place of a statement.  A variable is the one first token that does not settle
this: the word after it could make it an assignment. -/
theorem predictive_expressionStatement
    {t : Token} {ts : List Token} (hopener : isOpener t.kind = false)
    (hassign : ¬(t.kind = .identifier ∧ startsWith .asWord ts = true)) :
    Predictive NotAtEnd (fun rest => plain (statement rest)) (t :: ts) := by
  have hvalue : Predictive Anywhere (fun rest => (plain (expression rest)).bind fun value =>
      .ok (Node.expression value.1, value.2)) (t :: ts) := (predictive_expression (t :: ts)).map _
  apply hvalue.of_anywhere.congr _ (fun _ _ => length_lt_of_plain) resumes_statement.finishes
  intro rest
  by_cases hother : t.kind = .identifier ∧ startsWith .asWord rest = true
  · obtain ⟨hkind, has⟩ := hother
    obtain ⟨word, later, rfl⟩ : ∃ word later, rest = word :: later := by
      cases rest with
      | nil => simp [startsWith] at has
      | cons word later => exact ⟨word, later, rfl⟩
    have hword : word.kind = .asWord := by simpa [startsWith] using has
    have hleaf : Readable (.identifier t.mark) [t] := .of_leaf (by simp [leaf?, hkind])
    have hread : plain (expression (t :: word :: later)) =
        .ok (.identifier t.mark, word :: later) :=
      hleaf.binary (Nat.zero_le _) (follow_cons.mpr (by simp [hword, level?]))
    refine .inr ⟨?_, ?_, .expression (.identifier t.mark), ?_⟩
    · intro hhead
      obtain ⟨others, rfl⟩ : ∃ others, ts = word :: others := List.head?_eq_some_iff.mp hhead.symm
      exact hassign ⟨hkind, has⟩
    · intro hbreaks
      exact (breaks_cons.mp hbreaks).2.2 hword
    · dsimp only
      rw [hread]
      rfl
  · left
    dsimp only
    rw [plain_statement_other rest hopener, if_neg hother]

theorem predictive_assignment
    {t : Token} {ts : List Token} (hopener : isOpener t.kind = false)
    (hassign : t.kind = .identifier ∧ startsWith .asWord ts = true) :
    Predictive NotAtEnd (fun rest => plain (statement rest)) (t :: ts) := by
  obtain ⟨hkind, has⟩ := hassign
  cases ts with
  | nil => simp [startsWith] at has
  | cons word later =>
      have hword : word.kind = .asWord := by simpa [startsWith] using has
      have hvalue : Predictive Anywhere (fun rest => (plain (expression rest)).bind fun value =>
          .ok (Node.assignment t.mark value.1, value.2)) later :=
        (predictive_expression later).map _
      -- Two tokens settle what the statement is, so they are taken together.
      have htarget :
          Predictive NotAtEnd (fun rest => plain (statement (t :: rest))) (word :: later) := by
        apply hvalue.of_anywhere.cons (by simp [hword])
        intro rest
        have hassign : t.kind = .identifier ∧ startsWith .asWord (word :: rest) = true :=
          ⟨hkind, by simp [startsWith, hword]⟩
        rw [plain_statement_other _ hopener, if_pos hassign, plain_assignment, plain_expect_cons,
          if_pos hword]
        rfl
      exact htarget.cons (by simp [hkind]) fun rest => rfl

theorem notAtEnd_of_alternative
    {rest : List Token} {condition consequent : Node} {failure : ParseFailure}
    (h : ((plain (alternative rest)).bind fun otherwise =>
      .ok (Node.conditional condition consequent otherwise.1, otherwise.2)) = .error failure) :
    NotAtEnd rest := by
  rintro t ht hkind
  rw [plain_alternative_of_not_deadass (by simp_all)] at h
  cases h

theorem notAtEnd_of_block
    {rest : List Token} {first : Node} {failure : ParseFailure}
    (h : ((plain (block rest)).bind fun others => .ok (first :: others.1, others.2)) =
      .error failure) : NotAtEnd rest := by
  rintro t ht hkind
  rw [plain_block_of_atEnd (by simp_all [AtEnd])] at h
  cases h

theorem predictive_conditional
    {t : Token} {ts : List Token} (hkind : t.kind = .bet)
    (hstatement : ∀ condition rest, plain (expression ts) = .ok (condition, rest) →
      Predictive NotAtEnd (fun rest => plain (statement rest)) rest)
    (halternative : ∀ condition rest, plain (expression ts) = .ok (condition, rest) →
      ∀ consequent later, plain (statement rest) = .ok (consequent, later) →
        Predictive NotAtEnd (fun rest => plain (alternative rest)) later) :
    Predictive NotAtEnd (fun rest => plain (statement rest)) (t :: ts) := by
  refine Predictive.cons ?_ (by simp [hkind]) fun rest => plain_statement_bet rest hkind
  apply (predictive_expression ts).bind
  · intro condition rest hcondition
    dsimp only
    apply (hstatement condition rest hcondition).bind_of_free
    · exact fun consequent later hconsequent =>
        (halternative condition rest hcondition consequent later hconsequent).map
          (Node.conditional condition consequent)
    · exact fun consequent => resumes_alternative.map (Node.conditional condition consequent)
    · exact fun _ => id
    · exact fun consequent rest failure => notAtEnd_of_alternative
  · intro condition
    dsimp only
    exact resumes_statement.bind fun consequent =>
      resumes_alternative.map (Node.conditional condition consequent)

/-- One more statement of a block. -/
theorem predictive_blockStep
    {t : Token} {ts : List Token} (hterminator : ¬t.kind.isTerminator = true)
    (hend : t.kind ≠ .endOfFile)
    (hstatement : Predictive NotAtEnd (fun rest => plain (statement rest)) (t :: ts))
    (hblock : ∀ first rest, plain (statement (t :: ts)) = .ok (first, rest) →
      Predictive NotAtEnd (fun rest => plain (block rest)) rest) :
    Predictive NotAtEnd (fun rest => plain (block rest)) (t :: ts) := by
  have hbody : Predictive NotAtEnd (fun rest => (plain (statement rest)).bind fun first =>
      (plain (block first.2)).bind fun others =>
        .ok (first.1 :: others.1, others.2)) (t :: ts) := by
    apply hstatement.bind_of_free
    · exact fun first rest hfirst => (hblock first rest hfirst).map (first :: ·)
    · exact fun first => resumes_block.map (first :: ·)
    · exact fun _ => id
    · exact fun first rest failure => notAtEnd_of_block
  have hread : ∀ rest, plain (block (t :: rest)) =
      (plain (statement (t :: rest))).bind fun first =>
        (plain (block first.2)).bind fun others => .ok (first.1 :: others.1, others.2) := by
    intro rest
    rw [plain_block_cons, if_neg hterminator, if_neg hend]
  apply hbody.congr (fun rest => .inl (hread rest)) _ resumes_block.finishes
  intro body rest hbodyRead
  rw [hread] at hbodyRead
  obtain ⟨⟨first, afterFirst⟩, hfirst, hlater⟩ := bind_eq_ok.mp hbodyRead
  obtain ⟨⟨others, afterOthers⟩, hothers, hdone⟩ := bind_eq_ok.mp hlater
  cases hdone
  obtain ⟨found, -, rfl⟩ := exists_of_plain_eq_ok hothers
  exact Nat.lt_of_le_of_lt found.property (length_lt_of_plain hfirst)

theorem predictive_statement (ts : List Token) :
    Predictive NotAtEnd (fun rest => plain (statement rest)) ts := by
  have hall := statement.mutual_induct
    (fun ts => Predictive NotAtEnd (fun rest => plain (statement rest)) ts)
    (fun ts => Predictive NotAtEnd (fun rest => plain (alternative rest)) ts)
    (fun ts => Predictive NotAtEnd (fun rest => plain (block rest)) ts)
    ?_ ?_ ?_ ?_ ?_ ?_ ?_ ?_ ?_ ?_ ?_ ?_ ?_ ?_ ?_ ?_
  · exact hall.1 ts
  · exact predictive_nil
  · intro t ts hkind
    refine Predictive.cons ?_ (by simp [hkind]) fun rest => plain_statement_spill rest hkind
    exact ((predictive_expression ts).map _).of_anywhere
  · intro t ts hkind
    exact (predictive_listen ts).of_anywhere.cons (by simp [hkind])
      fun rest => plain_statement_listen rest hkind
  · intro t ts hkind
    refine Predictive.cons ?_ (by simp [hkind]) fun rest => plain_statement_tea rest hkind
    apply predictive_expect .sigilIdentifier .sigilVariable (by simp) ts
    · exact fun target rest => (predictive_declaration target rest).of_anywhere
    · exact finishes_declaration (by decide)
  · intro t ts hkind
    exact (predictive_declaration t ts).of_anywhere.cons (by simp [hkind])
      fun rest => plain_statement_sigil rest hkind
  · intro t ts hkind hblock
    refine Predictive.cons ?_ (by simp [hkind]) fun rest => plain_statement_colon rest hkind
    exact hblock.map _
  · intro t ts hkind hstatement halternative
    apply predictive_conditional hkind
    · exact forall_of_plain fun _ rest => hstatement rest
    · exact forall_of_plain fun _ rest => forall_of_plain fun _ later => halternative rest later
  · intro t ts hspill hlisten htea hsigil hcolon hbet hassign
    exact predictive_assignment (isOpener_eq_false hspill hlisten htea hsigil hcolon hbet)
      (by simpa using hassign)
  · intro t ts hspill hlisten htea hsigil hcolon hbet hassign
    exact predictive_expressionStatement (isOpener_eq_false hspill hlisten htea hsigil hcolon hbet)
      (by simpa using hassign)
  · exact predictive_nil
  · intro t ts hkind hstatement
    exact hstatement.cons (by simp [hkind]) fun rest => by rw [plain_alternative_cons, if_pos hkind]
  · intro t ts hkind
    apply predictive_stop
    · intro rest
      rw [plain_alternative_cons, if_neg hkind]
    · exact fun _ hrest => plain_alternative_of_not_deadass fun t ht => (hrest.2 t ht).1
  · exact predictive_nil
  · intro t ts hkind
    exact (predictive_done []).cons (ne_endOfFile_of_isTerminator hkind)
      fun rest => by rw [plain_block_cons, if_pos hkind]
  · intro t ts hterminator hend
    apply predictive_same
    · intro rest hhead
      exact plain_block_of_atEnd (by simp_all [AtEnd])
    · intro hfree
      exact absurd hend (hfree t rfl)
  · intro t ts hterminator hend hstatement hblock
    apply predictive_blockStep hterminator hend hstatement
    exact forall_of_plain fun _ rest => hblock rest

/-! ## Programs -/

theorem program_of_statement_error
    {t : Token} {ts : List Token} {failure : ParseFailure} (hhead : ts.head? = some t)
    (ht : t.kind ≠ .endOfFile) (h : plain (statement ts) = .error failure) :
    program ts = .error failure := by
  obtain ⟨later, rfl⟩ : ∃ later, ts = t :: later := List.head?_eq_some_iff.mp hhead
  rw [program_cons, if_neg ht, h]
  rfl

theorem breaks_end {last : Token} (hlast : last.kind = .endOfFile) : Breaks [last] :=
  breaks_cons.mpr (by simp [hlast, level?])

theorem program_end {last : Token} (hlast : last.kind = .endOfFile) : program [last] = .ok [] :=
  program_of_atEnd (by simpa [AtEnd] using hlast)

/-- Some tokens and an end mark after them let reading finish in the given way. -/
def EndsIn (result : Except ParseFailure (List Node)) (before : List Token) : Prop :=
  ∃ more, Genuine more ∧
    ∀ last : Token, last.kind = .endOfFile → program (before ++ (more ++ [last])) = result

/-- A program is given up after some tokens.  No tokens after the reported one help, and without it
there are tokens that do, unless a sigil is missing. -/
structure Aborts (before : List Token) (e : ParseError) : Prop where
  certain : ∀ after, program (before ++ e.token :: after) = .error (.unexpected e)
  completable : (∃ statements, EndsIn (.ok statements) before) ∨
    (∃ target, EndsIn (.error (.noSigil target)) before) ∧
      ∀ rest statements, program (before ++ rest) ≠ .ok statements

theorem endsIn_nil : EndsIn (.ok []) [] :=
  ⟨[], genuine_nil, fun _ hlast => program_end hlast⟩

theorem aborts_of_statement
    {t : Token} {later before after : List Token} {e : ParseError} (ht : t.kind ≠ .endOfFile)
    (hbefore : t :: later = before ++ e.token :: after)
    (hgives : GivesUp (fun rest => plain (statement rest)) before e) : Aborts before e := by
  constructor
  · intro after'
    have hhead : (before ++ e.token :: after').head? = some t := by
      rw [head?_append_cons before e.token after, ← hbefore, List.head?_cons]
    exact program_of_statement_error hhead ht (hgives.certain after')
  · by_cases hnil : before = []
    · subst hnil
      exact .inl ⟨[], endsIn_nil⟩
    have hhead (rest : List Token) : (before ++ rest).head? = some t := by
      rw [head?_append_of_ne_nil hnil (e.token :: after), ← hbefore, List.head?_cons]
    refine hgives.completable.imp ?_ fun hunmarked => ⟨?_, ?_⟩
    · rintro ⟨more, a, hmore, hgoes⟩
      refine ⟨[a], more, hmore, fun last hlast => ?_⟩
      rw [program_of_statement_ok (hgoes [last] (breaks_end hlast)), program_end hlast]
      rfl
    · obtain ⟨more, target, hmore, hfound⟩ := hunmarked.found
      refine ⟨target, more, hmore, fun last hlast => ?_⟩
      exact program_of_statement_error (hhead _) ht (hfound [last] (breaks_end hlast))
    · intro rest statements hread
      obtain ⟨others, hothers⟩ := List.head?_eq_some_iff.mp (hhead rest)
      rw [hothers, program_cons, if_neg ht] at hread
      obtain ⟨first, hfirst, -⟩ := bind_eq_ok.mp hread
      exact hunmarked.hopeless rest first (hothers ▸ hfirst)

theorem Aborts.after_statement
    {used before after : List Token} {e : ParseError} {first : Node} (h : Aborts before e)
    (htakes : Takes NotAtEnd (fun rest => plain (statement rest)) used (before ++ e.token :: after)
      first) : Aborts (used ++ before) e := by
  constructor
  · intro after'
    have hheads := head?_append_cons before e.token after after'
    rw [List.append_assoc, program_of_statement_ok (htakes.same _ hheads), h.certain after']
    rfl
  · by_cases hnil : before = []
    · -- The statement before may stop here, so the program ends with it.
      subst hnil
      have hfree : NotAtEnd (e.token :: after) := by
        rintro t' ⟨⟩ hmarks
        have hcertain := h.certain []
        rw [List.nil_append, program_end hmarks] at hcertain
        cases hcertain
      refine .inl ⟨[first], [], genuine_nil, fun last hlast => ?_⟩
      have hread := htakes.broken hfree [last] (breaks_end hlast)
      rw [List.append_nil, List.nil_append, program_of_statement_ok hread, program_end hlast]
      rfl
    have hread (rest : List Token) : program (used ++ before ++ rest) =
        (program (before ++ rest)).bind fun others => .ok (first :: others) := by
      have hheads := head?_append_of_ne_nil hnil (e.token :: after) rest
      rw [List.append_assoc, program_of_statement_ok (htakes.same _ hheads)]
    refine h.completable.imp ?_ fun hunmarked => ⟨?_, ?_⟩
    · rintro ⟨statements, more, hmore, hgoes⟩
      refine ⟨first :: statements, more, hmore, fun last hlast => ?_⟩
      rw [hread, hgoes last hlast]
      rfl
    · obtain ⟨⟨target, more, hmore, hfound⟩, -⟩ := hunmarked
      refine ⟨target, more, hmore, fun last hlast => ?_⟩
      rw [hread, hfound last hlast]
      rfl
    · intro rest statements hall
      rw [hread] at hall
      obtain ⟨others, hothers, -⟩ := bind_eq_ok.mp hall
      exact hunmarked.2 rest others hothers

/-- A program is given up at a token that no program has after the tokens in front of it, which are
the start of a program. -/
theorem exists_of_program_eq_error
    {ts : List Token} {e : ParseError} (hend : HasEnd ts)
    (h : program ts = .error (.unexpected e)) :
    ∃ before after, ts = before ++ e.token :: after ∧ Aborts before e := by
  induction ts using program.induct with
  | case1 =>
      obtain ⟨t, ht, -⟩ := hend
      cases ht
  | case2 t later hkind =>
      rw [program_cons, if_pos hkind] at h
      cases h
  | case3 t later hkind ih =>
      have hpredictive := predictive_statement (t :: later)
      rw [program_cons, if_neg hkind] at h
      rcases bind_eq_error.mp h with hfirst | ⟨⟨first, rest⟩, hfirst, hlater⟩
      · obtain ⟨before, after, hbefore, hgives⟩ := hpredictive.error hfirst hend
        exact ⟨before, after, hbefore, aborts_of_statement hkind hbefore hgives⟩
      · obtain ⟨hrest, used, hused, htakes⟩ := hpredictive.ok hfirst hend
        have hlater : program rest = .error (.unexpected e) := by
          rcases bind_eq_error.mp hlater with hlater | ⟨others, -, hdone⟩
          · exact hlater
          · cases hdone
        obtain ⟨shorter, -, rfl⟩ := exists_of_plain_eq_ok hfirst
        obtain ⟨before, after, hbefore, haborts⟩ := ih shorter hrest hlater
        rw [hbefore] at hused htakes
        refine ⟨used ++ before, after, ?_, haborts.after_statement htakes⟩
        rw [hused, List.append_assoc]

/-! ## Positions -/

/-- The tokens, each on the line whose number is its index. -/
def numbered (ts : List Token) : List Token :=
  ts.mapIdx fun i t => t.moved fun _ => i

/-- Parsing gives up at the token of the given index.  An error holds the token and not its index,
so tokens that look the same are told apart by their numbers. -/
def FailsAt (ts : List Token) (i : Nat) (e : ParseError) : Prop :=
  ts[i]? = some e.token ∧ program (numbered ts) = .error (.unexpected (e.moved fun _ => i))

/-- The end mark is the last of the tokens and none of the others. -/
def EndsOnce (ts : List Token) : Prop :=
  ∃ body last, ts = body ++ [last] ∧ last.kind = .endOfFile ∧ ∀ t ∈ body, t.kind ≠ .endOfFile

theorem EndsOnce.hasEnd {ts : List Token} (h : EndsOnce ts) : HasEnd ts := by
  obtain ⟨body, last, rfl, hlast, -⟩ := h
  exact ⟨last, by simp, hlast⟩

/-- The lines that the tokens had before they were numbered. -/
def lines (ts : List Token) (i : Nat) : Nat :=
  (ts[i]?.map (·.line)).getD 0

theorem getElem?_numbered (ts : List Token) (i : Nat) :
    (numbered ts)[i]? = ts[i]?.map (·.moved fun _ => i) := by
  simp [numbered, List.getElem?_mapIdx]

theorem moved_lines {ts : List Token} {i : Nat} {t : Token} (ht : ts[i]? = some t) :
    (t.moved fun _ => i).moved (lines ts) = t := by
  simp [Token.moved, lines, ht]

theorem map_moved_numbered (ts : List Token) : (numbered ts).map (·.moved (lines ts)) = ts := by
  apply List.ext_getElem?
  intro i
  rw [List.getElem?_map, getElem?_numbered]
  cases ht : ts[i]? with
  | none => rfl
  | some t => exact congrArg some (moved_lines ht)

theorem take_numbered (ts : List Token) (n : Nat) :
    (numbered ts).take n = numbered (ts.take n) := by
  apply List.ext_getElem?
  intro i
  simp only [List.getElem?_take, getElem?_numbered]
  split <;> rfl

theorem hasEnd_numbered {ts : List Token} (h : HasEnd ts) : HasEnd (numbered ts) := by
  obtain ⟨t, ht, hkind⟩ := h
  obtain ⟨i, hi⟩ := List.mem_iff_getElem?.mp ht
  refine ⟨t.moved fun _ => i, List.mem_iff_getElem?.mpr ⟨i, ?_⟩, hkind⟩
  rw [getElem?_numbered, hi]
  rfl

theorem program_eq_of_numbered {ts : List Token} (hend : HasEnd ts) :
    program ts =
      match program (numbered ts) with
      | .ok statements => .ok (Node.movedAll (lines ts) statements)
      | .error failure => .error (failure.moved (lines ts)) := by
  have h := program_moved (lines ts) (hasEnd_numbered hend)
  rwa [map_moved_numbered] at h

theorem FailsAt.program_eq
    {ts : List Token} {i : Nat} {e : ParseError} (h : FailsAt ts i e) (hend : HasEnd ts) :
    program ts = .error (.unexpected e) := by
  rw [program_eq_of_numbered hend, h.2]
  have htoken := moved_lines h.1
  simp only [ParseFailure.moved, ParseError.moved, htoken]

section Numbered

variable {ts before after : List Token} {e : ParseError}

/-- The number of the reported token is its index, and its line is the old one again. -/
theorem failsAt_of_numbered
    (hbefore : numbered ts = before ++ e.token :: after)
    (h : program (numbered ts) = .error (.unexpected e)) :
    FailsAt ts before.length (e.moved (lines ts)) := by
  have hget : (numbered ts)[before.length]? = some e.token := by simp [hbefore]
  rw [getElem?_numbered] at hget
  obtain ⟨t, ht, htoken⟩ := Option.map_eq_some_iff.mp hget
  have hline : e.token.moved (lines ts) = t := by rw [← htoken, moved_lines ht]
  constructor
  · rw [ht, ← hline]
    rfl
  · cases e
    simp_all [ParseError.moved]

/-- Tokens that start in the same way are numbered in the same way. -/
theorem numbered_of_begins
    {other : List Token} (hbefore : numbered ts = before ++ after)
    (hother : ts.take before.length <+: other) : ∃ after', numbered other = before ++ after' := by
  obtain ⟨later, rfl⟩ := hother
  have hfront : numbered (ts.take before.length) = before := by
    rw [← take_numbered, hbefore, List.take_left]
  have hrow : numbered (ts.take before.length ++ later) =
      numbered (ts.take before.length) ++
        later.mapIdx fun i t => t.moved fun _ => i + (ts.take before.length).length :=
    List.mapIdx_append
  rw [hfront] at hrow
  exact ⟨_, hrow⟩

theorem getElem?_of_begins
    {other : List Token} {n i : Nat} {t : Token} (hother : ts.take n <+: other) (hi : i < n)
    (ht : ts[i]? = some t) : other[i]? = some t := by
  obtain ⟨later, rfl⟩ := hother
  have hlength := (List.getElem?_eq_some_iff.mp ht).1
  have hlt : i < (ts.take n).length := by
    rw [List.length_take]
    omega
  rw [List.getElem?_append_left hlt, List.getElem?_take_of_lt hi, ht]

theorem map_moved_of_numbered (hbefore : numbered ts = before ++ after) :
    before.map (·.moved (lines ts)) = ts.take before.length := by
  have hfront : before = (numbered ts).take before.length := by simp [hbefore]
  rw [hfront, List.map_take, map_moved_numbered, ← hfront]

end Numbered

theorem Genuine.moved {more : List Token} (h : Genuine more) (f : Nat → Nat) :
    Genuine (more.map (·.moved f)) := by
  intro t ht
  obtain ⟨t', ht', rfl⟩ := List.mem_map.mp ht
  obtain ⟨hkind, hfaithful⟩ := h t' ht'
  exact ⟨hkind, hfaithful.number, hfaithful.text, hfaithful.sigil⟩

/-- A sigil is not missing from the tokens that complete a program. -/
theorem mem_of_noSigil
    {before more : List Token} {last target : Token} (hmore : Genuine more)
    (hlast : last.kind = .endOfFile)
    (h : program (before ++ (more ++ [last])) = .error (.noSigil target)) :
    target ∈ before ∧ target.LacksSigil := by
  have hend : HasEnd (before ++ (more ++ [last])) := ⟨last, by simp, hlast⟩
  obtain ⟨hmem, hlacks⟩ := isAbout_of_program_eq_error hend h
  refine ⟨?_, hlacks⟩
  rcases List.mem_append.mp hmem with hmem | hmem
  · exact hmem
  rcases List.mem_append.mp hmem with hmem | hmem
  · exact absurd hlacks (hmore target hmem).2.not_lacksSigil
  · rw [List.mem_singleton.mp hmem] at hlacks
    simp [hlacks.1] at hlast

/-- What completes the numbered tokens completes the tokens themselves. -/
theorem EndsIn.of_numbered
    {ts before after : List Token} {result : Except ParseFailure (List Node)}
    (h : EndsIn result before) (hbefore : numbered ts = before ++ after) :
    ∃ more last, Genuine more ∧ last.kind = .endOfFile ∧
      program (ts.take before.length ++ (more ++ [last])) =
        match result with
        | .ok statements => .ok (Node.movedAll (lines ts) statements)
        | .error failure => .error (failure.moved (lines ts)) := by
  obtain ⟨more, hmore, hgoes⟩ := h
  let last := typical .endOfFile
  have hlast : HasEnd (before ++ (more ++ [last])) := ⟨last, by simp, rfl⟩
  have hread := program_moved (lines ts) hlast
  rw [hgoes last rfl, List.map_append, map_moved_of_numbered hbefore, List.map_append] at hread
  exact ⟨_, _, hmore.moved (lines ts), rfl, hread⟩

/-- Tokens that start like numbered ones of which no program is made are no program. -/
theorem program_ne_ok_of_begins
    {ts before after other : List Token} (hbefore : numbered ts = before ++ after)
    (h : ∀ rest statements, program (before ++ rest) ≠ .ok statements) (hends : HasEnd other)
    (hother : ts.take before.length <+: other) (statements : List Node) :
    program other ≠ .ok statements := by
  obtain ⟨after', hafter'⟩ := numbered_of_begins hbefore hother
  rw [program_eq_of_numbered hends, hafter']
  intro hread
  cases hprogram : program (before ++ after') with
  | ok others => exact h after' others hprogram
  | error failure =>
      rw [hprogram] at hread
      cases hread

/-- The start of a program: some tokens as they may stand in a source text complete it.  The one
thing that can be in the way is a variable without a sigil that is being declared.  Then this is
found after some such tokens, and there are no tokens that complete the program. -/
def StartsProgram (before : List Token) : Prop :=
  ∃ more last, Genuine more ∧ last.kind = .endOfFile ∧
    ((∃ statements, program (before ++ (more ++ [last])) = .ok statements) ∨
      ∃ target ∈ before, target.LacksSigil ∧
        program (before ++ (more ++ [last])) = .error (.noSigil target) ∧
        ∀ other statements, HasEnd other → before <+: other → program other ≠ .ok statements)

theorem Aborts.startsProgram
    {ts before after : List Token} {e : ParseError} (h : Aborts before e)
    (hbefore : numbered ts = before ++ after) : StartsProgram (ts.take before.length) := by
  rcases h.completable with ⟨statements, hends⟩ | ⟨⟨target, hends⟩, hhopeless⟩
  · obtain ⟨more, last, hmore, hlast, hread⟩ := hends.of_numbered hbefore
    exact ⟨more, last, hmore, hlast, .inl ⟨_, hread⟩⟩
  · obtain ⟨more, last, hmore, hlast, hread⟩ := hends.of_numbered hbefore
    obtain ⟨hmem, hlacks⟩ := mem_of_noSigil hmore hlast hread
    refine ⟨more, last, hmore, hlast, .inr ⟨_, hmem, hlacks, hread, ?_⟩⟩
    exact fun other statements hother hbegins =>
      program_ne_ok_of_begins hbefore hhopeless hother hbegins statements

theorem exists_failsAt
    {ts : List Token} {e : ParseError} (hend : HasEnd ts)
    (h : program ts = .error (.unexpected e)) :
    ∃ i, FailsAt ts i e ∧ (∀ other, ts.take (i + 1) <+: other → FailsAt other i e) ∧
      StartsProgram (ts.take i) := by
  rw [program_eq_of_numbered hend] at h
  cases hnumbered : program (numbered ts) with
  | ok statements => simp [hnumbered] at h
  | error failure =>
      rw [hnumbered] at h
      cases failure with
      | noSigil target => cases h
      | unexpected e' =>
          cases h
          obtain ⟨before, after, hbefore, haborts⟩ :=
            exists_of_program_eq_error (hasEnd_numbered hend) hnumbered
          have hhere := failsAt_of_numbered hbefore hnumbered
          refine ⟨before.length, hhere, fun other hother => ?_, haborts.startsProgram hbefore⟩
          have hfront : numbered ts = (before ++ [e'.token]) ++ after := by simp [hbefore]
          obtain ⟨after', hafter'⟩ := numbered_of_begins hfront (by simpa using hother)
          refine ⟨getElem?_of_begins hother (Nat.lt_succ_self _) hhere.1, ?_⟩
          rw [hafter', List.append_assoc, List.singleton_append, haborts.certain]
          exact hnumbered.symm.trans hhere.2

/-- The tokens of `spill x + + x`, in which the impossible token looks like the one before it. -/
def plusAfterPlus : List Token :=
  [.spill, .identifier, .plus, .plus, .identifier, .endOfFile].map typical

/-- The second plus is the impossible one. -/
example : FailsAt plusAfterPlus 3 ⟨typical .plus, .expression⟩ := ⟨rfl, by cbv⟩

/-- After a variable without a sigil the missing word is reported, and with that word and a value
after it, the missing sigil. -/
example :
    let target : Token := ⟨.sigilIdentifier, "", .absent, 1⟩
    let last := typical .endOfFile
    program [target, last] = .error (.unexpected ⟨last, .asInDeclaration⟩) ∧
      program [target, typical .asWord, typical .ghosted, last] = .error (.noSigil target) := by
  constructor <;> cbv

end Slang.Parser
