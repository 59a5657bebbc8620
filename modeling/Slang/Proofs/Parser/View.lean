import Slang.Tree.Parser.Statement

/-!
# The parser without its length proofs

The parsing functions return the rest of the tokens together with a proof that it is shorter.  That
proof makes their recursion end and says nothing else.  Here every function gets an equation for
its plain result, in which the rest is a list and nothing more.  All later statements about parsing
are proved from these equations.
-/

namespace Slang.Parser

/-- What a parsing function gives, without the proof that it has read some tokens. -/
def plain {α : Type} {p : List Token → Prop}
    (result : Except ParseFailure (α × Subtype p)) : Except ParseFailure (α × List Token) :=
  result.map fun found => (found.1, found.2.val)

theorem bind_eq_ok
    {ε α β : Type} {x : Except ε α} {f : α → Except ε β} {b : β} :
    x.bind f = .ok b ↔ ∃ a, x = .ok a ∧ f a = .ok b := by
  cases x with
  | error e => simp [Except.bind]
  | ok a => simp [Except.bind]

theorem bind_eq_error
    {ε α β : Type} {x : Except ε α} {f : α → Except ε β} {e : ε} :
    x.bind f = .error e ↔ x = .error e ∨ ∃ a, x = .ok a ∧ f a = .error e := by
  cases x with
  | error e' => simp [Except.bind]
  | ok a => simp [Except.bind]

section Sequencing

variable {α β : Type} {p q : List Token → Prop}

theorem plain_bind
    (x : Except ParseFailure (α × Subtype p))
    {f : α × Subtype p → Except ParseFailure (β × Subtype q)}
    {g : α × List Token → Except ParseFailure (β × List Token)}
    (hfg : ∀ found, plain (f found) = g (found.1, found.2.val)) :
    plain (x >>= f) = (plain x).bind g := by
  cases x with
  | error e => rfl
  | ok found => exact hfg found

theorem plain_bind_same
    (x : Except ParseFailure (α × Subtype p))
    {f : α × Subtype p → Except ParseFailure (α × Subtype q)}
    (hf : ∀ found, plain (f found) = .ok (found.1, found.2.val)) :
    plain (x >>= f) = plain x := by
  cases x with
  | error e => rfl
  | ok found => exact hf found

/-- A result that is known without its proof was there with one. -/
theorem exists_of_plain_eq_ok
    {x : Except ParseFailure (α × Subtype p)} {a : α} {rest : List Token}
    (h : plain x = .ok (a, rest)) :
    ∃ found : Subtype p, x = .ok (a, found) ∧ found.val = rest := by
  cases x with
  | error e => simp [plain, Except.map] at h
  | ok found =>
      obtain ⟨b, r⟩ := found
      simp only [plain, Except.map, Except.ok.injEq, Prod.mk.injEq] at h
      obtain ⟨rfl, rfl⟩ := h
      exact ⟨r, rfl, rfl⟩

end Sequencing

/-! ## Expressions -/

theorem plain_expect_cons
    (kind : Token.Kind) (expected : Expectation) (t : Token) (ts : List Token) :
    plain (expect kind expected (t :: ts)) =
      if t.kind = kind then .ok (t, ts) else .error (.unexpected ⟨t, expected⟩) := by
  by_cases h : t.kind = kind
  · simp [plain, expect, h, Except.map, Remaining.all, Remaining.widen]
  · simp [plain, expect, h, Except.map]

/-- An expected token is the first one, and it is of the expected kind. -/
theorem eq_cons_of_plain_expect
    {kind : Token.Kind} {expected : Expectation} {ts : List Token} {t : Token} {rest : List Token}
    (h : plain (expect kind expected ts) = .ok (t, rest)) :
    t.kind = kind ∧ ts = t :: rest := by
  cases ts with
  | nil => cases h
  | cons first later =>
      rw [plain_expect_cons] at h
      split at h
      · cases h
        exact ⟨‹_›, rfl⟩
      · cases h

theorem plain_binary_zero (ts : List Token) :
    plain (binary 0 ts) = plain (unary ts) := by
  rw [binary]

theorem plain_binary_succ (rank : Nat) (ts : List Token) :
    plain (binary (rank + 1) ts) =
      (plain (binary rank ts)).bind fun left => plain (chain rank left.1 left.2) := by
  rw [binary]
  exact plain_bind _ fun left => plain_bind_same _ fun _ => rfl

theorem plain_chain_nil (rank : Nat) (left : Node) :
    plain (chain rank left []) = .ok (left, []) := by
  rw [chain]
  rfl

theorem plain_chain_cons
    (rank : Nat) (left : Node) (t : Token) (ts : List Token) :
    plain (chain rank left (t :: ts)) =
      if rank? t.kind = some (rank + 1) then
        (plain (binary rank ts)).bind fun right =>
          plain (chain rank (.binary left t.mark right.1) right.2)
      else .ok (left, t :: ts) := by
  rw [chain]
  split
  · exact plain_bind _ fun right => plain_bind_same _ fun _ => rfl
  · rfl

theorem plain_unary_nil : plain (unary []) = .error (.unexpected ⟨missing, .expression⟩) := by
  rw [unary]
  rfl

theorem plain_unary_cons (t : Token) (ts : List Token) :
    plain (unary (t :: ts)) =
      if isSign t.kind then
        (plain (unary ts)).bind fun operand => .ok (.unary t.mark operand.1, operand.2)
      else (plain (primary (t :: ts))).bind fun base => plain (power base.1 base.2) := by
  rw [unary]
  split
  · exact plain_bind _ fun _ => rfl
  · exact plain_bind _ fun base => plain_bind_same _ fun _ => rfl

theorem plain_power_nil (base : Node) : plain (power base []) = .ok (base, []) := by
  rw [power]
  rfl

theorem plain_power_cons (base : Node) (t : Token) (ts : List Token) :
    plain (power base (t :: ts)) =
      if t.kind = .power then
        (plain (unary ts)).bind fun exponent =>
          .ok (.binary base t.mark exponent.1, exponent.2)
      else .ok (base, t :: ts) := by
  rw [power]
  split
  · exact plain_bind _ fun _ => rfl
  · rfl

theorem plain_primary_nil : plain (primary []) = .error (.unexpected ⟨missing, .expression⟩) := by
  rw [primary]
  rfl

theorem plain_primary_cons (t : Token) (ts : List Token) :
    plain (primary (t :: ts)) =
      match leaf? t with
      | some e => .ok (e, ts)
      | none =>
        if t.kind = .leftParen then
          (plain (binary loosest ts)).bind fun inner =>
            (plain (expect .rightParen .closingParen inner.2)).bind fun closing =>
              .ok (.group inner.1, closing.2)
        else .error (.unexpected ⟨t, .expression⟩) := by
  rw [primary]
  cases leaf? t with
  | some e => rfl
  | none =>
      dsimp only
      split
      · refine plain_bind _ fun inner => ?_
        exact plain_bind _ fun _ => rfl
      · rfl

/-! ## Sigils -/

theorem declaredSigil_of_head? {t : Token} {sigil : Char} (h : t.lexeme.toList.head? = some sigil) :
    declaredSigil t = .ok (String.singleton sigil) := by
  obtain ⟨name, hname⟩ := List.head?_eq_some_iff.mp h
  rw [declaredSigil, hname]

theorem head?_of_declaredSigil {t : Token} {sigil : String} (h : declaredSigil t = .ok sigil) :
    ∃ c, t.lexeme.toList.head? = some c ∧ sigil = String.singleton c := by
  cases hname : t.lexeme.toList with
  | nil => simp [declaredSigil, hname] at h
  | cons c name =>
      refine ⟨c, rfl, ?_⟩
      simpa [declaredSigil, hname, eq_comm] using h

theorem exists_head?_iff {t : Token} :
    (∃ sigil, t.lexeme.toList.head? = some sigil) ↔ t.lexeme ≠ "" := by
  rw [← Option.isSome_iff_exists, List.isSome_head?]
  simp

theorem declaredSigil_eq_error_iff {t : Token} {failure : ParseFailure} :
    declaredSigil t = .error failure ↔ t.lexeme = "" ∧ failure = .noSigil t := by
  cases hname : t.lexeme.toList with
  | nil =>
      have hempty : t.lexeme = "" := by simpa using hname
      simp [declaredSigil, hempty, eq_comm]
  | cons c name =>
      have hne : t.lexeme ≠ "" := exists_head?_iff.mp ⟨c, by simp [hname]⟩
      simp [declaredSigil, hname, hne]

/-! ## Statements -/

theorem plain_declaration (target : Token) (ts : List Token) :
    plain (declaration target ts) =
      (plain (expect .asWord .asInDeclaration ts)).bind fun word =>
        (plain (expression word.2)).bind fun value =>
          (declaredSigil target).bind fun sigil =>
            .ok (.declaration (.text sigil) (declaredName target).mark value.1, value.2) := by
  rw [declaration]
  refine plain_bind _ fun word => ?_
  refine plain_bind _ fun value => ?_
  cases declaredSigil target with
  | error failure => rfl
  | ok sigil => rfl

theorem plain_assignment (target : Token) (ts : List Token) :
    plain (assignment target ts) =
      (plain (expect .asWord .asInAssignment ts)).bind fun word =>
        (plain (expression word.2)).bind fun value =>
          .ok (.assignment target.mark value.1, value.2) := by
  rw [assignment]
  refine plain_bind _ fun word => ?_
  exact plain_bind _ fun _ => rfl

theorem plain_listen (ts : List Token) :
    plain (listen ts) =
      (plain (expect .text .prompt ts)).bind fun prompt =>
        (plain (expect .asWord .asAfterPrompt prompt.2)).bind fun word =>
          (plain (expect .sigilIdentifier .inputVariable word.2)).bind fun target =>
            .ok (.listen prompt.1.literal.toJson target.1.mark, target.2) := by
  rw [listen]
  refine plain_bind _ fun prompt => ?_
  refine plain_bind _ fun word => ?_
  exact plain_bind _ fun _ => rfl

theorem plain_statement_nil :
    plain (statement []) = .error (.unexpected ⟨missing, .expression⟩) := by
  rw [statement]
  rfl

/-- The kinds that decide by themselves what a statement is. -/
def isOpener : Token.Kind → Bool
  | .spill | .listen | .tea | .sigilIdentifier | .colon | .bet => true
  | _ => false

theorem isOpener_eq_false
    {kind : Token.Kind} (hspill : kind ≠ .spill) (hlisten : kind ≠ .listen) (htea : kind ≠ .tea)
    (hsigil : kind ≠ .sigilIdentifier) (hcolon : kind ≠ .colon) (hbet : kind ≠ .bet) :
    isOpener kind = false := by
  cases kind <;> simp_all [isOpener]

section Openers

variable {t : Token} (ts : List Token)

theorem plain_statement_spill (h : t.kind = .spill) :
    plain (statement (t :: ts)) =
      (plain (expression ts)).bind fun value => .ok (.spill value.1, value.2) := by
  rw [statement]
  simp only [h]
  exact plain_bind _ fun _ => rfl

theorem plain_statement_listen (h : t.kind = .listen) :
    plain (statement (t :: ts)) = plain (listen ts) := by
  rw [statement]
  simp only [h]
  exact plain_bind_same _ fun _ => rfl

theorem plain_statement_tea (h : t.kind = .tea) :
    plain (statement (t :: ts)) =
      (plain (expect .sigilIdentifier .sigilVariable ts)).bind fun target =>
        plain (declaration target.1 target.2) := by
  rw [statement]
  simp only [h]
  exact plain_bind _ fun target => plain_bind_same _ fun _ => rfl

theorem plain_statement_sigil (h : t.kind = .sigilIdentifier) :
    plain (statement (t :: ts)) = plain (declaration t ts) := by
  rw [statement]
  simp only [h]
  exact plain_bind_same _ fun _ => rfl

theorem plain_statement_colon (h : t.kind = .colon) :
    plain (statement (t :: ts)) =
      (plain (block ts)).bind fun body => .ok (.block body.1, body.2) := by
  rw [statement]
  simp only [h]
  exact plain_bind _ fun _ => rfl

theorem plain_statement_bet (h : t.kind = .bet) :
    plain (statement (t :: ts)) =
      (plain (expression ts)).bind fun condition =>
        (plain (statement condition.2)).bind fun consequent =>
          (plain (alternative consequent.2)).bind fun otherwise =>
            .ok (.conditional condition.1 consequent.1 otherwise.1, otherwise.2) := by
  rw [statement]
  simp only [h]
  refine plain_bind _ fun condition => ?_
  refine plain_bind _ fun consequent => ?_
  exact plain_bind _ fun _ => rfl

theorem plain_statement_other (h : isOpener t.kind = false) :
    plain (statement (t :: ts)) =
      if t.kind = .identifier ∧ startsWith .asWord ts = true then plain (assignment t ts)
      else
        (plain (expression (t :: ts))).bind fun value =>
          .ok (.expression value.1, value.2) := by
  rw [statement]
  split
  case h_7 =>
    simp only [Bool.and_eq_true, decide_eq_true_eq]
    split
    · exact plain_bind_same _ fun _ => rfl
    · exact plain_bind _ fun _ => rfl
  all_goals simp_all [isOpener]

end Openers

theorem plain_alternative_nil : plain (alternative []) = .ok (.absent, []) := by
  rw [alternative]
  rfl

theorem plain_alternative_cons (t : Token) (ts : List Token) :
    plain (alternative (t :: ts)) =
      if t.kind = .deadass then plain (statement ts) else .ok (.absent, t :: ts) := by
  rw [alternative]
  split
  · exact plain_bind_same _ fun _ => rfl
  · rfl

theorem plain_block_nil : plain (block []) = .ok ([], []) := by
  rw [block]
  rfl

theorem plain_block_cons (t : Token) (ts : List Token) :
    plain (block (t :: ts)) =
      if t.kind.isTerminator then .ok ([], ts)
      else if t.kind = .endOfFile then .ok ([], t :: ts)
      else
        (plain (statement (t :: ts))).bind fun first =>
          (plain (block first.2)).bind fun others => .ok (first.1 :: others.1, others.2) := by
  rw [block]
  split
  · rfl
  · split
    · rfl
    · refine plain_bind _ fun first => ?_
      exact plain_bind _ fun _ => rfl

theorem program_cons (t : Token) (ts : List Token) :
    program (t :: ts) =
      if t.kind = .endOfFile then .ok []
      else
        (plain (statement (t :: ts))).bind fun first =>
          (program first.2).bind fun others => .ok (first.1 :: others) := by
  rw [program]
  split
  · rfl
  · cases statement (t :: ts) with
    | error e => rfl
    | ok first => rfl

end Slang.Parser
