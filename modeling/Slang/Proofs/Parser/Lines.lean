import Slang.Proofs.Parser.Error

/-!
# The parser looks at no line

Tokens may be moved to other lines before they are parsed.  The tree is then the same, with its
marks on the new lines, and a failure is about the same token on its new line.  This needs an end
mark among the tokens: without one the parser reports a token of its own that stands on no line.
-/

namespace Slang

/-! ## Moving to other lines -/

/-- The line of a mark after lines have been renumbered.  What is no number stays as it is. -/
def Json.movedLine (f : Nat → Nat) : Json → Json
  | .integer line => .integer (f line.toNat)
  | other => other

/-- The token on its new line. -/
def Token.moved (f : Nat → Nat) (t : Token) : Token :=
  { t with line := f t.line }

/-- The mark on its new line. -/
def Mark.moved (f : Nat → Nat) (m : Mark) : Mark :=
  { m with line := m.line.movedLine f }

namespace Node

mutual

/-- The tree with all its marks on their new lines. -/
def moved (f : Nat → Nat) : Node → Node
  | .absent => .absent
  | .number mark => .number (mark.moved f)
  | .text mark => .text (mark.moved f)
  | .character mark => .character (mark.moved f)
  | .boolean mark => .boolean (mark.moved f)
  | .ghosted => .ghosted
  | .identifier mark => .identifier (mark.moved f)
  | .group inner => .group (moved f inner)
  | .unary operator operand => .unary (operator.moved f) (moved f operand)
  | .binary left operator right => .binary (moved f left) (operator.moved f) (moved f right)
  | .spill value => .spill (moved f value)
  | .expression value => .expression (moved f value)
  | .declaration sigil name value => .declaration sigil (name.moved f) (moved f value)
  | .assignment name value => .assignment (name.moved f) (moved f value)
  | .block body => .block (movedAll f body)
  | .conditional condition consequent alternative =>
    .conditional (moved f condition) (moved f consequent) (moved f alternative)
  | .listen prompt target => .listen prompt (target.moved f)

/-- Statements with all their marks on their new lines. -/
def movedAll (f : Nat → Nat) : List Node → List Node
  | [] => []
  | node :: later => moved f node :: movedAll f later

end

end Node

/-- The error at the token on its new line. -/
def ParseError.moved (f : Nat → Nat) (e : ParseError) : ParseError :=
  ⟨e.token.moved f, e.expected⟩

/-- The failure about the token on its new line. -/
def ParseFailure.moved (f : Nat → Nat) : ParseFailure → ParseFailure
  | .unexpected e => .unexpected (e.moved f)
  | .noSigil target => .noSigil (target.moved f)

variable (f : Nat → Nat)

@[simp] theorem Token.moved_kind (t : Token) : (t.moved f).kind = t.kind := rfl

@[simp] theorem Token.moved_literal (t : Token) : (t.moved f).literal = t.literal := rfl

@[simp] theorem Token.moved_line (t : Token) : (t.moved f).line = f t.line := rfl

@[simp] theorem Token.mark_moved (t : Token) : (t.moved f).mark = t.mark.moved f := by
  simp [Token.moved, Token.mark, Mark.moved, Json.movedLine]

namespace Parser

theorem declaredName_moved (t : Token) :
    declaredName (t.moved f) = (declaredName t).moved f := rfl

theorem declaredSigil_moved (t : Token) :
    declaredSigil (t.moved f) = (declaredSigil t).mapError (·.moved f) := by
  unfold declaredSigil
  dsimp only [Token.moved]
  cases t.lexeme.toList with
  | nil => rfl
  | cons sigil name => rfl

theorem leaf?_moved (t : Token) : leaf? (t.moved f) = (leaf? t).map (Node.moved f) := by
  unfold leaf?
  rw [Token.mark_moved, Token.moved_kind]
  split <;> simp [Node.moved]

theorem startsWith_moved (kind : Token.Kind) (ts : List Token) :
    startsWith kind (ts.map (·.moved f)) = startsWith kind ts := by
  cases ts with
  | nil => rfl
  | cons t later => rfl

/-! ## Results of reading moved tokens -/

/-- A result with everything in it on its new line. -/
def movedResult {α : Type} (move : α → α) :
    Except ParseFailure (α × List Token) → Except ParseFailure (α × List Token)
  | .ok found => .ok (move found.1, found.2.map (·.moved f))
  | .error failure => .error (failure.moved f)

/-- The second result, that of reading the moved tokens, is the first one moved.  The end mark has
not been read. -/
def Commutes {α : Type} (move : α → α) (ts : List Token)
    (result other : Except ParseFailure (α × List Token)) : Prop :=
  HasEnd ts →
    other = movedResult f move result ∧ ∀ found, result = .ok found → HasEnd found.2

section Combining

variable {f} {α β : Type} {ts : List Token} {move : α → α}

theorem commutes_nil (result other : Except ParseFailure (α × List Token)) :
    Commutes f move [] result other := by
  rintro ⟨t, ht, -⟩
  cases ht

theorem commutes_same (a : α) {b : α} (h : move a = b) :
    Commutes f move ts (.ok (a, ts)) (.ok (b, ts.map (·.moved f))) := by
  intro hend
  constructor
  · rw [← h]
    rfl
  · rintro found ⟨⟩
    exact hend

theorem commutes_error (failure : ParseFailure) :
    Commutes f move ts (.error failure) (.error (failure.moved f)) :=
  fun _ => ⟨rfl, by simp⟩

theorem Commutes.cons
    {t : Token} {result other : Except ParseFailure (α × List Token)}
    (h : Commutes f move ts result other) (ht : t.kind ≠ .endOfFile) :
    Commutes f move (t :: ts) result other :=
  fun hend => h (hend.tail ht)

theorem Commutes.bind
    {p : List Token → Prop} {x : Except ParseFailure (α × Subtype p)}
    {other : Except ParseFailure (α × List Token)} {move' : β → β}
    {next next' : α × List Token → Except ParseFailure (β × List Token)}
    (h : Commutes f move ts (plain x) other)
    (hnext : ∀ a (rest : Subtype p), Commutes f move' rest.val (next (a, rest.val))
      (next' (move a, rest.val.map (·.moved f)))) :
    Commutes f move' ts ((plain x).bind next) (other.bind next') := by
  intro hend
  obtain ⟨rfl, hrest⟩ := h hend
  cases x with
  | error e => exact ⟨rfl, by simp [plain, Except.map, Except.bind]⟩
  | ok found => exact hnext found.1 found.2 (hrest _ rfl)

end Combining

theorem commutes_expect
    {kind : Token.Kind} (expected : Expectation) (ts : List Token) (hkind : kind ≠ .endOfFile) :
    Commutes f (·.moved f) ts (plain (expect kind expected ts))
      (plain (expect kind expected (ts.map (·.moved f)))) := by
  cases ts with
  | nil => exact commutes_nil _ _
  | cons t later =>
      rw [List.map_cons, plain_expect_cons, plain_expect_cons, Token.moved_kind]
      by_cases ht : t.kind = kind
      · rw [if_pos ht, if_pos ht]
        apply Commutes.cons (commutes_same t rfl)
        rwa [ht]
      · rw [if_neg ht, if_neg ht]
        exact commutes_error (.unexpected ⟨t, expected⟩)

/-! ## Expressions -/

theorem commutes_binary (rank : Nat) (ts : List Token) :
    Commutes f (Node.moved f) ts (plain (binary rank ts))
      (plain (binary rank (ts.map (·.moved f)))) := by
  have hall := binary.mutual_induct
    (fun rank ts => Commutes f (Node.moved f) ts (plain (binary rank ts))
      (plain (binary rank (ts.map (·.moved f)))))
    (fun rank left ts => Commutes f (Node.moved f) ts (plain (chain rank left ts))
      (plain (chain rank (left.moved f) (ts.map (·.moved f)))))
    (fun ts => Commutes f (Node.moved f) ts (plain (unary ts)) (plain (unary (ts.map (·.moved f)))))
    (fun base ts => Commutes f (Node.moved f) ts (plain (power base ts))
      (plain (power (base.moved f) (ts.map (·.moved f)))))
    (fun ts => Commutes f (Node.moved f) ts (plain (primary ts))
      (plain (primary (ts.map (·.moved f)))))
    ?_ ?_ ?_ ?_ ?_ ?_ ?_ ?_ ?_ ?_ ?_ ?_ ?_ ?_ ?_
  · exact hall.1 rank ts
  · intro ts hunary
    rwa [plain_binary_zero, plain_binary_zero]
  · intro ts rank hbinary hchain
    rw [plain_binary_succ, plain_binary_succ]
    exact hbinary.bind hchain
  · intro rank left
    exact commutes_nil _ _
  · intro rank left t ts hrank hbinary hchain
    rw [List.map_cons, plain_chain_cons, plain_chain_cons, Token.moved_kind, if_pos hrank,
      if_pos hrank]
    apply Commutes.cons _ (ne_endOfFile_of_rank? hrank)
    refine hbinary.bind fun right rest => ?_
    simpa [Node.moved] using hchain right rest
  · intro rank left t ts hrank
    rw [List.map_cons, plain_chain_cons, plain_chain_cons, Token.moved_kind, if_neg hrank,
      if_neg hrank]
    exact commutes_same left rfl
  · exact commutes_nil _ _
  · intro t ts hsign hunary
    rw [List.map_cons, plain_unary_cons, plain_unary_cons, Token.moved_kind, if_pos hsign,
      if_pos hsign]
    apply Commutes.cons _ (ne_endOfFile_of_isSign hsign)
    refine hunary.bind fun operand rest => ?_
    exact commutes_same _ (by simp [Node.moved])
  · intro t ts hsign hprimary hpower
    rw [List.map_cons, plain_unary_cons, plain_unary_cons, Token.moved_kind, if_neg hsign,
      if_neg hsign]
    exact hprimary.bind hpower
  · intro base
    exact commutes_nil _ _
  · intro base t ts hkind hunary
    rw [List.map_cons, plain_power_cons, plain_power_cons, Token.moved_kind, if_pos hkind,
      if_pos hkind]
    apply Commutes.cons _ (by simp [hkind])
    refine hunary.bind fun exponent rest => ?_
    exact commutes_same _ (by simp [Node.moved])
  · intro base t ts hkind
    rw [List.map_cons, plain_power_cons, plain_power_cons, Token.moved_kind, if_neg hkind,
      if_neg hkind]
    exact commutes_same base rfl
  · exact commutes_nil _ _
  · intro t ts leaf hleaf
    rw [List.map_cons, plain_primary_cons, plain_primary_cons, leaf?_moved, hleaf]
    exact Commutes.cons (commutes_same leaf rfl) (ne_endOfFile_of_leaf? hleaf)
  · intro t ts hleaf hkind hbinary
    rw [List.map_cons, plain_primary_cons, plain_primary_cons, leaf?_moved, hleaf]
    dsimp only [Option.map_none]
    rw [Token.moved_kind, if_pos hkind, if_pos hkind]
    apply Commutes.cons _ (by simp [hkind])
    refine hbinary.bind fun inner rest => ?_
    refine (commutes_expect f .closingParen rest.val (by simp)).bind fun closing rest => ?_
    exact commutes_same _ (by simp [Node.moved])
  · intro t ts hleaf hkind
    rw [List.map_cons, plain_primary_cons, plain_primary_cons, leaf?_moved, hleaf]
    dsimp only [Option.map_none]
    rw [Token.moved_kind, if_neg hkind, if_neg hkind]
    exact commutes_error (.unexpected ⟨t, .expression⟩)

theorem commutes_expression (ts : List Token) :
    Commutes f (Node.moved f) ts (plain (expression ts))
      (plain (expression (ts.map (·.moved f)))) :=
  commutes_binary f loosest ts

/-! ## Statements -/

theorem commutes_declaration (target : Token) (ts : List Token) :
    Commutes f (Node.moved f) ts (plain (declaration target ts))
      (plain (declaration (target.moved f) (ts.map (·.moved f)))) := by
  rw [plain_declaration, plain_declaration]
  refine (commutes_expect f .asInDeclaration ts (by simp)).bind fun word rest => ?_
  refine (commutes_expression f rest.val).bind fun value rest => ?_
  rw [declaredName_moved, declaredSigil_moved, Token.mark_moved]
  cases declaredSigil target with
  | error failure => exact commutes_error failure
  | ok sigil => exact commutes_same _ (by simp [Node.moved])

theorem commutes_assignment (target : Token) (ts : List Token) :
    Commutes f (Node.moved f) ts (plain (assignment target ts))
      (plain (assignment (target.moved f) (ts.map (·.moved f)))) := by
  rw [plain_assignment, plain_assignment]
  refine (commutes_expect f .asInAssignment ts (by simp)).bind fun word rest => ?_
  refine (commutes_expression f rest.val).bind fun value rest => ?_
  exact commutes_same _ (by simp [Node.moved])

theorem commutes_listen (ts : List Token) :
    Commutes f (Node.moved f) ts (plain (listen ts)) (plain (listen (ts.map (·.moved f)))) := by
  rw [plain_listen, plain_listen]
  refine (commutes_expect f .prompt ts (by simp)).bind fun prompt rest => ?_
  refine (commutes_expect f .asAfterPrompt rest.val (by simp)).bind fun word rest => ?_
  refine (commutes_expect f .inputVariable rest.val (by simp)).bind fun target rest => ?_
  exact commutes_same _ (by simp [Node.moved])

theorem commutes_statement (ts : List Token) :
    Commutes f (Node.moved f) ts (plain (statement ts))
      (plain (statement (ts.map (·.moved f)))) := by
  have hall := statement.mutual_induct
    (fun ts => Commutes f (Node.moved f) ts (plain (statement ts))
      (plain (statement (ts.map (·.moved f)))))
    (fun ts => Commutes f (Node.moved f) ts (plain (alternative ts))
      (plain (alternative (ts.map (·.moved f)))))
    (fun ts => Commutes f (Node.movedAll f) ts (plain (block ts))
      (plain (block (ts.map (·.moved f)))))
    ?_ ?_ ?_ ?_ ?_ ?_ ?_ ?_ ?_ ?_ ?_ ?_ ?_ ?_ ?_ ?_
  · exact hall.1 ts
  · exact commutes_nil _ _
  · intro t ts hkind
    rw [List.map_cons, plain_statement_spill ts hkind,
      plain_statement_spill (t := t.moved f) _ hkind]
    apply Commutes.cons _ (by simp [hkind])
    refine (commutes_expression f ts).bind fun value rest => ?_
    exact commutes_same _ (by simp [Node.moved])
  · intro t ts hkind
    rw [List.map_cons, plain_statement_listen ts hkind,
      plain_statement_listen (t := t.moved f) _ hkind]
    exact (commutes_listen f ts).cons (by simp [hkind])
  · intro t ts hkind
    rw [List.map_cons, plain_statement_tea ts hkind,
      plain_statement_tea (t := t.moved f) _ hkind]
    apply Commutes.cons _ (by simp [hkind])
    refine (commutes_expect f .sigilVariable ts (by simp)).bind fun target rest => ?_
    exact commutes_declaration f target rest.val
  · intro t ts hkind
    rw [List.map_cons, plain_statement_sigil ts hkind,
      plain_statement_sigil (t := t.moved f) _ hkind]
    exact (commutes_declaration f t ts).cons (by simp [hkind])
  · intro t ts hkind hblock
    rw [List.map_cons, plain_statement_colon ts hkind,
      plain_statement_colon (t := t.moved f) _ hkind]
    apply Commutes.cons _ (by simp [hkind])
    refine hblock.bind fun body rest => ?_
    exact commutes_same _ (by simp [Node.moved])
  · intro t ts hkind hstatement halternative
    rw [List.map_cons, plain_statement_bet ts hkind,
      plain_statement_bet (t := t.moved f) _ hkind]
    apply Commutes.cons _ (by simp [hkind])
    refine (commutes_expression f ts).bind fun condition rest => ?_
    refine (hstatement rest).bind fun consequent later => ?_
    refine (halternative rest later).bind fun otherwise rest => ?_
    exact commutes_same _ (by simp [Node.moved])
  · intro t ts hspill hlisten htea hsigil hcolon hbet hassign
    have hopener := isOpener_eq_false hspill hlisten htea hsigil hcolon hbet
    have hassign' : t.kind = .identifier ∧ startsWith .asWord ts = true := by simpa using hassign
    rw [List.map_cons, plain_statement_other ts hopener,
      plain_statement_other (t := t.moved f) _ hopener, startsWith_moved, Token.moved_kind,
      if_pos hassign', if_pos hassign']
    exact (commutes_assignment f t ts).cons (by simp [hassign'.1])
  · intro t ts hspill hlisten htea hsigil hcolon hbet hassign
    have hopener := isOpener_eq_false hspill hlisten htea hsigil hcolon hbet
    have hassign' : ¬(t.kind = .identifier ∧ startsWith .asWord ts = true) := by
      simpa using hassign
    rw [List.map_cons, plain_statement_other ts hopener,
      plain_statement_other (t := t.moved f) _ hopener, startsWith_moved, Token.moved_kind,
      if_neg hassign', if_neg hassign']
    refine (commutes_expression f (t :: ts)).bind fun value rest => ?_
    exact commutes_same _ (by simp [Node.moved])
  · exact commutes_nil _ _
  · intro t ts hkind hstatement
    rw [List.map_cons, plain_alternative_cons, plain_alternative_cons, Token.moved_kind,
      if_pos hkind, if_pos hkind]
    exact hstatement.cons (by simp [hkind])
  · intro t ts hkind
    rw [List.map_cons, plain_alternative_cons, plain_alternative_cons, Token.moved_kind,
      if_neg hkind, if_neg hkind]
    exact commutes_same _ (by simp [Node.moved])
  · exact commutes_nil _ _
  · intro t ts hkind
    rw [List.map_cons, plain_block_cons, plain_block_cons, Token.moved_kind, if_pos hkind,
      if_pos hkind]
    exact Commutes.cons (commutes_same [] (by simp [Node.movedAll]))
      (ne_endOfFile_of_isTerminator hkind)
  · intro t ts hterminator hend
    rw [List.map_cons, plain_block_cons, plain_block_cons, Token.moved_kind, if_neg hterminator,
      if_neg hterminator, if_pos hend, if_pos hend]
    exact commutes_same [] (by simp [Node.movedAll])
  · intro t ts hterminator hend hstatement hblock
    rw [List.map_cons, plain_block_cons, plain_block_cons, Token.moved_kind, if_neg hterminator,
      if_neg hterminator, if_neg hend, if_neg hend]
    refine hstatement.bind fun first rest => ?_
    refine (hblock rest).bind fun others rest => ?_
    exact commutes_same _ (by simp [Node.movedAll])

/-! ## Programs -/

/-- A program is read, or given up, in the same way on any lines. -/
theorem program_moved {ts : List Token} (hend : HasEnd ts) :
    program (ts.map (·.moved f)) =
      match program ts with
      | .ok statements => .ok (Node.movedAll f statements)
      | .error failure => .error (failure.moved f) := by
  induction ts using program.induct with
  | case1 =>
      obtain ⟨t, ht, -⟩ := hend
      cases ht
  | case2 t later hkind =>
      rw [List.map_cons, program_cons, program_cons, Token.moved_kind, if_pos hkind, if_pos hkind]
      rfl
  | case3 t later hkind ih =>
      obtain ⟨hmoved, hrest⟩ := commutes_statement f (t :: later) hend
      rw [List.map_cons] at hmoved
      rw [List.map_cons, program_cons, program_cons, Token.moved_kind, if_neg hkind, if_neg hkind,
        hmoved]
      cases hfirst : plain (statement (t :: later)) with
      | error e => rfl
      | ok found =>
          obtain ⟨shorter, hstatement, hshorter⟩ := exists_of_plain_eq_ok hfirst
          have hothers := ih shorter (hshorter ▸ hrest found hfirst)
          simp only [movedResult, Except.bind, ← hshorter, hothers]
          cases program shorter.val with
          | error e => rfl
          | ok others => rfl

end Parser

end Slang
