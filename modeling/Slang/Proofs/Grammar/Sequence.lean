import Slang.Proofs.Grammar.Complete

/-!
# Programs in a row

The tokens of a program in which every block is closed may be put in front of the tokens of another
one.  Together they are parsed as the statements of the first and then those of the second, unless
the second starts with a minus: that would go on with an expression.
-/

namespace Slang.Grammar

open Slang.Parser

/-- A statement that is read starts with a token of a kind that statements start with. -/
theorem startsStatement_of_read
    {t : Token} {ts rest : List Token} {node : Node}
    (h : plain (statement (t :: ts)) = .ok (node, rest)) : startsStatement t.kind = true := by
  obtain ⟨used, hused, clause⟩ := statementSound _ node rest h
  obtain ⟨tokens, hspelled, hcut⟩ := clause.spelled
  obtain ⟨first, later, rfl, hstarts, -⟩ := hspelled.head
  obtain ⟨more, rfl, -⟩ := hcut.head (not_closes_of_startsStatement hstarts)
  obtain ⟨rfl, -⟩ := List.cons.inj hused
  exact hstarts

theorem program_of_statement_ok
    {ts rest : List Token} {node : Node} (h : plain (statement ts) = .ok (node, rest)) :
    program ts = (program rest).bind fun others => .ok (node :: others) := by
  cases ts with
  | nil =>
      rw [plain_statement_nil] at h
      cases h
  | cons t later =>
      have hend : t.kind ≠ .endOfFile := by
        intro hkind
        have hstarts := startsStatement_of_read h
        simp [hkind, startsStatement, startsExpression] at hstarts
      rw [program_cons, if_neg hend, h]
      rfl

/-- What a program is read from starts with a statement or is at its end. -/
theorem next_of_program
    {rest : List Token} {statements : List Node} (h : program rest = .ok statements)
    (hminus : ∀ t ∈ rest.head?, t.kind ≠ .minus) : Next [] rest := by
  intro t ht
  obtain ⟨later, rfl⟩ : ∃ later, rest = t :: later := List.head?_eq_some_iff.mp ht
  by_cases hend : t.kind = .endOfFile
  · exact .inr (.inr hend)
  · rw [program_cons, if_neg hend, bind_eq_ok] at h
    obtain ⟨⟨first, afterFirst⟩, hfirst, -⟩ := h
    exact .inl ⟨startsStatement_of_read hfirst, fun hkind => absurd hkind (hminus t ht)⟩

theorem next_append
    {later : List Node} {inner rest : List Token} (hspelled : SpellsAll later inner)
    (hrest : Next [] rest) : Next later (inner ++ rest) := by
  cases hspelled with
  | nil => exact hrest
  | cons hnode hlater =>
      obtain ⟨first, more, rfl, hstarts, hminus⟩ := hnode.head
      rintro t ⟨⟩
      exact .inl ⟨hstarts, fun hkind => ⟨_, rfl, hminus hkind⟩⟩

/-- The tokens of a program whose blocks are all closed are read in front of any tokens that do not
go on with it. -/
theorem program_append_eq
    {first : List Node} {tokens rest : List Token} (hcanonical : CanonicalAll first)
    (hspelled : SpellsAll first tokens) (hrest : Next [] rest) :
    program (tokens ++ rest) = (program rest).bind fun later => .ok (first ++ later) := by
  induction first generalizing tokens with
  | nil =>
      cases hspelled
      rw [List.nil_append]
      cases program rest with
      | error e => rfl
      | ok later => rfl
  | cons node others ih =>
      cases hspelled with
      | @cons _ _ own inner hnode hothers =>
          have hnext := next_append hothers hrest
          have hread := hnode.reads hcanonical.1 own (inner ++ rest) (.refl own _)
            (.of_next hcanonical hnext)
          rw [List.append_assoc, program_of_statement_ok hread, ih hcanonical.2.2 hothers]
          cases program rest with
          | error e => rfl
          | ok later => rfl

/-- The statements of a program whose blocks are all closed come before those of the next one. -/
theorem program_append
    {first later : List Node} {tokens rest : List Token} (hcanonical : CanonicalAll first)
    (hspelled : SpellsAll first tokens) (hrest : program rest = .ok later)
    (hminus : ∀ t ∈ rest.head?, t.kind ≠ .minus) :
    program (tokens ++ rest) = .ok (first ++ later) := by
  rw [program_append_eq hcanonical hspelled (next_of_program hrest hminus), hrest]
  rfl

end Slang.Grammar
