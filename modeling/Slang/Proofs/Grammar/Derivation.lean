import Slang.Proofs.Grammar.Complete

/-!
# Derivations

The grammar of programs as its users read it: one rule for each form of statement, and for
expressions one rule for each level of the operators.  A derivation says nothing about trees.

The rules leave open where one statement ends and the next one starts.  In a derivation with guards
they are read with two provisos, which settle the places where this matters: an expression that is a
statement does not start with a variable with a sigil, which would be taken for a declaration, and
the first branch of a conditional does not start with a minus, which would be taken for a part of
the condition.  A third proviso is about tokens and not about their order.  The rules ask for their
kinds only, and a declared variable is to have the sigil that its kind promises.
-/

namespace Slang.Grammar

open Slang.Parser

/-! ## The rules -/

/-- The kinds of the tokens that are expressions by themselves. -/
def isAtom : Token.Kind → Bool
  | .number | .text | .character | .fr | .cap | .ghosted | .identifier | .sigilIdentifier => true
  | _ => false

/-- The parts that expressions are made of. -/
inductive Part where
  /-- Operands with the operators of one level between them.  The levels are factor, term,
  comparison, equality, conjunction and disjunction, from 1 to 6; at level 0 there is one operand
  without operators. -/
  | chain (level : Nat)
  /-- An operand with signs in front of it. -/
  | unary
  /-- A primary expression, and an exponent if there is one. -/
  | power
  /-- A single token or an expression in parentheses. -/
  | primary

/-- The rows of tokens that are derived from a part of expressions. -/
inductive DerivesExpression : Part → List Token → Prop
  | atom {t : Token} (h : isAtom t.kind = true) : DerivesExpression .primary [t]
  | group {opening closing : Token} {tokens : List Token}
      (hopening : opening.kind = .leftParen) (hclosing : closing.kind = .rightParen)
      (hinner : DerivesExpression (.chain 6) tokens) :
      DerivesExpression .primary (opening :: (tokens ++ [closing]))
  | base {tokens : List Token} (hbase : DerivesExpression .primary tokens) :
      DerivesExpression .power tokens
  | raised {operator : Token} {base exponent : List Token}
      (hbase : DerivesExpression .primary base) (hoperator : operator.kind = .power)
      (hexponent : DerivesExpression .unary exponent) :
      DerivesExpression .power (base ++ operator :: exponent)
  | unsigned {tokens : List Token} (hpower : DerivesExpression .power tokens) :
      DerivesExpression .unary tokens
  | signed {operator : Token} {tokens : List Token} (hoperator : IsSign operator.kind)
      (hoperand : DerivesExpression .unary tokens) :
      DerivesExpression .unary (operator :: tokens)
  | operand {tokens : List Token} (hunary : DerivesExpression .unary tokens) :
      DerivesExpression (.chain 0) tokens
  | single {level : Nat} {tokens : List Token} (hchain : DerivesExpression (.chain level) tokens) :
      DerivesExpression (.chain (level + 1)) tokens
  | more {level : Nat} {operator : Token} {before after : List Token}
      (hbefore : DerivesExpression (.chain (level + 1)) before)
      (hoperator : level? operator.kind = some (level + 1))
      (hafter : DerivesExpression (.chain level) after) :
      DerivesExpression (.chain (level + 1)) (before ++ operator :: after)

/-- No token is of the given kind at the start of a row. -/
def NotFirst (kind : Token.Kind) (tokens : List Token) : Prop :=
  ∀ t ∈ tokens.head?, t.kind ≠ kind

theorem notFirst_cons {kind : Token.Kind} {t : Token} {later : List Token} :
    NotFirst kind (t :: later) ↔ t.kind ≠ kind := by
  simp [NotFirst]

theorem NotFirst.append
    {kind : Token.Kind} {tokens : List Token} (h : NotFirst kind tokens) (hne : tokens ≠ [])
    (more : List Token) : NotFirst kind (tokens ++ more) := by
  obtain ⟨t, later, rfl⟩ := List.exists_cons_of_ne_nil hne
  exact h

mutual

/-- The rows of tokens that are derived from a statement, with the tokens that come after them. -/
inductive Derives (guarded : Bool) : List Token → List Token → Prop
  | spill {word : Token} {tokens rest : List Token} (hword : word.kind = .spill)
      (hvalue : DerivesExpression (.chain 6) tokens) :
      Derives guarded (word :: tokens) rest
  | listen {listen prompt word target : Token} {rest : List Token}
      (hlisten : listen.kind = .listen) (hprompt : prompt.kind = .text)
      (hword : word.kind = .asWord) (htarget : target.kind = .sigilIdentifier) :
      Derives guarded [listen, prompt, word, target] rest
  | declaration {target word : Token} {tokens rest : List Token}
      (htarget : target.kind = .sigilIdentifier) (hword : word.kind = .asWord)
      (hvalue : DerivesExpression (.chain 6) tokens)
      (hguard : guarded = true → target.lexeme ≠ "") :
      Derives guarded (target :: word :: tokens) rest
  | teaDeclaration {tea target word : Token} {tokens rest : List Token}
      (htea : tea.kind = .tea) (htarget : target.kind = .sigilIdentifier)
      (hword : word.kind = .asWord) (hvalue : DerivesExpression (.chain 6) tokens)
      (hguard : guarded = true → target.lexeme ≠ "") :
      Derives guarded (tea :: target :: word :: tokens) rest
  | block {opening closing : Token} {body rest : List Token} (hopening : opening.kind = .colon)
      (hbody : DerivesAll guarded body (closing :: rest)) (hclosing : Closes closing.kind) :
      Derives guarded (opening :: (body ++ [closing])) rest
  /-- The end of the program closes a block as well. -/
  | openBlock {opening : Token} {body rest : List Token} (hopening : opening.kind = .colon)
      (hbody : DerivesAll guarded body rest) (hend : AtEnd rest) :
      Derives guarded (opening :: body) rest
  | conditional {bet : Token} {test first rest : List Token} (hbet : bet.kind = .bet)
      (hcondition : DerivesExpression (.chain 6) test) (hconsequent : Derives guarded first rest)
      (hguard : guarded = true → NotFirst .minus first) :
      Derives guarded (bet :: (test ++ first)) rest
  | alternative {bet deadass : Token} {test first second rest : List Token}
      (hbet : bet.kind = .bet) (hcondition : DerivesExpression (.chain 6) test)
      (hconsequent : Derives guarded first (deadass :: (second ++ rest)))
      (hguard : guarded = true → NotFirst .minus first) (hdeadass : deadass.kind = .deadass)
      (hotherwise : Derives guarded second rest) :
      Derives guarded (bet :: (test ++ (first ++ deadass :: second))) rest
  | assignment {target word : Token} {tokens rest : List Token}
      (htarget : target.kind = .identifier) (hword : word.kind = .asWord)
      (hvalue : DerivesExpression (.chain 6) tokens) :
      Derives guarded (target :: word :: tokens) rest
  | expression {tokens rest : List Token} (hvalue : DerivesExpression (.chain 6) tokens)
      (hguard : guarded = true → NotFirst .sigilIdentifier tokens) :
      Derives guarded tokens rest

/-- The rows of tokens that are derived from statements one after the other, with the tokens that
come after them. -/
inductive DerivesAll (guarded : Bool) : List Token → List Token → Prop
  | nil {rest : List Token} : DerivesAll guarded [] rest
  | cons {first others rest : List Token} (hfirst : Derives guarded first (others ++ rest))
      (hothers : DerivesAll guarded others rest) : DerivesAll guarded (first ++ others) rest

end

mutual

/-- A derivation with guards is a derivation. -/
theorem Derives.unguarded
    {guarded : Bool} {tokens rest : List Token} (h : Derives guarded tokens rest) :
    Derives false tokens rest := by
  match h with
  | .spill hword hvalue => exact .spill hword hvalue
  | .listen hlisten hprompt hword htarget => exact .listen hlisten hprompt hword htarget
  | .declaration htarget hword hvalue _ => exact .declaration htarget hword hvalue (by simp)
  | .teaDeclaration htea htarget hword hvalue _ =>
      exact .teaDeclaration htea htarget hword hvalue (by simp)
  | .block hopening hbody hclosing => exact .block hopening hbody.unguarded hclosing
  | .openBlock hopening hbody hend => exact .openBlock hopening hbody.unguarded hend
  | .conditional hbet hcondition hconsequent _ =>
      exact .conditional hbet hcondition hconsequent.unguarded (by simp)
  | .alternative hbet hcondition hconsequent _ hdeadass hotherwise =>
      exact .alternative hbet hcondition hconsequent.unguarded (by simp) hdeadass
        hotherwise.unguarded
  | .assignment htarget hword hvalue => exact .assignment htarget hword hvalue
  | .expression hvalue _ => exact .expression hvalue (by simp)

/-- Derivations with guards are derivations. -/
theorem DerivesAll.unguarded
    {guarded : Bool} {tokens rest : List Token} (h : DerivesAll guarded tokens rest) :
    DerivesAll false tokens rest := by
  match h with
  | .nil => exact .nil
  | .cons hfirst hothers => exact .cons hfirst.unguarded hothers.unguarded

end

/-! ## Derived expressions are spellings of canonical trees -/

/-- The trees that a part of expressions stands for. -/
def Part.Admits : Part → Node → Prop
  | .chain level, e => looseness e ≤ level
  | .unary, e | .power, e => looseness e = 0
  | .primary, e => isPrimary e = true

theorem exists_leaf {t : Token} (h : isAtom t.kind = true) : ∃ e, leaf? t = some e := by
  cases hkind : t.kind <;> simp_all [isAtom, leaf?]

theorem DerivesExpression.exists_canonical
    {part : Part} {tokens : List Token} (h : DerivesExpression part tokens) :
    ∃ e, CanonicalExpression e ∧ SpellsExpression e tokens ∧ part.Admits e := by
  induction h with
  | atom h =>
      obtain ⟨e, hleaf⟩ := exists_leaf h
      obtain ⟨hspelled, hcanonical, hprimary⟩ := spells_of_leaf? hleaf
      exact ⟨e, hcanonical, hspelled, hprimary⟩
  | group hopening hclosing _ ih =>
      obtain ⟨e, hcanonical, hspelled, -⟩ := ih
      exact ⟨.group e, hcanonical, .group hopening hclosing hspelled, rfl⟩
  | base _ ih =>
      obtain ⟨e, hcanonical, hspelled, hprimary⟩ := ih
      exact ⟨e, hcanonical, hspelled, looseness_of_isPrimary hprimary⟩
  | @raised operator _ _ _ hoperator _ ihBase ihExponent =>
      obtain ⟨left, hleft, hleftSpelled, hprimary⟩ := ihBase
      obtain ⟨right, hright, hrightSpelled, hzero⟩ := ihExponent
      have hlevel : level? operator.kind = none := by rw [hoperator]; rfl
      refine ⟨.binary left operator.mark right, ⟨hleft, hright, ?_⟩,
        .binary (.inr hoperator) hleftSpelled hrightSpelled, ?_⟩
      · rw [Token.mark_kind, hlevel]
        exact ⟨hoperator, hprimary, hzero⟩
      · simp [Part.Admits, looseness, hlevel]
  | unsigned _ ih => exact ih
  | @signed operator _ hoperator _ ih =>
      obtain ⟨e, hcanonical, hspelled, hzero⟩ := ih
      exact ⟨.unary operator.mark e, ⟨hoperator, hcanonical, hzero⟩, .unary hoperator hspelled, rfl⟩
  | operand _ ih =>
      obtain ⟨e, hcanonical, hspelled, hzero⟩ := ih
      exact ⟨e, hcanonical, hspelled, Nat.le_of_eq hzero⟩
  | single _ ih =>
      obtain ⟨e, hcanonical, hspelled, hle⟩ := ih
      exact ⟨e, hcanonical, hspelled, Nat.le_succ_of_le hle⟩
  | @more level operator _ _ _ hoperator _ ihBefore ihAfter =>
      obtain ⟨left, hleft, hleftSpelled, hleftLevel⟩ := ihBefore
      obtain ⟨right, hright, hrightSpelled, hrightLevel⟩ := ihAfter
      refine ⟨.binary left operator.mark right, ⟨hleft, hright, ?_⟩,
        .binary (.inl (by simp [hoperator])) hleftSpelled hrightSpelled, ?_⟩
      · rw [Token.mark_kind, hoperator]
        exact ⟨hleftLevel, Nat.lt_succ_of_le hrightLevel⟩
      · simp [Part.Admits, looseness, hoperator]

namespace DerivesExpression

variable {tokens : List Token}

theorem chain_mono
    {level looser : Nat} (h : DerivesExpression (.chain level) tokens) (hle : level ≤ looser) :
    DerivesExpression (.chain looser) tokens := by
  induction hle with
  | refl => exact h
  | step _ ih => exact .single ih

theorem chain_of_unary (h : DerivesExpression .unary tokens) (level : Nat) :
    DerivesExpression (.chain level) tokens :=
  chain_mono (.operand h) (Nat.zero_le level)

end DerivesExpression

/-- A row of tokens is derived from every part that the form of the tree allows. -/
structure DerivesTree (e : Node) (tokens : List Token) : Prop where
  chain : DerivesExpression (.chain (looseness e)) tokens
  unary : looseness e = 0 → DerivesExpression .unary tokens
  primary : isPrimary e = true → DerivesExpression .primary tokens

theorem DerivesTree.of_unary
    {e : Node} {tokens : List Token} (h : DerivesExpression .unary tokens)
    (hprimary : isPrimary e = false) : DerivesTree e tokens where
  chain := h.chain_of_unary (looseness e)
  unary _ := h
  primary := by simp [hprimary]

theorem DerivesTree.of_primary
    {e : Node} {tokens : List Token} (h : DerivesExpression .primary tokens) :
    DerivesTree e tokens where
  chain := .chain_of_unary (.unsigned (.base h)) (looseness e)
  unary _ := .unsigned (.base h)
  primary _ := h

theorem SpellsExpression.derivesTree
    {e : Node} {tokens : List Token} (h : SpellsExpression e tokens)
    (hcanonical : CanonicalExpression e) : DerivesTree e tokens := by
  induction h with
  | number h | text h | character h | ghosted h =>
      exact .of_primary (.atom (by simp [h, isAtom]))
  | boolean h | identifier h =>
      exact .of_primary (.atom (by rcases h with h | h <;> simp [h, isAtom]))
  | @group _ _ inner _ hopening hclosing _ ih =>
      have hinner := (ih hcanonical).chain.chain_mono (looseness_le_loosest inner)
      exact .of_primary (.group hopening hclosing hinner)
  | unary hoperator _ ih =>
      obtain ⟨-, hoperand, hzero⟩ := hcanonical
      exact .of_unary (.signed hoperator ((ih hoperand).unary hzero)) rfl
  | @binary operator left right _ _ _ _ _ ihLeft ihRight =>
      obtain ⟨hleftCanonical, hrightCanonical, hlevels⟩ := hcanonical
      have hleft := ihLeft hleftCanonical
      have hright := ihRight hrightCanonical
      rw [Token.mark_kind] at hlevels
      cases hlevel : level? operator.kind with
      | none =>
          rw [hlevel] at hlevels
          obtain ⟨hpower, hprimary, hzero⟩ := hlevels
          exact .of_unary (.unsigned (.raised (hleft.primary hprimary) hpower (hright.unary hzero)))
            rfl
      | some level =>
          rw [hlevel] at hlevels
          obtain ⟨hleftLevel, hrightLevel⟩ := hlevels
          obtain ⟨below, rfl⟩ := Nat.exists_eq_succ_of_ne_zero (Nat.ne_of_gt (level?_pos hlevel).1)
          have hchain := DerivesExpression.more (hleft.chain.chain_mono hleftLevel) hlevel
            (hright.chain.chain_mono (Nat.le_of_lt_succ hrightLevel))
          have hloose : looseness (.binary left operator.mark right) = below + 1 := by
            simp [looseness, hlevel]
          exact ⟨by rwa [hloose], by simp [hloose], by simp [isPrimary]⟩

/-- The tokens of a canonical expression are derived from an expression. -/
theorem SpellsExpression.derives
    {e : Node} {tokens : List Token} (h : SpellsExpression e tokens)
    (hcanonical : CanonicalExpression e) : DerivesExpression (.chain 6) tokens :=
  (h.derivesTree hcanonical).chain.chain_mono (looseness_le_loosest e)

/-! ## Expressions that go on -/

namespace DerivesExpression

variable {before after tokens : List Token}

/-- An expression may be followed by an operator and an operand of the right level. -/
theorem append_operator
    {level below : Nat} {operator : Token} (h : DerivesExpression (.chain level) before)
    (hoperator : level? operator.kind = some (below + 1)) (hle : below + 1 ≤ level)
    (hafter : DerivesExpression (.chain below) after) :
    DerivesExpression (.chain level) (before ++ operator :: after) := by
  generalize hpart : Part.chain level = part at h
  induction h generalizing level with
  | operand =>
      cases hpart
      omega
  | @single level tokens hchain ih =>
      cases hpart
      by_cases heq : below = level
      · subst heq
        exact .more (.single hchain) hoperator hafter
      · exact .single (ih (by omega) rfl)
  | @more level own first last hfirst hown hlast _ ih =>
      cases hpart
      by_cases heq : below = level
      · subst heq
        exact .more (.more hfirst hown hlast) hoperator hafter
      · rw [List.append_assoc, List.cons_append]
        exact .more hfirst hown (ih (by omega) rfl)
  | _ => cases hpart

theorem ne_nil {part : Part} (h : DerivesExpression part tokens) : tokens ≠ [] := by
  obtain ⟨e, -, hspelled, -⟩ := h.exists_canonical
  exact hspelled.ne_nil

theorem notFirst_minus_of_primary (h : DerivesExpression .primary tokens) :
    NotFirst .minus tokens := by
  cases h with
  | atom h =>
      rw [notFirst_cons]
      intro hkind
      simp [hkind, isAtom] at h
  | group hopening => simp [notFirst_cons, hopening]

theorem notFirst_minus_of_power (h : DerivesExpression .power tokens) : NotFirst .minus tokens := by
  cases h with
  | base hbase => exact hbase.notFirst_minus_of_primary
  | raised hbase => exact hbase.notFirst_minus_of_primary.append hbase.ne_nil _

/-- An expression that starts with a minus goes on with the expression in front of it. -/
theorem append_minus
    {level : Nat} (hbefore : DerivesExpression (.chain 6) before)
    (h : DerivesExpression (.chain level) tokens) (hlevel : level ≤ 6)
    (hminus : ∀ t ∈ tokens.head?, t.kind = .minus) :
    DerivesExpression (.chain 6) (before ++ tokens) := by
  generalize hpart : Part.chain level = part at h
  induction h generalizing level with
  | operand hunary =>
      cases hunary with
      | unsigned hpower =>
          obtain ⟨t, later, rfl⟩ := List.exists_cons_of_ne_nil hpower.ne_nil
          exact absurd (hminus t rfl) (hpower.notFirst_minus_of_power t rfl)
      | @signed operator operand _ hoperand =>
          have hkind : operator.kind = .minus := hminus operator rfl
          have htimes : DerivesExpression (.chain 1) operand := chain_of_unary hoperand 1
          exact hbefore.append_operator (by rw [hkind]; rfl) (by omega) htimes
  | single _ ih =>
      cases hpart
      exact ih (by omega) hminus rfl
  | more hfirst hoperator hlast ih =>
      cases hpart
      obtain ⟨t, later, rfl⟩ := List.exists_cons_of_ne_nil hfirst.ne_nil
      rw [← List.append_assoc]
      exact append_operator (ih hlevel hminus rfl) hoperator hlevel hlast
  | _ => cases hpart

end DerivesExpression

end Slang.Grammar
