import Slang.Proofs.Grammar.Derivation

/-!
# The programs that are accepted

Statements that are derived one by one need not be the statements that are read: an expression at
the end of one statement takes over the next statement if that starts with a minus, and an
alternative belongs to the last conditional in front of it that has none.  Either way the tokens are
accepted.  The first part of the module rearranges the trees of derived statements until they are
canonical.
-/

namespace Slang.Grammar

open Slang.Parser

/-! ## First tokens -/

/-- An expression is known to open with a minus or a variable with a sigil if and only if its first
token is one. -/
theorem SpellsExpression.opensWith_eq_false_iff
    {kind : Token.Kind} {e : Node} {tokens : List Token} (h : SpellsExpression e tokens)
    (hkind : kind = .minus ∨ kind = .sigilIdentifier) :
    opensWith kind e = false ↔ NotFirst kind tokens := by
  obtain ⟨t, later, rfl, -, hopens⟩ := h.head
  have hfirst : opensWith kind e = true ↔ t.kind = kind := by
    constructor
    · intro htrue
      obtain ⟨_, _, heq, ht⟩ := h.head_of_opensWith htrue
      cases heq
      exact ht
    · rintro rfl
      exact hopens hkind
  rw [notFirst_cons, Ne, ← hfirst, Bool.not_eq_true]

theorem Spells.opensWith_minus_eq_false_iff
    {node : Node} {tokens used rest : List Token} (h : Spells node tokens)
    (hcut : Cut tokens used rest) : opensWith .minus node = false ↔ NotFirst .minus used := by
  obtain ⟨t, later, rfl, hstarts, hopens⟩ := h.head
  obtain ⟨more, rfl, -⟩ := hcut.head (not_closes_of_startsStatement hstarts)
  have hfirst : opensWith .minus node = true ↔ t.kind = .minus := by
    refine ⟨fun htrue => ?_, hopens⟩
    obtain ⟨_, _, heq, ht⟩ := h.head_of_opensWith htrue
    cases heq
    exact ht
  rw [notFirst_cons, Ne, ← hfirst, Bool.not_eq_true]

/-- Tokens after a statement do not change what it opens with. -/
theorem Spells.opensWith_minus_append
    {node longer : Node} {tokens more : List Token} (h : Spells node tokens)
    (hlonger : Spells longer (tokens ++ more)) (hminus : opensWith .minus node = false) :
    opensWith .minus longer = false := by
  have hfirst := (h.opensWith_minus_eq_false_iff (.refl tokens [])).mp hminus
  have hne : tokens ≠ [] := by
    obtain ⟨t, later, rfl, -⟩ := h.head
    exact List.cons_ne_nil t later
  exact (hlonger.opensWith_minus_eq_false_iff (.refl _ [])).mpr (hfirst.append hne more)

/-! ## Statements that go on -/

/-- An expression takes over an expression that starts with a minus. -/
theorem SpellsExpression.append_minus
    {left right : Node} {tokens more : List Token} (hleft : SpellsExpression left tokens)
    (hleftCanonical : CanonicalExpression left) (hright : SpellsExpression right more)
    (hrightCanonical : CanonicalExpression right) (hminus : opensWith .minus right = true) :
    ∃ e, SpellsExpression e (tokens ++ more) ∧ CanonicalExpression e := by
  have hbefore := hleft.derives hleftCanonical
  have hafter := hright.derives hrightCanonical
  obtain ⟨t, later, rfl, hkind⟩ := hright.head_of_opensWith hminus
  have hwhole := hbefore.append_minus hafter (Nat.le_refl 6) (by simpa using hkind)
  obtain ⟨e, hcanonical, hspelled, -⟩ := hwhole.exists_canonical
  exact ⟨e, hspelled, hcanonical⟩

/-- A statement that ends in an expression takes over an expression that starts with a minus. -/
theorem Spells.append_minus
    {node value : Node} {tokens more : List Token} (h : Spells node tokens)
    (hcanonical : Canonical node) (hends : endsInExpression node = true)
    (hvalue : SpellsExpression value more) (hvalueCanonical : CanonicalExpression value)
    (hminus : opensWith .minus value = true) :
    ∃ longer, Spells longer (tokens ++ more) ∧ Canonical longer := by
  cases h with
  | spill hword hown =>
      obtain ⟨e, hspelled, he⟩ := hown.append_minus hcanonical hvalue hvalueCanonical hminus
      exact ⟨.spill e, .spill hword hspelled, he⟩
  | expression hown =>
      obtain ⟨e, hspelled, he⟩ := hown.append_minus hcanonical.1 hvalue hvalueCanonical hminus
      have hfirst := (hown.opensWith_eq_false_iff (.inr rfl)).mp hcanonical.2
      refine ⟨.expression e, .expression hspelled, he, ?_⟩
      exact (hspelled.opensWith_eq_false_iff (.inr rfl)).mpr (hfirst.append hown.ne_nil more)
  | declaration htarget hsigil hword hown =>
      obtain ⟨e, hspelled, he⟩ := hown.append_minus hcanonical.2 hvalue hvalueCanonical hminus
      exact ⟨_, .declaration htarget hsigil hword hspelled, hcanonical.1, he⟩
  | teaDeclaration htea htarget hsigil hword hown =>
      obtain ⟨e, hspelled, he⟩ := hown.append_minus hcanonical.2 hvalue hvalueCanonical hminus
      exact ⟨_, .teaDeclaration htea htarget hsigil hword hspelled, hcanonical.1, he⟩
  | assignment htarget hword hown =>
      obtain ⟨e, hspelled, he⟩ := hown.append_minus hcanonical.2 hvalue hvalueCanonical hminus
      exact ⟨_, .assignment htarget hword hspelled, hcanonical.1, he⟩
  | listen | block => cases hends
  | conditional hbet hcondition hconsequent =>
      obtain ⟨htest, hfirst, hguard, -⟩ := hcanonical
      obtain ⟨longer, hspelled, hlonger⟩ :=
        hconsequent.append_minus hfirst hends hvalue hvalueCanonical hminus
      refine ⟨.conditional _ longer .absent, ?_, htest, hlonger,
        hconsequent.opensWith_minus_append hspelled hguard, .inl rfl⟩
      simpa using Spells.conditional hbet hcondition hspelled
  | alternative hbet hcondition hconsequent hdeadass hotherwise =>
      have hpresent := hotherwise.isAbsent_eq_false
      obtain ⟨htest, hfirst, hguard, hsecond⟩ := hcanonical
      obtain ⟨hsecond, hclosed⟩ := hsecond.resolve_left (by simp [hpresent])
      obtain ⟨longer, hspelled, hlonger⟩ :=
        hotherwise.append_minus hsecond (by simpa [endsInExpression, hpresent] using hends) hvalue
          hvalueCanonical hminus
      refine ⟨.conditional _ _ longer, ?_, htest, hfirst, hguard, .inr ⟨hlonger, hclosed⟩⟩
      simpa using Spells.alternative hbet hcondition hconsequent hdeadass hspelled

/-- A statement that ends in a conditional without alternative takes over an alternative. -/
theorem Spells.append_alternative
    {node other : Node} {deadass : Token} {tokens more : List Token} (h : Spells node tokens)
    (hcanonical : Canonical node) (hends : endsInConditional node = true)
    (hdeadass : deadass.kind = .deadass) (hother : Spells other more)
    (hotherCanonical : Canonical other) :
    ∃ longer, Spells longer (tokens ++ deadass :: more) ∧ Canonical longer := by
  cases h with
  | @conditional _ _ consequent _ _ hbet hcondition hconsequent =>
      obtain ⟨htest, hfirst, hguard, -⟩ := hcanonical
      by_cases hinner : endsInConditional consequent = true
      · obtain ⟨longer, hspelled, hlonger⟩ :=
          hconsequent.append_alternative hfirst hinner hdeadass hother hotherCanonical
        refine ⟨.conditional _ longer .absent, ?_, htest, hlonger,
          hconsequent.opensWith_minus_append hspelled hguard, .inl rfl⟩
        simpa using Spells.conditional hbet hcondition hspelled
      · rw [Bool.not_eq_true] at hinner
        refine ⟨.conditional _ _ other, ?_, htest, hfirst, hguard, .inr ⟨hotherCanonical, hinner⟩⟩
        simpa using Spells.alternative hbet hcondition hconsequent hdeadass hother
  | alternative hbet hcondition hconsequent hdeadass' hotherwise =>
      have hpresent := hotherwise.isAbsent_eq_false
      obtain ⟨htest, hfirst, hguard, hsecond⟩ := hcanonical
      obtain ⟨hsecond, hclosed⟩ := hsecond.resolve_left (by simp [hpresent])
      obtain ⟨longer, hspelled, hlonger⟩ :=
        hotherwise.append_alternative hsecond
          (by simpa [endsInConditional, hpresent] using hends) hdeadass hother hotherCanonical
      refine ⟨.conditional _ _ longer, ?_, htest, hfirst, hguard, .inr ⟨hlonger, hclosed⟩⟩
      simpa using Spells.alternative hbet hcondition hconsequent hdeadass' hspelled
  | spill | expression | declaration | teaDeclaration | assignment | listen | block => cases hends

/-- A canonical statement and canonical statements after it can be rearranged to canonical ones. -/
theorem exists_canonicalAll_append
    {node : Node} {later : List Node} {first others : List Token} (hnode : Spells node first)
    (hcanonical : Canonical node) (hlater : SpellsAll later others)
    (hlaterCanonical : CanonicalAll later) :
    ∃ body, SpellsAll body (first ++ others) ∧ CanonicalAll body := by
  by_cases hstops :
      endsInExpression node = true → ∀ next ∈ later.head?, opensWith .minus next = false
  · exact ⟨node :: later, .cons hnode hlater, hcanonical, hstops, hlaterCanonical⟩
  -- The next statement is an expression that starts with a minus.  What comes after it cannot go on
  -- with it, and so cannot go on with the longer statement either.
  · simp only [Classical.not_imp, Classical.not_forall] at hstops
    obtain ⟨hends, next, hnext, hminus⟩ := hstops
    rw [Bool.not_eq_false] at hminus
    cases hlater with
    | nil => simp at hnext
    | cons hhead htail =>
        cases hnext
        obtain ⟨hheadCanonical, hafter, htailCanonical⟩ := hlaterCanonical
        cases hhead with
        | expression hvalue =>
            obtain ⟨longer, hspelled, hlonger⟩ :=
              hnode.append_minus hcanonical hends hvalue hheadCanonical.1 hminus
            refine ⟨longer :: _, ?_, hlonger, fun _ => hafter rfl, htailCanonical⟩
            rw [← List.append_assoc]
            exact .cons hspelled htail
        | _ => cases hminus

/-! ## Derived statements are spellings of canonical trees -/

/-- A canonical statement is spelled by a row of tokens, up to closing words that are missing. -/
def CanonicalRow (used rest : List Token) : Prop :=
  ∃ node tokens, Spells node tokens ∧ Canonical node ∧ Cut tokens used rest

/-- Canonical statements are spelled by a row of tokens, up to closing words that are missing. -/
def CanonicalRows (used rest : List Token) : Prop :=
  ∃ body tokens, SpellsAll body tokens ∧ CanonicalAll body ∧ Cut tokens used rest

theorem CanonicalRow.of_spells
    {node : Node} {used : List Token} (rest : List Token) (hspelled : Spells node used)
    (hcanonical : Canonical node) : CanonicalRow used rest :=
  ⟨node, used, hspelled, hcanonical, .refl used rest⟩

/-- In front of a token other than the end mark nothing is missing. -/
theorem CanonicalRow.exists_spells
    {used rest : List Token} {t : Token} (h : CanonicalRow used (t :: rest))
    (ht : t.kind ≠ .endOfFile) : ∃ node, Spells node used ∧ Canonical node := by
  obtain ⟨node, tokens, hspelled, hcanonical, hcut⟩ := h
  rw [hcut.eq_of_not_atEnd (by simpa [AtEnd] using ht)] at hspelled
  exact ⟨node, hspelled, hcanonical⟩

theorem CanonicalRows.exists_spells
    {used rest : List Token} {t : Token} (h : CanonicalRows used (t :: rest))
    (ht : t.kind ≠ .endOfFile) : ∃ body, SpellsAll body used ∧ CanonicalAll body := by
  obtain ⟨body, tokens, hspelled, hcanonical, hcut⟩ := h
  rw [hcut.eq_of_not_atEnd (by simpa [AtEnd] using ht)] at hspelled
  exact ⟨body, hspelled, hcanonical⟩

theorem canonicalRow_openBlock
    {opening : Token} {used rest : List Token} (hopening : opening.kind = .colon)
    (hbody : CanonicalRows used rest) (hend : AtEnd rest) :
    CanonicalRow (opening :: used) rest := by
  obtain ⟨body, tokens, hspelled, hcanonical, missing, rfl, hmissing, -⟩ := hbody
  have hclosing : Closes closingWord.kind := .inl rfl
  refine ⟨.block body, _, .block hopening hclosing hspelled, hcanonical,
    missing ++ [closingWord], by simp, ?_, fun _ => hend⟩
  intro t ht
  rcases List.mem_append.mp ht with ht | ht
  · exact hmissing t ht
  · rw [List.mem_singleton.mp ht]
    exact hclosing

section Conditionals

variable {bet : Token} {condition : Node} {test first rest : List Token}
variable (hbet : bet.kind = .bet) (hcondition : SpellsExpression condition test)
variable (htest : CanonicalExpression condition)

include hbet hcondition htest

theorem canonicalRow_conditional
    (hconsequent : CanonicalRow first rest) (hguard : NotFirst .minus first) :
    CanonicalRow (bet :: (test ++ first)) rest := by
  obtain ⟨consequent, tokens, hspelled, hcanonical, hcut⟩ := hconsequent
  have hminus := (hspelled.opensWith_minus_eq_false_iff hcut).mpr hguard
  have hrow : Cut (bet :: (test ++ tokens)) (bet :: (test ++ first)) rest :=
    hcut.prepend (bet :: test)
  exact ⟨.conditional condition consequent .absent, _, .conditional hbet hcondition hspelled,
    ⟨htest, hcanonical, hminus, .inl rfl⟩, hrow⟩

theorem canonicalRow_alternative
    {deadass : Token} {second : List Token}
    (hconsequent : CanonicalRow first (deadass :: (second ++ rest)))
    (hguard : NotFirst .minus first) (hdeadass : deadass.kind = .deadass)
    (hotherwise : CanonicalRow second rest) :
    CanonicalRow (bet :: (test ++ (first ++ deadass :: second))) rest := by
  obtain ⟨consequent, hfirst, hfirstCanonical⟩ := hconsequent.exists_spells (by simp [hdeadass])
  obtain ⟨otherwise, tokens, hsecond, hsecondCanonical, hcut⟩ := hotherwise
  have hminus := (hfirst.opensWith_minus_eq_false_iff (.refl _ rest)).mpr hguard
  have hrow : Cut (bet :: (test ++ (first ++ deadass :: tokens)))
      (bet :: (test ++ (first ++ deadass :: second))) rest := by
    simpa using hcut.prepend (bet :: (test ++ (first ++ [deadass])))
  by_cases hends : endsInConditional consequent = true
  -- The alternative belongs to a conditional inside the first branch.
  · obtain ⟨longer, hlonger, hlongerCanonical⟩ :=
      hfirst.append_alternative hfirstCanonical hends hdeadass hsecond hsecondCanonical
    exact ⟨.conditional condition longer .absent, _, .conditional hbet hcondition hlonger,
      ⟨htest, hlongerCanonical, hfirst.opensWith_minus_append hlonger hminus, .inl rfl⟩, hrow⟩
  · rw [Bool.not_eq_true] at hends
    exact ⟨.conditional condition consequent otherwise, _,
      .alternative hbet hcondition hfirst hdeadass hsecond,
      ⟨htest, hfirstCanonical, hminus, .inr ⟨hsecondCanonical, hends⟩⟩, hrow⟩

end Conditionals

theorem canonicalRows_cons
    {first others rest : List Token} (hfirst : CanonicalRow first (others ++ rest))
    (hothers : CanonicalRows others rest) : CanonicalRows (first ++ others) rest := by
  obtain ⟨node, tokens, hnode, hcanonical, hcut⟩ := hfirst
  obtain ⟨later, more, hlater, hlaterCanonical, hmore⟩ := hothers
  obtain ⟨body, hbody, hbodyCanonical⟩ :=
    exists_canonicalAll_append hnode hcanonical hlater hlaterCanonical
  exact ⟨body, tokens ++ more, hbody, hbodyCanonical, hcut.append hmore hlater.ne_endOfFile⟩

mutual

/-- What is derived with guards from a statement spells a canonical statement. -/
theorem Derives.canonicalRow
    {used rest : List Token} (h : Derives true used rest) : CanonicalRow used rest := by
  match h with
  | .spill hword hvalue =>
      obtain ⟨e, hcanonical, hspelled, -⟩ := hvalue.exists_canonical
      exact .of_spells rest (.spill hword hspelled) hcanonical
  | .listen hlisten hprompt hword htarget =>
      exact .of_spells rest (.listen hlisten hprompt hword htarget) htarget
  | .declaration htarget hword hvalue hguard =>
      obtain ⟨e, hcanonical, hspelled, -⟩ := hvalue.exists_canonical
      obtain ⟨sigil, hsigil⟩ := exists_head?_iff.mpr (hguard rfl)
      exact .of_spells rest (.declaration htarget hsigil hword hspelled) ⟨rfl, hcanonical⟩
  | .teaDeclaration htea htarget hword hvalue hguard =>
      obtain ⟨e, hcanonical, hspelled, -⟩ := hvalue.exists_canonical
      obtain ⟨sigil, hsigil⟩ := exists_head?_iff.mpr (hguard rfl)
      exact .of_spells rest (.teaDeclaration htea htarget hsigil hword hspelled) ⟨rfl, hcanonical⟩
  | .block hopening hbody hclosing =>
      obtain ⟨body, hspelled, hcanonical⟩ := hbody.canonicalRows.exists_spells (by
        rcases hclosing with h | h | h <;> simp [h])
      exact .of_spells rest (.block hopening hclosing hspelled) hcanonical
  | .openBlock hopening hbody hend =>
      exact canonicalRow_openBlock hopening hbody.canonicalRows hend
  | .conditional hbet hcondition hconsequent hguard =>
      obtain ⟨e, hcanonical, hspelled, -⟩ := hcondition.exists_canonical
      exact canonicalRow_conditional hbet hspelled hcanonical hconsequent.canonicalRow (hguard rfl)
  | .alternative hbet hcondition hconsequent hguard hdeadass hotherwise =>
      obtain ⟨e, hcanonical, hspelled, -⟩ := hcondition.exists_canonical
      exact canonicalRow_alternative hbet hspelled hcanonical hconsequent.canonicalRow (hguard rfl)
        hdeadass hotherwise.canonicalRow
  | .assignment htarget hword hvalue =>
      obtain ⟨e, hcanonical, hspelled, -⟩ := hvalue.exists_canonical
      exact .of_spells rest (.assignment htarget hword hspelled) ⟨htarget, hcanonical⟩
  | .expression hvalue hguard =>
      obtain ⟨e, hcanonical, hspelled, -⟩ := hvalue.exists_canonical
      exact .of_spells rest (.expression hspelled)
        ⟨hcanonical, (hspelled.opensWith_eq_false_iff (.inr rfl)).mpr (hguard rfl)⟩

/-- What is derived with guards from statements spells canonical statements. -/
theorem DerivesAll.canonicalRows
    {used rest : List Token} (h : DerivesAll true used rest) : CanonicalRows used rest := by
  match h with
  | .nil => exact ⟨[], [], .nil, trivial, .refl [] rest⟩
  | .cons hfirst hothers => exact canonicalRows_cons hfirst.canonicalRow hothers.canonicalRows

end

/-! ## Canonical trees are derived -/

theorem Cut.singleton
    {t : Token} {used rest : List Token} (h : Cut [t] used rest) :
    used = [t] ∨ used = [] ∧ AtEnd rest := by
  obtain ⟨missing, htokens, -, hend⟩ := h
  rcases List.append_eq_singleton_iff.mp htokens.symm with ⟨rfl, rfl⟩ | ⟨rfl, rfl⟩
  · exact .inr ⟨rfl, hend (by simp)⟩
  · exact .inl rfl

mutual

/-- The tokens of a canonical statement are derived with guards from a statement. -/
theorem Spells.derives
    {node : Node} {tokens used rest : List Token} (h : Spells node tokens)
    (hcanonical : Canonical node) (hcut : Cut tokens used rest) : Derives true used rest := by
  cases h with
  | spill hword hvalue =>
      obtain rfl := hcut.eq_of_not_closes (by simpa [hword, Closes] using hvalue.not_closes)
      exact .spill hword (hvalue.derives hcanonical)
  | expression hvalue =>
      obtain rfl := hcut.eq_of_not_closes hvalue.not_closes
      have hfirst := (hvalue.opensWith_eq_false_iff (.inr rfl)).mp hcanonical.2
      exact .expression (hvalue.derives hcanonical.1) fun _ => hfirst
  | declaration htarget hsigil hword hvalue =>
      obtain rfl := hcut.eq_of_not_closes (by
        simpa [htarget, hword, Closes] using hvalue.not_closes)
      exact .declaration htarget hword (hvalue.derives hcanonical.2)
        fun _ => exists_head?_iff.mp ⟨_, hsigil⟩
  | teaDeclaration htea htarget hsigil hword hvalue =>
      obtain rfl := hcut.eq_of_not_closes (by
        simpa [htea, htarget, hword, Closes] using hvalue.not_closes)
      exact .teaDeclaration htea htarget hword (hvalue.derives hcanonical.2)
        fun _ => exists_head?_iff.mp ⟨_, hsigil⟩
  | assignment htarget hword hvalue =>
      obtain rfl := hcut.eq_of_not_closes (by
        simpa [htarget, hword, Closes] using hvalue.not_closes)
      exact .assignment htarget hword (hvalue.derives hcanonical.2)
  | listen hlisten hprompt hword htarget =>
      obtain rfl := hcut.eq_of_not_closes (by simp [hlisten, hprompt, hword, htarget, Closes])
      exact .listen hlisten hprompt hword htarget
  | block hopening hclosing hbody =>
      obtain ⟨more, rfl, hmore⟩ := hcut.head (by simp [hopening, Closes])
      obtain ⟨own, last, rfl, hown, hlast⟩ := hmore.split
      rcases hlast.singleton with rfl | ⟨rfl, hend⟩
      · exact .block hopening (hbody.derives hcanonical hown) hclosing
      · rw [List.append_nil]
        exact .openBlock hopening (hbody.derives hcanonical hown) hend
  | conditional hbet hcondition hconsequent =>
      obtain ⟨htest, hfirst, hminus, -⟩ := hcanonical
      obtain ⟨more, rfl, hmore⟩ := hcut.head (by simp [hbet, Closes])
      obtain ⟨own, last, rfl, hown, hlast⟩ := hmore.split
      obtain rfl := hown.eq_of_not_closes hcondition.not_closes
      have hguard := (hconsequent.opensWith_minus_eq_false_iff hlast).mp hminus
      exact .conditional hbet (hcondition.derives htest) (hconsequent.derives hfirst hlast)
        fun _ => hguard
  | alternative hbet hcondition hconsequent hdeadass hotherwise =>
      have hpresent := hotherwise.isAbsent_eq_false
      obtain ⟨htest, hfirst, hminus, hsecond⟩ := hcanonical
      obtain ⟨hsecond, -⟩ := hsecond.resolve_left (by simp [hpresent])
      rw [← List.append_assoc, ← List.cons_append] at hcut
      obtain ⟨more, rfl, hmore⟩ := hcut.through (by simp [hdeadass, Closes])
      have hguard := (hconsequent.opensWith_minus_eq_false_iff (.refl _ rest)).mp hminus
      rw [List.cons_append, List.append_assoc]
      exact .alternative hbet (hcondition.derives htest)
        (hconsequent.derives hfirst (.refl _ _)) (fun _ => hguard) hdeadass
        (hotherwise.derives hsecond hmore)

/-- The tokens of canonical statements are derived with guards from statements. -/
theorem SpellsAll.derives
    {body : List Node} {tokens used rest : List Token} (h : SpellsAll body tokens)
    (hcanonical : CanonicalAll body) (hcut : Cut tokens used rest) : DerivesAll true used rest := by
  cases h with
  | nil =>
      obtain rfl := hcut.eq_of_not_closes (by simp)
      exact .nil
  | cons hnode hlater =>
      obtain ⟨own, more, rfl, hown, hmore⟩ := hcut.split
      exact .cons (hnode.derives hcanonical.1 hown) (hlater.derives hcanonical.2.2 hmore)

end

/-! ## Programs -/

/-- The rows of tokens that are accepted in front of the end mark are those that are derived with
guards.  All of them are derived without guards, too. -/
theorem accepts_exactly_guarded_derivations
    {last : Token} (hlast : last.kind = .endOfFile) (tokens : List Token) :
    (DerivesAll true tokens [last] ↔
      (∀ t ∈ tokens, t.kind ≠ .endOfFile) ∧
        ∃ statements, program (tokens ++ [last]) = .ok statements) ∧
    (DerivesAll true tokens [last] → DerivesAll false tokens [last]) := by
  have hend : AtEnd [last] := by simpa [AtEnd] using hlast
  refine ⟨⟨?_, ?_⟩, DerivesAll.unguarded⟩
  · intro h
    obtain ⟨body, spelling, hspelled, hcanonical, hcut⟩ := h.canonicalRows
    have haccepted := program_of_cut hspelled hcanonical hcut hend
    obtain ⟨missing, rfl, -⟩ := hcut
    exact ⟨fun t ht => hspelled.ne_endOfFile t (by simp [ht]), body, haccepted⟩
  · rintro ⟨honly, statements, haccepted⟩
    obtain ⟨missing, hmissing, hspelled⟩ := spellsProgram_of_program hlast honly haccepted
    have hcanonical := (spelled_of_program _ statements haccepted).1
    exact hspelled.derives hcanonical ⟨missing, rfl, hmissing, fun _ => hend⟩

namespace Sample

/-- The end mark. -/
def last : Token := token .endOfFile ""

theorem derives_x : DerivesExpression .unary [token .identifier "x"] :=
  .unsigned (.base (.atom rfl))

theorem derives_negative :
    DerivesExpression .unary [token .minus "-", token .identifier "x"] :=
  .signed (.inr rfl) derives_x

/-- The tokens of a conditional `bet x bet x x deadass x`, an expression `- x` and a block `: x`
that is still open at the end.  They are read as a conditional without alternative, inside which the
minus is part of an expression, and the block. -/
def regrouped : List Token :=
  [token .bet "bet", token .identifier "x", token .bet "bet", token .identifier "x",
   token .identifier "x", token .deadass "deadass", token .identifier "x", token .minus "-",
   token .identifier "x", token .colon ":", token .identifier "x"]

theorem derivesAll_regrouped : DerivesAll true regrouped [last] := by
  have htest := derives_x.chain_of_unary 6
  have hx (rest : List Token) : Derives true [token .identifier "x"] rest :=
    .expression htest fun _ => by simp [notFirst_cons, token_kind]
  have hnegative (rest : List Token) :
      Derives true [token .minus "-", token .identifier "x"] rest :=
    .expression (derives_negative.chain_of_unary 6) fun _ => by simp [notFirst_cons, token_kind]
  have hinner (rest : List Token) := Derives.conditional (token_kind .bet "bet") htest (hx rest)
    fun _ => by simp [notFirst_cons, token_kind]
  have houter (rest : List Token) := Derives.alternative (token_kind .bet "bet") htest (hinner _)
    (fun _ => by simp [notFirst_cons, token_kind]) (token_kind .deadass "deadass") (hx rest)
  have hblock : Derives true [token .colon ":", token .identifier "x"] [last] :=
    .openBlock rfl (.cons (hx _) .nil) (by simp [AtEnd, last, token_kind])
  exact .cons (houter _) (.cons (hnegative _) (.cons hblock .nil))

end Sample

theorem accepts_exactly_guarded_derivations_sample :
    DerivesAll true Sample.regrouped [Sample.last] ∧
      (∀ t ∈ Sample.regrouped, t.kind ≠ .endOfFile) ∧
      ∃ statements, program (Sample.regrouped ++ [Sample.last]) = .ok statements := by
  have hlast : Sample.last.kind = .endOfFile := rfl
  obtain ⟨haccepted, -⟩ := accepts_exactly_guarded_derivations hlast Sample.regrouped
  exact ⟨Sample.derivesAll_regrouped, haccepted.mp Sample.derivesAll_regrouped⟩

namespace Sample

/-- An expression that is a variable with a sigil. -/
def loneVariable : List Token := [token .sigilIdentifier "$x"]

/-- A conditional whose first branch is an expression with a minus in front. -/
def branch : List Token :=
  [token .bet "bet", token .identifier "x", token .minus "-", token .identifier "x"]

/-- A declaration of a variable without a sigil, whose token has an empty lexeme. -/
def unmarked : List Token :=
  [token .sigilIdentifier "", token .asWord "as", token .identifier "x"]

end Sample

/-- All provisos are needed.  The first row of tokens is taken for a declaration, in the second one
the branch is taken for a part of the condition, and in the third one there is no sigil. -/
theorem unguarded_derivations_refused :
    (DerivesAll false Sample.loneVariable [Sample.last] ∧
      program (Sample.loneVariable ++ [Sample.last]) =
        .error (.unexpected ⟨Sample.last, .asInDeclaration⟩)) ∧
    (DerivesAll false Sample.branch [Sample.last] ∧
      program (Sample.branch ++ [Sample.last]) =
        .error (.unexpected ⟨Sample.last, .expression⟩)) ∧
    DerivesAll false Sample.unmarked [Sample.last] ∧
      program (Sample.unmarked ++ [Sample.last]) =
        .error (.noSigil (Sample.token .sigilIdentifier "")) := by
  have hvariable : DerivesExpression .unary Sample.loneVariable := .unsigned (.base (.atom rfl))
  have hlone : Derives false Sample.loneVariable ([] ++ [Sample.last]) :=
    .expression (hvariable.chain_of_unary 6) (by simp)
  have hx := Sample.derives_x.chain_of_unary 6
  have hnegative := Sample.derives_negative.chain_of_unary 6
  have hbranch : Derives false Sample.branch ([] ++ [Sample.last]) :=
    .conditional rfl hx (.expression hnegative (by simp)) (by simp)
  have hunmarked : Derives false Sample.unmarked ([] ++ [Sample.last]) :=
    .declaration rfl rfl hx (by simp)
  refine ⟨⟨.cons hlone .nil, ?_⟩, ⟨.cons hbranch .nil, ?_⟩, .cons hunmarked .nil, ?_⟩
  · cbv
  · cbv
  · cbv

end Slang.Grammar
