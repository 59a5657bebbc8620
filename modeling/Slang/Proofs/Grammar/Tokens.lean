import Slang.Proofs.Grammar.Spelling

/-!
# Tokens of a spelling

Which kinds of tokens stand in a spelling and at its start, and how a spelling whose last closing
words are missing is put together from parts and taken apart again.
-/

namespace Slang.Grammar

/-! ## Kinds -/

/-- The kinds of the tokens that expressions are spelled with. -/
def inExpression : Token.Kind → Bool
  | .number | .text | .character | .fr | .cap | .ghosted | .identifier | .sigilIdentifier
  | .leftParen | .rightParen | .not | .minus | .plus | .times | .divide | .modulo | .power
  | .less | .greater | .lessEqual | .greaterEqual | .equal | .notEqual | .and | .or => true
  | _ => false

theorem inExpression_of_isBinary {kind : Token.Kind} (h : IsBinary kind) :
    inExpression kind = true := by
  cases kind <;> simp_all [IsBinary, level?, inExpression]

theorem not_closes_of_inExpression {kind : Token.Kind} (h : inExpression kind = true) :
    ¬Closes kind := by
  cases kind <;> simp_all [Closes, inExpression]

theorem SpellsExpression.mem_inExpression
    {e : Node} {used : List Token} (h : SpellsExpression e used) :
    ∀ t ∈ used, inExpression t.kind = true := by
  induction h with
  | number h | text h | character h | ghosted h => simp [h, inExpression]
  | boolean h | identifier h => rcases h with h | h <;> simp [h, inExpression]
  | group hopening hclosing _ ih =>
      intro t ht
      rcases List.mem_cons.mp ht with rfl | ht
      · simp [hopening, inExpression]
      · rcases List.mem_append.mp ht with ht | ht
        · exact ih t ht
        · rw [List.mem_singleton.mp ht, hclosing]
          rfl
  | unary hoperator _ ih =>
      intro t ht
      rcases List.mem_cons.mp ht with rfl | ht
      · rcases hoperator with h | h <;> simp [h, inExpression]
      · exact ih t ht
  | binary hoperator _ _ ihLeft ihRight =>
      intro t ht
      rcases List.mem_append.mp ht with ht | ht
      · exact ihLeft t ht
      · rcases List.mem_cons.mp ht with rfl | ht
        · exact inExpression_of_isBinary hoperator
        · exact ihRight t ht

theorem SpellsExpression.ne_endOfFile
    {e : Node} {used : List Token} (h : SpellsExpression e used) :
    ∀ t ∈ used, t.kind ≠ .endOfFile := by
  intro t ht hkind
  have := h.mem_inExpression t ht
  rw [hkind] at this
  cases this

mutual

/-- The end mark is no part of a statement. -/
theorem Spells.ne_endOfFile
    {node : Node} {used : List Token} (h : Spells node used) :
    ∀ t ∈ used, t.kind ≠ .endOfFile := by
  cases h with
  | spill hword hvalue => simpa [hword] using hvalue.ne_endOfFile
  | expression hvalue => exact hvalue.ne_endOfFile
  | declaration htarget _ hword hvalue => simpa [htarget, hword] using hvalue.ne_endOfFile
  | teaDeclaration htea htarget _ hword hvalue =>
      simpa [htea, htarget, hword] using hvalue.ne_endOfFile
  | assignment htarget hword hvalue => simpa [htarget, hword] using hvalue.ne_endOfFile
  | listen hlisten hprompt hword htarget => simp [hlisten, hprompt, hword, htarget]
  | block hopening hclosing hbody =>
      have hbody := hbody.ne_endOfFile
      rcases hclosing with h | h | h <;> grind
  | conditional hbet hcondition hconsequent =>
      have hcondition := hcondition.ne_endOfFile
      have hconsequent := hconsequent.ne_endOfFile
      grind
  | alternative hbet hcondition hconsequent hdeadass hotherwise =>
      have hcondition := hcondition.ne_endOfFile
      have hconsequent := hconsequent.ne_endOfFile
      have hotherwise := hotherwise.ne_endOfFile
      grind

/-- The end mark is no part of statements. -/
theorem SpellsAll.ne_endOfFile
    {body : List Node} {used : List Token} (h : SpellsAll body used) :
    ∀ t ∈ used, t.kind ≠ .endOfFile := by
  cases h with
  | nil => simp
  | cons hnode hlater =>
      have hnode := hnode.ne_endOfFile
      have hlater := hlater.ne_endOfFile
      grind

end

/-! ## First tokens -/

theorem SpellsExpression.head_of_opensWith
    {kind : Token.Kind} {e : Node} {used : List Token} (h : SpellsExpression e used)
    (hopens : opensWith kind e = true) : ∃ t later, used = t :: later ∧ t.kind = kind := by
  induction h with
  | identifier => exact ⟨_, [], rfl, of_decide_eq_true hopens⟩
  | unary => exact ⟨_, _, rfl, of_decide_eq_true hopens⟩
  | binary _ _ _ ih =>
      obtain ⟨t, later, rfl, hkind⟩ := ih (by simpa [opensWith] using hopens)
      exact ⟨t, _, List.cons_append, hkind⟩
  | _ => simp [opensWith] at hopens

theorem Spells.head_of_opensWith
    {kind : Token.Kind} {node : Node} {used : List Token} (h : Spells node used)
    (hopens : opensWith kind node = true) : ∃ t later, used = t :: later ∧ t.kind = kind := by
  cases h with
  | expression hvalue => exact hvalue.head_of_opensWith (by simpa [opensWith] using hopens)
  | _ => simp [opensWith] at hopens

theorem Spells.isAbsent_eq_false
    {node : Node} {used : List Token} (h : Spells node used) : node.isAbsent = false := by
  cases h <;> rfl

/-- The kinds that an expression starts with. -/
def startsExpression : Token.Kind → Bool
  | .number | .text | .character | .fr | .cap | .ghosted | .identifier | .sigilIdentifier
  | .leftParen | .not | .minus => true
  | _ => false

/-- The kinds that a statement starts with. -/
def startsStatement : Token.Kind → Bool
  | .spill | .tea | .listen | .colon | .bet => true
  | kind => startsExpression kind

theorem startsStatement_of_startsExpression
    {kind : Token.Kind} (h : startsExpression kind = true) : startsStatement kind = true := by
  cases kind <;> simp_all [startsExpression, startsStatement]

theorem not_closes_of_startsStatement
    {kind : Token.Kind} (h : startsStatement kind = true) : ¬Closes kind := by
  cases kind <;> simp_all [Closes, startsStatement, startsExpression]

/-- An expression whose first token is a minus or a variable with a sigil is known to open with
it. -/
theorem SpellsExpression.head
    {e : Node} {used : List Token} (h : SpellsExpression e used) :
    ∃ t later, used = t :: later ∧ startsExpression t.kind = true ∧
      (t.kind = .minus ∨ t.kind = .sigilIdentifier → opensWith t.kind e = true) := by
  induction h with
  | number h | text h | character h | ghosted h =>
      exact ⟨_, [], rfl, by simp [h, startsExpression], by simp [h]⟩
  | boolean h =>
      rcases h with h | h
      · exact ⟨_, [], rfl, by simp [h, startsExpression], by simp [h]⟩
      · exact ⟨_, [], rfl, by simp [h, startsExpression], by simp [h]⟩
  | identifier h =>
      rcases h with h | h
      · exact ⟨_, [], rfl, by simp [h, startsExpression], by simp [h]⟩
      · exact ⟨_, [], rfl, by simp [h, startsExpression], by simp [opensWith]⟩
  | group hopening =>
      exact ⟨_, _, rfl, by simp [hopening, startsExpression], by simp [hopening]⟩
  | unary hoperator =>
      refine ⟨_, _, rfl, ?_, by simp [opensWith]⟩
      rcases hoperator with h | h
      · simp [h, startsExpression]
      · simp [h, startsExpression]
  | binary _ _ _ ih =>
      obtain ⟨t, later, rfl, hstarts, hopens⟩ := ih
      exact ⟨t, _, List.cons_append, hstarts, by simpa [opensWith] using hopens⟩

/-- A statement whose first token is a minus is known to open with it. -/
theorem Spells.head
    {node : Node} {used : List Token} (h : Spells node used) :
    ∃ t later, used = t :: later ∧ startsStatement t.kind = true ∧
      (t.kind = .minus → opensWith .minus node = true) := by
  cases h with
  | expression hvalue =>
      obtain ⟨t, later, hused, hstarts, hopens⟩ := hvalue.head
      refine ⟨t, later, hused, startsStatement_of_startsExpression hstarts, ?_⟩
      intro hminus
      simpa [hminus, opensWith] using hopens (.inl hminus)
  | spill h | declaration h | teaDeclaration h | assignment h | listen h | block h
  | conditional h | alternative h =>
      exact ⟨_, _, rfl, by simp [h, startsStatement, startsExpression], by simp [h]⟩

/-! ## Closing words that are missing -/

/-- No token is left but the one that marks the end. -/
def AtEnd (rest : List Token) : Prop :=
  ∀ t ∈ rest.head?, t.kind = .endOfFile

/-- The second row is the first one without some of the closing words it ends in.  They are missing
only if nothing comes after them. -/
def Cut (tokens used rest : List Token) : Prop :=
  ∃ missing, tokens = used ++ missing ∧ (∀ t ∈ missing, Closes t.kind) ∧
    (missing ≠ [] → AtEnd rest)

namespace Cut

variable {tokens used rest : List Token}

theorem refl (tokens rest : List Token) : Cut tokens tokens rest :=
  ⟨[], by simp, by simp, by simp⟩

/-- In front of a token other than the end mark no closing word is missing. -/
theorem eq_of_not_atEnd (h : Cut tokens used rest) (hrest : ¬AtEnd rest) : tokens = used := by
  obtain ⟨missing, rfl, -, hend⟩ := h
  by_cases hmissing : missing = []
  · simp [hmissing]
  · exact absurd (hend hmissing) hrest

theorem prepend (h : Cut tokens used rest) (before : List Token) :
    Cut (before ++ tokens) (before ++ used) rest := by
  obtain ⟨missing, rfl, hcloses, hend⟩ := h
  exact ⟨missing, by simp, hcloses, hend⟩

/-- Nothing is missing up to a token that closes nothing. -/
theorem through
    {before after : List Token} {t : Token} (h : Cut (before ++ t :: after) used rest)
    (ht : ¬Closes t.kind) : ∃ more, used = before ++ t :: more ∧ Cut after more rest := by
  obtain ⟨missing, htokens, hcloses, hend⟩ := h
  rcases List.append_eq_append_iff.mp htokens with ⟨more, hused, hmore⟩ | ⟨more, -, hmissing⟩
  · cases more with
    | nil =>
        rw [List.nil_append] at hmore
        exact absurd (hcloses t (by simp [← hmore])) ht
    | cons t' more =>
        rw [List.cons_append, List.cons.injEq] at hmore
        exact ⟨more, by rw [hused, hmore.1], missing, hmore.2, hcloses, hend⟩
  · exact absurd (hcloses t (by simp [hmissing])) ht

theorem head
    {t : Token} {after : List Token} (h : Cut (t :: after) used rest) (ht : ¬Closes t.kind) :
    ∃ more, used = t :: more ∧ Cut after more rest := by
  rw [← List.nil_append (t :: after)] at h
  exact h.through ht

/-- Nothing is missing in a row without closing words. -/
theorem eq_of_not_closes
    (h : Cut tokens used rest) (hcloses : ∀ t ∈ tokens, ¬Closes t.kind) : used = tokens := by
  obtain ⟨missing, rfl, hmissing, -⟩ := h
  cases missing with
  | nil => simp
  | cons t more => exact absurd (hmissing t (by simp)) (hcloses t (by simp))

/-- Of two rows the second one is all missing if something is missing in the first one. -/
theorem append
    {first own others more : List Token} (hfirst : Cut first own (more ++ rest))
    (hothers : Cut others more rest) (hmark : ∀ t ∈ others, t.kind ≠ .endOfFile) :
    Cut (first ++ others) (own ++ more) rest := by
  obtain ⟨absent, rfl, habsent, habsentEnd⟩ := hfirst
  obtain ⟨missing, rfl, hmissing, hend⟩ := hothers
  have hnone : absent ≠ [] → more = [] := by
    intro hne
    cases more with
    | nil => rfl
    | cons t later => exact absurd (habsentEnd hne t (by simp)) (hmark t (by simp))
  refine ⟨absent ++ missing, ?_, ?_, ?_⟩
  · by_cases hnil : absent = []
    · simp [hnil]
    · simp [hnone hnil]
  · intro t ht
    rcases List.mem_append.mp ht with ht | ht
    · exact habsent t ht
    · exact hmissing t ht
  · intro hne
    by_cases hnil : absent = []
    · exact hend (by simpa [hnil] using hne)
    · simpa [hnone hnil] using habsentEnd hnil

theorem split
    {first others : List Token} (h : Cut (first ++ others) used rest) :
    ∃ own more, used = own ++ more ∧ Cut first own (more ++ rest) ∧ Cut others more rest := by
  obtain ⟨missing, htokens, hcloses, hend⟩ := h
  rcases List.append_eq_append_iff.mp htokens with ⟨more, hused, hmore⟩ | ⟨lack, hfirst, hmissing⟩
  · exact ⟨first, more, hused, refl _ _, missing, hmore, hcloses, hend⟩
  · refine ⟨used, [], by simp, ⟨lack, hfirst, ?_, ?_⟩, others, by simp, ?_, ?_⟩
    · exact fun t ht => hcloses t (by simp [hmissing, ht])
    · exact fun hne => hend (by simp [hmissing, hne])
    · exact fun t ht => hcloses t (by simp [hmissing, ht])
    · exact fun hne => hend (by simp [hmissing, hne])

end Cut

end Slang.Grammar
