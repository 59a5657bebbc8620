import Slang.Proofs.Parser.Cursor
import Slang.Proofs.Parser.Error

/-!
# Walking is reading

The walk over positions does what reading lists does, as long as an end mark is still ahead.  Where
reading returns the rest of a list, the walk returns the position of that rest in the row.  All its
looks are then inside the row, and it needs calls of some depth only, because reading ends.

Agreement is kept when walks are put together, and so each function is treated once.
-/

namespace Slang.Parser.Cursor

variable {α β : Type} {tokens ts : List Token} {t : Token} {pos : Nat}

/-- The outcome of a walk is that of reading a list, with the position in the row in place of the
rest of the list. -/
def Reaches (tokens : List Token) (walk : Nat → Walk α) (pos : Nat) :
    Except ParseFailure (α × List Token) → Prop
  | .ok (a, rest) => ∃ pos', Returns walk pos a pos' ∧ tokens.drop pos' = rest
  | .error failure => Fails walk pos failure

/-- Wherever the tokens under the position are the given ones, with an end mark among them, the walk
has the outcome of reading them. -/
def Follows (tokens : List Token) (walk : Nat → Walk α) (ts : List Token)
    (result : Except ParseFailure (α × List Token)) : Prop :=
  HasEnd ts → ∀ pos, tokens.drop pos = ts → Reaches tokens walk pos result

/-- The same for a walk that starts right behind a token and may look back at it. -/
def FollowsAfter (tokens : List Token) (t : Token) (walk : Nat → Walk α) (ts : List Token)
    (result : Except ParseFailure (α × List Token)) : Prop :=
  HasEnd ts → ∀ pos, tokens.drop pos = t :: ts → Reaches tokens walk (pos + 1) result

section Combining

variable {walk walk' : Nat → Walk α} {result : Except ParseFailure (α × List Token)}

theorem Reaches.imp
    {pos' : Nat} (h : Reaches tokens walk' pos' result)
    (himp : ∀ outcome, Ends walk' pos' outcome → Ends walk pos outcome) :
    Reaches tokens walk pos result := by
  cases result with
  | error e => exact himp _ h
  | ok found =>
      obtain ⟨final, hreturns, hrest⟩ := h
      exact ⟨final, himp _ hreturns, hrest⟩

theorem Follows.deeper
    (h : Follows tokens (fun limit => walk (limit + 1)) ts result)
    (hzero : ∀ pos, walk 0 pos = .error .tooDeep) : Follows tokens walk ts result :=
  fun hend pos hpos => (h hend pos hpos).imp fun _ hends => hends.deeper (hzero pos)

theorem Follows.congr
    (h : Follows tokens walk' ts result)
    (heq : ∀ pos limit, tokens.drop pos = ts → walk limit pos = walk' limit pos) :
    Follows tokens walk ts result :=
  fun hend pos hpos => (h hend pos hpos).imp fun _ hends =>
    hends.congr fun limit => heq pos limit hpos

theorem Follows.shift (h : Follows tokens walk ts result) :
    Follows tokens (fun limit => walk (limit + 1)) ts result :=
  fun hend pos hpos => (h hend pos hpos).imp fun _ hends => hends.shift

theorem follows_nil (walk : Nat → Walk α) : Follows tokens walk [] result := by
  rintro ⟨t, ht, -⟩
  cases ht

theorem follows_pure (a : α) : Follows tokens (fun _ => pure a) ts (.ok (a, ts)) :=
  fun _ pos hpos => ⟨pos, ends_of_forall fun _ => rfl, hpos⟩

theorem Follows.bind
    {p : List Token → Prop} {x : Except ParseFailure (α × Subtype p)} {f : Nat → α → Walk β}
    {g : α × List Token → Except ParseFailure (β × List Token)}
    (h : Follows tokens walk ts (plain x)) (hstays : Stays ts (plain x))
    (hf : ∀ a (rest : Subtype p),
      Follows tokens (fun limit => f limit a) rest.val (g (a, rest.val))) :
    Follows tokens (fun limit => walk limit >>= f limit) ts ((plain x).bind g) := by
  intro hend pos hpos
  have hwalk := h hend pos hpos
  cases x with
  | error e => exact Fails.bind hwalk f
  | ok found =>
      obtain ⟨pos', hreturns, hrest⟩ := hwalk
      have hlater := hf found.1 found.2 (hstays hend).1 pos' hrest
      exact hlater.imp fun _ hends => Ends.bind hreturns hends

theorem Follows.map
    {p : List Token → Prop} {x : Except ParseFailure (α × Subtype p)} (f : α → β)
    (h : Follows tokens walk ts (plain x)) :
    Follows tokens (fun limit => walk limit >>= fun a => pure (f a)) ts
      ((plain x).bind fun found => .ok (f found.1, found.2)) := by
  intro hend pos hpos
  have hwalk := h hend pos hpos
  cases x with
  | error e => exact Fails.bind hwalk _
  | ok found =>
      obtain ⟨pos', hreturns, hrest⟩ := hwalk
      exact ⟨pos', Ends.bind hreturns (ends_of_forall fun _ => rfl), hrest⟩

theorem Follows.after (h : Follows tokens walk ts result) (t : Token) :
    FollowsAfter tokens t walk ts result :=
  fun hend pos hpos => h hend (pos + 1) (drop_succ hpos)

theorem FollowsAfter.previous
    {walk : Nat → Token → Walk α}
    (h : FollowsAfter tokens t (fun limit => walk limit t) ts result) :
    FollowsAfter tokens t (fun limit => previous tokens >>= walk limit) ts result :=
  fun hend pos hpos => (h hend pos hpos).imp fun _ hends =>
    hends.congr fun _ => (steps_previous hpos).bind_eq _

/-- A walk that takes the next token, which is not the end mark, and goes on behind it. -/
theorem FollowsAfter.step
    (h : FollowsAfter tokens t walk' ts result) (hend : t.kind ≠ .endOfFile)
    (hwalk : ∀ pos limit, tokens.drop pos = t :: ts → walk limit pos = walk' limit (pos + 1)) :
    Follows tokens walk (t :: ts) result :=
  fun hts pos hpos => (h (hts.tail hend) pos hpos).imp fun _ hends =>
    hends.congr fun limit => hwalk pos limit hpos

theorem FollowsAfter.accept
    {kinds : List Token.Kind} {yes no : Nat → Walk α} (h : FollowsAfter tokens t yes ts result)
    (hend : t.kind ≠ .endOfFile) (hmem : t.kind ∈ kinds) :
    Follows tokens (fun limit => do if ← accept tokens kinds then yes limit else no limit)
      (t :: ts) result := by
  refine h.step hend fun pos limit hpos => ?_
  rw [ite_accept kinds (yes limit) (no limit) hpos, if_pos ⟨hend, hmem⟩]

theorem Follows.reject
    {kinds : List Token.Kind} {yes no : Nat → Walk α} (h : Follows tokens no (t :: ts) result)
    (hmem : t.kind ∉ kinds) :
    Follows tokens (fun limit => do if ← Cursor.accept tokens kinds then yes limit else no limit)
      (t :: ts) result := by
  refine h.congr fun pos limit hpos => ?_
  rw [ite_accept kinds (yes limit) (no limit) hpos, if_neg fun hboth => hmem hboth.2]

end Combining

/-- After an expected token, a walk may look back at that token. -/
theorem follows_consume_bind
    {kind : Token.Kind} (expected : Expectation) {f : Nat → Token → Walk α}
    {g : Token × List Token → Except ParseFailure (α × List Token)} (hkind : kind ≠ .endOfFile)
    (hf : ∀ t later, FollowsAfter tokens t (fun limit => f limit t) later (g (t, later))) :
    Follows tokens (fun limit => consume tokens kind expected >>= f limit) ts
      ((plain (expect kind expected ts)).bind g) := by
  cases ts with
  | nil => exact follows_nil _
  | cons t later =>
      rw [plain_expect_cons]
      by_cases ht : t.kind = kind
      · rw [if_pos ht]
        refine (hf t later).step (ht ▸ hkind) fun pos limit hpos => ?_
        exact (steps_consume expected hpos ht hkind).bind_eq _
      · rw [if_neg ht]
        intro hend pos hpos
        exact ends_of_forall fun limit => bind_of_error (consume_of_ne expected hpos ht) _

/-! ## Expressions -/

theorem mem_operators_iff {kind : Token.Kind} {rank : Nat} :
    kind ∈ operators rank ↔ rank? kind = some rank := by
  constructor
  · intro h
    unfold operators at h
    split at h <;> simp only [List.mem_cons, List.not_mem_nil, or_false] at h
    all_goals grind [rank?]
  · intro h
    unfold rank? at h
    split at h <;> cases h <;> simp [operators]

theorem mem_signs_iff {kind : Token.Kind} :
    kind ∈ [Token.Kind.not, .minus] ↔ isSign kind = true := by
  cases kind <;> simp [isSign]

/-- A token that is an expression by itself is taken as such. -/
theorem steps_primary_of_leaf
    {e : Node} (limit : Nat) (h : tokens.drop pos = t :: ts) (hleaf : leaf? t = some e) :
    Steps (primary tokens (limit + 1)) pos e (pos + 1) := by
  rw [Steps, primary]
  unfold leaf? at hleaf
  split at hleaf <;> cases hleaf <;>
    simp [-bind_pure_comp, ite_accept _ _ _ h, (steps_previous h).bind_eq, *] <;> rfl

/-- Any other token opens parentheses or is none that an expression starts with. -/
theorem primary_of_not_leaf
    (limit : Nat) (h : tokens.drop pos = t :: ts) (hleaf : leaf? t = none) :
    primary tokens (limit + 1) pos =
      if t.kind = .leftParen then
        (do
          let inner ← binary tokens limit loosest
          let _ ← consume tokens .rightParen .closingParen
          return .group inner : Walk Node) (pos + 1)
      else .error (.gaveUp ⟨t, .expression⟩) := by
  unfold leaf? at hleaf
  split at hleaf <;> cases hleaf
  rw [primary]
  by_cases hkind : t.kind = .leftParen
  · simp [-bind_pure_comp, ite_accept _ _ _ h, hkind]
  · simp_all [-bind_pure_comp, ite_accept _ _ _ h, (steps_peek h).bind_eq]
    rfl

theorem follows_expressions :
    (∀ rank ts, Follows tokens (binary tokens · rank) ts (plain (Parser.binary rank ts))) ∧
      (∀ base ts, Follows tokens (raised tokens · base) ts (plain (Parser.power base ts))) ∧
        ∀ ts, Follows tokens (primary tokens) ts (plain (Parser.primary ts)) := by
  -- The induction is along reading, which ends; the depth that a walk needs comes out of it.
  have hall := Parser.binary.mutual_induct
    (fun rank ts => Follows tokens (binary tokens · rank) ts (plain (Parser.binary rank ts)))
    (fun rank left ts =>
      Follows tokens (chain tokens · rank left) ts (plain (Parser.chain rank left ts)))
    (fun ts => Follows tokens (unary tokens) ts (plain (Parser.unary ts)))
    (fun base ts => Follows tokens (raised tokens · base) ts (plain (Parser.power base ts)))
    (fun ts => Follows tokens (primary tokens) ts (plain (Parser.primary ts)))
    ?_ ?_ ?_ ?_ ?_ ?_ ?_ ?_ ?_ ?_ ?_ ?_ ?_ ?_ ?_
  · exact ⟨hall.1, hall.2.2.2.1, hall.2.2.2.2⟩
  · intro ts hunary
    refine Follows.deeper ?_ fun _ => rfl
    simp only [binary]
    rwa [plain_binary_zero]
  · intro ts rank hbinary hchain
    refine Follows.deeper ?_ fun _ => rfl
    simp only [binary]
    rw [plain_binary_succ]
    exact hbinary.bind (stays_binary rank ts) hchain
  · intro rank left
    exact follows_nil _
  · intro rank left t ts hrank hbinary hchain
    refine Follows.deeper ?_ fun _ => rfl
    simp only [chain]
    rw [plain_chain_cons, if_pos hrank]
    refine FollowsAfter.accept (.previous (Follows.after ?_ t)) (ne_endOfFile_of_rank? hrank)
      (mem_operators_iff.mpr hrank)
    exact hbinary.bind (stays_binary rank ts) hchain
  · intro rank left t ts hrank
    refine Follows.deeper ?_ fun _ => rfl
    simp only [chain]
    rw [plain_chain_cons, if_neg hrank]
    exact (follows_pure left).reject (mt mem_operators_iff.mp hrank)
  · exact follows_nil _
  · intro t ts hsign hunary
    refine Follows.deeper ?_ fun _ => rfl
    simp only [unary]
    rw [plain_unary_cons, if_pos hsign]
    exact FollowsAfter.accept (.previous ((hunary.map _).after t)) (ne_endOfFile_of_isSign hsign)
      (mem_signs_iff.mpr hsign)
  · intro t ts hsign hprimary hpower
    refine Follows.deeper ?_ fun _ => rfl
    simp only [unary]
    rw [plain_unary_cons, if_neg hsign]
    refine Follows.reject ?_ (mt mem_signs_iff.mp hsign)
    refine Follows.deeper ?_ fun _ => rfl
    simp only [power]
    exact hprimary.bind (stays_primary _) hpower
  · intro base
    exact follows_nil _
  · intro base t ts hkind hunary
    refine Follows.deeper ?_ fun _ => rfl
    simp only [raised]
    rw [plain_power_cons, if_pos hkind]
    exact FollowsAfter.accept (.previous ((hunary.map _).after t)) (by simp [hkind])
      (by simp [hkind])
  · intro base t ts hkind
    refine Follows.deeper ?_ fun _ => rfl
    simp only [raised]
    rw [plain_power_cons, if_neg hkind]
    exact (follows_pure base).reject (by simpa using hkind)
  · exact follows_nil _
  · intro t ts leaf hleaf
    refine Follows.deeper ?_ fun _ => rfl
    rw [plain_primary_cons, hleaf]
    exact fun _ pos hpos =>
      ⟨pos + 1, ends_of_forall fun limit => steps_primary_of_leaf limit hpos hleaf, drop_succ hpos⟩
  · intro t ts hleaf hkind hbinary
    refine Follows.deeper ?_ fun _ => rfl
    rw [plain_primary_cons, hleaf]
    dsimp only
    rw [if_pos hkind]
    refine FollowsAfter.step (Follows.after ?_ t) (by simp [hkind]) fun pos limit hpos =>
      (primary_of_not_leaf limit hpos hleaf).trans (if_pos hkind)
    refine hbinary.bind (stays_binary loosest ts) fun inner rest => ?_
    exact follows_consume_bind .closingParen (by simp) fun closing later =>
      (follows_pure _).after closing
  · intro t ts hleaf hkind
    refine Follows.deeper ?_ fun _ => rfl
    rw [plain_primary_cons, hleaf]
    dsimp only
    rw [if_neg hkind]
    exact fun _ pos hpos => ends_of_forall fun limit =>
      (primary_of_not_leaf limit hpos hleaf).trans (if_neg hkind)

theorem follows_expression (ts : List Token) :
    Follows tokens (expression tokens) ts (plain (Parser.expression ts)) :=
  follows_expressions.1 loosest ts

/-! ## Statements -/

theorem followsAfter_declaration (target : Token) (ts : List Token) :
    FollowsAfter tokens target (declaration tokens) ts (plain (Parser.declaration target ts)) := by
  unfold declaration
  rw [plain_declaration]
  refine FollowsAfter.previous (Follows.after ?_ target)
  refine follows_consume_bind .asInDeclaration (by simp) fun word later => Follows.after ?_ word
  refine (follows_expression later).bind (stays_expression later) fun value rest => ?_
  unfold sigilOf
  cases declaredSigil target with
  | error failure => exact fun _ pos _ => ends_of_forall fun _ => rfl
  | ok sigil => exact follows_pure _

theorem follows_assignment (target : Token) (ts : List Token) (htarget : target.kind ≠ .endOfFile) :
    Follows tokens (assignment tokens) (target :: ts) (plain (Parser.assignment target ts)) := by
  unfold assignment
  rw [plain_assignment]
  refine FollowsAfter.step (Follows.after ?_ target) htarget fun pos limit hpos =>
    (steps_advance hpos htarget).bind_eq _
  exact follows_consume_bind .asInAssignment (by simp) fun word later =>
    ((follows_expression later).map _).after word

theorem follows_listen (ts : List Token) :
    Follows tokens (fun _ => listen tokens) ts (plain (Parser.listen ts)) := by
  unfold listen
  rw [plain_listen]
  refine follows_consume_bind .prompt (by simp) fun prompt later => Follows.after ?_ prompt
  refine follows_consume_bind .asAfterPrompt (by simp) fun word later => Follows.after ?_ word
  exact follows_consume_bind .inputVariable (by simp) fun target later =>
    (follows_pure _).after target

theorem mem_terminators_iff {kind : Token.Kind} :
    kind ∈ terminators ↔ kind.isTerminator = true := by
  cases kind <;> simp [terminators, Token.Kind.isTerminator]

theorem steps_block_of_terminator
    (limit : Nat) (h : tokens.drop pos = t :: ts) (hkind : t.kind.isTerminator = true) :
    Steps (block tokens (limit + 2)) pos [] (pos + 1) := by
  have hmem := mem_terminators_iff.mpr hkind
  have hend := ne_endOfFile_of_isTerminator hkind
  rw [Steps, block, body, bind_assoc, (steps_check _ h).bind_eq, decide_eq_true ⟨hend, hmem⟩,
    if_pos rfl, pure_bind, (steps_accept_of_mem h hend hmem).bind_eq]
  rfl

theorem steps_block_of_end
    (limit : Nat) (h : tokens.drop pos = t :: ts) (hkind : t.kind = .endOfFile) :
    Steps (block tokens (limit + 2)) pos [] pos := by
  have hnot : ¬(t.kind ≠ .endOfFile ∧ t.kind ∈ terminators) := fun hboth => hboth.1 hkind
  rw [Steps, block, body, bind_assoc, (steps_check _ h).bind_eq, decide_eq_false hnot,
    if_neg Bool.false_ne_true, bind_assoc, (steps_isAtEnd h).bind_eq, decide_eq_true hkind,
    if_pos rfl, pure_bind, (steps_accept_of_not h hnot).bind_eq]
  rfl

/-- In front of any other token, a block is a statement and then the rest of the block. -/
theorem block_of_not_end
    (limit : Nat) (h : tokens.drop pos = t :: ts) (hterminator : ¬t.kind.isTerminator = true)
    (hend : t.kind ≠ .endOfFile) :
    block tokens (limit + 2) pos =
      (do
        let first ← statement tokens limit
        let others ← block tokens (limit + 1)
        return first :: others : Walk (List Node)) pos := by
  have hnot : ¬(t.kind ≠ .endOfFile ∧ t.kind ∈ terminators) :=
    fun hboth => hterminator (mem_terminators_iff.mp hboth.2)
  -- The loop stands inside the block; one round of it is taken out, and what is left is a block.
  rw [block, body, bind_assoc, (steps_check _ h).bind_eq, decide_eq_false hnot,
    if_neg Bool.false_ne_true, bind_assoc, (steps_isAtEnd h).bind_eq, decide_eq_false hend,
    if_neg Bool.false_ne_true]
  simp only [block, bind_assoc, pure_bind]

theorem head?_any_eq_startsWith (kind : Token.Kind) (ts : List Token) :
    (ts.head?.any fun next => next.kind = kind) = startsWith kind ts := by
  cases ts with
  | nil => rfl
  | cons t ts => rfl

/-- A first token that is no opener leaves an assignment or an expression. -/
theorem statement_of_not_opener
    (limit : Nat) (h : tokens.drop pos = t :: ts) (hopener : isOpener t.kind = false) :
    statement tokens (limit + 1) pos =
      if t.kind = .identifier ∧ startsWith .asWord ts = true then assignment tokens limit pos
      else (do return .expression (← expression tokens limit) : Walk Node) pos := by
  have hreject : ∀ {kind} (yes no : Walk Node), isOpener kind = true →
      (do if ← accept tokens [kind] then yes else no : Walk Node) pos = no pos := by
    intro kind yes no hkind
    rw [ite_accept _ _ _ h, if_neg]
    rintro ⟨-, hmem⟩
    rw [List.mem_singleton.mp hmem, hkind] at hopener
    cases hopener
  have hsigil : t.kind ≠ .sigilIdentifier := by
    intro hkind
    rw [hkind] at hopener
    cases hopener
  rw [statement, hreject _ _ rfl, hreject _ _ rfl, hreject _ _ rfl, hreject _ _ rfl,
    hreject _ _ rfl, hreject _ _ rfl, (steps_peekNext h).bind_eq, (steps_check _ h).bind_eq,
    head?_any_eq_startsWith]
  by_cases hkind : t.kind = .identifier
  · cases startsWith .asWord ts <;> simp [hkind]
  · simp [hkind, hsigil]

theorem follows_statement (ts : List Token) :
    Follows tokens (statement tokens) ts (plain (Parser.statement ts)) := by
  have hall := Parser.statement.mutual_induct
    (fun ts => Follows tokens (statement tokens) ts (plain (Parser.statement ts)))
    (fun ts => Follows tokens (alternative tokens) ts (plain (Parser.alternative ts)))
    (fun ts => Follows tokens (block tokens) ts (plain (Parser.block ts)))
    ?_ ?_ ?_ ?_ ?_ ?_ ?_ ?_ ?_ ?_ ?_ ?_ ?_ ?_ ?_ ?_
  · exact hall.1 ts
  · exact follows_nil _
  · intro t ts hkind
    refine Follows.deeper ?_ fun _ => rfl
    rw [plain_statement_spill ts hkind]
    refine (((follows_expression ts).map Node.spill).after t).step (by simp [hkind]) ?_
    intro pos limit hpos
    simp [statement, ite_accept _ _ _ hpos, hkind]
  · intro t ts hkind
    refine Follows.deeper ?_ fun _ => rfl
    rw [plain_statement_listen ts hkind]
    refine ((follows_listen ts).after t).step (by simp [hkind]) fun pos limit hpos => ?_
    simp [statement, ite_accept _ _ _ hpos, hkind]
  · intro t ts hkind
    refine Follows.deeper ?_ fun _ => rfl
    rw [plain_statement_tea ts hkind]
    refine FollowsAfter.step (Follows.after ?_ t) (by simp [hkind]) fun pos limit hpos =>
      show statement tokens (limit + 1) pos =
        (do
          let _ ← consume tokens .sigilIdentifier .sigilVariable
          declaration tokens limit : Walk Node) (pos + 1)
      from by simp [statement, ite_accept _ _ _ hpos, hkind]
    exact follows_consume_bind .sigilVariable (by simp) fun target later =>
      followsAfter_declaration target later
  · intro t ts hkind
    refine Follows.deeper ?_ fun _ => rfl
    rw [plain_statement_sigil ts hkind]
    refine (followsAfter_declaration t ts).step (by simp [hkind]) fun pos limit hpos => ?_
    simp [statement, ite_accept _ _ _ hpos, hkind]
  · intro t ts hkind hblock
    refine Follows.deeper ?_ fun _ => rfl
    rw [plain_statement_colon ts hkind]
    refine ((hblock.map Node.block).after t).step (by simp [hkind]) fun pos limit hpos => ?_
    simp [statement, ite_accept _ _ _ hpos, hkind]
  · intro t ts hkind hstatement halternative
    refine Follows.deeper ?_ fun _ => rfl
    rw [plain_statement_bet ts hkind]
    refine FollowsAfter.step (Follows.after ?_ t) (by simp [hkind]) fun pos limit hpos =>
      show statement tokens (limit + 1) pos = conditional tokens limit (pos + 1)
      from by simp [statement, ite_accept _ _ _ hpos, hkind]
    refine Follows.deeper ?_ fun _ => rfl
    simp only [conditional]
    refine (follows_expression ts).bind (stays_expression ts) fun condition rest => ?_
    refine (hstatement rest).bind (stays_statement rest.val) fun consequent later => ?_
    exact (halternative rest later).map _
  · intro t ts hspill hlisten htea hsigil hcolon hbet hassign
    have hopener := isOpener_eq_false hspill hlisten htea hsigil hcolon hbet
    have hassign' : t.kind = .identifier ∧ startsWith .asWord ts = true := by simpa using hassign
    refine Follows.deeper ?_ fun _ => rfl
    rw [plain_statement_other ts hopener, if_pos hassign']
    refine (follows_assignment t ts (by simp [hassign'.1])).congr fun pos limit hpos => ?_
    rw [statement_of_not_opener limit hpos hopener, if_pos hassign']
  · intro t ts hspill hlisten htea hsigil hcolon hbet hassign
    have hopener := isOpener_eq_false hspill hlisten htea hsigil hcolon hbet
    have hassign' : ¬(t.kind = .identifier ∧ startsWith .asWord ts = true) := by
      simpa using hassign
    refine Follows.deeper ?_ fun _ => rfl
    rw [plain_statement_other ts hopener, if_neg hassign']
    refine ((follows_expression (t :: ts)).map _).congr fun pos limit hpos => ?_
    rw [statement_of_not_opener limit hpos hopener, if_neg hassign']
  · exact follows_nil _
  · intro t ts hkind hstatement
    refine Follows.deeper ?_ fun _ => rfl
    simp only [alternative]
    rw [plain_alternative_cons, if_pos hkind]
    exact FollowsAfter.accept (hstatement.after t) (by simp [hkind]) (by simp [hkind])
  · intro t ts hkind
    refine Follows.deeper ?_ fun _ => rfl
    simp only [alternative]
    rw [plain_alternative_cons, if_neg hkind]
    exact (follows_pure _).reject (by simpa using hkind)
  · exact follows_nil _
  · intro t ts hkind
    refine Follows.deeper (Follows.deeper ?_ fun _ => rfl) fun _ => rfl
    rw [plain_block_cons, if_pos hkind]
    exact fun _ pos hpos => ⟨pos + 1,
      ends_of_forall fun limit => steps_block_of_terminator limit hpos hkind, drop_succ hpos⟩
  · intro t ts hterminator hend
    refine Follows.deeper (Follows.deeper ?_ fun _ => rfl) fun _ => rfl
    rw [plain_block_cons, if_neg hterminator, if_pos hend]
    exact fun _ pos hpos => ⟨pos,
      ends_of_forall fun limit => steps_block_of_end limit hpos hend, hpos⟩
  · intro t ts hterminator hend hstatement hblock
    refine Follows.deeper (Follows.deeper ?_ fun _ => rfl) fun _ => rfl
    rw [plain_block_cons, if_neg hterminator, if_neg hend]
    refine Follows.congr ?_ fun pos limit hpos => block_of_not_end limit hpos hterminator hend
    exact hstatement.bind (stays_statement _) fun first rest => (hblock rest).shift.map _

/-! ## Programs -/

/-- The outcome of a walk is that of reading a program, with the position at an end mark. -/
def Finishes (tokens : List Token) (walk : Nat → Walk (List Node)) (pos : Nat) :
    Except ParseFailure (List Node) → Prop
  | .ok statements => ∃ pos' last later, Returns walk pos statements pos' ∧
      tokens.drop pos' = last :: later ∧ last.kind = .endOfFile
  | .error failure => Fails walk pos failure

theorem program_of_end (limit : Nat) (h : tokens.drop pos = t :: ts) (hkind : t.kind = .endOfFile) :
    Steps (program tokens (limit + 1)) pos [] pos := by
  rw [Steps, program, (steps_isAtEnd h).bind_eq, decide_eq_true hkind, if_pos rfl]
  rfl

theorem program_of_not_end
    (limit : Nat) (h : tokens.drop pos = t :: ts) (hkind : t.kind ≠ .endOfFile) :
    program tokens (limit + 1) pos =
      (do
        let first ← statement tokens limit
        let others ← program tokens limit
        return first :: others : Walk (List Node)) pos := by
  rw [program, (steps_isAtEnd h).bind_eq, decide_eq_false hkind, if_neg Bool.false_ne_true]

theorem finishes_program (hend : HasEnd ts) (hpos : tokens.drop pos = ts) :
    Finishes tokens (program tokens) pos (Parser.program ts) := by
  induction ts using Parser.program.induct generalizing pos with
  | case1 =>
      obtain ⟨t, ht, -⟩ := hend
      cases ht
  | case2 t later hkind =>
      rw [program_cons, if_pos hkind]
      refine ⟨pos, t, later, Ends.deeper ?_ rfl, hpos, hkind⟩
      exact ends_of_forall fun limit => program_of_end limit hpos hkind
  | case3 t later hkind ih =>
      have hfirst := follows_statement (t :: later) hend pos hpos
      have hstays := stays_statement (t :: later) hend
      have hround : ∀ {outcome}, Ends (fun limit => do
          let first ← statement tokens limit
          let others ← program tokens limit
          return first :: others) pos outcome → Ends (program tokens) pos outcome :=
        fun hends => (hends.congr fun limit => program_of_not_end limit hpos hkind).deeper rfl
      rw [program_cons, if_neg hkind]
      cases hread : Parser.statement (t :: later) with
      | error e =>
          rw [hread] at hfirst
          exact hround (Fails.bind hfirst _)
      | ok found =>
          rw [hread] at hfirst hstays
          obtain ⟨pos', hreturns, hrest⟩ := hfirst
          have hothers := ih found.2 hstays.1 hrest
          change Finishes tokens _ pos ((Parser.program found.2.val).bind _)
          cases hprogram : Parser.program found.2.val with
          | error e =>
              rw [hprogram] at hothers
              exact hround (Ends.bind hreturns (Fails.bind hothers _))
          | ok others =>
              rw [hprogram] at hothers
              obtain ⟨final, last, behind, hfinal, hlast⟩ := hothers
              refine ⟨final, last, behind, hround (Ends.bind hreturns ?_), hlast⟩
              exact Ends.bind hfinal (ends_of_forall fun _ => rfl)

end Slang.Parser.Cursor
