import Slang.Proofs.Grammar.Spelling
import Slang.Proofs.Parser.View

/-!
# Expressions are parsed by the grammar

Reading an expression of a level takes the tokens of a canonical expression of that level and stops
in front of the first token that cannot go on with it.  The two directions are proved separately:
what is read is spelled by the tokens that were taken, and what is spelled is read.
-/

namespace Slang.Grammar

open Slang.Parser

theorem rank?_eq_level? (kind : Token.Kind) : rank? kind = level? kind := by
  cases kind <;> rfl

theorem isSign_iff (kind : Token.Kind) : isSign kind = true ↔ IsSign kind := by
  cases kind <;> simp [isSign, IsSign]

theorem level?_pos {kind : Token.Kind} {level : Nat} (h : level? kind = some level) :
    0 < level ∧ level ≤ loosest := by
  cases kind <;> simp [level?, loosest] at h ⊢ <;> omega

theorem looseness_of_isPrimary {e : Node} (h : isPrimary e = true) : looseness e = 0 := by
  cases e <;> simp [isPrimary, looseness] at h ⊢

/-- No operator comes next that an expression of the given level goes on with. -/
def Follow (level : Nat) (rest : List Token) : Prop :=
  ∀ t ∈ rest.head?, t.kind ≠ .power ∧ ∀ k, level? t.kind = some k → level < k

theorem follow_nil (level : Nat) : Follow level [] := by
  intro t ht
  simp at ht

theorem follow_cons {level : Nat} {t : Token} {rest : List Token} :
    Follow level (t :: rest) ↔
      t.kind ≠ .power ∧ ∀ k, level? t.kind = some k → level < k := by
  simp [Follow]

/-- A row of tokens spells a canonical expression of at most the given level, and the tokens after
it do not go on with that expression. -/
structure Phrase (level : Nat) (e : Node) (used rest : List Token) : Prop where
  spelled : SpellsExpression e used
  canonical : CanonicalExpression e
  level_le : looseness e ≤ level
  follow : Follow level rest

/-! ## What is read is spelled -/

/-- A single token that is an expression spells it. -/
theorem spells_of_leaf?
    {t : Token} {e : Node} (h : leaf? t = some e) :
    SpellsExpression e [t] ∧ CanonicalExpression e ∧ isPrimary e = true := by
  unfold leaf? at h
  split at h
  case h_1 hkind =>
    cases h
    exact ⟨.number hkind, hkind, rfl⟩
  case h_2 hkind =>
    cases h
    exact ⟨.text hkind, hkind, rfl⟩
  case h_3 hkind =>
    cases h
    exact ⟨.character hkind, hkind, rfl⟩
  case h_4 hkind =>
    cases h
    exact ⟨.boolean (.inl hkind), .inl hkind, rfl⟩
  case h_5 hkind =>
    cases h
    exact ⟨.boolean (.inr hkind), .inr hkind, rfl⟩
  case h_6 hkind =>
    cases h
    exact ⟨.ghosted hkind, trivial, rfl⟩
  case h_7 hkind =>
    cases h
    exact ⟨.identifier (.inl hkind), .inl hkind, rfl⟩
  case h_8 hkind =>
    cases h
    exact ⟨.identifier (.inr hkind), .inr hkind, rfl⟩
  case h_9 => simp at h

/-- What an expression of a rank is read as is spelled by the tokens that were taken. -/
def BinarySound (rank : Nat) (ts : List Token) : Prop :=
  ∀ e rest, plain (binary rank ts) = .ok (e, rest) →
    ∃ used, ts = used ++ rest ∧ Phrase rank e used rest

/-- Operators and operands after a left operand go on with its spelling. -/
def ChainSound (rank : Nat) (left : Node) (ts : List Token) : Prop :=
  ∀ before e rest, SpellsExpression left before → CanonicalExpression left →
    looseness left ≤ rank + 1 → Follow rank ts →
    plain (chain rank left ts) = .ok (e, rest) →
      ∃ used, ts = used ++ rest ∧ Phrase (rank + 1) e (before ++ used) rest

/-- What an operand with its signs is read as is spelled by the tokens that were taken. -/
def UnarySound (ts : List Token) : Prop :=
  ∀ e rest, plain (unary ts) = .ok (e, rest) →
    ∃ used, ts = used ++ rest ∧ Phrase 0 e used rest

/-- An exponent after a base goes on with its spelling. -/
def PowerSound (base : Node) (ts : List Token) : Prop :=
  ∀ before e rest, SpellsExpression base before → CanonicalExpression base →
    isPrimary base = true → plain (power base ts) = .ok (e, rest) →
      ∃ used, ts = used ++ rest ∧ Phrase 0 e (before ++ used) rest

/-- What a literal, a variable or a group is read as is spelled by the tokens that were taken. -/
def PrimarySound (ts : List Token) : Prop :=
  ∀ e rest, plain (primary ts) = .ok (e, rest) →
    ∃ used, ts = used ++ rest ∧ SpellsExpression e used ∧ CanonicalExpression e ∧
      isPrimary e = true

theorem binarySound_zero
    {ts : List Token} (hunary : UnarySound ts) : BinarySound 0 ts := by
  intro e rest h
  rw [plain_binary_zero] at h
  exact hunary e rest h

theorem binarySound_succ
    {rank : Nat} {ts : List Token} (hbinary : BinarySound rank ts)
    (hchain : ∀ (left : Node) (rest : Shorter ts), ChainSound rank left rest.val) :
    BinarySound (rank + 1) ts := by
  intro e rest h
  rw [plain_binary_succ, bind_eq_ok] at h
  obtain ⟨⟨left, afterLeft⟩, hleft, hrest⟩ := h
  obtain ⟨before, rfl, phrase⟩ := hbinary left afterLeft hleft
  obtain ⟨shorter, -, hshorter⟩ := exists_of_plain_eq_ok hleft
  have hsound := hchain left shorter
  rw [hshorter] at hsound
  obtain ⟨used, rfl, whole⟩ :=
    hsound before e rest phrase.spelled phrase.canonical (Nat.le_succ_of_le phrase.level_le)
      phrase.follow hrest
  exact ⟨before ++ used, by rw [List.append_assoc], whole⟩

theorem chainSound_nil (rank : Nat) (left : Node) : ChainSound rank left [] := by
  intro before e rest hspelled hcanonical hlevel hfollow h
  rw [plain_chain_nil] at h
  cases h
  exact ⟨[], rfl, by simpa using hspelled, hcanonical, hlevel, follow_nil _⟩

/-- Without an operator of the level the expression ends. -/
theorem chainSound_stop
    {rank : Nat} (left : Node) {t : Token} {ts : List Token}
    (hrank : rank? t.kind ≠ some (rank + 1)) : ChainSound rank left (t :: ts) := by
  intro before e rest hspelled hcanonical hlevel hfollow h
  rw [plain_chain_cons, if_neg hrank] at h
  cases h
  refine ⟨[], rfl, by simpa using hspelled, hcanonical, hlevel, ?_⟩
  rw [follow_cons] at hfollow ⊢
  refine ⟨hfollow.1, fun k hk => ?_⟩
  have hlt := hfollow.2 k hk
  have hne : k ≠ rank + 1 := by
    rintro rfl
    exact hrank ((rank?_eq_level? _).trans hk)
  omega

theorem chainSound_step
    {rank : Nat} {left : Node} {t : Token} {ts : List Token}
    (hrank : rank? t.kind = some (rank + 1)) (hbinary : BinarySound rank ts)
    (hchain : ∀ (right : Node) (rest : Shorter ts),
      ChainSound rank (.binary left t.mark right) rest.val) :
    ChainSound rank left (t :: ts) := by
  intro before e rest hspelled hcanonical hlevel hfollow h
  rw [plain_chain_cons, if_pos hrank, bind_eq_ok] at h
  obtain ⟨⟨right, afterRight⟩, hright, hrest⟩ := h
  obtain ⟨after, rfl, phrase⟩ := hbinary right afterRight hright
  obtain ⟨shorter, -, hshorter⟩ := exists_of_plain_eq_ok hright
  have hsound := hchain right shorter
  rw [hshorter] at hsound
  have hoperator : level? t.kind = some (rank + 1) := by
    rw [← rank?_eq_level?]
    exact hrank
  have hbinarySpelled : SpellsExpression (.binary left t.mark right) (before ++ t :: after) := by
    refine .binary (.inl ?_) hspelled phrase.spelled
    exact Option.isSome_of_eq_some hoperator
  have hbinaryCanonical : CanonicalExpression (.binary left t.mark right) := by
    refine ⟨hcanonical, phrase.canonical, ?_⟩
    rw [Token.mark_kind, hoperator]
    exact ⟨hlevel, Nat.lt_succ_of_le phrase.level_le⟩
  have hbinaryLevel : looseness (.binary left t.mark right) ≤ rank + 1 := by
    simp [looseness, hoperator]
  obtain ⟨used, rfl, whole⟩ :=
    hsound _ e rest hbinarySpelled hbinaryCanonical hbinaryLevel phrase.follow hrest
  exact ⟨t :: (after ++ used), by simp, by simpa using whole⟩

theorem unarySound_nil : UnarySound [] := by
  intro e rest h
  rw [plain_unary_nil] at h
  cases h

theorem unarySound_sign
    {t : Token} {ts : List Token} (hsign : isSign t.kind = true) (hunary : UnarySound ts) :
    UnarySound (t :: ts) := by
  intro e rest h
  rw [plain_unary_cons, if_pos hsign, bind_eq_ok] at h
  obtain ⟨⟨operand, afterOperand⟩, hoperand, hrest⟩ := h
  cases hrest
  obtain ⟨used, rfl, phrase⟩ := hunary operand afterOperand hoperand
  have hkind := (isSign_iff t.kind).mp hsign
  refine ⟨t :: used, rfl, .unary hkind phrase.spelled, ?_, Nat.le_refl 0, phrase.follow⟩
  exact ⟨hkind, phrase.canonical, Nat.le_zero.mp phrase.level_le⟩

theorem unarySound_power
    {t : Token} {ts : List Token} (hsign : ¬isSign t.kind = true)
    (hprimary : PrimarySound (t :: ts))
    (hpower : ∀ (base : Node) (rest : Shorter (t :: ts)), PowerSound base rest.val) :
    UnarySound (t :: ts) := by
  intro e rest h
  rw [plain_unary_cons, if_neg hsign, bind_eq_ok] at h
  obtain ⟨⟨base, afterBase⟩, hbase, hrest⟩ := h
  obtain ⟨before, hbefore, hspelled, hcanonical, hprim⟩ := hprimary base afterBase hbase
  obtain ⟨shorter, -, hshorter⟩ := exists_of_plain_eq_ok hbase
  have hsound := hpower base shorter
  rw [hshorter] at hsound
  obtain ⟨used, rfl, phrase⟩ := hsound before e rest hspelled hcanonical hprim hrest
  exact ⟨before ++ used, by rw [hbefore, List.append_assoc], phrase⟩

theorem powerSound_nil (base : Node) : PowerSound base [] := by
  intro before e rest hspelled hcanonical hprim h
  rw [plain_power_nil] at h
  cases h
  exact ⟨[], rfl, by simpa using hspelled, hcanonical,
    Nat.le_of_eq (looseness_of_isPrimary hprim), follow_nil 0⟩

/-- Every operator other than the power leaves an operand as it is. -/
theorem powerSound_stop
    (base : Node) {t : Token} {ts : List Token} (hkind : t.kind ≠ .power) :
    PowerSound base (t :: ts) := by
  intro before e rest hspelled hcanonical hprim h
  rw [plain_power_cons, if_neg hkind] at h
  cases h
  refine ⟨[], rfl, by simpa using hspelled, hcanonical,
    Nat.le_of_eq (looseness_of_isPrimary hprim), ?_⟩
  exact follow_cons.mpr ⟨hkind, fun k hk => (level?_pos hk).1⟩

theorem powerSound_step
    {base : Node} {t : Token} {ts : List Token} (hkind : t.kind = .power)
    (hunary : UnarySound ts) : PowerSound base (t :: ts) := by
  intro before e rest hspelled hcanonical hprim h
  rw [plain_power_cons, if_pos hkind, bind_eq_ok] at h
  obtain ⟨⟨exponent, afterExponent⟩, hexponent, hrest⟩ := h
  cases hrest
  obtain ⟨used, rfl, phrase⟩ := hunary exponent afterExponent hexponent
  have hlevel : level? t.kind = none := by
    rw [hkind]
    rfl
  refine ⟨t :: used, rfl, .binary (.inr hkind) hspelled phrase.spelled, ?_, ?_, phrase.follow⟩
  · refine ⟨hcanonical, phrase.canonical, ?_⟩
    rw [Token.mark_kind, hlevel]
    exact ⟨hkind, hprim, Nat.le_zero.mp phrase.level_le⟩
  · simp [looseness, hlevel]

theorem primarySound_nil : PrimarySound [] := by
  intro e rest h
  rw [plain_primary_nil] at h
  cases h

theorem primarySound_leaf
    {t : Token} {ts : List Token} {leaf : Node} (hleaf : leaf? t = some leaf) :
    PrimarySound (t :: ts) := by
  intro e rest h
  rw [plain_primary_cons, hleaf] at h
  cases h
  exact ⟨[t], rfl, spells_of_leaf? hleaf⟩

theorem primarySound_group
    {t : Token} {ts : List Token} (hleaf : leaf? t = none) (hkind : t.kind = .leftParen)
    (hbinary : BinarySound loosest ts) : PrimarySound (t :: ts) := by
  intro e rest h
  rw [plain_primary_cons, hleaf] at h
  dsimp only at h
  rw [if_pos hkind, bind_eq_ok] at h
  obtain ⟨⟨inner, afterInner⟩, hinner, h⟩ := h
  obtain ⟨used, rfl, phrase⟩ := hbinary inner afterInner hinner
  rw [bind_eq_ok] at h
  obtain ⟨⟨closing, afterClosing⟩, hclosing, hrest⟩ := h
  cases hrest
  obtain ⟨hclosingKind, rfl⟩ := eq_cons_of_plain_expect hclosing
  exact ⟨t :: (used ++ [closing]), by simp, .group hkind hclosingKind phrase.spelled,
    phrase.canonical, rfl⟩

theorem primarySound_other
    {t : Token} {ts : List Token} (hleaf : leaf? t = none) (hkind : t.kind ≠ .leftParen) :
    PrimarySound (t :: ts) := by
  intro e rest h
  rw [plain_primary_cons, hleaf] at h
  dsimp only at h
  rw [if_neg hkind] at h
  cases h

/-- Every result of reading an expression is spelled by the tokens that were taken. -/
theorem binarySound (rank : Nat) (ts : List Token) : BinarySound rank ts := by
  have hall := binary.mutual_induct BinarySound ChainSound UnarySound PowerSound PrimarySound
    (fun _ => binarySound_zero) (fun _ _ => binarySound_succ)
    chainSound_nil (fun _ _ _ _ => chainSound_step) (fun _ left _ _ => chainSound_stop left)
    unarySound_nil (fun _ _ => unarySound_sign) (fun _ _ => unarySound_power)
    powerSound_nil (fun _ _ _ => powerSound_step) (fun base _ _ => powerSound_stop base)
    primarySound_nil (fun _ _ _ => primarySound_leaf) (fun _ _ => primarySound_group)
    (fun _ _ => primarySound_other)
  exact hall.1 rank ts

/-! ## What is spelled is read -/

theorem Follow.mono
    {level level' : Nat} {rest : List Token} (h : Follow level' rest) (hle : level ≤ level') :
    Follow level rest := by
  intro t ht
  refine ⟨(h t ht).1, fun k hk => ?_⟩
  exact Nat.lt_of_le_of_lt hle ((h t ht).2 k hk)

theorem plain_chain_of_follow
    {rank : Nat} {e : Node} {rest : List Token} (h : Follow (rank + 1) rest) :
    plain (chain rank e rest) = .ok (e, rest) := by
  cases rest with
  | nil => exact plain_chain_nil rank e
  | cons t later =>
      have hrank : rank? t.kind ≠ some (rank + 1) := by
        intro hrank
        rw [rank?_eq_level?] at hrank
        exact Nat.lt_irrefl _ ((follow_cons.mp h).2 _ hrank)
      rw [plain_chain_cons, if_neg hrank]

theorem plain_power_of_follow
    {e : Node} {rest : List Token} (h : Follow 0 rest) :
    plain (power e rest) = .ok (e, rest) := by
  cases rest with
  | nil => exact plain_power_nil e
  | cons t later => rw [plain_power_cons, if_neg (follow_cons.mp h).1]

theorem plain_binary_eq_chain
    {rank : Nat} {e : Node} {ts rest : List Token}
    (h : plain (binary rank ts) = .ok (e, rest)) :
    plain (binary (rank + 1) ts) = plain (chain rank e rest) := by
  rw [plain_binary_succ, h]
  rfl

/-- An expression that is read at one rank is read at every looser rank. -/
theorem plain_binary_of_le
    {rank rank' : Nat} {e : Node} {used : List Token} (hle : rank ≤ rank')
    (h : ∀ rest, Follow rank rest → plain (binary rank (used ++ rest)) = .ok (e, rest))
    {rest : List Token} (hfollow : Follow rank' rest) :
    plain (binary rank' (used ++ rest)) = .ok (e, rest) := by
  induction hle generalizing rest with
  | refl => exact h rest hfollow
  | step _ ih =>
      have hread := ih (hfollow.mono (Nat.le_succ _))
      rw [plain_binary_eq_chain hread]
      exact plain_chain_of_follow hfollow

/-- The parsing functions take exactly the tokens that spell the expression. -/
structure Readable (e : Node) (used : List Token) : Prop where
  primary : isPrimary e = true → ∀ rest, plain (primary (used ++ rest)) = .ok (e, rest)
  operand : looseness e = 0 → ∀ rest, Follow 0 rest → plain (unary (used ++ rest)) = .ok (e, rest)
  /-- An operator of the next rank may follow; the expression is then its left operand. -/
  chained : ∀ rank rest, looseness e ≤ rank + 1 → Follow rank rest →
    plain (binary (rank + 1) (used ++ rest)) = plain (chain rank e rest)

namespace Readable

variable {e : Node} {used : List Token}

theorem binary
    (h : Readable e used) {rank : Nat} {rest : List Token}
    (hlevel : looseness e ≤ rank) (hfollow : Follow rank rest) :
    plain (binary rank (used ++ rest)) = .ok (e, rest) := by
  cases rank with
  | zero =>
      rw [plain_binary_zero]
      exact h.operand (Nat.le_zero.mp hlevel) rest hfollow
  | succ rank =>
      rw [h.chained rank rest hlevel (hfollow.mono (Nat.le_succ _))]
      exact plain_chain_of_follow hfollow

/-- An expression without an operator that groups to the left is readable as soon as it is read as
an operand. -/
theorem of_operand
    (hprimary : isPrimary e = true → ∀ rest, plain (Parser.primary (used ++ rest)) = .ok (e, rest))
    (hunary : ∀ rest, Follow 0 rest → plain (unary (used ++ rest)) = .ok (e, rest)) :
    Readable e used where
  primary := hprimary
  operand := fun _ => hunary
  chained := by
    intro rank rest _ hfollow
    apply plain_binary_eq_chain
    refine plain_binary_of_le (Nat.zero_le rank) ?_ hfollow
    intro rest' hfollow'
    rw [plain_binary_zero]
    exact hunary rest' hfollow'

theorem of_primary
    (hsign : ∀ t ∈ used.head?, isSign t.kind = false) (hused : used ≠ [])
    (hprimary : ∀ rest, plain (Parser.primary (used ++ rest)) = .ok (e, rest)) :
    Readable e used := by
  refine of_operand (fun _ => hprimary) ?_
  intro rest hfollow
  obtain ⟨t, later, rfl⟩ := List.exists_cons_of_ne_nil hused
  have hnot : ¬isSign t.kind = true := by
    simp [hsign t (by simp)]
  have hread := hprimary rest
  rw [List.cons_append] at hread ⊢
  rw [plain_unary_cons, if_neg hnot, hread]
  exact plain_power_of_follow hfollow

theorem of_leaf {t : Token} (hleaf : leaf? t = some e) : Readable e [t] := by
  refine of_primary ?_ (by simp) ?_
  · intro t' ht'
    cases ht'
    unfold leaf? at hleaf
    cases hkind : t.kind <;> simp [hkind] at hleaf <;> rfl
  · intro rest
    rw [List.singleton_append, plain_primary_cons, hleaf]

theorem group
    {opening closing : Token} (hopening : opening.kind = .leftParen)
    (hclosing : closing.kind = .rightParen) (hinner : Readable e used)
    (hlevel : looseness e ≤ loosest) :
    Readable (.group e) (opening :: (used ++ [closing])) := by
  refine of_primary ?_ (by simp) ?_
  · intro t ht
    cases ht
    rw [hopening]
    rfl
  · intro rest
    have hleaf : leaf? opening = none := by simp [leaf?, hopening]
    have hfollow : Follow loosest (closing :: rest) := by
      refine follow_cons.mpr ⟨by simp [hclosing], fun k hk => ?_⟩
      rw [hclosing] at hk
      cases hk
    have hread := hinner.binary hlevel hfollow
    have htokens : opening :: (used ++ [closing]) ++ rest = opening :: (used ++ closing :: rest) := by
      simp
    rw [htokens, plain_primary_cons, hleaf]
    dsimp only
    rw [if_pos hopening, hread]
    simp [Except.bind, plain_expect_cons, hclosing]

theorem unary
    {operator : Token} (hoperator : IsSign operator.kind) (hoperand : Readable e used)
    (hlevel : looseness e = 0) :
    Readable (.unary operator.mark e) (operator :: used) := by
  refine of_operand (by simp [isPrimary]) ?_
  intro rest hfollow
  have hread := hoperand.operand hlevel rest hfollow
  rw [List.cons_append, plain_unary_cons, if_pos ((isSign_iff _).mpr hoperator), hread]
  rfl

theorem power
    {operator : Token} {base : Node} {before : List Token} (hoperator : operator.kind = .power)
    (hbase : Readable base before) (hprim : isPrimary base = true)
    (hsign : ∀ t ∈ before.head?, isSign t.kind = false) (hbefore : before ≠ [])
    (hexponent : Readable e used) (hlevel : looseness e = 0) :
    Readable (.binary base operator.mark e) (before ++ operator :: used) := by
  refine of_operand (by simp [isPrimary]) ?_
  intro rest hfollow
  obtain ⟨t, later, rfl⟩ := List.exists_cons_of_ne_nil hbefore
  have hnot : ¬isSign t.kind = true := by
    simp [hsign t (by simp)]
  have hreadBase := hbase.primary hprim (operator :: (used ++ rest))
  have hread := hexponent.operand hlevel rest hfollow
  rw [List.cons_append] at hreadBase
  have htokens : t :: later ++ operator :: used ++ rest =
      t :: (later ++ operator :: (used ++ rest)) := by
    simp
  rw [htokens, plain_unary_cons, if_neg hnot, hreadBase]
  simp [Except.bind, plain_power_cons, hoperator, hread]

/-- An operator of a level goes on with its left operand, whatever that operand is made with. -/
theorem leveled
    {operator : Token} {left : Node} {before : List Token} {level : Nat}
    (hoperator : level? operator.kind = some (level + 1))
    (hleft : Readable left before) (hleftLevel : looseness left ≤ level + 1)
    (hright : Readable e used) (hrightLevel : looseness e ≤ level) :
    Readable (.binary left operator.mark e) (before ++ operator :: used) := by
  have hlooseness : looseness (.binary left operator.mark e) = level + 1 := by
    change (level? operator.kind).getD 0 = level + 1
    rw [hoperator]
    rfl
  have hown : ∀ rest, Follow level rest →
      plain (Parser.binary (level + 1) (before ++ operator :: used ++ rest)) =
        plain (chain level (.binary left operator.mark e) rest) := by
    intro rest hfollow
    have hnext : Follow level (operator :: (used ++ rest)) := by
      refine follow_cons.mpr ⟨?_, fun k hk => ?_⟩
      · intro hpower
        rw [hpower] at hoperator
        cases hoperator
      · rw [hoperator] at hk
        cases hk
        exact Nat.lt_succ_self level
    have htokens : before ++ operator :: used ++ rest = before ++ operator :: (used ++ rest) := by
      simp
    have hrank : rank? operator.kind = some (level + 1) := (rank?_eq_level? _).trans hoperator
    rw [htokens, hleft.chained level _ hleftLevel hnext, plain_chain_cons, if_pos hrank,
      hright.binary hrightLevel hfollow]
    rfl
  constructor
  · simp [isPrimary]
  · intro hzero
    omega
  · intro rank rest hle hfollow
    rw [hlooseness] at hle
    rcases Nat.lt_or_eq_of_le hle with hlt | heq
    · apply plain_binary_eq_chain
      refine plain_binary_of_le (Nat.le_of_lt_succ hlt) ?_ hfollow
      intro rest' hfollow'
      rw [hown rest' (hfollow'.mono (Nat.le_succ level))]
      exact plain_chain_of_follow hfollow'
    · cases heq
      exact hown rest hfollow

end Readable

/-- A canonical expression is at most as loose as the loosest operator. -/
theorem looseness_le_loosest (e : Node) : looseness e ≤ loosest := by
  unfold looseness
  split
  · rename_i operator _
    cases hlevel : level? operator.kind with
    | none => exact Nat.zero_le _
    | some level => exact (level?_pos hlevel).2
  · exact Nat.zero_le _

theorem SpellsExpression.ne_nil
    {e : Node} {used : List Token} (h : SpellsExpression e used) : used ≠ [] := by
  cases h <;> simp

/-- A primary expression does not start with a sign. -/
theorem SpellsExpression.head_not_sign
    {e : Node} {used : List Token} (h : SpellsExpression e used) (hprim : isPrimary e = true) :
    ∀ t ∈ used.head?, isSign t.kind = false := by
  intro t ht
  cases h with
  | number h => cases ht; simp [h, isSign]
  | text h => cases ht; simp [h, isSign]
  | character h => cases ht; simp [h, isSign]
  | boolean h => cases ht; rcases h with h | h <;> simp [h, isSign]
  | ghosted h => cases ht; simp [h, isSign]
  | identifier h => cases ht; rcases h with h | h <;> simp [h, isSign]
  | group hopening => cases ht; simp [hopening, isSign]
  | unary => simp [isPrimary] at hprim
  | binary => simp [isPrimary] at hprim

/-- The tokens of a canonical expression are read as that expression. -/
theorem readable_of_spelled
    {e : Node} {used : List Token} (h : SpellsExpression e used)
    (hcanonical : CanonicalExpression e) : Readable e used := by
  induction h with
  | number h => exact .of_leaf (by simp [leaf?, h])
  | text h => exact .of_leaf (by simp [leaf?, h])
  | character h => exact .of_leaf (by simp [leaf?, h])
  | boolean h => exact .of_leaf (by rcases h with h | h <;> simp [leaf?, h])
  | ghosted h => exact .of_leaf (by simp [leaf?, h])
  | identifier h => exact .of_leaf (by rcases h with h | h <;> simp [leaf?, h])
  | group hopening hclosing _ ih =>
      exact .group hopening hclosing (ih hcanonical) (looseness_le_loosest _)
  | unary hoperator _ ih =>
      obtain ⟨-, hoperand, hlevel⟩ := hcanonical
      exact .unary hoperator (ih hoperand) hlevel
  | @binary operator left right before after hoperator hleft hright ihLeft ihRight =>
      obtain ⟨hleftCanonical, hrightCanonical, hlevels⟩ := hcanonical
      cases hlevel : level? operator.kind with
      | none =>
          rw [Token.mark_kind, hlevel] at hlevels
          obtain ⟨hpower, hprim, hzero⟩ := hlevels
          exact .power hpower (ihLeft hleftCanonical) hprim (hleft.head_not_sign hprim) hleft.ne_nil
            (ihRight hrightCanonical) hzero
      | some level =>
          rw [Token.mark_kind, hlevel] at hlevels
          obtain ⟨hleftLevel, hrightLevel⟩ := hlevels
          obtain ⟨below, rfl⟩ := Nat.exists_eq_succ_of_ne_zero (Nat.ne_of_gt (level?_pos hlevel).1)
          exact .leveled hlevel (ihLeft hleftCanonical) hleftLevel (ihRight hrightCanonical)
            (Nat.le_of_lt_succ hrightLevel)

/-- Reading an expression takes the tokens of a canonical expression that the others do not go on
with, and nothing else. -/
theorem plain_expression_eq_ok_iff
    {ts : List Token} {e : Node} {rest : List Token} :
    plain (expression ts) = .ok (e, rest) ↔
      ∃ used, ts = used ++ rest ∧ Phrase loosest e used rest := by
  constructor
  · exact binarySound loosest ts e rest
  · rintro ⟨used, rfl, phrase⟩
    exact (readable_of_spelled phrase.spelled phrase.canonical).binary phrase.level_le phrase.follow

end Slang.Grammar
