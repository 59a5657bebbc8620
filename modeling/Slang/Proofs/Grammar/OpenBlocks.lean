import Mathlib.Data.List.Forall2
import Slang.Proofs.Grammar.Sequence

/-!
# Open blocks at the end of a program

A block may be left open at the end of the tokens.  How many are is a matter of counting: every
closing word closes one block.  Further closing words after the program close these blocks and change
nothing else.  One word too many is no statement, and the parser stops there.  Which of the closing
words is written never matters.

If no block is open, another program may follow.
-/

namespace Slang

namespace Node

mutual

/-- The number of blocks in a statement, at any depth. -/
def blocks : Node → Nat
  | .block body => blocksAll body + 1
  | .conditional _ consequent alternative => blocks consequent + blocks alternative
  | _ => 0

/-- The number of blocks in statements, at any depth. -/
def blocksAll : List Node → Nat
  | [] => 0
  | node :: later => blocks node + blocksAll later

end

end Node

namespace Grammar

open Slang.Parser

/-- The number of closing words among tokens. -/
def closingWords (tokens : List Token) : Nat :=
  tokens.countP (·.kind.isTerminator)

/-- The number of blocks of a program that are still open at the end of its tokens.  Each closing
word has closed one of them. -/
def openBlocks (statements : List Node) (tokens : List Token) : Nat :=
  Node.blocksAll statements - closingWords tokens

/-! ## Counting closing words -/

theorem closingWords_append (first later : List Token) :
    closingWords (first ++ later) = closingWords first + closingWords later :=
  List.countP_append

theorem closingWords_cons_of_not_closes
    {t : Token} (ht : ¬Closes t.kind) (later : List Token) :
    closingWords (t :: later) = closingWords later :=
  List.countP_cons_of_neg (by simpa [isTerminator_iff] using ht)

theorem closingWords_eq_zero {tokens : List Token} (h : ∀ t ∈ tokens, ¬Closes t.kind) :
    closingWords tokens = 0 :=
  List.countP_eq_zero.mpr fun t ht => by simpa [isTerminator_iff] using h t ht

theorem not_closes_of_closingWords {tokens : List Token} (h : closingWords tokens = 0) :
    ∀ t ∈ tokens, ¬Closes t.kind := by
  intro t ht hcloses
  exact List.countP_eq_zero.mp h t ht ((isTerminator_iff _).mpr hcloses)

theorem closingWords_eq_length {tokens : List Token} (h : ∀ t ∈ tokens, Closes t.kind) :
    closingWords tokens = tokens.length :=
  List.countP_eq_length.mpr fun t ht => (isTerminator_iff _).mpr (h t ht)

mutual

/-- The spelling of a statement has a closing word for every block. -/
theorem Spells.closingWords_eq
    {node : Node} {tokens : List Token} (h : Spells node tokens) :
    closingWords tokens = node.blocks := by
  cases h with
  | spill hword hvalue =>
      exact closingWords_eq_zero (by simpa [hword, Closes] using hvalue.not_closes)
  | expression hvalue => exact closingWords_eq_zero hvalue.not_closes
  | declaration htarget _ hword hvalue =>
      exact closingWords_eq_zero (by simpa [htarget, hword, Closes] using hvalue.not_closes)
  | teaDeclaration htea htarget _ hword hvalue =>
      exact closingWords_eq_zero (by simpa [htea, htarget, hword, Closes] using hvalue.not_closes)
  | assignment htarget hword hvalue =>
      exact closingWords_eq_zero (by simpa [htarget, hword, Closes] using hvalue.not_closes)
  | listen hlisten hprompt hword htarget =>
      exact closingWords_eq_zero (by simp [hlisten, hprompt, hword, htarget, Closes])
  | block hopening hclosing hbody =>
      rw [closingWords_cons_of_not_closes (by simp [hopening, Closes]), closingWords_append,
        hbody.closingWords_eq, closingWords_eq_length (by simpa using hclosing)]
      rfl
  | conditional hbet hcondition hconsequent =>
      rw [closingWords_cons_of_not_closes (by simp [hbet, Closes]), closingWords_append,
        closingWords_eq_zero hcondition.not_closes, hconsequent.closingWords_eq, Node.blocks,
        Nat.zero_add]
      rfl
  | alternative hbet hcondition hconsequent hdeadass hotherwise =>
      rw [closingWords_cons_of_not_closes (by simp [hbet, Closes]), closingWords_append,
        closingWords_eq_zero hcondition.not_closes, closingWords_append,
        closingWords_cons_of_not_closes (by simp [hdeadass, Closes]), hconsequent.closingWords_eq,
        hotherwise.closingWords_eq, Nat.zero_add, Node.blocks]

/-- The spelling of statements has a closing word for every block. -/
theorem SpellsAll.closingWords_eq
    {body : List Node} {tokens : List Token} (h : SpellsAll body tokens) :
    closingWords tokens = Node.blocksAll body := by
  cases h with
  | nil => rfl
  | cons hnode hlater =>
      rw [closingWords_append, hnode.closingWords_eq, hlater.closingWords_eq, Node.blocksAll]

end

/-! ## Exchanging closing words -/

/-- The same token, or one closing word in the place of another. -/
def Interchangeable (t u : Token) : Prop :=
  u = t ∨ Closes t.kind ∧ Closes u.kind

/-- Two rows of tokens that differ in nothing but the choice of closing words. -/
abbrev Alike : List Token → List Token → Prop :=
  List.Forall₂ Interchangeable

theorem Alike.refl (tokens : List Token) : Alike tokens tokens :=
  List.forall₂_same.mpr fun _ _ => .inl rfl

theorem Alike.append
    {first first' later later' : List Token} (h : Alike first first') (h' : Alike later later') :
    Alike (first ++ later) (first' ++ later') :=
  List.rel_append h h'

/-- Closing words may be exchanged for as many other ones. -/
theorem alike_of_closes
    {first later : List Token} (hlength : first.length = later.length)
    (hfirst : ∀ t ∈ first, Closes t.kind) (hlater : ∀ t ∈ later, Closes t.kind) :
    Alike first later := by
  refine List.forall₂_iff_zip.mpr ⟨hlength, fun {t u} hpair => .inr ⟨?_, ?_⟩⟩
  · exact hfirst t (List.of_mem_zip hpair).1
  · exact hlater u (List.of_mem_zip hpair).2

theorem Alike.eq_of_not_closes
    {tokens tokens' : List Token} (h : Alike tokens tokens')
    (hcloses : ∀ t ∈ tokens, ¬Closes t.kind) : tokens' = tokens := by
  induction h with
  | nil => rfl
  | cons hhead _ ih =>
      obtain ⟨ht, hlater⟩ := List.forall_mem_cons.mp hcloses
      rw [hhead.resolve_right fun hboth => ht hboth.1, ih hlater]

theorem Alike.split
    {first later tokens : List Token} (h : Alike (first ++ later) tokens) :
    ∃ first' later', tokens = first' ++ later' ∧ Alike first first' ∧ Alike later later' := by
  induction first generalizing tokens with
  | nil => exact ⟨[], tokens, rfl, .nil, h⟩
  | cons t first ih =>
      obtain ⟨u, rest, hhead, hrest, rfl⟩ := List.forall₂_cons_left_iff.mp h
      obtain ⟨first', later', rfl, hfirst, hlater⟩ := ih hrest
      exact ⟨u :: first', later', rfl, .cons hhead hfirst, hlater⟩

/-- Up to the first closing word two rows are the same. -/
theorem Alike.split_of_not_closes
    {first later tokens : List Token} (h : Alike (first ++ later) tokens)
    (hfirst : ∀ t ∈ first, ¬Closes t.kind) :
    ∃ later', tokens = first ++ later' ∧ Alike later later' := by
  obtain ⟨first', later', rfl, hsame, hlater⟩ := h.split
  exact ⟨later', by rw [hsame.eq_of_not_closes hfirst], hlater⟩

mutual

/-- Rows of tokens that differ in their closing words only spell the same statement. -/
theorem Spells.of_alike
    {node : Node} {tokens tokens' : List Token} (h : Spells node tokens)
    (halike : Alike tokens tokens') : Spells node tokens' := by
  -- Without a block there is nothing to exchange.
  by_cases hblocks : node.blocks = 0
  · rwa [halike.eq_of_not_closes (not_closes_of_closingWords (h.closingWords_eq.trans hblocks))]
  cases h with
  | @block opening closing body inner hopening hclosing hbody =>
      have hsplit : Alike ([opening] ++ (inner ++ [closing])) tokens' := halike
      obtain ⟨rest, rfl, hrest⟩ := hsplit.split_of_not_closes (by simp [hopening, Closes])
      obtain ⟨inner', closing', rfl, hinner, hend⟩ := hrest.split
      obtain ⟨word, _, hword, hnil, rfl⟩ := List.forall₂_cons_left_iff.mp hend
      obtain rfl := List.forall₂_nil_left_iff.mp hnil
      refine .block hopening ?_ (hbody.of_alike hinner)
      rcases hword with rfl | ⟨-, hcloses⟩
      · exact hclosing
      · exact hcloses
  | @conditional bet condition consequent test first hbet hcondition hconsequent =>
      have hsplit : Alike ((bet :: test) ++ first) tokens' := halike
      obtain ⟨first', rfl, hfirst⟩ := hsplit.split_of_not_closes (by
        simpa [hbet, Closes] using hcondition.not_closes)
      exact .conditional hbet hcondition (hconsequent.of_alike hfirst)
  | @alternative bet deadass condition consequent otherwise test first second hbet hcondition
      hconsequent hdeadass hotherwise =>
      have hsplit : Alike ((bet :: test) ++ (first ++ ([deadass] ++ second))) tokens' := halike
      obtain ⟨rest, rfl, hrest⟩ := hsplit.split_of_not_closes (by
        simpa [hbet, Closes] using hcondition.not_closes)
      obtain ⟨first', rest', rfl, hfirst, hrest'⟩ := hrest.split
      obtain ⟨second', rfl, hsecond⟩ := hrest'.split_of_not_closes (by simp [hdeadass, Closes])
      exact .alternative hbet hcondition (hconsequent.of_alike hfirst) hdeadass
        (hotherwise.of_alike hsecond)
  | _ => exact absurd rfl hblocks

/-- Rows of tokens that differ in their closing words only spell the same statements. -/
theorem SpellsAll.of_alike
    {body : List Node} {tokens tokens' : List Token} (h : SpellsAll body tokens)
    (halike : Alike tokens tokens') : SpellsAll body tokens' := by
  cases h with
  | nil =>
      obtain rfl := List.forall₂_nil_left_iff.mp halike
      exact .nil
  | cons hnode hlater =>
      obtain ⟨first', rest', rfl, hfirst, hrest⟩ := halike.split
      exact .cons (hnode.of_alike hfirst) (hlater.of_alike hrest)

end

/-! ## Closing words after a program -/

/-- No expression starts with a closing word. -/
theorem plain_binary_of_closes
    {t : Token} (ht : Closes t.kind) (rank : Nat) (later : List Token) :
    plain (binary rank (t :: later)) = .error (.unexpected ⟨t, .expression⟩) := by
  induction rank with
  | zero =>
      have hleaf : leaf? t = none := by rcases ht with h | h | h <;> simp [leaf?, h]
      have hsign : ¬isSign t.kind = true := by rcases ht with h | h | h <;> simp [isSign, h]
      have hparen : t.kind ≠ .leftParen := by rcases ht with h | h | h <;> simp [h]
      rw [plain_binary_zero, plain_unary_cons, if_neg hsign, plain_primary_cons, hleaf]
      dsimp only
      rw [if_neg hparen]
      rfl
  | succ rank ih =>
      rw [plain_binary_succ, ih]
      rfl

/-- No program starts with a closing word. -/
theorem program_of_closes {t : Token} (ht : Closes t.kind) (later : List Token) :
    program (t :: later) = .error (.unexpected ⟨t, .expression⟩) := by
  have hend : t.kind ≠ .endOfFile := by rcases ht with h | h | h <;> simp [h]
  have hopener : isOpener t.kind = false := by rcases ht with h | h | h <;> simp [isOpener, h]
  have hassign : ¬(t.kind = .identifier ∧ startsWith .asWord later = true) := by
    rcases ht with h | h | h <;> simp [h]
  rw [program_cons, if_neg hend, plain_statement_other later hopener, if_neg hassign, expression,
    plain_binary_of_closes ht]
  rfl

section Programs

variable {tokens : List Token} {last : Token} {statements : List Node}
  (hlast : last.kind = .endOfFile) (honly : ∀ t ∈ tokens, t.kind ≠ .endOfFile)
  (h : program (tokens ++ [last]) = .ok statements)

include hlast honly h

/-- Closing words complete the spelling of a program exactly if there is one for every open block. -/
theorem spellsAll_append_closing_iff {closing : List Token} (hclosing : ∀ t ∈ closing, Closes t.kind) :
    SpellsAll statements (tokens ++ closing) ↔ closing.length = openBlocks statements tokens := by
  have hcount {words : List Token} (hwords : ∀ t ∈ words, Closes t.kind)
      (hspelled : SpellsAll statements (tokens ++ words)) :
      words.length = openBlocks statements tokens := by
    have hall := hspelled.closingWords_eq
    rw [closingWords_append, closingWords_eq_length hwords] at hall
    rw [openBlocks, ← hall, Nat.add_sub_cancel_left]
  constructor
  · exact hcount hclosing
  · intro hlength
    obtain ⟨missing, hmissing, hspelled⟩ := spellsProgram_of_program hlast honly h
    have hsame : missing.length = closing.length := (hcount hmissing hspelled).trans hlength.symm
    exact hspelled.of_alike ((Alike.refl tokens).append (alike_of_closes hsame hmissing hclosing))

/-- Where a program has open blocks, closing words may be written. -/
theorem program_append_closing
    {mark : Token} (hmark : mark.kind = .endOfFile) {closing : List Token}
    (hclosing : ∀ t ∈ closing, Closes t.kind)
    (hlength : closing.length ≤ openBlocks statements tokens) :
    program (tokens ++ closing ++ [mark]) = .ok statements := by
  -- The words that are still missing then may be any.
  let missing := List.replicate (openBlocks statements tokens - closing.length) closingWord
  have hmissing : ∀ t ∈ missing, Closes t.kind := by
    intro t ht
    rw [List.eq_of_mem_replicate ht]
    exact .inl rfl
  have hall : ∀ t ∈ closing ++ missing, Closes t.kind := by
    intro t ht
    exact (List.mem_append.mp ht).elim (hclosing t) (hmissing t)
  have hspelled : SpellsAll statements (tokens ++ (closing ++ missing)) := by
    apply (spellsAll_append_closing_iff hlast honly h hall).mpr
    rw [List.length_append, List.length_replicate]
    omega
  rw [← List.append_assoc] at hspelled
  exact program_of_spelled (spelled_of_program _ _ h).1 ⟨missing, hmissing, hspelled⟩ hmark

/-- After the closing words of all open blocks, another closing word is an error. -/
theorem program_append_surplus
    {closing : List Token} (hclosing : ∀ t ∈ closing, Closes t.kind)
    (hlength : closing.length = openBlocks statements tokens) {surplus : Token}
    (hsurplus : Closes surplus.kind) (later : List Token) :
    program (tokens ++ closing ++ surplus :: later) =
      .error (.unexpected ⟨surplus, .expression⟩) := by
  have hspelled := (spellsAll_append_closing_iff hlast honly h hclosing).mpr hlength
  have hnext : Next [] (surplus :: later) := by
    rintro t ⟨⟩
    exact .inr (.inl hsurplus)
  rw [program_append_eq (spelled_of_program _ _ h).1 hspelled hnext, program_of_closes hsurplus]
  rfl

/-- It makes no difference to a program which of the closing words are written in it. -/
theorem program_of_alike
    {mark : Token} (hmark : mark.kind = .endOfFile) {tokens' : List Token}
    (halike : Alike tokens tokens') : program (tokens' ++ [mark]) = .ok statements := by
  obtain ⟨missing, hmissing, hspelled⟩ := spellsProgram_of_program hlast honly h
  refine program_of_spelled (spelled_of_program _ _ h).1 ⟨missing, hmissing, ?_⟩ hmark
  exact hspelled.of_alike (halike.append (Alike.refl missing))

end Programs

/-- Closing words that are missing and closing words too many.  Let `k` blocks of a program be open
at the end of its tokens, so that `k` closing words would complete it.  Up to `k` closing words after
it are read and change nothing.  If there are more, the first one too many is reported.  Inside the
program, closing words may be exchanged for one another. -/
theorem closing_words_close_open_blocks
    {tokens : List Token} {last mark : Token} {statements : List Node}
    (hlast : last.kind = .endOfFile) (hmark : mark.kind = .endOfFile)
    (honly : ∀ t ∈ tokens, t.kind ≠ .endOfFile)
    (h : program (tokens ++ [last]) = .ok statements) :
    let k := openBlocks statements tokens
    (∀ closing : List Token, (∀ t ∈ closing, Closes t.kind) →
      (SpellsAll statements (tokens ++ closing) ↔ closing.length = k) ∧
      (closing.length ≤ k → program (tokens ++ closing ++ [mark]) = .ok statements) ∧
      ∀ hmore : k < closing.length, ∃ e,
        program (tokens ++ closing ++ [mark]) = .error (.unexpected e) ∧
          e.token = closing[k] ∧ e.expected.message = "Expect expression.") ∧
    ∀ tokens', Alike tokens tokens' → program (tokens' ++ [mark]) = .ok statements := by
  intro k
  refine ⟨fun closing hclosing => ⟨?_, ?_, fun hmore => ?_⟩, fun tokens' halike => ?_⟩
  · exact spellsAll_append_closing_iff hlast honly h hclosing
  · exact program_append_closing hlast honly h hmark hclosing
  · have htokens : tokens ++ closing ++ [mark] =
        tokens ++ closing.take k ++ closing[k] :: (closing.drop (k + 1) ++ [mark]) := by
      rw [← List.cons_append, List.getElem_cons_drop, List.append_assoc, List.append_assoc,
        ← List.append_assoc (closing.take k), List.take_append_drop]
    have hread := program_append_surplus hlast honly h
      (fun t ht => hclosing t (List.mem_of_mem_take ht))
      (List.length_take_of_le (Nat.le_of_lt hmore)) (hclosing closing[k] (List.getElem_mem hmore))
      (closing.drop (k + 1) ++ [mark])
    rw [htokens]
    exact ⟨⟨closing[k], .expression⟩, hread, rfl, rfl⟩
  · exact program_of_alike hlast honly h hmark halike

namespace Sample

/-- The tokens of `: bet x : spill x`, with two blocks that are open at the end. -/
def unclosed : List Token :=
  [token .colon ":", token .bet "bet", token .identifier "x", token .colon ":",
   token .spill "spill", token .identifier "x"]

/-- The tree of the program. -/
def unclosedTree : List Node :=
  [.block [.conditional x (.block [.spill x]) .absent]]

/-- Three closing words, one more than are needed. -/
def closers : List Token :=
  [token .endIf "end_if", token .endLoop "end_loop", token .endWord "end"]

end Sample

theorem closing_words_close_open_blocks_sample :
    let last := Sample.token .endOfFile ""
    program (Sample.unclosed ++ [last]) = .ok Sample.unclosedTree ∧
      openBlocks Sample.unclosedTree Sample.unclosed = 2 ∧
      program (Sample.unclosed ++ Sample.closers.take 2 ++ [last]) = .ok Sample.unclosedTree ∧
      ∃ e, program (Sample.unclosed ++ Sample.closers ++ [last]) = .error (.unexpected e) ∧
        e.token = Sample.token .endWord "end" ∧ e.expected.message = "Expect expression." := by
  intro last
  have h : program (Sample.unclosed ++ [last]) = .ok Sample.unclosedTree := by cbv
  have hlast : last.kind = .endOfFile := rfl
  have hclosers : ∀ t ∈ Sample.closers, Closes t.kind := by
    simp [Sample.closers, Sample.token_kind, Closes]
  obtain ⟨hclosing, -⟩ := closing_words_close_open_blocks hlast hlast (by decide) h
  obtain ⟨-, hread, -⟩ :=
    hclosing (Sample.closers.take 2) fun t ht => hclosers t (List.mem_of_mem_take ht)
  obtain ⟨-, -, hsurplus⟩ := hclosing Sample.closers hclosers
  exact ⟨h, rfl, hread (Nat.le_refl 2), hsurplus (Nat.lt_succ_self 2)⟩

/-! ## Another program after one without open blocks -/

/-- Programs may be put one after the other.  If every block of the first one is closed by a word of
its own and the second one does not start with a minus, then the tokens of both are parsed as the
statements of the first one and then those of the second. -/
theorem program_composes_at_statement_end
    {first second : List Token} {one two : List Node} {firstEnd secondEnd last : Token}
    (hfirstEnd : firstEnd.kind = .endOfFile) (hsecondEnd : secondEnd.kind = .endOfFile)
    (hlast : last.kind = .endOfFile)
    (hfirst : ∀ t ∈ first, t.kind ≠ .endOfFile) (hsecond : ∀ t ∈ second, t.kind ≠ .endOfFile)
    (hone : program (first ++ [firstEnd]) = .ok one) (hclosed : openBlocks one first = 0)
    (htwo : program (second ++ [secondEnd]) = .ok two)
    (hminus : ∀ t ∈ second.head?, t.kind ≠ .minus) :
    program (first ++ second ++ [last]) = .ok (one ++ two) := by
  have hspelled : SpellsAll one (first ++ []) :=
    (spellsAll_append_closing_iff hfirstEnd hfirst hone (by simp)).mpr hclosed.symm
  rw [List.append_nil] at hspelled
  have hread : program (second ++ [last]) = .ok two :=
    program_of_alike hsecondEnd hsecond htwo hlast (Alike.refl second)
  have hstart : ∀ t ∈ (second ++ [last]).head?, t.kind ≠ .minus := by
    cases second with
    | nil => simp [hlast]
    | cons t later => exact hminus
  rw [List.append_assoc]
  exact program_append (spelled_of_program _ _ hone).1 hspelled hread hstart

namespace Sample

/-- The tokens of `bet x : spill x end_if x`, which end in a variable. -/
def branching : List Token :=
  [token .bet "bet", token .identifier "x", token .colon ":", token .spill "spill",
   token .identifier "x", token .endIf "end_if", token .identifier "x"]

/-- The tokens of `x as ! x`, which start with a variable. -/
def negating : List Token :=
  [token .identifier "x", token .asWord "as", token .not "!", token .identifier "x"]

/-- The tree of the first program. -/
def branchingTree : List Node :=
  [.conditional x (.block [.spill x]) .absent, .expression x]

/-- The tree of the second program. -/
def negatingTree : List Node :=
  [.assignment (token .identifier "x").mark (.unary (token .not "!").mark x)]

end Sample

theorem program_composes_at_statement_end_sample :
    let last := Sample.token .endOfFile ""
    program (Sample.branching ++ [last]) = .ok Sample.branchingTree ∧
      openBlocks Sample.branchingTree Sample.branching = 0 ∧
      program (Sample.negating ++ [last]) = .ok Sample.negatingTree ∧
      program (Sample.branching ++ Sample.negating ++ [last]) =
        .ok (Sample.branchingTree ++ Sample.negatingTree) := by
  intro last
  have hone : program (Sample.branching ++ [last]) = .ok Sample.branchingTree := by cbv
  have htwo : program (Sample.negating ++ [last]) = .ok Sample.negatingTree := by cbv
  exact ⟨hone, rfl, htwo, program_composes_at_statement_end rfl rfl rfl (by decide) (by decide)
    hone rfl htwo (by decide)⟩

end Grammar

end Slang
