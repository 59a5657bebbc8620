import Slang.Proofs.Parser.Walking

/-!
# Parsing moves forward and stays inside the tokens

A statement or an expression takes at least one token, so the position has moved when its walk
returns.  The end mark is then still ahead, so the position is not past it.  A walk that does not
return gives up at one of the tokens, or finds one of them without the sigil that it should have.
-/

namespace Slang.Parser.Cursor

variable {tokens ts : List Token} {t : Token} {pos : Nat}

/-- The walks that read one statement or one expression.  The loosest rank stands for expressions
as such. -/
inductive Routine where
  | statement
  | binary (rank : Nat)
  | unary
  | power
  | primary

namespace Routine

/-- The walk of a routine. -/
def walk (tokens : List Token) : Routine → Nat → Walk Node
  | .statement => Cursor.statement tokens
  | .binary rank => (Cursor.binary tokens · rank)
  | .unary => Cursor.unary tokens
  | .power => Cursor.power tokens
  | .primary => Cursor.primary tokens

/-- What a routine is for the list of the tokens that are left. -/
def read (ts : List Token) : Routine → Except ParseFailure (Node × List Token)
  | .statement => plain (Parser.statement ts)
  | .binary rank => plain (Parser.binary rank ts)
  | .unary => plain (Parser.unary ts)
  | .power => (plain (Parser.primary ts)).bind fun base => plain (Parser.power base.1 base.2)
  | .primary => plain (Parser.primary ts)

theorem follows (r : Routine) (ts : List Token) :
    Follows tokens (r.walk tokens) ts (r.read ts) := by
  obtain ⟨hbinary, hraised, hprimary⟩ := @follows_expressions tokens
  cases r with
  | statement => exact follows_statement ts
  | binary rank => exact hbinary rank ts
  | unary =>
      have hunary := (hbinary 0 ts).shift
      simp only [Cursor.binary] at hunary
      rwa [plain_binary_zero] at hunary
  | power =>
      refine Follows.deeper ?_ fun _ => rfl
      simp only [walk, Cursor.power]
      exact (hprimary ts).bind (stays_primary ts) fun base rest => hraised base rest.val
  | primary => exact hprimary ts

theorem stays (r : Routine) (ts : List Token) : Stays ts (r.read ts) := by
  cases r with
  | statement => exact stays_statement ts
  | binary rank => exact stays_binary rank ts
  | unary =>
      have hunary := stays_binary 0 ts
      rwa [plain_binary_zero] at hunary
  | power => exact (stays_primary ts).bind fun base rest => stays_power base rest.val
  | primary => exact stays_primary ts

/-- A routine that succeeds has taken a token. -/
theorem length_lt_of_read
    {r : Routine} {e : Node} {rest : List Token} (h : r.read ts = .ok (e, rest)) :
    rest.length < ts.length := by
  cases r with
  | power =>
      obtain ⟨⟨base, later⟩, hbase, hpower⟩ := bind_eq_ok.mp h
      obtain ⟨shorter, -, rfl⟩ := exists_of_plain_eq_ok hbase
      obtain ⟨remaining, -, rfl⟩ := exists_of_plain_eq_ok hpower
      exact Nat.lt_of_le_of_lt remaining.property shorter.property
  | _ =>
      obtain ⟨shorter, -, rfl⟩ := exists_of_plain_eq_ok h
      exact shorter.property

end Routine

theorem lt_length_of_hasEnd (h : HasEnd (tokens.drop pos)) : pos < tokens.length := by
  obtain ⟨t, ht, -⟩ := h
  have hlength := List.length_pos_of_mem ht
  rw [List.length_drop] at hlength
  omega

/-- In front of an end mark, a routine returns further on with an end mark still ahead, or it fails
at one of the tokens in between. -/
theorem Routine.outcome (r : Routine) (hend : HasEnd (tokens.drop pos)) :
    (∃ e pos', Returns (r.walk tokens) pos e pos' ∧ pos < pos' ∧ pos' < tokens.length ∧
      r.read (tokens.drop pos) = .ok (e, tokens.drop pos')) ∨
    ∃ failure, Fails (r.walk tokens) pos failure ∧ failure.IsAbout (tokens.drop pos) ∧
      r.read (tokens.drop pos) = .error failure := by
  have hwalk := r.follows (tokens.drop pos) hend pos rfl
  have hstays := r.stays (tokens.drop pos) hend
  cases hread : r.read (tokens.drop pos) with
  | error failure =>
      rw [hread] at hwalk hstays
      exact .inr ⟨failure, hwalk, hstays, rfl⟩
  | ok found =>
      obtain ⟨e, rest⟩ := found
      -- Fewer tokens are left, and both rests are cut from the same row.
      have htaken := length_lt_of_read hread
      rw [hread] at hwalk hstays
      obtain ⟨pos', hreturns, rfl⟩ := hwalk
      rw [List.length_drop, List.length_drop] at htaken
      exact .inl ⟨e, pos', hreturns, by omega, lt_length_of_hasEnd hstays.1, rfl⟩

section OneEndMark

variable {front : List Token} {last : Token}

theorem hasEnd_drop (hlast : last.kind = .endOfFile) (hpos : pos ≤ front.length) :
    HasEnd ((front ++ [last]).drop pos) := by
  refine ⟨last, ?_, hlast⟩
  rw [List.drop_append_of_le_length hpos]
  simp

theorem eq_length_of_drop_eq_end
    {later : List Token} (honly : ∀ t ∈ front, t.kind ≠ .endOfFile)
    (h : (front ++ [last]).drop pos = t :: later) (ht : t.kind = .endOfFile) :
    pos = front.length := by
  have hget := getElem?_of_drop h
  have hpos := lt_length_of_hasEnd ⟨t, h ▸ List.mem_cons_self, ht⟩
  rw [List.length_append, List.length_singleton] at hpos
  rcases Nat.lt_or_ge pos front.length with hlt | hge
  · rw [List.getElem?_append_left hlt] at hget
    exact absurd ht (honly t (List.mem_of_getElem? hget))
  · exact Nat.le_antisymm (Nat.le_of_lt_succ hpos) hge

/-- The walk stops where reading the tokens fails.  It gives up at one of them, or one of them is a
variable that is declared and has an empty lexeme, and so no sigil. -/
def StopsAmong {α β : Type} (ts : List Token) (walk : Nat → Walk α) (pos : Nat)
    (result : Except ParseFailure β) : Prop :=
  (∃ e, Ends walk pos (.error (.gaveUp e)) ∧ e.token ∈ ts ∧ result = .error (.unexpected e)) ∨
    ∃ target ∈ ts, target.LacksSigil ∧ Ends walk pos (.error (.noSigil target)) ∧
      result = .error (.noSigil target)

theorem stopsAmong_of_isAbout
    {α β : Type} {walk : Nat → Walk α} {failure : ParseFailure} (h : Fails walk pos failure)
    (habout : failure.IsAbout ts) : StopsAmong ts walk pos (.error failure : Except _ β) := by
  cases failure with
  | unexpected e => exact .inl ⟨e, h, habout, rfl⟩
  | noSigil target => exact .inr ⟨target, habout.1, habout.2, h, rfl⟩

end OneEndMark

namespace Sample

/-- A token of the first line that denotes nothing by itself. -/
def token (kind : Token.Kind) (lexeme : String) : Token := ⟨kind, lexeme, .absent, 1⟩

/-- The tokens of `bet x : spill -x ^ x`, with a block that is still open at the end. -/
def openBlock : List Token :=
  [token .bet "bet", token .identifier "x", token .colon ":", token .spill "spill",
   token .minus "-", token .identifier "x", token .power "^", token .identifier "x"]

/-- The mark at the end of the tokens. -/
def endMark : Token := token .endOfFile ""

/-- The variable of the program. -/
def x : Node := .identifier (token .identifier "x").mark

/-- The statement of the block. -/
def shown : Node :=
  .spill (.unary (token .minus "-").mark (.binary x (token .power "^").mark x))

/-- The statements of the program. -/
def tree : List Node := [.conditional x (.block [shown]) .absent]

end Sample

/-- Without an end mark the first look is outside the row. -/
example : program [] 1 0 = .error .outOfRange := rfl

/-- A variable with an empty lexeme has no sigil to look at. -/
example :
    let target := Sample.token .sigilIdentifier ""
    program [target, Sample.token .asWord "as", Sample.token .ghosted "ghosted", Sample.endMark]
      20 0 = .error (.noSigil target) := rfl

end Slang.Parser.Cursor
