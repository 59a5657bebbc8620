import Slang.Tree.Parser.Statement

/-!
# The parser as a walk over positions

Here the parser keeps the whole row of tokens and a position in it.  It looks at the token under
the position, at the one behind it and at the one in front of it, and moves by one token at a time.
Nothing in these definitions says that a look stays inside the row, that a loop moves on or that a
walk ends.  A look outside stops the walk, and so does a look at the first character of an empty
lexeme.  Calls may be nested up to a limit, and each round of a loop counts as a call; a walk that
would go on for ever is too deep for every limit.
-/

namespace Slang.Parser.Cursor

/-- What stops a walk before it returns. -/
inductive Halt where
  | tooDeep
  | outOfRange
  /-- The lexeme of a variable that is declared is empty. -/
  | noSigil (target : Token)
  | gaveUp (e : ParseError)
deriving DecidableEq

/-- What stops the walk where reading fails. -/
def Halt.ofFailure : ParseFailure → Halt
  | .unexpected e => .gaveUp e
  | .noSigil target => .noSigil target

/-- A walk starts at a position and returns with another one, or stops. -/
abbrev Walk (α : Type) := StateT Nat (Except Halt) α

/-- The outcome of the walk from the position.  The walk needs calls of some depth: it has this
outcome if it may go as deep, and is too deep otherwise. -/
def Ends {α : Type} (walk : Nat → Walk α) (pos : Nat) (outcome : Except Halt (α × Nat)) : Prop :=
  ∃ depth, ∀ limit, walk limit pos = if depth ≤ limit then outcome else .error .tooDeep

/-- The walk from the first position returns a result and leaves the second position. -/
def Returns {α : Type} (walk : Nat → Walk α) (pos : Nat) (a : α) (pos' : Nat) : Prop :=
  Ends walk pos (.ok (a, pos'))

/-- The walk from the position stops with the failure. -/
def Fails {α : Type} (walk : Nat → Walk α) (pos : Nat) (failure : ParseFailure) : Prop :=
  Ends walk pos (.error (.ofFailure failure))

section Steps

variable (tokens : List Token)

/-- The token at an index, which has to be one of the row. -/
def look (index : Nat) : Walk Token :=
  match tokens[index]? with
  | some t => return t
  | none => throw .outOfRange

/-- The token under the position. -/
def peek : Walk Token := do
  look tokens (← get)

/-- The token after the one under the position, if there is one. -/
def peekNext : Walk (Option Token) := do
  return tokens[(← get) + 1]?

/-- The token in front of the position. -/
def previous : Walk Token := do
  match ← get with
  | 0 => throw .outOfRange
  | pos + 1 => look tokens pos

/-- The end mark is under the position. -/
def isAtEnd : Walk Bool := do
  return (← peek tokens).kind = .endOfFile

/-- Moves past the token under the position, but not past the end mark. -/
def advance : Walk Token := do
  if ← isAtEnd tokens then previous tokens
  else do
    modify (· + 1)
    previous tokens

/-- The token under the position is of one of the kinds, and not the end mark. -/
def check (kinds : List Token.Kind) : Walk Bool := do
  if ← isAtEnd tokens then return false
  else return (← peek tokens).kind ∈ kinds

/-- Moves past a token of one of the kinds, if it comes next. -/
def accept (kinds : List Token.Kind) : Walk Bool := do
  if ← check tokens kinds then do
    let _ ← advance tokens
    return true
  else return false

/-- Takes a token of the given kind. -/
def consume (kind : Token.Kind) (expected : Expectation) : Walk Token := do
  if ← check tokens [kind] then advance tokens
  else throw (.gaveUp ⟨← peek tokens, expected⟩)

end Steps

section Expressions

variable (tokens : List Token)

/-- The binary operators of a rank. -/
def operators : Nat → List Token.Kind
  | 1 => [.times, .divide, .modulo]
  | 2 => [.plus, .minus]
  | 3 => [.less, .greater, .lessEqual, .greaterEqual]
  | 4 => [.equal, .notEqual]
  | 5 => [.and]
  | 6 => [.or]
  | _ => []

mutual

/-- An expression whose binary operators have at most the given rank. -/
def binary : Nat → Nat → Walk Node
  | 0, _ => throw .tooDeep
  | limit + 1, 0 => unary limit
  | limit + 1, rank + 1 => do
    let left ← binary limit rank
    chain limit rank left

/-- Operators of rank `rank + 1` and their right operands, after a left operand. -/
def chain : Nat → Nat → Node → Walk Node
  | 0, _, _ => throw .tooDeep
  | limit + 1, rank, left => do
    if ← accept tokens (operators (rank + 1)) then do
      let operator ← previous tokens
      let right ← binary limit rank
      chain limit rank (.binary left operator.mark right)
    else return left

/-- An operand with the signs in front of it, or a power. -/
def unary : Nat → Walk Node
  | 0 => throw .tooDeep
  | limit + 1 => do
    if ← accept tokens [.not, .minus] then do
      let operator ← previous tokens
      let operand ← unary limit
      return .unary operator.mark operand
    else power limit

/-- A base with its exponent, if there is one. -/
def power : Nat → Walk Node
  | 0 => throw .tooDeep
  | limit + 1 => do
    let base ← primary limit
    raised limit base

/-- The exponent after a base, if there is one. -/
def raised : Nat → Node → Walk Node
  | 0, _ => throw .tooDeep
  | limit + 1, base => do
    if ← accept tokens [.power] then do
      let operator ← previous tokens
      let exponent ← unary limit
      return .binary base operator.mark exponent
    else return base

/-- A literal, a variable or an expression in parentheses. -/
def primary : Nat → Walk Node
  | 0 => throw .tooDeep
  | limit + 1 => do
    if ← accept tokens [.number] then return .number (← previous tokens).mark
    else if ← accept tokens [.text] then return .text (← previous tokens).mark
    else if ← accept tokens [.character] then return .character (← previous tokens).mark
    else if ← accept tokens [.fr, .cap] then return .boolean (← previous tokens).mark
    else if ← accept tokens [.ghosted] then return .ghosted
    else if ← accept tokens [.identifier, .sigilIdentifier] then
      return .identifier (← previous tokens).mark
    else if ← accept tokens [.leftParen] then do
      let inner ← binary limit loosest
      let _ ← consume tokens .rightParen .closingParen
      return .group inner
    else throw (.gaveUp ⟨← peek tokens, .expression⟩)

end

/-- An expression. -/
def expression (limit : Nat) : Walk Node :=
  binary tokens limit loosest

end Expressions

section Statements

variable (tokens : List Token)

/-- The sigil of a variable, the first character of its lexeme. -/
def sigilOf (target : Token) : Walk String :=
  match declaredSigil target with
  | .ok sigil => return sigil
  | .error failure => throw (.ofFailure failure)

/-- The rest of a declaration, after its variable. -/
def declaration (limit : Nat) : Walk Node := do
  let target ← previous tokens
  let _ ← consume tokens .asWord .asInDeclaration
  let value ← expression tokens limit
  let sigil ← sigilOf target
  return .declaration (.text sigil) (declaredName target).mark value

/-- An assignment. -/
def assignment (limit : Nat) : Walk Node := do
  let target ← advance tokens
  let _ ← consume tokens .asWord .asInAssignment
  let value ← expression tokens limit
  return .assignment target.mark value

/-- The rest of a request for input, after its keyword. -/
def listen : Walk Node := do
  let prompt ← consume tokens .text .prompt
  let _ ← consume tokens .asWord .asAfterPrompt
  let target ← consume tokens .sigilIdentifier .inputVariable
  return .listen prompt.literal.toJson target.mark

/-- The words that close a block. -/
def terminators : List Token.Kind := [.endWord, .endIf, .endLoop]

mutual

/-- One statement. -/
def statement : Nat → Walk Node
  | 0 => throw .tooDeep
  | limit + 1 => do
    if ← accept tokens [.spill] then return .spill (← expression tokens limit)
    else if ← accept tokens [.listen] then listen tokens
    else if ← accept tokens [.tea] then do
      let _ ← consume tokens .sigilIdentifier .sigilVariable
      declaration tokens limit
    else if ← accept tokens [.sigilIdentifier] then declaration tokens limit
    else if ← accept tokens [.colon] then return .block (← block limit)
    else if ← accept tokens [.bet] then conditional limit
    else do
      let next ← peekNext tokens
      if (← check tokens [.identifier, .sigilIdentifier]) && next.any (·.kind = .asWord) then
        assignment tokens limit
      else return .expression (← expression tokens limit)

/-- The statements up to a closing word or the end mark. -/
def body : Nat → Walk (List Node)
  | 0 => throw .tooDeep
  | limit + 1 => do
    if ← check tokens terminators then return []
    else if ← isAtEnd tokens then return []
    else do
      let first ← statement limit
      let others ← body limit
      return first :: others

/-- The statements of a block, with the word that closes it. -/
def block : Nat → Walk (List Node)
  | 0 => throw .tooDeep
  | limit + 1 => do
    let statements ← body limit
    let _ ← accept tokens terminators
    return statements

/-- The rest of a conditional, after its keyword. -/
def conditional : Nat → Walk Node
  | 0 => throw .tooDeep
  | limit + 1 => do
    let condition ← expression tokens limit
    let consequent ← statement limit
    let otherwise ← alternative limit
    return .conditional condition consequent otherwise

/-- The statement after the word for the other case, if that word comes next. -/
def alternative : Nat → Walk Node
  | 0 => throw .tooDeep
  | limit + 1 => do
    if ← accept tokens [.deadass] then statement limit
    else return .absent

end

/-- The statements up to the end mark. -/
def program : Nat → Walk (List Node)
  | 0 => throw .tooDeep
  | limit + 1 => do
    if ← isAtEnd tokens then return []
    else do
      let first ← statement tokens limit
      let others ← program limit
      return first :: others

end Statements

/-! ## Single steps

As long as the tokens under the position are known, so is what each step does. -/

section Stepping

variable {α β : Type} {tokens ts : List Token} {t : Token} {pos pos' : Nat}

/-- The walk makes one step, without calls: it gives a result and leaves the second position. -/
def Steps (walk : Walk α) (pos : Nat) (a : α) (pos' : Nat) : Prop :=
  walk pos = .ok (a, pos')

theorem Steps.bind_eq {walk : Walk α} {a : α} (h : Steps walk pos a pos') (f : α → Walk β) :
    (walk >>= f) pos = f a pos' := by
  change (walk pos >>= fun found => f found.1 found.2) = _
  rw [h]
  rfl

theorem bind_of_error {walk : Walk α} {halt : Halt} (h : walk pos = .error halt) (f : α → Walk β) :
    (walk >>= f) pos = .error halt := by
  change (walk pos >>= fun found => f found.1 found.2) = _
  rw [h]
  rfl

theorem drop_succ (h : tokens.drop pos = t :: ts) : tokens.drop (pos + 1) = ts := by
  rw [← List.tail_drop, h, List.tail_cons]

theorem getElem?_of_drop (h : tokens.drop pos = t :: ts) : tokens[pos]? = some t := by
  rw [← List.head?_drop, h, List.head?_cons]

theorem steps_peek (h : tokens.drop pos = t :: ts) : Steps (peek tokens) pos t pos := by
  change look tokens pos pos = _
  rw [look, getElem?_of_drop h]
  rfl

theorem steps_peekNext (h : tokens.drop pos = t :: ts) :
    Steps (peekNext tokens) pos ts.head? pos := by
  rw [← drop_succ h, List.head?_drop]
  rfl

theorem steps_previous (h : tokens.drop pos = t :: ts) :
    Steps (previous tokens) (pos + 1) t (pos + 1) := by
  change look tokens pos (pos + 1) = _
  rw [look, getElem?_of_drop h]
  rfl

theorem steps_isAtEnd (h : tokens.drop pos = t :: ts) :
    Steps (isAtEnd tokens) pos (decide (t.kind = .endOfFile)) pos := by
  rw [Steps, isAtEnd, (steps_peek h).bind_eq]
  rfl

theorem steps_advance (h : tokens.drop pos = t :: ts) (ht : t.kind ≠ .endOfFile) :
    Steps (advance tokens) pos t (pos + 1) := by
  rw [Steps, advance, (steps_isAtEnd h).bind_eq, decide_eq_false ht]
  exact steps_previous h

theorem steps_check (kinds : List Token.Kind) (h : tokens.drop pos = t :: ts) :
    Steps (check tokens kinds) pos (decide (t.kind ≠ .endOfFile ∧ t.kind ∈ kinds)) pos := by
  rw [Steps, check, (steps_isAtEnd h).bind_eq]
  by_cases ht : t.kind = .endOfFile
  · rw [decide_eq_true ht, if_pos rfl, decide_eq_false fun hboth => hboth.1 ht]
    rfl
  · rw [decide_eq_false ht, if_neg Bool.false_ne_true, (steps_peek h).bind_eq]
    simp only [ht, ne_eq, not_false_eq_true, true_and]
    rfl

theorem steps_accept_of_mem
    {kinds : List Token.Kind} (h : tokens.drop pos = t :: ts) (hend : t.kind ≠ .endOfFile)
    (hmem : t.kind ∈ kinds) : Steps (accept tokens kinds) pos true (pos + 1) := by
  rw [Steps, accept, (steps_check kinds h).bind_eq, decide_eq_true ⟨hend, hmem⟩, if_pos rfl,
    (steps_advance h hend).bind_eq]
  rfl

theorem steps_accept_of_not
    {kinds : List Token.Kind} (h : tokens.drop pos = t :: ts)
    (hnot : ¬(t.kind ≠ .endOfFile ∧ t.kind ∈ kinds)) :
    Steps (accept tokens kinds) pos false pos := by
  rw [Steps, accept, (steps_check kinds h).bind_eq, decide_eq_false hnot,
    if_neg Bool.false_ne_true]
  rfl

/-- A choice by the next token goes on behind that token, or stays in front of it. -/
theorem ite_accept
    (kinds : List Token.Kind) (yes no : Walk α) (h : tokens.drop pos = t :: ts) :
    (do if ← accept tokens kinds then yes else no : Walk α) pos =
      if t.kind ≠ .endOfFile ∧ t.kind ∈ kinds then yes (pos + 1) else no pos := by
  split
  · rename_i hboth
    rw [(steps_accept_of_mem h hboth.1 hboth.2).bind_eq, if_pos rfl]
  · rename_i hnot
    rw [(steps_accept_of_not h hnot).bind_eq, if_neg Bool.false_ne_true]

theorem steps_consume
    {kind : Token.Kind} (expected : Expectation) (h : tokens.drop pos = t :: ts)
    (ht : t.kind = kind) (hkind : kind ≠ .endOfFile) :
    Steps (consume tokens kind expected) pos t (pos + 1) := by
  subst ht
  rw [Steps, consume, (steps_check _ h).bind_eq,
    decide_eq_true ⟨hkind, List.mem_singleton_self _⟩, if_pos rfl]
  exact steps_advance h hkind

theorem consume_of_ne
    {kind : Token.Kind} (expected : Expectation) (h : tokens.drop pos = t :: ts)
    (ht : t.kind ≠ kind) :
    consume tokens kind expected pos = .error (.gaveUp ⟨t, expected⟩) := by
  rw [consume, (steps_check _ h).bind_eq,
    decide_eq_false fun hboth => ht (List.mem_singleton.mp hboth.2), if_neg Bool.false_ne_true,
    (steps_peek h).bind_eq]
  rfl

end Stepping

/-! ## Depth -/

section Depth

variable {α β : Type} {walk : Nat → Walk α} {pos pos' : Nat} {outcome : Except Halt (α × Nat)}

theorem ends_of_forall (h : ∀ limit, walk limit pos = outcome) : Ends walk pos outcome :=
  ⟨0, fun limit => by rw [h, if_pos (Nat.zero_le limit)]⟩

theorem Ends.congr
    {walk' : Nat → Walk α} (h : Ends walk' pos' outcome)
    (heq : ∀ limit, walk limit pos = walk' limit pos') : Ends walk pos outcome := by
  obtain ⟨depth, hdepth⟩ := h
  exact ⟨depth, fun limit => (heq limit).trans (hdepth limit)⟩

/-- Under whatever limit a walk is not too deep, it has its outcome. -/
theorem Ends.eq_of_walk
    {limit : Nat} {outcome' : Except Halt (α × Nat)} (h : Ends walk pos outcome)
    (hwalk : walk limit pos = outcome') (hdeep : outcome' ≠ .error .tooDeep) :
    outcome' = outcome := by
  obtain ⟨depth, hdepth⟩ := h
  rw [hdepth] at hwalk
  by_cases hlimit : depth ≤ limit
  · rw [← hwalk, if_pos hlimit]
  · rw [if_neg hlimit] at hwalk
    exact absurd hwalk.symm hdeep

/-- A call that is made inside another one needs one more. -/
theorem Ends.deeper
    (h : Ends (fun limit => walk (limit + 1)) pos outcome)
    (hzero : walk 0 pos = .error .tooDeep) : Ends walk pos outcome := by
  obtain ⟨depth, hdepth⟩ := h
  refine ⟨depth + 1, fun limit => ?_⟩
  cases limit with
  | zero => simpa using hzero
  | succ limit => simpa using hdepth limit

theorem Ends.shift (h : Ends walk pos outcome) :
    Ends (fun limit => walk (limit + 1)) pos outcome := by
  obtain ⟨depth, hdepth⟩ := h
  refine ⟨depth - 1, fun limit => ?_⟩
  simp only [hdepth, Nat.sub_le_iff_le_add]

theorem Ends.bind
    {f : Nat → α → Walk β} {a : α} {later : Except Halt (β × Nat)} (h : Returns walk pos a pos')
    (hf : Ends (fun limit => f limit a) pos' later) :
    Ends (fun limit => walk limit >>= f limit) pos later := by
  obtain ⟨depth, hdepth⟩ := h
  obtain ⟨depth', hdepth'⟩ := hf
  refine ⟨max depth depth', fun limit => ?_⟩
  by_cases hlimit : depth ≤ limit
  · have hstep : Steps (walk limit) pos a pos' := by rw [Steps, hdepth, if_pos hlimit]
    have hmax : max depth depth' ≤ limit ↔ depth' ≤ limit :=
      Nat.max_le.trans (and_iff_right hlimit)
    simp only [hmax]
    exact (hstep.bind_eq _).trans (hdepth' limit)
  · have hhalt : walk limit pos = .error .tooDeep := by rw [hdepth, if_neg hlimit]
    rw [if_neg fun hmax => hlimit (Nat.max_le.mp hmax).1]
    exact bind_of_error hhalt _

theorem Fails.bind {failure : ParseFailure} (h : Fails walk pos failure) (f : Nat → α → Walk β) :
    Fails (fun limit => walk limit >>= f limit) pos failure := by
  obtain ⟨depth, hdepth⟩ := h
  refine ⟨depth, fun limit => ?_⟩
  have hwalk := hdepth limit
  by_cases hlimit : depth ≤ limit
  · rw [if_pos hlimit] at hwalk ⊢
    exact bind_of_error hwalk _
  · rw [if_neg hlimit] at hwalk ⊢
    exact bind_of_error hwalk _

end Depth

end Slang.Parser.Cursor
