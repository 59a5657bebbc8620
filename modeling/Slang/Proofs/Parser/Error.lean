import Slang.Proofs.Parser.View
import Slang.Proofs.Token.Scanned

/-!
# Where parsing gives up

As long as one of the tokens marks the end, no parsing function reads past it.  A failure is then
about one of the tokens, and never about the token that stands for a missing end mark.  A sigil is
missing only where a sigil identifier has an empty lexeme; among other tokens every failure is a
parse error.
-/

namespace Slang

/-- A variable that should have a sigil and has none. -/
def Token.LacksSigil (t : Token) : Prop :=
  t.kind = .sigilIdentifier ∧ t.lexeme = ""

/-- A token whose data are what its kind promises has its sigil. -/
theorem Token.Faithful.not_lacksSigil {t : Token} (h : t.Faithful) : ¬t.LacksSigil := by
  rintro ⟨hkind, hlexeme⟩
  obtain ⟨c, rest, hlist, -⟩ := h.sigil hkind
  simp [hlexeme] at hlist

/-- A failure is about one of the tokens; if a sigil is missing, it is missing from that token. -/
def ParseFailure.IsAbout (ts : List Token) : ParseFailure → Prop
  | .unexpected e => e.token ∈ ts
  | .noSigil target => target ∈ ts ∧ target.LacksSigil

theorem ParseFailure.IsAbout.mono
    {ts ts' : List Token} {failure : ParseFailure} (h : failure.IsAbout ts) (hsubset : ts ⊆ ts') :
    failure.IsAbout ts' := by
  cases failure with
  | unexpected e => exact hsubset h
  | noSigil target => exact ⟨hsubset h.1, h.2⟩

namespace Parser

/-- One of the tokens marks the end. -/
def HasEnd (ts : List Token) : Prop :=
  ∃ t ∈ ts, t.kind = .endOfFile

theorem HasEnd.tail
    {t : Token} {ts : List Token} (h : HasEnd (t :: ts)) (ht : t.kind ≠ .endOfFile) :
    HasEnd ts := by
  obtain ⟨last, hlast, hkind⟩ := h
  rcases List.mem_cons.mp hlast with rfl | hlast
  · exact absurd hkind ht
  · exact ⟨last, hlast, hkind⟩

/-- A result of reading leaves some of the tokens, the end mark among them, or is a failure about
one of the tokens. -/
def Within (ts : List Token) {α : Type} : Except ParseFailure (α × List Token) → Prop
  | .ok found => HasEnd found.2 ∧ found.2 ⊆ ts
  | .error failure => failure.IsAbout ts

/-- Reading does not go past the end mark. -/
def Stays (ts : List Token) {α : Type} (result : Except ParseFailure (α × List Token)) : Prop :=
  HasEnd ts → Within ts result

section Combining

variable {α β : Type} {ts : List Token}

theorem stays_nil (result : Except ParseFailure (α × List Token)) : Stays [] result := by
  rintro ⟨t, ht, -⟩
  cases ht

theorem stays_same (a : α) : Stays ts (.ok (a, ts)) :=
  fun hend => ⟨hend, List.Subset.refl ts⟩

theorem stays_error {e : ParseError} (h : e.token ∈ ts) :
    Stays ts (.error (.unexpected e) : Except ParseFailure (α × List Token)) :=
  fun _ => h

theorem Within.mono
    {ts' : List Token} {result : Except ParseFailure (α × List Token)} (h : Within ts result)
    (hsubset : ts ⊆ ts') : Within ts' result := by
  cases result with
  | error failure => exact ParseFailure.IsAbout.mono h hsubset
  | ok found => exact ⟨h.1, List.Subset.trans h.2 hsubset⟩

theorem Within.bind
    {result : Except ParseFailure (α × List Token)}
    {f : α × List Token → Except ParseFailure (β × List Token)} (h : Within ts result)
    (hf : ∀ a rest, HasEnd rest → rest ⊆ ts → Within ts (f (a, rest))) :
    Within ts (result.bind f) := by
  cases result with
  | error failure => exact h
  | ok found => exact hf found.1 found.2 h.1 h.2

theorem Stays.cons
    {t : Token} {result : Except ParseFailure (α × List Token)} (h : Stays ts result)
    (ht : t.kind ≠ .endOfFile) : Stays (t :: ts) result :=
  fun hend => (h (hend.tail ht)).mono (List.subset_cons_self t ts)

theorem Stays.bind
    {p : List Token → Prop} {x : Except ParseFailure (α × Subtype p)}
    {f : α × List Token → Except ParseFailure (β × List Token)} (h : Stays ts (plain x))
    (hf : ∀ a (rest : Subtype p), Stays rest.val (f (a, rest.val))) :
    Stays ts ((plain x).bind f) := by
  intro hend
  cases x with
  | error e => exact h hend
  | ok found =>
      obtain ⟨hrest, hsubset⟩ := h hend
      exact (hf found.1 found.2 hrest).mono hsubset

end Combining

theorem stays_expect
    {kind : Token.Kind} (expected : Expectation) (ts : List Token) (hkind : kind ≠ .endOfFile) :
    Stays ts (plain (expect kind expected ts)) := by
  cases ts with
  | nil => exact stays_nil _
  | cons t later =>
      rw [plain_expect_cons]
      split
      · rename_i ht
        exact (stays_same t).cons (by rw [ht]; exact hkind)
      · exact stays_error (List.mem_cons_self ..)

/-! ## Expressions -/

theorem ne_endOfFile_of_rank? {kind : Token.Kind} {rank : Nat} (h : rank? kind = some rank) :
    kind ≠ .endOfFile := by
  rintro rfl
  cases h

theorem ne_endOfFile_of_isSign {kind : Token.Kind} (h : isSign kind = true) :
    kind ≠ .endOfFile := by
  rintro rfl
  cases h

theorem ne_endOfFile_of_isTerminator {kind : Token.Kind} (h : kind.isTerminator = true) :
    kind ≠ .endOfFile := by
  rintro rfl
  cases h

theorem ne_endOfFile_of_leaf? {t : Token} {leaf : Node} (h : leaf? t = some leaf) :
    t.kind ≠ .endOfFile := by
  intro hkind
  simp [leaf?, hkind] at h

theorem stays_expressions :
    (∀ rank ts, Stays ts (plain (binary rank ts))) ∧
      (∀ base ts, Stays ts (plain (power base ts))) ∧ ∀ ts, Stays ts (plain (primary ts)) := by
  have hall := binary.mutual_induct
    (fun rank ts => Stays ts (plain (binary rank ts)))
    (fun rank left ts => Stays ts (plain (chain rank left ts)))
    (fun ts => Stays ts (plain (unary ts)))
    (fun base ts => Stays ts (plain (power base ts)))
    (fun ts => Stays ts (plain (primary ts)))
    ?_ ?_ ?_ ?_ ?_ ?_ ?_ ?_ ?_ ?_ ?_ ?_ ?_ ?_ ?_
  · exact ⟨hall.1, hall.2.2.2.1, hall.2.2.2.2⟩
  · intro ts hunary
    rwa [plain_binary_zero]
  · intro ts rank hbinary hchain
    rw [plain_binary_succ]
    exact hbinary.bind hchain
  · intro rank left
    exact stays_nil _
  · intro rank left t ts hrank hbinary hchain
    rw [plain_chain_cons, if_pos hrank]
    exact (hbinary.bind hchain).cons (ne_endOfFile_of_rank? hrank)
  · intro rank left t ts hrank
    rw [plain_chain_cons, if_neg hrank]
    exact stays_same left
  · exact stays_nil _
  · intro t ts hsign hunary
    rw [plain_unary_cons, if_pos hsign]
    exact Stays.cons (hunary.bind fun operand rest => stays_same _) (ne_endOfFile_of_isSign hsign)
  · intro t ts hsign hprimary hpower
    rw [plain_unary_cons, if_neg hsign]
    exact hprimary.bind hpower
  · intro base
    exact stays_nil _
  · intro base t ts hkind hunary
    rw [plain_power_cons, if_pos hkind]
    exact Stays.cons (hunary.bind fun exponent rest => stays_same _) (by simp [hkind])
  · intro base t ts hkind
    rw [plain_power_cons, if_neg hkind]
    exact stays_same base
  · exact stays_nil _
  · intro t ts leaf hleaf
    rw [plain_primary_cons, hleaf]
    exact (stays_same leaf).cons (ne_endOfFile_of_leaf? hleaf)
  · intro t ts hleaf hkind hbinary
    rw [plain_primary_cons, hleaf]
    dsimp only
    rw [if_pos hkind]
    refine (hbinary.bind fun inner rest => ?_).cons (by simp [hkind])
    exact (stays_expect .closingParen rest.val (by simp)).bind fun closing rest => stays_same _
  · intro t ts hleaf hkind
    rw [plain_primary_cons, hleaf]
    dsimp only
    rw [if_neg hkind]
    exact stays_error (List.mem_cons_self ..)

theorem stays_binary (rank : Nat) (ts : List Token) : Stays ts (plain (binary rank ts)) :=
  stays_expressions.1 rank ts

theorem stays_power (base : Node) (ts : List Token) : Stays ts (plain (power base ts)) :=
  stays_expressions.2.1 base ts

theorem stays_primary (ts : List Token) : Stays ts (plain (primary ts)) :=
  stays_expressions.2.2 ts

theorem stays_expression (ts : List Token) : Stays ts (plain (expression ts)) :=
  stays_binary loosest ts

/-! ## Statements -/

/-- The variable of a declaration counts as one of its tokens, because its sigil may be missing. -/
theorem stays_declaration
    {target : Token} (htarget : target.kind = .sigilIdentifier) (ts : List Token) :
    Stays (target :: ts) (plain (declaration target ts)) := by
  intro hend
  have hword : Within ts (plain (expect .asWord .asInDeclaration ts)) :=
    stays_expect .asInDeclaration ts (by simp) (hend.tail (by simp [htarget]))
  rw [plain_declaration]
  refine (hword.mono (List.subset_cons_self target ts)).bind fun word rest hrest hsubset => ?_
  refine ((stays_expression rest hrest).mono hsubset).bind fun value rest hrest hsubset => ?_
  cases hsigil : declaredSigil target with
  | ok sigil => exact ⟨hrest, hsubset⟩
  | error failure =>
      obtain ⟨hlexeme, rfl⟩ := declaredSigil_eq_error_iff.mp hsigil
      exact ⟨List.mem_cons_self .., htarget, hlexeme⟩

theorem stays_teaDeclaration (ts : List Token) :
    Stays ts ((plain (expect .sigilIdentifier .sigilVariable ts)).bind fun target =>
      plain (declaration target.1 target.2)) := by
  intro hend
  cases htarget : plain (expect .sigilIdentifier .sigilVariable ts) with
  | error failure =>
      have hwithin : Within ts (plain (expect .sigilIdentifier .sigilVariable ts)) :=
        stays_expect .sigilVariable ts (by simp) hend
      rwa [htarget] at hwithin
  | ok found =>
      obtain ⟨hkind, rfl⟩ := eq_cons_of_plain_expect htarget
      exact stays_declaration hkind found.2 hend

theorem stays_assignment (target : Token) (ts : List Token) :
    Stays ts (plain (assignment target ts)) := by
  rw [plain_assignment]
  refine (stays_expect .asInAssignment ts (by simp)).bind fun word rest => ?_
  exact (stays_expression rest.val).bind fun value rest => stays_same _

theorem stays_listen (ts : List Token) : Stays ts (plain (listen ts)) := by
  rw [plain_listen]
  refine (stays_expect .prompt ts (by simp)).bind fun prompt rest => ?_
  refine (stays_expect .asAfterPrompt rest.val (by simp)).bind fun word rest => ?_
  exact (stays_expect .inputVariable rest.val (by simp)).bind fun target rest => stays_same _

theorem stays_statement (ts : List Token) : Stays ts (plain (statement ts)) := by
  have hall := statement.mutual_induct
    (fun ts => Stays ts (plain (statement ts)))
    (fun ts => Stays ts (plain (alternative ts)))
    (fun ts => Stays ts (plain (block ts)))
    ?_ ?_ ?_ ?_ ?_ ?_ ?_ ?_ ?_ ?_ ?_ ?_ ?_ ?_ ?_ ?_
  · exact hall.1 ts
  · exact stays_nil _
  · intro t ts hkind
    rw [plain_statement_spill ts hkind]
    exact Stays.cons ((stays_expression ts).bind fun value rest => stays_same _) (by simp [hkind])
  · intro t ts hkind
    rw [plain_statement_listen ts hkind]
    exact (stays_listen ts).cons (by simp [hkind])
  · intro t ts hkind
    rw [plain_statement_tea ts hkind]
    refine Stays.cons ?_ (by simp [hkind])
    exact stays_teaDeclaration ts
  · intro t ts hkind
    rw [plain_statement_sigil ts hkind]
    exact stays_declaration hkind ts
  · intro t ts hkind hblock
    rw [plain_statement_colon ts hkind]
    exact Stays.cons (hblock.bind fun body rest => stays_same _) (by simp [hkind])
  · intro t ts hkind hstatement halternative
    rw [plain_statement_bet ts hkind]
    refine Stays.cons ?_ (by simp [hkind])
    refine (stays_expression ts).bind fun condition rest => ?_
    refine (hstatement rest).bind fun consequent later => ?_
    exact (halternative rest later).bind fun otherwise rest => stays_same _
  · intro t ts hspill hlisten htea hsigil hcolon hbet hassign
    have hopener := isOpener_eq_false hspill hlisten htea hsigil hcolon hbet
    have hassign' : t.kind = .identifier ∧ startsWith .asWord ts = true := by simpa using hassign
    rw [plain_statement_other ts hopener, if_pos hassign']
    exact (stays_assignment t ts).cons (by simp [hassign'.1])
  · intro t ts hspill hlisten htea hsigil hcolon hbet hassign
    have hopener := isOpener_eq_false hspill hlisten htea hsigil hcolon hbet
    have hassign' : ¬(t.kind = .identifier ∧ startsWith .asWord ts = true) := by
      simpa using hassign
    rw [plain_statement_other ts hopener, if_neg hassign']
    exact (stays_expression (t :: ts)).bind fun value rest => stays_same _
  · exact stays_nil _
  · intro t ts hkind hstatement
    rw [plain_alternative_cons, if_pos hkind]
    exact hstatement.cons (by simp [hkind])
  · intro t ts hkind
    rw [plain_alternative_cons, if_neg hkind]
    exact stays_same _
  · exact stays_nil _
  · intro t ts hkind
    rw [plain_block_cons, if_pos hkind]
    exact (stays_same _).cons (ne_endOfFile_of_isTerminator hkind)
  · intro t ts hterminator hend
    rw [plain_block_cons, if_neg hterminator, if_pos hend]
    exact stays_same _
  · intro t ts hterminator hend hstatement hblock
    rw [plain_block_cons, if_neg hterminator, if_neg hend]
    refine hstatement.bind fun first rest => ?_
    exact (hblock rest).bind fun others rest => stays_same _

/-- A program is given up at one of its tokens. -/
theorem isAbout_of_program_eq_error
    {ts : List Token} {failure : ParseFailure} (hend : HasEnd ts)
    (h : program ts = .error failure) : failure.IsAbout ts := by
  induction ts using program.induct with
  | case1 =>
      obtain ⟨t, ht, -⟩ := hend
      cases ht
  | case2 t later hkind =>
      rw [program_cons, if_pos hkind] at h
      cases h
  | case3 t later hkind ih =>
      have hstays := stays_statement (t :: later) hend
      rw [program_cons, if_neg hkind, bind_eq_error] at h
      rcases h with hfirst | ⟨⟨first, rest⟩, hfirst, h⟩
      · rwa [hfirst] at hstays
      · rw [hfirst] at hstays
        obtain ⟨hrest, hsubset⟩ := hstays
        rw [bind_eq_error] at h
        rcases h with hothers | ⟨others, -, h⟩
        · obtain ⟨shorter, -, rfl⟩ := exists_of_plain_eq_ok hfirst
          exact (ih shorter hrest hothers).mono hsubset
        · cases h

/-- Where no sigil is missing, a program that is given up has a parse error. -/
theorem exists_unexpected_of_program_eq_error
    {ts : List Token} {failure : ParseFailure} (hend : HasEnd ts)
    (hsigils : ∀ t ∈ ts, ¬t.LacksSigil) (h : program ts = .error failure) :
    ∃ e, failure = .unexpected e ∧ e.token ∈ ts := by
  have habout := isAbout_of_program_eq_error hend h
  cases failure with
  | unexpected e => exact ⟨e, rfl, habout⟩
  | noSigil target => exact absurd habout.2 (hsigils target habout.1)

end Parser

/-- A source text that cannot be parsed has a parse error at one of its tokens. -/
theorem exists_parseError_of_source
    {source : String} {failure : ParseFailure}
    (h : Parser.program (Scan.ofSource source).tokens = .error failure) :
    ∃ e, failure = .unexpected e ∧ e.token ∈ (Scan.ofSource source).tokens := by
  obtain ⟨body, last, htokens, hlast, -⟩ := Scan.exists_ofSource_eq source
  have hend : Parser.HasEnd (Scan.ofSource source).tokens := ⟨last, by simp [htokens], hlast⟩
  refine Parser.exists_unexpected_of_program_eq_error hend (fun t ht => ?_) h
  exact (Scan.faithful_of_mem_ofSource ht).not_lacksSigil

end Slang
