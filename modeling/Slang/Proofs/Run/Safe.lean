import Slang.Proofs.Grammar.Tokens
import Slang.Proofs.Token.Scanned
import Slang.Proofs.Value.Plain
import Slang.Run.Exec

/-!
# Runs of spelled programs

A statement that is spelled by faithful tokens keeps all values of the scope plain.  It prints no
failure of its own, and if it stops, it stops with a failure of the program at one of its tokens.
This is proved for one statement after the other, each in any scope of plain values, and carried
over to whole programs.
-/

namespace Slang

open Grammar

/-! ## Scopes -/

/-- All values of the frame are plain. -/
def Frame.IsPlain (frame : Frame) : Prop :=
  ∀ binding ∈ frame, binding.2.IsPlain

theorem Frame.IsPlain.get?
    {frame : Frame} (h : frame.IsPlain) {name : Json} {value : Value}
    (hvalue : frame.get? name = some value) : value.IsPlain := by
  obtain ⟨before, after, rfl, -⟩ := List.lookup_eq_some_iff.mp hvalue
  exact h (name, value) (by simp)

theorem Frame.IsPlain.set
    {frame : Frame} (h : frame.IsPlain) (name : Json) {value : Value} (hvalue : value.IsPlain) :
    (frame.set name value).IsPlain := by
  induction frame with
  | nil =>
      intro binding hbinding
      rw [List.mem_singleton.mp hbinding]
      exact hvalue
  | cons first later ih =>
      obtain ⟨bound, old⟩ := first
      obtain ⟨hfirst, hlater⟩ := List.forall_mem_cons.mp h
      unfold Frame.set
      split
      · exact List.forall_mem_cons.mpr ⟨hvalue, hlater⟩
      · exact List.forall_mem_cons.mpr ⟨hfirst, ih hlater⟩

namespace Scope

/-- All values of the scope are plain. -/
def IsPlain : Scope → Prop
  | .outermost frame => frame.IsPlain
  | .inner frame outer => frame.IsPlain ∧ outer.IsPlain

theorem isPlain_empty : empty.IsPlain := by
  intro binding hbinding
  cases hbinding

theorem IsPlain.get?
    {scope : Scope} (h : scope.IsPlain) {name : Json} {value : Value}
    (hvalue : scope.get? name = some value) : value.IsPlain := by
  induction scope with
  | outermost frame => exact Frame.IsPlain.get? h hvalue
  | inner frame outer ih =>
      unfold Scope.get? at hvalue
      split at hvalue
      · rename_i hframe
        cases hvalue
        exact h.1.get? hframe
      · exact ih h.2 hvalue

theorem IsPlain.define
    {scope : Scope} (h : scope.IsPlain) (name : Json) {value : Value} (hvalue : value.IsPlain) :
    (scope.define name value).IsPlain := by
  cases scope with
  | outermost frame => exact Frame.IsPlain.set h name hvalue
  | inner frame outer => exact ⟨h.1.set name hvalue, h.2⟩

theorem IsPlain.assign?
    {scope scope' : Scope} (h : scope.IsPlain) {name : Json} {value : Value}
    (hvalue : value.IsPlain) (hscope : scope.assign? name value = some scope') :
    scope'.IsPlain := by
  induction scope generalizing scope' with
  | outermost frame =>
      unfold Scope.assign? at hscope
      split at hscope
      · cases hscope
        exact Frame.IsPlain.set h name hvalue
      · cases hscope
  | inner frame outer ih =>
      unfold Scope.assign? at hscope
      split at hscope
      · cases hscope
        exact ⟨h.1.set name hvalue, h.2⟩
      · obtain ⟨outer', houter, rfl⟩ := Option.map_eq_some_iff.mp hscope
        exact ⟨h.1, ih h.2 houter⟩

theorem IsPlain.push {scope : Scope} (h : scope.IsPlain) : scope.push.IsPlain :=
  ⟨fun _ hbinding => (nomatch hbinding), h⟩

theorem IsPlain.pop {scope : Scope} (h : scope.IsPlain) : scope.pop.IsPlain := by
  cases scope with
  | outermost frame => exact h
  | inner frame outer => exact h.2

end Scope

/-! ## Expressions -/

/-- The mark is the one of the token, or of the name that the token declares. -/
def Token.IsBlamed (t : Token) (mark : Mark) : Prop :=
  mark = t.mark ∨ t.kind = .sigilIdentifier ∧ mark = nameOf t

/-- A failure of the program itself, at one of the tokens. -/
def Fault.IsOrdinary (tokens : List Token) : Fault → Prop
  | .runtime mark cause =>
    ¬cause.IsInternal ∧ ∃ t ∈ tokens, ¬Closes t.kind ∧ t.IsBlamed mark
  | _ => False

theorem Fault.IsOrdinary.mono
    {tokens tokens' : List Token} {fault : Fault} (h : fault.IsOrdinary tokens)
    (hsubset : tokens ⊆ tokens') : fault.IsOrdinary tokens' := by
  cases fault with
  | runtime mark cause =>
      obtain ⟨hcause, t, ht, hmark⟩ := h
      exact ⟨hcause, t, hsubset ht, hmark⟩
  | _ => exact h.elim

/-- The value of an expression is plain, or the failure is one of the program. -/
abbrev Evaluates (tokens : List Token) (result : Except Fault Value) : Prop :=
  Yields Value.IsPlain (Fault.IsOrdinary tokens) result

theorem Yields.widen
    {α : Type} {p : α → Prop} {tokens tokens' : List Token} {result : Except Fault α}
    (h : Yields p (Fault.IsOrdinary tokens) result) (hsubset : tokens ⊆ tokens') :
    Yields p (Fault.IsOrdinary tokens') result :=
  h.mono fun _ hfault => hfault.mono hsubset

/-- An operator fails at its own token. -/
theorem evaluates_locate
    {tokens : List Token} {t : Token} {result : Except Cause Value} (h : Value.Computes result)
    (ht : t ∈ tokens) (hcloses : ¬Closes t.kind) :
    Evaluates tokens (Fault.locate t.mark result) := by
  cases result with
  | error cause => exact ⟨h, t, ht, hcloses, .inl rfl⟩
  | ok value => exact h

theorem evaluates_read
    {scope : Scope} (hscope : scope.IsPlain) {t : Token} (hcloses : ¬Closes t.kind) :
    Evaluates [t] (scope.read t.mark) := by
  have hname : t.mark.name = .ok (Sigil.strip t.lexeme) := rfl
  cases hvalue : scope.get? (.text (Sigil.strip t.lexeme)) with
  | some value =>
    have hread : scope.read t.mark = .ok value := by
      simp [Scope.read, hname, hvalue, bind, Except.bind]
    rw [hread]
    exact hscope.get? hvalue
  | none =>
    have hread : scope.read t.mark =
        .error (.runtime t.mark (.undefinedVariable (Sigil.strip t.lexeme))) := by
      simp [Scope.read, hname, hvalue, bind, Except.bind]
    rw [hread]
    exact ⟨id, t, List.mem_singleton_self t, hcloses, .inl rfl⟩

theorem evaluates_of_spelled
    {e : Node} {tokens : List Token} (h : SpellsExpression e tokens)
    (hfaithful : ∀ t ∈ tokens, t.Faithful) {scope : Scope} (hscope : scope.IsPlain) :
    Evaluates tokens (e.eval scope) := by
  induction h with
  | @number t hkind =>
      obtain ⟨x, hx⟩ := (hfaithful t (by simp)).number hkind
      simp [Node.eval, Yields, hx, Literal.toJson, Value.ofJson, Value.IsPlain]
  | @text t hkind =>
      obtain ⟨s, hs⟩ := (hfaithful t (by simp)).text (.inl hkind)
      simp [Node.eval, Yields, hs, Literal.toJson, Value.ofJson, Value.IsPlain]
  | @character t hkind =>
      obtain ⟨s, hs⟩ := (hfaithful t (by simp)).text (.inr hkind)
      simp [Node.eval, Yields, hs, Literal.toJson, Value.IsPlain]
  | boolean => trivial
  | ghosted => trivial
  | identifier hkind =>
      refine evaluates_read hscope ?_
      rcases hkind with hkind | hkind <;> simp [hkind, Closes]
  | @group opening closing inner tokens hopening hclosing hinner ih =>
      have hsubset : tokens ⊆ opening :: (tokens ++ [closing]) :=
        fun t ht => List.mem_cons_of_mem _ (List.mem_append_left _ ht)
      exact (ih fun t ht => hfaithful t (hsubset ht)).widen hsubset
  | @unary operator operand tokens hoperator hoperand ih =>
      have hsubset : tokens ⊆ operator :: tokens := List.subset_cons_self operator tokens
      have hcloses : ¬Closes operator.kind := by
        rcases hoperator with hkind | hkind <;> simp [hkind, Closes]
      have hvalue := ih fun t ht => hfaithful t (hsubset ht)
      refine (hvalue.widen hsubset).bind fun value hplain => ?_
      exact evaluates_locate (Value.computes_unary hoperator hplain) (by simp) hcloses
  | @binary operator left right before after hoperator hleft hright ihLeft ihRight =>
      have hbefore : before ⊆ before ++ operator :: after := List.subset_append_left _ _
      have hafter : after ⊆ before ++ operator :: after :=
        fun t ht => List.mem_append_right _ (List.mem_cons_of_mem _ ht)
      have hcloses := not_closes_of_inExpression (inExpression_of_isBinary hoperator)
      have ha := ihLeft fun t ht => hfaithful t (hbefore ht)
      have hb := ihRight fun t ht => hfaithful t (hafter ht)
      refine (ha.widen hbefore).bind fun a _ => ?_
      refine (hb.widen hafter).bind fun b _ => ?_
      exact evaluates_locate (Value.computes_binary hoperator a b) (by simp) hcloses

/-! ## Statements -/

/-- The report of a failure. -/
def Printed.IsFailure : Printed → Prop
  | .failure _ => True
  | _ => False

/-- A part of a run that keeps values plain, reports nothing itself and stops, if it stops, with a
failure of the program at one of the tokens. -/
structure Outcome.IsSafe (tokens : List Token) (outcome : Outcome) : Prop where
  scope : outcome.state.scope.IsPlain
  printed : ∀ p ∈ outcome.printed, ¬p.IsFailure
  fault : ∀ fault ∈ outcome.fault, fault.IsOrdinary tokens

namespace Outcome

variable {tokens : List Token} {state : State}

theorem isSafe_pass (hscope : state.scope.IsPlain) : (pass state).IsSafe tokens :=
  ⟨hscope, by simp [pass], by simp [pass]⟩

theorem IsSafe.widen
    {tokens' : List Token} {outcome : Outcome} (h : outcome.IsSafe tokens)
    (hsubset : tokens ⊆ tokens') : outcome.IsSafe tokens' :=
  ⟨h.scope, h.printed, fun fault hfault => (h.fault fault hfault).mono hsubset⟩

theorem isSafe_given
    {α : Type} {p : α → Prop} {result : Except Fault α} {next : α → Outcome}
    (hresult : Yields p (Fault.IsOrdinary tokens) result) (hscope : state.scope.IsPlain)
    (hnext : ∀ a, p a → (next a).IsSafe tokens) : (given state result next).IsSafe tokens := by
  cases result with
  | ok a => exact hnext a hresult
  | error fault =>
      refine ⟨hscope, by simp [given, stop], ?_⟩
      intro fault' hfault'
      cases hfault'
      exact hresult

theorem IsSafe.andThen
    {first : Outcome} {next : State → Outcome} (hfirst : first.IsSafe tokens)
    (hnext : ∀ state : State, state.scope.IsPlain → (next state).IsSafe tokens) :
    (first.andThen next).IsSafe tokens := by
  unfold Outcome.andThen
  split
  · exact hfirst
  · have hsecond := hnext first.state hfirst.scope
    refine ⟨hsecond.scope, ?_, hsecond.fault⟩
    intro p hp
    rcases List.mem_append.mp hp with hp | hp
    · exact hfirst.printed p hp
    · exact hsecond.printed p hp

theorem IsSafe.close
    {body : Outcome} (h : body.IsSafe tokens) (settings : Settings) (depth : Nat) :
    (body.close settings depth).IsSafe tokens :=
  ⟨h.scope.pop, h.printed, h.fault⟩

end Outcome

theorem yields_shown
    {value : Value} (h : value.IsPlain) (tokens : List Token) :
    Yields (fun _ => True) (Fault.IsOrdinary tokens) value.shown := by
  obtain ⟨s, hs⟩ := h.render
  simp [Value.shown, hs, Except.mapError, Yields]

namespace State

variable {tokens : List Token} {state : State}

theorem isSafe_bind
    (settings : Settings) (state : State) {scope : Scope} (hscope : scope.IsPlain) {value : Value}
    (hvalue : value.IsPlain) (event : String → Event) :
    (state.bind settings scope value event).IsSafe tokens :=
  Outcome.isSafe_given (yields_shown hvalue tokens) hscope fun _ _ => ⟨hscope, by simp, by simp⟩

theorem isSafe_declare
    (settings : Settings) (name : String) (hscope : state.scope.IsPlain) {value : Value}
    (hvalue : value.IsPlain) : (state.declare settings (.text name) value).IsSafe tokens := by
  unfold declare
  rw [if_neg (by simp [Json.isCompound])]
  exact isSafe_bind settings state (hscope.define _ hvalue) hvalue _

theorem isSafe_upsert
    (settings : Settings) (name : String) (hscope : state.scope.IsPlain) {value : Value}
    (hvalue : value.IsPlain) : (state.upsert settings name value).IsSafe tokens := by
  unfold upsert
  split
  · rename_i hassign
    exact isSafe_bind settings state (hscope.assign? hvalue hassign) hvalue _
  · exact isSafe_declare settings name hscope hvalue

end State

/-- The first character of a variable with a sigil is a sigil. -/
theorem isSome_ofJson?_singleton
    {t : Token} {sigil : Char} (h : t.Faithful) (hkind : t.kind = .sigilIdentifier)
    (hsigil : t.lexeme.toList.head? = some sigil) :
    (Sigil.ofJson? (.text (String.singleton sigil))).isSome = true := by
  obtain ⟨c, rest, hlexeme, hc⟩ := h.sigil hkind
  rw [hlexeme] at hsigil
  cases hsigil
  exact Sigil.ofText?_singleton hc

/-- The front of a variable with a sigil is a sigil. -/
theorem isSome_leading {t : Token} (h : t.Faithful) (hkind : t.kind = .sigilIdentifier) :
    (Sigil.ofJson? (.text (Sigil.leading t.lexeme))).isSome = true := by
  obtain ⟨c, rest, hlexeme, hc⟩ := h.sigil hkind
  unfold Sigil.leading
  rw [hlexeme]
  exact Sigil.ofText?_singleton hc

theorem Fault.IsAt.isOrdinary
    {mark : Mark} {fault : Fault} (h : fault.IsAt mark) {tokens : List Token} {t : Token}
    (ht : t ∈ tokens) (hcloses : ¬Closes t.kind) (hmark : t.IsBlamed mark) :
    fault.IsOrdinary tokens := by
  cases fault with
  | runtime place cause =>
      obtain ⟨rfl, hcause⟩ := h
      exact ⟨hcause, t, ht, hcloses, hmark⟩
  | _ => exact h.elim

namespace State

variable {state : State}

theorem isSafe_listen
    (settings : Settings) (prompt : Json) {target : Token} (hkind : target.kind = .sigilIdentifier)
    (hfaithful : target.Faithful) (hscope : state.scope.IsPlain) {tokens : List Token}
    (ht : target ∈ tokens) : (state.listen settings prompt target.mark).IsSafe tokens := by
  unfold listen
  refine Outcome.IsSafe.andThen ⟨hscope, ?_, by simp⟩ fun state hscope => ?_
  · intro p hp
    rw [List.mem_singleton.mp hp]
    exact id
  · have hfront : Yields (· = .text (Sigil.leading target.lexeme)) (Fault.IsOrdinary tokens)
        target.mark.front := rfl
    have hname : Yields (fun _ => True) (Fault.IsOrdinary tokens) target.mark.name := trivial
    have hfit : ∀ value : Value, value.IsPlain → Yields Value.IsPlain (Fault.IsAt target.mark)
        (fit value (.text (Sigil.leading target.lexeme)) target.mark) :=
      fun value hvalue => yields_fit hvalue (isSome_leading hfaithful hkind) rfl
    refine Outcome.isSafe_given hfront hscope ?_
    rintro sigil rfl
    refine Outcome.isSafe_given ((hfit _ (Value.isPlain_ofEntry _ _)).mono fun fault hfault => ?_)
      hscope fun value hvalue => ?_
    · exact hfault.isOrdinary ht (by simp [hkind, Closes]) (.inl rfl)
    · exact Outcome.isSafe_given hname hscope fun name _ =>
        isSafe_upsert settings name hscope hvalue

end State

namespace Grammar

open Node

variable {settings : Settings} {state : State}

theorem isSafe_declaration
    {target : Token} {sigil : Char} {value : Node} {tokens all : List Token}
    (htarget : target.kind = .sigilIdentifier)
    (hsigil : target.lexeme.toList.head? = some sigil) (hvalue : SpellsExpression value tokens)
    (hfaithful : ∀ t ∈ all, t.Faithful) (hmem : target ∈ all) (hsubset : tokens ⊆ all)
    (hscope : state.scope.IsPlain) :
    (exec settings (.declaration (.text (String.singleton sigil)) (nameOf target) value)
      state).IsSafe all := by
  have hevaluates := evaluates_of_spelled hvalue (fun t ht => hfaithful t (hsubset ht)) hscope
  unfold exec
  refine Outcome.isSafe_given (hevaluates.widen hsubset) hscope fun v hv => ?_
  have hfit : Yields Value.IsPlain (Fault.IsAt (nameOf target))
      (fit v (.text (String.singleton sigil)) (nameOf target)) :=
    yields_fit hv (isSome_ofJson?_singleton (hfaithful target hmem) htarget hsigil) rfl
  refine Outcome.isSafe_given (hfit.mono fun fault hfault => ?_) hscope fun v hv => ?_
  · exact hfault.isOrdinary hmem (by simp [htarget, Closes]) (.inr ⟨htarget, rfl⟩)
  · exact State.isSafe_declare settings _ hscope hv

theorem isSafe_assignment
    {target : Token} {value : Node} {tokens all : List Token} (htarget : target.kind = .identifier)
    (hvalue : SpellsExpression value tokens) (hfaithful : ∀ t ∈ all, t.Faithful)
    (hsubset : tokens ⊆ all) (hscope : state.scope.IsPlain) :
    (exec settings (.assignment target.mark value) state).IsSafe all := by
  have hevaluates := evaluates_of_spelled hvalue (fun t ht => hfaithful t (hsubset ht)) hscope
  have hname : Yields (fun _ => True) (Fault.IsOrdinary all) target.mark.name := trivial
  have hfit : ∀ v : Value, v.IsPlain →
      Yields Value.IsPlain (Fault.IsOrdinary all) (fitAssigned v target.mark) := by
    intro v hv
    have hkeep : fitAssigned v target.mark = .ok v := by
      simp [fitAssigned, Mark.front, htarget, bind, Except.bind]
    rw [hkeep]
    exact hv
  unfold exec
  refine Outcome.isSafe_given (hevaluates.widen hsubset) hscope fun v hv => ?_
  refine Outcome.isSafe_given (hfit v hv) hscope fun v hv => ?_
  exact Outcome.isSafe_given hname hscope fun name _ => State.isSafe_upsert settings name hscope hv

theorem isSafe_conditional
    {condition consequent otherwise : Node} {test all : List Token}
    (hcondition : SpellsExpression condition test) (hfaithful : ∀ t ∈ all, t.Faithful)
    (hsubset : test ⊆ all) (hscope : state.scope.IsPlain)
    (hconsequent : ∀ state : State, state.scope.IsPlain →
      (exec settings consequent state).IsSafe all)
    (hotherwise : otherwise.isAbsent = false → ∀ state : State, state.scope.IsPlain →
      (exec settings otherwise state).IsSafe all) :
    (exec settings (.conditional condition consequent otherwise) state).IsSafe all := by
  have hevaluates := evaluates_of_spelled hcondition (fun t ht => hfaithful t (hsubset ht)) hscope
  unfold exec
  refine Outcome.isSafe_given (hevaluates.widen hsubset) hscope fun v hv => ?_
  refine Outcome.isSafe_given (yields_shown hv all) hscope fun text _ => ?_
  refine Outcome.IsSafe.andThen ⟨hscope, by simp, by simp⟩ fun state hscope => ?_
  split
  · exact hconsequent state hscope
  · split
    · exact Outcome.isSafe_pass hscope
    · rename_i habsent
      exact hotherwise (by simpa using habsent) state hscope

mutual

/-- Executing a spelled statement is safe in every scope of plain values. -/
theorem Spells.isSafe
    {node : Node} {tokens : List Token} (h : Spells node tokens)
    (hfaithful : ∀ t ∈ tokens, t.Faithful) (settings : Settings) {state : State}
    (hscope : state.scope.IsPlain) : (exec settings node state).IsSafe tokens := by
  cases h with
  | @spill word value tokens hword hvalue =>
      have hsubset : tokens ⊆ word :: tokens := List.subset_cons_self word tokens
      have hevaluates := evaluates_of_spelled hvalue (fun t ht => hfaithful t (hsubset ht)) hscope
      unfold exec
      refine Outcome.isSafe_given (hevaluates.widen hsubset) hscope fun v hv => ?_
      refine Outcome.isSafe_given (yields_shown hv _) hscope fun text _ => ⟨hscope, ?_, by simp⟩
      simp [Printed.IsFailure]
  | expression hvalue =>
      unfold exec
      refine Outcome.isSafe_given (evaluates_of_spelled hvalue hfaithful hscope) hscope ?_
      intro v hv
      split
      · refine Outcome.isSafe_given (yields_shown hv _) hscope fun text _ => ⟨hscope, ?_, by simp⟩
        simp [Printed.IsFailure]
      · exact Outcome.isSafe_pass hscope
  | declaration htarget hsigil hword hvalue =>
      refine isSafe_declaration htarget hsigil hvalue hfaithful (by simp) ?_ hscope
      exact fun t ht => by simp [ht]
  | teaDeclaration htea htarget hsigil hword hvalue =>
      refine isSafe_declaration htarget hsigil hvalue hfaithful (by simp) ?_ hscope
      exact fun t ht => by simp [ht]
  | assignment htarget hword hvalue =>
      refine isSafe_assignment htarget hvalue hfaithful ?_ hscope
      exact fun t ht => by simp [ht]
  | listen hlisten hprompt hword htarget =>
      unfold exec
      exact State.isSafe_listen settings _ htarget (hfaithful _ (by simp)) hscope (by simp)
  | @block opening closing body tokens hopening hclosing hbody =>
      have hsubset : tokens ⊆ opening :: (tokens ++ [closing]) :=
        fun t ht => List.mem_cons_of_mem _ (List.mem_append_left _ ht)
      have hpushed : { state with scope := state.scope.push }.scope.IsPlain := hscope.push
      have hsafe := hbody.isSafe (fun t ht => hfaithful t (hsubset ht)) settings hpushed
      unfold exec
      exact (hsafe.close settings _).widen hsubset
  | @conditional bet condition consequent test first hbet hcondition hconsequent =>
      have hfirst : first ⊆ bet :: (test ++ first) := fun t ht => by simp [ht]
      refine isSafe_conditional hcondition hfaithful (fun t ht => by simp [ht]) hscope ?_ ?_
      · intro state hscope
        exact (hconsequent.isSafe (fun t ht => hfaithful t (hfirst ht)) settings hscope).widen hfirst
      · intro habsent
        cases habsent
  | @alternative bet deadass condition consequent otherwise test first second hbet hcondition
      hconsequent hdeadass hotherwise =>
      have hfirst : first ⊆ bet :: (test ++ (first ++ deadass :: second)) :=
        fun t ht => by simp [ht]
      have hsecond : second ⊆ bet :: (test ++ (first ++ deadass :: second)) :=
        fun t ht => by simp [ht]
      refine isSafe_conditional hcondition hfaithful (fun t ht => by simp [ht]) hscope ?_ ?_
      · intro state hscope
        exact (hconsequent.isSafe (fun t ht => hfaithful t (hfirst ht)) settings hscope).widen hfirst
      · intro _ state hscope
        exact (hotherwise.isSafe (fun t ht => hfaithful t (hsecond ht)) settings hscope).widen hsecond

/-- Executing spelled statements one after the other is safe. -/
theorem SpellsAll.isSafe
    {body : List Node} {tokens : List Token} (h : SpellsAll body tokens)
    (hfaithful : ∀ t ∈ tokens, t.Faithful) (settings : Settings) {state : State}
    (hscope : state.scope.IsPlain) : (execAll settings body state).IsSafe tokens := by
  cases h with
  | nil =>
      unfold execAll
      exact Outcome.isSafe_pass hscope
  | @cons node later first rest hnode hlater =>
      have hfirst : first ⊆ first ++ rest := List.subset_append_left first rest
      have hrest : rest ⊆ first ++ rest := List.subset_append_right first rest
      have hsafe := hnode.isSafe (fun t ht => hfaithful t (hfirst ht)) settings hscope
      unfold execAll
      refine (hsafe.widen hfirst).andThen fun state hscope => ?_
      exact (hlater.isSafe (fun t ht => hfaithful t (hrest ht)) settings hscope).widen hrest

end

end Grammar

end Slang
