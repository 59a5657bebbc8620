import Slang.Proofs.Run.Sequence

/-!
# Lines that a run reads

A run takes lines off the input, one for each request for input that it executes.  Which requests
these are may depend on the lines that were read before.  So the lines are collected along the run.
They are the first lines of the input, and empty ones after its end.  A run on another input is the
same run as soon as the same lines can be read there.
-/

namespace Slang

/-! ## Lines of an input -/

/-- The lines of an input, each with the line break that ends it.  The last one may lack it. -/
def inputLines : List Char → List (List Char)
  | [] => []
  | c :: rest =>
    if c = '\n' then [c] :: inputLines rest
    else
      match inputLines rest with
      | [] => [[c]]
      | line :: later => (c :: line) :: later

/-- A line without its line break. -/
def lineText (line : List Char) : List Char :=
  line.takeWhile (· != '\n')

/-- No line of the text lacks its line break. -/
def HasWholeLines (text : List Char) : Prop :=
  text = [] ∨ text.getLast? = some '\n'

theorem flatten_inputLines (input : List Char) : (inputLines input).flatten = input := by
  induction input with
  | nil => rfl
  | cons c rest ih =>
      by_cases hbreak : c = '\n'
      · simp [inputLines, hbreak, ih]
      · cases hlines : inputLines rest <;> simpa [inputLines, hbreak, hlines] using ih

theorem takeLine_break (rest : List Char) : takeLine ('\n' :: rest) = ([], rest) := rfl

theorem takeLine_cons {c : Char} (h : c ≠ '\n') (rest : List Char) :
    takeLine (c :: rest) = (c :: (takeLine rest).1, (takeLine rest).2) := by
  simp [takeLine, h]

/-- Taking a line off the input leaves the later lines. -/
theorem inputLines_takeLine (input : List Char) :
    inputLines (takeLine input).2 = (inputLines input).tail := by
  induction input with
  | nil => rfl
  | cons c rest ih =>
      by_cases hbreak : c = '\n'
      · rw [hbreak, takeLine_break]
        simp [inputLines]
      · rw [takeLine_cons hbreak, ih]
        cases hlines : inputLines rest <;> simp [inputLines, hbreak, hlines]

/-- The line that is taken is the first one, or empty if there is none. -/
theorem takeLine_eq_lineText (input : List Char) :
    (takeLine input).1 = lineText ((inputLines input).headD []) := by
  induction input with
  | nil => rfl
  | cons c rest ih =>
      by_cases hbreak : c = '\n'
      · rw [hbreak, takeLine_break]
        simp [inputLines, lineText]
      · rw [takeLine_cons hbreak, ih]
        cases hlines : inputLines rest <;> simp [inputLines, lineText, hbreak, hlines]

theorem HasWholeLines.tail {c : Char} {text : List Char} (h : HasWholeLines (c :: text)) :
    HasWholeLines text := by
  cases text with
  | nil => exact .inl rfl
  | cons d later =>
      refine .inr ?_
      simpa [HasWholeLines] using h

theorem HasWholeLines.inputLines_append {text : List Char} (h : HasWholeLines text)
    (later : List Char) : inputLines (text ++ later) = inputLines text ++ inputLines later := by
  induction text with
  | nil => rfl
  | cons c rest ih =>
      have hrest := ih h.tail
      by_cases hbreak : c = '\n'
      · simp [inputLines, hbreak, hrest]
      · cases hlines : inputLines rest with
        | nil =>
            -- The text would end in another character than a line break.
            have hnil : rest = [] := by rw [← flatten_inputLines rest, hlines, List.flatten_nil]
            simp [HasWholeLines, hnil, hbreak] at h
        | cons line others => simp [inputLines, hbreak, hrest, hlines]

/-- A whole line is taken off alike, whatever comes after the text. -/
theorem HasWholeLines.takeLine_append {text : List Char} (h : HasWholeLines text)
    (hne : text ≠ []) (later : List Char) :
    HasWholeLines (takeLine text).2 ∧
      takeLine (text ++ later) = ((takeLine text).1, (takeLine text).2 ++ later) := by
  induction text with
  | nil => exact (hne rfl).elim
  | cons c rest ih =>
      by_cases hbreak : c = '\n'
      · subst hbreak
        exact ⟨h.tail, rfl⟩
      · have hrest : rest ≠ [] := by
          rintro rfl
          simp [HasWholeLines, hbreak] at h
        obtain ⟨hwhole, htaken⟩ := ih h.tail hrest
        rw [List.cons_append, takeLine_cons hbreak, takeLine_cons hbreak, htaken]
        exact ⟨hwhole, rfl⟩

/-! ## Reading line by line -/

/-- Taking lines off the input gives these lines and leaves the rest. -/
inductive ReadsLines : List Char → List (List Char) → List Char → Prop
  | done (input : List Char) : ReadsLines input [] input
  | line {input rest : List Char} {entries : List (List Char)}
      (h : ReadsLines (takeLine input).2 entries rest) :
      ReadsLines input ((takeLine input).1 :: entries) rest

namespace ReadsLines

variable {input rest : List Char} {entries : List (List Char)}

theorem append {rest' : List Char} {entries' : List (List Char)}
    (h : ReadsLines input entries rest) (h' : ReadsLines rest entries' rest') :
    ReadsLines input (entries ++ entries') rest' := by
  induction h with
  | done => exact h'
  | line _ ih => exact .line (ih h')

theorem split {first later : List (List Char)} (h : ReadsLines input (first ++ later) rest) :
    ∃ middle, ReadsLines input first middle ∧ ReadsLines middle later rest := by
  induction first generalizing input with
  | nil => exact ⟨input, .done input, h⟩
  | cons entry others ih =>
      cases h with
      | line h =>
          obtain ⟨middle, hfirst, hlater⟩ := ih h
          exact ⟨middle, .line hfirst, hlater⟩

theorem eq_of_nil (h : ReadsLines input [] rest) : rest = input := by
  cases h
  rfl

theorem takeLine_eq {entry : List Char} (h : ReadsLines input [entry] rest) :
    takeLine input = (entry, rest) := by
  cases h with
  | line h => rw [h.eq_of_nil]

theorem suffix (h : ReadsLines input entries rest) : rest <:+ input := by
  induction h with
  | done => exact List.suffix_rfl
  | line _ ih => exact ih.trans ((List.drop_suffix 1 _).trans (List.dropWhile_suffix _))

/-- The lines that are left are those after the ones that were read. -/
theorem inputLines_rest (h : ReadsLines input entries rest) :
    inputLines rest = (inputLines input).drop entries.length := by
  induction h with
  | done => rfl
  | line _ ih => rw [ih, inputLines_takeLine, List.drop_tail, List.length_cons]

/-- The first lines of the input are read, and empty lines after its end. -/
theorem entries_eq (h : ReadsLines input entries rest) :
    entries = ((inputLines input).take entries.length).map lineText ++
      List.replicate (entries.length - (inputLines input).length) [] := by
  induction h with
  | done => simp
  | @line input rest entries _ ih =>
      rw [inputLines_takeLine] at ih
      rw [takeLine_eq_lineText]
      cases hlines : inputLines input with
      | nil =>
          rw [hlines] at ih
          simpa [lineText, List.replicate_succ] using ih
      | cons line later =>
          rw [hlines] at ih
          simpa using ih

/-- Of whole lines, the same are read whatever comes after them. -/
theorem of_hasWholeLines {text later : List Char} (h : ReadsLines (text ++ later) entries rest)
    (htext : HasWholeLines text) (hlength : entries.length ≤ (inputLines text).length) :
    ∃ unread, rest = unread ++ later ∧
      inputLines unread = (inputLines text).drop entries.length ∧
      ∀ other, ReadsLines (text ++ other) entries (unread ++ other) := by
  induction entries generalizing text with
  | nil => exact ⟨text, h.eq_of_nil, rfl, fun other => .done _⟩
  | cons entry others ih =>
      have hne : text ≠ [] := by
        rintro rfl
        simp [inputLines] at hlength
      have htaken := htext.takeLine_append hne
      have hlater : others.length ≤ (inputLines (takeLine text).2).length := by
        rw [inputLines_takeLine, List.length_tail]
        exact Nat.le_sub_one_of_lt hlength
      cases h with
      | line h =>
          rw [(htaken later).2] at h ⊢
          obtain ⟨unread, hrest, hunread, hothers⟩ := ih h (htaken later).1 hlater
          refine ⟨unread, hrest, ?_, fun other => ?_⟩
          · rw [hunread, inputLines_takeLine, List.drop_tail, List.length_cons]
          · have hline := @ReadsLines.line (text ++ other) (unread ++ other) others
            rw [(htaken other).2] at hline
            exact hline (hothers other)

end ReadsLines

/-! ## Lines that statements read -/

/-- A request for input, as it is printed. -/
def Printed.isPrompt : Printed → Bool
  | .prompt _ => true
  | _ => false

namespace Node

mutual

/-- The lines that are read while a statement is executed in a state.  A request for input reads its
line before anything can fail. -/
def entries (settings : Settings) : Node → State → List (List Char)
  | .listen _ _, state => [(takeLine state.input).1]
  | .block body, state => entriesAll settings body { state with scope := state.scope.push }
  | .conditional condition consequent alternative, state =>
    match condition.eval state.scope with
    | .error _ => []
    | .ok value =>
      match value.shown with
      | .error _ => []
      | .ok _ =>
        if value.isTruthy then entries settings consequent state
        else entries settings alternative state
  | _, _ => []

/-- The lines that are read while statements are executed one after the other. -/
def entriesAll (settings : Settings) : List Node → State → List (List Char)
  | [], _ => []
  | node :: later, state =>
    entries settings node state ++
      match (exec settings node state).fault with
      | some _ => []
      | none => entriesAll settings later (exec settings node state).state

end

theorem entries_of_isAbsent (settings : Settings) {node : Node} (h : node.isAbsent = true)
    (state : State) : entries settings node state = [] := by
  cases node with
  | absent => simp only [entries]
  | _ => cases h

end Node

/-! ## What is read -/

/-- A part of a run reads the lines off the input, and asks for each of them. -/
structure Outcome.Reads (input : List Char) (entries : List (List Char)) (outcome : Outcome) :
    Prop where
  lines : ReadsLines input entries outcome.state.input
  prompts : outcome.printed.countP Printed.isPrompt = entries.length

namespace Outcome

variable {state : State}

theorem reads_pass (state : State) : (pass state).Reads state.input [] :=
  ⟨.done _, rfl⟩

theorem reads_given
    {α : Type} (result : Except Fault α) {next : α → Outcome}
    (hnext : ∀ a, (next a).Reads state.input []) :
    (given state result next).Reads state.input [] := by
  cases result with
  | ok a => exact hnext a
  | error fault => exact ⟨.done _, rfl⟩

theorem Reads.andThen
    {input : List Char} {entries later : List (List Char)} {first : Outcome}
    {next : State → Outcome} (hfirst : first.Reads input entries)
    (hstop : first.fault.isSome = true → later = [])
    (hnext : first.fault = none → (next first.state).Reads first.state.input later) :
    (first.andThen next).Reads input (entries ++ later) := by
  cases hfault : first.fault with
  | some fault =>
      rw [andThen_of_fault_eq_some hfault, hstop (by rw [hfault]; rfl), List.append_nil]
      exact hfirst
  | none =>
      have hsecond := hnext hfault
      rw [andThen_of_fault_eq_none hfault]
      refine ⟨hfirst.lines.append hsecond.lines, ?_⟩
      rw [List.countP_append, List.length_append, hfirst.prompts, hsecond.prompts]

/-- What reads nothing may come first. -/
theorem Reads.after
    {input : List Char} {entries : List (List Char)} {first : Outcome} {next : State → Outcome}
    (hfirst : first.Reads input []) (hfault : first.fault = none)
    (hnext : (next first.state).Reads first.state.input entries) :
    (first.andThen next).Reads input entries :=
  hfirst.andThen (fun hstop => by simp [hfault] at hstop) fun _ => hnext

theorem Reads.close
    {input : List Char} {entries : List (List Char)} {body : Outcome} (h : body.Reads input entries)
    (settings : Settings) (depth : Nat) : (body.close settings depth).Reads input entries :=
  ⟨h.lines, h.prompts⟩

end Outcome

namespace State

variable {state : State}

theorem reads_bind
    (settings : Settings) (scope : Scope) (value : Value) (event : String → Event) :
    (state.bind settings scope value event).Reads state.input [] := by
  unfold bind
  cases value.shown with
  | ok text => exact ⟨.done _, rfl⟩
  | error fault => exact ⟨.done _, rfl⟩

theorem reads_declare (settings : Settings) (name : Json) (value : Value) :
    (state.declare settings name value).Reads state.input [] := by
  unfold declare
  split
  · exact ⟨.done _, rfl⟩
  · exact reads_bind settings _ value _

theorem reads_upsert (settings : Settings) (name : String) (value : Value) :
    (state.upsert settings name value).Reads state.input [] := by
  unfold upsert
  split
  · exact reads_bind settings _ value _
  · exact reads_declare settings _ value

theorem reads_listen (settings : Settings) (prompt : Json) (target : Mark) :
    (state.listen settings prompt target).Reads state.input [(takeLine state.input).1] := by
  unfold listen
  rw [← List.append_nil [(takeLine state.input).1]]
  refine Outcome.Reads.andThen ⟨.line (.done _), rfl⟩ (fun _ => rfl) fun _ => ?_
  refine Outcome.reads_given target.front fun sigil => ?_
  refine Outcome.reads_given (fit _ sigil target) fun value => ?_
  exact Outcome.reads_given target.name fun name => reads_upsert settings name value

end State

namespace Node

mutual

/-- A statement reads the lines that are collected along its run. -/
theorem reads_exec (settings : Settings) (node : Node) (state : State) :
    (exec settings node state).Reads state.input (entries settings node state) := by
  cases node with
  | spill value =>
      unfold exec entries
      refine Outcome.reads_given _ fun v => ?_
      exact Outcome.reads_given _ fun text => ⟨.done _, rfl⟩
  | expression value =>
      unfold exec entries
      refine Outcome.reads_given _ fun v => ?_
      split
      · exact Outcome.reads_given _ fun text => ⟨.done _, rfl⟩
      · exact Outcome.reads_pass state
  | declaration sigil name value =>
      unfold exec entries
      refine Outcome.reads_given _ fun v => ?_
      exact Outcome.reads_given _ fun v => State.reads_declare settings name.lexeme v
  | assignment target value =>
      unfold exec entries
      refine Outcome.reads_given _ fun v => ?_
      refine Outcome.reads_given _ fun v => ?_
      exact Outcome.reads_given _ fun name => State.reads_upsert settings name v
  | listen prompt target =>
      unfold exec entries
      exact State.reads_listen settings prompt target
  | block body =>
      unfold exec entries
      exact (reads_execAll settings body { state with scope := state.scope.push }).close settings _
  | conditional condition consequent alternative =>
      unfold exec entries
      cases condition.eval state.scope with
      | error fault => exact ⟨.done _, rfl⟩
      | ok value =>
          dsimp only [Outcome.given]
          cases value.shown with
          | error fault => exact ⟨.done _, rfl⟩
          | ok text =>
              refine Outcome.Reads.after ⟨.done _, rfl⟩ rfl ?_
              by_cases htrue : value.isTruthy = true
              · simp only [htrue, if_true]
                exact reads_exec settings consequent state
              · simp only [if_neg htrue]
                split
                · rename_i habsent
                  rw [entries_of_isAbsent settings habsent state]
                  exact Outcome.reads_pass state
                · exact reads_exec settings alternative state
  | _ =>
      unfold exec entries
      exact ⟨.done _, rfl⟩
termination_by structural node

theorem reads_execAll (settings : Settings) (body : List Node) (state : State) :
    (execAll settings body state).Reads state.input (entriesAll settings body state) := by
  cases body with
  | nil =>
      unfold execAll entriesAll
      exact Outcome.reads_pass state
  | cons node later =>
      unfold execAll entriesAll
      refine (reads_exec settings node state).andThen (fun h => ?_) fun h => ?_
      · obtain ⟨fault, hfault⟩ := Option.isSome_iff_exists.mp h
        rw [hfault]
      · rw [h]
        exact reads_execAll settings later (exec settings node state).state
termination_by structural body

end

end Node

/-! ## What the run depends on -/

/-- The outcome with another input left. -/
def Outcome.withInput (input : List Char) (outcome : Outcome) : Outcome :=
  { outcome with state := { outcome.state with input := input } }

theorem Outcome.given_withInput
    {α : Type} {state : State} {input : List Char} (result : Except Fault α)
    {next next' : α → Outcome} (hnext : ∀ a, next' a = (next a).withInput input) :
    given { state with input := input } result next' =
      (given state result next).withInput input := by
  cases result with
  | ok a => exact hnext a
  | error fault => rfl

theorem Outcome.andThen_withInput
    {first : Outcome} {next : State → Outcome} {middle rest : List Char}
    (hstop : first.fault.isSome = true → rest = middle)
    (hnext : first.fault = none →
      next { first.state with input := middle } = (next first.state).withInput rest) :
    (first.withInput middle).andThen next = (first.andThen next).withInput rest := by
  cases hfault : first.fault with
  | some fault =>
      rw [andThen_of_fault_eq_some hfault, andThen_of_fault_eq_some (by exact hfault),
        hstop (by rw [hfault]; rfl)]
  | none =>
      rw [andThen_of_fault_eq_none hfault, andThen_of_fault_eq_none (by exact hfault)]
      simp only [withInput, hnext hfault]

namespace State

variable (state : State) (input : List Char)

theorem bind_withInput
    (settings : Settings) (scope : Scope) (value : Value) (event : String → Event) :
    bind settings { state with input := input } scope value event =
      (state.bind settings scope value event).withInput input := by
  unfold bind
  cases value.shown with
  | ok text => rfl
  | error fault => rfl

theorem declare_withInput (settings : Settings) (name : Json) (value : Value) :
    declare settings name value { state with input := input } =
      (state.declare settings name value).withInput input := by
  unfold declare
  split
  · rfl
  · exact bind_withInput state input settings _ value _

theorem upsert_withInput (settings : Settings) (name : String) (value : Value) :
    upsert settings name value { state with input := input } =
      (state.upsert settings name value).withInput input := by
  unfold upsert
  dsimp only
  split
  · exact bind_withInput state input settings _ value _
  · exact declare_withInput state input settings _ value

end State

/-- A request for input does the same wherever it reads the same line. -/
theorem State.listen_withInput
    (settings : Settings) (state : State) (prompt : Json) (target : Mark) {input rest : List Char}
    (h : takeLine input = ((takeLine state.input).1, rest)) :
    listen settings prompt target { state with input := input } =
      (state.listen settings prompt target).withInput rest := by
  let asked : Outcome :=
    ⟨{ state with input := (takeLine state.input).2 }, [.prompt prompt.shown], [], none⟩
  unfold listen
  simp only [h]
  refine @Outcome.andThen_withInput asked _ rest rest (fun hstop => nomatch hstop) fun _ => ?_
  refine Outcome.given_withInput target.front fun sigil => ?_
  refine Outcome.given_withInput (fit _ sigil target) fun value => ?_
  exact Outcome.given_withInput target.name fun name =>
    upsert_withInput asked.state rest settings name value

namespace Node

mutual

/-- A statement does the same on another input in which the same lines can be read. -/
theorem exec_withInput
    (settings : Settings) (node : Node) (state : State) {input rest : List Char}
    (h : ReadsLines input (entries settings node state) rest) :
    exec settings node { state with input := input } =
      (exec settings node state).withInput rest := by
  cases node with
  | spill value =>
      unfold entries at h
      obtain rfl := h.eq_of_nil
      unfold exec
      refine Outcome.given_withInput _ fun v => ?_
      exact Outcome.given_withInput _ fun text => rfl
  | expression value =>
      unfold entries at h
      obtain rfl := h.eq_of_nil
      unfold exec
      refine Outcome.given_withInput _ fun v => ?_
      split
      · exact Outcome.given_withInput _ fun text => rfl
      · rfl
  | declaration sigil name value =>
      unfold entries at h
      obtain rfl := h.eq_of_nil
      unfold exec
      refine Outcome.given_withInput _ fun v => ?_
      exact Outcome.given_withInput _ fun v => State.declare_withInput state _ settings _ v
  | assignment target value =>
      unfold entries at h
      obtain rfl := h.eq_of_nil
      unfold exec
      refine Outcome.given_withInput _ fun v => ?_
      refine Outcome.given_withInput _ fun v => ?_
      exact Outcome.given_withInput _ fun name => State.upsert_withInput state _ settings name v
  | listen prompt target =>
      unfold entries at h
      unfold exec
      exact State.listen_withInput settings state prompt target h.takeLine_eq
  | block body =>
      unfold entries at h
      unfold exec
      rw [execAll_withInput settings body { state with scope := state.scope.push } h]
      rfl
  | conditional condition consequent alternative =>
      unfold entries at h
      unfold exec
      cases hvalue : condition.eval state.scope with
      | error fault =>
          rw [hvalue] at h
          obtain rfl := h.eq_of_nil
          rfl
      | ok value =>
          rw [hvalue] at h
          dsimp only [Outcome.given] at h ⊢
          cases hshown : value.shown with
          | error fault =>
              rw [hshown] at h
              obtain rfl := h.eq_of_nil
              rfl
          | ok text =>
              rw [hshown] at h
              let tested : Outcome :=
                ⟨state, [], settings.trace (.tested text value.isTruthy), none⟩
              refine @Outcome.andThen_withInput tested _ input rest (fun hstop => nomatch hstop)
                fun _ => ?_
              dsimp only at h
              split at h
              · rename_i htrue
                simp only [htrue, if_true]
                exact exec_withInput settings consequent state h
              · rename_i hfalse
                simp only [if_neg hfalse]
                split
                · rename_i habsent
                  rw [entries_of_isAbsent settings habsent state] at h
                  obtain rfl := h.eq_of_nil
                  rfl
                · exact exec_withInput settings alternative state h
  | _ =>
      unfold entries at h
      obtain rfl := h.eq_of_nil
      unfold exec
      rfl
termination_by structural node

/-- Statements do the same on another input in which the same lines can be read. -/
theorem execAll_withInput
    (settings : Settings) (body : List Node) (state : State) {input rest : List Char}
    (h : ReadsLines input (entriesAll settings body state) rest) :
    execAll settings body { state with input := input } =
      (execAll settings body state).withInput rest := by
  cases body with
  | nil =>
      unfold entriesAll at h
      obtain rfl := h.eq_of_nil
      unfold execAll
      rfl
  | cons node later =>
      unfold entriesAll at h
      obtain ⟨middle, hfirst, hlater⟩ := h.split
      unfold execAll
      rw [exec_withInput settings node state hfirst]
      refine Outcome.andThen_withInput (fun hfault => ?_) fun hfault => ?_
      · obtain ⟨fault, hfault⟩ := Option.isSome_iff_exists.mp hfault
        rw [hfault] at hlater
        exact hlater.eq_of_nil
      · rw [hfault] at hlater
        exact execAll_withInput settings later (exec settings node state).state hlater
termination_by structural body

end

end Node

end Slang
