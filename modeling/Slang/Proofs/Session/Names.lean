import Slang.Proofs.Grammar.Sound
import Slang.Proofs.Session.Discipline
import Slang.Proofs.Token.Name

/-!
# Names that sessions bind

In a session of source texts, nothing is bound but words.  The tokens of a source text are well
named, a statement that they spell gives values to words only, and so every frame of every state
that is reached binds words only.
-/

namespace Slang

open Grammar Text

/-! ## Names that statements use -/

/-- The data are the text of a word. -/
def Json.IsWord (data : Json) : Prop :=
  ∃ name, data = .text name ∧ Text.IsWord name

theorem Mark.isWord_of_mem_variables {mark : Mark} {name : String} (hname : mark.name = .ok name)
    (hword : Text.IsWord name) : ∀ data ∈ mark.variables, data.IsWord := by
  rw [Mark.variables, hname]
  exact List.forall_mem_singleton.mpr ⟨name, rfl, hword⟩

theorem isWord_nameOf {target : Token} (hnamed : target.IsWellNamed)
    (htarget : target.kind = .sigilIdentifier) : (nameOf target).lexeme.IsWord :=
  ⟨_, rfl, (hnamed.name_of_sigil htarget).1⟩

namespace Grammar

open Node

mutual

/-- A spelled statement gives values to words only. -/
theorem Spells.isWord_of_mem_uses
    {node : Node} {tokens : List Token} (h : Spells node tokens)
    (hnamed : ∀ t ∈ tokens, t.IsWellNamed) : ∀ use ∈ node.uses, use.1.IsWord := by
  cases h with
  | declaration htarget _ hword hvalue =>
      unfold uses
      exact List.forall_mem_singleton.mpr (isWord_nameOf (hnamed _ (by simp)) htarget)
  | teaDeclaration htea htarget _ hword hvalue =>
      unfold uses
      exact List.forall_mem_singleton.mpr (isWord_nameOf (hnamed _ (by simp)) htarget)
  | @assignment target word value tokens htarget hword hvalue =>
      have htargetWord := (hnamed target (by simp)).identifier htarget
      have hname : target.mark.name = .ok target.lexeme := Mark.name_of_isWord rfl htargetWord
      unfold uses
      exact List.forall_mem_map.mpr (Mark.isWord_of_mem_variables hname htargetWord)
  | @listen listen prompt word target hlisten hprompt hword htarget =>
      obtain ⟨htargetWord, hname⟩ := (hnamed target (by simp)).name_of_sigil htarget
      unfold uses
      exact List.forall_mem_map.mpr (Mark.isWord_of_mem_variables hname htargetWord)
  | @block opening closing body tokens hopening hclosing hbody =>
      unfold uses
      exact hbody.isWord_of_mem_usesAll fun t ht => hnamed t (by simp [ht])
  | @conditional bet condition consequent test first hbet hcondition hconsequent =>
      have hwords := hconsequent.isWord_of_mem_uses fun t ht => hnamed t (by simp [ht])
      unfold uses
      exact List.forall_mem_append.mpr ⟨hwords, fun use huse => absurd huse List.not_mem_nil⟩
  | @alternative bet deadass condition consequent otherwise test first second hbet hcondition
      hconsequent hdeadass hotherwise =>
      unfold uses
      refine List.forall_mem_append.mpr ⟨?_, ?_⟩
      · exact hconsequent.isWord_of_mem_uses fun t ht => hnamed t (by simp [ht])
      · exact hotherwise.isWord_of_mem_uses fun t ht => hnamed t (by simp [ht])
  | _ => exact fun use huse => absurd huse List.not_mem_nil

/-- Spelled statements give values to words only. -/
theorem SpellsAll.isWord_of_mem_usesAll
    {body : List Node} {tokens : List Token} (h : SpellsAll body tokens)
    (hnamed : ∀ t ∈ tokens, t.IsWellNamed) : ∀ use ∈ usesAll body, use.1.IsWord := by
  cases h with
  | nil => exact fun use huse => absurd huse List.not_mem_nil
  | @cons node later first rest hnode hlater =>
      unfold usesAll
      refine List.forall_mem_append.mpr ⟨?_, ?_⟩
      · exact hnode.isWord_of_mem_uses fun t ht => hnamed t (by simp [ht])
      · exact hlater.isWord_of_mem_usesAll fun t ht => hnamed t (by simp [ht])

end

end Grammar

/-! ## Source texts -/

/-- A source text gives values to words only. -/
theorem ProgramUnit.givesOnly_isWord (source : String) :
    ∀ node ∈ (ProgramUnit.source source).statements,
      node.GivesOnly fun name _ => name.IsWord := by
  cases hprogram : Parser.program (Scan.ofSource source).tokens with
  | error e =>
      have hstatements : (ProgramUnit.source source).statements = [] := by
        rw [ProgramUnit.statements, hprogram]
        rfl
      simp [hstatements]
  | ok program =>
      obtain ⟨tokens, hspelled, hmem⟩ := exists_spelling hprogram
      have hnamed : ∀ t ∈ tokens, t.IsWellNamed := fun t ht =>
        (hmem t ht).elim Token.isWellNamed_of_mem_ofSource Token.isWellNamed_of_closes
      rw [ProgramUnit.statements_of_program hprogram]
      intro node hnode name value hgives
      obtain ⟨used, huse, -⟩ := hgives.exists_use
      have huses : (name, used) ∈ Node.usesAll program := by
        rw [Node.usesAll_eq_flatMap]
        exact List.mem_flatMap.mpr ⟨node, hnode, huse⟩
      obtain ⟨word, hname, hword⟩ := hspelled.isWord_of_mem_usesAll hnamed _ huses
      cases hname
      rw [Json.normal]
      exact ⟨word, rfl, hword⟩

/-- What is bound is the name without the sigil, and there is one name for a variable however it is
written.  In every state that a session of source texts reaches, every name of every frame is a
letter and after it letters, digits and low lines.  It is not empty, and it holds no sigil and no
blank character.  For every variable that a source text writes with a sigil, the name that its
declaration binds is the name that is looked up, assigned or listened for, and it is what the name
denotes when it is written without the sigil. -/
theorem Session.bound_names_are_words
    (settings : Settings) (input : String) (sources : List String) :
    (∀ state, Session.Reaches settings (sources.map .source) (.start input) state →
      ∀ frame ∈ state.scope.frames, ∀ binding ∈ frame,
        ∃ name, binding.1 = .text name ∧
          (∃ c rest, name.toList = c :: rest ∧ isLetter c = true ∧
            ∀ d ∈ rest, isWordChar d = true) ∧
          name ≠ "" ∧ ∀ c ∈ name.toList, c ∉ ['@', '$', '%'] ∧ isBlank c = false) ∧
    ∀ source : String, ∀ t ∈ (Scan.ofSource source).tokens, t.kind = .sigilIdentifier →
      let name := String.ofList (t.lexeme.toList.drop 1)
      (Parser.declaredName t).mark.lexeme = .text name ∧ t.mark.name = .ok name ∧
        ∀ mark : Mark, mark.lexeme = .text name → mark.name = .ok name := by
  constructor
  · intro state hreached frame hframe binding hbinding
    have hgives : ∀ unit ∈ sources.map ProgramUnit.source, ∀ node ∈ unit.statements,
        node.GivesOnly fun name _ => name.IsWord :=
      List.forall_mem_map.mpr fun source _ => ProgramUnit.givesOnly_isWord source
    obtain ⟨name, hname, hword⟩ :=
      hreached.all hgives (Scope.all_empty _) frame hframe binding hbinding
    refine ⟨name, Json.eq_text_of_normal hname, hword, hword.ne_empty, fun c hc => ?_⟩
    have hchar := hword.forall_isWordChar c hc
    refine ⟨?_, isBlank_of_isWordChar hchar⟩
    simpa [Segment.isSigil, and_assoc] using isSigil_of_isWordChar hchar
  · intro source t ht hkind name
    obtain ⟨hword, hname⟩ := (Token.isWellNamed_of_mem_ofSource ht).name_of_sigil hkind
    exact ⟨rfl, hname, fun mark hmark => Mark.name_of_isWord hmark hword⟩

namespace Sample

/-- A text that listens for a variable and binds another one in a block. -/
def naming : String := "listen \"Who? \" as @user1 : is_new as fr"

/-- The variable that is listened for. -/
def user : Token := ⟨.sigilIdentifier, "@user1", .absent, 1⟩

/-- The variable of the block. -/
def newcomer : Node :=
  .assignment ⟨.identifier, .text "is_new", .null, .integer 1⟩
    (.boolean ⟨.fr, .text "fr", .null, .integer 1⟩)

/-- The state inside the block after both have been bound. -/
def named : State :=
  ⟨.inner [(.text "is_new", .boolean true)] (.outermost [(.text "user1", .text "Jess")]), []⟩

theorem tokens_naming : (Scan.ofSource naming).tokens =
    [⟨.listen, "listen", .absent, 1⟩, ⟨.text, "\"Who? \"", .text "Who? ", 1⟩,
      ⟨.asWord, "as", .absent, 1⟩, user, ⟨.colon, ":", .absent, 1⟩,
      ⟨.identifier, "is_new", .absent, 1⟩, ⟨.asWord, "as", .absent, 1⟩,
      ⟨.fr, "fr", .absent, 1⟩, ⟨.endOfFile, "", .absent, 1⟩] := by decide +kernel

theorem reaches_named (settings : Settings) :
    Session.Reaches settings ([naming].map .source) (.start "Jess") named := by
  have hprogram : Parser.program (Scan.ofSource naming).tokens =
      .ok [.listen (.text "Who? ") user.mark, .block [newcomer]] := by
    rw [tokens_naming]
    cbv
  refine .during ?_
  rw [ProgramUnit.statements_of_program hprogram]
  exact .later rfl (.inside (.left newcomer [] _))

end Sample

theorem Session.bound_names_are_words_sample :
    Session.Reaches ⟨false, 0⟩ ([Sample.naming].map .source) (.start "Jess") Sample.named ∧
    (∀ frame ∈ Sample.named.scope.frames, ∀ binding ∈ frame,
      ∃ name, binding.1 = .text name ∧
        (∃ c rest, name.toList = c :: rest ∧ isLetter c = true ∧
          ∀ d ∈ rest, isWordChar d = true) ∧
        name ≠ "" ∧ ∀ c ∈ name.toList, c ∉ ['@', '$', '%'] ∧ isBlank c = false) ∧
    Sample.user ∈ (Scan.ofSource Sample.naming).tokens ∧ Sample.user.kind = .sigilIdentifier ∧
    let name := String.ofList (Sample.user.lexeme.toList.drop 1)
    (Parser.declaredName Sample.user).mark.lexeme = .text name ∧
      Sample.user.mark.name = .ok name ∧
      ∀ mark : Mark, mark.lexeme = .text name → mark.name = .ok name := by
  have hreached := Sample.reaches_named ⟨false, 0⟩
  have hmem : Sample.user ∈ (Scan.ofSource Sample.naming).tokens := by
    rw [Sample.tokens_naming]
    decide
  obtain ⟨hbound, hagree⟩ := bound_names_are_words ⟨false, 0⟩ "Jess" [Sample.naming]
  exact ⟨hreached, hbound Sample.named hreached, hmem, rfl,
    hagree Sample.naming Sample.user hmem rfl⟩

end Slang
