import Slang.Proofs.Grammar.Tokens
import Slang.Proofs.Json.RoundTrip
import Slang.Tree.Encoding

/-!
# Encodings that can be read

The fields of an encoded node have different names, so an encoding can be read back from its text
as soon as the line numbers in it can be written.  They are the lines of the tokens that spell the
tree.  Nothing is kept of the closing words, so their lines do not matter.
-/

namespace Slang

theorem Literal.isLegible_toJson (literal : Literal) : literal.toJson.IsLegible := by
  cases literal <;> simp [Literal.toJson, Json.IsLegible]

theorem Mark.isLegible_toJson {m : Mark} (hlexeme : m.lexeme.IsLegible)
    (hliteral : m.literal.IsLegible) (hline : m.line.IsLegible) : m.toJson.IsLegible := by
  rw [Mark.toJson, Json.IsLegible]
  constructor
  · simp
  · simp [Json.IsLegibleFields, Json.IsLegibleField, Json.IsLegible, hlexeme, hliteral, hline]

theorem Token.isLegible_mark {t : Token} (h : isWritable t.line = true) :
    t.mark.toJson.IsLegible := by
  apply Mark.isLegible_toJson
  · simp [Json.IsLegible]
  · exact t.literal.isLegible_toJson
  · rwa [mark_line, Json.IsLegible]

theorem Node.isLegible_shaped (shape : Node.Shape) {fields : List (String × Json)}
    (hkeys : ("type" :: fields.map Prod.fst).Nodup) (hfields : Json.IsLegibleFields fields) :
    (Node.shaped shape fields).IsLegible := by
  have htype : Json.IsLegibleField ("type", .text shape.name) := by
    simp [Json.IsLegibleField, Json.IsLegible]
  rw [shaped, Json.IsLegible]
  exact ⟨hkeys, htype, hfields⟩

namespace Grammar

theorem isLegible_nameOf {target : Token} (h : isWritable target.line = true) :
    (nameOf target).toJson.IsLegible := by
  apply Mark.isLegible_toJson
  · simp [nameOf, Json.IsLegible]
  · simp [nameOf, Json.IsLegible]
  · rwa [nameOf, Json.IsLegible]

/-- Every token stands on a line whose number can be written, but for closing words. -/
def OnWritableLines (tokens : List Token) : Prop :=
  ∀ t ∈ tokens, ¬Closes t.kind → isWritable t.line = true

@[simp] theorem onWritableLines_cons (t : Token) (later : List Token) :
    OnWritableLines (t :: later) ↔
      (¬Closes t.kind → isWritable t.line = true) ∧ OnWritableLines later :=
  List.forall_mem_cons

@[simp] theorem onWritableLines_append (before after : List Token) :
    OnWritableLines (before ++ after) ↔ OnWritableLines before ∧ OnWritableLines after :=
  List.forall_mem_append

theorem isLegible_mark_of_inExpression {t : Token} (hkind : inExpression t.kind = true)
    (h : ¬Closes t.kind → isWritable t.line = true) : t.mark.toJson.IsLegible :=
  t.isLegible_mark (h (not_closes_of_inExpression hkind))

theorem SpellsExpression.isLegible_toJson {e : Node} {tokens : List Token}
    (h : SpellsExpression e tokens) (hlines : OnWritableLines tokens) : e.toJson.IsLegible := by
  induction h with
  | number h | text h | character h =>
    have hmark := isLegible_mark_of_inExpression (by rw [h]; rfl) (hlines _ List.mem_cons_self)
    rw [Node.toJson]
    exact Node.isLegible_shaped _ (by simp) ⟨hmark, trivial⟩
  | boolean h | identifier h =>
    have hmark := isLegible_mark_of_inExpression (by rcases h with h | h <;> rw [h] <;> rfl)
      (hlines _ List.mem_cons_self)
    rw [Node.toJson]
    exact Node.isLegible_shaped _ (by simp) ⟨hmark, trivial⟩
  | ghosted h =>
    rw [Node.toJson]
    exact Node.isLegible_shaped _ (by simp) trivial
  | group _ _ _ ih =>
    rw [onWritableLines_cons, onWritableLines_append] at hlines
    rw [Node.toJson]
    exact Node.isLegible_shaped _ (by simp) ⟨ih hlines.2.1, trivial⟩
  | unary hoperator _ ih =>
    rw [onWritableLines_cons] at hlines
    have hmark := isLegible_mark_of_inExpression
      (by rcases hoperator with h | h <;> rw [h] <;> rfl) hlines.1
    rw [Node.toJson]
    exact Node.isLegible_shaped _ (by simp) ⟨hmark, ih hlines.2, trivial⟩
  | binary hoperator _ _ ihLeft ihRight =>
    rw [onWritableLines_append, onWritableLines_cons] at hlines
    obtain ⟨hbefore, hmark, hafter⟩ := hlines
    have hmark := isLegible_mark_of_inExpression (inExpression_of_isBinary hoperator) hmark
    rw [Node.toJson]
    exact Node.isLegible_shaped _ (by simp) ⟨ihLeft hbefore, hmark, ihRight hafter, trivial⟩

theorem isLegible_declaration {target : Token} (sigil : String) {value : Node}
    (htarget : target.kind = .sigilIdentifier)
    (hline : ¬Closes target.kind → isWritable target.line = true)
    (hvalue : value.toJson.IsLegible) :
    (Node.declaration (.text sigil) (nameOf target) value).toJson.IsLegible := by
  have hname := isLegible_nameOf (hline (not_closes_of_inExpression (by rw [htarget]; rfl)))
  have hsigil : (Json.text sigil).IsLegible := by simp [Json.IsLegible]
  rw [Node.toJson]
  exact Node.isLegible_shaped _ (by simp) ⟨hsigil, hname, hvalue, trivial⟩

mutual

theorem Spells.isLegible_toJson {node : Node} {tokens : List Token} (h : Spells node tokens)
    (hlines : OnWritableLines tokens) : node.toJson.IsLegible := by
  cases h with
  | spill _ hvalue =>
    rw [onWritableLines_cons] at hlines
    rw [Node.toJson]
    exact Node.isLegible_shaped _ (by simp) ⟨hvalue.isLegible_toJson hlines.2, trivial⟩
  | expression hvalue =>
    rw [Node.toJson]
    exact Node.isLegible_shaped _ (by simp) ⟨hvalue.isLegible_toJson hlines, trivial⟩
  | declaration htarget _ _ hvalue =>
    rw [onWritableLines_cons, onWritableLines_cons] at hlines
    obtain ⟨hline, -, hlines⟩ := hlines
    exact isLegible_declaration _ htarget hline (hvalue.isLegible_toJson hlines)
  | teaDeclaration _ htarget _ _ hvalue =>
    rw [onWritableLines_cons, onWritableLines_cons, onWritableLines_cons] at hlines
    obtain ⟨-, hline, -, hlines⟩ := hlines
    exact isLegible_declaration _ htarget hline (hvalue.isLegible_toJson hlines)
  | assignment htarget _ hvalue =>
    rw [onWritableLines_cons, onWritableLines_cons] at hlines
    obtain ⟨hline, -, hlines⟩ := hlines
    have hmark := isLegible_mark_of_inExpression (by rw [htarget]; rfl) hline
    rw [Node.toJson]
    exact Node.isLegible_shaped _ (by simp) ⟨hmark, hvalue.isLegible_toJson hlines, trivial⟩
  | @listen _ prompt _ _ _ _ _ htarget =>
    simp only [onWritableLines_cons] at hlines
    obtain ⟨-, -, -, hline, -⟩ := hlines
    have hmark := isLegible_mark_of_inExpression (by rw [htarget]; rfl) hline
    rw [Node.toJson]
    exact Node.isLegible_shaped _ (by simp) ⟨prompt.literal.isLegible_toJson, hmark, trivial⟩
  | block _ _ hbody =>
    rw [onWritableLines_cons, onWritableLines_append] at hlines
    have hitems := hbody.isLegibleItems_listToJson hlines.2.1
    rw [Node.toJson]
    apply Node.isLegible_shaped _ (by simp)
    simpa [Json.IsLegibleFields, Json.IsLegibleField, Json.IsLegible] using hitems
  | conditional _ hcondition hconsequent =>
    rw [onWritableLines_cons, onWritableLines_append] at hlines
    obtain ⟨-, htest, hfirst⟩ := hlines
    have habsent : Node.absent.toJson.IsLegible := by simp [Node.toJson, Json.IsLegible]
    rw [Node.toJson]
    exact Node.isLegible_shaped _ (by simp) ⟨hcondition.isLegible_toJson htest,
      hconsequent.isLegible_toJson hfirst, habsent, trivial⟩
  | alternative _ hcondition hconsequent _ hotherwise =>
    rw [onWritableLines_cons, onWritableLines_append, onWritableLines_append,
      onWritableLines_cons] at hlines
    obtain ⟨-, htest, hfirst, -, hsecond⟩ := hlines
    rw [Node.toJson]
    exact Node.isLegible_shaped _ (by simp) ⟨hcondition.isLegible_toJson htest,
      hconsequent.isLegible_toJson hfirst, hotherwise.isLegible_toJson hsecond, trivial⟩

theorem SpellsAll.isLegibleItems_listToJson {body : List Node} {tokens : List Token}
    (h : SpellsAll body tokens) (hlines : OnWritableLines tokens) :
    Json.IsLegibleItems (Node.listToJson body) := by
  cases h with
  | nil =>
    rw [Node.listToJson]
    trivial
  | cons hnode hlater =>
    rw [onWritableLines_append] at hlines
    rw [Node.listToJson]
    exact ⟨hnode.isLegible_toJson hlines.1, hlater.isLegibleItems_listToJson hlines.2⟩

end

/-- A program that is spelled by tokens on writable lines has an encoding that can be read. -/
theorem SpellsProgram.isLegible_programToJson {program : List Node} {tokens : List Token}
    (h : SpellsProgram program tokens) (hlines : ∀ t ∈ tokens, isWritable t.line = true) :
    (Node.programToJson program).IsLegible := by
  obtain ⟨missing, hmissing, hspelled⟩ := h
  have hitems : Json.IsLegibleItems (Node.listToJson program) := by
    apply hspelled.isLegibleItems_listToJson
    rw [onWritableLines_append]
    constructor
    · intro t ht _
      exact hlines t ht
    · intro t ht hopen
      exact absurd (hmissing t ht) hopen
  rw [Node.programToJson, Json.IsLegible]
  constructor
  · simp
  · simpa [Json.IsLegibleFields, Json.IsLegibleField, Json.IsLegible] using hitems

end Grammar

end Slang
