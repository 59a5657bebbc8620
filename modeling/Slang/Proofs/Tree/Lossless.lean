import Slang.Tree.Encoding
import Slang.Tree.Loader

/-!
# Loading undoes encoding

Names of kinds and of forms determine what they name, so a mark and then, by induction on the tree,
a node is loaded from its own encoding. Nothing is asked of the data in the marks.
-/

namespace Slang

theorem Token.Kind.ofName?_name (kind : Token.Kind) :
    Token.Kind.ofName? kind.name = some kind := by
  cases kind <;> decide

theorem Node.Shape.ofName?_name (shape : Node.Shape) :
    Node.Shape.ofName? shape.name = some shape := by
  cases shape <;> decide

-- The loaders run by themselves on a given object: the keys of a form are told apart by `simp`, and
-- a part that is loaded is handed on.
attribute [local simp] List.lookup_cons Fields.required bind Except.bind pure Except.pure

theorem Mark.ofJson_toJson (m : Mark) : Mark.ofJson m.toJson = .ok m := by
  have hkind : Mark.kindOfJson (.text m.kind.name) = .ok m.kind := by
    simp [Mark.kindOfJson, Token.Kind.ofName?_name]
  simp [Mark.ofJson, Mark.toJson, hkind]

namespace Node

@[simp] theorem shapeOfJson_name (shape : Shape) :
    shapeOfJson (.text shape.name) = .ok shape := by
  simp [shapeOfJson, Shape.ofName?_name]

/-- An object that holds a mark under a key gives that mark. -/
theorem markPart_toJson {fields : Fields} {key : String} {m : Mark}
    (h : fields.lookup key = some m.toJson) : markPart fields key = .ok m := by
  simp [markPart, h, Mark.ofJson_toJson]

/-- What an object of a form is loaded to, by the form alone. -/
theorem ofJson_shaped (shape : Shape) (fields : Fields) :
    ofJson (shaped shape fields) =
      assemble (("type", .text shape.name) :: fields)
        (partOfField ("type", .text shape.name) :: partsOfFields fields) := by
  rw [shaped, ofJson, partsOfFields]

attribute [local simp] toJson ofJson_shaped assemble partsOfFields partOfField nodePart

mutual

theorem ofJson_toJson (node : Node) : ofJson node.toJson = .ok node := by
  match node with
  | .absent => rw [toJson, ofJson]
  | .number mark | .text mark | .character mark | .boolean mark | .identifier mark =>
    simp [markPart_toJson (m := mark)]
  | .ghosted => simp
  | .group inner | .spill inner | .expression inner =>
    have hinner := ofJson_toJson inner
    simp [hinner]
  | .unary operator operand =>
    have hoperand := ofJson_toJson operand
    simp [markPart_toJson (m := operator), hoperand]
  | .binary left operator right =>
    have hleft := ofJson_toJson left
    have hright := ofJson_toJson right
    simp [markPart_toJson (m := operator), hleft, hright]
  | .declaration sigil name value =>
    have hvalue := ofJson_toJson value
    simp [markPart_toJson (m := name), hvalue]
  | .assignment name value =>
    have hvalue := ofJson_toJson value
    simp [markPart_toJson (m := name), hvalue]
  | .block body =>
    have hbody := listOfItems_listToJson body
    simp [listPart, listOfJson, hbody]
  | .conditional condition consequent alternative =>
    have hcondition := ofJson_toJson condition
    have hconsequent := ofJson_toJson consequent
    have halternative := ofJson_toJson alternative
    simp [optionalPart, hcondition, hconsequent, halternative]
  | .listen prompt target => simp [markPart_toJson (m := target)]
termination_by structural node

theorem listOfItems_listToJson (nodes : List Node) :
    listOfItems (listToJson nodes) = .ok nodes := by
  match nodes with
  | [] => rw [listToJson, listOfItems]
  | node :: later =>
    have hnode := ofJson_toJson node
    have hlater := listOfItems_listToJson later
    simp [listToJson, listOfItems, hnode, hlater]
termination_by structural nodes

end

theorem programOfJson_programToJson (program : List Node) :
    programOfJson (programToJson program) = .ok program := by
  have hbody : listOfJson (.array (listToJson program)) = .ok program := by
    rw [listOfJson, listOfItems_listToJson]
  simp [programOfJson, programToJson, Json.get?, hbody]

/-- Every list of trees is loaded back from its encoding, so no two of them are encoded alike. -/
theorem program_encoding_lossless (program : List Node) :
    programOfJson (programToJson program) = .ok program ∧
      ∀ other, programToJson other = programToJson program ↔ other = program := by
  refine ⟨programOfJson_programToJson program, fun other => ⟨fun h => ?_, congrArg programToJson⟩⟩
  have hloaded := programOfJson_programToJson other
  rw [h, programOfJson_programToJson program] at hloaded
  exact (Except.ok.inj hloaded).symm

end Node

end Slang
