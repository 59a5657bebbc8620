import Slang.Tree.Node

/-!
# Loading trees from JSON

Objects are read field by field in a fixed order, and the first fault is reported. Fields that a
form does not have are ignored; the literal of a mark and the alternative of a conditional may be
left out. Neither nodes nor the data of marks are checked against the place where they stand.
-/

namespace Slang

/-- Why a JSON value is no program tree. -/
inductive LoadError where
  | notProgram
  | notNode
  | unknownShape (found : Json)
  | missingField (key : String)
  | unknownKind (found : Json)
  /-- A list or an object stands where a name is looked up. -/
  | notName (found : Json)
  /-- Something other than an object stands where a mark is looked up. -/
  | notMark (found : Json)
  /-- Something without items stands where statements are listed. -/
  | notList (found : Json)

/-- The wording of a loading error. -/
def LoadError.message : LoadError → String
  | .notProgram => "Invalid program object"
  | .notNode => "Invalid AST object"
  | .unknownShape found => "Unknown AST node type: " ++ found.shown
  | .missingField key => Text.quoted key
  | .unknownKind found => found.quoted
  | .notName found => "unhashable type: '" ++ found.typeName ++ "'"
  | .notMark (.text _) => "string indices must be integers, not 'str'"
  | .notMark (.array _) => "list indices must be integers or slices, not str"
  | .notMark found => "'" ++ found.typeName ++ "' object is not subscriptable"
  | .notList found => "'" ++ found.typeName ++ "' object is not iterable"

/-- The fields of an object. -/
abbrev Fields := List (String × Json)

namespace Fields

/-- A field that must be there. -/
def required (fields : Fields) (key : String) : Except LoadError Json :=
  match fields.lookup key with
  | some value => .ok value
  | none => .error (.missingField key)

end Fields

namespace Mark

/-- The kind that a JSON value names. -/
def kindOfJson (found : Json) : Except LoadError Token.Kind :=
  match found with
  | .text name =>
    match Token.Kind.ofName? name with
    | some kind => .ok kind
    | none => .error (.unknownKind found)
  | _ => .error (if found.isCompound then .notName found else .unknownKind found)

/-- The mark that a JSON value describes. -/
def ofJson : Json → Except LoadError Mark
  | .object fields => do
    let kind ← kindOfJson (← Fields.required fields "type")
    let lexeme ← Fields.required fields "lexeme"
    let line ← Fields.required fields "line"
    return ⟨kind, lexeme, (fields.lookup "literal").getD .null, line⟩
  | found => .error (.notMark found)

end Mark

namespace Node

/-- The form that an object names; an object that names none is of an unknown form. -/
def shapeOfJson (found : Json) : Except LoadError Shape :=
  match found with
  | .text name =>
    match Shape.ofName? name with
    | some shape => .ok shape
    | none => .error (.unknownShape found)
  | _ => .error (if found.isCompound then .notName found else .unknownShape found)

/-- What a field of an object gives when it is read as a node, and as a list of nodes. -/
structure Part where
  node : Except LoadError Node
  list : Except LoadError (List Node)

/-- A mark that must be there. -/
def markPart (fields : Fields) (key : String) : Except LoadError Mark := do
  Mark.ofJson (← fields.required key)

/-- A node that must be there. -/
def nodePart (parts : List (String × Part)) (key : String) : Except LoadError Node :=
  match parts.lookup key with
  | some part => part.node
  | none => .error (.missingField key)

/-- A list of nodes that must be there. -/
def listPart (parts : List (String × Part)) (key : String) : Except LoadError (List Node) :=
  match parts.lookup key with
  | some part => part.list
  | none => .error (.missingField key)

/-- A node that may be left out. -/
def optionalPart (parts : List (String × Part)) (key : String) : Except LoadError Node :=
  match parts.lookup key with
  | some part => part.node
  | none => .ok .absent

/-- Puts a node together from the fields of its object and from what they give. -/
def assemble (fields : Fields) (parts : List (String × Part)) : Except LoadError Node := do
  match ← shapeOfJson ((fields.lookup "type").getD .null) with
  | .number => return .number (← markPart fields "token")
  | .text => return .text (← markPart fields "token")
  | .character => return .character (← markPart fields "token")
  | .boolean => return .boolean (← markPart fields "token")
  | .identifier => return .identifier (← markPart fields "token")
  | .ghosted => return .ghosted
  | .group => return .group (← nodePart parts "expression")
  | .unary => return .unary (← markPart fields "operator") (← nodePart parts "operand")
  | .binary =>
    return .binary (← nodePart parts "left") (← markPart fields "operator")
      (← nodePart parts "right")
  | .spill => return .spill (← nodePart parts "expression")
  | .expression => return .expression (← nodePart parts "expression")
  | .declaration =>
    return .declaration (← fields.required "sigil") (← markPart fields "name")
      (← nodePart parts "initializer")
  | .assignment => return .assignment (← markPart fields "name") (← nodePart parts "value")
  | .block => return .block (← listPart parts "statements")
  | .conditional =>
    return .conditional (← nodePart parts "condition") (← nodePart parts "then_branch")
      (← optionalPart parts "else_branch")
  | .listen => return .listen (← fields.required "prompt") (← markPart fields "target")

mutual

/-- The node that a JSON value describes. -/
def ofJson : Json → Except LoadError Node
  | .null => .ok .absent
  | .object fields => assemble fields (partsOfFields fields)
  | _ => .error .notNode

/-- The nodes that a JSON value lists. The items of a text or of an object are texts, and no text is
a node. -/
def listOfJson : Json → Except LoadError (List Node)
  | .array items => listOfItems items
  | .text value => if value.isEmpty then .ok [] else .error .notNode
  | .object fields => if fields.isEmpty then .ok [] else .error .notNode
  | found => .error (.notList found)

/-- The nodes that JSON values describe. -/
def listOfItems : List Json → Except LoadError (List Node)
  | [] => .ok []
  | item :: later => do
    let node ← ofJson item
    let nodes ← listOfItems later
    return node :: nodes

/-- What the fields of an object give. -/
def partsOfFields : List (String × Json) → List (String × Part)
  | [] => []
  | field :: later => partOfField field :: partsOfFields later

/-- What one field of an object gives. -/
def partOfField : String × Json → String × Part
  | (key, value) => (key, ⟨ofJson value, listOfJson value⟩)

end

/-- The program that a JSON value describes. -/
def programOfJson (j : Json) : Except LoadError (List Node) :=
  match j.get? "type" with
  | some (.text "Program") =>
    match j.get? "body" with
    | some body => listOfJson body
    | none => .error (.missingField "body")
  | _ => .error .notProgram

end Node

end Slang
