import Slang.Tree.Loader

/-!
# What loading reads

An object is read for certain fields: a program for its statements, a mark for its four data, a node
for the fields of the form that it names.  Two JSON values are alike if they differ only in fields
that are not read, at any depth, and in whether a field that may be left out is there as `null`.
Values that are alike are loaded with the same result, be it a tree or the first fault.
-/

namespace Slang

/-! ## Fields that are read -/

/-- The objects that are read field by field. -/
inductive Form where
  | program | node | mark

/-- What is looked for in a place. -/
inductive Role where
  | object (form : Form)
  /-- A list of nodes. -/
  | nodes
  /-- Any data, which are kept as they stand. -/
  | data

/-- A field that is read. -/
structure Slot where
  key : String
  role : Role
  /-- The field may be left out. -/
  optional : Bool

namespace Slot

/-- A field that must be there. -/
def needed (key : String) (role : Role) : Slot :=
  ⟨key, role, false⟩

/-- The field that names the form of an object. -/
def type : Slot :=
  needed "type" .data

@[simp] theorem role_needed (key : String) (role : Role) : (needed key role).role = role :=
  rfl

/-- What is read: a field that may be left out counts as `null` if it is. -/
def entry (slot : Slot) (fields : Fields) : Option Json :=
  match fields.lookup slot.key with
  | some value => some value
  | none => if slot.optional then some .null else none

@[simp] theorem entry_needed (key : String) (role : Role) (fields : Fields) :
    (needed key role).entry fields = fields.lookup key := by
  rw [entry, needed]
  cases fields.lookup key with
  | none => rfl
  | some value => rfl

@[simp] theorem entry_optional (key : String) (role : Role) (fields : Fields) :
    (Slot.mk key role true).entry fields = some ((fields.lookup key).getD .null) := by
  rw [entry]
  cases fields.lookup key with
  | none => rfl
  | some value => rfl

end Slot

/-- The fields of a node of a form, after the one that names the form. -/
def Node.Shape.slots : Node.Shape → List Slot
  | .number | .text | .character | .boolean | .identifier => [.needed "token" (.object .mark)]
  | .ghosted => []
  | .group | .spill | .expression => [.needed "expression" (.object .node)]
  | .unary => [.needed "operator" (.object .mark), .needed "operand" (.object .node)]
  | .binary =>
    [.needed "left" (.object .node), .needed "operator" (.object .mark),
      .needed "right" (.object .node)]
  | .declaration =>
    [.needed "sigil" .data, .needed "name" (.object .mark), .needed "initializer" (.object .node)]
  | .assignment => [.needed "name" (.object .mark), .needed "value" (.object .node)]
  | .block => [.needed "statements" .nodes]
  | .conditional =>
    [.needed "condition" (.object .node), .needed "then_branch" (.object .node),
      ⟨"else_branch", .object .node, true⟩]
  | .listen => [.needed "prompt" .data, .needed "target" (.object .mark)]

/-- The fields that an object is read for. -/
def Form.slots (fields : Fields) : Form → List Slot
  | .program =>
    .type :: if fields.lookup "type" = some (.text "Program") then [.needed "body" .nodes] else []
  | .node =>
    .type ::
      match fields.lookup "type" with
      | some (.text name) => ((Node.Shape.ofName? name).map Node.Shape.slots).getD []
      | _ => []
  | .mark =>
    [.type, .needed "lexeme" .data, ⟨"literal", .data, true⟩, .needed "line" .data]

/-! ## Values that differ in what is not read -/

/-- In a place of the given role, the two values differ only in fields that are not read and in
whether fields that may be left out are there as `null`. -/
inductive Alike : Role → Json → Json → Prop
  | same (role : Role) (j : Json) : Alike role j j
  | object {form : Form} {fields fields' : Fields}
      (hthere : ∀ slot ∈ form.slots fields,
        (slot.entry fields').isSome = (slot.entry fields).isSome)
      (h : ∀ slot ∈ form.slots fields, ∀ value value',
        slot.entry fields = some value → slot.entry fields' = some value' →
          Alike slot.role value value') :
      Alike (.object form) (.object fields) (.object fields')
  | cons {item item' : Json} {items items' : List Json} (h : Alike (.object .node) item item')
      (hlater : Alike .nodes (.array items) (.array items')) :
      Alike .nodes (.array (item :: items)) (.array (item' :: items'))

/-- In a place of the given role, the two values are loaded with the same result. -/
def Role.LoadsAlike : Role → Json → Json → Prop
  | .object .program, j, j' => Node.programOfJson j' = Node.programOfJson j
  | .object .node, j, j' => Node.ofJson j' = Node.ofJson j
  | .object .mark, j, j' => Mark.ofJson j' = Mark.ofJson j
  | .nodes, j, j' => Node.listOfJson j' = Node.listOfJson j
  | .data, j, j' => j' = j

theorem Role.LoadsAlike.refl (role : Role) (j : Json) : role.LoadsAlike j j := by
  cases role with
  | object form => cases form <;> rfl
  | nodes => rfl
  | data => rfl

/-! ## Reading one field -/

theorem lookup_partsOfFields (fields : Fields) (key : String) :
    (Node.partsOfFields fields).lookup key =
      (fields.lookup key).map fun value => ⟨Node.ofJson value, Node.listOfJson value⟩ := by
  induction fields with
  | nil => rw [Node.partsOfFields]; rfl
  | cons field later ih =>
      obtain ⟨name, value⟩ := field
      rw [Node.partsOfFields, Node.partOfField, List.lookup_cons, List.lookup_cons, ih]
      cases key == name with
      | true => rfl
      | false => rfl

namespace Node

theorem markPart_eq (fields : Fields) (key : String) :
    markPart fields key =
      ((fields.lookup key).map Mark.ofJson).getD (.error (.missingField key)) := by
  unfold markPart Fields.required
  cases fields.lookup key with
  | none => rfl
  | some value => rfl

theorem nodePart_eq (fields : Fields) (key : String) :
    nodePart (partsOfFields fields) key =
      ((fields.lookup key).map ofJson).getD (.error (.missingField key)) := by
  rw [nodePart, lookup_partsOfFields]
  cases fields.lookup key with
  | none => rfl
  | some value => rfl

theorem listPart_eq (fields : Fields) (key : String) :
    listPart (partsOfFields fields) key =
      ((fields.lookup key).map listOfJson).getD (.error (.missingField key)) := by
  rw [listPart, lookup_partsOfFields]
  cases fields.lookup key with
  | none => rfl
  | some value => rfl

/-- A node that is left out is read as if `null` stood in its place. -/
theorem optionalPart_eq (fields : Fields) (key : String) :
    optionalPart (partsOfFields fields) key = ofJson ((fields.lookup key).getD .null) := by
  rw [optionalPart, lookup_partsOfFields]
  cases fields.lookup key with
  | none => rw [Option.getD_none, ofJson]; rfl
  | some value => rfl

/-- A program is read for its statements as a block is. -/
theorem programOfJson_object (fields : Fields) :
    programOfJson (.object fields) =
      if fields.lookup "type" = some (.text "Program") then listPart (partsOfFields fields) "body"
      else .error .notProgram := by
  rw [listPart_eq]
  unfold programOfJson Json.get?
  dsimp only
  split
  · rename_i htype
    rw [if_pos htype]
    cases fields.lookup "body" with
    | none => rfl
    | some body => rfl
  · rename_i htype
    rw [if_neg htype]

/-- An object names a form by the name of the form. -/
theorem lookup_type_of_shapeOfJson {fields : Fields} {shape : Shape}
    (h : shapeOfJson ((fields.lookup "type").getD .null) = .ok shape) :
    ∃ name, fields.lookup "type" = some (.text name) ∧ Shape.ofName? name = some shape := by
  cases htype : fields.lookup "type" with
  | none =>
      rw [htype] at h
      cases h
  | some found =>
      rw [htype, Option.getD_some] at h
      unfold shapeOfJson at h
      split at h
      · rename_i name
        cases hname : Shape.ofName? name with
        | none =>
            rw [hname] at h
            cases h
        | some named =>
            rw [hname] at h
            cases h
            exact ⟨name, rfl, hname⟩
      · cases h

theorem slots_of_shapeOfJson {fields : Fields} {shape : Shape}
    (h : shapeOfJson ((fields.lookup "type").getD .null) = .ok shape) :
    Form.node.slots fields = .type :: shape.slots := by
  obtain ⟨name, htype, hname⟩ := lookup_type_of_shapeOfJson h
  rw [Form.slots, htype]
  dsimp only
  rw [hname]
  rfl

end Node

/-! ## Loading values that are alike -/

section Alike

variable {fields fields' : Fields}

theorem map_eq_of_rel {α : Type} {f : Json → α} {a b : Option Json}
    (h : Option.Rel (fun j j' => f j' = f j) a b) : b.map f = a.map f := by
  cases h with
  | some h => exact congrArg some h
  | none => rfl

theorem eq_of_rel_data {a b : Option Json} (h : Option.Rel Role.data.LoadsAlike a b) : b = a := by
  cases h with
  | some h => exact congrArg some h
  | none => rfl

/-- The fields that an object is read for are loaded with the same results. -/
def Form.ReadsAlike (form : Form) (fields fields' : Fields) : Prop :=
  ∀ slot ∈ form.slots fields,
    Option.Rel slot.role.LoadsAlike (slot.entry fields) (slot.entry fields')

theorem Form.ReadsAlike.lookup_type {form : Form} (h : form.ReadsAlike fields fields') :
    fields'.lookup "type" = fields.lookup "type" := by
  have hmem : Slot.type ∈ form.slots fields := by
    cases form <;> exact List.mem_cons_self
  simpa [Slot.type] using eq_of_rel_data (h _ hmem)

theorem required_eq_of_rel {key : String}
    (h : Option.Rel Role.data.LoadsAlike (fields.lookup key) (fields'.lookup key)) :
    fields'.required key = fields.required key := by
  unfold Fields.required
  rw [eq_of_rel_data h]

namespace Node

theorem markPart_eq_of_rel {key : String}
    (h : Option.Rel (Role.object .mark).LoadsAlike (fields.lookup key) (fields'.lookup key)) :
    markPart fields' key = markPart fields key := by
  rw [markPart_eq, markPart_eq, map_eq_of_rel (f := Mark.ofJson) h]

theorem nodePart_eq_of_rel {key : String}
    (h : Option.Rel (Role.object .node).LoadsAlike (fields.lookup key) (fields'.lookup key)) :
    nodePart (partsOfFields fields') key = nodePart (partsOfFields fields) key := by
  rw [nodePart_eq, nodePart_eq, map_eq_of_rel (f := ofJson) h]

theorem listPart_eq_of_rel {key : String}
    (h : Option.Rel Role.nodes.LoadsAlike (fields.lookup key) (fields'.lookup key)) :
    listPart (partsOfFields fields') key = listPart (partsOfFields fields) key := by
  rw [listPart_eq, listPart_eq, map_eq_of_rel (f := listOfJson) h]

theorem optionalPart_eq_of_rel {key : String}
    (h : Option.Rel (Role.object .node).LoadsAlike (some ((fields.lookup key).getD .null))
      (some ((fields'.lookup key).getD .null))) :
    optionalPart (partsOfFields fields') key = optionalPart (partsOfFields fields) key := by
  rw [optionalPart_eq, optionalPart_eq]
  cases h with
  | some h => exact h

theorem ofJson_eq_of_readsAlike (h : Form.node.ReadsAlike fields fields') :
    ofJson (.object fields') = ofJson (.object fields) := by
  rw [ofJson, ofJson]
  unfold assemble
  rw [h.lookup_type]
  cases hshape : shapeOfJson ((fields.lookup "type").getD .null) with
  | error e => rfl
  | ok shape =>
      unfold Form.ReadsAlike at h
      rw [slots_of_shapeOfJson hshape, List.forall_mem_cons] at h
      obtain ⟨-, h⟩ := h
      dsimp only [bind, Except.bind]
      cases shape <;>
        simp only [Shape.slots, List.forall_mem_cons, Slot.entry_needed,
          Slot.entry_optional] at h <;>
        dsimp only
      case number | text | character | boolean | identifier => rw [markPart_eq_of_rel h.1]
      case group | spill | expression => rw [nodePart_eq_of_rel h.1]
      case unary | assignment => rw [markPart_eq_of_rel h.1, nodePart_eq_of_rel h.2.1]
      case binary =>
        rw [nodePart_eq_of_rel h.1, markPart_eq_of_rel h.2.1, nodePart_eq_of_rel h.2.2.1]
      case declaration =>
        rw [required_eq_of_rel h.1, markPart_eq_of_rel h.2.1, nodePart_eq_of_rel h.2.2.1]
      case block => rw [listPart_eq_of_rel h.1]
      case conditional =>
        rw [nodePart_eq_of_rel h.1, nodePart_eq_of_rel h.2.1, optionalPart_eq_of_rel h.2.2.1]
      case listen => rw [required_eq_of_rel h.1, markPart_eq_of_rel h.2.1]

theorem programOfJson_eq_of_readsAlike (h : Form.program.ReadsAlike fields fields') :
    programOfJson (.object fields') = programOfJson (.object fields) := by
  rw [programOfJson_object, programOfJson_object, h.lookup_type]
  split
  · rename_i htype
    unfold Form.ReadsAlike at h
    rw [Form.slots, if_pos htype, List.forall_mem_cons, List.forall_mem_singleton,
      Slot.entry_needed, Slot.entry_needed] at h
    exact listPart_eq_of_rel h.2
  · rfl

end Node

theorem Mark.ofJson_eq_of_readsAlike (h : Form.mark.ReadsAlike fields fields') :
    Mark.ofJson (.object fields') = Mark.ofJson (.object fields) := by
  unfold Form.ReadsAlike at h
  simp only [Form.slots, Slot.type, List.forall_mem_cons, Slot.entry_needed,
    Slot.entry_optional] at h
  obtain ⟨htype, hlexeme, hliteral, hline, -⟩ := h
  have hliteral : (fields'.lookup "literal").getD .null = (fields.lookup "literal").getD .null :=
    Option.some_inj.mp (eq_of_rel_data hliteral)
  rw [Mark.ofJson, Mark.ofJson, required_eq_of_rel htype, required_eq_of_rel hlexeme,
    required_eq_of_rel hline, hliteral]

theorem Form.ReadsAlike.loadsAlike {form : Form} (h : form.ReadsAlike fields fields') :
    (Role.object form).LoadsAlike (.object fields) (.object fields') := by
  cases form with
  | program => exact Node.programOfJson_eq_of_readsAlike h
  | node => exact Node.ofJson_eq_of_readsAlike h
  | mark => exact Mark.ofJson_eq_of_readsAlike h

theorem rel_of_isSome_eq {r : Json → Json → Prop} {a b : Option Json} (hthere : b.isSome = a.isSome)
    (h : ∀ value value', a = some value → b = some value' → r value value') : Option.Rel r a b := by
  cases a with
  | none =>
      cases b with
      | none => exact .none
      | some value' => cases hthere
  | some value =>
      cases b with
      | none => cases hthere
      | some value' => exact .some (h value value' rfl rfl)

/-- Values that are alike are loaded with the same result. -/
theorem Alike.loadsAlike {role : Role} {j j' : Json} (h : Alike role j j') :
    role.LoadsAlike j j' := by
  induction h with
  | same role j => exact .refl role j
  | object hthere _ ih =>
      apply Form.ReadsAlike.loadsAlike
      intro slot hslot
      exact rel_of_isSome_eq (hthere slot hslot) (ih slot hslot)
  | @cons item item' items items' _ _ ih ihlater =>
      have hitem : Node.ofJson item' = Node.ofJson item := ih
      have hlater : Node.listOfJson (.array items') = Node.listOfJson (.array items) := ihlater
      rw [Node.listOfJson, Node.listOfJson] at hlater
      change Node.listOfJson (.array (item' :: items')) = Node.listOfJson (.array (item :: items))
      rw [Node.listOfJson, Node.listOfJson, Node.listOfItems, Node.listOfItems, hitem, hlater]

end Alike

end Slang
