import Slang.Proofs.Parser.View
import Slang.Proofs.Tree.Lossless
import Slang.Proofs.Tree.Reading

/-!
# Trees that are loaded and written out again

A JSON value is trimmed by dropping, at every depth, the fields that are not read and by filling in
`null` for those that may be left out.  Trimming does not change what is loaded.  Conversely, a
program that is loaded from a value with a list in every place of statements is encoded as the
trimmed value, so the fields that are read are all kept by the tree.
-/

namespace Slang

/-! ## Trimming -/

/-- The field that stays, chosen from what the fields of an object give; `null` stands for one that
may be left out. -/
def Slot.pick (slot : Slot) (found : List (String × (Role → Json))) : Option (String × Json) :=
  match found.lookup slot.key with
  | some value => some (slot.key, value slot.role)
  | none => if slot.optional then some (slot.key, .null) else none

namespace Json

mutual

/-- What is read of a value in a place of the given role, with `null` for what may be left out. -/
def trim : Json → Role → Json
  | .object fields, .object form =>
    .object ((form.slots fields).filterMap fun slot => slot.pick (trimFields fields))
  | .array items, .nodes => .array (trimItems items)
  | j, _ => j

/-- What is read of nodes. -/
def trimItems : List Json → List Json
  | [] => []
  | item :: later => trim item (.object .node) :: trimItems later

/-- What is read of the fields of an object, by the role of the field. -/
def trimFields : List (String × Json) → List (String × (Role → Json))
  | [] => []
  | field :: later => trimField field :: trimFields later

/-- What is read of one field, by its role. -/
def trimField : String × Json → String × (Role → Json)
  | (key, value) => (key, trim value)

end

end Json

theorem lookup_trimFields (fields : Fields) (key : String) :
    (Json.trimFields fields).lookup key = (fields.lookup key).map Json.trim := by
  induction fields with
  | nil => rw [Json.trimFields]; rfl
  | cons field later ih =>
      obtain ⟨name, value⟩ := field
      rw [Json.trimFields, Json.trimField, List.lookup_cons, List.lookup_cons, ih]
      cases key == name with
      | true => rfl
      | false => rfl

/-- What stays of a field that is read. -/
def Fields.trimmed (fields : Fields) (slot : Slot) : Option (String × Json) :=
  (slot.entry fields).map fun value => (slot.key, value.trim slot.role)

namespace Json

@[simp] theorem trim_data (j : Json) : j.trim .data = j := by
  cases j <;> rw [trim] <;> exact nofun

@[simp] theorem trim_null (role : Role) : null.trim role = null := by
  rw [trim] <;> exact nofun

theorem pick_trimFields (slot : Slot) (fields : Fields) :
    slot.pick (trimFields fields) = fields.trimmed slot := by
  rw [Slot.pick, Fields.trimmed, Slot.entry, lookup_trimFields]
  cases fields.lookup slot.key with
  | none =>
      dsimp only [Option.map_none]
      split
      · rw [Option.map_some, trim_null]
      · rfl
  | some value => rfl

/-- An object keeps the fields that it is read for. -/
theorem trim_object (fields : Fields) (form : Form) :
    (object fields).trim (.object form) =
      object ((form.slots fields).filterMap fields.trimmed) := by
  simp only [trim, pick_trimFields]

end Json

/-! ## A trimmed value is alike -/

theorem Node.Shape.nodup_keys (shape : Node.Shape) :
    ("type" :: shape.slots.map Slot.key).Nodup := by
  cases shape <;> decide

theorem Form.nodup_keys (form : Form) (fields : Fields) :
    ((form.slots fields).map Slot.key).Nodup := by
  cases form with
  | program =>
      rw [Form.slots]
      split <;> decide
  | node =>
      rw [Form.slots]
      split
      · rename_i name _
        cases Node.Shape.ofName? name with
        | none => decide
        | some shape => exact shape.nodup_keys
      · decide
  | mark =>
      rw [Form.slots]
      decide

theorem Slot.lookup_eq_or_null (slot : Slot) {fields : Fields} {value : Json}
    (h : slot.entry fields = some value) : fields.lookup slot.key = some value ∨ value = .null := by
  unfold Slot.entry at h
  split at h
  · rename_i found hfound
    exact .inl (hfound.trans h)
  · split at h
    · exact .inr (Option.some_inj.mp h).symm
    · cases h

theorem Fields.fst_of_trimmed_eq_some {slot : Slot} {fields : Fields} {field : String × Json}
    (h : fields.trimmed slot = some field) : field.1 = slot.key := by
  rw [Fields.trimmed, Option.map_eq_some_iff] at h
  obtain ⟨value, -, rfl⟩ := h
  rfl

/-- No two fields that are read have one key, so each of them is found in the trimmed object. -/
theorem lookup_filterMap_trimmed {slots : List Slot} {slot : Slot} (fields : Fields)
    (hkeys : (slots.map Slot.key).Nodup) (hslot : slot ∈ slots) :
    (slots.filterMap fields.trimmed).lookup slot.key =
      (slot.entry fields).map fun value => value.trim slot.role := by
  induction slots with
  | nil => cases hslot
  | cons first later ih =>
      rw [List.map_cons, List.nodup_cons] at hkeys
      obtain ⟨hfirst, hkeys⟩ := hkeys
      rw [List.filterMap_cons, Fields.trimmed]
      rw [List.mem_cons] at hslot
      obtain rfl | hslot := hslot
      · cases slot.entry fields with
        | none =>
            rw [Option.map_none, Option.map_none, List.lookup_eq_none_iff]
            intro field hfield
            obtain ⟨other, hother, hfield⟩ := List.mem_filterMap.mp hfield
            rw [Fields.fst_of_trimmed_eq_some hfield, bne_iff_ne]
            intro heq
            exact hfirst (heq ▸ List.mem_map_of_mem hother)
        | some value =>
            rw [Option.map_some, Option.map_some, List.lookup_cons_self]
      · have hne : slot.key ≠ first.key := by
          intro heq
          exact hfirst (heq ▸ List.mem_map_of_mem hslot)
        cases first.entry fields with
        | none => exact ih hkeys hslot
        | some value =>
            rw [Option.map_some, List.lookup_cons, beq_false_of_ne hne]
            exact ih hkeys hslot

theorem entry_filterMap_trimmed {slots : List Slot} {slot : Slot} (fields : Fields)
    (hkeys : (slots.map Slot.key).Nodup) (hslot : slot ∈ slots) :
    slot.entry (slots.filterMap fields.trimmed) =
      (slot.entry fields).map fun value => value.trim slot.role := by
  have hlookup := lookup_filterMap_trimmed fields hkeys hslot
  rw [Slot.entry, hlookup]
  cases hentry : slot.entry fields with
  | none =>
      have hneeded : slot.optional = false := by
        unfold Slot.entry at hentry
        split at hentry
        · cases hentry
        · simpa using hentry
      simp [hneeded]
  | some value => rfl

mutual

/-- A value differs from what is read of it only in what is not read. -/
theorem alike_trim (j : Json) (role : Role) : Alike role j (j.trim role) := by
  match j, role with
  | .object fields, .object form =>
      rw [Json.trim_object]
      have hentry := fun slot (hslot : slot ∈ form.slots fields) =>
        entry_filterMap_trimmed fields (form.nodup_keys fields) hslot
      refine .object (fun slot hslot => ?_) fun slot hslot value value' hvalue hvalue' => ?_
      · rw [hentry slot hslot, Option.isSome_map]
      · rw [hentry slot hslot, hvalue, Option.map_some, Option.some_inj] at hvalue'
        subst hvalue'
        obtain hfield | rfl := slot.lookup_eq_or_null hvalue
        · exact alike_trim_of_lookup hfield slot.role
        · rw [Json.trim_null]
          exact .same slot.role .null
  | .array items, .nodes =>
      rw [Json.trim]
      exact alike_trimItems items
  | .array _, .data | .array _, .object _ | .object _, .data | .object _, .nodes => exact .same _ _
  | .null, role | .boolean _, role | .integer _, role | .number _, role | .text _, role =>
      cases role <;> exact .same _ _
termination_by sizeOf j

theorem alike_trimItems (items : List Json) :
    Alike .nodes (.array items) (.array (Json.trimItems items)) := by
  match items with
  | [] => exact .same _ _
  | item :: later =>
      rw [Json.trimItems]
      exact .cons (alike_trim item _) (alike_trimItems later)
termination_by sizeOf items

theorem alike_trim_of_lookup {fields : Fields} {key : String} {value : Json}
    (h : fields.lookup key = some value) (role : Role) : Alike role value (value.trim role) := by
  match fields with
  | [] => cases h
  | (name, found) :: later =>
      rw [List.lookup_cons] at h
      cases hname : key == name with
      | true =>
          rw [hname] at h
          cases h
          exact alike_trim value role
      | false =>
          rw [hname] at h
          exact alike_trim_of_lookup h role
termination_by sizeOf fields

end

/-! ## What is loaded is written out trimmed -/

/-- Every place of statements that is read holds a list. -/
inductive HoldsLists : Role → Json → Prop
  | data (j : Json) : HoldsLists .data j
  | plain (form : Form) {j : Json} (h : ∀ fields, j ≠ .object fields) : HoldsLists (.object form) j
  | object {form : Form} {fields : Fields}
      (h : ∀ slot ∈ form.slots fields, ∀ value,
        slot.entry fields = some value → HoldsLists slot.role value) :
      HoldsLists (.object form) (.object fields)
  | nil : HoldsLists .nodes (.array [])
  | cons {item : Json} {items : List Json} (h : HoldsLists (.object .node) item)
      (hlater : HoldsLists .nodes (.array items)) : HoldsLists .nodes (.array (item :: items))

/-- Whatever the value is loaded to in a place of the given role is written as the trimmed value. -/
def Role.WritesTrimmed : Role → Json → Prop
  | .object .program, j =>
    ∀ program, Node.programOfJson j = .ok program →
      Node.programToJson program = j.trim (.object .program)
  | .object .node, j => ∀ node, Node.ofJson j = .ok node → node.toJson = j.trim (.object .node)
  | .object .mark, j => ∀ m, Mark.ofJson j = .ok m → m.toJson = j.trim (.object .mark)
  | .nodes, j =>
    ∀ nodes, Node.listOfJson j = .ok nodes → .array (Node.listToJson nodes) = j.trim .nodes
  | .data, j => j = j.trim .data

section Written

open Slang.Parser (bind_eq_ok)

variable {fields : Fields} {key : String}

theorem exists_of_getD_eq_ok {α : Type} {f : Json → Except LoadError α} {a : Option Json}
    {e : LoadError} {x : α} (h : (a.map f).getD (.error e) = .ok x) :
    ∃ value, a = some value ∧ f value = .ok x := by
  cases a with
  | none => cases h
  | some value => exact ⟨value, rfl, h⟩

theorem trimmed_of_lookup {role : Role} {value written : Json} (h : fields.lookup key = some value)
    (hvalue : written = value.trim role) :
    fields.trimmed (Slot.needed key role) = some (key, written) := by
  rw [Fields.trimmed, Slot.entry_needed, h, hvalue]
  rfl

theorem trimmed_of_required {value : Json} (h : fields.required key = .ok value) :
    fields.trimmed (Slot.needed key .data) = some (key, value) := by
  unfold Fields.required at h
  split at h
  · rename_i found hfound
    cases h
    exact trimmed_of_lookup hfound value.trim_data.symm
  · cases h

namespace Node

theorem trimmed_of_markPart {m : Mark} (h : markPart fields key = .ok m)
    (hmark : ∀ value, fields.lookup key = some value → (Role.object .mark).WritesTrimmed value) :
    fields.trimmed (Slot.needed key (.object .mark)) = some (key, m.toJson) := by
  rw [markPart_eq] at h
  obtain ⟨value, hvalue, h⟩ := exists_of_getD_eq_ok h
  exact trimmed_of_lookup hvalue (hmark value hvalue m h)

theorem trimmed_of_nodePart {node : Node} (h : nodePart (partsOfFields fields) key = .ok node)
    (hnode : ∀ value, fields.lookup key = some value → (Role.object .node).WritesTrimmed value) :
    fields.trimmed (Slot.needed key (.object .node)) = some (key, node.toJson) := by
  rw [nodePart_eq] at h
  obtain ⟨value, hvalue, h⟩ := exists_of_getD_eq_ok h
  exact trimmed_of_lookup hvalue (hnode value hvalue node h)

theorem trimmed_of_listPart {nodes : List Node}
    (h : listPart (partsOfFields fields) key = .ok nodes)
    (hnodes : ∀ value, fields.lookup key = some value → Role.nodes.WritesTrimmed value) :
    fields.trimmed (Slot.needed key .nodes) = some (key, .array (listToJson nodes)) := by
  rw [listPart_eq] at h
  obtain ⟨value, hvalue, h⟩ := exists_of_getD_eq_ok h
  exact trimmed_of_lookup hvalue (hnodes value hvalue nodes h)

theorem trimmed_of_optionalPart {node : Node}
    (h : optionalPart (partsOfFields fields) key = .ok node)
    (hnode : (Role.object .node).WritesTrimmed ((fields.lookup key).getD .null)) :
    fields.trimmed ⟨key, .object .node, true⟩ = some (key, node.toJson) := by
  rw [optionalPart_eq] at h
  rw [Fields.trimmed, Slot.entry_optional, Option.map_some, hnode node h]

theorem Shape.name_of_ofName? {name : String} {shape : Shape} (h : ofName? name = some shape) :
    shape.name = name := by
  simpa using List.find?_some h

/-- An object that names a form is trimmed to an object of that form. -/
theorem trim_of_shapeOfJson {shape : Shape}
    (h : shapeOfJson ((fields.lookup "type").getD .null) = .ok shape) :
    (Json.object fields).trim (.object .node) =
      shaped shape (shape.slots.filterMap fields.trimmed) := by
  obtain ⟨name, htype, hname⟩ := lookup_type_of_shapeOfJson h
  have hfield : fields.trimmed .type = some ("type", .text name) :=
    trimmed_of_lookup htype (Json.trim_data _).symm
  rw [Json.trim_object, slots_of_shapeOfJson h, List.filterMap_cons_some hfield, shaped,
    Shape.name_of_ofName? hname]

theorem toJson_eq_trim {node : Node} (h : ofJson (.object fields) = .ok node)
    (hslots : ∀ slot ∈ Form.node.slots fields, ∀ value,
      slot.entry fields = some value → slot.role.WritesTrimmed value) :
    node.toJson = (Json.object fields).trim (.object .node) := by
  rw [ofJson, assemble] at h
  obtain ⟨shape, hshape, h⟩ := bind_eq_ok.mp h
  rw [slots_of_shapeOfJson hshape, List.forall_mem_cons] at hslots
  obtain ⟨-, hslots⟩ := hslots
  rw [trim_of_shapeOfJson hshape]
  cases shape <;>
    simp only [Shape.slots, List.forall_mem_cons, Slot.entry_needed, Slot.entry_optional,
      Slot.role_needed, Option.some_inj, forall_eq'] at hslots <;>
    dsimp only at h
  -- The parts are taken in the order in which they are read, which is that of the fields.
  case number | text | character | boolean | identifier =>
    obtain ⟨m, hm, h⟩ := bind_eq_ok.mp h
    cases h
    rw [toJson, Shape.slots, List.filterMap_cons_some (trimmed_of_markPart hm hslots.1),
      List.filterMap_nil]
  case ghosted =>
    cases h
    rw [toJson, Shape.slots, List.filterMap_nil]
  case group | spill | expression =>
    obtain ⟨inner, hinner, h⟩ := bind_eq_ok.mp h
    cases h
    rw [toJson, Shape.slots, List.filterMap_cons_some (trimmed_of_nodePart hinner hslots.1),
      List.filterMap_nil]
  case unary | assignment =>
    obtain ⟨m, hm, h⟩ := bind_eq_ok.mp h
    obtain ⟨operand, hoperand, h⟩ := bind_eq_ok.mp h
    cases h
    rw [toJson, Shape.slots, List.filterMap_cons_some (trimmed_of_markPart hm hslots.1),
      List.filterMap_cons_some (trimmed_of_nodePart hoperand hslots.2.1), List.filterMap_nil]
  case binary =>
    obtain ⟨left, hleft, h⟩ := bind_eq_ok.mp h
    obtain ⟨m, hm, h⟩ := bind_eq_ok.mp h
    obtain ⟨right, hright, h⟩ := bind_eq_ok.mp h
    cases h
    rw [toJson, Shape.slots, List.filterMap_cons_some (trimmed_of_nodePart hleft hslots.1),
      List.filterMap_cons_some (trimmed_of_markPart hm hslots.2.1),
      List.filterMap_cons_some (trimmed_of_nodePart hright hslots.2.2.1), List.filterMap_nil]
  case declaration =>
    obtain ⟨sigil, hsigil, h⟩ := bind_eq_ok.mp h
    obtain ⟨m, hm, h⟩ := bind_eq_ok.mp h
    obtain ⟨value, hvalue, h⟩ := bind_eq_ok.mp h
    cases h
    rw [toJson, Shape.slots, List.filterMap_cons_some (trimmed_of_required hsigil),
      List.filterMap_cons_some (trimmed_of_markPart hm hslots.2.1),
      List.filterMap_cons_some (trimmed_of_nodePart hvalue hslots.2.2.1), List.filterMap_nil]
  case block =>
    obtain ⟨body, hbody, h⟩ := bind_eq_ok.mp h
    cases h
    rw [toJson, Shape.slots, List.filterMap_cons_some (trimmed_of_listPart hbody hslots.1),
      List.filterMap_nil]
  case conditional =>
    obtain ⟨condition, hcondition, h⟩ := bind_eq_ok.mp h
    obtain ⟨consequent, hconsequent, h⟩ := bind_eq_ok.mp h
    obtain ⟨alternative, halternative, h⟩ := bind_eq_ok.mp h
    cases h
    rw [toJson, Shape.slots, List.filterMap_cons_some (trimmed_of_nodePart hcondition hslots.1),
      List.filterMap_cons_some (trimmed_of_nodePart hconsequent hslots.2.1),
      List.filterMap_cons_some (trimmed_of_optionalPart halternative hslots.2.2.1),
      List.filterMap_nil]
  case listen =>
    obtain ⟨prompt, hprompt, h⟩ := bind_eq_ok.mp h
    obtain ⟨m, hm, h⟩ := bind_eq_ok.mp h
    cases h
    rw [toJson, Shape.slots, List.filterMap_cons_some (trimmed_of_required hprompt),
      List.filterMap_cons_some (trimmed_of_markPart hm hslots.2.1), List.filterMap_nil]

/-- A program keeps nothing but its statements. -/
theorem programToJson_eq_trim {program : List Node}
    (h : programOfJson (.object fields) = .ok program)
    (hslots : ∀ slot ∈ Form.program.slots fields, ∀ value,
      slot.entry fields = some value → slot.role.WritesTrimmed value) :
    programToJson program = (Json.object fields).trim (.object .program) := by
  rw [programOfJson_object] at h
  split at h
  · rename_i htype
    rw [Form.slots, if_pos htype, List.forall_mem_cons, List.forall_mem_singleton,
      Slot.entry_needed] at hslots
    have hfield : fields.trimmed .type = some ("type", .text "Program") :=
      trimmed_of_lookup htype (Json.trim_data _).symm
    rw [Json.trim_object, Form.slots, if_pos htype, List.filterMap_cons_some hfield,
      List.filterMap_cons_some (trimmed_of_listPart h hslots.2), List.filterMap_nil,
      programToJson]
  · cases h

end Node

theorem Mark.eq_text_of_kindOfJson {found : Json} {kind : Token.Kind}
    (h : Mark.kindOfJson found = .ok kind) : found = .text kind.name := by
  unfold Mark.kindOfJson at h
  split at h
  · rename_i name
    cases hname : Token.Kind.ofName? name with
    | none =>
        rw [hname] at h
        cases h
    | some named =>
        rw [hname] at h
        cases h
        have hkind : kind.name = name := by simpa using List.find?_some hname
        rw [hkind]
  · cases h

theorem Mark.toJson_eq_trim {m : Mark} (h : Mark.ofJson (.object fields) = .ok m) :
    m.toJson = (Json.object fields).trim (.object .mark) := by
  rw [Mark.ofJson] at h
  obtain ⟨found, hfound, h⟩ := bind_eq_ok.mp h
  obtain ⟨kind, hkind, h⟩ := bind_eq_ok.mp h
  obtain ⟨lexeme, hlexeme, h⟩ := bind_eq_ok.mp h
  obtain ⟨line, hline, h⟩ := bind_eq_ok.mp h
  cases h
  rw [Mark.eq_text_of_kindOfJson hkind] at hfound
  have hliteral : fields.trimmed ⟨"literal", .data, true⟩ =
      some ("literal", (fields.lookup "literal").getD .null) := by
    rw [Fields.trimmed, Slot.entry_optional, Option.map_some, Json.trim_data]
  rw [Json.trim_object, Form.slots, Slot.type,
    List.filterMap_cons_some (trimmed_of_required hfound),
    List.filterMap_cons_some (trimmed_of_required hlexeme), List.filterMap_cons_some hliteral,
    List.filterMap_cons_some (trimmed_of_required hline), List.filterMap_nil, Mark.toJson]

end Written

/-- A value with a list in every place of statements is written out trimmed, once it is loaded. -/
theorem HoldsLists.writesTrimmed {role : Role} {j : Json} (h : HoldsLists role j) :
    role.WritesTrimmed j := by
  induction h with
  | data j => exact j.trim_data.symm
  | plain form h =>
      rename_i j
      cases form with
      | program =>
          intro program hprogram
          cases j <;> first | cases hprogram | exact absurd rfl (h _)
      | node =>
          intro node hnode
          cases j <;> first | cases hnode | exact absurd rfl (h _)
          rw [Json.trim_null, Node.toJson]
      | mark =>
          intro m hm
          cases j <;> first | cases hm | exact absurd rfl (h _)
  | @object form fields _ ih =>
      cases form with
      | program => exact fun program hprogram => Node.programToJson_eq_trim hprogram ih
      | node => exact fun node hnode => Node.toJson_eq_trim hnode ih
      | mark => exact fun m hm => Mark.toJson_eq_trim hm
  | nil =>
      intro nodes hnodes
      cases hnodes
      rfl
  | @cons item items _ _ ih ihlater =>
      intro nodes hnodes
      rw [Node.listOfJson, Node.listOfItems] at hnodes
      obtain ⟨node, hnode, hnodes⟩ := Parser.bind_eq_ok.mp hnodes
      obtain ⟨later, hlater, hnodes⟩ := Parser.bind_eq_ok.mp hnodes
      cases hnodes
      have hfirst : node.toJson = item.trim (.object .node) := ih node hnode
      have hrest : .array (Node.listToJson later) = (Json.array items).trim .nodes :=
        ihlater later (by rw [Node.listOfJson, hlater])
      rw [Json.trim] at hrest
      rw [Json.trim, Json.trimItems, Node.listToJson, hfirst, Json.array.inj hrest]

namespace Node

theorem programOfJson_trim (o : Json) :
    programOfJson (o.trim (.object .program)) = programOfJson o :=
  (alike_trim o (.object .program)).loadsAlike

/-- Values that differ only in what is not read are loaded with the same result.  A program that is
loaded from a value with lists for its statements is written out as the trimmed value, which is
alike and is loaded as the same program again.  So two such values are loaded as the same program
exactly if they are trimmed to the same value. -/
theorem loading_ignores_unread_fields (o : Json) :
    (∀ o', Alike (.object .program) o o' → programOfJson o' = programOfJson o) ∧
      ∀ program, programOfJson o = .ok program → HoldsLists (.object .program) o →
        programToJson program = o.trim (.object .program) ∧
          Alike (.object .program) o (programToJson program) ∧
            programOfJson (programToJson program) = .ok program ∧
              ∀ o', HoldsLists (.object .program) o' →
                (programOfJson o' = .ok program ↔
                  o'.trim (.object .program) = o.trim (.object .program)) := by
  refine ⟨fun o' h => h.loadsAlike, fun program hprogram hlists => ?_⟩
  have hwritten : programToJson program = o.trim (.object .program) :=
    hlists.writesTrimmed program hprogram
  refine ⟨hwritten, hwritten ▸ alike_trim o _, programOfJson_programToJson program, ?_⟩
  intro o' hlists'
  constructor
  · intro hprogram'
    have hwritten' : programToJson program = o'.trim (.object .program) :=
      hlists'.writesTrimmed program hprogram'
    rw [← hwritten', hwritten]
  · intro htrim
    rw [← programOfJson_trim o', htrim, programOfJson_trim, hprogram]

namespace Sample

/-- A mark with a column and without its literal. -/
def name : Json :=
  .object [("column", .integer 5), ("type", .text "IDENTIFIER"), ("lexeme", .text "x"),
    ("line", .integer 1)]

def condition : Json :=
  .object [("type", .text "Identifier"), ("token", name)]

def consequent : Json :=
  .object [("statements", .array []), ("type", .text "Block"), ("comment", .text "nothing")]

/-- A conditional without an alternative. -/
def statement : Json :=
  .object [("type", .text "If"), ("condition", condition), ("then_branch", consequent)]

/-- A program with a version. -/
def annotated : Json :=
  .object [("version", .integer 2), ("type", .text "Program"), ("body", .array [statement])]

/-- The same program with the fields that are read and no others. -/
def plain : Json :=
  .object [("type", .text "Program"),
    ("body", .array [.object [("type", .text "If"),
      ("condition", .object [("type", .text "Identifier"),
        ("token", .object [("type", .text "IDENTIFIER"), ("lexeme", .text "x"),
          ("literal", .null), ("line", .integer 1)])]),
      ("then_branch", .object [("type", .text "Block"), ("statements", .array [])]),
      ("else_branch", .null)]])]

def loaded : List Node :=
  [.conditional (.identifier ⟨.identifier, .text "x", .null, .integer 1⟩) (.block []) .absent]

attribute [local simp] HoldsLists.data HoldsLists.nil List.lookup_cons Slot.type Shape.slots in
theorem holdsLists_annotated : HoldsLists (.object .program) annotated := by
  have hname : HoldsLists (.object .mark) name :=
    .object (by simp [Form.slots])
  have hcondition : HoldsLists (.object .node) condition := by
    refine .object ?_
    rw [@slots_of_shapeOfJson _ .identifier rfl]
    simp [hname]
  have hconsequent : HoldsLists (.object .node) consequent := by
    refine .object ?_
    rw [@slots_of_shapeOfJson _ .block rfl]
    simp
  have hnull : HoldsLists (.object .node) .null := by
    refine .plain .node fun fields h => ?_
    cases h
  have hstatement : HoldsLists (.object .node) statement := by
    refine .object ?_
    rw [@slots_of_shapeOfJson _ .conditional rfl]
    simp [hcondition, hconsequent, hnull]
  have hbody := HoldsLists.cons hstatement .nil
  exact .object (by simp [Form.slots, hbody])

end Sample

theorem loading_ignores_unread_fields_annotated :
    Alike (.object .program) Sample.annotated Sample.plain ∧
      programOfJson Sample.plain = programOfJson Sample.annotated ∧
        programOfJson Sample.annotated = .ok Sample.loaded ∧
          HoldsLists (.object .program) Sample.annotated ∧
            programToJson Sample.loaded = Sample.plain := by
  have htrim : Sample.annotated.trim (.object .program) = Sample.plain := rfl
  have halike : Alike (.object .program) Sample.annotated Sample.plain :=
    htrim ▸ alike_trim Sample.annotated (.object .program)
  have hloaded : programOfJson Sample.annotated = .ok Sample.loaded := rfl
  obtain ⟨hsame, hwritten⟩ := loading_ignores_unread_fields Sample.annotated
  have hlists := Sample.holdsLists_annotated
  exact ⟨halike, hsame _ halike, hloaded, hlists, (hwritten _ hloaded hlists).1.trans htrim⟩

end Node

end Slang
