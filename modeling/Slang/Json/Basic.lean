/-!
# JSON values

Integers and doubles are kept apart: a number written without point and exponent is an integer of
any size. Equality of values is decidable.
-/

namespace Slang

/-- A JSON value. The fields of an object keep their order. -/
inductive Json where
  | null
  | boolean (value : Bool)
  | integer (value : Int)
  | number (value : Float)
  | text (value : String)
  | array (items : List Json)
  | object (fields : List (String × Json))
deriving Inhabited

namespace Json

/-- The value of a field of an object. -/
def get? (key : String) : Json → Option Json
  | .object fields => fields.lookup key
  | _ => none

/-- Lists and objects have parts. -/
def isCompound : Json → Bool
  | .array _ | .object _ => true
  | _ => false

mutual

/-- Two values are the same. -/
def same (a b : Json) : Bool :=
  match a, b with
  | .null, .null => true
  | .boolean x, .boolean y => x = y
  | .integer x, .integer y => x = y
  | .number x, .number y => x = y
  | .text x, .text y => x = y
  | .array items, .array others => sameItems items others
  | .object fields, .object others => sameFields fields others
  | _, _ => false
termination_by structural a

/-- Two lists hold the same items. -/
def sameItems (items others : List Json) : Bool :=
  match items, others with
  | [], [] => true
  | item :: items, other :: others => same item other && sameItems items others
  | _, _ => false
termination_by structural items

/-- Two objects hold the same fields. -/
def sameFields (fields others : List (String × Json)) : Bool :=
  match fields, others with
  | [], [] => true
  | field :: fields, other :: others => sameField field other && sameFields fields others
  | _, _ => false
termination_by structural fields

/-- Two fields have the same name and the same value. -/
def sameField (field other : String × Json) : Bool :=
  match field, other with
  | (key, value), (otherKey, otherValue) => key = otherKey && same value otherValue
termination_by structural field

end

mutual

theorem same_iff : ∀ a b : Json, same a b = true ↔ a = b
  | .null, b => by cases b <;> simp [same]
  | .boolean x, b => by cases b <;> simp [same]
  | .integer x, b => by cases b <;> simp [same]
  | .number x, b => by cases b <;> simp [same]
  | .text x, b => by cases b <;> simp [same]
  | .array items, b => by cases b <;> simp [same, sameItems_iff items]
  | .object fields, b => by cases b <;> simp [same, sameFields_iff fields]
termination_by structural a => a

theorem sameItems_iff : ∀ items others : List Json, sameItems items others = true ↔ items = others
  | [], others => by cases others <;> simp [sameItems]
  | item :: items, others => by
      cases others <;> simp [sameItems, same_iff item, sameItems_iff items]
termination_by structural items => items

theorem sameFields_iff :
    ∀ fields others : List (String × Json), sameFields fields others = true ↔ fields = others
  | [], others => by cases others <;> simp [sameFields]
  | field :: fields, others => by
      cases others <;> simp [sameFields, sameField_iff field, sameFields_iff fields]
termination_by structural fields => fields

theorem sameField_iff : ∀ field other : String × Json, sameField field other = true ↔ field = other
  | (key, value), (otherKey, otherValue) => by simp [sameField, same_iff value]
termination_by structural field => field

end

instance : DecidableEq Json :=
  fun a b => decidable_of_iff _ (same_iff a b)

end Json

end Slang
