import RewardPool.Rpc

/-!
Shapes of what a node answers. A document is taken as a whole or not at all, so every field that is
known has to have its shape, whether it is read or not. Fields that are not known are free.
-/
namespace RewardPool

/-- How a field is named, and how it may be absent. -/
structure ShapeField where
  /-- The names that the field goes by. It stands in an object under one of them at most. -/
  names : List String
  mayMiss : Bool
  mayBeNull : Bool

namespace ShapeField

def needed (name : String) : ShapeField := ⟨[name], false, false⟩

def optional (name : String) : ShapeField := ⟨[name], true, true⟩

/-- A field that has to be there, if only as a null. -/
def nullable (name : String) : ShapeField := ⟨[name], false, true⟩

/-- A field that may be left out but is no null. -/
def omissible (name : String) : ShapeField := ⟨[name], true, false⟩

/-- What an object has under the names of a field. -/
def valuesIn (f : ShapeField) (fields : List (String × Json)) : List Json :=
  (fields.filter (f.names.contains ·.1)).map (·.2)

end ShapeField

inductive Shape where
  | flag
  /-- A number of any kind. -/
  | number
  /-- A number of so many bits at most. -/
  | quantity (bits : Nat)
  | bytes
  | fixedBytes (length : Nat)
  | list (item : Shape)
  | object (fields : List (ShapeField × Shape))
  /-- An object, or the values of its fields in a row. -/
  | record (fields : List (ShapeField × Shape))

namespace Shape

def hash : Shape := fixedBytes 32

def address : Shape := fixedBytes 20

mutual

def admits : Shape → Json → Bool
  | flag, .bool _ => true
  | flag, _ => false
  | number, .number _ => true
  | number, _ => false
  | quantity bits, j => (j.quantity? bits).isSome
  | bytes, j => j.bytes?.isSome
  | fixedBytes n, j => (FixedBytes.ofJson? (n := n) j).isSome
  | list item, .array items => items.all item.admits
  | list _, _ => false
  | record shapes, .array items => admitsRow shapes items
  | object shapes, j | record shapes, j =>
    match j.fields? with
    | some fields => admitsFields shapes fields
    | none => false

def admitsFields : List (ShapeField × Shape) → List (String × Json) → Bool
  | [], _ => true
  | (field, shape) :: shapes, fields =>
    (match field.valuesIn fields with
      | [] => field.mayMiss
      | [.null] => field.mayBeNull
      | [j] => shape.admits j
      | _ => false) && admitsFields shapes fields

/-- Whether some values are those of the fields, one after the other. -/
def admitsRow : List (ShapeField × Shape) → List Json → Bool
  | [], items => items.isEmpty
  | (field, shape) :: shapes, j :: items =>
    (match j with
      | .null => field.mayBeNull
      | j => shape.admits j) && admitsRow shapes items
  | _, [] => false

end

end Shape

end RewardPool
