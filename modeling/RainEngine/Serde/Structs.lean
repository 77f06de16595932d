import RainEngine.Kernel.Json

/-
  This file defines how structs are read from the tree of a
  JSON text, as readers do that are derived for them. A struct
  is read from an object that has each of its fields once at
  most, whatever else the object holds, or from an array of
  its values in the order of the fields.

  Key definitions include:
    * `structFields`
    * `requiredField`
    * `optionalField`
    * `listOf`

  Key theorems include:
    * `listOf_map`
-/

namespace RainEngine
namespace Derived

variable {α : Type}

/- What there is for each of the fields of a struct. -/
def structFields
    (names : List String) :
    Json → Option (List (Option Json))
| .object fields =>
    if ∀ name ∈ names, (fields.map (·.1)).count name ≤ 1 then
      some (names.map fun name => fields.lookup name)
    else none
| .array items =>
    if items.length = names.length then some (items.map some)
    else none
| _ => none

/- A field that has to be there. -/
def requiredField
    (read : Json → Option α)
    (field : Option Json) :
    Option α :=
  field.bind read

/- A field that may be missing or null. -/
def optionalField
    (read : Json → Option α) :
    Option Json → Option (Option α)
| none => some none
| some .null => some none
| some json => (read json).map some

/- The items of an array, each of which has to be read. -/
def listOf
    (read : Json → Option α) :
    Json → Option (List α)
| .array items => items.mapM read
| _ => none

/- Items that are read one by one are read as a list. -/
theorem listOf_map
    {β : Type}
    {read : Json → Option α}
    {write : β → Json}
    {value : β → α}
    (hRead : ∀ item, read (write item) = some (value item))
    (items : List β) :
    listOf read (.array (items.map write)) =
      some (items.map value) := by
  unfold listOf
  dsimp only
  induction items with
  | nil => rfl
  | cons item rest ih =>
      rw [List.map_cons, List.mapM_cons, hRead, ih]
      rfl

/- A field that comes twice is read by no one. -/
example :
    structFields ["type", "content"]
        (.object [("type", .null), ("type", .null)]) =
      none := by
  decide

end Derived
end RainEngine
