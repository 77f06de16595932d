import RainEngine.Kernel.Json

/-
  This file defines the validation of tool arguments against
  the input schema of a skill.

  Key definitions include:
    * `Json.get`
    * `jsonTypeMatches`
    * `validateAgainstSchema`
-/

namespace RainEngine

------------------------------------------------------------
-- JSON Access
------------------------------------------------------------

namespace Json

def asStr : Json → Option String
| .string value => some value
| _ => none

def asArray : Json → Option (List Json)
| .array items => some items
| _ => none

def asObject : Json → Option (List (String × Json))
| .object fields => some fields
| _ => none

/- The field of an object; other values have none. -/
def get (value : Json) (key : String) : Option Json :=
  value.asObject.bind fun fields => fields.lookup key

end Json

------------------------------------------------------------
-- Validation
------------------------------------------------------------

def jsonTypeMatches (value : Json) (expected : String) : Bool :=
  if expected = "object" then
    value matches .object _
  else if expected = "array" then
    value matches .array _
  else if expected = "string" then
    value matches .string _
  else if expected = "number" then
    value matches .number _
  else if expected = "integer" then
    value matches .number (.posInt _) |
      .number (.negInt _)
  else if expected = "boolean" then
    value matches .bool _
  else if expected = "null" then
    value matches .null
  else true

/- The required keys the object does not have. -/
def missingRequired
    (fields : List (String × Json))
    (schema : Json) :
    List String :=
  match (schema.get "required").bind Json.asArray with
  | none => []
  | some required =>
      (required.filterMap Json.asStr).filterMap fun key =>
        if (fields.lookup key).isSome then none
        else some ("missing required property `" ++ key ++ "`")

/- The properties whose value has another type. -/
def mistypedProperties
    (fields : List (String × Json))
    (schema : Json) :
    List String :=
  match (schema.get "properties").bind Json.asObject with
  | none => []
  | some properties =>
      properties.filterMap fun property => do
        let value ← fields.lookup property.1
        let expected ←
          (property.2.get "type").bind Json.asStr
        if jsonTypeMatches value expected then none
        else
          some ("property `" ++ property.1 ++
            "` expected type `" ++ expected ++ "`")

def validateAgainstSchema
    (value schema : Json) :
    List String :=
  match (schema.get "type").bind Json.asStr with
  | none => []
  | some schemaType =>
      if !jsonTypeMatches value schemaType then
        ["expected root type `" ++ schemaType ++ "`"]
      else if schemaType = "object" then
        match value.asObject with
        | none => ["expected root object"]
        | some fields =>
            missingRequired fields schema ++
              mistypedProperties fields schema
      else []

end RainEngine
