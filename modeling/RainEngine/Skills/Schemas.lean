import Mathlib.Data.List.Dedup
import RainEngine.Kernel.Schema

/-
  This file compares the validation of tool arguments with
  the meaning of an input schema that is built from `type`,
  `required` and `properties`.

  Key definitions include:
    * `InputSchema`
    * `InputSchema.Satisfies`
    * `InputSchema.IsCovered`

  Key theorems include:
    * `InputSchema.validate_eq_nil_iff`
    * `InputSchema.validation_sound_iff`
-/

namespace RainEngine

------------------------------------------------------------
-- Type Names
------------------------------------------------------------

namespace JsonNumber

/- A float without a fractional part is an integer too. -/
def isIntegral : JsonNumber → Bool
| .posInt _ => true
| .negInt _ => true
| .float (.finite value) => value.den = 1
| .float _ => false

end JsonNumber

/- The type names of JSON Schema. -/
inductive TypeName where
  | object
  | array
  | string
  | number
  | integer
  | boolean
  | null
deriving DecidableEq

namespace TypeName

def text : TypeName → String
| .object => "object"
| .array => "array"
| .string => "string"
| .number => "number"
| .integer => "integer"
| .boolean => "boolean"
| .null => "null"

def admits : TypeName → Json → Bool
| .object, .object _ => true
| .array, .array _ => true
| .string, .string _ => true
| .number, .number _ => true
| .integer, .number value => value.isIntegral
| .boolean, .bool _ => true
| .null, .null => true
| _, _ => false

/- A value of the type. -/
def sample : TypeName → Json
| .object => .object []
| .array => .array []
| .string => .string ""
| .number => .nat 0
| .integer => .nat 0
| .boolean => .bool false
| .null => .null

/-
  The checker knows every type name, and is stricter for
  integers only.
-/
theorem admits_of_matches
    (name : TypeName)
    (value : Json)
    (hMatches : jsonTypeMatches value name.text = true) :
    name.admits value = true := by
  cases name <;> cases value <;>
    simp_all [jsonTypeMatches, text, admits]
  case integer.number number =>
    cases number <;>
      simp_all [JsonNumber.isIntegral]

theorem matches_sample
    (name : TypeName) :
    jsonTypeMatches name.sample name.text = true := by
  cases name <;> decide

theorem matches_object_iff
    (value : Json) :
    jsonTypeMatches value "object" = true ↔
      ∃ fields, value = .object fields := by
  cases value <;> simp [jsonTypeMatches]

theorem eq_object_of_text
    (name : TypeName)
    (hText : name.text = "object") :
    name = .object := by
  cases name <;> simp_all [text]

theorem eq_object_of_admits
    {fields : List (String × Json)}
    (name : TypeName)
    (hAdmits : name.admits (.object fields) = true) :
    name = .object := by
  cases name <;> simp_all [admits]

/- No type name admits everything. -/
theorem exists_not_admits
    (name : TypeName) :
    ∃ value, name.admits value = false := by
  by_cases hNull : name = .null
  · exact ⟨.bool false, by subst hNull; rfl⟩
  · exact ⟨.null, by cases name <;> simp_all [admits]⟩

/- Every value has a type other than `integer`. -/
theorem exists_admits
    (value : Json) :
    ∃ name : TypeName,
      name ≠ .integer ∧ name.admits value = true := by
  cases value with
  | null => exact ⟨.null, by decide, rfl⟩
  | bool value => exact ⟨.boolean, by decide, rfl⟩
  | number value => exact ⟨.number, by decide, rfl⟩
  | string value => exact ⟨.string, by decide, rfl⟩
  | array items => exact ⟨.array, by decide, rfl⟩
  | object fields => exact ⟨.object, by decide, rfl⟩

/- A value with this type name only. -/
def typical : TypeName → Json
| .number => .number (.float (.finite (1 / 2)))
| name => name.sample

theorem admits_typical
    (name other : TypeName)
    (hInteger : name ≠ .integer)
    (hAdmits : other.admits name.typical = true) :
    other = name := by
  have hHalf :
      JsonNumber.isIntegral (.float (.finite (1 / 2))) =
        false := by
    decide +kernel
  cases name <;> cases other <;>
    simp_all [typical, sample, admits]

end TypeName

------------------------------------------------------------
-- Input Schemas
------------------------------------------------------------

/- The keyword `type`: a name or a list of names. -/
inductive TypeSpec where
  | one (name : TypeName)
  | anyOf (names : List TypeName)
deriving DecidableEq

namespace TypeSpec

def toJson : TypeSpec → Json
| .one name => .string name.text
| .anyOf names => .strings (names.map TypeName.text)

def Admits : TypeSpec → Json → Prop
| .one name, value => name.admits value = true
| .anyOf names, value =>
    ∃ name ∈ names, name.admits value = true

/- Every number is of type `number`. -/
def AdmitsAll : TypeSpec → Prop
| .one _ => False
| .anyOf names => ∀ name ≠ .integer, name ∈ names

theorem admitsAll_iff
    (spec : TypeSpec) :
    spec.AdmitsAll ↔ ∀ value, spec.Admits value := by
  cases spec with
  | one name =>
      obtain ⟨value, hValue⟩ := name.exists_not_admits
      constructor
      · intro hAll
        exact hAll.elim
      · intro hAll
        have hAdmits : name.admits value = true := hAll value
        simp [hValue] at hAdmits
  | anyOf names =>
      constructor
      · intro hAll value
        obtain ⟨name, hName, hAdmits⟩ :=
          TypeName.exists_admits value
        exact ⟨name, hAll name hName, hAdmits⟩
      · intro hAll name hName
        obtain ⟨other, hOther, hAdmits⟩ := hAll name.typical
        have hEq :=
          TypeName.admits_typical name other hName hAdmits
        rw [← hEq]
        exact hOther

end TypeSpec

/- Each of the three keywords may be present or absent. -/
inductive InputSchema where
  | mk
    (type : Option TypeSpec)
    (required : Option (List String))
    (properties : Option (List (String × InputSchema)))

namespace InputSchema

def type : InputSchema → Option TypeSpec
| .mk type _ _ => type

def required : InputSchema → List String
| .mk _ required _ => required.getD []

def properties : InputSchema → List (String × InputSchema)
| .mk _ _ properties => properties.getD []

/- A JSON object has no key twice. -/
def HasDistinctKeys (schema : InputSchema) : Prop :=
  (schema.properties.map Prod.fst).Nodup

mutual

def toJson : InputSchema → Json
| .mk type required properties =>
    .object
      ((type.map fun spec => ("type", spec.toJson)).toList ++
        (required.map fun keys =>
          ("required", Json.strings keys)).toList ++
        propertiesJson properties)

def propertiesJson :
    Option (List (String × InputSchema)) →
      List (String × Json)
| none => []
| some properties =>
    [("properties", .object (fieldsJson properties))]

def fieldsJson :
    List (String × InputSchema) → List (String × Json)
| [] => []
| property :: properties =>
    fieldJson property :: fieldsJson properties

def fieldJson : String × InputSchema → String × Json
| (key, schema) => (key, schema.toJson)

end

/- The value satisfies the keywords at every level. -/
inductive Satisfies : InputSchema → Json → Prop where
  | intro
    {schema : InputSchema}
    {value : Json}
    (hType :
      ∀ spec, schema.type = some spec →
        spec.Admits value)
    (hRequired :
      ∀ fields, value = .object fields →
        ∀ key ∈ schema.required,
          (fields.lookup key).isSome)
    (hProperties :
      ∀ fields, value = .object fields →
        ∀ key property, (key, property) ∈ schema.properties →
          ∀ field, fields.lookup key = some field →
            Satisfies property field) :
    Satisfies schema value

/- The schema asks nothing of a value. -/
inductive Unconstrained : InputSchema → Prop where
  | intro
    {schema : InputSchema}
    (hType :
      ∀ spec, schema.type = some spec → spec.AdmitsAll)
    (hRequired : schema.required = [])
    (hProperties :
      ∀ key property, (key, property) ∈ schema.properties →
        Unconstrained property) :
    Unconstrained schema

/-
  The checker sees one type name of a property: what is
  left to the property must not ask anything more.
-/
def IsPropertyCovered (schema : InputSchema) : Prop :=
  match schema.type with
  | some (.one name) =>
      name = .object →
        schema.required = [] ∧
          ∀ key property,
            (key, property) ∈ schema.properties →
              Unconstrained property
  | _ => Unconstrained schema

/-
  A schema that is checked in full: one type name at the
  root and, for an object, properties of one type each.
-/
def IsCovered (schema : InputSchema) : Prop :=
  match schema.type with
  | some (.one name) =>
      name = .object →
        ∀ key property, (key, property) ∈ schema.properties →
          IsPropertyCovered property
  | _ => Unconstrained schema

------------------------------------------------------------
-- Unconstrained Schemas
------------------------------------------------------------

theorem Unconstrained.satisfies
    {schema : InputSchema}
    (hUnconstrained : Unconstrained schema) :
    ∀ value, Satisfies schema value := by
  induction hUnconstrained with
  | @intro schema hType hRequired hProperties ih =>
      intro value
      apply Satisfies.intro
      · intro spec hSpec
        exact spec.admitsAll_iff.mp (hType spec hSpec) value
      · intro fields hFields key hKey
        rw [hRequired] at hKey
        simp at hKey
      · intro fields hFields key property hProperty field _
        exact ih key property hProperty field

/- A property of a satisfied schema has no bad value. -/
theorem satisfies_property
    (schema : InputSchema)
    (hAll :
      ∀ fields, (∀ key ∈ schema.required,
        (fields.lookup key).isSome) →
          Satisfies schema (.object fields))
    (hRequired : schema.required = [])
    (key : String)
    (property : InputSchema)
    (hProperty : (key, property) ∈ schema.properties)
    (field : Json) :
    Satisfies property field := by
  have hObject :
      Satisfies schema (.object [(key, field)]) := by
    apply hAll
    rw [hRequired]
    simp
  cases hObject with
  | intro hType hKeys hProperties =>
      exact hProperties _ rfl key property hProperty field
        (by simp)

theorem required_eq_nil
    (schema : InputSchema)
    (hEmpty : Satisfies schema (.object [])) :
    schema.required = [] := by
  cases hEmpty with
  | intro hType hRequired hProperties =>
      apply List.eq_nil_iff_forall_not_mem.mpr
      intro key hKey
      have hSome := hRequired [] rfl key hKey
      simp at hSome

theorem sizeOf_property_lt
    (schema : InputSchema)
    (key : String)
    (property : InputSchema)
    (hProperty : (key, property) ∈ schema.properties) :
    sizeOf property < sizeOf schema := by
  cases schema with
  | mk type required properties =>
      cases properties with
      | none => simp [properties] at hProperty
      | some entries =>
          have hMem : (key, property) ∈ entries := hProperty
          have hLt := List.sizeOf_lt_of_mem hMem
          simp only [mk.sizeOf_spec, Option.some.sizeOf_spec]
          simp only [Prod.mk.sizeOf_spec] at hLt
          omega

/-
  By recursion on the schema: each property of it would
  otherwise have a value that an object can carry.
-/
theorem unconstrained_of_satisfies
    (schema : InputSchema)
    (hAll : ∀ value, Satisfies schema value) :
    Unconstrained schema := by
  have hRequired := schema.required_eq_nil (hAll _)
  apply Unconstrained.intro
  · intro spec hSpec
    apply spec.admitsAll_iff.mpr
    intro value
    cases hAll value with
    | intro hType => exact hType spec hSpec
  · exact hRequired
  · intro key property hProperty
    have hSmaller :=
      schema.sizeOf_property_lt key property hProperty
    apply unconstrained_of_satisfies property
    exact schema.satisfies_property
      (fun fields _ => hAll _) hRequired key property
      hProperty
termination_by sizeOf schema

------------------------------------------------------------
-- What the Checker Accepts
------------------------------------------------------------

/- The one type name a schema gives, if it gives one. -/
def NamesOnly
    (schema : InputSchema)
    (name : TypeName) :
    Prop :=
  schema.type = some (.one name)

/-
  A property's value is compared with its type name, and
  with nothing else.
-/
def AcceptsField
    (schema : InputSchema)
    (field : Json) :
    Prop :=
  ∀ name, schema.NamesOnly name →
    jsonTypeMatches field name.text = true

/- What an accepted argument meets. -/
def Accepts
    (schema : InputSchema)
    (value : Json) :
    Prop :=
  ∀ name, schema.NamesOnly name →
    jsonTypeMatches value name.text = true ∧
      ∀ fields, value = .object fields →
        (∀ key ∈ schema.required,
          (fields.lookup key).isSome) ∧
        ∀ key property,
          (key, property) ∈ schema.properties →
            ∀ field, fields.lookup key = some field →
              AcceptsField property field

theorem get_type
    (schema : InputSchema) :
    schema.toJson.get "type" =
      schema.type.map TypeSpec.toJson := by
  cases schema with
  | mk type required properties =>
      cases type <;> cases required <;> cases properties <;>
        simp [toJson, propertiesJson, Json.get, Json.asObject,
          InputSchema.type, List.lookup_cons]

theorem get_required
    (schema : InputSchema) :
    (schema.toJson.get "required").bind Json.asArray =
      match schema with
      | .mk _ required _ =>
          required.map fun keys => keys.map Json.string := by
  cases schema with
  | mk type required properties =>
      cases type <;> cases required <;> cases properties <;>
        simp [toJson, propertiesJson, Json.get, Json.asObject,
          Json.asArray, Json.strings, List.lookup_cons]

theorem fieldsJson_eq
    (entries : List (String × InputSchema)) :
    fieldsJson entries =
      entries.map fun entry => (entry.1, entry.2.toJson) := by
  induction entries with
  | nil => rfl
  | cons entry entries ih =>
      obtain ⟨key, property⟩ := entry
      simp only [fieldsJson, fieldJson, List.map_cons, ih]

theorem get_properties
    (schema : InputSchema) :
    (schema.toJson.get "properties").bind Json.asObject =
      match schema with
      | .mk _ _ properties =>
          properties.map fun entries =>
            entries.map fun entry =>
              (entry.1, entry.2.toJson) := by
  cases schema with
  | mk type required properties =>
      cases type <;> cases required <;> cases properties <;>
        simp [toJson, propertiesJson, Json.get, Json.asObject,
          List.lookup_cons, fieldsJson_eq]

/- The checker reads a type name, never a list of them. -/
theorem typeText_eq
    (schema : InputSchema) :
    (schema.toJson.get "type").bind Json.asStr =
      match schema.type with
      | some (.one name) => some name.text
      | _ => none := by
  rw [schema.get_type]
  match schema.type with
  | none => rfl
  | some (.one name) => rfl
  | some (.anyOf names) => rfl

theorem missingRequired_eq_nil_iff
    (schema : InputSchema)
    (fields : List (String × Json)) :
    missingRequired fields schema.toJson = [] ↔
      ∀ key ∈ schema.required,
        (fields.lookup key).isSome := by
  unfold missingRequired
  rw [schema.get_required]
  cases schema with
  | mk type required properties =>
      cases required with
      | none => simp [InputSchema.required]
      | some keys =>
          simp [InputSchema.required, List.filterMap_map,
            Function.comp_def, Json.asStr]

theorem mistypedProperties_eq_nil_iff
    (schema : InputSchema)
    (fields : List (String × Json)) :
    mistypedProperties fields schema.toJson = [] ↔
      ∀ key property,
        (key, property) ∈ schema.properties →
          ∀ field, fields.lookup key = some field →
            AcceptsField property field := by
  have hProperty :
      ∀ (key : String) (property : InputSchema),
        ((fields.lookup key).bind fun field =>
          ((property.toJson.get "type").bind
            Json.asStr).bind fun expected =>
              if jsonTypeMatches field expected then none
              else
                some ("property `" ++ key ++
                  "` expected type `" ++ expected ++
                    "`")) = none ↔
          ∀ field, fields.lookup key = some field →
            AcceptsField property field := by
    intro key property
    rw [property.typeText_eq]
    cases hField : fields.lookup key with
    | none => simp
    | some field =>
        unfold AcceptsField NamesOnly
        match hType : property.type with
        | none => simp
        | some (.one name) => simp
        | some (.anyOf names) => simp
  unfold mistypedProperties
  rw [schema.get_properties]
  cases schema with
  | mk type required properties =>
      cases properties with
      | none => simp [InputSchema.properties]
      | some entries =>
          simp only [Option.map_some, List.filterMap_map,
            List.filterMap_eq_nil_iff, InputSchema.properties,
            Option.getD_some, Prod.forall]
          constructor
          · intro hNone key property hMem
            exact (hProperty key property).mp
              (hNone key property hMem)
          · intro hAccepts key property hMem
            exact (hProperty key property).mpr
              (hAccepts key property hMem)

theorem validate_eq_nil_iff
    (schema : InputSchema)
    (value : Json) :
    validateAgainstSchema value schema.toJson = [] ↔
      schema.Accepts value := by
  unfold validateAgainstSchema Accepts NamesOnly
  rw [schema.typeText_eq]
  match hType : schema.type with
  | none => simp
  | some (.anyOf names) => simp
  | some (.one name) =>
      simp only [Option.some.injEq, TypeSpec.one.injEq,
        forall_eq']
      by_cases hMatches :
          jsonTypeMatches value name.text = true
      · simp only [hMatches, Bool.not_true, Bool.false_eq_true,
          if_false, true_and]
        by_cases hObject : name = .object
        · subst hObject
          obtain ⟨fields, rfl⟩ :=
            (TypeName.matches_object_iff value).mp hMatches
          simp only [TypeName.text, if_true, Json.asObject,
            List.append_eq_nil_iff,
            missingRequired_eq_nil_iff,
            mistypedProperties_eq_nil_iff, Json.object.injEq,
            forall_eq']
        · have hText : name.text ≠ "object" := fun hText =>
            hObject (name.eq_object_of_text hText)
          simp only [hText, if_false, true_iff]
          intro fields hFields
          have hAdmits := name.admits_of_matches value hMatches
          subst hFields
          exact absurd (name.eq_object_of_admits hAdmits) hObject
      · simp [hMatches]

------------------------------------------------------------
-- Soundness
------------------------------------------------------------

/- A schema that names a type other than `object`. -/
theorem satisfies_of_plain
    (schema : InputSchema)
    (value : Json)
    (name : TypeName)
    (hName : schema.NamesOnly name)
    (hPlain : name ≠ .object)
    (hMatches : jsonTypeMatches value name.text = true) :
    Satisfies schema value := by
  have hAdmits := name.admits_of_matches value hMatches
  have hNoObject : ∀ fields, value ≠ .object fields := by
    intro fields hFields
    subst hFields
    exact hPlain (name.eq_object_of_admits hAdmits)
  apply Satisfies.intro
  · intro spec hSpec
    have hEq : spec = .one name :=
      Option.some.inj (hSpec.symm.trans hName)
    subst hEq
    exact hAdmits
  · intro fields hFields
    exact absurd hFields (hNoObject fields)
  · intro fields hFields
    exact absurd hFields (hNoObject fields)

/- A schema that names the type `object`. -/
theorem satisfies_object
    (schema : InputSchema)
    (fields : List (String × Json))
    (hName : schema.NamesOnly .object)
    (hRequired :
      ∀ key ∈ schema.required, (fields.lookup key).isSome)
    (hProperties :
      ∀ key property, (key, property) ∈ schema.properties →
        ∀ field, fields.lookup key = some field →
          Satisfies property field) :
    Satisfies schema (.object fields) := by
  apply Satisfies.intro
  · intro spec hSpec
    have hEq : spec = .one .object :=
      Option.some.inj (hSpec.symm.trans hName)
    subst hEq
    rfl
  · intro others hOthers
    cases hOthers
    exact hRequired
  · intro others hOthers
    cases hOthers
    exact hProperties

theorem IsPropertyCovered.satisfies
    (schema : InputSchema)
    (hCovered : schema.IsPropertyCovered)
    (field : Json)
    (hAccepts : schema.AcceptsField field) :
    Satisfies schema field := by
  unfold IsPropertyCovered at hCovered
  match hType : schema.type with
  | none =>
      rw [hType] at hCovered
      exact Unconstrained.satisfies hCovered field
  | some (.anyOf names) =>
      rw [hType] at hCovered
      exact Unconstrained.satisfies hCovered field
  | some (.one name) =>
      rw [hType] at hCovered
      have hMatches := hAccepts name hType
      by_cases hObject : name = .object
      · obtain ⟨hRequired, hProperties⟩ := hCovered hObject
        subst hObject
        obtain ⟨fields, rfl⟩ :=
          (TypeName.matches_object_iff field).mp hMatches
        apply schema.satisfies_object fields hType
        · intro key hKey
          rw [hRequired] at hKey
          simp at hKey
        · intro key property hProperty value _
          exact Unconstrained.satisfies
            (hProperties key property hProperty) value
      · exact schema.satisfies_of_plain field name hType
          hObject hMatches

theorem IsCovered.satisfies
    (schema : InputSchema)
    (hCovered : schema.IsCovered)
    (value : Json)
    (hAccepts : schema.Accepts value) :
    Satisfies schema value := by
  unfold IsCovered at hCovered
  match hType : schema.type with
  | none =>
      rw [hType] at hCovered
      exact Unconstrained.satisfies hCovered value
  | some (.anyOf names) =>
      rw [hType] at hCovered
      exact Unconstrained.satisfies hCovered value
  | some (.one name) =>
      rw [hType] at hCovered
      obtain ⟨hMatches, hFields⟩ := hAccepts name hType
      by_cases hObject : name = .object
      · have hProperties := hCovered hObject
        subst hObject
        obtain ⟨fields, rfl⟩ :=
          (TypeName.matches_object_iff value).mp hMatches
        obtain ⟨hRequired, hAcceptsField⟩ := hFields fields rfl
        apply schema.satisfies_object fields hType hRequired
        intro key property hProperty field hField
        exact IsPropertyCovered.satisfies property
          (hProperties key property hProperty) field
          (hAcceptsField key property hProperty field hField)
      · exact schema.satisfies_of_plain value name hType
          hObject hMatches

------------------------------------------------------------
-- Completeness
------------------------------------------------------------

/- A value the checker accepts for a property. -/
def sample (schema : InputSchema) : Json :=
  match schema.type with
  | some (.one name) => name.sample
  | _ => .null

theorem acceptsField_sample
    (schema : InputSchema) :
    schema.AcceptsField schema.sample := by
  intro name hName
  have hType : schema.type = some (.one name) := hName
  have hSample : schema.sample = name.sample := by
    simp only [sample, hType]
  rw [hSample]
  exact name.matches_sample

theorem lookup_of_mem
    (entries : List (String × InputSchema))
    (hNodup : (entries.map Prod.fst).Nodup)
    (key : String)
    (property : InputSchema)
    (hMem : (key, property) ∈ entries) :
    entries.lookup key = some property := by
  induction entries with
  | nil => simp at hMem
  | cons entry entries ih =>
      obtain ⟨other, first⟩ := entry
      rw [List.map_cons, List.nodup_cons] at hNodup
      by_cases hKey : key = other
      · subst hKey
        have hAbsent : (key, property) ∉ entries := by
          intro hLater
          exact hNodup.1
            (List.mem_map.mpr ⟨(key, property), hLater, rfl⟩)
        have hEq : (key, property) = (key, first) :=
          (List.mem_cons.mp hMem).resolve_right hAbsent
        cases hEq
        exact List.lookup_cons_self
      · have hLater : (key, property) ∈ entries := by
          apply (List.mem_cons.mp hMem).resolve_left
          intro hEq
          exact hKey (congrArg Prod.fst hEq)
        rw [List.lookup_cons]
        simp only [beq_eq_false_iff_ne.mpr hKey]
        exact ih hNodup.2 hLater

/- What stands at a key next to the property in question. -/
def filler
    (schema : InputSchema)
    (key : String) :
    Json :=
  match schema.properties.lookup key with
  | some property => property.sample
  | none => .null

/-
  An accepted object with a given value at one property:
  the other required keys carry samples, no key twice.
-/
def withField
    (schema : InputSchema)
    (key : String)
    (field : Json) :
    List (String × Json) :=
  (key, field) ::
    (schema.required.filter (· ≠ key)).dedup.map fun other =>
      (other, schema.filler other)

theorem lookup_withField
    (schema : InputSchema)
    (key other : String)
    (field value : Json)
    (hOther : other ≠ key)
    (hLookup :
      (schema.withField key field).lookup other =
        some value) :
    value = schema.filler other := by
  obtain ⟨before, after, hSplit, _⟩ :=
    List.lookup_eq_some_iff.mp hLookup
  have hMem : (other, value) ∈ schema.withField key field := by
    rw [hSplit]
    exact List.mem_append_right before List.mem_cons_self
  unfold withField at hMem
  simp only [List.mem_cons, Prod.mk.injEq, List.mem_map] at hMem
  cases hMem with
  | inl hFirst => exact absurd hFirst.1 hOther
  | inr hRest =>
      obtain ⟨same, _, hSame, hValue⟩ := hRest
      rw [← hSame, hValue]

theorem withField_required
    (schema : InputSchema)
    (key other : String)
    (field : Json)
    (hOther : other ∈ schema.required) :
    ((schema.withField key field).lookup other).isSome := by
  rw [List.lookup_isSome_iff]
  by_cases hKey : other = key
  · exact ⟨(key, field), by simp [withField], by simp [hKey]⟩
  · refine ⟨(other, schema.filler other), ?_, by simp⟩
    apply List.mem_cons_of_mem
    apply List.mem_map_of_mem
    rw [List.mem_dedup, List.mem_filter]
    exact ⟨hOther, by simp [hKey]⟩

theorem withField_properties
    (schema : InputSchema)
    (hKeys : schema.HasDistinctKeys)
    (key : String)
    (property : InputSchema)
    (hProperty : (key, property) ∈ schema.properties)
    (field : Json)
    (hField : property.AcceptsField field)
    (other : String)
    (others : InputSchema)
    (hOthers : (other, others) ∈ schema.properties)
    (value : Json)
    (hValue :
      (schema.withField key field).lookup other =
        some value) :
    others.AcceptsField value := by
  have hLookup :=
    lookup_of_mem schema.properties hKeys other others hOthers
  by_cases hKey : other = key
  · subst hKey
    have hSame :=
      lookup_of_mem schema.properties hKeys other property
        hProperty
    have hEq : others = property :=
      Option.some.inj (hLookup.symm.trans hSame)
    have hFirst :
        (schema.withField other field).lookup other =
          some field := List.lookup_cons_self
    have hValueEq : value = field :=
      Option.some.inj (hValue.symm.trans hFirst)
    rw [hEq, hValueEq]
    exact hField
  · have hFiller : schema.filler other = others.sample := by
      simp only [filler, hLookup]
    rw [schema.lookup_withField key other field value hKey
      hValue, hFiller]
    exact others.acceptsField_sample

theorem isPropertyCovered_of_satisfies
    (schema : InputSchema)
    (hSound :
      ∀ field, schema.AcceptsField field →
        Satisfies schema field) :
    schema.IsPropertyCovered := by
  unfold IsPropertyCovered
  match hType : schema.type with
  | none =>
      apply schema.unconstrained_of_satisfies
      intro value
      apply hSound
      intro name hName
      simp [NamesOnly, hType] at hName
  | some (.anyOf names) =>
      apply schema.unconstrained_of_satisfies
      intro value
      apply hSound
      intro name hName
      simp [NamesOnly, hType] at hName
  | some (.one name) =>
      intro hObject
      subst hObject
      have hObjects :
          ∀ fields, Satisfies schema (.object fields) := by
        intro fields
        apply hSound
        intro name hName
        have hEq : name = .object := by
          simpa [NamesOnly, hType] using hName.symm
        subst hEq
        rfl
      have hRequired := schema.required_eq_nil (hObjects [])
      refine ⟨hRequired, ?_⟩
      intro key property hProperty
      apply property.unconstrained_of_satisfies
      exact schema.satisfies_property
        (fun fields _ => hObjects fields) hRequired key
        property hProperty

theorem isCovered_of_satisfies
    (schema : InputSchema)
    (hKeys : schema.HasDistinctKeys)
    (hSound :
      ∀ value, schema.Accepts value →
        Satisfies schema value) :
    schema.IsCovered := by
  unfold IsCovered
  match hType : schema.type with
  | none =>
      apply schema.unconstrained_of_satisfies
      intro value
      apply hSound
      intro name hName
      simp [NamesOnly, hType] at hName
  | some (.anyOf names) =>
      apply schema.unconstrained_of_satisfies
      intro value
      apply hSound
      intro name hName
      simp [NamesOnly, hType] at hName
  | some (.one name) =>
      intro hObject
      subst hObject
      intro key property hProperty
      apply property.isPropertyCovered_of_satisfies
      intro field hField
      have hSatisfies :
          Satisfies schema
            (.object (schema.withField key field)) := by
        apply hSound
        intro name hName
        have hEq : name = .object := by
          simpa [NamesOnly, hType] using hName.symm
        subst hEq
        refine ⟨rfl, ?_⟩
        intro fields hFields
        cases hFields
        constructor
        · intro other hOther
          exact schema.withField_required key other field hOther
        · intro other others hOthers value hValue
          exact schema.withField_properties hKeys key property
            hProperty field hField other others hOthers value
            hValue
      cases hSatisfies with
      | intro hTypes hRequired hProperties =>
          exact hProperties _ rfl key property hProperty field
            List.lookup_cons_self

/-
  The schemas the checker is sound for: all its errors are
  absent only for values that satisfy the schema.
-/
theorem validation_sound_iff
    (schema : InputSchema)
    (hKeys : schema.HasDistinctKeys) :
    (∀ value,
      validateAgainstSchema value schema.toJson = [] →
        Satisfies schema value) ↔
      schema.IsCovered := by
  simp only [schema.validate_eq_nil_iff]
  constructor
  · exact schema.isCovered_of_satisfies hKeys
  · intro hCovered value hAccepts
    exact IsCovered.satisfies schema hCovered value hAccepts

/- A required text and an integer that may be left out. -/
def searchTool : InputSchema :=
  .mk (some (.one .object)) (some ["query"])
    (some
      [("query", .mk (some (.one .string)) none none),
        ("limit", .mk (some (.one .integer)) none none)])

theorem validation_sound_searchTool :
    (∀ value,
      validateAgainstSchema value searchTool.toJson = [] →
        Satisfies searchTool value) ↔
      searchTool.IsCovered :=
  validation_sound_iff searchTool
    (List.nodup_cons.mpr
      ⟨by decide, List.nodup_singleton "limit"⟩)

/- An optional integer, as derived for an `Option` field. -/
def optionalLimit : InputSchema :=
  .mk (some (.one .object)) none
    (some
      [("limit",
        .mk (some (.anyOf [.integer, .null])) none none)])

/- A text for an optional integer is valid. -/
theorem text_for_integer_accepted :
    validateAgainstSchema
        (.object [("limit", .string "ten")])
        optionalLimit.toJson = [] ∧
      ¬ Satisfies optionalLimit
        (.object [("limit", .string "ten")]) := by
  constructor
  · rfl
  · intro hSatisfies
    cases hSatisfies with
    | intro hType hRequired hProperties =>
        have hLimit :=
          hProperties _ rfl "limit" _ List.mem_cons_self
            (.string "ten") rfl
        cases hLimit with
        | intro hLimitType =>
            have hAdmits := hLimitType _ rfl
            simp [TypeSpec.Admits, TypeName.admits] at hAdmits

end InputSchema

end RainEngine
