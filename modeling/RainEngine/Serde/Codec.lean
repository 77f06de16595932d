import RainEngine.Kernel.Schema

/-
  This file defines codecs: how values are written as JSON and
  read back. Writing never fails, reading may, and a float is
  the one thing that can be lost on the way: a non-finite one
  is written as null, and the reader may take a finite one for
  a float nearby. A codec knows the floats of a value, and its
  law says that they alone decide whether it is read back.

  Key definitions include:
    * `Exact`
    * `Json.depth`
    * `Codec`
    * `Codec.list`
    * `Codec.option`
    * `Codec.tagged`
    * `Fields`
    * `Codec.struct`

  Key theorems include:
    * `Json.reread_written`
    * `Codec.map_decode`
-/

namespace RainEngine

------------------------------------------------------------
-- Floats
------------------------------------------------------------

/- A float is written as a number that is read as itself. -/
def Exact (parse : ℚ → ℚ) : F64 → Prop
| .finite value => parse value = value
| _ => False

instance (parse : ℚ → ℚ) : DecidablePred (Exact parse) := by
  intro x
  cases x <;> unfold Exact <;> infer_instance

/- Read a number back as a float. -/
def readFloat (parse : ℚ → ℚ) : Json → Option F64
| .number (.posInt value) => some (.ofNat value)
| .number (.negInt value) => some (.round value)
| .number (.float (.finite value)) =>
    some (.finite (parse value))
| _ => none

theorem readFloat_float
    {parse : ℚ → ℚ}
    {value : F64} :
    readFloat parse (Json.float value) = some value ↔
      Exact parse value := by
  cases value <;>
    simp [Json.float, readFloat, Exact]

------------------------------------------------------------
-- Values
------------------------------------------------------------

namespace Json

mutual

/- How deep arrays and objects are nested in a value. -/
def depth : Json → Nat
| .array items => depthOfItems items + 1
| .object fields => depthOfFields fields + 1
| _ => 0

def depthOfItems : List Json → Nat
| [] => 0
| item :: rest => max (depth item) (depthOfItems rest)

def depthOfFields : List (String × Json) → Nat
| [] => 0
| (_, value) :: rest =>
    max (depth value) (depthOfFields rest)

end

mutual

/- The floats among the numbers of a value. -/
def floats : Json → List F64
| .number (.float value) => [value]
| .array items => floatsOfItems items
| .object fields => floatsOfFields fields
| _ => []

def floatsOfItems : List Json → List F64
| [] => []
| item :: rest => floats item ++ floatsOfItems rest

def floatsOfFields : List (String × Json) → List F64
| [] => []
| (_, value) :: rest =>
    floats value ++ floatsOfFields rest

end

mutual

/- A value as it is written. -/
def written : Json → Json
| .number (.float value) => Json.float value
| .array items => .array (writtenItems items)
| .object fields => .object (writtenFields fields)
| value => value

def writtenItems : List Json → List Json
| [] => []
| item :: rest => written item :: writtenItems rest

def writtenFields :
    List (String × Json) → List (String × Json)
| [] => []
| (name, value) :: rest =>
    (name, written value) :: writtenFields rest

end

mutual

/- A value as it is read back. -/
def reread (parse : ℚ → ℚ) : Json → Json
| .number (.float (.finite value)) =>
    .number (.float (.finite (parse value)))
| .array items => .array (rereadItems parse items)
| .object fields => .object (rereadFields parse fields)
| value => value

def rereadItems
    (parse : ℚ → ℚ) :
    List Json → List Json
| [] => []
| item :: rest =>
    reread parse item :: rereadItems parse rest

def rereadFields
    (parse : ℚ → ℚ) :
    List (String × Json) → List (String × Json)
| [] => []
| (name, value) :: rest =>
    (name, reread parse value) :: rereadFields parse rest

end

mutual

/- The floats of a value decide whether it is read back. -/
theorem reread_written
    (parse : ℚ → ℚ) :
    ∀ value : Json,
      reread parse (written value) = value ↔
        ∀ x ∈ floats value, Exact parse x
| .null => by simp [written, reread, floats]
| .bool _ => by simp [written, reread, floats]
| .string _ => by simp [written, reread, floats]
| .number (.posInt _) => by
    simp [written, reread, floats]
| .number (.negInt _) => by
    simp [written, reread, floats]
| .number (.float value) => by
    cases value <;>
      simp [written, Json.float, reread, floats, Exact]
| .array items => by
    have ih := reread_writtenItems parse items
    simp only [written, reread, floats, Json.array.injEq,
      ih]
| .object fields => by
    have ih := reread_writtenFields parse fields
    simp only [written, reread, floats, Json.object.injEq,
      ih]

theorem reread_writtenItems
    (parse : ℚ → ℚ) :
    ∀ items : List Json,
      rereadItems parse (writtenItems items) = items ↔
        ∀ x ∈ floatsOfItems items, Exact parse x
| [] => by simp [writtenItems, rereadItems, floatsOfItems]
| item :: rest => by
    have hItem := reread_written parse item
    have ih := reread_writtenItems parse rest
    simp only [writtenItems, rereadItems, floatsOfItems,
      List.cons.injEq, hItem, ih, List.forall_mem_append]

theorem reread_writtenFields
    (parse : ℚ → ℚ) :
    ∀ fields : List (String × Json),
      rereadFields parse (writtenFields fields) = fields ↔
        ∀ x ∈ floatsOfFields fields, Exact parse x
| [] => by
    simp [writtenFields, rereadFields, floatsOfFields]
| (name, value) :: rest => by
    have hValue := reread_written parse value
    have ih := reread_writtenFields parse rest
    simp only [writtenFields, rereadFields, floatsOfFields,
      List.cons.injEq, Prod.mk.injEq, true_and, hValue, ih,
      List.forall_mem_append]

end

mutual

/- A reader that takes every float for itself. -/
theorem reread_id :
    ∀ value : Json, reread id value = value
| .null => rfl
| .bool _ => rfl
| .string _ => rfl
| .number (.posInt _) => rfl
| .number (.negInt _) => rfl
| .number (.float value) => by cases value <;> rfl
| .array items => by
    rw [reread, reread_idItems items]
| .object fields => by
    rw [reread, reread_idFields fields]

theorem reread_idItems :
    ∀ items : List Json, rereadItems id items = items
| [] => rfl
| item :: rest => by
    rw [rereadItems, reread_id item, reread_idItems rest]

theorem reread_idFields :
    ∀ fields : List (String × Json),
      rereadFields id fields = fields
| [] => rfl
| (name, value) :: rest => by
    rw [rereadFields, reread_id value, reread_idFields rest]

end

end Json

------------------------------------------------------------
-- Codecs
------------------------------------------------------------

/- How values are written and read back. -/
structure Codec (α : Type) where
  encode : α → Json
  decode : (ℚ → ℚ) → Json → Option α
  floats : α → List F64
  lawful : ∀ parse value,
    decode parse (encode value) = some value ↔
      ∀ x ∈ floats value, Exact parse x

namespace Codec

variable {α β : Type}

/- All floats of a value are read as themselves. -/
def ExactOn
    (codec : Codec α)
    (parse : ℚ → ℚ)
    (value : α) : Prop :=
  ∀ x ∈ codec.floats value, Exact parse x

instance (codec : Codec α) (parse : ℚ → ℚ) :
    DecidablePred (codec.ExactOn parse) := by
  intro value
  unfold ExactOn
  infer_instance

/- A value that can be read back is not written as null. -/
def NotNull (codec : Codec α) : Prop :=
  ∀ parse value,
    codec.ExactOn parse value → codec.encode value ≠ .null

/- A codec of values without floats. -/
def plain
    (encode : α → Json)
    (decode : Json → Option α)
    (hInverse : ∀ value, decode (encode value) = some value) :
    Codec α where
  encode := encode
  decode := fun _ => decode
  floats := fun _ => []
  lawful := by
    intro _ value
    simp [hInverse value]

------------------------------------------------------------
-- Simple Values
------------------------------------------------------------

def string : Codec String :=
  plain .string Json.asStr (fun _ => rfl)

def readBool : Json → Option Bool
| .bool value => some value
| _ => none

def bool : Codec Bool :=
  plain .bool readBool (fun _ => rfl)

def readNat : Json → Option Nat
| .number (.posInt value) => some value
| _ => none

def nat : Codec Nat :=
  plain Json.nat readNat (fun _ => rfl)

def readInt : Json → Option Int
| .number (.posInt value) => some value
| .number (.negInt value) => some value
| _ => none

theorem readInt_int (value : Int) :
    readInt (Json.int value) = some value := by
  unfold Json.int
  by_cases hSign : 0 ≤ value
  · rw [if_pos hSign]
    simp only [readInt, Int.toNat_of_nonneg hSign]
  · rw [if_neg hSign]
    rfl

def int : Codec Int :=
  plain Json.int readInt readInt_int

def readByte (json : Json) : Option UInt8 :=
  (readNat json).bind fun value =>
    if value < 256 then some (UInt8.ofNat value) else none

theorem readByte_nat (value : UInt8) :
    readByte (Json.nat value.toNat) = some value := by
  have hSmall : value.toNat < 256 := value.toNat_lt
  simp [readByte, Json.nat, readNat, hSmall]

def byte : Codec UInt8 :=
  plain (fun value => Json.nat value.toNat) readByte
    readByte_nat

def float : Codec F64 where
  encode := Json.float
  decode := readFloat
  floats := fun value => [value]
  lawful := by
    intro parse value
    simp [readFloat_float]

/- Any JSON value. -/
def value : Codec Json where
  encode := Json.written
  decode := fun parse json => some (json.reread parse)
  floats := Json.floats
  lawful := by
    intro parse value
    rw [Option.some.injEq, Json.reread_written]

/- Constants are written as their names. -/
def named
    (name : α → String)
    (read : String → Option α)
    (hInverse : ∀ value, read (name value) = some value) :
    Codec α :=
  plain (fun value => .string (name value))
    (fun json => json.asStr.bind read) hInverse

theorem notNull_string : string.NotNull := by
  intro _ value _ hNull
  cases hNull

theorem notNull_nat : nat.NotNull := by
  intro _ value _ hNull
  cases hNull

------------------------------------------------------------
-- Options, Lists, Pairs And Results
------------------------------------------------------------

def readOption
    (codec : Codec α)
    (parse : ℚ → ℚ) :
    Json → Option (Option α)
| .null => some none
| json => (codec.decode parse json).map some

theorem readOption_of_ne_null
    (codec : Codec α)
    {parse : ℚ → ℚ}
    {json : Json}
    (hJson : json ≠ .null) :
    codec.readOption parse json =
      (codec.decode parse json).map some := by
  cases json with
  | null => exact absurd rfl hJson
  | _ => rfl

def writeOption
    (codec : Codec α) :
    Option α → Json
| none => .null
| some value => codec.encode value

/- An absent value is written as null. -/
def option
    (codec : Codec α)
    (hNotNull : codec.NotNull) :
    Codec (Option α) where
  encode := codec.writeOption
  decode := codec.readOption
  floats := fun value => value.toList.flatMap codec.floats
  lawful := by
    intro parse value
    cases value with
    | none => simp [writeOption, readOption]
    | some value =>
        have hLaw := codec.lawful parse value
        simp only [writeOption, Option.toList_some,
          List.flatMap_singleton]
        by_cases hNull : codec.encode value = .null
        · have hLost : ¬ codec.ExactOn parse value := by
            intro hExact
            exact hNotNull parse value hExact hNull
          rw [hNull]
          simpa [readOption, ExactOn] using hLost
        · rw [codec.readOption_of_ne_null hNull]
          simpa using hLaw

def readItems
    (codec : Codec α)
    (parse : ℚ → ℚ) :
    List Json → Option (List α)
| [] => some []
| json :: rest =>
    (codec.decode parse json).bind fun value =>
      (codec.readItems parse rest).map (value :: ·)

theorem readItems_map
    (codec : Codec α)
    (parse : ℚ → ℚ)
    (values : List α) :
    codec.readItems parse (values.map codec.encode) =
        some values ↔
      ∀ value ∈ values, codec.ExactOn parse value := by
  induction values with
  | nil => simp [readItems]
  | cons value rest ih =>
      rw [List.forall_mem_cons, ← ih, ExactOn,
        ← codec.lawful parse value, List.map_cons,
        readItems]
      constructor
      · intro hRead
        rcases Option.bind_eq_some_iff.mp hRead with
          ⟨first, hFirst, hRest⟩
        rcases Option.map_eq_some_iff.mp hRest with
          ⟨others, hOthers, hCons⟩
        cases hCons
        exact ⟨hFirst, hOthers⟩
      · intro hRead
        rw [hRead.1, hRead.2]
        rfl

def list (codec : Codec α) : Codec (List α) where
  encode := fun values => .array (values.map codec.encode)
  decode := fun parse json =>
    json.asArray.bind (codec.readItems parse)
  floats := fun values => values.flatMap codec.floats
  lawful := by
    intro parse values
    have hItems := codec.readItems_map parse values
    simp only [Json.asArray, Option.bind_some, hItems,
      ExactOn, List.mem_flatMap]
    constructor
    · intro hExact x hMem
      rcases hMem with ⟨value, hValue, hx⟩
      exact hExact value hValue x hx
    · intro hExact value hValue x hx
      exact hExact x ⟨value, hValue, hx⟩

def readPair
    (first : Codec α)
    (second : Codec β)
    (parse : ℚ → ℚ) :
    Json → Option (α × β)
| .array [one, two] =>
    (first.decode parse one).bind fun a =>
      (second.decode parse two).map (a, ·)
| _ => none

def pair
    (first : Codec α)
    (second : Codec β) :
    Codec (α × β) where
  encode := fun values =>
    .array [first.encode values.1, second.encode values.2]
  decode := readPair first second
  floats := fun values =>
    first.floats values.1 ++ second.floats values.2
  lawful := by
    intro parse values
    rw [List.forall_mem_append, ← first.lawful,
      ← second.lawful]
    rcases values with ⟨a, b⟩
    simp [readPair, Option.bind_eq_some_iff]

def writeResult
    (error : Codec α)
    (ok : Codec β) :
    Except α β → Json
| .ok output => .object [("Ok", ok.encode output)]
| .error output => .object [("Err", error.encode output)]

def readResult
    (error : Codec α)
    (ok : Codec β)
    (parse : ℚ → ℚ) :
    Json → Option (Except α β)
| .object [("Ok", json)] =>
    (ok.decode parse json).map .ok
| .object [("Err", json)] =>
    (error.decode parse json).map .error
| _ => none

def resultFloats
    (error : Codec α)
    (ok : Codec β) :
    Except α β → List F64
| .ok output => ok.floats output
| .error output => error.floats output

def result
    (error : Codec α)
    (ok : Codec β) :
    Codec (Except α β) where
  encode := writeResult error ok
  decode := readResult error ok
  floats := resultFloats error ok
  lawful := by
    intro parse output
    cases output with
    | ok output =>
        rw [resultFloats, ← ok.lawful]
        simp [writeResult, readResult]
    | error output =>
        rw [resultFloats, ← error.lawful]
        simp [writeResult, readResult]

end Codec

------------------------------------------------------------
-- Fields
------------------------------------------------------------

/-
  The fields of an object, under their names. A maker takes
  the values of the fields one after the other.
-/
structure Fields (α : Type) where
  names : List String
  write : α → List (String × Json)
  read : (ℚ → ℚ) → (String → Option Json) → Option α
  floats : α → List F64
  Maker : Type → Type
  make : ∀ {ρ : Type}, Maker ρ → α → ρ
  names_write : ∀ value, (write value).map Prod.fst = names
  lawful : ∀ parse value find,
    (∀ field ∈ write value, find field.1 = some field.2) →
    (read parse find = some value ↔
      ∀ x ∈ floats value, Exact parse x)

namespace Fields

variable {α β : Type}

def nil : Fields Unit where
  names := []
  write := fun _ => []
  read := fun _ _ => some ()
  floats := fun _ => []
  Maker := fun ρ => ρ
  make := fun result _ => result
  names_write := fun _ => rfl
  lawful := by
    intro parse value find _
    simp

/- Read one field; an absent one may stand for a value. -/
def readField
    (missing : Option α)
    (codec : Codec α)
    (parse : ℚ → ℚ) :
    Option Json → Option α
| none => missing
| some json => codec.decode parse json

/- One field in front of others. -/
def fieldOr
    (missing : Option α)
    (name : String)
    (codec : Codec α)
    (rest : Fields β) :
    Fields (α × β) where
  names := name :: rest.names
  write := fun values =>
    (name, codec.encode values.1) :: rest.write values.2
  read := fun parse find =>
    (readField missing codec parse (find name)).bind
      fun value =>
        (rest.read parse find).map (value, ·)
  floats := fun values =>
    codec.floats values.1 ++ rest.floats values.2
  Maker := fun ρ => α → rest.Maker ρ
  make := fun maker values =>
    rest.make (maker values.1) values.2
  names_write := by
    intro values
    rw [List.map_cons, rest.names_write]
  lawful := by
    intro parse values find hFind
    rw [List.forall_mem_cons] at hFind
    rw [List.forall_mem_append, ← codec.lawful,
      ← rest.lawful parse values.2 find hFind.2, hFind.1]
    rcases values with ⟨value, others⟩
    simp [readField, Option.bind_eq_some_iff]

def field
    (name : String)
    (codec : Codec α)
    (rest : Fields β) :
    Fields (α × β) :=
  fieldOr none name codec rest

/- An optional value may also be absent. -/
def optional
    (name : String)
    (codec : Codec α)
    (hNotNull : codec.NotNull)
    (rest : Fields β) :
    Fields (Option α × β) :=
  fieldOr (some none) name (codec.option hNotNull) rest

/- A field with a value to take when it is absent. -/
def defaulted
    (name : String)
    (codec : Codec α)
    (default : α)
    (rest : Fields β) :
    Fields (α × β) :=
  fieldOr (some default) name codec rest

/- Different names find the fields that are written. -/
theorem lookup_of_mem
    {fields : List (String × Json)}
    (hNames : (fields.map Prod.fst).Nodup) :
    ∀ field ∈ fields,
      fields.lookup field.1 = some field.2 := by
  induction fields with
  | nil => simp
  | cons head rest ih =>
      rw [List.map_cons, List.nodup_cons] at hNames
      intro field hMem
      rcases head with ⟨name, json⟩
      rcases List.mem_cons.mp hMem with hHead | hRest
      · subst hHead
        exact List.lookup_cons_self
      · have hOther : field.1 ≠ name := by
          intro hSame
          apply hNames.1
          rw [← hSame]
          exact List.mem_map.mpr ⟨field, hRest, rfl⟩
        rw [List.lookup_cons, beq_false_of_ne hOther]
        exact ih hNames.2 field hRest

end Fields

namespace Codec

variable {α β : Type}

/- An object with these fields. -/
def object
    (fields : Fields α)
    (hNames : fields.names.Nodup) :
    Codec α where
  encode := fun values => .object (fields.write values)
  decode := fun parse json =>
    json.asObject.bind fun written =>
      fields.read parse fun name => written.lookup name
  floats := fields.floats
  lawful := by
    intro parse values
    have hFind :
        ∀ field ∈ fields.write values,
          (fields.write values).lookup field.1 =
            some field.2 := by
      apply Fields.lookup_of_mem
      rw [fields.names_write]
      exact hNames
    exact fields.lawful parse values
      (fun name => (fields.write values).lookup name) hFind

/- A structure is written as the object of its fields. -/
def struct
    (fields : Fields β)
    (maker : fields.Maker α)
    (view : α → β)
    (hView : ∀ value, fields.make maker (view value) = value)
    (hMake : ∀ values, view (fields.make maker values) = values)
    (hNames : fields.names.Nodup) :
    Codec α where
  encode := fun value =>
    (object fields hNames).encode (view value)
  decode := fun parse json =>
    ((object fields hNames).decode parse json).map
      (fields.make maker)
  floats := fun value =>
    (object fields hNames).floats (view value)
  lawful := by
    intro parse value
    have hObject :=
      (object fields hNames).lawful parse (view value)
    rw [← hObject]
    rw [Option.map_eq_some_iff]
    constructor
    · intro hRead
      rcases hRead with ⟨values, hValues, hMade⟩
      rw [hValues, ← hMade, hMake]
    · intro hRead
      exact ⟨view value, hRead, hView value⟩

theorem notNull_struct
    {fields : Fields β}
    {maker : fields.Maker α}
    {view : α → β}
    {hView : ∀ value, fields.make maker (view value) = value}
    {hMake : ∀ values,
      view (fields.make maker values) = values}
    {hNames : fields.names.Nodup} :
    (struct fields maker view hView hMake hNames).NotNull := by
  intro parse value _ hNull
  cases hNull

------------------------------------------------------------
-- Tagged Values
------------------------------------------------------------

/- A variant: its name, what it carries, and the floats. -/
structure Variant where
  tag : String
  payload : Json
  floats : List F64

def Variant.of
    (tag : String)
    (codec : Codec α)
    (carried : α) :
    Variant where
  tag := tag
  payload := codec.encode carried
  floats := codec.floats carried

/- Variants are written with their name beside them. -/
def tagged
    (view : α → Variant)
    (read : (ℚ → ℚ) → Json → String → Option α)
    (hLaw : ∀ parse value,
      read parse (view value).payload (view value).tag =
          some value ↔
        ∀ x ∈ (view value).floats, Exact parse x) :
    Codec α where
  encode := fun value =>
    .object
      [("type", .string (view value).tag),
        ("payload", (view value).payload)]
  decode := fun parse json =>
    ((json.get "type").bind Json.asStr).bind fun tag =>
      (json.get "payload").bind fun payload =>
        read parse payload tag
  floats := fun value => (view value).floats
  lawful := hLaw

/- A variant is read back when what it carries is. -/
theorem map_decode
    (codec : Codec α)
    {parse : ℚ → ℚ}
    {build : α → β}
    (hBuild : build.Injective)
    (value : α) :
    (codec.decode parse (codec.encode value)).map build =
        some (build value) ↔
      ∀ x ∈ codec.floats value, Exact parse x := by
  rw [← codec.lawful, Option.map_eq_some_iff]
  constructor
  · intro hRead
    rcases hRead with ⟨other, hOther, hSame⟩
    rw [hOther, hBuild hSame]
  · intro hRead
    exact ⟨value, hRead, rfl⟩

end Codec
end RainEngine
