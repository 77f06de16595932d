import RainEngine.Serde.Records

/-
  This file defines how values are read from texts that must
  not be nested too deeply, and the codec of skill manifests.

  Key definitions include:
    * `Codec.readText`
    * `Codec.Survives`
    * `Codec.resourcePolicy`
    * `Codec.skillManifest`

  Key theorems include:
    * `Codec.readText_encode_iff`
-/

namespace RainEngine
namespace Codec

------------------------------------------------------------
-- Texts
------------------------------------------------------------

section Texts

variable {α : Type}

/- Read a value from a text of a limited nesting. -/
def readText
    (codec : Codec α)
    (parse : ℚ → ℚ)
    (limit : Nat)
    (text : Json) :
    Except String α :=
  if text.depth ≤ limit then
    match codec.decode parse text with
    | none => .error "invalid value"
    | some value => .ok value
  else .error "recursion limit exceeded"

/- The floats are read as themselves, the nesting is allowed. -/
structure Survives
    (codec : Codec α)
    (parse : ℚ → ℚ)
    (limit : Nat)
    (value : α) : Prop where
  exact : codec.ExactOn parse value
  nested : (codec.encode value).depth ≤ limit

instance
    (codec : Codec α)
    (parse : ℚ → ℚ)
    (limit : Nat) :
    DecidablePred (codec.Survives parse limit) := fun value =>
  decidable_of_iff
    (codec.ExactOn parse value ∧
      (codec.encode value).depth ≤ limit)
    ⟨fun h => ⟨h.1, h.2⟩, fun h => ⟨h.exact, h.nested⟩⟩

/- A value is read from its own text if it survives. -/
theorem readText_encode_iff
    {codec : Codec α}
    {parse : ℚ → ℚ}
    {limit : Nat}
    {value : α} :
    codec.readText parse limit (codec.encode value) =
        .ok value ↔
      codec.Survives parse limit value := by
  have hLaw := codec.lawful parse value
  unfold readText
  constructor
  · intro hRead
    by_cases hNested :
        (codec.encode value).depth ≤ limit
    · rw [if_pos hNested] at hRead
      cases hDecode : codec.decode parse
          (codec.encode value) with
      | none =>
          rw [hDecode] at hRead
          cases hRead
      | some other =>
          rw [hDecode] at hRead
          cases hRead
          exact ⟨hLaw.mp hDecode, hNested⟩
    · rw [if_neg hNested] at hRead
      cases hRead
  · intro hSurvives
    rw [if_pos hSurvives.nested,
      hLaw.mpr hSurvives.exact]

end Texts

------------------------------------------------------------
-- Skill Manifests
------------------------------------------------------------

def keyValueRead : Codec (List String × Unit) :=
  object
    (.field "namespaces" (list string) .nil)
    (List.pairwise_singleton _ _)

def httpOutbound : Codec (List String × Unit) :=
  object
    (.field "allow_hosts" (list string) .nil)
    (List.pairwise_singleton _ _)

/- A capability that carries nothing is written as its name. -/
def writeCapability : SkillCapability → Json
| .keyValueRead namespaces =>
    .object
      [("type", .string "KeyValueRead"),
        ("payload", keyValueRead.encode (namespaces, ()))]
| .httpOutbound allowHosts =>
    .object
      [("type", .string "HttpOutbound"),
        ("payload", httpOutbound.encode (allowHosts, ()))]
| .structuredLog =>
    .object [("type", .string "StructuredLog")]

def readCapability (json : Json) : Option SkillCapability :=
  ((json.get "type").bind Json.asStr).bind fun tag =>
    match tag with
    | "KeyValueRead" =>
        ((json.get "payload").bind
          (keyValueRead.decode id)).map fun fields =>
            .keyValueRead fields.1
    | "HttpOutbound" =>
        ((json.get "payload").bind
          (httpOutbound.decode id)).map fun fields =>
            .httpOutbound fields.1
    | "StructuredLog" => some .structuredLog
    | _ => none

theorem readCapability_writeCapability
    (capability : SkillCapability) :
    readCapability (writeCapability capability) =
      some capability := by
  cases capability with
  | keyValueRead namespaces =>
      have hRead := (keyValueRead.lawful id
        (namespaces, ())).mpr (by
          simp [keyValueRead, object, Fields.field,
            Fields.fieldOr, Fields.nil, list, string, plain])
      change (keyValueRead.decode id
        (keyValueRead.encode (namespaces, ()))).map _ = _
      rw [hRead]
      rfl
  | httpOutbound allowHosts =>
      have hRead := (httpOutbound.lawful id
        (allowHosts, ())).mpr (by
          simp [httpOutbound, object, Fields.field,
            Fields.fieldOr, Fields.nil, list, string, plain])
      change (httpOutbound.decode id
        (httpOutbound.encode (allowHosts, ()))).map _ = _
      rw [hRead]
      rfl
  | structuredLog => rfl

def skillCapability : Codec SkillCapability :=
  plain writeCapability readCapability
    readCapability_writeCapability

def resourcePolicy : Codec ResourcePolicy :=
  struct
    (.field "timeout_ms" nat <|
      .field "max_memory_bytes" nat <|
      .optional "max_fuel" nat notNull_nat <|
      .defaulted "priority_class" int 0 <|
      .defaulted "retry_policy" retryPolicy
        RetryPolicy.default <|
      .defaulted "dry_run_supported" bool false .nil)
    ResourcePolicy.mk
    (fun value =>
      (value.timeoutMs, value.maxMemoryBytes, value.maxFuel,
        value.priorityClass, value.retryPolicy,
        value.dryRunSupported, ()))
    (fun _ => rfl) (fun _ => rfl) (by decide)

def skillManifest : Codec SkillManifest :=
  struct
    (.field "name" string <|
      .field "description" string <|
      .field "input_schema" value <|
      .field "required_scopes" (list string) <|
      .field "capability_grants" (list skillCapability) <|
      .field "resource_policy" resourcePolicy <|
      .field "approval_required" bool <|
      .defaulted "circuit_breaker_threshold" float
        (.finite (1 / 2)) .nil)
    SkillManifest.mk
    (fun value =>
      (value.name, value.description, value.inputSchema,
        value.requiredScopes, value.capabilityGrants,
        value.resourcePolicy, value.approvalRequired,
        value.circuitBreakerThreshold, ()))
    (fun _ => rfl) (fun _ => rfl) (by decide)

end Codec
end RainEngine
