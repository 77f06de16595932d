import RainEngine.Kernel.Contents
import RainEngine.Runtime.Bootstrap

/-
  This file models the requests that start runs, and is about
  the engine policy and the provider configuration a run is
  started with. The settings of a server that is built do not
  begin with the defaults of its configuration.

  Key definitions include:
    * `RuntimeState.effectivePolicy`
    * `RuntimeState.effectiveProvider`
    * `RuntimeState.handle`
    * `RuntimeState.after`
    * `intendedPolicy`

  Key theorems include:
    * `after_settings`
    * `policy_in_force_iff`
    * `configured_limits_replaced`
-/

namespace RainEngine.Runtime

------------------------------------------------------------
-- Requests
------------------------------------------------------------

structure WebhookIngressRequest where
  sessionId : String
  payload : Json
  attachments : List MultimodalPayload := []
  grantedScopes : List String := []
  idempotencyKey : Option String := none
  provider : Option ProviderRequestConfig := none
  policyOverride : Option EnginePolicy := none

structure ApprovalIngressRequest where
  sessionId : String
  resumeToken : String
  decision : ApprovalDecision
  metadata : Json := .null
  grantedScopes : List String := []
  provider : Option ProviderRequestConfig := none
  policyOverride : Option EnginePolicy := none

structure EventIngressRequest where
  sessionId : String
  payload : Json
  attachments : List MultimodalPayload := []
  grantedScopes : List String := []
  idempotencyKey : Option String := none
  provider : Option ProviderRequestConfig := none
  policyOverride : Option EnginePolicy := none

structure HumanInputIngressRequest where
  sessionId : String
  content : String
  attachments : List MultimodalPayload := []
  grantedScopes : List String := []
  idempotencyKey : Option String := none
  provider : Option ProviderRequestConfig := none
  policyOverride : Option EnginePolicy := none

structure ScheduledWakeIngressRequest where
  sessionId : String
  wakeId : String
  dueAt : SystemTime
  reason : String
  grantedScopes : List String := []
  provider : Option ProviderRequestConfig := none
  policyOverride : Option EnginePolicy := none

structure DelegationResultIngressRequest where
  sessionId : String
  correlationId : String
  payload : Json
  metadata : Json := .null
  grantedScopes : List String := []
  provider : Option ProviderRequestConfig := none
  policyOverride : Option EnginePolicy := none

/- The routes that start runs, with what they have parsed. -/
inductive IngressCall where
  | webhook (source : String) (request : WebhookIngressRequest)
  | externalEvent (source : String)
      (request : EventIngressRequest)
  | humanInput (actorId : String)
      (request : HumanInputIngressRequest)
  | systemObservation (source : String)
      (request : EventIngressRequest)
  | scheduledWake (request : ScheduledWakeIngressRequest)
  | approval (request : ApprovalIngressRequest)
  | delegationResult (request : DelegationResultIngressRequest)

def IngressCall.policyOverride :
    IngressCall → Option EnginePolicy
| .webhook _ request => request.policyOverride
| .externalEvent _ request => request.policyOverride
| .humanInput _ request => request.policyOverride
| .systemObservation _ request => request.policyOverride
| .scheduledWake request => request.policyOverride
| .approval request => request.policyOverride
| .delegationResult request => request.policyOverride

def IngressCall.provider :
    IngressCall → Option ProviderRequestConfig
| .webhook _ request => request.provider
| .externalEvent _ request => request.provider
| .humanInput _ request => request.provider
| .systemObservation _ request => request.provider
| .scheduledWake request => request.provider
| .approval request => request.provider
| .delegationResult request => request.provider

inductive IngressError where
  | blob (message : String)
deriving DecidableEq

/- Where attachments are put, and the ids they are given. -/
structure BlobStore where
  newId : Nat → String
  put : String → MultimodalPayload → Except String AttachmentRef

def AttachmentRef.inline
    (attachmentId : String)
    (payload : MultimodalPayload) :
    AttachmentRef where
  attachmentId := attachmentId
  mimeType := payload.mimeType
  fileName := payload.fileName
  sizeBytes := payload.data.length
  content := .inline payload.data

def materializeAttachments
    (blobs : BlobStore)
    (maxInlineAttachmentBytes : Nat) :
    List MultimodalPayload →
      Except IngressError (List AttachmentRef)
| [] => pure []
| payload :: rest => do
    let attachmentId := blobs.newId rest.length
    let attachment ←
      if payload.data.length ≤ maxInlineAttachmentBytes then
        pure (AttachmentRef.inline attachmentId payload)
      else (blobs.put attachmentId payload).mapError .blob
    let attachments ←
      materializeAttachments blobs maxInlineAttachmentBytes
        rest
    pure (attachment :: attachments)

------------------------------------------------------------
-- Handlers
------------------------------------------------------------

structure IngressEventEnvelope where
  sessionId : String
  trigger : AgentTrigger
  grantedScopes : List String
  idempotencyKey : Option String
  policy : Option EnginePolicy
  provider : Option ProviderRequestConfig

/- A run that is started here, or by a worker of the stream. -/
inductive Started where
  | run (request : ProcessRequest)
  | published (envelope : IngressEventEnvelope)

def Started.policy : Started → Option EnginePolicy
| .run request => some request.policy
| .published envelope => envelope.policy

def Started.provider : Started → Option ProviderRequestConfig
| .run request => some request.provider
| .published envelope => envelope.provider

namespace RuntimeState

def effectivePolicy
    (state : RuntimeState)
    (overridePolicy : Option EnginePolicy) :
    EnginePolicy :=
  match state.config.allowPolicyOverrides, overridePolicy with
  | true, some policy => policy
  | _, _ => state.settings.enginePolicy

def effectiveProvider
    (state : RuntimeState)
    (overrideProvider : Option ProviderRequestConfig) :
    ProviderRequestConfig :=
  match state.config.allowProviderOverrides,
      overrideProvider with
  | true, some provider => provider
  | _, _ => state.settings.providerConfig

def runProcessRequest
    (state : RuntimeState)
    (request : ProcessRequest) :
    Started :=
  let request :=
    if request.grantedScopes.isEmpty then
      { request with grantedScopes := state.defaultScopes }
    else request
  if state.config.asyncIngress && state.ingress then
    .published
      { sessionId := request.sessionId
        trigger := request.trigger
        grantedScopes := request.grantedScopes
        idempotencyKey := request.idempotencyKey
        policy := some request.policy
        provider := some request.provider }
  else .run request

/-
  What the handlers have in common. They take the policy and
  the provider in force, put the attachments where they belong
  and start a run for the trigger.
-/
def accept
    (state : RuntimeState)
    (blobs : BlobStore)
    (sessionId : String)
    (grantedScopes : List String)
    (idempotencyKey : Option String)
    (policyOverride : Option EnginePolicy)
    (provider : Option ProviderRequestConfig)
    (payloads : List MultimodalPayload)
    (trigger : List AttachmentRef → AgentTrigger) :
    Except IngressError Started := do
  let policy := state.effectivePolicy policyOverride
  let provider := state.effectiveProvider provider
  let attachments ←
    materializeAttachments blobs
      policy.maxInlineAttachmentBytes payloads
  pure
    (state.runProcessRequest
      { sessionId := sessionId
        trigger := trigger attachments
        grantedScopes := grantedScopes
        idempotencyKey := idempotencyKey
        policy := policy
        provider := provider })

def handleWebhook
    (state : RuntimeState)
    (blobs : BlobStore)
    (source : String)
    (request : WebhookIngressRequest) :
    Except IngressError Started :=
  state.accept blobs request.sessionId request.grantedScopes
    request.idempotencyKey request.policyOverride
    request.provider request.attachments
    (.webhook source request.payload)

def handleExternalEvent
    (state : RuntimeState)
    (blobs : BlobStore)
    (source : String)
    (request : EventIngressRequest) :
    Except IngressError Started :=
  state.accept blobs request.sessionId request.grantedScopes
    request.idempotencyKey request.policyOverride
    request.provider request.attachments
    (.externalEvent source request.payload)

def handleHumanInput
    (state : RuntimeState)
    (blobs : BlobStore)
    (actorId : String)
    (request : HumanInputIngressRequest) :
    Except IngressError Started :=
  state.accept blobs request.sessionId request.grantedScopes
    request.idempotencyKey request.policyOverride
    request.provider request.attachments
    (.humanInput actorId request.content)

def handleSystemObservation
    (state : RuntimeState)
    (blobs : BlobStore)
    (source : String)
    (request : EventIngressRequest) :
    Except IngressError Started :=
  state.accept blobs request.sessionId request.grantedScopes
    request.idempotencyKey request.policyOverride
    request.provider request.attachments
    (.systemObservation source request.payload)

def handleScheduledWake
    (state : RuntimeState)
    (blobs : BlobStore)
    (request : ScheduledWakeIngressRequest) :
    Except IngressError Started :=
  state.accept blobs request.sessionId request.grantedScopes
    none request.policyOverride request.provider []
    fun _ =>
      .scheduledWake request.wakeId request.dueAt
        request.reason

def handleApproval
    (state : RuntimeState)
    (blobs : BlobStore)
    (request : ApprovalIngressRequest) :
    Except IngressError Started :=
  state.accept blobs request.sessionId request.grantedScopes
    none request.policyOverride request.provider []
    fun _ =>
      .approval request.resumeToken request.decision
        request.metadata

def handleDelegationResult
    (state : RuntimeState)
    (blobs : BlobStore)
    (request : DelegationResultIngressRequest) :
    Except IngressError Started :=
  state.accept blobs request.sessionId request.grantedScopes
    none request.policyOverride request.provider []
    fun _ =>
      .delegationResult request.correlationId request.payload
        request.metadata

def handle
    (state : RuntimeState)
    (blobs : BlobStore) :
    IngressCall → Except IngressError Started
| .webhook source request =>
    state.handleWebhook blobs source request
| .externalEvent source request =>
    state.handleExternalEvent blobs source request
| .humanInput actorId request =>
    state.handleHumanInput blobs actorId request
| .systemObservation source request =>
    state.handleSystemObservation blobs source request
| .scheduledWake request =>
    state.handleScheduledWake blobs request
| .approval request => state.handleApproval blobs request
| .delegationResult request =>
    state.handleDelegationResult blobs request

end RuntimeState

/- What the capabilities say of the defaults. -/
structure RuntimeCapabilities where
  providerKind : String
  defaultModel : Option String
  defaultScopes : List String
  defaultPolicy : EnginePolicy

def RuntimeState.handleCapabilities
    (state : RuntimeState) :
    RuntimeCapabilities where
  providerKind := state.providerKind
  defaultModel := state.config.defaultProvider.model
  defaultScopes := state.defaultScopes
  defaultPolicy := state.config.defaultPolicy

------------------------------------------------------------
-- Runs Of A Server
------------------------------------------------------------

/- What a server is asked to do. -/
inductive ServerCall where
  | updateSettings (update : RuntimeSettingsUpdateRequest)
  | ingress (call : IngressCall)

/- Requests that start runs leave the settings alone. -/
def RuntimeState.call
    (state : RuntimeState) :
    ServerCall → RuntimeState
| .updateSettings update =>
    { state with settings := state.settings.apply update }
| .ingress _ => state

def RuntimeState.after
    (state : RuntimeState)
    (calls : List ServerCall) :
    RuntimeState :=
  calls.foldl RuntimeState.call state

def ServerCall.update :
    ServerCall → Option RuntimeSettingsUpdateRequest
| .updateSettings update => some update
| .ingress _ => none

/- What the last update has set that set it at all. -/
def lastUpdate
    {α : Type}
    (setting : RuntimeSettingsUpdateRequest → Option α)
    (calls : List ServerCall) :
    Option α :=
  ((calls.filterMap ServerCall.update).filterMap
    setting).getLast?

/-
  A setting as it is meant: the value of the request, if it may
  have one, or that of the last update, or the default.
-/
def intended
    {α : Type}
    (allowed : Bool)
    (requested : Option α)
    (updated : Option α)
    (default : α) :
    α :=
  ((if allowed then requested else none).or updated).getD
    default

def intendedPolicy
    (config : RuntimeServerConfig)
    (calls : List ServerCall)
    (call : IngressCall) :
    EnginePolicy :=
  intended config.allowPolicyOverrides call.policyOverride
    (lastUpdate (·.enginePolicy) calls) config.defaultPolicy

def intendedProvider
    (config : RuntimeServerConfig)
    (calls : List ServerCall)
    (call : IngressCall) :
    ProviderRequestConfig :=
  intended config.allowProviderOverrides call.provider
    (lastUpdate (·.providerConfig) calls)
    config.defaultProvider

/-
  The default is not asked for, or it is the built-in one.
-/
def DefaultUnused
    {α : Type}
    (allowed : Bool)
    (requested : Option α)
    (updated : Option α)
    (default builtIn : α) :
    Prop :=
  allowed = true ∧ requested.isSome ∨ updated.isSome ∨
    default = builtIn

section Settings

variable {state : RuntimeState}
variable {blobs : BlobStore}
variable {calls : List ServerCall}
variable {call : IngressCall}
variable {started : Started}
variable {α : Type}
variable {allowed : Bool}
variable {requested updated : Option α}
variable {default builtIn : α}

/- Calls change no more than the settings. -/
theorem after_config :
    (state.after calls).config = state.config := by
  unfold RuntimeState.after
  induction calls generalizing state with
  | nil => rfl
  | cons call rest ih =>
      rw [List.foldl_cons, ih]
      cases call <;> rfl

/-
  After a run of calls a setting has the value of the last
  update that set it, or the one it began with.
-/
theorem after_settings
    {setting : RuntimeSettingsUpdateRequest → Option α}
    {view : RuntimeMutableSettings → α}
    (hApply : ∀ settings update,
      view (settings.apply update) =
        (setting update).getD (view settings)) :
    view (state.after calls).settings =
      (lastUpdate setting calls).getD
        (view state.settings) := by
  unfold RuntimeState.after lastUpdate
  induction calls generalizing state with
  | nil => rfl
  | cons call rest ih =>
      rw [List.foldl_cons, ih]
      cases call with
      | ingress call => rfl
      | updateSettings update =>
          simp only [RuntimeState.call, hApply,
            List.filterMap_cons, ServerCall.update]
          cases setting update with
          | none => rfl
          | some value =>
              rw [List.getLast?_cons]
              cases (List.filterMap setting
                (rest.filterMap
                  ServerCall.update)).getLast? <;> rfl

/- The setting of a request, after a run of calls. -/
theorem effectivePolicy_after :
    (state.after calls).effectivePolicy call.policyOverride =
      intended state.config.allowPolicyOverrides
        call.policyOverride
        (lastUpdate (·.enginePolicy) calls)
        state.settings.enginePolicy := by
  have hSettings := @after_settings state calls _
    (·.enginePolicy) (·.enginePolicy) fun _ _ => rfl
  unfold RuntimeState.effectivePolicy intended
  rw [after_config, hSettings]
  cases state.config.allowPolicyOverrides <;>
    cases call.policyOverride <;> rfl

theorem effectiveProvider_after :
    (state.after calls).effectiveProvider call.provider =
      intended state.config.allowProviderOverrides
        call.provider
        (lastUpdate (·.providerConfig) calls)
        state.settings.providerConfig := by
  have hSettings := @after_settings state calls _
    (·.providerConfig) (·.providerConfig) fun _ _ => rfl
  unfold RuntimeState.effectiveProvider intended
  rw [after_config, hSettings]
  cases state.config.allowProviderOverrides <;>
    cases call.provider <;> rfl

/- Another default is seen only if the default is used. -/
theorem intended_eq_iff :
    intended allowed requested updated builtIn =
        intended allowed requested updated default ↔
      DefaultUnused allowed requested updated default
        builtIn := by
  unfold intended DefaultUnused
  cases allowed <;> cases requested <;> cases updated <;>
    simp [eq_comm]

theorem runProcessRequest_policy
    {request : ProcessRequest} :
    (state.runProcessRequest request).policy =
        some request.policy ∧
      (state.runProcessRequest request).provider =
        some request.provider := by
  unfold RuntimeState.runProcessRequest
  constructor <;> split <;> split <;> rfl

theorem accept_started
    {sessionId : String}
    {scopes : List String}
    {key : Option String}
    {policyOverride : Option EnginePolicy}
    {provider : Option ProviderRequestConfig}
    {payloads : List MultimodalPayload}
    {trigger : List AttachmentRef → AgentTrigger}
    (hAccept :
      state.accept blobs sessionId scopes key policyOverride
        provider payloads trigger = .ok started) :
    started.policy =
        some (state.effectivePolicy policyOverride) ∧
      started.provider =
        some (state.effectiveProvider provider) := by
  unfold RuntimeState.accept at hAccept
  obtain ⟨attachments, hStarted⟩ := of_bind_eq_ok hAccept
  rw [← Except.ok.inj hStarted]
  exact runProcessRequest_policy

/- Every route starts a run with the settings in force. -/
theorem handle_started
    (hHandle : state.handle blobs call = .ok started) :
    started.policy =
        some (state.effectivePolicy call.policyOverride) ∧
      started.provider =
        some (state.effectiveProvider call.provider) := by
  cases call <;> exact accept_started hHandle

end Settings

------------------------------------------------------------
-- The Policy In Force
------------------------------------------------------------

/-
  The policy and the provider that a run is started with are
  the intended ones, and their defaults those that the
  capabilities tell, exactly if no default is used that is not
  the built-in one.
-/
theorem policy_in_force_iff
    (resources : Resources)
    (config : RuntimeBootstrapConfig)
    (state : RuntimeState)
    (ingress : Bool)
    (blobs : BlobStore)
    (calls : List ServerCall)
    (call : IngressCall)
    (started : Started)
    (hBuild : buildRuntimeState resources config = .ok state)
    (hHandle :
      ({ state with ingress := ingress }.after calls).handle
        blobs call = .ok started) :
    (started.policy =
          some (intendedPolicy config.server calls call) ∧
        started.provider =
          some (intendedProvider config.server calls call) ∧
        state.handleCapabilities.defaultPolicy =
          config.server.defaultPolicy ∧
        state.handleCapabilities.defaultModel =
          config.server.defaultProvider.model) ↔
      DefaultUnused config.server.allowPolicyOverrides
          call.policyOverride
          (lastUpdate (·.enginePolicy) calls)
          config.server.defaultPolicy .default ∧
        DefaultUnused config.server.allowProviderOverrides
          call.provider
          (lastUpdate (·.providerConfig) calls)
          config.server.defaultProvider {} := by
  have hState := buildRuntimeState_eq_ok hBuild
  subst hState
  rcases handle_started hHandle with ⟨hPolicy, hProvider⟩
  rw [hPolicy, hProvider, effectivePolicy_after,
    effectiveProvider_after, Option.some.injEq,
    Option.some.injEq, ← intended_eq_iff, ← intended_eq_iff]
  constructor
  · intro hAll
    exact ⟨hAll.1, hAll.2.1⟩
  · intro hBoth
    exact ⟨hBoth.1, hBoth.2, rfl, rfl⟩

------------------------------------------------------------
-- A Server With Limits
------------------------------------------------------------

namespace Sample

def resources : Resources where
  connectSqlite := fun _ => .ok ()
  connectPostgres := fun _ => .ok ()
  createDirectory := fun _ => .ok ()
  openCache := fun _ => .ok ()

def blobs : BlobStore where
  newId := fun _ => "attachment"
  put := fun _ _ => .error "no store"

/- The operator allows a run three steps. -/
def limited : EnginePolicy :=
  { EnginePolicy.default with maxSteps := 3 }

def limitedConfig : RuntimeBootstrapConfig where
  server :=
    { defaultPolicy := limited
      allowPolicyOverrides := false
      allowProviderOverrides := false
      defaultProvider := {} }
  store := .inMemory
  blob := .inMemory
  provider := .mock

def limitedState : RuntimeState :=
  { RuntimeState.new limitedConfig.server
      (RuntimeMutableSettings.defaults .default {}) with
    providerKind := "mock" }

def question : IngressCall :=
  .humanInput "actor"
    { sessionId := "session", content := "question" }

end Sample

/- Once the limits are set again, they are in force. -/
theorem policy_in_force_update :
    ∃ started,
      (Sample.limitedState.after
          [.updateSettings
            { enginePolicy := some Sample.limited }]).handle
        Sample.blobs Sample.question = .ok started ∧
      started.policy = some Sample.limited := by
  refine ⟨_, rfl, ?_⟩
  exact ((policy_in_force_iff Sample.resources
    Sample.limitedConfig Sample.limitedState false
    Sample.blobs
    [.updateSettings { enginePolicy := some Sample.limited }]
    Sample.question _ rfl rfl).mpr
      ⟨.inr (.inl rfl), .inr (.inr rfl)⟩).1

/-
  Runs are started with the built-in policy, although the
  operator has configured another one, which the capabilities
  tell.
-/
theorem configured_limits_replaced :
    ¬(∀ resources config state blobs calls call started,
      buildRuntimeState resources config = .ok state →
        (state.after calls).handle blobs call = .ok started →
          started.policy =
            some (intendedPolicy config.server calls
              call)) := by
  intro hInForce
  have hPolicy := hInForce Sample.resources
    Sample.limitedConfig Sample.limitedState Sample.blobs []
    Sample.question _ rfl rfl
  have hSteps := congrArg (Option.map (·.maxSteps)) hPolicy
  revert hSteps
  decide

end RainEngine.Runtime
