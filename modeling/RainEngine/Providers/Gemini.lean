import RainEngine.Effects.Program
import RainEngine.Providers.Prompts
import RainEngine.Providers.Truncation

/-
  This file defines how one provider asks its API for the next
  action: it maps the messages, looks for content it has had
  cached or has it cached, and sends either the whole request
  or the last message with a reference to a cache. What the
  API sees is compared with the request that uses no cache.

  What libraries print, encode and parse is a parameter.

  Key definitions include:
    * `mapProviderContents`
    * `generateAction`
    * `Api.machine`
    * `seen`
    * `uncached`
    * `CacheFits`

  Key theorems include:
    * `seen_cached_iff`
    * `seen_created_iff`
    * `safe_generateAction`
    * `calls_mean_same_iff`
-/

namespace RainEngine
namespace Gemini

open Effects

------------------------------------------------------------
-- Requests And Responses
------------------------------------------------------------

structure StructuredAction where
  kind : String
  content : Option String

/- What the standard and other libraries compute. -/
structure Library where
  json : Json → String
  base64 : List UInt8 → String
  isBlank : String → Bool
  readStructured : String → Option StructuredAction

structure GeminiConfig where
  defaultRequest : ProviderRequestConfig
  systemInstruction : String
  providerName : String

structure InlineData where
  mimeType : String
  data : String

structure FileData where
  mimeType : String
  fileUri : String

structure FunctionCall where
  id : Option String
  name : String
  args : Option Json

structure FunctionResponse where
  name : String
  response : Json

structure GeminiPart where
  text : Option String := none
  inlineData : Option InlineData := none
  fileData : Option FileData := none
  functionCall : Option FunctionCall := none
  functionResponse : Option FunctionResponse := none

structure GeminiContent where
  role : String
  parts : List GeminiPart

structure GeminiToolDefinition where
  name : String
  description : String
  parameters : Json

structure GeminiToolEnvelope where
  functionDeclarations : List GeminiToolDefinition

/- The body of a request for a cache, as the API stores it. -/
structure CachedContent where
  model : String
  systemInstruction : String
  tools : List GeminiToolEnvelope
  contents : List GeminiContent

/- The body of a request for content. -/
inductive RequestBody where
  | cached
      (cachedContent : String)
      (contents : List GeminiContent)
  | plain
      (systemInstruction : String)
      (contents : List GeminiContent)
      (tools : List GeminiToolEnvelope)

structure GeneratePart where
  text : Option String
  functionCall : Option FunctionCall
  thought : Option Bool

structure GenerateCandidate where
  content : Option (List GeneratePart)
  finishReason : Option String

structure UsageMetadata where
  promptTokenCount : Nat
  candidatesTokenCount : Nat

structure GenerateContentResponse where
  candidates : List GenerateCandidate
  usageMetadata : Option UsageMetadata

/- The requests to the API. -/
inductive ApiOp where
  | countTokens (model : String) (contents : List GeminiContent)
  | createCachedContent (body : CachedContent)
  | generateContent (model : String) (body : RequestBody)

/- A response, or the error the status or the body is read as. -/
abbrev ApiAnswer : ApiOp → Type
| .countTokens _ _ => Except ProviderError Nat
| .createCachedContent _ => Except ProviderError String
| .generateContent _ _ =>
    Except ProviderError GenerateContentResponse

/- How a call ends without a decision. -/
inductive Fault where
  | error (error : ProviderError)
  | panicked

abbrev GeminiM : Type → Type :=
  Program ApiOp ApiAnswer Fault

------------------------------------------------------------
-- Mapping Messages
------------------------------------------------------------

section Mapping

variable (library : Library)

def mapAttachmentPart (attachment : AttachmentRef) : GeminiPart :=
  match attachment.content with
  | .inline data =>
      { inlineData := some
          { mimeType := attachment.mimeType
            data := library.base64 data } }
  | .blob descriptor =>
      { fileData := some
          { mimeType := attachment.mimeType
            fileUri := descriptor.uri } }

/- The output of a tool as it is sent; slicing it may panic. -/
def sentOutput : Except SkillFailure Json → Option Json
| .error failure =>
    some (.object [("error", .string failure.message)])
| .ok value => truncateToolOutput value

def mapProviderPartWithRole
    (role : ProviderRole) :
    ProviderContentPart → Option (List GeminiPart)
| .json value =>
    if role = .assistant then
      match readCalls value with
      | some calls =>
          some (calls.map fun call =>
            { functionCall := some
                { id := some call.callId
                  name := call.name
                  args := some call.args } })
      | none => some [{ text := some (library.json value) }]
    else some [{ text := some (library.json value) }]
| .text text => some [{ text := some text }]
| .inlineData payload =>
    some
      [{ inlineData := some
          { mimeType := payload.mimeType
            data := library.base64 payload.data } }]
| .attachment attachment =>
    some [mapAttachmentPart library attachment]
| .toolResult result =>
    (sentOutput result.output).map fun output =>
      [{ functionResponse := some
          { name := result.skillName
            response := .object
              [("call_id", .string result.callId),
                ("output", output)] } }]

def ProviderRole.geminiName : ProviderRole → String
| .system => "user"
| .user => "user"
| .assistant => "model"
| .tool => "user"

def mapProviderMessage
    (message : ProviderMessage) :
    Option GeminiContent :=
  (message.parts.mapM
    (mapProviderPartWithRole library message.role)).map
      fun parts =>
        { role := ProviderRole.geminiName message.role
          parts := parts.flatten }

def mapProviderContents
    (contents : List ProviderMessage) :
    Option (List GeminiContent) :=
  contents.mapM (mapProviderMessage library)

end Mapping

------------------------------------------------------------
-- Reading Responses
------------------------------------------------------------

def FunctionCall.toPlanned
    (index : Nat)
    (call : FunctionCall) :
    PlannedSkillCall where
  callId := call.id.getD ("gemini-call-" ++ toString index)
  name := call.name
  args := call.args.getD (.object [])

/- Thoughts are left out; a part with a call is a call. -/
def responseAction
    (library : Library)
    (parts : List GeneratePart) :
    AgentAction :=
  let shown := parts.zipIdx.filter fun part =>
    decide (part.1.thought ≠ some true)
  let calls := shown.filterMap fun part =>
    part.1.functionCall.map (·.toPlanned part.2)
  let texts := shown.filterMap fun part =>
    match part.1.functionCall with
    | some _ => none
    | none => part.1.text
  if !calls.isEmpty then .callSkills calls
  else
    let joined := "\n".intercalate texts
    if library.isBlank joined then .yieldWith none
    else
      match library.readStructured joined with
      | some structured =>
          if structured.kind = "yield" then
            .yieldWith structured.content
          else .respond (structured.content.getD "")
      | none => .respond joined

def invalidResponse (message : String) : Fault :=
  .error
    { kind := .invalidResponse
      message := message
      retryable := false }

def usageRecord
    (config : GeminiConfig)
    (cachedContent : Option String)
    (usage : UsageMetadata) :
    ProviderUsageRecord where
  providerName := config.providerName
  inputTokens := usage.promptTokenCount
  outputTokens := usage.candidatesTokenCount
  estimatedCostUsd :=
    (F64.ofNat
      (usage.promptTokenCount +
        usage.candidatesTokenCount)).div (.finite 1000000)
  cachedContentId := cachedContent

def readResponse
    (library : Library)
    (config : GeminiConfig)
    (cachedContent : Option String)
    (cacheRecord : Option ProviderCacheRecord)
    (response : GenerateContentResponse) :
    GeminiM ProviderDecision :=
  match response.candidates.head? with
  | none =>
      .throw (invalidResponse "provider returned no candidates")
  | some candidate =>
      match candidate.content with
      | none =>
          .throw (invalidResponse
            ("candidate blocked by provider (reason: " ++
              candidate.finishReason.getD "unknown" ++ ")"))
      | some parts =>
          pure
            { action := responseAction library parts
              usage := response.usageMetadata.map
                (usageRecord config cachedContent)
              cache := cacheRecord }

------------------------------------------------------------
-- Generating An Action
------------------------------------------------------------

/- The cache the newest record of this provider names. -/
def latestCachedContentId
    (config : GeminiConfig)
    (request : ProviderRequest) :
    Option String :=
  request.context.history.findSomeRev? fun record =>
    match record with
    | .providerCache cache =>
        if cache.providerName = config.providerName then
          some cache.cachedContentId
        else none
    | _ => none

def requestModel
    (config : GeminiConfig)
    (input : ProviderRequest) :
    Option String :=
  input.config.model.or config.defaultRequest.model

def requestTools
    (input : ProviderRequest) :
    List GeminiToolEnvelope :=
  [{ functionDeclarations :=
      input.availableSkills.map fun skill =>
        { name := skill.manifest.name
          description := skill.manifest.description
          parameters := skill.manifest.inputSchema } }]

/- All messages but the last, unless there is only one. -/
def stableContents
    (contents : List GeminiContent) :
    List GeminiContent :=
  if 1 < contents.length then contents.dropLast else contents

def createCachedContent
    (config : GeminiConfig)
    (model : String)
    (tools : List GeminiToolEnvelope)
    (stable : List GeminiContent)
    (tokenCount : Nat) :
    GeminiM ProviderCacheRecord := do
  let answer ← Program.perform (ApiOp.createCachedContent
    { model := "models/" ++ model
      systemInstruction := config.systemInstruction
      tools := tools
      contents := stable })
  match answer with
  | .error error => .throw (.error error)
  | .ok name =>
      pure
        { providerName := config.providerName
          cachedContentId := name
          tokenCount := tokenCount }

/- Many tokens are worth a cache. -/
def cacheLarge
    (config : GeminiConfig)
    (input : ProviderRequest)
    (model : String)
    (contents : List GeminiContent)
    (tokenCount : Nat) :
    GeminiM (Option String × Option ProviderCacheRecord) := do
  if input.policy.cacheThresholdTokens < tokenCount then
    let created ← createCachedContent config model
      (requestTools input) (stableContents contents) tokenCount
    pure (some created.cachedContentId, some created)
  else pure (none, none)

/- The cache to refer to, and its record if it is new. -/
def chooseCache
    (config : GeminiConfig)
    (input : ProviderRequest)
    (model : String)
    (contents : List GeminiContent) :
    GeminiM (Option String × Option ProviderCacheRecord) :=
  match latestCachedContentId config input with
  | some existing => pure (some existing, none)
  | none => do
      let answer ←
        Program.perform (ApiOp.countTokens model contents)
      match answer with
      | .error error => .throw (.error error)
      | .ok tokenCount =>
          cacheLarge config input model contents tokenCount

/- With a cache only the last message is sent. -/
def requestBody
    (config : GeminiConfig)
    (input : ProviderRequest)
    (contents : List GeminiContent) :
    Option String → RequestBody
| some cachedContent =>
    .cached cachedContent contents.getLast?.toList
| none =>
    .plain config.systemInstruction contents
      (requestTools input)

def generateContent
    (library : Library)
    (config : GeminiConfig)
    (input : ProviderRequest)
    (model : String)
    (contents : List GeminiContent)
    (cachedContent : Option String)
    (cacheRecord : Option ProviderCacheRecord) :
    GeminiM ProviderDecision := do
  let answer ← Program.perform
    (ApiOp.generateContent model
      (requestBody config input contents cachedContent))
  match answer with
  | .error error => .throw (.error error)
  | .ok response =>
      readResponse library config cachedContent cacheRecord
        response

def generateAction
    (library : Library)
    (config : GeminiConfig)
    (input : ProviderRequest) :
    GeminiM ProviderDecision :=
  match requestModel config input with
  | none =>
      .throw (.error
        { kind := .configuration
          message := "no model configured for Gemini provider"
          retryable := false })
  | some model =>
      match mapProviderContents library input.contents with
      | none => .throw .panicked
      | some contents => do
          let (cachedContent, cacheRecord) ←
            chooseCache config input model contents
          generateContent library config input model contents
            cachedContent cacheRecord

------------------------------------------------------------
-- The API
------------------------------------------------------------

/- The cached contents by their names. -/
abbrev Caches : Type :=
  String → Option CachedContent

/- How many tokens the API counts. -/
structure Api where
  tokens : String → List GeminiContent → Nat

/-
  A request may fail at any time. The API counts tokens in a
  fixed way and keeps what it is asked to cache.
-/
def Api.machine (api : Api) : Machine ApiOp ApiAnswer Caches where
  allowed _ op a :=
    match op, a with
    | .countTokens model contents, .ok count =>
        count = api.tokens model contents
    | _, _ => True
  next caches op a :=
    match op, a with
    | .createCachedContent body, .ok name =>
        Function.update caches name (some body)
    | _, _ => caches

/- What a model is shown of a session. -/
structure Conversation where
  model : String
  systemInstruction : String
  tools : List GeminiToolEnvelope
  contents : List GeminiContent

/-
  What a request shows: a cache must be there and be of the
  model, and its content comes before what is sent.
-/
def seen
    (caches : Caches)
    (model : String) :
    RequestBody → Option Conversation
| .cached cachedContent contents =>
    match caches cachedContent with
    | some stored =>
        if stored.model = "models/" ++ model then
          some
            { model := model
              systemInstruction := stored.systemInstruction
              tools := stored.tools
              contents := stored.contents ++ contents }
        else none
    | none => none
| .plain systemInstruction contents tools =>
    some
      { model := model
        systemInstruction := systemInstruction
        tools := tools
        contents := contents }

/- What a request that is sent as a whole shows. -/
def plainConversation
    (config : GeminiConfig)
    (input : ProviderRequest)
    (model : String)
    (contents : List GeminiContent) :
    Conversation where
  model := model
  systemInstruction := config.systemInstruction
  tools := requestTools input
  contents := contents

/- What the request would show without any cache. -/
def uncached
    (library : Library)
    (config : GeminiConfig)
    (input : ProviderRequest) :
    Option Conversation :=
  (requestModel config input).bind fun model =>
    (mapProviderContents library input.contents).map
      (plainConversation config input model)

/- The cache holds all of the conversation but its end. -/
structure CachedContent.Begins
    (stored : CachedContent)
    (conversation : Conversation) : Prop where
  model : stored.model = "models/" ++ conversation.model
  systemInstruction :
    stored.systemInstruction = conversation.systemInstruction
  tools : stored.tools = conversation.tools
  contents :
    stored.contents = conversation.contents.dropLast

/-
  The cache the newest record names begins the conversation
  of this call; or there is no record, and a single message
  is not worth a cache.
-/
def CacheFits
    (library : Library)
    (api : Api)
    (config : GeminiConfig)
    (input : ProviderRequest)
    (caches : Caches) : Prop :=
  ∀ conversation,
    uncached library config input = some conversation →
      match latestCachedContentId config input with
      | some existing =>
          ∃ stored, caches existing = some stored ∧
            stored.Begins conversation
      | none =>
          conversation.contents.length = 1 →
            api.tokens conversation.model
                conversation.contents ≤
              input.policy.cacheThresholdTokens

------------------------------------------------------------
-- What The API Sees
------------------------------------------------------------

section Seen

variable {library : Library}
variable {api : Api}
variable {config : GeminiConfig}
variable {input : ProviderRequest}
variable {caches : Caches}
variable {conversation : Conversation}

/- The last message completes all messages before it. -/
theorem append_getLast_iff
    {α : Type}
    {early whole : List α} :
    early ++ whole.getLast?.toList = whole ↔
      early = whole.dropLast := by
  by_cases hEmpty : whole = []
  · simp [hEmpty]
  · have hWhole :
        whole.dropLast ++ whole.getLast?.toList = whole := by
      rw [List.getLast?_eq_some_getLast hEmpty,
        Option.toList_some]
      exact List.dropLast_append_getLast hEmpty
    constructor
    · intro hSame
      have hBoth :
          early ++ whole.getLast?.toList =
            whole.dropLast ++ whole.getLast?.toList :=
        hSame.trans hWhole.symm
      exact List.append_cancel_right hBoth
    · intro hSame
      rw [hSame, hWhole]

/- A cache completed by the last message, or not. -/
theorem seen_cached_iff
    {name : String} :
    seen caches conversation.model
        (.cached name conversation.contents.getLast?.toList) =
          some conversation ↔
      ∃ stored, caches name = some stored ∧
        stored.Begins conversation := by
  unfold seen
  dsimp only
  cases hStored : caches name with
  | none => simp
  | some stored =>
      dsimp only
      by_cases hModel :
          stored.model = "models/" ++ conversation.model
      · rw [if_pos hModel]
        constructor
        · intro hSeen
          have hSame := Option.some.inj hSeen
          refine ⟨stored, rfl, hModel, ?_, ?_, ?_⟩
          · rw [← hSame]
          · rw [← hSame]
          · apply append_getLast_iff.mp
            exact congrArg Conversation.contents hSame
        · intro hFits
          obtain ⟨other, hOther, hBegins⟩ := hFits
          cases hOther
          rw [hBegins.systemInstruction, hBegins.tools,
            append_getLast_iff.mpr hBegins.contents]
      · rw [if_neg hModel]
        constructor
        · intro hSeen
          cases hSeen
        · intro hFits
          obtain ⟨other, hOther, hBegins⟩ := hFits
          cases hOther
          exact absurd hBegins.model hModel

theorem stableContents_eq_dropLast
    {contents : List GeminiContent} :
    stableContents contents = contents.dropLast ↔
      contents.length ≠ 1 := by
  unfold stableContents
  by_cases hSeveral : 1 < contents.length
  · rw [if_pos hSeveral]
    simp only [true_iff]
    omega
  · rw [if_neg hSeveral]
    constructor
    · intro hSame hOne
      have hLength := congrArg List.length hSame
      rw [List.length_dropLast] at hLength
      omega
    · intro hOther
      have hEmpty : contents = [] := by
        apply List.eq_nil_of_length_eq_zero
        omega
      rw [hEmpty]
      rfl

/-
  What a call sends shows the same as a request without a
  cache exactly if the cache fits.
-/
def Sends
    (library : Library)
    (api : Api)
    (config : GeminiConfig)
    (input : ProviderRequest)
    (before caches : Caches) :
    ApiOp → Prop
| .generateContent model body =>
    seen caches model body = uncached library config input ↔
      CacheFits library api config input before
| _ => True

theorem uncached_eq
    {model : String}
    {contents : List GeminiContent}
    (hModel : requestModel config input = some model)
    (hContents :
      mapProviderContents library input.contents =
        some contents) :
    uncached library config input =
      some (plainConversation config input model contents) := by
  unfold uncached
  rw [hModel, hContents]
  rfl

theorem cacheFits_existing
    {existing : String}
    (hPlain :
      uncached library config input = some conversation)
    (hExisting :
      latestCachedContentId config input = some existing) :
    CacheFits library api config input caches ↔
      ∃ stored, caches existing = some stored ∧
        stored.Begins conversation := by
  unfold CacheFits
  rw [hPlain, hExisting]
  simp

theorem cacheFits_none
    (hPlain :
      uncached library config input = some conversation)
    (hExisting :
      latestCachedContentId config input = none) :
    CacheFits library api config input caches ↔
      (conversation.contents.length = 1 →
        api.tokens conversation.model conversation.contents ≤
          input.policy.cacheThresholdTokens) := by
  unfold CacheFits
  rw [hPlain, hExisting]
  simp

/- A cache that has just been filled begins what it is for. -/
theorem seen_created_iff
    {model name : String}
    {contents : List GeminiContent} :
    seen
        (Function.update caches name
          (some
            { model := "models/" ++ model
              systemInstruction := config.systemInstruction
              tools := requestTools input
              contents := stableContents contents }))
        model
        (requestBody config input contents (some name)) =
          some
            (plainConversation config input model contents) ↔
      contents.length ≠ 1 := by
  rw [← stableContents_eq_dropLast]
  have hSeen := @seen_cached_iff
    (Function.update caches name
      (some
        { model := "models/" ++ model
          systemInstruction := config.systemInstruction
          tools := requestTools input
          contents := stableContents contents }))
    (plainConversation config input model contents) name
  refine hSeen.trans ?_
  rw [Function.update_self]
  constructor
  · intro hFits
    obtain ⟨stored, hStored, hBegins⟩ := hFits
    cases hStored
    exact hBegins.contents
  · intro hSame
    exact ⟨_, rfl, rfl, rfl, rfl, hSame⟩

/- Nothing is asked for after the content. -/
theorem uses_readResponse
    {cachedContent : Option String}
    {cacheRecord : Option ProviderCacheRecord}
    {response : GenerateContentResponse} :
    Uses (fun _ => False) (fun _ => True)
      (readResponse library config cachedContent cacheRecord
        response) := by
  unfold readResponse
  split
  · trivial
  · split
    · trivial
    · trivial

/- A call sends its request once the cache is chosen. -/
theorem safe_generateContent
    {P : Caches → ApiOp → Prop}
    {model : String}
    {contents : List GeminiContent}
    {cachedContent : Option String}
    {cacheRecord : Option ProviderCacheRecord}
    (hSend : P caches
      (.generateContent model
        (requestBody config input contents cachedContent))) :
    Safe api.machine P (fun _ _ => True) (fun _ _ => True)
      (generateContent library config input model contents
        cachedContent cacheRecord)
      caches := by
  refine ⟨hSend, ?_⟩
  intro answer _
  cases answer with
  | error error => trivial
  | ok response =>
      apply Safe.mono (fun _ _ h => h)
        (fun _ _ _ => trivial) (fun _ _ _ => trivial)
      exact Uses.safe (I := fun _ => True)
        (@uses_readResponse library config cachedContent
          cacheRecord response)
        (fun _ _ _ hNever => hNever.elim)
        (fun _ _ _ _ _ _ => trivial) trivial

/- A single message is not to be cached. -/
theorem safe_cacheLarge
    {model : String}
    {contents : List GeminiContent}
    (hPlain : uncached library config input =
      some (plainConversation config input model contents))
    (hFits : CacheFits library api config input caches ↔
      (contents.length = 1 →
        api.tokens model contents ≤
          input.policy.cacheThresholdTokens)) :
    Safe api.machine
      (Sends library api config input caches)
      (fun _ _ => True) (fun _ _ => True)
      (do
        let (cachedContent, cacheRecord) ←
          cacheLarge config input model contents
            (api.tokens model contents)
        generateContent library config input model contents
          cachedContent cacheRecord)
      caches := by
  unfold cacheLarge
  by_cases hMany : input.policy.cacheThresholdTokens <
      api.tokens model contents
  · rw [if_pos hMany]
    refine ⟨trivial, ?_⟩
    intro answer _
    cases answer with
    | error error => trivial
    | ok name =>
        apply safe_generateContent
        change _ ↔ _
        rw [hPlain, hFits]
        refine seen_created_iff.trans ?_
        constructor
        · intro hOther hOne
          exact absurd hOne hOther
        · intro hSmall hOne
          have hLe := hSmall hOne
          omega
  · rw [if_neg hMany]
    apply safe_generateContent
    change _ ↔ _
    rw [hPlain, hFits]
    constructor
    · intro _ _
      omega
    · intro _
      rfl

/- Every request for content of a call is as it should be. -/
theorem safe_generateAction :
    Safe api.machine
      (Sends library api config input caches)
      (fun _ _ => True) (fun _ _ => True)
      (generateAction library config input) caches := by
  unfold generateAction
  cases hModel : requestModel config input with
  | none => trivial
  | some model =>
      cases hContents :
          mapProviderContents library input.contents with
      | none => trivial
      | some contents =>
          have hPlain := uncached_eq hModel hContents
          dsimp only
          unfold chooseCache
          cases hExisting :
              latestCachedContentId config input with
          | some existing =>
              apply safe_generateContent
              change _ ↔ _
              rw [hPlain, cacheFits_existing hPlain hExisting]
              exact @seen_cached_iff caches
                (plainConversation config input model contents)
                existing
          | none =>
              have hFits := @cacheFits_none _ api _ _ caches _
                hPlain hExisting
              refine ⟨trivial, ?_⟩
              intro answer hAnswer
              cases answer with
              | error error => trivial
              | ok tokenCount =>
                  have hCount :
                      tokenCount = api.tokens model contents :=
                    hAnswer
                  subst hCount
                  exact safe_cacheLarge hPlain hFits

end Seen

------------------------------------------------------------
-- Calls Of A Session
------------------------------------------------------------

/- One call as it happened. -/
structure Call where
  config : GeminiConfig
  input : ProviderRequest
  before : Caches
  steps : List (Step ApiOp ApiAnswer Caches)
  after : Caches
  result : Option (Except Fault ProviderDecision)

/- Calls one after the other, with inputs of their own. -/
inductive Calls (library : Library) (api : Api) :
    Caches → List Call → Caches → Prop where
  | nil {caches : Caches} :
      Calls library api caches [] caches
  | cons {call : Call} {rest : List Call} {caches : Caches}
      (hCall : Exec api.machine call.before
        (generateAction library call.config call.input)
        call.steps call.after call.result)
      (hRest : Calls library api call.after rest caches) :
      Calls library api call.before (call :: rest) caches

/-
  In every sequence of calls a request for content means what
  it would mean without a cache exactly if its cache fits.
-/
theorem calls_mean_same_iff
    {library : Library}
    {api : Api}
    {calls : List Call}
    {caches caches' : Caches}
    (hCalls : Calls library api caches calls caches') :
    ∀ call ∈ calls, ∀ s ∈ call.steps, ∀ model body,
      s.op = .generateContent model body →
        (seen s.before model body =
            uncached library call.config call.input ↔
          CacheFits library api call.config call.input
            call.before) := by
  induction hCalls with
  | nil =>
      intro call hMem
      cases hMem
  | @cons first rest caches' hCall hRest ih =>
      intro call hMem
      cases List.mem_cons.mp hMem with
      | inl hFirst =>
          subst hFirst
          intro s hStep model body hOp
          have hSends := safe_generateAction.steps hCall s hStep
          rw [hOp] at hSends
          exact hSends
      | inr hLater => exact ih call hLater

end Gemini

namespace Sample

open Effects Gemini

def printed : Library where
  json _ := ""
  base64 _ := ""
  isBlank text := text.isEmpty
  readStructured _ := none

/- An API that counts many tokens. -/
def countsMany : Api where
  tokens _ _ := 40000

def geminiConfig : GeminiConfig where
  defaultRequest := { model := some "flash" }
  systemInstruction := "Be brief."
  providerName := "gemini"

/- The request of a step that has seen these records. -/
def requestAfter
    (history : List SessionRecord) :
    ProviderRequest where
  trigger := .message "user" "hello" []
  context :=
    (triggerContext message "0"
      { sessionId := "session"
        records := history
        latestOutcome := none }).toSnapshot 0
  availableSkills := []
  config := {}
  policy := EnginePolicy.default
  contents :=
    buildProviderContents rendering
      (.message "user" "hello" []) history none

/- The API caches what it is asked to and says hello. -/
def apiAnswer : (op : ApiOp) → Option (ApiAnswer op)
| .countTokens _ _ => some (.ok 40000)
| .createCachedContent _ => some (.ok "cachedContents/1")
| .generateContent _ _ =>
    some (.ok
      { candidates :=
          [{ content := some
              [{ text := some "hello"
                 functionCall := none
                 thought := none }]
             finishReason := none }]
        usageMetadata := none })

def callFrom
    (caches : Caches)
    (history : List SessionRecord) :
    Call :=
  let ran :=
    (generateAction printed geminiConfig
      (requestAfter history)).run countsMany.machine
        (fun _ => apiAnswer) caches
  { config := geminiConfig
    input := requestAfter history
    before := caches
    steps := ran.1
    after := ran.2.1
    result := ran.2.2 }

/- A session with one message. -/
def oneMessage : List SessionRecord :=
  [.trigger
    { triggerId := "0"
      sessionId := "session"
      idempotencyKey := none
      trigger := .message "user" "hello" []
      intent := none }]

/- The same after an answer whose context was cached. -/
def oneAnswer : List SessionRecord :=
  oneMessage ++
    [.providerCache
        { providerName := "gemini"
          cachedContentId := "cachedContents/1"
          tokenCount := 40000 },
      .modelDecision { step := 0, action := .respond "hello" }]

def firstCall : Call :=
  callFrom (fun _ => none) oneMessage

def secondCall : Call :=
  callFrom firstCall.after oneAnswer

theorem callFrom_exec
    {caches : Caches}
    {history : List SessionRecord} :
    Exec countsMany.machine (callFrom caches history).before
      (generateAction printed
        (callFrom caches history).config
        (callFrom caches history).input)
      (callFrom caches history).steps
      (callFrom caches history).after
      (callFrom caches history).result := by
  apply Program.run_exec
  intro caches op a hAnswer
  cases op <;> cases hAnswer <;> trivial

theorem firstCall_calls :
    Calls printed countsMany (fun _ => none) [firstCall]
      firstCall.after :=
  @Calls.cons _ _ firstCall _ _ callFrom_exec .nil

theorem secondCall_calls :
    Calls printed countsMany (fun _ => none)
      [firstCall, secondCall] secondCall.after :=
  @Calls.cons _ _ firstCall _ _ callFrom_exec
    (@Calls.cons _ _ secondCall _ _ callFrom_exec .nil)

/- How many messages the request of a step shows. -/
def messagesShown
    (s : Step ApiOp ApiAnswer Caches) :
    Option Nat :=
  match s.op with
  | .generateContent model body =>
      (seen s.before model body).map (·.contents.length)
  | _ => none

end Sample

namespace Gemini

/- The call that has its content cached means the same. -/
theorem first_call_means_same :
    ∃ s ∈ Sample.firstCall.steps, ∃ model body,
      s.op = .generateContent model body ∧
        seen s.before model body =
          uncached Sample.printed Sample.geminiConfig
            (Sample.requestAfter Sample.oneMessage) := by
  have hShown :
      (Sample.firstCall.steps.any fun s =>
        decide (Sample.messagesShown s = some 2)) = true := by
    decide +kernel
  obtain ⟨s, hStep, hTwo⟩ := List.any_eq_true.mp hShown
  have hTwo := of_decide_eq_true hTwo
  unfold Sample.messagesShown at hTwo
  split at hTwo
  · rename_i model body hOp
    refine ⟨s, hStep, model, body, hOp, ?_⟩
    apply (calls_mean_same_iff Sample.firstCall_calls
      Sample.firstCall (List.mem_singleton_self _) s hStep model
      body hOp).mpr
    intro conversation hPlain
    cases hPlain
    intro hOne
    cases hOne
  · cases hTwo

/-
  The next call refers to that cache and sends its last
  message only: the answer in between is not seen.
-/
theorem second_call_drops_answer :
    ¬(∀ (library : Library) (api : Api) (calls : List Call)
      (caches caches' : Caches),
      Calls library api caches calls caches' →
        ∀ call ∈ calls, ∀ s ∈ call.steps, ∀ model body,
          s.op = .generateContent model body →
            seen s.before model body =
              uncached library call.config call.input) := by
  intro hAll
  have hShown :
      (Sample.secondCall.steps.any fun s =>
        decide (Sample.messagesShown s = some 2)) = true := by
    decide +kernel
  have hPlain :
      (uncached Sample.printed Sample.secondCall.config
        Sample.secondCall.input).map
          (·.contents.length) = some 3 := by
    decide +kernel
  obtain ⟨s, hStep, hTwo⟩ := List.any_eq_true.mp hShown
  have hTwo := of_decide_eq_true hTwo
  unfold Sample.messagesShown at hTwo
  split at hTwo
  · rename_i model body hOp
    have hSame := hAll _ _ _ _ _ Sample.secondCall_calls
      Sample.secondCall (by simp) s hStep model body hOp
    rw [hSame, hPlain] at hTwo
    cases hTwo
  · cases hTwo

end Gemini
end RainEngine
