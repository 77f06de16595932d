import RainEngine.Providers.Prompts
import RainEngine.Serde.Structs
import RainEngine.Sessions.Answers
import RainEngine.Stores.Records

/-
  This file defines how the second provider asks its API for
  the next action and makes a decision of what the API says.
  Prompts show the newest decisions again as messages of the
  assistant: read as a message of the API, such a message
  stands for the same decision, unless its arguments are lost
  in print or its content looks like a structured action.

  What libraries print and parse is a parameter.

  Key definitions include:
    * `generateAction`
    * `chooseAction`
    * `ChoiceMessage.read`
    * `shown`
    * `Stable`
    * `ShowsNewest`

  Key theorems include:
    * `shown_callSkills`
    * `shown_respond`
    * `mapToChatMessages_newest`
    * `run_decisions_read_back`
-/

namespace RainEngine
namespace OpenAi

open Effects
open Derived

------------------------------------------------------------
-- Configuration
------------------------------------------------------------

/-
  What the standard and other libraries compute: a text is
  parsed as a value, or scanned as a tree whose objects have
  the fields as they come, and a tree that is no value of a
  type is refused with a message.
-/
structure Library where
  printing : Printing
  isBlank : String → Bool
  parse : String → Except String Json
  scan : String → Except String Json
  mismatch : Json → String

structure OpenAiCompatibleConfig where
  baseUrl : String
  apiKey : String
  defaultRequest : ProviderRequestConfig
  systemPrompt : String

def OpenAiCompatibleConfig.validated
    (library : Library)
    (config : OpenAiCompatibleConfig) :
    Except String Unit :=
  if library.isBlank config.baseUrl then
    .error "base_url must not be empty"
  else if library.isBlank config.apiKey then
    .error "api_key must not be empty"
  else .ok ()

/- A provider has a configuration that has been validated. -/
structure OpenAiCompatibleProvider (library : Library) where
  config : OpenAiCompatibleConfig
  isValid : config.validated library = .ok ()

def OpenAiCompatibleProvider.new
    (library : Library)
    (config : OpenAiCompatibleConfig) :
    Except String (OpenAiCompatibleProvider library) :=
  match hValid : config.validated library with
  | .ok () => .ok { config := config, isValid := hValid }
  | .error error => .error error

------------------------------------------------------------
-- Requests
------------------------------------------------------------

structure ToolFunction where
  name : String
  description : String
  parameters : Json

structure ToolDefinition where
  kind : String
  function : ToolFunction

structure ChatCompletionRequest where
  model : String
  temperature : Option F64
  maxTokens : Option Nat
  messages : List ChatMessage
  tools : List ToolDefinition
  toolChoice : Option Json

/- A request that is posted with the key of the API. -/
structure Post where
  url : String
  bearer : String
  body : ChatCompletionRequest

/- A response, and its text if it can be read. -/
structure Response where
  status : Nat
  text : Except String String

def toolDefinition (skill : SkillDefinition) : ToolDefinition where
  kind := "function"
  function :=
    { name := skill.manifest.name
      description := skill.manifest.description
      parameters := skill.manifest.inputSchema }

/- A text without the slashes it ends in. -/
def trimSlashes (text : String) : String :=
  String.ofList
    (text.toList.reverse.dropWhile (· = '/')).reverse

def chatCompletionRequest
    (library : Library)
    (config : OpenAiCompatibleConfig)
    (model : String)
    (input : ProviderRequest) :
    ChatCompletionRequest where
  model := model
  temperature :=
    input.config.temperature.or
      config.defaultRequest.temperature
  maxTokens :=
    input.config.maxTokens.or config.defaultRequest.maxTokens
  messages :=
    mapToChatMessages library.printing input.contents
      config.systemPrompt
  tools := input.availableSkills.map toolDefinition
  toolChoice := some (.string "auto")

------------------------------------------------------------
-- Responses
------------------------------------------------------------

structure ToolCallFunction where
  name : String
  arguments : String

structure ToolCall where
  id : Option String
  function : ToolCallFunction

structure ChoiceMessage where
  content : Option String
  toolCalls : Option (List ToolCall)

structure Choice where
  message : ChoiceMessage

structure ChatCompletionResponse where
  choices : List Choice

structure StructuredAction where
  kind : String
  content : Option String

def ToolCallFunction.read
    (json : Json) :
    Option ToolCallFunction :=
  match structFields ["name", "arguments"] json with
  | some [name, arguments] => do
      let name ← requiredField Json.asStr name
      let arguments ← requiredField Json.asStr arguments
      pure { name := name, arguments := arguments }
  | _ => none

def ToolCall.read (json : Json) : Option ToolCall :=
  match structFields ["id", "function"] json with
  | some [callId, function] => do
      let callId ← optionalField Json.asStr callId
      let function ← requiredField ToolCallFunction.read function
      pure { id := callId, function := function }
  | _ => none

def ChoiceMessage.read (json : Json) : Option ChoiceMessage :=
  match structFields ["content", "tool_calls"] json with
  | some [content, toolCalls] => do
      let content ← optionalField Json.asStr content
      let toolCalls ←
        optionalField (listOf ToolCall.read) toolCalls
      pure { content := content, toolCalls := toolCalls }
  | _ => none

def Choice.read (json : Json) : Option Choice :=
  match structFields ["message"] json with
  | some [message] => do
      let message ← requiredField ChoiceMessage.read message
      pure { message := message }
  | _ => none

def ChatCompletionResponse.read
    (json : Json) :
    Option ChatCompletionResponse :=
  match structFields ["choices"] json with
  | some [choices] => do
      let choices ← requiredField (listOf Choice.read) choices
      pure { choices := choices }
  | _ => none

def StructuredAction.read
    (json : Json) :
    Option StructuredAction :=
  match structFields ["type", "content"] json with
  | some [kind, content] => do
      let kind ← requiredField Json.asStr kind
      let content ← optionalField Json.asStr content
      pure { kind := kind, content := content }
  | _ => none

/- An action may be given as an array, too. -/
example :
    (StructuredAction.read
        (.array [.string "respond", .string "hi"])).bind
      (·.content) = some "hi" := by
  decide

/- Read a text as a value of a type. -/
def Library.read
    {α : Type}
    (library : Library)
    (take : Json → Option α)
    (text : String) :
    Except String α := do
  let tree ← library.scan text
  match take tree with
  | some value => .ok value
  | none => .error (library.mismatch tree)

def classifyStatus
    (status : Nat)
    (body : String) :
    ProviderError :=
  if status = 429 then
    { kind := .rateLimited, message := body, retryable := true }
  else if status = 400 then
    { kind := .invalidResponse
      message := body
      retryable := false }
  else if status = 401 ∨ status = 403 then
    { kind := .configuration
      message := body
      retryable := false }
  else if 500 ≤ status ∧ status < 600 then
    { kind := .transport, message := body, retryable := true }
  else
    { kind := .internal, message := body, retryable := false }

def invalid (message : String) : ProviderError where
  kind := .invalidResponse
  message := message
  retryable := false

def transport (message : String) : ProviderError where
  kind := .transport
  message := message
  retryable := true

------------------------------------------------------------
-- Decisions
------------------------------------------------------------

/- Plan the call a message asks for at an index. -/
def planCall
    (library : Library)
    (index : Nat)
    (call : ToolCall) :
    Except ProviderError PlannedSkillCall :=
  match library.parse call.function.arguments with
  | .error error =>
      .error (invalid
        ("invalid tool call arguments: " ++ error))
  | .ok args =>
      .ok
        { callId :=
            call.id.getD ("openai-call-" ++ toString index)
          name := call.function.name
          args := args }

/- Plan calls in order, until one cannot be planned. -/
def planCalls
    (library : Library) :
    Nat → List ToolCall →
      Except ProviderError (List PlannedSkillCall)
| _, [] => .ok []
| index, call :: rest => do
    let planned ← planCall library index call
    let others ← planCalls library (index + 1) rest
    .ok (planned :: others)

/- The action that the content of a message stands for. -/
def contentAction
    (library : Library)
    (content : String) :
    AgentAction :=
  match library.read StructuredAction.read content with
  | .ok structured =>
      if structured.kind = "yield" then
        .yieldWith structured.content
      else .respond (structured.content.getD "")
  | .error _ =>
      if library.isBlank content then .yieldWith none
      else .respond content

/- The action that a message of the API stands for. -/
def chooseAction
    (library : Library)
    (message : ChoiceMessage) :
    Except ProviderError AgentAction :=
  match message.toolCalls with
  | some (call :: rest) => do
      let planned ← planCalls library 0 (call :: rest)
      .ok (.callSkills planned)
  | _ => .ok (contentAction library (message.content.getD ""))

/- Make a decision of a response of the API. -/
def readResponse
    (library : Library)
    (response : Response) :
    Except ProviderError ProviderDecision :=
  if 200 ≤ response.status ∧ response.status < 300 then
    match response.text with
    | .error error => .error (transport error)
    | .ok text =>
        match library.read ChatCompletionResponse.read text with
        | .error error =>
            .error (invalid
              ("error decoding response body: " ++ error))
        | .ok body =>
            match body.choices.head? with
            | none =>
                .error (invalid "provider returned no choices")
            | some choice => do
                let action ←
                  chooseAction library choice.message
                .ok { action := action }
  else
    .error (classifyStatus response.status
      (response.text.toOption.getD ""))

/- Ask the API, which sends a response or fails to. -/
def generateAction
    {library : Library}
    (provider : OpenAiCompatibleProvider library)
    (send : Post → Except String Response)
    (input : ProviderRequest) :
    Except ProviderError ProviderDecision :=
  let config := provider.config
  match input.config.model.or config.defaultRequest.model with
  | none =>
      .error
        { kind := .configuration
          message := "no model configured for " ++
            "OpenAI-compatible provider"
          retryable := false }
  | some model =>
      let answer := send
        { url := trimSlashes config.baseUrl ++
            "/chat/completions"
          bearer := config.apiKey
          body :=
            chatCompletionRequest library config model input }
      match answer with
      | .error error => .error (transport error)
      | .ok response => readResponse library response

------------------------------------------------------------
-- What Is Shown Of A Decision
------------------------------------------------------------

def toolCallValue (call : ToolCallRequest) : Json :=
  .object
    [("type", .string call.kind),
      ("id", .string call.id),
      ("function", .object
        [("name", .string call.function.name),
          ("arguments", .string call.function.arguments)])]

/- A message as it is written; absent fields are left out. -/
def chatMessageValue (message : ChatMessage) : Json :=
  .object
    (("role", .string message.role) ::
      (message.content.toList.map fun content =>
          ("content", .string content)) ++
        (message.toolCalls.toList.map fun calls =>
            ("tool_calls", .array (calls.map toolCallValue))) ++
          message.toolCallId.toList.map fun callId =>
            ("tool_call_id", .string callId))

/- What a prompt shows of a record in its window. -/
def shown
    (library : Library)
    (rendering : Rendering)
    (history : List SessionRecord)
    (record : SessionRecord) :
    Option ChatMessage :=
  (recordMessage rendering history record).map
    (chatMessage library.printing)

/-
  The arguments are parsed as they are printed, the content
  does not look like a structured action.
-/
def Stable (library : Library) : AgentAction → Prop
| .callSkills calls =>
    ∀ call ∈ calls,
      library.parse (library.printing.json call.args) =
        .ok call.args
| .respond content =>
    library.isBlank content = false ∧
      ∀ structured,
        library.read StructuredAction.read content ≠
          .ok structured
| _ => True

/-
  What is shown of a decision is written as a message the API
  could have sent, for the same decision if it is stable. Of
  a decision to yield nothing is shown.
-/
def ReadsBack
    (library : Library)
    (rendering : Rendering)
    (history : List SessionRecord)
    (record : ModelDecisionRecord) : Prop :=
  match shown library rendering history
      (.modelDecision record) with
  | none => ∃ reason, record.action = .yieldWith reason
  | some message =>
      ∃ reply,
        ChoiceMessage.read (chatMessageValue message) =
            some reply ∧
          (chooseAction library reply = .ok record.action ↔
            Stable library record.action)

/-
  The messages are what a prompt begins with, what it shows
  of the newest records of the history, in their order, and
  what it ends with. All decisions among these records are
  shown so that they can be read back.
-/
structure ShowsNewest
    (library : Library)
    (rendering : Rendering)
    (history : List SessionRecord)
    (messages : List ChatMessage) : Prop where
  between :
    ∃ opening closing,
      messages =
          opening ++
            (recentRecords history).filterMap
              (shown library rendering history) ++ closing ∧
        ∀ message ∈ opening ++ closing,
          message.role ≠ "assistant"
  decisions :
    ∀ record, .modelDecision record ∈ recentRecords history →
      ReadsBack library rendering history record

/- A call with nothing beside what a message can say. -/
def IsSaid (call : PlannedSkillCall) : Prop :=
  call =
    { callId := call.callId
      name := call.name
      args := call.args }

/- The call as a message of the API would ask for it. -/
def repeated
    (library : Library)
    (call : PlannedSkillCall) :
    ToolCall where
  id := some call.callId
  function :=
    { name := call.name
      arguments := library.printing.json call.args }

section Showing

variable {library : Library}
variable {rendering : Rendering}
variable {history : List SessionRecord}
variable {step : Nat}
variable {calls : List PlannedSkillCall}

theorem IsSaid.isReadable
    {call : PlannedSkillCall}
    (hSaid : IsSaid call) :
    call.IsReadable := by
  unfold PlannedSkillCall.IsReadable
  rw [hSaid]
  rfl

/- Calls are shown as calls, under their ids. -/
theorem shown_callSkills
    (hSaid : ∀ call ∈ calls, IsSaid call) :
    shown library rendering history
        (.modelDecision
          { step := step, action := .callSkills calls }) =
      some
        { role := "assistant"
          content := none
          toolCalls := some
            (calls.map (·.toRequest library.printing))
          toolCallId := none } := by
  have hRead :
      readCalls (.array (calls.map PlannedSkillCall.toValue)) =
        some calls := by
    rw [readCalls_toValue,
      if_pos fun call hMem => (hSaid call hMem).isReadable]
    simp only [Json.reread_id, List.map_id']
  unfold shown
  simp [recordMessage, chatMessage, ChatDraft.add, hRead,
    ProviderRole.chatName]

theorem shown_respond
    {content : String} :
    shown library rendering history
        (.modelDecision
          { step := step, action := .respond content }) =
      some
        { role := "assistant"
          content := some content
          toolCalls := none
          toolCallId := none } := by
  simp [shown, recordMessage, chatMessage, ChatDraft.add,
    ChatDraft.line, ProviderRole.chatName]

theorem read_respond
    {content : String} :
    ChoiceMessage.read
        (chatMessageValue
          { role := "assistant"
            content := some content
            toolCalls := none
            toolCallId := none }) =
      some { content := some content, toolCalls := none } :=
  rfl

theorem read_call
    {call : PlannedSkillCall} :
    ToolCall.read
        (toolCallValue (call.toRequest library.printing)) =
      some (repeated library call) :=
  rfl

theorem read_calls :
    ChoiceMessage.read
        (chatMessageValue
          { role := "assistant"
            content := none
            toolCalls := some
              (calls.map (·.toRequest library.printing))
            toolCallId := none }) =
      some
        { content := none
          toolCalls := some (calls.map (repeated library)) } := by
  have hItems :
      listOf ToolCall.read
          (.array
            ((calls.map (·.toRequest library.printing)).map
              toolCallValue)) =
        some (calls.map (repeated library)) := by
    rw [List.map_map]
    exact listOf_map (fun _ => read_call) calls
  have hFields :
      structFields ["content", "tool_calls"]
          (chatMessageValue
            { role := "assistant"
              content := none
              toolCalls := some
                (calls.map (·.toRequest library.printing))
              toolCallId := none }) =
        some
          [none,
            some (.array
              ((calls.map (·.toRequest library.printing)).map
                toolCallValue))] :=
    rfl
  unfold ChoiceMessage.read
  rw [hFields]
  dsimp only [optionalField]
  rw [hItems]
  rfl

/- A call is planned again if its arguments are parsed. -/
theorem planCall_repeated_iff
    (index : Nat)
    {call : PlannedSkillCall}
    (hSaid : IsSaid call) :
    planCall library index (repeated library call) = .ok call ↔
      library.parse (library.printing.json call.args) =
        .ok call.args := by
  unfold planCall repeated
  dsimp only
  cases hParse :
      library.parse (library.printing.json call.args) with
  | error error => simp
  | ok args =>
      simp only [Option.getD_some, Except.ok.injEq]
      constructor
      · intro hSame
        rw [← hSame]
      · intro hSame
        rw [hSame]
        exact hSaid.symm

theorem planCalls_repeated_iff
    (index : Nat)
    (hSaid : ∀ call ∈ calls, IsSaid call) :
    planCalls library index (calls.map (repeated library)) =
        .ok calls ↔
      ∀ call ∈ calls,
        library.parse (library.printing.json call.args) =
          .ok call.args := by
  induction calls generalizing index with
  | nil => simp [planCalls]
  | cons call rest ih =>
      rw [List.forall_mem_cons] at hSaid
      rw [List.forall_mem_cons, ← ih (index + 1) hSaid.2,
        ← planCall_repeated_iff index hSaid.1, List.map_cons,
        planCalls]
      cases planCall library index (repeated library call) with
      | error error => simp [bind, Except.bind]
      | ok planned =>
          cases planCalls library (index + 1)
              (rest.map (repeated library)) with
          | error error => simp [bind, Except.bind]
          | ok others => simp [bind, Except.bind]

theorem chooseAction_calls_iff
    {content : Option String}
    {first : ToolCall}
    {rest : List ToolCall} :
    chooseAction library
          { content := content
            toolCalls := some (first :: rest) } =
        .ok (.callSkills calls) ↔
      planCalls library 0 (first :: rest) = .ok calls := by
  unfold chooseAction
  dsimp only
  cases planCalls library 0 (first :: rest) with
  | error error => simp [bind, Except.bind]
  | ok planned => simp [bind, Except.bind]

/- What a structured action says is shorter than its text. -/
def SaysLess (library : Library) : Prop :=
  ∀ text structured,
    library.read StructuredAction.read text = .ok structured →
      (structured.content.getD "").length < text.length

/- A content is chosen again if it is stable. -/
theorem contentAction_respond_iff
    {content : String}
    (hLess : SaysLess library) :
    contentAction library content = .respond content ↔
      Stable library (.respond content) := by
  unfold contentAction Stable
  cases hRead : library.read StructuredAction.read content with
  | error error =>
      cases hBlank : library.isBlank content with
      | false => simp [hRead, hBlank]
      | true => simp [hBlank]
  | ok structured =>
      have hShort := hLess content structured hRead
      constructor
      · intro hSame
        exfalso
        dsimp only at hSame
        split at hSame
        · cases hSame
        · rw [AgentAction.respond.injEq] at hSame
          rw [hSame] at hShort
          exact lt_irrefl _ hShort
      · intro hStable
        exact absurd hRead (hStable.2 structured)

theorem planCalls_isSaid
    {index : Nat}
    {said : List ToolCall}
    (hPlanned : planCalls library index said = .ok calls) :
    ∀ call ∈ calls, IsSaid call := by
  induction said generalizing index calls with
  | nil =>
      cases hPlanned
      simp
  | cons first rest ih =>
      rw [planCalls] at hPlanned
      cases hCall : planCall library index first with
      | error error =>
          rw [hCall] at hPlanned
          cases hPlanned
      | ok planned =>
          cases hRest : planCalls library (index + 1) rest with
          | error error =>
              rw [hCall, hRest] at hPlanned
              cases hPlanned
          | ok others =>
              rw [hCall, hRest] at hPlanned
              cases hPlanned
              refine List.forall_mem_cons.mpr ⟨?_, ih hRest⟩
              unfold planCall at hCall
              split at hCall
              · cases hCall
              · cases hCall
                rfl

theorem planCalls_cons_ne_nil
    {index : Nat}
    {first : ToolCall}
    {rest : List ToolCall} :
    planCalls library index (first :: rest) ≠ .ok [] := by
  intro hPlanned
  rw [planCalls] at hPlanned
  cases hCall : planCall library index first with
  | error error =>
      rw [hCall] at hPlanned
      cases hPlanned
  | ok planned =>
      cases hRest : planCalls library (index + 1) rest with
      | error error =>
          rw [hCall, hRest] at hPlanned
          cases hPlanned
      | ok others =>
          rw [hCall, hRest] at hPlanned
          cases hPlanned

/- What is shown of a chosen action can be read again. -/
theorem readsBack_of_chosen
    {message : ChoiceMessage}
    {record : ModelDecisionRecord}
    (hLess : SaysLess library)
    (hChosen : chooseAction library message = .ok record.action) :
    ReadsBack library rendering history record := by
  rcases record with ⟨step, action⟩
  have hContent : ∀ content : String,
      contentAction library content = action →
        ReadsBack library rendering history
          { step := step, action := action } := by
    rintro content rfl
    have hRespond : ∀ said,
        ReadsBack library rendering history
          { step := step, action := .respond said } := by
      intro said
      unfold ReadsBack
      rw [shown_respond]
      refine ⟨_, read_respond, ?_⟩
      rw [← contentAction_respond_iff hLess]
      exact ⟨fun hSame => Except.ok.inj hSame,
        fun hSame => congrArg _ hSame⟩
    have hYield : ∀ reason,
        ReadsBack library rendering history
          { step := step, action := .yieldWith reason } :=
      fun reason => ⟨reason, rfl⟩
    unfold contentAction
    split
    · split
      · exact hYield _
      · exact hRespond _
    · split
      · exact hYield _
      · exact hRespond _
  unfold chooseAction at hChosen
  split at hChosen
  · rename_i first rest _
    cases hPlanned : planCalls library 0 (first :: rest) with
    | error error =>
        rw [hPlanned] at hChosen
        cases hChosen
    | ok planned =>
        rw [hPlanned] at hChosen
        cases hChosen
        have hSaid := planCalls_isSaid hPlanned
        unfold ReadsBack
        rw [shown_callSkills hSaid]
        refine ⟨_, read_calls, ?_⟩
        change _ ↔ ∀ call ∈ planned, _
        rw [← planCalls_repeated_iff 0 hSaid]
        cases planned with
        | nil => exact absurd hPlanned planCalls_cons_ne_nil
        | cons call others => exact chooseAction_calls_iff
  · exact hContent _ (Except.ok.inj hChosen)

/- The newest records are shown in their order. -/
theorem mapToChatMessages_newest
    (library : Library)
    (rendering : Rendering)
    (trigger : AgentTrigger)
    (history : List SessionRecord)
    (plan : Option ExecutionPlanRecord)
    (systemPrompt : String) :
    ∃ opening closing,
      mapToChatMessages library.printing
          (buildProviderContents rendering trigger history plan)
          systemPrompt =
        opening ++
          (recentRecords history).filterMap
            (shown library rendering history) ++ closing ∧
      ∀ message ∈ opening ++ closing,
        message.role ≠ "assistant" := by
  have hNotice : ∀ message ∈
      (if maxRecentItems < history.length then
          [{ role := .system
             parts := [.text pagedOutNotice] }]
        else ([] : List ProviderMessage)),
      message.role = .system := by
    intro message hMem
    split at hMem
    · cases List.mem_singleton.mp hMem
      rfl
    · cases hMem
  refine
    ⟨ChatMessage.system systemPrompt ::
      (if maxRecentItems < history.length then
          [{ role := .system
             parts := [.text pagedOutNotice] }]
        else ([] : List ProviderMessage)).map
          (chatMessage library.printing),
      ([({ role := .user
           parts := buildTriggerParts rendering trigger } :
            ProviderMessage)] ++
        (plan.map activePlanMessage).toList).map
          (chatMessage library.printing), ?_, ?_⟩
  · unfold mapToChatMessages buildProviderContents
    dsimp only
    rw [List.map_append, List.map_append, List.map_append,
      List.map_append, List.map_filterMap]
    simp only [List.cons_append, List.append_assoc]
    rfl
  · intro message hMem
    rcases List.mem_append.mp hMem with hOpening | hClosing
    · rcases List.mem_cons.mp hOpening with hSystem | hMessage
      · rw [hSystem]
        exact of_decide_eq_false rfl
      · rcases List.mem_map.mp hMessage with
          ⟨other, hOther, rfl⟩
        unfold chatMessage
        rw [hNotice other hOther]
        exact of_decide_eq_false rfl
    · rcases List.mem_map.mp hClosing with
        ⟨other, hOther, rfl⟩
      rcases List.mem_append.mp hOther with hTrigger | hPlan
      · cases List.mem_singleton.mp hTrigger
        exact of_decide_eq_false rfl
      · cases plan with
        | none => cases hPlan
        | some plan =>
            cases List.mem_singleton.mp hPlan
            exact of_decide_eq_false rfl

end Showing

------------------------------------------------------------
-- Sessions With The Provider
------------------------------------------------------------

/- A decision is what the provider makes of a response. -/
def DecidedBy
    {library : Library}
    (provider : OpenAiCompatibleProvider library) :
    (op : Op) → Answer op → Prop
| .generateAction _ request, some (.ok decision) =>
    ∃ send,
      generateAction provider send request = .ok decision
| _, _ => True

/- The host whose decisions this provider makes. -/
def chatting
    {library : Library}
    (provider : OpenAiCompatibleProvider library) :
    Machine Op Answer World :=
  host.restrict fun _ op a => DecidedBy provider op a

/- A message of the API stands for the action. -/
def IsChosen
    (library : Library)
    (action : AgentAction) : Prop :=
  ∃ message, chooseAction library message = .ok action

/- All decisions of the ledger have been chosen. -/
def AllChosen
    (library : Library)
    (records : List SessionRecord) : Prop :=
  ∀ record, .modelDecision record ∈ records →
    IsChosen library record.action

section Sessions

variable {library : Library}
variable {provider : OpenAiCompatibleProvider library}
variable {run : List Advance}
variable {w : World}

theorem OnHost.chatting : OnHost (chatting provider) where
  next := rfl
  allowed := fun _ _ _ hAllowed => hAllowed.1

theorem isChosen_of_readResponse
    {response : Response}
    {decision : ProviderDecision}
    (hRead : readResponse library response = .ok decision) :
    IsChosen library decision.action := by
  unfold readResponse at hRead
  split at hRead
  · split at hRead
    · cases hRead
    · split at hRead
      · cases hRead
      · split at hRead
        · cases hRead
        · rename_i choice _
          cases hChosen :
              chooseAction library choice.message with
          | error error =>
              rw [hChosen] at hRead
              cases hRead
          | ok action =>
              rw [hChosen] at hRead
              cases hRead
              exact ⟨_, hChosen⟩
  · cases hRead

theorem isChosen_of_generateAction
    {send : Post → Except String Response}
    {request : ProviderRequest}
    {decision : ProviderDecision}
    (hDecision :
      generateAction provider send request = .ok decision) :
    IsChosen library decision.action := by
  unfold generateAction at hDecision
  dsimp only at hDecision
  split at hDecision
  · cases hDecision
  · split at hDecision
    · cases hDecision
    · exact isChosen_of_readResponse hDecision

theorem isChosen_of_repliesBy
    {op : Op}
    {a : Answer op}
    {record : ModelDecisionRecord}
    (hDecided : DecidedBy provider op a)
    (hReply : .modelDecision record ∈ repliesBy op a) :
    IsChosen library record.action := by
  unfold repliesBy at hReply
  split at hReply
  · rename_i timeoutMs request decision
    rcases hDecided with ⟨send, hDecision⟩
    have hAction : record.action = decision.action := by
      simp [answerRecords] at hReply
      rw [hReply]
    rw [hAction]
    exact isChosen_of_generateAction hDecision
  · cases hReply

/- The decisions among the provider's answers are chosen. -/
theorem allChosen_repliesIn
    {t : Advance}
    (hRuns : t.Runs (chatting provider)) :
    AllChosen library (repliesIn t.steps) := by
  intro record hMem
  rcases List.mem_flatMap.mp hMem with ⟨s, hStep, hReply⟩
  exact isChosen_of_repliesBy
    (Exec.allowed hRuns s hStep).2 hReply

theorem allChosen_advance
    {t : Advance}
    (hRuns : t.Runs (chatting provider))
    (hBefore : AllChosen library t.before.ledger) :
    AllChosen library t.after.ledger := by
  intro record hMem
  rw [Advance.ledger_eq OnHost.chatting hRuns] at hMem
  rcases List.mem_append.mp hMem with hOld | hAdded
  · exact hBefore record hOld
  · refine allChosen_repliesIn hRuns record ?_
    have hStored := (Advance.keeps OnHost.chatting hRuns).stored
    exact hStored.subset (List.mem_filter.mpr ⟨hAdded, rfl⟩)

/-
  In every session that this provider decides in, whatever
  else happens, a prompt that is built of records of the
  ledger shows the newest of them in order. All that it shows
  of a decision is written as a message that the API could
  have sent for a decision; it is the same decision if and
  only if it is stable. Of the newest decisions, only those to
  yield are not shown.
-/
theorem run_decisions_read_back
    {sessionId : String}
    {rendering : Rendering}
    {trigger : AgentTrigger}
    {history : List SessionRecord}
    {plan : Option ExecutionPlanRecord}
    {systemPrompt : String}
    (hLess : SaysLess library)
    (hRun : Run (chatting provider) (World.empty sessionId)
      run w)
    (hHistory : ∀ record ∈ history, record ∈ w.ledger) :
    ShowsNewest library rendering history
      (mapToChatMessages library.printing
        (buildProviderContents rendering trigger history plan)
        systemPrompt) := by
  have hStart :
      AllChosen library (World.empty sessionId).ledger := by
    intro record hMem
    cases hMem
  have hAll := (hRun.preserves
    (I := fun w => AllChosen library w.ledger)
    (fun _ _ hRuns hBefore =>
      allChosen_advance hRuns hBefore) hStart).2
  refine
    ⟨mapToChatMessages_newest library rendering trigger
      history plan systemPrompt, ?_⟩
  intro record hRecent
  have hRecord := hHistory _ (List.mem_of_mem_drop hRecent)
  rcases hAll record hRecord with ⟨message, hChosen⟩
  exact readsBack_of_chosen hLess hChosen

end Sessions

------------------------------------------------------------
-- A Session That Calls A Skill
------------------------------------------------------------

namespace Sample

def braced (text : String) : String :=
  "\x7b" ++ text ++ "\x7d"

def replyText : String :=
  braced ("\"choices\":[" ++ braced ("\"message\":" ++
    braced ("\"tool_calls\":[" ++ braced ("\"function\":" ++
      braced ("\"name\":\"echo\",\"arguments\":\"" ++
        braced "" ++ "\"")) ++ "]")) ++ "]")

def replyValue : Json :=
  .object [("choices", .array [.object [("message", .object
    [("tool_calls", .array [.object [("function", .object
      [("name", .string "echo"),
        ("arguments", .string (braced ""))])]])])]])]

/- A library that knows two texts. -/
def library : Library where
  printing :=
    { json := fun _ => braced ""
      output := fun _ => "null" }
  isBlank text := text.isEmpty
  parse text :=
    if text = braced "" then .ok (.object [])
    else if text = replyText then .ok replyValue
    else .error "expected value at line 1 column 1"
  scan text :=
    if text = braced "" then .ok (.object [])
    else if text = replyText then .ok replyValue
    else .error "expected value at line 1 column 1"
  mismatch _ := "missing field"

def provider : OpenAiCompatibleProvider library where
  config :=
    { baseUrl := "http://localhost/"
      apiKey := "key"
      defaultRequest := { model := some "model" }
      systemPrompt := "Be brief." }
  isValid := by decide

/- The API asks for a call without an id. -/
def send : Post → Except String Response := fun _ =>
  .ok { status := 200, text := .ok replyText }

def decision : ProviderDecision where
  action := .callSkills
    [{ callId := "openai-call-0"
       name := "echo"
       args := .object [] }]

def calling : Script where
  decision _ := decision
  skill _ := .returned (.ok .null)

def calledWorld : World :=
  Script.session RainEngine.Sample.engine
    [(calling, .trigger RainEngine.Sample.message)]
    (World.empty "session")

end Sample

theorem generateAction_sample
    (request : ProviderRequest) :
    generateAction Sample.provider Sample.send request =
      .ok Sample.decision := by
  have hRead :
      readResponse Sample.library
          { status := 200, text := .ok Sample.replyText } =
        .ok Sample.decision := by
    rfl
  unfold generateAction
  cases request.config.model <;> exact hRead

theorem saysLess_sample : SaysLess Sample.library := by
  intro text structured hRead
  unfold Library.read Sample.library at hRead
  dsimp only at hRead
  split at hRead
  · cases hRead
  · split at hRead
    · cases hRead
    · cases hRead

/- A prompt of the whole ledger, with a decision to call. -/
theorem run_decisions_read_back_sample :
    ShowsNewest Sample.library RainEngine.Sample.rendering
        Sample.calledWorld.ledger
        (mapToChatMessages Sample.library.printing
          (buildProviderContents RainEngine.Sample.rendering
            RainEngine.Sample.message.trigger
            Sample.calledWorld.ledger none)
          "Be brief.") ∧
      (recentRecords Sample.calledWorld.ledger).any
        (Stores.kind · = .modelDecision) = true := by
  have hDecided : ∀ w op a,
      Sample.calling.answer w op = some a →
        (chatting Sample.provider).allowed w op a := by
    intro w op a hAnswer
    refine ⟨OnHost.reliable.allowed w op a
      (Script.answer_allowed hAnswer), ?_⟩
    cases op with
    | generateAction timeoutMs request =>
        cases hAnswer
        exact ⟨Sample.send, generateAction_sample request⟩
    | _ => trivial
  have hRun := Script.session_run_on
    (M := chatting Sample.provider) rfl
    RainEngine.Sample.engine
    [(Sample.calling, .trigger RainEngine.Sample.message)]
    (World.empty "session")
    (List.forall_mem_singleton.mpr hDecided)
  refine ⟨run_decisions_read_back saysLess_sample hRun
    fun _ hMem => hMem, ?_⟩
  decide +kernel

end OpenAi
end RainEngine
