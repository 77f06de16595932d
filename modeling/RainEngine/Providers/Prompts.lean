import RainEngine.Transcripts.Pairing
import RainEngine.Kernel.Contents
import RainEngine.Serde.Records
import RainEngine.Sessions.Runs

/-
  This file is about the tool calls and tool results in a
  prompt: the messages the kernel builds from the ledger, and
  the chat messages one provider forms from them. Both list
  the calls of the recent decisions, and answer those of the
  recent results; whether they belong together is decided by
  the newest records of the ledger.

  What the standard library prints is a parameter, the
  `Printing`.

  Key definitions include:
    * `mapToChatMessages`
    * `messageCalls`
    * `chatCalls`
    * `Paired`
    * `PromptFits`

  Key theorems include:
    * `readCalls_toValue`
    * `buildProviderContents_paired`
    * `mapToChatMessages_paired`
    * `prompt_paired_iff`
-/

namespace RainEngine

open Transcripts

------------------------------------------------------------
-- Chat Messages
------------------------------------------------------------

/- How library code prints values as text. -/
structure Printing where
  json : Json → String
  output : Except SkillFailure Json → String

structure ToolFunctionCall where
  name : String
  arguments : String

structure ToolCallRequest where
  kind : String
  id : String
  function : ToolFunctionCall

structure ChatMessage where
  role : String
  content : Option String
  toolCalls : Option (List ToolCallRequest)
  toolCallId : Option String

def ChatMessage.system (content : String) : ChatMessage where
  role := "system"
  content := some content
  toolCalls := none
  toolCallId := none

def ProviderRole.chatName : ProviderRole → String
| .system => "system"
| .user => "user"
| .assistant => "assistant"
| .tool => "tool"

/- Read a value as planned calls; floats are kept exactly. -/
def readCalls (json : Json) : Option (List PlannedSkillCall) :=
  (Codec.list Codec.plannedSkillCall).decode id json

def PlannedSkillCall.toRequest
    (printing : Printing)
    (call : PlannedSkillCall) :
    ToolCallRequest where
  id := call.callId
  kind := "function"
  function :=
    { name := call.name
      arguments := printing.json call.args }

/- What the parts of a message have contributed so far. -/
structure ChatDraft where
  content : String := ""
  toolCalls : Option (List ToolCallRequest) := none
  toolCallId : Option String := none

/- Text goes to a line of its own. -/
def ChatDraft.line
    (draft : ChatDraft)
    (text : String) :
    ChatDraft :=
  { draft with
    content :=
      if draft.content.isEmpty then text
      else draft.content ++ "\n" ++ text }

def ChatDraft.add
    (printing : Printing)
    (role : ProviderRole)
    (draft : ChatDraft) :
    ProviderContentPart → ChatDraft
| .text text => draft.line text
| .json value =>
    if role = .assistant then
      match readCalls value with
      | some calls =>
          { draft with
            toolCalls := some
              (calls.map (·.toRequest printing)) }
      | none => draft.line (printing.json value)
    else draft.line (printing.json value)
| .toolResult result =>
    { draft with
      content :=
        draft.content ++ printing.output result.output
      toolCallId := some result.callId }
| _ => draft

def chatMessage
    (printing : Printing)
    (message : ProviderMessage) :
    ChatMessage :=
  let draft := message.parts.foldl
    (ChatDraft.add printing message.role) {}
  { role := message.role.chatName
    content :=
      if draft.content.isEmpty && draft.toolCalls.isSome then
        none
      else some draft.content
    toolCalls := draft.toolCalls
    toolCallId := draft.toolCallId }

def mapToChatMessages
    (printing : Printing)
    (contents : List ProviderMessage)
    (systemPrompt : String) :
    List ChatMessage :=
  ChatMessage.system systemPrompt ::
    contents.map (chatMessage printing)

------------------------------------------------------------
-- Calls And Their Results
------------------------------------------------------------

/- The calls of an array of calls, by their ids. -/
def callIds : ProviderContentPart → List String
| .json (.array items) =>
    items.filterMap fun item =>
      (item.get "call_id").bind Json.asStr
| _ => []

def resultIds : ProviderContentPart → List String
| .toolResult result => [result.callId]
| _ => []

/- What a message of the kernel lists and answers. -/
def messageCalls : View ProviderMessage String where
  listed message :=
    if message.role = .assistant then
      message.parts.flatMap callIds
    else []
  answered message :=
    if message.role = .tool then
      message.parts.flatMap resultIds
    else []

/- What a chat message lists and answers. -/
def chatCalls : View ChatMessage String where
  listed message :=
    if message.role = "assistant" then
      (message.toolCalls.getD []).map (·.id)
    else []
  answered message :=
    if message.role = "tool" then message.toolCallId.toList
    else []

/- The calls a decision asks for. -/
def SessionRecord.decidedCalls :
    SessionRecord → List PlannedSkillCall
| .modelDecision decision =>
    match decision.action with
    | .callSkills calls => calls
    | _ => []
| _ => []

/- A call whose backoff multiplier is a number. -/
def PlannedSkillCall.IsReadable (call : PlannedSkillCall) : Prop :=
  Exact id call.retryPolicy.policy.backoffMultiplier

instance : DecidablePred PlannedSkillCall.IsReadable := by
  intro call
  unfold PlannedSkillCall.IsReadable
  infer_instance

/- What a record lists and answers, in the kernel's words. -/
def ledgerCalls : View SessionRecord String where
  listed record := record.decidedCalls.map (·.callId)
  answered record :=
    (record.asToolResult.map (·.callId)).toList

/- The same if calls that cannot be read are left out. -/
def readableCalls : View SessionRecord String where
  listed record :=
    if ∀ call ∈ record.decidedCalls, call.IsReadable then
      record.decidedCalls.map (·.callId)
    else []
  answered record :=
    (record.asToolResult.map (·.callId)).toList

def answeredIn (records : List SessionRecord) : List String :=
  (toolResults records).map (·.callId)

/-
  Every answer comes after a call it belongs to, and every
  call that has a result in the ledger is answered.
-/
structure Paired
    {α : Type}
    (view : View α String)
    (history : List SessionRecord)
    (entries : List α) : Prop where
  preceded : view.Preceded (fun _ => False) entries
  followed :
    view.Followed (fun c => c ∈ answeredIn history) entries

/-
  Each of the newest results follows a decision for its call
  that is one of the newest records too, and none of their
  calls has the id of an older result but no result yet.
-/
structure PromptFits
    (calls : View SessionRecord String)
    (history : List SessionRecord) : Prop where
  decided : ∀ before record after,
    history = before ++ record :: after →
      after.length < maxRecentItems →
        ∀ c ∈ calls.answered record,
          ∃ early decision between,
            before = early ++ decision :: between ∧
              c ∈ calls.listed decision ∧
                between.length + after.length + 1 <
                  maxRecentItems
  fresh : ∀ before record after,
    history = before ++ record :: after →
      after.length < maxRecentItems →
        ∀ c ∈ calls.listed record,
          c ∈ answeredIn before → c ∈ answeredIn after

------------------------------------------------------------
-- Calls Are Read Back
------------------------------------------------------------

section Reading

theorem decode_strings (texts : List String) :
    (Codec.list Codec.string).decode id (Json.strings texts) =
      some texts := by
  apply ((Codec.list Codec.string).lawful id texts).mpr
  intro x hMem
  simp [Codec.list, Codec.string, Codec.plain] at hMem

theorem decode_int (value : Int) :
    Codec.int.decode id (Json.int value) = some value :=
  Codec.readInt_int value

/- A retry policy is read back unless it has an odd float. -/
theorem decode_retryPolicy (policy : ToolRetryPolicy) :
    Codec.toolRetryPolicy.decode id
        (Codec.toolRetryPolicy.encode policy) =
      if Exact id policy.policy.backoffMultiplier then
        some policy
      else none := by
  by_cases hExact : Exact id policy.policy.backoffMultiplier
  · rw [if_pos hExact]
    apply (Codec.toolRetryPolicy.lawful id policy).mpr
    intro x hMem
    have hFloat : x = policy.policy.backoffMultiplier := by
      simpa [Codec.toolRetryPolicy, Codec.retryPolicy,
        Codec.struct, Codec.object, Fields.field,
        Fields.fieldOr, Fields.nil, Codec.float, Codec.nat,
        Codec.plain] using hMem
    rw [hFloat]
    exact hExact
  · rw [if_neg hExact]
    have hNull :
        Json.float policy.policy.backoffMultiplier = .null := by
      cases hFloat : policy.policy.backoffMultiplier with
      | finite value =>
          rw [hFloat] at hExact
          exact absurd rfl hExact
      | _ => rfl
    simp [Codec.toolRetryPolicy, Codec.retryPolicy,
      Codec.struct, Codec.object, Fields.field,
      Fields.fieldOr, Fields.nil, Codec.float, Codec.nat,
      Codec.plain, Json.asObject, List.lookup_cons,
      Fields.readField, hNull, readFloat]

/- A planned call is read back but for what its args become. -/
theorem decode_toValue
    (call : PlannedSkillCall) :
    Codec.plannedSkillCall.decode id call.toValue =
      if call.IsReadable then
        some { call with args := call.args.reread id }
      else none := by
  have hCallId :
      Codec.string.decode id (.string call.callId) =
        some call.callId :=
    rfl
  have hName :
      Codec.string.decode id (.string call.name) =
        some call.name :=
    rfl
  have hArgs :
      Codec.value.decode id call.args =
        some (call.args.reread id) :=
    rfl
  have hPriority := decode_int call.priority
  have hDependsOn := decode_strings call.dependsOn
  have hRetry := decode_retryPolicy call.retryPolicy
  have hDryRun :
      Codec.bool.decode id (.bool call.dryRun) =
        some call.dryRun :=
    rfl
  simp only [Codec.plannedSkillCall, Codec.struct,
    Codec.object, Fields.field, Fields.fieldOr, Fields.nil,
    Fields.defaulted, PlannedSkillCall.toValue, Json.asObject,
    List.lookup_cons, Fields.readField, BEq.rfl,
    String.reduceBEq, Option.map_some, Option.map_bind,
    Function.comp_apply, hCallId, hName, hArgs, hPriority,
    hDependsOn, hDryRun, Option.bind_some]
  have hPolicy :
      Codec.toolRetryPolicy.encode call.retryPolicy =
        .object
          [("policy", .object
            [("max_attempts",
                .nat call.retryPolicy.policy.maxAttempts),
              ("initial_interval_ms",
                .nat
                  call.retryPolicy.policy.initialIntervalMs),
              ("backoff_multiplier",
                .float
                  call.retryPolicy.policy.backoffMultiplier),
              ("max_interval_ms",
                .nat
                  call.retryPolicy.policy.maxIntervalMs)])] :=
    rfl
  rw [← hPolicy, hRetry]
  by_cases hReadable : call.IsReadable
  · have hExact :
        Exact id call.retryPolicy.policy.backoffMultiplier :=
      hReadable
    rw [if_pos hReadable, if_pos hExact]
    rfl
  · have hOdd :
        ¬Exact id
          call.retryPolicy.policy.backoffMultiplier :=
      hReadable
    rw [if_neg hReadable, if_neg hOdd]
    rfl

/- A list of calls is read back if all of them can be read. -/
theorem readItems_toValue (calls : List PlannedSkillCall) :
    Codec.plannedSkillCall.readItems id
        (calls.map PlannedSkillCall.toValue) =
      if ∀ call ∈ calls, call.IsReadable then
        some (calls.map fun call =>
          { call with args := call.args.reread id })
      else none := by
  induction calls with
  | nil => rfl
  | cons call rest ih =>
      rw [List.map_cons, Codec.readItems, decode_toValue, ih]
      by_cases hCall : call.IsReadable
      · by_cases hRest : ∀ other ∈ rest, other.IsReadable
        · have hAll : ∀ other ∈ call :: rest,
              other.IsReadable :=
            List.forall_mem_cons.mpr ⟨hCall, hRest⟩
          rw [if_pos hCall, if_pos hRest, if_pos hAll]
          rfl
        · rw [if_neg hRest]
          have hNot : ¬∀ other ∈ call :: rest,
              other.IsReadable := by
            intro hAll
            exact hRest (List.forall_mem_cons.mp hAll).2
          rw [if_neg hNot, if_pos hCall]
          rfl
      · have hNot : ¬∀ other ∈ call :: rest,
            other.IsReadable := by
          intro hAll
          exact hCall (List.forall_mem_cons.mp hAll).1
        rw [if_neg hCall, if_neg hNot]
        rfl

theorem readCalls_toValue (calls : List PlannedSkillCall) :
    readCalls (.array (calls.map PlannedSkillCall.toValue)) =
      if ∀ call ∈ calls, call.IsReadable then
        some (calls.map fun call =>
          { call with args := call.args.reread id })
      else none :=
  readItems_toValue calls

theorem callIds_toValue (calls : List PlannedSkillCall) :
    callIds
        (.json (.array (calls.map PlannedSkillCall.toValue))) =
      calls.map (·.callId) := by
  change List.filterMap _ (calls.map _) = _
  rw [List.filterMap_map, ← List.filterMap_eq_map]
  rfl

end Reading

------------------------------------------------------------
-- From Records To Messages
------------------------------------------------------------

section Messages

variable (rendering : Rendering)
variable (printing : Printing)
variable (history : List SessionRecord)

theorem silent_message
    {message : ProviderMessage}
    (hAssistant : message.role ≠ .assistant)
    (hTool : message.role ≠ .tool) :
    messageCalls.Silent message :=
  ⟨if_neg hAssistant, if_neg hTool⟩

theorem silent_chatMessage
    {message : ProviderMessage}
    (hAssistant : message.role ≠ .assistant)
    (hTool : message.role ≠ .tool) :
    chatCalls.Silent (chatMessage printing message) := by
  unfold View.Silent chatCalls chatMessage
  cases hRole : message.role with
  | assistant => exact absurd hRole hAssistant
  | tool => exact absurd hRole hTool
  | _ => simp [ProviderRole.chatName]

/- A message lists and answers what its record does. -/
theorem translates_recordMessage :
    ledgerCalls.Translates messageCalls
      (recordMessage rendering history) where
  dropped := by
    intro record hNone
    cases record with
    | modelDecision decision =>
        obtain ⟨step, action⟩ := decision
        cases action <;>
          first | exact ⟨rfl, rfl⟩ | cases hNone
    | _ => first | exact ⟨rfl, rfl⟩ | cases hNone
  listed := by
    intro record message hMessage
    cases record with
    | modelDecision decision =>
        obtain ⟨step, action⟩ := decision
        cases action with
        | callSkills calls =>
            cases hMessage
            have hIds := callIds_toValue calls
            simp [messageCalls, ledgerCalls,
              SessionRecord.decidedCalls, hIds]
        | respond content =>
            cases hMessage
            rfl
        | _ => cases hMessage
    | _ => cases hMessage <;> rfl
  answered := by
    intro record message hMessage
    cases record with
    | modelDecision decision =>
        obtain ⟨step, action⟩ := decision
        cases action <;> cases hMessage <;> rfl
    | _ => cases hMessage <;> rfl

/- The chat message of a decision for calls. -/
theorem chatMessage_calls (calls : List PlannedSkillCall) :
    chatCalls.listed
        (chatMessage printing
          { role := .assistant
            parts :=
              [.json (.array
                (calls.map PlannedSkillCall.toValue))] }) =
      if ∀ call ∈ calls, call.IsReadable then
        calls.map (·.callId)
      else [] := by
  have hRead := readCalls_toValue calls
  by_cases hAll : ∀ call ∈ calls, call.IsReadable
  · rw [if_pos hAll] at hRead ⊢
    simp [chatCalls, chatMessage, ProviderRole.chatName,
      ChatDraft.add, hRead, PlannedSkillCall.toRequest]
  · rw [if_neg hAll] at hRead ⊢
    simp [chatCalls, chatMessage, ProviderRole.chatName,
      ChatDraft.add, ChatDraft.line, hRead]

theorem listed_readable
    {record : SessionRecord}
    (hNone : record.decidedCalls = []) :
    readableCalls.listed record = [] := by
  simp [readableCalls, hNone]

theorem silent_readable
    {record : SessionRecord}
    (hSilent : ledgerCalls.Silent record) :
    readableCalls.Silent record := by
  refine ⟨listed_readable ?_, hSilent.2⟩
  exact List.map_eq_nil_iff.mp hSilent.1

/- And so does a chat message, for calls that can be read. -/
theorem translates_chatMessage :
    readableCalls.Translates chatCalls
      (fun record =>
        (recordMessage rendering history record).map
          (chatMessage printing)) where
  dropped := by
    intro record hNone
    apply silent_readable
    apply (translates_recordMessage rendering history).dropped
    exact Option.map_eq_none_iff.mp hNone
  listed := by
    intro record image hImage
    rw [Option.map_eq_some_iff] at hImage
    obtain ⟨message, hMessage, hChat⟩ := hImage
    subst hChat
    cases record with
    | modelDecision decision =>
        obtain ⟨step, action⟩ := decision
        cases action with
        | callSkills calls =>
            cases hMessage
            exact chatMessage_calls printing calls
        | respond content =>
            cases hMessage
            exact (listed_readable rfl).symm
        | _ => cases hMessage
    | _ => cases hMessage <;> exact (listed_readable rfl).symm
  answered := by
    intro record image hImage
    rw [Option.map_eq_some_iff] at hImage
    obtain ⟨message, hMessage, hChat⟩ := hImage
    subst hChat
    cases record with
    | modelDecision decision =>
        obtain ⟨step, action⟩ := decision
        cases action <;> cases hMessage <;> rfl
    | _ => cases hMessage <;> rfl

end Messages

------------------------------------------------------------
-- The Newest Records
------------------------------------------------------------

/- The records that reach the prompt. -/
def recentRecords
    (history : List SessionRecord) :
    List SessionRecord :=
  history.drop (history.length - maxRecentItems)

section Newest

variable {history before after : List SessionRecord}
variable {record : SessionRecord}

theorem recentRecords_length :
    (recentRecords history).length ≤ maxRecentItems := by
  unfold recentRecords
  rw [List.length_drop]
  omega

/- A record with few records after it is a recent one. -/
theorem recentRecords_split
    (hSplit : history = before ++ record :: after)
    (hRecent : after.length < maxRecentItems) :
    ∃ old recent, before = old ++ recent ∧
      recentRecords history = recent ++ record :: after := by
  refine ⟨before.take (history.length - maxRecentItems),
    before.drop (history.length - maxRecentItems),
    (List.take_append_drop _ _).symm, ?_⟩
  unfold recentRecords
  rw [hSplit]
  apply List.drop_append_of_le_length
  rw [List.length_append, List.length_cons]
  omega

theorem exists_of_recent
    {recent : List SessionRecord}
    (hRecent :
      recentRecords history = recent ++ record :: after) :
    ∃ old, history = (old ++ recent) ++ record :: after ∧
      recent.length + after.length + 1 ≤ maxRecentItems ∧
        (old = [] ∨
          maxRecentItems =
            recent.length + after.length + 1) := by
  have hLength := @recentRecords_length history
  have hWhole : history =
      history.take (history.length - maxRecentItems) ++
        recentRecords history :=
    (List.take_append_drop _ _).symm
  refine ⟨history.take (history.length - maxRecentItems),
    ?_, ?_, ?_⟩
  · rw [List.append_assoc, ← hRecent]
    exact hWhole
  · rw [hRecent, List.length_append, List.length_cons]
      at hLength
    omega
  · by_cases hShort : history.length ≤ maxRecentItems
    · left
      rw [Nat.sub_eq_zero_of_le hShort, List.take_zero]
    · right
      have hExact :
          (recentRecords history).length =
            maxRecentItems := by
        unfold recentRecords
        rw [List.length_drop]
        omega
      rw [hRecent, List.length_append, List.length_cons]
        at hExact
      omega

theorem mem_answeredIn
    {records : List SessionRecord}
    {c : String} :
    c ∈ answeredIn records ↔
      ∃ record ∈ records, c ∈ ledgerCalls.answered record := by
  simp only [answeredIn, toolResults, List.mem_map,
    List.mem_filterMap, ledgerCalls, Option.mem_toList,
    Option.map_eq_some_iff]
  constructor
  · intro hAnswered
    obtain ⟨result, ⟨record, hMem, hResult⟩, hCall⟩ :=
      hAnswered
    exact ⟨record, hMem, result, hResult, hCall⟩
  · intro hAnswered
    obtain ⟨record, hMem, result, hResult, hCall⟩ :=
      hAnswered
    exact ⟨result, ⟨record, hMem, hResult⟩, hCall⟩

theorem answeredIn_append
    {early late : List SessionRecord} :
    answeredIn (early ++ late) =
      answeredIn early ++ answeredIn late := by
  unfold answeredIn toolResults
  rw [List.filterMap_append, List.map_append]

/- A record that answers a call lists none. -/
theorem listed_of_answered
    {calls : View SessionRecord String}
    {c : String}
    (hListed : ∀ record, record.asToolResult ≠ none →
      calls.listed record = [])
    (hCall : c ∈ ledgerCalls.answered record) :
    calls.listed record = [] := by
  apply hListed
  intro hNone
  simp [ledgerCalls, hNone] at hCall

/-
  Among the newest records answers follow their calls, and
  calls with a result are answered, exactly if they fit.
-/
theorem recentRecords_paired
    {calls : View SessionRecord String}
    (hAnswered : calls.answered = ledgerCalls.answered)
    (hListed : ∀ record, record.asToolResult ≠ none →
      calls.listed record = []) :
    Paired calls history (recentRecords history) ↔
      PromptFits calls history := by
  constructor
  · intro hPaired
    have hPreceded := View.preceded_iff.mp hPaired.preceded
    have hFollowed := View.followed_iff.mp hPaired.followed
    constructor
    · intro before record after hSplit hRecent c hMem
      obtain ⟨old, recent, hBefore, hNewest⟩ :=
        recentRecords_split hSplit hRecent
      cases hPreceded recent record after hNewest c hMem with
      | inl hNever => exact hNever.elim
      | inr hListed =>
          obtain ⟨decision, hDecision, hCall⟩ := hListed
          obtain ⟨early, between, hEarly⟩ :=
            List.append_of_mem hDecision
          obtain ⟨_, _, hLength, _⟩ := exists_of_recent hNewest
          refine ⟨old ++ early, decision, between, ?_, hCall,
            ?_⟩
          · rw [hBefore, hEarly, List.append_assoc]
          · rw [hEarly, List.length_append, List.length_cons]
              at hLength
            omega
    · intro before record after hSplit hRecent c hMem hOld
      obtain ⟨old, recent, hBefore, hNewest⟩ :=
        recentRecords_split hSplit hRecent
      have hDue : c ∈ answeredIn history := by
        rw [hSplit, answeredIn_append]
        exact List.mem_append_left _ hOld
      obtain ⟨later, hLater, hCall⟩ :=
        hFollowed recent record after hNewest c hMem hDue
      rw [hAnswered] at hCall
      exact mem_answeredIn.mpr ⟨later, hLater, hCall⟩
  · intro hFits
    constructor
    · rw [View.preceded_iff]
      intro recent record after hNewest c hMem
      obtain ⟨old, hSplit, hLength, hWindow⟩ :=
        exists_of_recent hNewest
      obtain ⟨early, decision, between, hBefore, hCall,
        hRecent⟩ :=
          hFits.decided (old ++ recent) record after hSplit
            (by omega) c hMem
      refine .inr ⟨decision, ?_, hCall⟩
      cases hWindow with
      | inl hNone =>
          rw [hNone, List.nil_append] at hBefore
          rw [hBefore]
          simp
      | inr hExact =>
          have hLate :
              decision :: between <:+ old ++ recent :=
            ⟨early, hBefore.symm⟩
          have hEnd : decision :: between <:+ recent := by
            apply List.suffix_of_suffix_length_le hLate
              (List.suffix_append _ _)
            rw [List.length_cons]
            omega
          exact hEnd.subset List.mem_cons_self
    · rw [View.followed_iff]
      intro recent record after hNewest c hMem hDue
      obtain ⟨old, hSplit, hLength, _⟩ :=
        exists_of_recent hNewest
      have hLater : c ∈ answeredIn after := by
        rw [hSplit, answeredIn_append] at hDue
        cases List.mem_append.mp hDue with
        | inl hBefore =>
            exact hFits.fresh _ record after hSplit (by omega)
              c hMem hBefore
        | inr hRest =>
            obtain ⟨other, hOther, hCall⟩ :=
              mem_answeredIn.mp hRest
            cases List.mem_cons.mp hOther with
            | inl hSelf =>
                rw [hSelf] at hCall
                have hNone := listed_of_answered hListed hCall
                rw [hNone] at hMem
                cases hMem
            | inr hAfter =>
                exact mem_answeredIn.mpr
                  ⟨other, hAfter, hCall⟩
      obtain ⟨later, hMemLater, hCall⟩ :=
        mem_answeredIn.mp hLater
      rw [← hAnswered] at hCall
      exact ⟨later, hMemLater, hCall⟩

end Newest

------------------------------------------------------------
-- Prompts
------------------------------------------------------------

section Prompts

variable (rendering : Rendering)
variable (printing : Printing)
variable (trigger : AgentTrigger)
variable (history : List SessionRecord)
variable (activePlan : Option ExecutionPlanRecord)

theorem decidedCalls_result
    {record : SessionRecord}
    (hResult : record.asToolResult ≠ none) :
    record.decidedCalls = [] := by
  cases record with
  | modelDecision decision => exact absurd rfl hResult
  | _ => rfl

/- Silent entries around translated ones do not matter. -/
theorem paired_framed
    {α : Type}
    {calls : View SessionRecord String}
    {view : View α String}
    {translate : SessionRecord → Option α}
    {records : List SessionRecord}
    {head last : List α}
    (hTranslates : calls.Translates view translate)
    (hHead : ∀ entry ∈ head, view.Silent entry)
    (hLast : ∀ entry ∈ last, view.Silent entry) :
    Paired view history
        (head ++ records.filterMap translate ++ last) ↔
      Paired calls history records := by
  constructor
  · intro hPaired
    obtain ⟨hPreceded, hFollowed⟩ := hPaired
    rw [View.preceded_append_right hLast,
      View.preceded_append_left hHead,
      hTranslates.preceded] at hPreceded
    rw [View.followed_append_right hLast,
      View.followed_append_left hHead,
      hTranslates.followed] at hFollowed
    exact ⟨hPreceded, hFollowed⟩
  · intro hPaired
    obtain ⟨hPreceded, hFollowed⟩ := hPaired
    constructor
    · rw [View.preceded_append_right hLast,
        View.preceded_append_left hHead,
        hTranslates.preceded]
      exact hPreceded
    · rw [View.followed_append_right hLast,
        View.followed_append_left hHead,
        hTranslates.followed]
      exact hFollowed

/- Messages of other roles come before and after the rest. -/
theorem buildProviderContents_eq :
    ∃ head last,
      buildProviderContents rendering trigger history
          activePlan =
        head ++ (recentRecords history).filterMap
          (recordMessage rendering history) ++ last ∧
        (∀ message ∈ head ++ last,
          message.role ≠ .assistant ∧
            message.role ≠ .tool) := by
  refine ⟨_, _, List.append_assoc _ _ _, ?_⟩
  intro message hMem
  cases List.mem_append.mp hMem with
  | inl hHead =>
      split at hHead
      · rw [List.mem_singleton.mp hHead]
        exact ⟨nofun, nofun⟩
      · cases hHead
  | inr hLast =>
      cases List.mem_append.mp hLast with
      | inl hTrigger =>
          rw [List.mem_singleton.mp hTrigger]
          exact ⟨nofun, nofun⟩
      | inr hPlan =>
          rw [Option.mem_toList] at hPlan
          obtain ⟨plan, _, hMessage⟩ :=
            Option.map_eq_some_iff.mp hPlan
          rw [← hMessage]
          exact ⟨nofun, nofun⟩

/- The messages of the kernel pair up if the records fit. -/
theorem buildProviderContents_paired :
    Paired messageCalls history
        (buildProviderContents rendering trigger history
          activePlan) ↔
      PromptFits ledgerCalls history := by
  obtain ⟨head, last, hContents, hOthers⟩ :=
    buildProviderContents_eq rendering trigger history
      activePlan
  rw [hContents, ← recentRecords_paired rfl]
  · apply paired_framed history
      (translates_recordMessage rendering history)
    · intro message hMem
      have hRole := hOthers message
        (List.mem_append_left _ hMem)
      exact silent_message hRole.1 hRole.2
    · intro message hMem
      have hRole := hOthers message
        (List.mem_append_right _ hMem)
      exact silent_message hRole.1 hRole.2
  · intro record hResult
    simp [ledgerCalls, decidedCalls_result hResult]

/- The chat messages do for the calls that can be read. -/
theorem mapToChatMessages_paired
    (systemPrompt : String) :
    Paired chatCalls history
        (mapToChatMessages printing
          (buildProviderContents rendering trigger history
            activePlan)
          systemPrompt) ↔
      PromptFits readableCalls history := by
  obtain ⟨head, last, hContents, hOthers⟩ :=
    buildProviderContents_eq rendering trigger history
      activePlan
  have hChat :
      mapToChatMessages printing
          (buildProviderContents rendering trigger history
            activePlan)
          systemPrompt =
        (ChatMessage.system systemPrompt ::
            head.map (chatMessage printing)) ++
          (recentRecords history).filterMap (fun record =>
            (recordMessage rendering history record).map
              (chatMessage printing)) ++
            last.map (chatMessage printing) := by
    unfold mapToChatMessages
    rw [hContents, List.map_append, List.map_append,
      List.map_filterMap, List.cons_append, List.cons_append]
  rw [hChat, ← @recentRecords_paired history readableCalls rfl]
  · apply paired_framed history
      (translates_chatMessage rendering printing history)
    · intro image hMem
      cases List.mem_cons.mp hMem with
      | inl hSystem =>
          rw [hSystem]
          exact ⟨rfl, rfl⟩
      | inr hHead =>
          obtain ⟨message, hMessage, hImage⟩ :=
            List.mem_map.mp hHead
          have hRole := hOthers message
            (List.mem_append_left _ hMessage)
          rw [← hImage]
          exact silent_chatMessage printing hRole.1 hRole.2
    · intro image hMem
      obtain ⟨message, hMessage, hImage⟩ :=
        List.mem_map.mp hMem
      have hRole := hOthers message
        (List.mem_append_right _ hMessage)
      rw [← hImage]
      exact silent_chatMessage printing hRole.1 hRole.2
  · intro record hResult
    exact listed_readable (decidedCalls_result hResult)

/-
  In the messages built from a ledger, and in the chat formed
  from them, tool results follow their calls and calls with a
  result are answered, exactly if the newest records fit.
-/
theorem prompt_paired_iff
    (systemPrompt : String) :
    (Paired messageCalls history
        (buildProviderContents rendering trigger history
          activePlan) ∧
      Paired chatCalls history
        (mapToChatMessages printing
          (buildProviderContents rendering trigger history
            activePlan)
          systemPrompt)) ↔
      PromptFits ledgerCalls history ∧
        PromptFits readableCalls history :=
  and_congr
    (buildProviderContents_paired rendering trigger history
      activePlan)
    (mapToChatMessages_paired rendering printing trigger
      history activePlan systemPrompt)

end Prompts

namespace Sample

/- A planner whose plan is one call of a skill. -/
def plansCall : Script :=
  { responds with
    planned :=
      { proposedPlan := some
          { objective := "call"
            steps := [.callSkills [call "a" .null]] } } }

def plannedWorld : World :=
  Script.session planning [(plansCall, .trigger message)]
    (World.empty "session")

end Sample

/-
  The result of a call a plan step has made is a tool message
  without an assistant message before it.
-/
theorem planned_call_orphaned :
    ¬(∀ (sessionId : String) (run : List Advance) (w : World),
      Run reliable (World.empty sessionId) run w →
        ∀ rendering trigger activePlan,
          Paired messageCalls w.ledger
            (buildProviderContents rendering trigger w.ledger
              activePlan)) := by
  intro hAll
  have hPaired := hAll "session" _ Sample.plannedWorld
    (Script.session_run Sample.planning _ _)
    Sample.rendering (.message "user" "hello" []) none
  rw [buildProviderContents_paired] at hPaired
  have hSome :
      (Sample.plannedWorld.ledger.any fun record =>
        decide ("a" ∈ ledgerCalls.answered record)) = true := by
    decide +kernel
  have hNone :
      (Sample.plannedWorld.ledger.all fun record =>
        (ledgerCalls.listed record).isEmpty) = true := by
    decide +kernel
  have hShort :
      Sample.plannedWorld.ledger.length ≤ maxRecentItems := by
    decide +kernel
  obtain ⟨record, hMem, hAnswers⟩ := List.any_eq_true.mp hSome
  obtain ⟨before, after, hSplit⟩ := List.append_of_mem hMem
  have hRecent : after.length < maxRecentItems := by
    rw [hSplit, List.length_append, List.length_cons]
      at hShort
    omega
  obtain ⟨early, decision, between, hBefore, hListed, _⟩ :=
    hPaired.decided before record after hSplit hRecent "a"
      (of_decide_eq_true hAnswers)
  have hDecision : decision ∈ Sample.plannedWorld.ledger := by
    rw [hSplit, hBefore]
    simp
  have hEmpty := List.all_eq_true.mp hNone decision hDecision
  rw [List.isEmpty_iff.mp hEmpty] at hListed
  cases hListed

end RainEngine
