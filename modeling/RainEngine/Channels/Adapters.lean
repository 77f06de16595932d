import Std.Data.String.ToInt
import RainEngine.Runtime.Ingress

/-
  This file models what the adapters of the channels make of a
  message: the request they send to the runtime, and the reply
  they make of its answer. Conversations of one adapter, and of
  different ones, are never put in the same session.

  Key definitions include:
    * `Conversation.sessionId`
    * `ChannelMessage.humanInput`
    * `SlackEventPayload.handle`
    * `discordMessage`

  Key theorems include:
    * `Conversation.sessionId_inj`
    * `adapters_apart`
-/

namespace RainEngine.Runtime

/- The session a request is for. -/
def IngressCall.sessionId : IngressCall → String
| .webhook _ request => request.sessionId
| .externalEvent _ request => request.sessionId
| .humanInput _ request => request.sessionId
| .systemObservation _ request => request.sessionId
| .scheduledWake request => request.sessionId
| .approval request => request.sessionId
| .delegationResult request => request.sessionId

end RainEngine.Runtime

namespace RainEngine.Channels

open RainEngine.Runtime (IngressCall)

------------------------------------------------------------
-- Requests
------------------------------------------------------------

structure ChannelConfig where
  runtimeUrl : String
  defaultSessionPrefix : String

/- What a client of the runtime fails with. -/
inductive ClientError where
  | http (message : String)
  | api (status : UInt16) (message : String)
  | url (message : String)

/- Where a message comes from, and where replies go. -/
inductive Conversation where
  | telegram (chatId : Int)
  | slack (channel : String)
  | discord (channelId : String)
deriving DecidableEq

/- The `session_id` of each adapter. -/
def Conversation.sessionId
    (config : ChannelConfig) :
    Conversation → String
| .telegram chatId =>
    config.defaultSessionPrefix ++
      ("-telegram-" ++ Int.repr chatId)
| .slack channel =>
    config.defaultSessionPrefix ++ ("-slack-" ++ channel)
| .discord channelId =>
    config.defaultSessionPrefix ++ ("-discord-" ++ channelId)

/- The text of a reply if a run has none. -/
def Conversation.noResponse : Conversation → String
| .telegram _ => "*(no response)*"
| .slack _ => "_(no response)_"
| .discord _ => "*(no response)*"

/- A message, as it is handed to the runtime. -/
structure ChannelMessage where
  conversation : Conversation
  actorId : String
  text : String
deriving DecidableEq

/- The request of `send_human_input`. -/
def ChannelMessage.humanInput
    (config : ChannelConfig)
    (message : ChannelMessage) :
    IngressCall :=
  .humanInput message.actorId
    { sessionId := message.conversation.sessionId config
      content := message.text }

/- The text that is sent back to the conversation. -/
def Conversation.reply
    (conversation : Conversation) :
    Except ClientError EngineOutcome → String
| .ok outcome =>
    outcome.response.getD conversation.noResponse
| .error _ => "⚠️ Engine error, please try again."

------------------------------------------------------------
-- Slack And Discord
------------------------------------------------------------

structure SlackEvent where
  type : String
  channel : Option String := none
  user : Option String := none
  text : Option String := none
  botId : Option String := none

structure SlackEventPayload where
  type : String := ""
  challenge : Option String := none
  event : Option SlackEvent := none

def SlackEvent.message
    (event : SlackEvent) :
    Option ChannelMessage :=
  let isSupportedMessage :=
    event.type = "message" ∨ event.type = "app_mention"
  match event.channel, event.user, event.text with
  | some channel, some user, some text =>
      if isSupportedMessage ∧ event.botId.isNone then
        some
          { conversation := .slack channel
            actorId := "slack:" ++ user
            text := text }
      else none
  | _, _, _ => none

/- `handle_events`: what is handed on, and the answer. -/
def SlackEventPayload.handle
    (payload : SlackEventPayload) :
    Option ChannelMessage × Json :=
  if payload.type = "url_verification" then
    (none,
      .object
        [("challenge", .string (payload.challenge.getD ""))])
  else if payload.type = "event_callback" then
    (payload.event.bind SlackEvent.message,
      .object [("ok", .bool true)])
  else (none, .object [("ok", .bool true)])

/- `handle_message` of the Discord adapter. -/
def discordMessage
    (channelId authorId content : String)
    (isBot : Bool) :
    Option ChannelMessage :=
  if isBot then none
  else
    some
      { conversation := .discord channelId
        actorId := "discord:" ++ authorId
        text := content }

------------------------------------------------------------
-- Sessions
------------------------------------------------------------

/- Marks that differ at once are not confused. -/
theorem append_ne_of_marks
    {start mark otherMark rest otherRest : String}
    (hMark : 2 ≤ mark.toList.length)
    (hOther : 2 ≤ otherMark.toList.length)
    (hApart :
      mark.toList.take 2 ≠ otherMark.toList.take 2) :
    start ++ (mark ++ rest) ≠
      start ++ (otherMark ++ otherRest) := by
  intro hSame
  rw [String.append_right_inj] at hSame
  have hChars := congrArg (·.toList.take 2) hSame
  simp only [String.toList_append] at hChars
  rw [List.take_append_of_le_length hMark,
    List.take_append_of_le_length hOther] at hChars
  exact hApart hChars

section Sessions

variable {config : ChannelConfig}
variable {conversation other : Conversation}

/- Under one prefix, a session belongs to one conversation. -/
theorem Conversation.sessionId_inj :
    conversation.sessionId config = other.sessionId config ↔
      conversation = other := by
  constructor
  · intro hSame
    unfold Conversation.sessionId at hSame
    cases conversation with
    | telegram chatId =>
        cases other with
        | telegram otherId =>
            rw [String.append_right_inj,
              String.append_right_inj, Int.repr_inj] at hSame
            rw [hSame]
        | slack channel =>
            exact absurd hSame (append_ne_of_marks
              (by decide) (by decide) (by decide))
        | discord channelId =>
            exact absurd hSame (append_ne_of_marks
              (by decide) (by decide) (by decide))
    | slack channel =>
        cases other with
        | telegram chatId =>
            exact absurd hSame (append_ne_of_marks
              (by decide) (by decide) (by decide))
        | slack otherChannel =>
            rw [String.append_right_inj,
              String.append_right_inj] at hSame
            rw [hSame]
        | discord channelId =>
            exact absurd hSame (append_ne_of_marks
              (by decide) (by decide) (by decide))
    | discord channelId =>
        cases other with
        | telegram chatId =>
            exact absurd hSame (append_ne_of_marks
              (by decide) (by decide) (by decide))
        | slack channel =>
            exact absurd hSame (append_ne_of_marks
              (by decide) (by decide) (by decide))
        | discord otherId =>
            rw [String.append_right_inj,
              String.append_right_inj] at hSame
            rw [hSame]
  · rintro rfl
    rfl

variable {payload : SlackEventPayload}
variable {channelId authorId content : String}
variable {isBot : Bool}
variable {slack discord : ChannelMessage}

theorem SlackEvent.message_conversation
    {event : SlackEvent}
    (hMessage : event.message = some slack) :
    ∃ channel, slack.conversation = .slack channel := by
  unfold SlackEvent.message at hMessage
  dsimp only at hMessage
  split at hMessage
  · rename_i channel user text _ _ _
    rw [Option.ite_none_right_eq_some] at hMessage
    rcases hMessage with ⟨_, hSlack⟩
    cases hSlack
    exact ⟨channel, rfl⟩
  · cases hMessage

theorem SlackEventPayload.handle_conversation
    (hHandled : payload.handle.1 = some slack) :
    ∃ channel, slack.conversation = .slack channel := by
  unfold SlackEventPayload.handle at hHandled
  split at hHandled
  · cases hHandled
  · split at hHandled
    · rcases Option.bind_eq_some_iff.mp hHandled with
        ⟨event, _, hMessage⟩
      exact SlackEvent.message_conversation hMessage
    · cases hHandled

/- Messages of two adapters never go to one session. -/
theorem adapters_apart
    (hSlack : payload.handle.1 = some slack)
    (hDiscord :
      discordMessage channelId authorId content isBot =
        some discord) :
    (slack.humanInput config).sessionId ≠
      (discord.humanInput config).sessionId := by
  rcases SlackEventPayload.handle_conversation hSlack with
    ⟨channel, hChannel⟩
  unfold discordMessage at hDiscord
  rw [Option.ite_none_left_eq_some] at hDiscord
  rcases hDiscord with ⟨_, hDiscord⟩
  cases hDiscord
  change slack.conversation.sessionId config ≠
    (Conversation.discord channelId).sessionId config
  rw [hChannel, Ne, Conversation.sessionId_inj]
  rintro ⟨⟩

end Sessions

end RainEngine.Channels
