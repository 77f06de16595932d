import RainEngine.Channels.Adapters
import RainEngine.Logs.Cursors
import RainEngine.Transitions.Reaches

/-
  This file is about the Telegram adapter, which polls for
  updates and acknowledges them with the offset of its next
  poll. The server of the updates is a parameter. Whatever
  polls, requests and replies fail and whenever the adapter is
  restarted, an update is handled at most once in each life of
  the adapter, and is not lost before that unless it expires.
  One request is made for each message that is handled; it is
  not made again if it fails. In the first life of the adapter
  the requests reach the session of a chat in order.

  Key definitions include:
    * `TelegramUpdate.channelMessage`
    * `TelegramServer.Documented`
    * `TelegramState.step`
    * `TelegramState.sent`
    * `TelegramDelivers`

  Key theorems include:
    * `Relays.step`
    * `Answered.step`
    * `telegram_delivers`
-/

namespace RainEngine.Channels

open Logs (Relay fromCursor)
open RainEngine.Runtime (IngressCall)
open Transitions (Reaches follow follow_reaches)

------------------------------------------------------------
-- The Adapter And Its Server
------------------------------------------------------------

structure TelegramMessage where
  chatId : Int
  fromId : Option Int := none
  text : Option String := none
deriving DecidableEq

structure TelegramUpdate where
  updateId : Int
  message : Option TelegramMessage := none
deriving DecidableEq

/- What is made of an update; without a text, nothing is. -/
def TelegramUpdate.channelMessage
    (update : TelegramUpdate) :
    Option ChannelMessage :=
  update.message.bind fun message =>
    message.text.map fun text =>
      { conversation := .telegram message.chatId
        actorId :=
          "telegram:" ++
            Int.repr (message.fromId.getD message.chatId)
        text := text }

------------------------------------------------------------
-- Servers
------------------------------------------------------------

/- The updates a poll with an offset leaves unconfirmed. -/
def fromOffset
    (offset : Option Int)
    (updates : List TelegramUpdate) :
    List TelegramUpdate :=
  updates.filter fun update =>
    offset.all fun off => decide (off ≤ update.updateId)

/-
  A server: the updates it has been given and those that are
  unconfirmed, and what its states become. What else decides
  on a result or on what expires is a choice.
-/
structure TelegramServer (Server Choice : Type) where
  start : Server
  published : Server → List TelegramUpdate
  unconfirmed : Server → List TelegramUpdate
  publish : Server → TelegramUpdate → Option Server
  getUpdates :
    Server → Option Int → Choice → Server × List TelegramUpdate
  expire : Server → Choice → Server

section Servers

variable {Server Choice : Type}

/-
  What is documented of the server: ids increase, an offset
  confirms all updates below it, a result begins with the
  first update that is not confirmed, and what is oldest
  expires first.
-/
structure TelegramServer.Documented
    (server : TelegramServer Server Choice) : Prop where
  starts :
    server.published server.start = [] ∧
      server.unconfirmed server.start = []
  publishes : ∀ t update t',
    server.publish t update = some t' →
      (∀ earlier ∈ server.published t,
          earlier.updateId < update.updateId) ∧
        server.published t' = server.published t ++ [update] ∧
          server.unconfirmed t' =
            server.unconfirmed t ++ [update]
  confirms : ∀ t offset choice,
    server.published (server.getUpdates t offset choice).1 =
        server.published t ∧
      server.unconfirmed
            (server.getUpdates t offset choice).1 =
          fromOffset offset (server.unconfirmed t) ∧
        (server.getUpdates t offset choice).2 <+:
          fromOffset offset (server.unconfirmed t)
  expires : ∀ t choice,
    server.published (server.expire t choice) =
        server.published t ∧
      server.unconfirmed (server.expire t choice) <:+
        server.unconfirmed t

/- What has expired when the server is in another state. -/
def TelegramServer.expiredIn
    (server : TelegramServer Server Choice)
    (t t' : Server) :
    List TelegramUpdate :=
  (server.unconfirmed t).take
    ((server.unconfirmed t).length -
      (server.unconfirmed t').length)

end Servers

------------------------------------------------------------
-- The Adapter
------------------------------------------------------------

/- How a poll ends. -/
inductive TelegramPoll where
  -- it fails before it has reached the server
  | unsent
  -- it has reached the server, but no result comes back
  | lost
  | answered

/-
  A request of `send_human_input` that has ended: whether the
  runtime was handed the message, and what the adapter was
  told unless it has been restarted.
-/
structure EndedRequest where
  message : ChannelMessage
  reached : Bool
  result : Option (Except ClientError EngineOutcome)

/- The reply that is tried to be sent. -/
def EndedRequest.reply
    (request : EndedRequest) :
    Option (Conversation × String) :=
  request.result.map fun result =>
    (request.message.conversation,
      request.message.conversation.reply result)

/-
  The server; the offset of the adapter, the rest of the result
  it goes through and the message whose request is under way;
  the updates that have expired and those that the adapter has
  been through; the requests that have ended, and the replies
  it has tried to send.
-/
structure TelegramState (Server : Type) where
  server : Server
  offset : Option Int := none
  results : List TelegramUpdate := []
  awaiting : Option ChannelMessage := none
  expired : List TelegramUpdate := []
  handled : List TelegramUpdate := []
  requests : List EndedRequest := []
  replies : List (Conversation × String) := []
  restarts : Nat := 0

inductive TelegramAction (Choice : Type) where
  | publish (update : TelegramUpdate)
  | expire (choice : Choice)
  | poll (choice : Choice) (outcome : TelegramPoll)
  | next
  | answer
      (reached : Bool)
      (result : Except ClientError EngineOutcome)
  | restart (reached : Bool)

namespace TelegramState

variable {Server Choice : Type}

/- A poll is only made when the last result is through. -/
def poll
    (server : TelegramServer Server Choice)
    (s : TelegramState Server)
    (choice : Choice) :
    TelegramPoll → TelegramState Server
| .unsent => s
| .lost =>
    { s with
      server := (server.getUpdates s.server s.offset choice).1 }
| .answered =>
    { s with
      server := (server.getUpdates s.server s.offset choice).1
      results :=
        (server.getUpdates s.server s.offset choice).2 }

/- One turn of the loop over a result. -/
def next
    (s : TelegramState Server) :
    List TelegramUpdate → Option (TelegramState Server)
| [] => none
| update :: rest =>
    some
      { s with
        offset := some (update.updateId + 1)
        results := rest
        awaiting := update.channelMessage
        handled := s.handled ++ [update] }

/- The request of a message ends. -/
def finish
    (s : TelegramState Server)
    (request : EndedRequest) :
    TelegramState Server :=
  { s with
    awaiting := none
    requests := s.requests ++ [request]
    replies := s.replies ++ request.reply.toList }

/-
  The adapter is told that a request went well only if it has
  reached the runtime; if it failed, it may have. The message
  is not sent again.
-/
def answer
    (s : TelegramState Server)
    (reached : Bool)
    (result : Except ClientError EngineOutcome) :
    Option ChannelMessage → Option (TelegramState Server)
| none => none
| some message =>
    if result.toBool && !reached then none
    else
      some
        (s.finish
          { message := message
            reached := reached
            result := some result })

/- What is under way when the adapter is restarted ends. -/
def interrupt
    (s : TelegramState Server)
    (reached : Bool) :
    Option ChannelMessage → TelegramState Server
| none => s
| some message =>
    s.finish
      { message := message
        reached := reached
        result := none }

def step
    (server : TelegramServer Server Choice)
    (s : TelegramState Server) :
    TelegramAction Choice → Option (TelegramState Server)
| .publish update =>
    (server.publish s.server update).map fun t =>
      { s with server := t }
| .expire choice =>
    some
      { s with
        server := server.expire s.server choice
        expired :=
          s.expired ++
            server.expiredIn s.server
              (server.expire s.server choice) }
| .poll choice outcome =>
    if s.results = [] ∧ s.awaiting = none then
      some (s.poll server choice outcome)
    else none
| .next =>
    if s.awaiting = none then s.next s.results else none
| .answer reached result => s.answer reached result s.awaiting
| .restart reached =>
    some
      { s.interrupt reached s.awaiting with
        offset := none
        results := []
        restarts := s.restarts + 1 }

/- The requests that have reached the runtime. -/
def sent
    (s : TelegramState Server)
    (config : ChannelConfig) :
    List IngressCall :=
  (s.requests.filter (·.reached)).map fun request =>
    request.message.humanInput config

end TelegramState

/- The messages of one conversation among those of updates. -/
def messagesOf
    (conversation : Conversation)
    (updates : List TelegramUpdate) :
    List ChannelMessage :=
  (updates.filterMap TelegramUpdate.channelMessage).filter
    fun message => message.conversation = conversation

section Delivery

variable {Server Choice : Type}

/-
  What the adapter keeps. Of each update it is known where it
  is, and each message that is handled makes one request. In
  the first life, the requests that reach the session of a
  conversation are for its messages in order, and they are the
  first of its messages if none fails and nothing expires.
-/
structure TelegramDelivers
    (server : TelegramServer Server Choice)
    (config : ChannelConfig)
    (s : TelegramState Server) : Prop where
  accounted : ∀ update ∈ server.published s.server,
    update ∈ server.unconfirmed s.server ∨
      update ∈ s.handled ∨ update ∈ s.expired
  genuine : s.handled ⊆ server.published s.server
  repeats : ∀ id,
    (s.handled.map (·.updateId)).count id ≤ s.restarts + 1
  requested :
    s.requests.map (·.message) ++ s.awaiting.toList =
      s.handled.filterMap TelegramUpdate.channelMessage
  ordered : s.restarts = 0 → ∀ conversation,
    ((s.sent config).filter fun call =>
        call.sessionId =
          conversation.sessionId config).Sublist
      ((messagesOf conversation
        (server.published s.server)).map
          (·.humanInput config))
  whole : s.restarts = 0 → s.expired = [] →
    ∀ conversation,
      (∀ request ∈ s.requests,
          request.message.conversation = conversation →
            request.reached = true) →
        ((s.sent config).filter fun call =>
            call.sessionId = conversation.sessionId config) <+:
          (messagesOf conversation
            (server.published s.server)).map
              (·.humanInput config)
  replied :
    s.replies = s.requests.filterMap EndedRequest.reply
  told : s.restarts = 0 →
    ∀ request ∈ s.requests, request.result.isSome = true

end Delivery

------------------------------------------------------------
-- The Adapter As A Reader Of A Log
------------------------------------------------------------

section Relaying

variable {Server Choice : Type}
variable {server : TelegramServer Server Choice}
variable {config : ChannelConfig}
variable {s s' : TelegramState Server}
variable {action : TelegramAction Choice}
variable {r : Relay TelegramUpdate Int}
variable {trace :
  List (TelegramState Server × TelegramAction Choice)}

/- The offset is the next id after the cursor. -/
structure Relays
    (server : TelegramServer Server Choice)
    (s : TelegramState Server)
    (r : Relay TelegramUpdate Int) : Prop where
  published : server.published s.server = r.published
  unconfirmed : server.unconfirmed s.server = r.kept
  expired : s.expired = r.expired
  results : s.results = r.batch
  offset : s.offset = r.cursor.map (· + 1)
  handled : s.handled = r.handled
  restarts : s.restarts = r.restarts

theorem Relays.fromOffset_eq
    (hRelays : Relays server s r) :
    fromOffset s.offset (server.unconfirmed s.server) =
      fromCursor (·.updateId) r.cursor r.kept := by
  rw [hRelays.offset, hRelays.unconfirmed]
  unfold fromOffset fromCursor
  cases r.cursor with
  | none => rfl
  | some last =>
      simp only [Option.map_some, Option.all_some,
        Int.add_one_le_iff]

/- The reader can follow each poll of the adapter. -/
theorem Relays.poll
    {choice : Choice}
    {outcome : TelegramPoll}
    (hServer : server.Documented)
    (hRelays : Relays server s r)
    (hDelivers : r.Delivers (·.updateId))
    (hIdle : s.results = []) :
    ∃ r' : Relay TelegramUpdate Int,
      Relays server (s.poll server choice outcome) r' ∧
        r'.Delivers (·.updateId) := by
  have hBatch : r.batch = [] := by
    rw [← hRelays.results, hIdle]
  rcases hServer.confirms s.server s.offset choice with
    ⟨hPublished, hUnconfirmed, hResult⟩
  rw [hRelays.fromOffset_eq] at hUnconfirmed hResult
  cases outcome with
  | unsent => exact ⟨r, hRelays, hDelivers⟩
  | lost =>
      exact ⟨r.fetch (·.updateId) [],
        { hRelays with
          published := hPublished.trans hRelays.published
          unconfirmed := hUnconfirmed
          results := hIdle },
        hDelivers.fetch hBatch List.nil_prefix⟩
  | answered =>
      exact ⟨r.fetch (·.updateId) _,
        { hRelays with
          published := hPublished.trans hRelays.published
          unconfirmed := hUnconfirmed
          results := rfl },
        hDelivers.fetch hBatch hResult⟩

/- What expires at the server expires for the reader. -/
theorem Relays.expire
    {choice : Choice}
    (hServer : server.Documented)
    (hRelays : Relays server s r)
    (hStep : s.step server (.expire choice) = some s') :
    ∃ count, Relays server s' (r.expire count) := by
  cases hStep
  rcases hServer.expires s.server choice with
    ⟨hPublished, hSuffix⟩
  refine
    ⟨(server.unconfirmed s.server).length -
        (server.unconfirmed
          (server.expire s.server choice)).length,
      { hRelays with
        published := hPublished.trans hRelays.published
        unconfirmed := ?_
        expired := ?_ }⟩
  · change _ = r.kept.drop _
    rw [← hRelays.unconfirmed]
    exact List.suffix_iff_eq_drop.mp hSuffix
  · change s.expired ++ _ = r.expired ++ r.kept.take _
    rw [hRelays.expired, ← hRelays.unconfirmed]
    rfl

/- A turn of the loop handles the first item of the batch. -/
theorem Relays.next
    (hRelays : Relays server s r)
    (hNext : s.next s.results = some s') :
    Relays server s' (r.handle (·.updateId) r.batch) := by
  rw [hRelays.results] at hNext
  cases hBatch : r.batch with
  | nil =>
      rw [hBatch] at hNext
      cases hNext
  | cons update rest =>
      rw [hBatch] at hNext
      cases hNext
      exact
        { hRelays with
          results := rfl
          offset := rfl
          handled := by
            change s.handled ++ [update] =
              r.handled ++ [update]
            rw [hRelays.handled] }

theorem Relays.interrupt
    {reached : Bool}
    (hRelays : Relays server s r)
    (awaiting : Option ChannelMessage) :
    Relays server (s.interrupt reached awaiting) r := by
  cases awaiting with
  | none => exact hRelays
  | some message => exact { hRelays with }

/- Whatever the adapter does, a reader of the log could do. -/
theorem Relays.step
    (hServer : server.Documented)
    (hRelays : Relays server s r)
    (hDelivers : r.Delivers (·.updateId))
    (hStep : s.step server action = some s') :
    ∃ r' : Relay TelegramUpdate Int,
      Relays server s' r' ∧ r'.Delivers (·.updateId) := by
  cases action with
  | publish update =>
      unfold TelegramState.step at hStep
      dsimp only at hStep
      rw [Option.map_eq_some_iff] at hStep
      rcases hStep with ⟨t, hPublish, rfl⟩
      rcases hServer.publishes s.server update t hPublish with
        ⟨hNewest, hPublished, hUnconfirmed⟩
      rw [hRelays.published] at hNewest hPublished
      rw [hRelays.unconfirmed] at hUnconfirmed
      exact ⟨r.publish update,
        { hRelays with
          published := hPublished
          unconfirmed := hUnconfirmed },
        hDelivers.publish hNewest⟩
  | expire choice =>
      rcases hRelays.expire hServer hStep with
        ⟨count, hNext⟩
      exact ⟨_, hNext, hDelivers.expire count⟩
  | poll choice outcome =>
      unfold TelegramState.step at hStep
      dsimp only at hStep
      rw [Option.ite_none_right_eq_some] at hStep
      rcases hStep with ⟨hIdle, hNext⟩
      cases hNext
      exact hRelays.poll hServer hDelivers hIdle.1
  | next =>
      unfold TelegramState.step at hStep
      dsimp only at hStep
      rw [Option.ite_none_right_eq_some] at hStep
      exact ⟨_, hRelays.next hStep.2, hDelivers.handle⟩
  | answer reached result =>
      refine ⟨r, ?_, hDelivers⟩
      unfold TelegramState.step TelegramState.answer at hStep
      dsimp only at hStep
      cases hAwaiting : s.awaiting with
      | none =>
          rw [hAwaiting] at hStep
          cases hStep
      | some message =>
          rw [hAwaiting] at hStep
          rw [Option.ite_none_left_eq_some] at hStep
          rcases hStep with ⟨_, hNext⟩
          cases hNext
          exact { hRelays with }
  | restart reached =>
      cases hStep
      have hIdle :
          Relays server (s.interrupt reached s.awaiting) r :=
        hRelays.interrupt s.awaiting
      exact ⟨r.restart,
        { hIdle with
          results := rfl
          offset := rfl
          restarts := by
            change s.restarts + 1 = r.restarts + 1
            rw [hRelays.restarts] },
        hDelivers.restart⟩

------------------------------------------------------------
-- Requests And Replies
------------------------------------------------------------

/-
  One request is made for each message that is handled, and
  it is replied to in turn if its result has come.
-/
structure Answered (s : TelegramState Server) : Prop where
  requested :
    s.requests.map (·.message) ++ s.awaiting.toList =
      s.handled.filterMap TelegramUpdate.channelMessage
  replied :
    s.replies = s.requests.filterMap EndedRequest.reply
  told : s.restarts = 0 →
    ∀ request ∈ s.requests, request.result.isSome = true

/- A request that ends is the one that is under way. -/
theorem Answered.finish
    {request : EndedRequest}
    (hAnswered : Answered s)
    (hAwaiting : s.awaiting = some request.message)
    (hTold : s.restarts = 0 → request.result.isSome = true) :
    Answered (s.finish request) where
  requested := by
    have hBefore := hAnswered.requested
    rw [hAwaiting] at hBefore
    change (s.requests ++ [request]).map _ ++ [] = _
    rw [List.append_nil, List.map_append]
    exact hBefore
  replied := by
    change s.replies ++ request.reply.toList =
      (s.requests ++ [request]).filterMap _
    rw [hAnswered.replied, List.filterMap_append]
    cases hReply : request.reply <;>
      simp [hReply]
  told := by
    intro hFirst other hOther
    rcases List.mem_append.mp hOther with hOld | hNew
    · exact hAnswered.told hFirst other hOld
    · rw [List.mem_singleton.mp hNew]
      exact hTold hFirst

theorem Answered.next
    (hAnswered : Answered s)
    (hIdle : s.awaiting = none)
    (hNext : s.next s.results = some s') :
    Answered s' := by
  cases hResults : s.results with
  | nil =>
      rw [hResults] at hNext
      cases hNext
  | cons update rest =>
      rw [hResults] at hNext
      cases hNext
      have hBefore := hAnswered.requested
      rw [hIdle, Option.toList_none, List.append_nil] at hBefore
      refine { hAnswered with requested := ?_ }
      change s.requests.map (·.message) ++
        update.channelMessage.toList = _
      rw [hBefore, List.filterMap_append]
      cases hMessage : update.channelMessage <;>
        simp [hMessage]

theorem Answered.restart
    {reached : Bool}
    (hAnswered : Answered s)
    (hStep : s.step server (.restart reached) = some s') :
    Answered s' := by
  cases hStep
  cases hAwaiting : s.awaiting with
  | none =>
      exact
        { requested := hAnswered.requested
          replied := hAnswered.replied
          told := fun hFirst => nomatch hFirst }
  | some message =>
      have hBefore := hAnswered.requested
      rw [hAwaiting] at hBefore
      constructor
      · change (s.requests ++ [_]).map _ ++ [] = _
        rw [List.append_nil, List.map_append]
        exact hBefore
      · change s.replies ++ [] = (s.requests ++ [_]).filterMap _
        rw [List.append_nil, List.filterMap_append,
          hAnswered.replied]
        exact (List.append_nil _).symm
      · exact fun hFirst => nomatch hFirst

theorem Answered.step
    (hAnswered : Answered s)
    (hStep : s.step server action = some s') :
    Answered s' := by
  cases action with
  | publish update =>
      unfold TelegramState.step at hStep
      dsimp only at hStep
      rw [Option.map_eq_some_iff] at hStep
      rcases hStep with ⟨t, _, rfl⟩
      exact { hAnswered with }
  | expire choice =>
      cases hStep
      exact { hAnswered with }
  | poll choice outcome =>
      unfold TelegramState.step at hStep
      dsimp only at hStep
      rw [Option.ite_none_right_eq_some] at hStep
      rcases hStep with ⟨_, hNext⟩
      cases hNext
      cases outcome <;> exact { hAnswered with }
  | next =>
      unfold TelegramState.step at hStep
      dsimp only at hStep
      rw [Option.ite_none_right_eq_some] at hStep
      exact hAnswered.next hStep.1 hStep.2
  | answer reached result =>
      unfold TelegramState.step TelegramState.answer at hStep
      dsimp only at hStep
      cases hAwaiting : s.awaiting with
      | none =>
          rw [hAwaiting] at hStep
          cases hStep
      | some message =>
          rw [hAwaiting, Option.ite_none_left_eq_some]
            at hStep
          rcases hStep with ⟨_, hNext⟩
          cases hNext
          exact hAnswered.finish hAwaiting fun _ => rfl
  | restart reached => exact hAnswered.restart hStep

/- What goes to the session of a conversation is its own. -/
theorem sent_to_session
    (conversation : Conversation) :
    ((s.sent config).filter fun call =>
        call.sessionId = conversation.sessionId config) =
      (((s.requests.filter (·.reached)).map
        (·.message)).filter fun message =>
          message.conversation = conversation).map
            (·.humanInput config) := by
  have hSent :
      s.sent config =
        ((s.requests.filter (·.reached)).map
          (·.message)).map (·.humanInput config) := by
    rw [List.map_map]
    rfl
  rw [hSent, List.filter_map]
  congr 2
  funext message
  have hSession :
      (message.humanInput config).sessionId =
          conversation.sessionId config ↔
        message.conversation = conversation :=
    Conversation.sessionId_inj
  simp only [Function.comp_apply, hSession]

/- The messages of requests are some of those handled. -/
theorem Answered.requests_prefix
    (hAnswered : Answered s) :
    s.requests.map (·.message) <+:
      s.handled.filterMap TelegramUpdate.channelMessage :=
  ⟨_, hAnswered.requested⟩

/- Requests that all reach the runtime leave nothing out. -/
theorem reached_messages
    {requests : List EndedRequest}
    {conversation : Conversation}
    (hReached : ∀ request ∈ requests,
      request.message.conversation = conversation →
        request.reached = true) :
    (((requests.filter (·.reached)).map (·.message)).filter
        fun message => message.conversation = conversation) =
      (requests.map (·.message)).filter
        fun message => message.conversation = conversation := by
  rw [List.filter_map, List.filter_map, List.filter_filter]
  congr 1
  apply List.filter_congr
  intro request hMem
  by_cases hOwn : request.message.conversation = conversation
  · simp [hOwn, hReached request hMem hOwn]
  · simp [hOwn]

/-
  Whatever polls, requests and replies fail and whenever the
  adapter restarts: an update that the server has forgotten
  has been handled or has expired, none is handled more often
  than the adapter was started, and each message that is
  handled makes one request. In its first life the requests
  reach the session of each chat in the order of its messages,
  and for all of them if none fails and nothing expires.
-/
theorem telegram_delivers
    (hServer : server.Documented)
    (hReach :
      Reaches (TelegramState.step server)
        { server := server.start } trace s) :
    TelegramDelivers server config s := by
  have hRelay : ∃ r : Relay TelegramUpdate Int,
      Relays server s r ∧ r.Delivers (·.updateId) := by
    refine hReach.always (I := fun s =>
      ∃ r, Relays server s r ∧ r.Delivers (·.updateId)) ?_ ?_
    · exact ⟨{},
        { published := hServer.starts.1
          unconfirmed := hServer.starts.2
          expired := rfl
          results := rfl
          offset := rfl
          handled := rfl
          restarts := rfl },
        Logs.delivers_start⟩
    · rintro s action s' ⟨r, hRelays, hDelivers⟩ hStep
      exact hRelays.step hServer hDelivers hStep
  have hAnswered : Answered s := by
    refine hReach.always (I := Answered) ?_
      (fun _ _ _ hAnswered hStep => hAnswered.step hStep)
    exact
      { requested := rfl
        replied := rfl
        told := fun _ _ hMem => nomatch hMem }
  rcases hRelay with ⟨r, hRelays, hDelivers⟩
  refine
    { accounted := ?_
      genuine := ?_
      repeats := ?_
      requested := hAnswered.requested
      ordered := ?_
      whole := ?_
      replied := hAnswered.replied
      told := hAnswered.told }
  · intro update hMem
    rw [hRelays.published] at hMem
    rw [hRelays.unconfirmed, hRelays.handled, hRelays.expired]
    exact hDelivers.accounted update hMem
  · rw [hRelays.handled, hRelays.published]
    exact hDelivers.handled_subset
  · intro id
    rw [hRelays.handled, hRelays.restarts]
    exact hDelivers.count_le id
  · intro hFirst conversation
    rw [hRelays.restarts] at hFirst
    have hHandled := hDelivers.handled_sublist hFirst
    rw [← hRelays.handled, ← hRelays.published] at hHandled
    have hReached :
        ((s.requests.filter (·.reached)).map
          (·.message)).Sublist (s.requests.map (·.message)) :=
      List.filter_sublist.map _
    have hMessages := hReached.trans
      (hAnswered.requests_prefix.sublist.trans
        (hHandled.filterMap TelegramUpdate.channelMessage))
    rw [sent_to_session]
    exact (hMessages.filter _).map _
  · intro hFirst hExpired conversation hReached
    rw [hRelays.restarts] at hFirst
    rw [hRelays.expired] at hExpired
    have hHandled := (List.prefix_append _ _).trans
      (hDelivers.handled_prefix hFirst hExpired)
    rw [← hRelays.handled, ← hRelays.published] at hHandled
    have hMessages := hAnswered.requests_prefix.trans
      (hHandled.filterMap TelegramUpdate.channelMessage)
    rw [sent_to_session, reached_messages hReached]
    exact (hMessages.filter _).map _

end Relaying

namespace Sample

def channels : ChannelConfig where
  runtimeUrl := "http://localhost:3000"
  defaultSessionPrefix := "rain"

/- What a server has been given, and what it keeps of it. -/
structure Updates where
  published : List TelegramUpdate := []
  unconfirmed : List TelegramUpdate := []

/- It sends and forgets as many updates as is chosen. -/
def server : TelegramServer Updates Nat where
  start := {}
  published := Updates.published
  unconfirmed := Updates.unconfirmed
  publish := fun t update =>
    if ∀ earlier ∈ t.published,
        earlier.updateId < update.updateId then
      some
        { published := t.published ++ [update]
          unconfirmed := t.unconfirmed ++ [update] }
    else none
  getUpdates := fun t offset count =>
    ({ t with unconfirmed := fromOffset offset t.unconfirmed },
      (fromOffset offset t.unconfirmed).take count)
  expire := fun t count =>
    { t with unconfirmed := t.unconfirmed.drop count }

theorem server_documented : server.Documented where
  starts := ⟨rfl, rfl⟩
  publishes := by
    intro t update t' hPublish
    unfold server at hPublish
    dsimp only at hPublish
    rw [Option.ite_none_right_eq_some] at hPublish
    rcases hPublish with ⟨hNewest, hNext⟩
    cases hNext
    exact ⟨hNewest, rfl, rfl⟩
  confirms := fun _ _ _ => ⟨rfl, rfl, List.take_prefix _ _⟩
  expires := fun _ _ => ⟨rfl, List.drop_suffix _ _⟩

def greeting : TelegramUpdate where
  updateId := 7
  message := some { chatId := 1, text := some "hello" }

def sticker : TelegramUpdate where
  updateId := 8
  message := some { chatId := 1 }

/-
  The request for a message fails, and the adapter is
  restarted before it confirms the updates.
-/
def restarted : List (TelegramAction Nat) :=
  [.publish greeting, .publish sticker, .poll 2 .answered,
    .next, .answer false (.error (.http "timeout")), .next,
    .restart false, .poll 1 .answered, .next]

def restartedRun :
    List (TelegramState Updates × TelegramAction Nat) ×
      TelegramState Updates :=
  follow (TelegramState.step server) []
    { server := server.start } restarted

end Sample

/- An update that was not confirmed is handled again. -/
theorem telegram_delivers_again :
    TelegramDelivers Sample.server Sample.channels
        Sample.restartedRun.2 ∧
      Sample.restartedRun.2.handled =
        [Sample.greeting, Sample.sticker, Sample.greeting] ∧
      (Sample.restartedRun.2.requests.map (·.reached)) =
        [false] :=
  ⟨telegram_delivers Sample.server_documented
    (follow_reaches Sample.restarted .start),
    by decide, by decide⟩

end RainEngine.Channels
