import Mathlib.Algebra.Group.Nat.Defs
import Mutgos.Channels.FlowContract
import Mutgos.Executor.Steps
import Mutgos.Lib.VectorSet
import Mutgos.Text.ExternalText

/-!
# Sessions of clients

`comm::ClientSession`: what goes to the client is queued, sent and kept until the client has
acknowledged it, and what comes from the client goes to its channels, or waits for them.  The
fields are here, and what changes nothing else; for what is done with channels see
`Mutgos.CommInterface.SessionWorld`.

Whether the client is enhanced, its type and source, the times of activity and the entity are
left out: nothing here depends on them.
-/

namespace Mutgos.CommInterface

open Channels Text
open Executor (findFree)

/-- A numerical ID for a channel, unique per connection. -/
abbrev ChannelId := ℕ

/-- Serial number for a message to or from a client.  0 is always invalid. -/
abbrev MessageSerialId := ℕ

/-- The address of a `Channel`. -/
abbrev ChannelPtr := ℕ

/-- What is sent over a channel.  What is in a `ClientMessage` is not looked at. -/
inductive ClientData where
  | text (line : ExternalTextLine)
  | message (content : ByteString)
  deriving DecidableEq

/-- The type of channel that something is sent over. -/
def ClientData.channelType : ClientData → ChannelType
  | .text _ => .text
  | .message _ => .clientData

inductive ChannelStatus where
  | statusOpen | statusClose | statusBlock | statusUnblock
  deriving DecidableEq

/-- `message::ChannelStatusChange`, without what the channel is called. -/
structure ChannelStatusChange where
  status : ChannelStatus
  out : Bool
  channelId : ChannelId
  deriving DecidableEq

/-- What a `RouterEvent` holds. -/
inductive RouterEventData where
  | data (data : ClientData)
  | channelStatus (change : ChannelStatusChange)
  deriving DecidableEq

structure RouterEvent where
  /-- `event_serial_id` -/
  serialId : MessageSerialId
  /-- `event_channel_id` -/
  channelId : ChannelId
  /-- `event_type` and `event_data` -/
  data : RouterEventData
  deriving DecidableEq

inductive SendReturnCode where
  | sendOk | sendOkBlocked | sendBlocked | sendDisconnected | sendNotSupported
  deriving DecidableEq

structure ChannelInfo where
  id : ChannelId
  channel : ChannelPtr
  /-- True if this channel sends towards the client. -/
  out : Bool
  closed : Bool
  /-- True if the channel is blocked or new data must still be queued. -/
  blocked : Bool
  deriving DecidableEq

structure ClientSession where
  /-- `outgoing_events`: events that need to go to the client, oldest first. -/
  outgoingEvents : List RouterEvent
  /-- `sent_events`: events that have gone to the client but are not acknowledged. -/
  sentEvents : List RouterEvent
  /-- History: all events for the client so far. -/
  queuedEvents : List RouterEvent
  outgoingSerAck : MessageSerialId
  incomingSerAck : MessageSerialId
  needsIncomingSerAckSent : Bool
  hasRequestedService : Bool
  needHandleReconnect : Bool
  needDisconnect : Bool
  waitReconnectResponse : Bool
  clientIsBlocked : Bool
  clientIsConnected : Bool
  lastUsedChannelId : ChannelId
  lastUsedMessageSerId : MessageSerialId
  clientWindowSize : ℕ
  activeChannels : List ChannelInfo
  blockedChannelQueues : List (ChannelId × List RouterEvent)
  pendingChannelsDelete : List ChannelId
  pendingChannelsUnblock : List ChannelId
  deriving DecidableEq

def maxChannels : ℕ := 2 ^ 32 - 2

/-- The message ID after another one: 0 is skipped. -/
def nextMessageId (last : MessageSerialId) : MessageSerialId :=
  if (last + 1) % 2 ^ 32 = 0 then 1 else (last + 1) % 2 ^ 32

namespace ClientSession

/-- The constructor. -/
def new (clientWindowSize : ℕ) : ClientSession where
  outgoingEvents := []
  sentEvents := []
  queuedEvents := []
  outgoingSerAck := 0
  incomingSerAck := 0
  needsIncomingSerAckSent := false
  hasRequestedService := false
  needHandleReconnect := false
  needDisconnect := false
  waitReconnectResponse := false
  clientIsBlocked := false
  clientIsConnected := true
  lastUsedChannelId := 0
  lastUsedMessageSerId := 0
  clientWindowSize := clientWindowSize
  activeChannels := []
  blockedChannelQueues := []
  pendingChannelsDelete := []
  pendingChannelsUnblock := []

/-! ### Service and events for the client -/

/-- `request_service`, up to `session_has_pending_actions`. -/
def requestService (s : ClientSession) : ClientSession := { s with hasRequestedService := true }

/-- `request_service`, if the client is not blocked. -/
def requestServiceUnlessBlocked (s : ClientSession) : ClientSession :=
  if s.clientIsBlocked then s else s.requestService

/-- The client is to be disconnected. -/
def disconnectSoon (s : ClientSession) : ClientSession :=
  { s with needDisconnect := true }.requestService

/-- An event is put at the end of `outgoing_events`, with the next message ID. -/
def queueEvent (s : ClientSession) (channelId : ChannelId) (data : RouterEventData) :
    ClientSession :=
  let event : RouterEvent := ⟨nextMessageId s.lastUsedMessageSerId, channelId, data⟩
  { s with
    outgoingEvents := s.outgoingEvents ++ [event]
    queuedEvents := s.queuedEvents ++ [event]
    lastUsedMessageSerId := event.serialId }

/-- An event with `make_channel_status_change`. -/
def queueStatusChange (s : ClientSession) (info : ChannelInfo) (status : ChannelStatus) :
    ClientSession :=
  s.queueEvent 0 (.channelStatus ⟨status, info.out, info.id⟩)

/-! ### Channels by ID and by address -/

/-- `get_channel_info` for an ID. -/
def getChannelInfo (s : ClientSession) (id : ChannelId) : Option ChannelInfo :=
  s.activeChannels.find? fun info => info.id = id

/-- `get_channel_info` for an address. -/
def getChannelInfoOf (s : ClientSession) (channel : ChannelPtr) : Option ChannelInfo :=
  s.activeChannels.find? fun info => info.channel = channel

/-- The channel with an ID is changed. -/
def updateChannelInfo (s : ClientSession) (id : ChannelId) (f : ChannelInfo → ChannelInfo) :
    ClientSession :=
  { s with activeChannels := s.activeChannels.map fun info => if info.id = id then f info else info }

/-- `get_next_channel_id`, with the ID as the last one that has been used.  `none` is that
there are too many channels. -/
def getNextChannelId (s : ClientSession) : Option ChannelId :=
  let following := if s.lastUsedChannelId + 1 ≥ maxChannels then 1 else s.lastUsedChannelId + 1
  if s.activeChannels.length ≥ maxChannels then none
  else (findFree (fun id => (s.getChannelInfo id).isSome) maxChannels maxChannels following).map
    Prod.fst

def addPendingUnblockedChannel (s : ClientSession) (id : ChannelId) : ClientSession :=
  if id ≠ 0 ∧ id ∉ s.pendingChannelsUnblock then
    { s with pendingChannelsUnblock := s.pendingChannelsUnblock ++ [id] }
  else s

def removePendingUnblockedChannel (s : ClientSession) (id : ChannelId) : ClientSession :=
  if id ≠ 0 then { s with pendingChannelsUnblock := s.pendingChannelsUnblock.erase id } else s

/-! ### What waits for channels -/

/-- `get_blocked_queue`, where a queue that there is not is an empty one. -/
def blockedQueue (s : ClientSession) (id : ChannelId) : List RouterEvent :=
  ((s.blockedChannelQueues.find? fun entry => entry.1 = id).map Prod.snd).getD []

/-- The queue of a channel in the vector of queues, which is made if there is none. -/
def setQueue (id : ChannelId) (queue : List RouterEvent) :
    List (ChannelId × List RouterEvent) → List (ChannelId × List RouterEvent)
  | [] => [(id, queue)]
  | entry :: entries =>
    if entry.1 = id then (id, queue) :: entries else entry :: setQueue id queue entries

/-- The queue of a channel is changed. -/
def setBlockedQueue (s : ClientSession) (id : ChannelId) (queue : List RouterEvent) :
    ClientSession :=
  { s with blockedChannelQueues := setQueue id queue s.blockedChannelQueues }

/-- `remove_blocked_queue`: it is emptied, and the empty queues at the end are removed. -/
def removeBlockedQueue (s : ClientSession) (id : ChannelId) : ClientSession :=
  if s.blockedChannelQueues.any fun entry => entry.1 = id then
    { s with
      blockedChannelQueues :=
        (setQueue id [] s.blockedChannelQueues).rdropWhile fun entry => entry.2.isEmpty }
  else s

/-- Data is put in the queue of its channel, and the client is to be disconnected if there is
too much.  Of the two functions that do so, only the one for text asks for service then. -/
def queueData (s : ClientSession) (id : ChannelId) (serId : MessageSerialId) (data : ClientData) :
    ClientSession :=
  let queue := s.blockedQueue id ++ [⟨serId, 0, .data data⟩]
  let s := s.setBlockedQueue id queue
  if queue.length + 1 > s.clientWindowSize then
    match data with
    | .text _ => s.disconnectSoon
    | .message _ => { s with needDisconnect := true }
  else s

/-- A message from the client is to be acknowledged. -/
def acknowledgeSoon (s : ClientSession) (serId : MessageSerialId) : ClientSession :=
  { s with incomingSerAck := serId, needsIncomingSerAckSent := true }.requestServiceUnlessBlocked

/-- A channel is blocked, as far as the session knows. -/
def setBlocked (s : ClientSession) (id : ChannelId) (blocked : Bool) : ClientSession :=
  s.updateChannelInfo id fun info => { info with blocked := blocked }

/-! ### What the connection calls -/

def setClientConnection (s : ClientSession) (windowSize : ℕ) : ClientSession :=
  { s with
    clientWindowSize := windowSize
    clientIsBlocked := false
    clientIsConnected := true
    needDisconnect := false
    needHandleReconnect := true
    waitReconnectResponse := true
    needsIncomingSerAckSent := false }.requestService

def clientDisconnected (s : ClientSession) : ClientSession := { s with clientIsConnected := false }

def requestDisconnection (s : ClientSession) : ClientSession := s.disconnectSoon

/-- Without the events up to the first one with an ID. -/
def dropThrough (serId : MessageSerialId) (events : List RouterEvent) : List RouterEvent :=
  (events.dropWhile fun event => event.serialId ≠ serId).tail

def clientDataAcknowledge (s : ClientSession) (serId : MessageSerialId) : ClientSession :=
  if serId = 0 then s.disconnectSoon
  else if s.sentEvents.any fun event => event.serialId = serId then
    let s :=
      { s with outgoingSerAck := serId, sentEvents := dropThrough serId s.sentEvents }
    if s.outgoingEvents ≠ [] then s.requestService else s
  else s.disconnectSoon

/-- The beginning of `client_data_acknowledge_reconnect`. -/
def acknowledgeReconnect (s : ClientSession) (serId : MessageSerialId) : ClientSession :=
  if !s.waitReconnectResponse then { s with needDisconnect := true }
  else
    let s := { s with waitReconnectResponse := false }
    if serId = 0 then { s with outgoingSerAck := 0 }
    else if serId ≠ s.outgoingSerAck then s.clientDataAcknowledge serId
    else s

def clientDataAcknowledgeReconnect (s : ClientSession) (serId : MessageSerialId) :
    ClientSession :=
  let s := s.acknowledgeReconnect serId
  if !s.needDisconnect then
    { s with outgoingEvents := s.sentEvents ++ s.outgoingEvents, sentEvents := [] }.requestService
  else s.requestService

def clientUnblocked (s : ClientSession) : ClientSession :=
  let s := { s with clientIsBlocked := false }
  if s.outgoingEvents ≠ [] then s.requestService else s

/-! ### What channels call -/

def channelFlowBlocked (s : ClientSession) (channel : ChannelPtr) : ClientSession :=
  match s.getChannelInfoOf channel with
  | none => s
  | some info =>
    if info.out then s
    else
      let s := s.removePendingUnblockedChannel info.id
      if info.blocked then s
      else
        ((s.setBlocked info.id true).queueStatusChange info
          .statusBlock).requestServiceUnlessBlocked

def channelFlowOpen (s : ClientSession) (channel : ChannelPtr) : ClientSession :=
  match s.getChannelInfoOf channel with
  | none => s
  | some info =>
    if info.out then s
    else (s.addPendingUnblockedChannel info.id).requestServiceUnlessBlocked

def channelFlowClosed (s : ClientSession) (channel : ChannelPtr) : ClientSession :=
  match s.getChannelInfoOf channel with
  | none => s
  | some info =>
    let s := s.queueStatusChange info .statusClose
    let s := { s with pendingChannelsDelete := s.pendingChannelsDelete ++ [info.id] }
    (s.updateChannelInfo info.id fun info => { info with closed := true }).requestServiceUnlessBlocked

def channelDestructed (s : ClientSession) (channel : ChannelPtr) : ClientSession :=
  s.channelFlowClosed channel

/-- The callback for a status. -/
def channelFlow (s : ClientSession) (channel : ChannelPtr) : FlowStatus → ClientSession
  | .flowBlocked => s.channelFlowBlocked channel
  | .flowOpen => s.channelFlowOpen channel
  | .flowClosed => s.channelFlowClosed channel
  | .destructed => s.channelDestructed channel

/-- `text_channel_data` and `client_channel_data` -/
def channelData (s : ClientSession) (channel : ChannelPtr) (data : ClientData) : ClientSession :=
  match s.getChannelInfoOf channel with
  | none => s
  | some info => (s.queueEvent info.id (.data data)).requestServiceUnlessBlocked

/-! ### Sending to the client -/

def processSendReturnCode (s : ClientSession) : SendReturnCode → Bool × ClientSession
  | .sendOk => (true, s)
  | .sendOkBlocked => (true, { s with clientIsBlocked := true })
  | .sendBlocked => (false, { s with clientIsBlocked := true })
  | .sendDisconnected => (false, { s with clientIsBlocked := true, clientIsConnected := false })
  | .sendNotSupported => (false, { s with clientIsBlocked := true }.disconnectSoon)

/-- The loop over `outgoing_events`, with the answers of the connection in turn, which are
`SEND_OK` where the list of them has ended.  An answer that does not accept an event blocks the
client, which ends the loop. -/
def sendOutgoing : List RouterEvent → List SendReturnCode → ClientSession → ClientSession
  | [], _, s => s
  | event :: rest, answers, s =>
    if s.clientIsBlocked || s.clientWindowSize ≤ s.sentEvents.length then s
    else
      match s.processSendReturnCode (answers.headD .sendOk) with
      | (true, s) =>
        sendOutgoing rest answers.tail
          { s with outgoingEvents := rest, sentEvents := s.sentEvents ++ [event] }
      | (false, s) => s

/-- An acknowledgement is to be sent in `process_pending`. -/
def sendsAcknowledgement (s : ClientSession) : Bool :=
  !s.needHandleReconnect && !s.waitReconnectResponse && !s.clientIsBlocked &&
    s.needsIncomingSerAckSent

/-- The end of `process_pending`: the handshake after a reconnect, or an acknowledgement and
what waits for the client. -/
def sendPending (s : ClientSession) (answers : List SendReturnCode) : ClientSession :=
  if s.needHandleReconnect then
    { s with
      needsIncomingSerAckSent := false
      needHandleReconnect := false
      waitReconnectResponse := true }
  else if !s.waitReconnectResponse && !s.clientIsBlocked then
    if s.needsIncomingSerAckSent then
      let s := { s with needsIncomingSerAckSent := false }
      let s := (s.processSendReturnCode (answers.headD .sendOk)).2
      sendOutgoing s.outgoingEvents answers.tail s
    else sendOutgoing s.outgoingEvents answers s
  else s

end ClientSession

end Mutgos.CommInterface
