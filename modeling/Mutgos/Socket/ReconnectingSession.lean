import Mutgos.Socket.ChannelTables

/-!
# A session whose telnet connection is replaced

The part of `comm::ClientSession` that is about channels and the events that tell of them, with
what its connection knows, over any number of connections.  `process_pending` holds the lock of the
session in turns, and so it is a step for each turn.

Only events about channels are there, without their serial IDs: what else goes to the client
changes nothing that the connection knows of channels.  How many events a turn sends depends on the
client's window and on the connection's answers, and how many are acknowledged on what the user has
typed; both are arbitrary here.  A free channel ID is one that no active channel has.
-/

namespace Mutgos.Socket

open CommInterface Text

/-- `ClientSession::ChannelInfo`, with what its channel is called. -/
structure NamedChannel extends ChannelInfo where
  channelName : ByteString
  channelSubtype : ByteString
  deriving DecidableEq

namespace NamedChannel

def valid (c : NamedChannel) : Bool := c.channel ≠ 0

def makeChannelStatusChange (c : NamedChannel) (status : ChannelStatus) : NamedStatusChange where
  status := status
  out := c.out
  channelId := c.id
  channelName := c.channelName
  channelSubtype := c.channelSubtype

/-- What `get_current_channel_info` says of a channel. -/
def clientChannelInfo (c : NamedChannel) : ClientChannelInfo where
  channelId := c.id
  channelName := c.channelName
  channelIsOutgoing := c.out
  channelIsBlocked := c.blocked

end NamedChannel

/-- How far `process_pending` has got. -/
inductive ProcessPending where
  | idle
  /-- There are channels to remove. -/
  | deleting
  /-- They have been removed, and nothing has been sent yet. -/
  | working
  deriving DecidableEq

/-- The session and its connection, as far as channels go. -/
structure ReconnectingSession where
  activeChannels : List NamedChannel
  pendingChannelsDelete : List ChannelId
  /-- History: what has been acknowledged. -/
  acknowledged : List NamedStatusChange
  sentEvents : List NamedStatusChange
  outgoingEvents : List NamedStatusChange
  needHandleReconnect : Bool
  waitReconnectResponse : Bool
  needDisconnect : Bool
  processing : ProcessPending
  /-- `client_ptr` -/
  client : ChannelTables
  deriving DecidableEq

namespace ReconnectingSession

/-- The constructor, with a connection that is new. -/
def start : ReconnectingSession where
  activeChannels := []
  pendingChannelsDelete := []
  acknowledged := []
  sentEvents := []
  outgoingEvents := []
  needHandleReconnect := false
  waitReconnectResponse := false
  needDisconnect := false
  processing := .idle
  client := .new

/-! ### Channels -/

/-- `get_channel_info` for an ID. -/
def getChannelInfo (w : ReconnectingSession) (id : ChannelId) : Option NamedChannel :=
  w.activeChannels.find? fun c => c.id = id

/-- `get_channel_info` for an address. -/
def getChannelInfoOf (w : ReconnectingSession) (channel : ChannelPtr) : Option NamedChannel :=
  w.activeChannels.find? fun c => c.channel = channel

/-- The channel with an ID is changed. -/
def updateChannelInfo (w : ReconnectingSession) (id : ChannelId)
    (f : NamedChannel → NamedChannel) : ReconnectingSession :=
  { w with activeChannels := w.activeChannels.map fun c => if c.id = id then f c else c }

/-- An event is put at the end of `outgoing_events`. -/
def queueStatusChange (w : ReconnectingSession) (c : NamedChannel) (status : ChannelStatus) :
    ReconnectingSession :=
  { w with outgoingEvents := w.outgoingEvents ++ [c.makeChannelStatusChange status] }

/-- `channel_added`, after an ID has been found.  Channels to the client count as unblocked. -/
def channelAdded (w : ReconnectingSession) (id : ChannelId) (channel : ChannelPtr)
    (channelName channelSubtype : ByteString) (toClient channelIsBlocked : Bool) :
    ReconnectingSession :=
  let blocked := !toClient && channelIsBlocked
  let info : NamedChannel :=
    { id := id, channel := channel, out := toClient, closed := false, blocked := blocked
      channelName := channelName, channelSubtype := channelSubtype }
  let w := { w with activeChannels := w.activeChannels ++ [info] }
  (w.queueStatusChange info .statusOpen).queueStatusChange info
    (if blocked then .statusBlock else .statusUnblock)

def channelFlowBlocked (w : ReconnectingSession) (channel : ChannelPtr) : ReconnectingSession :=
  match w.getChannelInfoOf channel with
  | none => w
  | some info =>
    if info.out || info.blocked then w
    else
      (w.updateChannelInfo info.id fun c => { c with blocked := true }).queueStatusChange info
        .statusBlock

/-- `channel_flow_closed`, which is also what `channel_destructed` calls. -/
def channelFlowClosed (w : ReconnectingSession) (channel : ChannelPtr) : ReconnectingSession :=
  match w.getChannelInfoOf channel with
  | none => w
  | some info =>
    let w := w.queueStatusChange info .statusClose
    { w.updateChannelInfo info.id fun c => { c with closed := true } with
      pendingChannelsDelete := w.pendingChannelsDelete ++ [info.id] }

/-- `client_data`, where it finds that the channel is blocked: no event tells of it. -/
def clientDataBlocked (w : ReconnectingSession) (id : ChannelId) : ReconnectingSession :=
  match w.getChannelInfo id with
  | none => w
  | some info =>
    if info.out || info.blocked || info.closed then w
    else w.updateChannelInfo id fun c => { c with blocked := true }

/-! ### What the router calls -/

/-- What `delete_channel` does with `active_channels`: the channel is removed, or the last one
takes its place. -/
def deleteFrom (channels : List NamedChannel) (id : ChannelId) : List NamedChannel :=
  match channels.findIdx? fun c => c.id = id with
  | none => channels
  | some i =>
    match channels[i]?, channels.getLast? with
    | some c, some last =>
      if last.channel = c.channel then channels.eraseIdx i else (channels.set i last).dropLast
    | _, _ => channels

/-- `process_pending` begins. -/
def startProcessPending (w : ReconnectingSession) : ReconnectingSession :=
  if w.needDisconnect then w
  else { w with processing := if w.pendingChannelsDelete = [] then .working else .deleting }

def processPendingChannelDeletes (w : ReconnectingSession) : ReconnectingSession :=
  { w with
    activeChannels := w.pendingChannelsDelete.foldl deleteFrom w.activeChannels
    pendingChannelsDelete := []
    processing := .working }

/-- `process_pending_unblocked_channels`, for a channel whose queue is empty now. -/
def unblockChannel (w : ReconnectingSession) (id : ChannelId) (channelIsBlocked : Bool) :
    ReconnectingSession :=
  match w.getChannelInfo id with
  | none => w
  | some info =>
    let w := w.updateChannelInfo id fun c => { c with blocked := channelIsBlocked }
    if channelIsBlocked then w else w.queueStatusChange info .statusUnblock

def getCurrentChannelInfo (w : ReconnectingSession) : List ClientChannelInfo :=
  (w.activeChannels.filter NamedChannel.valid).map NamedChannel.clientChannelInfo

/-- Some events are sent. -/
def sendEvents (w : ReconnectingSession) (count : ℕ) : ReconnectingSession :=
  { w with
    client := (w.outgoingEvents.take count).foldl ChannelTables.clientChannelStatusChanged w.client
    sentEvents := w.sentEvents ++ w.outgoingEvents.take count
    outgoingEvents := w.outgoingEvents.drop count }

/-- The last turn of `process_pending`: either the connection is told that it replaces another one,
or some events are sent. -/
def finishProcessPending (w : ReconnectingSession) (count : ℕ) : ReconnectingSession :=
  let w := { w with processing := .idle }
  if w.needHandleReconnect then
    { w with
      client := w.client.clientSendAcknowledgeDataReconnect w.getCurrentChannelInfo
      needHandleReconnect := false
      waitReconnectResponse := true }
  else if w.waitReconnectResponse then w
  else w.sendEvents count

/-! ### What connections call -/

/-- `set_client_connection`, with a connection that is new. -/
def setClientConnection (w : ReconnectingSession) : ReconnectingSession :=
  { w with
    client := .new
    needDisconnect := false
    needHandleReconnect := true
    waitReconnectResponse := true }

/-- `client_data_acknowledge`, for an event that is found. -/
def clientDataAcknowledge (w : ReconnectingSession) (count : ℕ) : ReconnectingSession :=
  { w with
    acknowledged := w.acknowledged ++ w.sentEvents.take count
    sentEvents := w.sentEvents.drop count }

/-- `client_data_acknowledge_reconnect`, which telnet connections call with 0. -/
def clientDataAcknowledgeReconnect (w : ReconnectingSession) : ReconnectingSession :=
  if w.waitReconnectResponse then
    let w := { w with waitReconnectResponse := false }
    if w.needDisconnect then w
    else { w with outgoingEvents := w.sentEvents ++ w.outgoingEvents, sentEvents := [] }
  else { w with needDisconnect := true }

/-- What is done to the session. -/
inductive Action where
  | channelAdded (id : ChannelId) (channel : ChannelPtr) (channelName channelSubtype : ByteString)
    (toClient channelIsBlocked : Bool)
  | channelFlowBlocked (channel : ChannelPtr)
  | channelFlowClosed (channel : ChannelPtr)
  | clientDataBlocked (id : ChannelId)
  | startProcessPending
  | processPendingChannelDeletes
  | unblockChannel (id : ChannelId) (channelIsBlocked : Bool)
  | finishProcessPending (count : ℕ)
  | setClientConnection
  | clientDataAcknowledge (count : ℕ)
  | clientDataAcknowledgeReconnect
  | requestDisconnection
  deriving DecidableEq

/-- Whether something can be done: the turns of `process_pending` come one after the other, and a
connection acknowledges only what it has been sent. -/
def enabled (w : ReconnectingSession) : Action → Bool
  | .channelAdded id channel _ _ _ _ =>
    channel ≠ 0 && id ≠ 0 && w.activeChannels.all fun c => c.id ≠ id
  | .startProcessPending => w.processing = .idle
  | .processPendingChannelDeletes => w.processing = .deleting
  | .unblockChannel _ _ | .finishProcessPending _ => w.processing = .working
  | .clientDataAcknowledge _ => !w.waitReconnectResponse
  | _ => true

/-- What something does. -/
def perform (w : ReconnectingSession) : Action → ReconnectingSession
  | .channelAdded id channel channelName channelSubtype toClient channelIsBlocked =>
    w.channelAdded id channel channelName channelSubtype toClient channelIsBlocked
  | .channelFlowBlocked channel => w.channelFlowBlocked channel
  | .channelFlowClosed channel => w.channelFlowClosed channel
  | .clientDataBlocked id => w.clientDataBlocked id
  | .startProcessPending => w.startProcessPending
  | .processPendingChannelDeletes => w.processPendingChannelDeletes
  | .unblockChannel id channelIsBlocked => w.unblockChannel id channelIsBlocked
  | .finishProcessPending count => w.finishProcessPending count
  | .setClientConnection => w.setClientConnection
  | .clientDataAcknowledge count => w.clientDataAcknowledge count
  | .clientDataAcknowledgeReconnect => w.clientDataAcknowledgeReconnect
  | .requestDisconnection => { w with needDisconnect := true }

/-- One step. -/
def step (w : ReconnectingSession) (action : Action) : Option ReconnectingSession :=
  if w.enabled action then some (w.perform action) else none

/-! ### What the connection has heard -/

/-- Every event of the session. -/
def log (w : ReconnectingSession) : List NamedStatusChange :=
  w.acknowledged ++ w.sentEvents ++ w.outgoingEvents

/-- What is not acknowledged and what is still queued. -/
def unacknowledged (w : ReconnectingSession) : List NamedStatusChange :=
  w.sentEvents ++ w.outgoingEvents

/-- What the connection has yet to hear. -/
def toReplay (w : ReconnectingSession) : List NamedStatusChange :=
  if w.waitReconnectResponse then w.unacknowledged else w.outgoingEvents

/-- A connection that has heard every event from the start. -/
def reference (w : ReconnectingSession) : ChannelTables :=
  w.log.foldl ChannelTables.clientChannelStatusChanged .new

/-- The connection, once it has heard what it has yet to hear. -/
def replayed (w : ReconnectingSession) : ChannelTables :=
  w.toReplay.foldl ChannelTables.clientChannelStatusChanged w.client

end ReconnectingSession

end Mutgos.Socket
