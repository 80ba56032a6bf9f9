import Mutgos.CommInterface.ClientSession

/-!
# A session and its channels

A `ClientSession` with the channels that there are.  Each operation is one step, taken under
its locks.  While an item is in the hands of the receiver of a channel, the receiver may call
the channel; whoever else calls a channel does so in a step of its own.
-/

namespace Mutgos.CommInterface

open Channels Function

/-- The address of the session, as a listener to channels. -/
def sessionPtr : ListenerPtr := 1

/-- A session and the channels there are. -/
structure SessionWorld where
  session : ClientSession
  channels : ChannelPtr → Channel
  /-- History: what has come from the client for a channel. -/
  received : ChannelId → List ClientData
  /-- History: what a channel has taken. -/
  handed : ChannelId → List ClientData
  /-- History: something has been offered to a channel before what had come earlier. -/
  overtaken : Bool
  /-- Something has been sent over a channel of another class.  Nothing is known of what comes
  after that. -/
  miscast : Bool

namespace SessionWorld

/-! ### Calls of channels -/

/-- The callbacks to the session, of those who are told of the flow of a channel. -/
def tell (w : SessionWorld) (channel : ChannelPtr) (told : List (FlowRecipient × FlowStatus)) :
    SessionWorld :=
  { w with
    session := told.foldl (fun s notice =>
      if notice.1 = .listener sessionPtr then s.channelFlow channel notice.2 else s) w.session }

/-- A channel is called. -/
def callChannel (w : SessionWorld) (channel : ChannelPtr) (call : ChannelCall) :
    Bool × SessionWorld :=
  let outcome := (w.channels channel).call call
  (outcome.result,
    { w with channels := update w.channels channel outcome.channel }.tell channel
      outcome.told)

/-- The receiver of an item calls the channel. -/
def react (w : SessionWorld) (channel : ChannelPtr) (reaction : List ChannelCall) : SessionWorld :=
  reaction.foldl (fun w call => (w.callChannel channel call).2) w

/-- `send_item` of an open channel is called for something although not all that has come
before has been handed over. -/
def overtakes (w : SessionWorld) (id : ChannelId) (channel : ChannelPtr) (data : ClientData) :
    Bool :=
  !(w.channels channel).closed && !(w.handed id ++ [data]).isPrefixOf (w.received id)

/-- `send_item`, and what the receiver does then. -/
def offer (w : SessionWorld) (id : ChannelId) (channel : ChannelPtr) (data : ClientData)
    (reaction : List ChannelCall) : Bool × SessionWorld :=
  let w := { w with overtaken := w.overtaken || w.overtakes id channel data }
  match w.callChannel channel .send with
  | (true, w) =>
    (true, { w with handed := update w.handed id (w.handed id ++ [data]) }.react channel
      reaction)
  | (false, w) => (false, w)

/-! ### Data from the client -/

/-- Data has come for a channel. -/
def receive (w : SessionWorld) (id : ChannelId) (data : ClientData) : SessionWorld :=
  { w with received := update w.received id (w.received id ++ [data]) }

/-- Data is sent at once, or waits if the channel turns out to be blocked. -/
def sendData (w : SessionWorld) (info : ChannelInfo) (serId : MessageSerialId)
    (data : ClientData) (reaction : List ChannelCall) : SessionWorld :=
  match w.offer info.id info.channel data reaction with
  | (true, w) => w
  | (false, w) =>
    if (w.channels info.channel).closed then w
    else if (w.channels info.channel).blocked then
      { w with session := (w.session.setBlocked info.id true).queueData info.id serId data }
    else w

/-- `client_data`, both for text and for a `ClientMessage`. -/
def clientData (w : SessionWorld) (id : ChannelId) (serId : MessageSerialId) (data : ClientData)
    (reaction : List ChannelCall) : SessionWorld :=
  match w.session.getChannelInfo id with
  | none => w
  | some info =>
    if info.out then { w with session := w.session.disconnectSoon }
    else
      let w := { w with session := w.session.acknowledgeSoon serId }
      if info.blocked then
        { w.receive id data with session := w.session.queueData id serId data }
      else if info.closed then w.receive id data
      else if (w.channels info.channel).type ≠ data.channelType then
        { w with session := w.session.disconnectSoon }
      else (w.receive id data).sendData info serId data reaction

def clientRequestChannelClose (w : SessionWorld) (id : ChannelId) : SessionWorld :=
  match w.session.getChannelInfo id with
  | none => w
  | some info => (w.callChannel info.channel .close).2

/-! ### New channels -/

def channelAdded (w : SessionWorld) (channel : ChannelPtr) (toClient : Bool) :
    Option SessionWorld :=
  w.session.getNextChannelId.map fun id =>
    let blocked := !toClient && (w.channels channel).blocked
    let info : ChannelInfo := ⟨id, channel, toClient, false, blocked⟩
    let s := { w.session with
      lastUsedChannelId := id
      activeChannels := w.session.activeChannels ++ [info] }
    let s := (s.queueStatusChange info .statusOpen).requestServiceUnlessBlocked
    { w with
      session := s.queueStatusChange info (if blocked then .statusBlock else .statusUnblock)
      channels := update w.channels channel
        ((w.channels channel).registerControlListener sessionPtr)
      received := update w.received id []
      handed := update w.handed id [] }

/-! ### Channels that are open again -/

/-- What becomes of a queue that is sent over its channel. -/
structure Drained where
  world : SessionWorld
  /-- What is left of the queue. -/
  queue : List RouterEvent
  /-- What the receivers will do with the next items. -/
  reactions : List (List ChannelCall)
  /-- The channel is in an unknown state. -/
  invalid : Bool

/-- The loop over a queue.  It ends early if the channel is blocked or closed again. -/
def drainQueue (id : ChannelId) (channel : ChannelPtr) :
    List RouterEvent → List (List ChannelCall) → SessionWorld → Drained
  | [], reactions, w => ⟨w, [], reactions, false⟩
  | event :: rest, reactions, w =>
    match event.data with
    | .channelStatus _ => ⟨w, event :: rest, reactions, true⟩
    | .data data =>
      if (w.channels channel).type ≠ data.channelType then
        ⟨{ w with miscast := true }, event :: rest, reactions, false⟩
      else
        match w.offer id channel data (reactions.headD []) with
        | (true, w) => drainQueue id channel rest reactions.tail w
        | (false, w) =>
          ⟨w, event :: rest, reactions,
            !(w.channels channel).blocked && !(w.channels channel).closed⟩

/-- The state of `process_pending_unblocked_channels` between two channels. -/
structure Unblocking where
  world : SessionWorld
  invalidChannels : List ChannelId
  reactions : List (List ChannelCall)

/-- The channel is no longer blocked if everything has gone through. -/
def updateBlocked (w : SessionWorld) (info : ChannelInfo) : SessionWorld :=
  let blocked := (w.channels info.channel).blocked
  let s := w.session.setBlocked info.id blocked
  { w with session := if blocked then s else s.queueStatusChange info .statusUnblock }

/-- One round of the loop over the channels. -/
def processUnblockedChannel (u : Unblocking) (id : ChannelId) : Unblocking :=
  match u.world.session.getChannelInfo id with
  | none => { u with invalidChannels := u.invalidChannels ++ [id] }
  | some info =>
    if (u.world.channels info.channel).closed then u
    else
      let drained := drainQueue id info.channel (u.world.session.blockedQueue id) u.reactions
        u.world
      let w := { drained.world with
        session := drained.world.session.setBlockedQueue id drained.queue }
      { world := if drained.queue = [] then w.updateBlocked info else w
        invalidChannels :=
          if drained.invalid then u.invalidChannels ++ [id] else u.invalidChannels
        reactions := drained.reactions }

def processPendingUnblockedChannels (w : SessionWorld) (reactions : List (List ChannelCall)) :
    SessionWorld :=
  let ids := w.session.pendingChannelsUnblock
  let w := { w with session := { w.session with pendingChannelsUnblock := [] } }
  let u := ids.foldl processUnblockedChannel ⟨w, [], reactions⟩
  { u.world with
    session := u.invalidChannels.foldl (fun s id => s.removeBlockedQueue id) u.world.session }

/-! ### Channels that are closed -/

/-- The vector of channels without one of them: the last one takes its place, unless that is
the same channel. -/
def removeChannelInfo (info : ChannelInfo) (infos : List ChannelInfo) : List ChannelInfo :=
  if infos.getLast?.map ChannelInfo.channel = some info.channel then infos.erase info
  else VectorSet.swapRemove info infos

def deleteChannel (s : ClientSession) (id : ChannelId) : Option ChannelInfo × ClientSession :=
  if id = 0 then (none, s)
  else
    let s := s.removePendingUnblockedChannel id
    match s.getChannelInfo id with
    | none => (none, s)
    | some info =>
      let s := s.removeBlockedQueue id
      (some info, { s with activeChannels := removeChannelInfo info s.activeChannels })

def unregisterChannel (w : SessionWorld) (info : ChannelInfo) : SessionWorld :=
  let w := { w with
    channels := update w.channels info.channel
      ((w.channels info.channel).unregisterControlListener sessionPtr) }
  (w.callChannel info.channel .close).2

/-- The loop over `pending_channels_delete`. -/
def deleteChannels (s : ClientSession) (ids : List ChannelId) :
    List ChannelInfo × ClientSession :=
  ids.foldl (fun (infos, s) id =>
    match deleteChannel s id with
    | (some info, s) => (infos ++ [info], s)
    | (none, s) => (infos, s)) ([], s)

def processPendingChannelDeletes (w : SessionWorld) : SessionWorld :=
  let (infos, s) := deleteChannels w.session w.session.pendingChannelsDelete
  infos.foldl unregisterChannel { w with session := { s with pendingChannelsDelete := [] } }

/-! ### Steps -/

/-- `process_pending`, with what the connection answers and what receivers do. -/
def processPending (w : SessionWorld) (answers : List SendReturnCode)
    (reactions : List (List ChannelCall)) : SessionWorld :=
  let w := { w with session := { w.session with hasRequestedService := false } }
  if w.session.needDisconnect then
    { w with session := { w.session with clientIsConnected := false } }
  else
    let w := if w.session.pendingChannelsDelete ≠ [] then w.processPendingChannelDeletes else w
    let w := w.processPendingUnblockedChannels reactions
    { w with session := w.session.sendPending answers }

end SessionWorld

/-- An operation of a session, or a call of a channel by somebody else. -/
inductive SessionCall where
  | setClientConnection (windowSize : ℕ)
  | clientDisconnected
  | requestDisconnection
  | processPending (answers : List SendReturnCode) (reactions : List (List ChannelCall))
  | clientDataAcknowledge (serId : MessageSerialId)
  | clientDataAcknowledgeReconnect (serId : MessageSerialId)
  | clientUnblocked
  | clientData (id : ChannelId) (serId : MessageSerialId) (data : ClientData)
      (reaction : List ChannelCall)
  | clientRequestChannelClose (id : ChannelId)
  | channelAdded (channel : ChannelPtr) (toClient : Bool)
  | channelData (channel : ChannelPtr) (data : ClientData)
  | channelFlow (channel : ChannelPtr) (status : FlowStatus)
  | callChannel (channel : ChannelPtr) (call : ChannelCall)
  deriving DecidableEq

namespace SessionWorld

/-- An operation that the session does by itself. -/
def ofSession (w : SessionWorld) (f : ClientSession → ClientSession) : SessionWorld :=
  { w with session := f w.session }

/-- What an operation does.  There is nothing to be said after something has been sent over a
channel of another class. -/
def step (w : SessionWorld) (call : SessionCall) : Option SessionWorld :=
  if w.miscast then none
  else
    match call with
    | .setClientConnection windowSize => some (w.ofSession (·.setClientConnection windowSize))
    | .clientDisconnected => some (w.ofSession (·.clientDisconnected))
    | .requestDisconnection => some (w.ofSession (·.requestDisconnection))
    | .processPending answers reactions => some (w.processPending answers reactions)
    | .clientDataAcknowledge serId => some (w.ofSession (·.clientDataAcknowledge serId))
    | .clientDataAcknowledgeReconnect serId =>
      some (w.ofSession (·.clientDataAcknowledgeReconnect serId))
    | .clientUnblocked => some (w.ofSession (·.clientUnblocked))
    | .clientData id serId data reaction => some (w.clientData id serId data reaction)
    | .clientRequestChannelClose id => some (w.clientRequestChannelClose id)
    | .channelAdded channel toClient => w.channelAdded channel toClient
    | .channelData channel data => some (w.ofSession (·.channelData channel data))
    | .channelFlow channel status => some (w.ofSession (·.channelFlow channel status))
    | .callChannel channel call => some (w.callChannel channel call).2

/-- A new session, and channels that have been made and called before. -/
structure Starts (w : SessionWorld) : Prop where
  session : ∃ windowSize, w.session = .new windowSize
  channels : ∀ channel, (w.channels channel).Settled
  overtaken : w.overtaken = false
  miscast : w.miscast = false

/-- A new session, and new channels of one type. -/
def start (windowSize : ℕ) (type : ChannelType) : SessionWorld where
  session := .new windowSize
  channels := fun _ => .new type [] (0, 0) []
  received := fun _ => []
  handed := fun _ => []
  overtaken := false
  miscast := false

theorem starts_start (windowSize : ℕ) (type : ChannelType) : (start windowSize type).Starts :=
  ⟨⟨windowSize, rfl⟩, fun _ => Channel.settled_new _ _ _ _, rfl, rfl⟩

end SessionWorld

end Mutgos.CommInterface
