import Mutgos.CommInterface.ClientSession
import Mutgos.CommInterface.RouterSessionManager
import Mutgos.Lib.RecursiveLocks

/-!
# The locks of the communication layer

What the functions of `RouterSessionManager` and `ClientSession` lock and unlock, one after the
other, and what the channels do that call sessions back.  What a function finds (whether there
is a session, which channels are to be closed, who listens to a channel, whether service has
been requested before) is chosen when it starts.

## Implementation notes

Where `Channel` locks its own mutex again for a moment, this is left out.  Drivers and
connections have no locks, and do not call back where they are called under one.  Listeners of
a channel that are no sessions, and the locks of the other layers, are left out.
-/

namespace Mutgos.CommInterface

open LockCode

/-- The locks. -/
inductive CommLock where
  /-- `RouterSessionManager::callback_lock` -/
  | callback
  /-- `RouterSessionManager::router_lock` -/
  | router
  /-- `ClientSession::client_lock` -/
  | client (session : SessionPtr)
  /-- `Channel::channel_mutex` -/
  | channel (channel : ChannelPtr)
  deriving DecidableEq, Repr

/-- What is locked and unlocked. -/
abbrev CommCode := List (LockCode CommLock)

/-- A session that a channel calls back, and whether it requests service then. -/
structure Callback where
  session : SessionPtr
  asks : Bool
  deriving DecidableEq, Repr

/-- A channel, and whom it calls back in each of its functions that are called. -/
structure ChannelCalls where
  channel : ChannelPtr
  calls : List (List Callback)
  deriving DecidableEq, Repr

/-- What `process_pending` finds, unless the client is to be disconnected. -/
structure SessionWork where
  /-- The channels to be closed, if any. -/
  closed : Option (List ChannelCalls)
  unblocked : List (Option ChannelCalls)
  /-- Service is requested at the end. -/
  asks : Bool
  deriving DecidableEq, Repr

/-- What becomes of what a client sends. -/
inductive ClientDataOutcome where
  /-- There is no such channel. -/
  | ignored
  /-- The channel goes to the client. -/
  | wrongDirection (asks : Bool)
  /-- It is sent on the channel, or queued. -/
  | taken (asks : Bool) (c : ChannelCalls) (asksAgain : Bool)
  deriving DecidableEq, Repr

namespace CommCode

/-! ### Sessions and channels -/

/-- `request_service`, which asks the router or not. -/
def requestService (asks : Bool) : CommCode := if asks then locked .router [] else []

/-- A function of a session that may request service: `text_channel_data`,
`client_channel_data`, `channel_flow_blocked`, `channel_flow_open`, `channel_flow_closed`,
`request_disconnection`, `client_data_acknowledge`, `client_unblocked`. -/
def sessionCall (session : SessionPtr) (asks : Bool) : CommCode :=
  locked (.client session) (requestService asks)

/-- The callbacks of a channel. -/
def callBack (callbacks : List Callback) : CommCode :=
  callbacks.flatMap fun b => sessionCall b.session b.asks

/-- A function of a channel: `send_item`, `block_channel`, `unblock_channel`, `close_channel`
and those that register and unregister. -/
def channelCall (channel : ChannelPtr) (callbacks : List Callback) : CommCode :=
  locked (.channel channel) (callBack callbacks)

/-- Something is done with a `WriterLockToken`: when it unlocks, the channel looks whether it
should be deleted. -/
def withToken (channel : ChannelPtr) (body : CommCode) : CommCode :=
  locked (.channel channel) body ++ channelCall channel []

/-- `unregister_channel`: the listeners are taken out, the channel is closed, and the pointer is
given up. -/
def unregisterChannel (c : ChannelCalls) : CommCode := c.calls.flatMap (channelCall c.channel)

def processPendingChannelDeletes (session : SessionPtr) (closed : List ChannelCalls) : CommCode :=
  locked (.client session) [] ++ closed.flatMap unregisterChannel

/-- `process_pending_unblocked_channels`, for channels that are found or not. -/
def processPendingUnblockedChannels (session : SessionPtr)
    (unblocked : List (Option ChannelCalls)) : CommCode :=
  locked (.client session) [] ++
    unblocked.flatMap (fun found => locked (.client session) [] ++ found.elim [] fun c =>
      withToken c.channel (locked (.client session) (c.calls.flatMap (channelCall c.channel)))) ++
    locked (.client session) []

def processPending (session : SessionPtr) (work : Option SessionWork) : CommCode :=
  locked (.client session) [] ++ work.elim [] fun w =>
    w.closed.elim [] (processPendingChannelDeletes session) ++
      processPendingUnblockedChannels session w.unblocked ++ sessionCall session w.asks

def clientData (session : SessionPtr) (outcome : ClientDataOutcome) : CommCode :=
  locked (.client session) [] ++
    match outcome with
    | .ignored => []
    | .wrongDirection asks => sessionCall session asks
    | .taken asks c asksAgain =>
      withToken c.channel (locked (.client session)
        (requestService asks ++ c.calls.flatMap (channelCall c.channel) ++
          requestService asksAgain))

def channelAdded (session : SessionPtr) (channel : ChannelPtr) (asks : Bool) : CommCode :=
  withToken channel (locked (.client session) (requestService asks ++ channelCall channel []))

/-! ### The router -/

def releaseConnection : CommCode := locked .callback (locked .router [])

def addSession : CommCode := locked .callback (locked .router [])

def removeSession : CommCode := locked .callback (locked .router [])

/-- `disconnect_session`, for a player that is online or not. -/
def disconnectSession (online : Bool) : CommCode :=
  locked .router [] ++ if online then removeSession else []

/-- `authorize_client` with a good password, for a player that is online or not. -/
def authorizeClient (online : Bool) : CommCode :=
  locked .router (if online then disconnectSession true else []) ++ addSession

def setClientConnection (session : SessionPtr) (asks : Bool) : CommCode :=
  locked (.client session) (releaseConnection ++ requestService asks)

/-- `reauthorize_client` with a good password.  Where there is no session `makeNew` may say to
go on, and with what. -/
def reauthorizeClient (found : Option Callback) (makeNew : Option Bool) : CommCode :=
  match found with
  | some b => locked .callback (locked .router (setClientConnection b.session b.asks ++ addSession))
  | none => locked .callback (locked .router []) ++ makeNew.elim [] authorizeClient

def addChannel (found : Option Callback) (channel : ChannelPtr) : CommCode :=
  locked .callback
    (locked .router (found.elim [] fun b => channelAdded b.session channel b.asks))

/-- `get_session_stats`, of a player or of all at a site, and the check who is idle. -/
def getSessionStats (sessions : List SessionPtr) : CommCode :=
  locked .router (sessions.flatMap fun session => locked (.client session) [])

/-- `~ClientSession` -/
def deleteSession (session : SessionPtr) (channels : List ChannelCalls) : CommCode :=
  locked (.client session) [] ++ channels.flatMap unregisterChannel ++
    locked (.client session) releaseConnection

def serviceSessions (sessions : List (SessionPtr × Option SessionWork))
    (deletes : Option (List (SessionPtr × List ChannelCalls))) : CommCode :=
  locked .callback (locked .router [] ++
    sessions.flatMap (fun p => processPending p.1 p.2) ++
    deletes.elim [] fun ps => locked .router [] ++ ps.flatMap fun p => deleteSession p.1 p.2)

end CommCode

/-- The functions that threads call. -/
inductive CommCall where
  | authorizeClient (online : Bool)
  | reauthorizeClient (found : Option Callback) (makeNew : Option Bool)
  | addChannel (found : Option Callback) (channel : ChannelPtr)
  | disconnectSession (online : Bool)
  | getSessionStats (sessions : List SessionPtr)
  | serviceSessions (sessions : List (SessionPtr × Option SessionWork))
      (deletes : Option (List (SessionPtr × List ChannelCalls)))
  | clientData (session : SessionPtr) (outcome : ClientDataOutcome)
  /-- Anyone calls a channel, which calls sessions back. -/
  | channelCall (channel : ChannelPtr) (callbacks : List Callback)
  /-- Anyone calls a session. -/
  | sessionCall (session : SessionPtr) (asks : Bool)
  deriving DecidableEq, Repr

/-- What a function locks and unlocks. -/
def CommCall.program : CommCall → CommCode
  | authorizeClient online => CommCode.authorizeClient online
  | reauthorizeClient found makeNew => CommCode.reauthorizeClient found makeNew
  | addChannel found channel => CommCode.addChannel found channel
  | disconnectSession online => CommCode.disconnectSession online
  | getSessionStats sessions => CommCode.getSessionStats sessions
  | serviceSessions sessions deletes => CommCode.serviceSessions sessions deletes
  | clientData session outcome => CommCode.clientData session outcome
  | channelCall channel callbacks => CommCode.channelCall channel callbacks
  | sessionCall session asks => CommCode.sessionCall session asks

end Mutgos.CommInterface
