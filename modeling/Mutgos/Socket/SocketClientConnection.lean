import Mutgos.CommInterface.ClientSession
import Mutgos.Socket.IncomingLines

/-!
# The output of a telnet connection

`SocketClientConnection`: text for the client is gathered in a buffer, which is handed to the
socket when the driver calls `do_work`, and cleared when the socket has sent it.  The client does
not acknowledge what it has received, so the connection does it in its stead when there is more
than enough.

Text is here as it is put in the buffer: with the name of a puppet, and formatted.
-/

namespace Mutgos.Socket

open CommInterface Text

def targetPendingMessageBytes : ℕ := 4096

def incomingLinesAck : ℕ := 5

/-- What a connection calls its session for. -/
inductive SessionRequest where
  /-- `client_data_acknowledge` -/
  | acknowledge (serId : MessageSerialId)
  /-- `client_data_acknowledge_reconnect` -/
  | acknowledgeReconnect (serId : MessageSerialId)
  /-- `client_unblocked` -/
  | unblocked
  /-- `client_disconnected` -/
  | disconnected
  deriving DecidableEq

/-- `socket::SocketClientConnection`, as far as it is about output. -/
structure SocketClientConnection where
  clientWindowSize : ℕ
  maxPendingDataSize : ℕ
  clientBlocked : Bool
  clientConnected : Bool
  clientDoReconnect : Bool
  requestedService : Bool
  outgoingTextBuffer : ByteString
  outgoingControlBuffer : ByteString
  /-- `pending_serial_ids`, with the size of each message. -/
  pendingSerialIds : List (MessageSerialId × ℕ)
  pendingIdsMessageSize : ℕ
  ackLinesReceivedFromClient : ℕ
  deriving DecidableEq

namespace SocketClientConnection

/-- The constructor.  The window is as large as the buffer of the socket. -/
def new (socketSendBufferSize : UInt32) : SocketClientConnection where
  clientWindowSize := socketSendBufferSize.toNat
  maxPendingDataSize := socketSendBufferSize.toNat
  clientBlocked := false
  clientConnected := false
  clientDoReconnect := false
  requestedService := false
  outgoingTextBuffer := []
  outgoingControlBuffer := []
  pendingSerialIds := []
  pendingIdsMessageSize := 0
  ackLinesReceivedFromClient := 0

variable (c : SocketClientConnection)

/-- `request_service`; the driver calls `do_work` then. -/
def requestService : SocketClientConnection := { c with requestedService := true }

/-! ### What is acknowledged -/

/-- `pending_ser_ack`.  The size is 32 bits wide, the sum of the sizes 64. -/
def pendingSerAck (serId : MessageSerialId) (size : ℕ) : SocketClientConnection :=
  { c with
    pendingSerialIds := c.pendingSerialIds ++ [(serId, size % 2 ^ 32)]
    pendingIdsMessageSize := (c.pendingIdsMessageSize + size % 2 ^ 32) % 2 ^ 64 }

/-- The `target_size` of `ack_outgoing_data`. -/
def targetSize (fromClientInput : Bool) : ℕ :=
  if fromClientInput then
    let bufferHalf := targetPendingMessageBytes / 2
    let usedBufferHalf := c.pendingIdsMessageSize / 2
    if bufferHalf > usedBufferHalf then usedBufferHalf else bufferHalf
  else targetPendingMessageBytes

/-- The loop of `ack_outgoing_data`: the size that is left, and the messages from where it has
stopped. -/
def ackLoop (targetSize : ℕ) : (size : ℕ) → List (MessageSerialId × ℕ) →
    ℕ × List (MessageSerialId × ℕ)
  | size, [] => (size, [])
  | size, entry :: rest =>
    if size > targetSize then ackLoop targetSize (sizeSub size entry.2) rest
    else (size, entry :: rest)

/-- `ack_outgoing_data`.  Where the loop stops before the end, the message that it has stopped at
is acknowledged, and those before it are removed. -/
def ackOutgoingData (fromClientInput : Bool) : SocketClientConnection × List SessionRequest :=
  if c.pendingIdsMessageSize > c.targetSize fromClientInput then
    match c.pendingSerialIds.getLast? with
    | none => (c, [])
    | some last =>
      match ackLoop (c.targetSize fromClientInput) c.pendingIdsMessageSize c.pendingSerialIds with
      | (_, []) =>
        ({ c with pendingSerialIds := [], pendingIdsMessageSize := 0 }, [.acknowledge last.1])
      | (size, entry :: rest) =>
        ({ c with pendingSerialIds := entry :: rest, pendingIdsMessageSize := size },
          [.acknowledge entry.1])
  else (c, [])

/-! ### What the session calls -/

def sendTextLine (text : ByteString) : SendReturnCode × SocketClientConnection :=
  if !c.clientConnected then (.sendDisconnected, c)
  else if c.clientBlocked then (.sendBlocked, c)
  else
    let c := { c with outgoingTextBuffer := c.outgoingTextBuffer ++ text ++ [telnetLf] }
    if c.outgoingTextBuffer.length ≥ c.maxPendingDataSize then
      (.sendOkBlocked, { c with clientBlocked := true }.requestService)
    else (.sendOk, c.requestService)

/-- `client_send_data` for text. -/
def clientSendData (serId : MessageSerialId) (formattedOutput : ByteString) :
    SendReturnCode × SocketClientConnection :=
  if !c.clientConnected then (.sendDisconnected, c)
  else if c.clientBlocked then (.sendBlocked, c)
  else
    ((c.sendTextLine formattedOutput).1,
      (c.sendTextLine formattedOutput).2.pendingSerAck serId (formattedOutput.length + 1))

/-- `client_channel_status_changed`: nothing goes to the client. -/
def clientChannelStatusChanged (serId : MessageSerialId) :
    SendReturnCode × SocketClientConnection := (.sendOk, c.pendingSerAck serId 0)

def clientSendAcknowledgeDataReconnect : SocketClientConnection :=
  { c with clientDoReconnect := true }.requestService

def clientDisconnect : SocketClientConnection :=
  if c.clientConnected then { c with clientConnected := false, clientBlocked := true } else c

/-! ### What comes from the client and the socket -/

def sendControlTextRaw (text : ByteString) : Bool × SocketClientConnection :=
  if c.clientConnected ∧ c.outgoingControlBuffer = [] then
    (true, if text = [] then c else { c with outgoingControlBuffer := text }.requestService)
  else (false, c)

/-- `raw_ready`, with the text of the login screen. -/
def rawReady (loginScreen : ByteString) : SocketClientConnection :=
  ({ c with clientConnected := true }.sendControlTextRaw loginScreen).2

/-- A line in `process_raw_incoming_data`. -/
def receiveLine : SocketClientConnection :=
  { c with ackLinesReceivedFromClient := (c.ackLinesReceivedFromClient + 1) % 2 ^ 32 }

def rawSendComplete : SocketClientConnection × List SessionRequest :=
  let c := { c with outgoingTextBuffer := [] }
  if c.clientConnected ∧ c.clientBlocked then
    ({ c with clientBlocked := false }.requestService, [.unblocked])
  else (c, [])

/-- `raw_disconnected`, and `disconnect_socket` as far as it is about the connection. -/
def rawDisconnected : SocketClientConnection × List SessionRequest :=
  if c.clientConnected then
    ({ c with clientConnected := false, clientBlocked := true }, [.disconnected])
  else (c, [])

/-! ### What the driver calls -/

/-- The first part of `do_work`: what is acknowledged. -/
def acknowledgeWork : SocketClientConnection × List SessionRequest :=
  if c.clientDoReconnect then ({ c with clientDoReconnect := false }, [.acknowledgeReconnect 0])
  else if c.ackLinesReceivedFromClient > incomingLinesAck then
    ({ (c.ackOutgoingData true).1 with ackLinesReceivedFromClient := 0 },
      (c.ackOutgoingData true).2)
  else if !c.clientBlocked then c.ackOutgoingData false
  else (c, [])

/-- The second part of `do_work`: what is handed to `raw_send`, if anything, and what becomes of
the connection.  `accepts` is what `raw_send` returns. -/
def sendWork (accepts : Bool) :
    SocketClientConnection × List SessionRequest × Option ByteString :=
  if !c.clientBlocked then
    let c :=
      { c with
        outgoingTextBuffer := c.outgoingTextBuffer ++ c.outgoingControlBuffer
        outgoingControlBuffer := [] }
    if c.outgoingTextBuffer = [] then (c, [], none)
    else if accepts then ({ c with clientBlocked := true }, [], some c.outgoingTextBuffer)
    else (c.rawDisconnected.1, c.rawDisconnected.2, none)
  else (c, [], none)

/-- `do_work`, with the text that is being sent then, if any.  Puppets that have not been heard of
for long, whose channels are closed here, are left out. -/
def doWork (accepts : Bool) : SocketClientConnection × List SessionRequest × Option ByteString :=
  let c := { c with requestedService := false }
  if c.clientConnected then
    let (c, requests) := c.acknowledgeWork
    let (c, requests', sending) := c.sendWork accepts
    (c, requests ++ requests', sending)
  else (c, [], none)

end SocketClientConnection

end Mutgos.Socket
