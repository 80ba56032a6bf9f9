import Mutgos.CommInterface.ClientSession

/-!
# The output of a websocket connection

`WSClientConnection`: messages for the client are saved in a JSON array, which is handed to the
socket when the driver calls `do_work`.  The connection is blocked when there are as many as the
window has room for, and while the socket is writing.  A disconnection is asked for first, then
the client is told, and then the socket is disconnected.

A message is here what it has been saved as, or `none` where it cannot be saved: then its own part
of the JSON is left out, so that there is nothing of it in the array.
-/

namespace Mutgos.Websocket

open CommInterface Text

inductive DisconnectState where
  | notRequested
  /-- A disconnect is requested, but the message has not been sent yet. -/
  | requested
  /-- The disconnect message has been sent. -/
  | sent
  deriving DecidableEq

/-- What is in the array. -/
inductive OutgoingMessage where
  /-- What `send_message_raw` has accepted. -/
  | accepted (json : ByteString)
  /-- `ClientDisconnect` -/
  | disconnect
  deriving DecidableEq

/-- `websocket::WSClientConnection`, as far as it is about output. -/
structure WSClientConnection where
  /-- `client_window_size`, which a client that logs in chooses. -/
  clientWindowSize : ℕ
  clientBlocked : Bool
  clientConnected : Bool
  clientError : Bool
  clientDisconnectState : DisconnectState
  requestedService : Bool
  outgoingJsonNode : List OutgoingMessage
  deriving DecidableEq

/-- `websocket::RawWSConnection`, as far as it is about output. -/
structure RawWSConnection where
  socketAccepted : Bool
  socketBlocked : Bool
  socketConnected : Bool
  /-- `client_ptr` is set. -/
  client : Bool
  /-- What `async_write` has been given, until it has completed. -/
  writing : Option (List OutgoingMessage)
  deriving DecidableEq

/-- A connection with its socket. -/
structure WebsocketOutput where
  connection : WSClientConnection
  raw : RawWSConnection
  /-- The messages that `send_message_raw` has accepted. -/
  accepted : List ByteString
  /-- What `raw_send` has accepted. -/
  writes : List (List OutgoingMessage)
  /-- `client_disconnect` has been called. -/
  disconnecting : Bool
  deriving DecidableEq

namespace WebsocketOutput

/-- A connection whose handshake is done: there is nothing to send before. -/
def start : WebsocketOutput where
  connection :=
    { clientWindowSize := 0
      clientBlocked := false
      clientConnected := true
      clientError := false
      clientDisconnectState := .notRequested
      requestedService := false
      outgoingJsonNode := [] }
  raw :=
    { socketAccepted := true
      socketBlocked := false
      socketConnected := true
      client := true
      writing := none }
  accepted := []
  writes := []
  disconnecting := false

variable (w : WebsocketOutput)

/-! ### The socket -/

def rawDisconnected (c : WSClientConnection) : WSClientConnection :=
  if c.clientConnected || c.clientError then
    { c with
      clientConnected := false
      clientBlocked := true
      clientDisconnectState := .notRequested }
  else c

/-- `raw_disconnect`, with `handle_disconnect` and `client_released`. -/
def rawDisconnect : WebsocketOutput :=
  if w.raw.socketConnected then
    { w with
      raw :=
        { w.raw with
          socketConnected := false
          socketAccepted := false
          socketBlocked := true
          client := false }
      connection := if w.raw.client then rawDisconnected w.connection else w.connection }
  else w

/-- `raw_send`.  What there is to write may have no room in its buffer, which is an exception. -/
def rawSend (data : List OutgoingMessage) (throws : Bool) : WebsocketOutput :=
  if w.raw.socketAccepted && w.raw.socketConnected && !w.raw.socketBlocked && !throws then
    { w with
      raw := { w.raw with socketBlocked := true, writing := some data }
      writes := w.writes ++ [data] }
  else w

/-! ### The connection -/

/-- The connection is changed. -/
def update (f : WSClientConnection → WSClientConnection) : WebsocketOutput :=
  { w with connection := f w.connection }

def queueMessageToSend (c : WSClientConnection) (message : Option OutgoingMessage) :
    Bool × WSClientConnection :=
  match message with
  | none => (false, { c with clientError := true, requestedService := true })
  | some message =>
    (true,
      { c with
        outgoingJsonNode := c.outgoingJsonNode ++ [message]
        requestedService := true })

def sendMessageRaw (c : WSClientConnection) (saved : Option ByteString) :
    SendReturnCode × WSClientConnection :=
  if !c.clientConnected then (.sendDisconnected, c)
  else if c.clientBlocked then (.sendBlocked, c)
  else
    match queueMessageToSend c (saved.map .accepted) with
    | (false, c) => (.sendNotSupported, c)
    | (true, c) =>
      if c.outgoingJsonNode.length ≥ c.clientWindowSize then
        (.sendOkBlocked, { c with clientBlocked := true })
      else (.sendOk, c)

def clientDisconnect (c : WSClientConnection) : WSClientConnection :=
  if c.clientDisconnectState = .notRequested then
    { c with clientDisconnectState := .requested, requestedService := true }
  else c

def disconnectSocket : WebsocketOutput :=
  if w.connection.clientConnected then
    (w.update fun c => { c with clientConnected := false }).rawDisconnect.update fun c =>
      { c with clientBlocked := true, clientDisconnectState := .notRequested }
  else w

/-- In `do_work`: the client is told that it is disconnected. -/
def queueDisconnect (c : WSClientConnection) : WSClientConnection :=
  if c.clientDisconnectState = .requested then
    { (queueMessageToSend c (some .disconnect)).2 with
      clientDisconnectState := .sent
      clientBlocked := true }
  else c

def doWork (throws : Bool) : WebsocketOutput :=
  let w := w.update fun c => { c with requestedService := false }
  if !w.connection.clientConnected then w
  else if w.connection.clientError then
    (w.update fun c => { c with clientError := false }).disconnectSocket
  else if w.connection.clientDisconnectState = .sent ∧ w.raw.socketBlocked = false then
    w.disconnectSocket
  else if !w.raw.socketBlocked then
    let w := w.update queueDisconnect
    if w.connection.outgoingJsonNode = [] then w
    else
      -- What `raw_send` returns is not looked at.
      (w.rawSend w.connection.outgoingJsonNode throws).update fun c =>
        { c with clientBlocked := true, outgoingJsonNode := [] }
  else w

def rawSendComplete (c : WSClientConnection) : WSClientConnection :=
  if !c.clientConnected then c
  else if c.clientDisconnectState ≠ .notRequested then { c with requestedService := true }
  else { c with clientBlocked := false }

def onWriteComplete (failed : Bool) : WebsocketOutput :=
  let w := { w with raw := { w.raw with writing := none } }
  if failed then w.rawDisconnect
  else
    { w with
      raw := { w.raw with socketBlocked := false }
      connection := if w.raw.client then rawSendComplete w.connection else w.connection }

/-! ### Steps -/

/-- What can happen. -/
inductive Action where
  | sendMessageRaw (saved : Option ByteString)
  /-- A client that logs in chooses its window. -/
  | setWindowSize (size : ℕ)
  /-- A message of the client has a fault. -/
  | clientError
  | clientDisconnect
  | doWork (throws : Bool)
  | writeComplete (failed : Bool)
  /-- `raw_disconnect`, or `on_read` with an error. -/
  | rawDisconnect
  | disconnectSocket

/-- One step. -/
def step (w : WebsocketOutput) : Action → Option WebsocketOutput
  | .sendMessageRaw saved =>
    let (code, connection) := WebsocketOutput.sendMessageRaw w.connection saved
    some
      { w with
        connection := connection
        accepted :=
          if code = .sendOk ∨ code = .sendOkBlocked then w.accepted ++ saved.toList
          else w.accepted }
  | .setWindowSize size => some (w.update fun c => { c with clientWindowSize := size })
  | .clientError =>
    some (w.update fun c => { c with clientError := true, requestedService := true })
  | .clientDisconnect =>
    some { w.update WebsocketOutput.clientDisconnect with disconnecting := true }
  | .doWork throws => some (w.doWork throws)
  | .writeComplete failed =>
    if w.raw.writing = none then none else some (w.onWriteComplete failed)
  | .rawDisconnect => some w.rawDisconnect
  | .disconnectSocket => some w.disconnectSocket

end WebsocketOutput

end Mutgos.Websocket
