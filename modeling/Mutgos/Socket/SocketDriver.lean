import Mathlib.Data.List.Basic
import Mathlib.Logic.Function.Basic

/-!
# The driver of the connections

`SocketDriver` (`WebsocketDriver` has the same code) counts the references to each connection:
one of the socket, until it disconnects, and one of the router, for the session.  A connection
without references is deleted at the end of `do_work`; service that a connection asks for during
`do_work` is deferred to the next one.

Callbacks happen inside the loops of the driver, so that each turn of a loop is a step, and what
happens in between is a step of its own.  Of a connection and its socket only what the references
depend on is here.
-/

namespace Mutgos.Socket

open Function

/-- The address of a connection.  None is used twice. -/
abbrev ConnectionPtr := ℕ

/-- The session of a connection. -/
inductive DriverSession where
  /-- `client_session_ptr` is not set. -/
  | absent
  /-- It is set, and the router has the connection in `connection_to_session`. -/
  | routed
  /-- It is set, and the router has released the connection. -/
  | released
  deriving DecidableEq

/-- A connection, with its socket and what the router has of it. -/
structure DriverConnection where
  requestedService : Bool
  clientConnected : Bool
  session : DriverSession
  /-- The socket has been accepted, and its handshake is done. -/
  socketStarted : Bool
  socketConnected : Bool
  /-- The `client_ptr` of the socket is set. -/
  clientPtr : Bool
  deriving DecidableEq

/-- Who has a reference. -/
def DriverConnection.references (c : DriverConnection) : ℕ :=
  c.clientPtr.toNat + if c.session = .routed then 1 else 0

/-- Where the driver is. -/
inductive DriverPhase where
  | idle
  /-- In `io_context.poll`. -/
  | polling
  /-- In the loop over `pending_actions`. -/
  | working (index : ℕ)
  /-- In the loop over `pending_deletes`. -/
  | deleting (index : ℕ)
  /-- In the loop of `stop`, with the connections that are still to be stopped. -/
  | stopping (rest : List ConnectionPtr)
  deriving DecidableEq

/-- How many of `pending_deletes` have been deleted. -/
def DriverPhase.passed : DriverPhase → ℕ
  | .deleting index => index
  | _ => 0

/-- The driver is in `do_work`. -/
def DriverPhase.isInside : DriverPhase → Bool
  | .polling | .working _ | .deleting _ => true
  | .idle | .stopping _ => false

/-- The driver is where connections, sockets and sessions do something of their own: not while
it deletes or stops connections. -/
def DriverPhase.isOpen : DriverPhase → Bool
  | .idle | .polling | .working _ => true
  | .deleting _ | .stopping _ => false

/-- `socket::SocketDriver`, with the connections. -/
structure SocketDriver where
  started : Bool
  insideDoWork : Bool
  pendingActions : List ConnectionPtr
  pendingActionsDeferred : List ConnectionPtr
  pendingDeletes : List ConnectionPtr
  /-- `client_connections`, with the number of references. -/
  clientConnections : ConnectionPtr → Option ℕ
  phase : DriverPhase
  /-- The connections that there are. -/
  objects : ConnectionPtr → Option DriverConnection
  /-- The address of the next connection. -/
  next : ConnectionPtr
  /-- The connections that have been deleted. -/
  deleted : List ConnectionPtr

namespace SocketDriver

/-- A driver that has been started. -/
def start : SocketDriver where
  started := true
  insideDoWork := false
  pendingActions := []
  pendingActionsDeferred := []
  pendingDeletes := []
  clientConnections := fun _ => none
  phase := .idle
  objects := fun _ => none
  next := 0
  deleted := []

variable (d : SocketDriver) (p : ConnectionPtr)

/-! ### What connections and sockets call -/

def addReference : SocketDriver :=
  { d with
    clientConnections :=
      update d.clientConnections p (some ((d.clientConnections p).getD 0 + 1)) }

def release : SocketDriver :=
  match d.clientConnections p with
  | none => d
  | some count =>
    if count - 1 ≤ 0 then
      { d with
        pendingDeletes := d.pendingDeletes ++ [p]
        clientConnections := update d.clientConnections p none }
    else { d with clientConnections := update d.clientConnections p (some (count - 1)) }

def connectionHasPendingActions : SocketDriver :=
  if d.insideDoWork then { d with pendingActionsDeferred := d.pendingActionsDeferred ++ [p] }
  else { d with pendingActions := d.pendingActions ++ [p] }

/-- A connection is changed. -/
def setConnection (c : DriverConnection) : SocketDriver :=
  { d with objects := update d.objects p (some c) }

/-! ### What happens to a connection -/

def requestService (c : DriverConnection) : SocketDriver :=
  if c.requestedService then d
  else (d.setConnection p { c with requestedService := true }).connectionHasPendingActions p

/-- `handle_disconnect`, with `client_released` in it; `raw_disconnect` comes to the same. -/
def handleDisconnect (c : DriverConnection) : SocketDriver :=
  if !c.socketConnected then d
  else if c.clientPtr then
    (d.setConnection p
      { c with socketConnected := false, clientConnected := false, clientPtr := false }).release p
  else d.setConnection p { c with socketConnected := false }

/-- `disconnect_socket`, which is what `stop` of a connection does, and `client_disconnect`. -/
def disconnectSocket (c : DriverConnection) : SocketDriver :=
  if c.clientConnected then
    (d.setConnection p { c with clientConnected := false }).handleDisconnect p
      { c with clientConnected := false }
  else d

/-- `delete`, with the destructor: `client_released` first, and then nothing that would be about
references. -/
def destroy (c : DriverConnection) : SocketDriver :=
  let d := if c.clientPtr then d.release p else d
  { d with
    objects := update d.objects p none
    deleted := d.deleted ++ [p] }

/-! ### Steps -/

/-- What can happen. -/
inductive Action where
  /-- A socket is accepted, and there is a connection for it. -/
  | accept (socketStarted clientConnected : Bool)
  /-- The handshake of a socket is done, and `raw_ready`. -/
  | rawReady (p : ConnectionPtr)
  | requestService (p : ConnectionPtr)
  | handleDisconnect (p : ConnectionPtr)
  | disconnectSocket (p : ConnectionPtr)
  /-- `raw_disconnected`, when the socket does not send. -/
  | rawDisconnected (p : ConnectionPtr)
  | clientSetSession (p : ConnectionPtr)
  /-- `release_connection` of the router. -/
  | releaseConnection (p : ConnectionPtr)
  /-- `do_work` begins. -/
  | doWork
  /-- `io_context.poll` ends. -/
  | endPoll
  /-- The next connection in `pending_actions` does its work. -/
  | workNext
  | endWork
  /-- The next connection in `pending_deletes` is deleted. -/
  | deleteNext
  /-- The rest of `do_work`. -/
  | endDelete
  /-- `stop` begins. -/
  | stop
  /-- The next connection is stopped. -/
  | stopNext
  | endStop
  deriving DecidableEq

/-- Something happens to a connection. -/
def whenOpen (f : DriverConnection → Option SocketDriver) : Option SocketDriver :=
  if d.phase.isOpen then (d.objects p).bind f else none

/-- A connection for a new socket. -/
def accept (socketStarted clientConnected : Bool) : SocketDriver :=
  { d.setConnection d.next
      { requestedService := false
        clientConnected := clientConnected
        session := .absent
        socketStarted := socketStarted
        socketConnected := socketStarted
        clientPtr := true } with
    next := d.next + 1 }.addReference d.next

/-- The connections that the driver has, by address. -/
def connections : List ConnectionPtr :=
  (List.range d.next).filter fun p => (d.clientConnections p).isSome

/-- One step. -/
def step (d : SocketDriver) : Action → Option SocketDriver
  | .accept socketStarted clientConnected =>
    if d.phase = .polling then some (d.accept socketStarted clientConnected) else none
  | .rawReady p =>
    d.whenOpen p fun c =>
      if !c.socketStarted && c.clientPtr then
        some (d.setConnection p
          { c with socketStarted := true, socketConnected := true, clientConnected := true })
      else none
  | .requestService p => d.whenOpen p fun c => some (d.requestService p c)
  | .handleDisconnect p => d.whenOpen p fun c => some (d.handleDisconnect p c)
  | .disconnectSocket p => d.whenOpen p fun c => some (d.disconnectSocket p c)
  | .rawDisconnected p =>
    d.whenOpen p fun c => some (d.setConnection p { c with clientConnected := false })
  | .clientSetSession p =>
    d.whenOpen p fun c =>
      -- A client logs in with what comes over the socket.
      if c.clientPtr = true ∧ c.session = .absent then
        some ((d.setConnection p { c with session := .routed }).addReference p)
      else none
  | .releaseConnection p =>
    d.whenOpen p fun c =>
      if c.session = .routed then
        some ((d.setConnection p { c with session := .released }).release p)
      else none
  | .doWork =>
    if d.phase = .idle then some { d with phase := .polling, insideDoWork := true } else none
  | .endPoll => if d.phase = .polling then some { d with phase := .working 0 } else none
  | .workNext =>
    match d.phase with
    | .working index =>
      (d.pendingActions[index]?).map fun p =>
        { d with
          objects :=
            update d.objects p
              ((d.objects p).map fun c => { c with requestedService := false })
          phase := .working (index + 1) }
    | _ => none
  | .endWork =>
    match d.phase with
    | .working index =>
      if d.pendingActions.length ≤ index then
        some { d with pendingActions := [], phase := .deleting 0 }
      else none
    | _ => none
  | .deleteNext =>
    match d.phase with
    | .deleting index =>
      (d.pendingDeletes[index]?).bind fun p =>
        (d.objects p).map fun c => { d.destroy p c with phase := .deleting (index + 1) }
    | _ => none
  | .endDelete =>
    match d.phase with
    | .deleting index =>
      if d.pendingDeletes.length ≤ index then
        some
          { d with
            pendingDeletes := []
            insideDoWork := false
            pendingActions := d.pendingActions ++ d.pendingActionsDeferred
            pendingActionsDeferred := []
            phase := .idle }
      else none
    | _ => none
  | .stop =>
    if d.phase = .idle ∧ d.started = true then some { d with phase := .stopping d.connections }
    else none
  | .stopNext =>
    match d.phase with
    | .stopping (p :: rest) =>
      (d.objects p).map fun c => { d.disconnectSocket p c with phase := .stopping rest }
    | _ => none
  | .endStop =>
    match d.phase with
    | .stopping [] => some { d with phase := .idle, started := false }
    | _ => none

/-- A driver that does nothing goes over nobody. -/
example (h : d.phase = .idle) : d.step .workNext = none ∧ d.step .deleteNext = none := by
  constructor <;> rw [step] <;> split <;> simp_all

end SocketDriver

end Mutgos.Socket
