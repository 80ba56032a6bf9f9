import Mutgos.Socket.SocketClientConnection

/-!
# The text that goes out over a telnet connection

A connection hands its buffer to the socket in `do_work`, and is blocked until the socket has
written it.  But it is blocked as well when the buffer is full, and `do_work` sends nothing while
it is blocked: what fills the buffer is never sent.

## Main results

* `TelnetOutput.flows_iff` — **the output flows, all through a run, exactly if no text fills the
  buffer.**
-/

namespace Mutgos.Socket

open CommInterface Text

/-- `RawSocketConnection`, as far as it is about output. -/
structure RawSocketConnection where
  socketAccepted : Bool
  socketBlocked : Bool
  socketConnected : Bool
  /-- `client_ptr` is set. -/
  client : Bool
  /-- What `async_write` has been given, until it has completed. -/
  writing : Option ByteString
  deriving DecidableEq

namespace RawSocketConnection

/-- A socket that has been accepted, after `start`. -/
def started : RawSocketConnection where
  socketAccepted := true
  socketBlocked := false
  socketConnected := true
  client := true
  writing := none

variable (raw : RawSocketConnection)

/-- What `raw_send` returns where there is something to send. -/
def accepts : Bool := raw.socketAccepted && raw.socketConnected && !raw.socketBlocked

/-- `raw_send`, where it accepts. -/
def rawSend (data : ByteString) : RawSocketConnection :=
  { raw with socketBlocked := true, writing := some data }

end RawSocketConnection

/-! ### A connection with its socket -/

/-- A connection with its socket. -/
structure TelnetOutput where
  connection : SocketClientConnection
  raw : RawSocketConnection
  /-- The texts that have been accepted, with their line ends. -/
  accepted : List ByteString
  /-- What `raw_send` has accepted. -/
  sends : List ByteString
  deriving DecidableEq

namespace TelnetOutput

/-- What happens to a connection and its socket. -/
inductive Action where
  | clientSendData (serId : MessageSerialId) (formattedOutput : ByteString)
  | clientChannelStatusChanged (serId : MessageSerialId)
  | clientSendAcknowledgeDataReconnect
  | sendControlTextRaw (text : ByteString)
  | receiveLine
  | doWork
  /-- `on_write_complete` -/
  | writeComplete (failed : Bool)
  /-- `on_read` with an error. -/
  | readFailed
  | disconnectSocket
  | clientDisconnect

/-- A new connection with a socket that has been accepted. -/
def start (socketSendBufferSize : UInt32) (loginScreen : ByteString) : TelnetOutput where
  connection := (SocketClientConnection.new socketSendBufferSize).rawReady loginScreen
  raw := .started
  accepted := []
  sends := []

/-- `handle_disconnect`, and `raw_disconnect` as far as it is about the connection. -/
def handleDisconnect (w : TelnetOutput) : TelnetOutput :=
  if w.raw.socketConnected then
    { w with
      raw :=
        { w.raw with
          socketConnected := false
          socketAccepted := false
          socketBlocked := true
          client := false }
      connection := if w.raw.client then w.connection.rawDisconnected.1 else w.connection }
  else w

/-- One step. -/
def step (w : TelnetOutput) : Action → Option TelnetOutput
  | .clientSendData serId formattedOutput =>
    let (code, connection) := w.connection.clientSendData serId formattedOutput
    some
      { w with
        connection := connection
        accepted :=
          if code = .sendOk ∨ code = .sendOkBlocked then
            w.accepted ++ [formattedOutput ++ [telnetLf]]
          else w.accepted }
  | .clientChannelStatusChanged serId =>
    some { w with connection := (w.connection.clientChannelStatusChanged serId).2 }
  | .clientSendAcknowledgeDataReconnect =>
    some { w with connection := w.connection.clientSendAcknowledgeDataReconnect }
  | .sendControlTextRaw text =>
    some { w with connection := (w.connection.sendControlTextRaw text).2 }
  | .receiveLine => some { w with connection := w.connection.receiveLine }
  | .doWork =>
    match w.connection.doWork w.raw.accepts with
    | (connection, _, none) => some { w with connection := connection }
    | (connection, _, some data) =>
      some
        { w with
          connection := connection
          raw := w.raw.rawSend data
          sends := w.sends ++ [data] }
  | .writeComplete failed =>
    if w.raw.writing = none then none
    else if failed then some { w with raw := { w.raw with writing := none } }.handleDisconnect
    else
      some
        { w with
          raw := { w.raw with writing := none, socketBlocked := false }
          connection := if w.raw.client then w.connection.rawSendComplete.1 else w.connection }
  | .readFailed => some w.handleDisconnect
  | .disconnectSocket | .clientDisconnect =>
    if w.connection.clientConnected then
      some { w with connection := w.connection.clientDisconnect }.handleDisconnect
    else some w

/-- What is sent at once: texts, and then the control text. -/
structure Batch where
  texts : List ByteString
  control : ByteString

/-- The bytes of it. -/
def Batch.data (b : Batch) : ByteString := b.texts.flatten ++ b.control

/-- The texts that have been accepted are those of what has been sent, in order, and the others
are in the buffer. -/
def Whole (w : TelnetOutput) (batches : List Batch) (unsent : List ByteString) : Prop :=
  w.sends = batches.map Batch.data ∧ w.accepted = batches.flatMap Batch.texts ++ unsent ∧
    (w.raw.writing.isSome = true → unsent = []) ∧
    (w.connection.clientConnected = true → w.raw.writing = none →
      w.connection.outgoingTextBuffer = unsent.flatten)

/-- **What has been accepted is sent, or will be.** -/
structure Flows (w : TelnetOutput) : Prop where
  /-- What is not sent yet is being written, or `do_work` has been asked for, and will send. -/
  moves : w.connection.clientConnected = true →
    w.connection.clientBlocked = true ∨ w.connection.outgoingTextBuffer ≠ [] ∨
      w.connection.outgoingControlBuffer ≠ [] →
    w.raw.writing.isSome = true ∨ w.connection.requestedService = true ∧
      ∃ w', w.step .doWork = some w' ∧ w'.raw.writing.isSome = true
  /-- Every text is sent once, in the order in which they have been accepted. -/
  whole : ∃ batches unsent, w.Whole batches unsent
  /-- What is being written stays in the buffer. -/
  intact : ∀ data ∈ w.raw.writing, w.connection.outgoingTextBuffer = data

/-- The text does not fill the buffer. -/
def Fits (w : TelnetOutput) : Action → Prop
  | .clientSendData _ formattedOutput =>
    w.connection.clientConnected = true → w.connection.clientBlocked = false →
      w.connection.outgoingTextBuffer.length + formattedOutput.length + 1 <
        w.connection.maxPendingDataSize
  | _ => True

/-! ### What `do_work` does -/

/-- What is to be sent is as it was. -/
structure OutputFrame (c c' : SocketClientConnection) : Prop where
  clientConnected : c'.clientConnected = c.clientConnected
  clientBlocked : c'.clientBlocked = c.clientBlocked
  outgoingTextBuffer : c'.outgoingTextBuffer = c.outgoingTextBuffer
  outgoingControlBuffer : c'.outgoingControlBuffer = c.outgoingControlBuffer
  requestedService : c.requestedService = true → c'.requestedService = true

theorem OutputFrame.refl (c : SocketClientConnection) : OutputFrame c c := ⟨rfl, rfl, rfl, rfl, id⟩

theorem OutputFrame.trans {c c' c'' : SocketClientConnection} (h : OutputFrame c c')
    (h' : OutputFrame c' c'') : OutputFrame c c'' :=
  ⟨h'.1.trans h.1, h'.2.trans h.2, h'.3.trans h.3, h'.4.trans h.4, h'.5 ∘ h.5⟩

section Connection

open SocketClientConnection

variable (c : SocketClientConnection)

theorem outputFrame_ackOutgoingData (fromClientInput : Bool) :
    OutputFrame c (c.ackOutgoingData fromClientInput).1 := by
  unfold ackOutgoingData
  split
  · split
    · exact .refl c
    · split <;> exact ⟨rfl, rfl, rfl, rfl, id⟩
  · exact .refl c

theorem outputFrame_acknowledgeWork : OutputFrame c c.acknowledgeWork.1 := by
  unfold acknowledgeWork
  split_ifs
  · exact ⟨rfl, rfl, rfl, rfl, id⟩
  · have hframe := outputFrame_ackOutgoingData c true
    exact ⟨hframe.1, hframe.2, hframe.3, hframe.4, hframe.5⟩
  · exact outputFrame_ackOutgoingData c false
  · exact .refl c

/-- What is in the buffers is sent, if the connection is not blocked. -/
theorem sendWork_cases (accepts : Bool) (hconnected : c.clientConnected = true) :
    ((c.clientBlocked = true ∨ c.outgoingTextBuffer ++ c.outgoingControlBuffer = []) ∧
      (c.sendWork accepts).2.2 = none ∧ OutputFrame c (c.sendWork accepts).1) ∨
    (c.clientBlocked = false ∧ c.outgoingTextBuffer ++ c.outgoingControlBuffer ≠ [] ∧
      accepts = true ∧
      (c.sendWork accepts).2.2 = some (c.outgoingTextBuffer ++ c.outgoingControlBuffer) ∧
      (c.sendWork accepts).1.clientBlocked = true ∧
      (c.sendWork accepts).1.outgoingTextBuffer =
        c.outgoingTextBuffer ++ c.outgoingControlBuffer) ∨
    (c.clientBlocked = false ∧ accepts = false ∧ (c.sendWork accepts).2.2 = none ∧
      (c.sendWork accepts).1.clientConnected = false) := by
  rw [sendWork]
  cases hblocked : c.clientBlocked with
  | true => exact .inl ⟨.inl rfl, rfl, .refl c⟩
  | false =>
    by_cases hempty : c.outgoingTextBuffer ++ c.outgoingControlBuffer = []
    · have hnil := List.append_eq_nil_iff.mp hempty
      simp only [Bool.not_false, if_true, if_pos hempty]
      exact .inl ⟨.inr hempty, trivial, rfl, hblocked.symm, hempty.trans hnil.1.symm,
        hnil.2.symm, id⟩
    · simp only [Bool.not_false, if_true, if_neg hempty]
      cases accepts with
      | true => exact .inr (.inl ⟨trivial, hempty, rfl, rfl, rfl, rfl⟩)
      | false =>
        refine .inr (.inr ⟨trivial, rfl, rfl, ?_⟩)
        simp [rawDisconnected, hconnected]

/-- `do_work` acknowledges, which is not about output, and sends. -/
theorem doWork_cases (accepts : Bool) (hconnected : c.clientConnected = true) :
    ((c.clientBlocked = true ∨ c.outgoingTextBuffer ++ c.outgoingControlBuffer = []) ∧
      (c.doWork accepts).2.2 = none ∧
      OutputFrame { c with requestedService := false } (c.doWork accepts).1) ∨
    (c.clientBlocked = false ∧ c.outgoingTextBuffer ++ c.outgoingControlBuffer ≠ [] ∧
      accepts = true ∧
      (c.doWork accepts).2.2 = some (c.outgoingTextBuffer ++ c.outgoingControlBuffer) ∧
      (c.doWork accepts).1.clientBlocked = true ∧
      (c.doWork accepts).1.outgoingTextBuffer =
        c.outgoingTextBuffer ++ c.outgoingControlBuffer) ∨
    (c.clientBlocked = false ∧ accepts = false ∧ (c.doWork accepts).2.2 = none ∧
      (c.doWork accepts).1.clientConnected = false) := by
  have hframe := outputFrame_acknowledgeWork { c with requestedService := false }
  have hfirst :
      (c.doWork accepts).1 =
        ({ c with requestedService := false }.acknowledgeWork.1.sendWork accepts).1 ∧
      (c.doWork accepts).2.2 =
        ({ c with requestedService := false }.acknowledgeWork.1.sendWork accepts).2.2 := by
    rw [doWork, hconnected]
    exact ⟨rfl, rfl⟩
  rw [hfirst.1, hfirst.2]
  generalize { c with requestedService := false }.acknowledgeWork.1 = c' at hframe ⊢
  have hcases := sendWork_cases c' accepts (hframe.clientConnected.trans hconnected)
  rw [hframe.clientBlocked, hframe.outgoingTextBuffer, hframe.outgoingControlBuffer] at hcases
  exact hcases.imp_left (And.imp_right (And.imp_right hframe.trans))

/-- A text is accepted, and put in the buffer, where the connection is not blocked. -/
theorem clientSendData_cases (serId : MessageSerialId) (formattedOutput : ByteString) :
    ((c.clientConnected = true → c.clientBlocked = true) ∧
      (c.clientSendData serId formattedOutput).2 = c ∧
      ¬((c.clientSendData serId formattedOutput).1 = .sendOk ∨
        (c.clientSendData serId formattedOutput).1 = .sendOkBlocked)) ∨
    (c.clientConnected = true ∧ c.clientBlocked = false ∧
      ((c.clientSendData serId formattedOutput).1 = .sendOk ∨
        (c.clientSendData serId formattedOutput).1 = .sendOkBlocked) ∧
      (c.clientSendData serId formattedOutput).2.clientConnected = true ∧
      (c.clientSendData serId formattedOutput).2.clientBlocked =
        decide (c.maxPendingDataSize ≤
          c.outgoingTextBuffer.length + (formattedOutput.length + 1)) ∧
      (c.clientSendData serId formattedOutput).2.outgoingTextBuffer =
        c.outgoingTextBuffer ++ (formattedOutput ++ [telnetLf]) ∧
      (c.clientSendData serId formattedOutput).2.requestedService = true) := by
  unfold clientSendData sendTextLine
  cases hconnected : c.clientConnected with
  | false => exact .inl ⟨nofun, rfl, by simp⟩
  | true =>
    cases hblocked : c.clientBlocked with
    | true => exact .inl ⟨fun _ => rfl, rfl, by simp⟩
    | false =>
      refine .inr ⟨rfl, rfl, ?_⟩
      by_cases hfull : c.maxPendingDataSize ≤
          c.outgoingTextBuffer.length + (formattedOutput.length + 1)
      · simp [hfull, pendingSerAck, requestService]
      · simp [hfull, pendingSerAck, requestService]

end Connection

/-! ### The invariant -/

/-- Where the connection is blocked, the socket is writing. -/
structure Invariant (w : TelnetOutput) : Prop where
  accepts : w.connection.clientConnected = true →
    w.raw.socketAccepted = true ∧ w.raw.socketConnected = true ∧ w.raw.client = true
  rawBlocked : w.connection.clientConnected = true →
    w.raw.socketBlocked = w.raw.writing.isSome
  blocked : w.connection.clientConnected = true →
    w.connection.clientBlocked = w.raw.writing.isSome
  requested : w.connection.clientConnected = true → w.raw.writing = none →
    w.connection.outgoingTextBuffer ++ w.connection.outgoingControlBuffer ≠ [] →
    w.connection.requestedService = true
  whole : ∃ batches unsent, w.Whole batches unsent
  intact : ∀ data ∈ w.raw.writing, w.connection.outgoingTextBuffer = data

variable {w w' : TelnetOutput}

/-- The socket accepts when nothing is being written. -/
theorem Invariant.raw_accepts (h : w.Invariant)
    (hconnected : w.connection.clientConnected = true) :
    w.raw.accepts = !w.raw.writing.isSome := by
  obtain ⟨haccepted, hraw, -⟩ := h.accepts hconnected
  rw [RawSocketConnection.accepts, haccepted, hraw, h.rawBlocked hconnected]
  rfl

/-- `do_work` sends, if there is anything to send and nothing is being written. -/
theorem Invariant.exists_doWork (h : w.Invariant)
    (hconnected : w.connection.clientConnected = true) (hwriting : w.raw.writing = none)
    (hbuffer : w.connection.outgoingTextBuffer ++ w.connection.outgoingControlBuffer ≠ []) :
    ∃ w', w.step .doWork = some w' ∧ w'.raw.writing.isSome = true := by
  have haccepts : w.raw.accepts = true := by simp [h.raw_accepts hconnected, hwriting]
  have hblocked : w.connection.clientBlocked = false := by simp [h.blocked hconnected, hwriting]
  rcases doWork_cases w.connection w.raw.accepts hconnected with
    ⟨hnothing, -⟩ | ⟨-, -, -, hsends, -⟩ | ⟨-, hrefused, -⟩
  · rcases hnothing with htrue | hempty
    · exact absurd (htrue.symm.trans hblocked) nofun
    · exact absurd hempty hbuffer
  · rw [step]
    generalize w.connection.doWork w.raw.accepts = worked at hsends
    obtain ⟨connection, requests, sending⟩ := worked
    obtain rfl : sending = _ := hsends
    exact ⟨_, rfl, rfl⟩
  · exact absurd (haccepts.symm.trans hrefused) nofun

theorem Invariant.flows (h : w.Invariant) : w.Flows where
  moves hconnected hpending := by
    cases hwriting : w.raw.writing with
    | some data => exact .inl rfl
    | none =>
      have hblocked := h.blocked hconnected
      rw [hwriting] at hblocked
      have hbuffer :
          w.connection.outgoingTextBuffer ++ w.connection.outgoingControlBuffer ≠ [] := by
        rw [Ne, List.append_eq_nil_iff, not_and_or]
        exact hpending.resolve_left (by simp [hblocked])
      exact .inr ⟨h.requested hconnected hwriting hbuffer,
        h.exists_doWork hconnected hwriting hbuffer⟩
  whole := h.whole
  intact := h.intact

/-- What is not about output keeps it. -/
theorem Invariant.congr (h : w.Invariant) {c : SocketClientConnection}
    (hframe : OutputFrame w.connection c) : Invariant { w with connection := c } where
  accepts hconnected := h.accepts (hframe.clientConnected ▸ hconnected)
  rawBlocked hconnected := h.rawBlocked (hframe.clientConnected ▸ hconnected)
  blocked hconnected :=
    hframe.clientBlocked.trans (h.blocked (hframe.clientConnected ▸ hconnected))
  requested hconnected hwriting hbuffer := by
    dsimp only at hconnected hbuffer
    rw [hframe.outgoingTextBuffer, hframe.outgoingControlBuffer] at hbuffer
    exact hframe.requestedService
      (h.requested (hframe.clientConnected ▸ hconnected) hwriting hbuffer)
  whole := by
    obtain ⟨batches, unsent, hsends, haccepted, hnil, hunsent⟩ := h.whole
    refine ⟨batches, unsent, hsends, haccepted, hnil, fun hconnected hwriting => ?_⟩
    exact hframe.outgoingTextBuffer.trans (hunsent (hframe.clientConnected ▸ hconnected) hwriting)
  intact data hdata := hframe.outgoingTextBuffer.trans (h.intact data hdata)

/-- Where the connection has ended, only what has been sent matters. -/
theorem Invariant.of_disconnected (hconnected : w.connection.clientConnected = false)
    {batches : List Batch} {unsent : List ByteString} (hsends : w.sends = batches.map Batch.data)
    (haccepted : w.accepted = batches.flatMap Batch.texts ++ unsent)
    (hnil : w.raw.writing.isSome = true → unsent = [])
    (hintact : ∀ data ∈ w.raw.writing, w.connection.outgoingTextBuffer = data) :
    w.Invariant where
  accepts h := absurd (h.symm.trans hconnected) nofun
  rawBlocked h := absurd (h.symm.trans hconnected) nofun
  blocked h := absurd (h.symm.trans hconnected) nofun
  requested h := absurd (h.symm.trans hconnected) nofun
  whole := ⟨batches, unsent, hsends, haccepted, hnil,
    fun h => absurd (h.symm.trans hconnected) nofun⟩
  intact := hintact

theorem handleDisconnect_cases (w : TelnetOutput)
    (haccepts : w.connection.clientConnected = true →
      w.raw.socketConnected = true ∧ w.raw.client = true) :
    w.handleDisconnect.connection.clientConnected = false ∧
      w.handleDisconnect.connection.outgoingTextBuffer = w.connection.outgoingTextBuffer ∧
      w.handleDisconnect.raw.writing = w.raw.writing ∧ w.handleDisconnect.sends = w.sends ∧
      w.handleDisconnect.accepted = w.accepted := by
  unfold handleDisconnect SocketClientConnection.rawDisconnected
  cases hconnected : w.connection.clientConnected with
  | true =>
    obtain ⟨hraw, hclient⟩ := haccepts hconnected
    simp [hraw, hclient]
  | false => split_ifs <;> simp_all

section

variable (h : w.Invariant)
include h

/-- The socket is disconnected; what is being written may have failed. -/
theorem Invariant.handleDisconnect
    (hclient : w'.connection.clientConnected = true → w.connection.clientConnected = true)
    (htext : w'.connection.outgoingTextBuffer = w.connection.outgoingTextBuffer)
    (hraw : w'.raw = w.raw ∨ w'.raw = { w.raw with writing := none }) (hsends : w'.sends = w.sends)
    (haccepted : w'.accepted = w.accepted) : w'.handleDisconnect.Invariant := by
  have haccepts : w'.connection.clientConnected = true →
      w'.raw.socketConnected = true ∧ w'.raw.client = true := by
    intro hconnected
    rcases hraw with hraw | hraw <;> rw [hraw] <;> exact (h.accepts (hclient hconnected)).2
  have hwriting : ∀ data ∈ w'.raw.writing, data ∈ w.raw.writing := by
    rcases hraw with hraw | hraw <;> rw [hraw]
    · exact fun _ => id
    · exact nofun
  obtain ⟨hconnected, htext', hwriting', hsends', haccepted'⟩ := handleDisconnect_cases w' haccepts
  obtain ⟨batches, unsent, hbatches, htexts, hnil, -⟩ := h.whole
  refine .of_disconnected hconnected (hsends'.trans (hsends.trans hbatches))
    (haccepted'.trans (haccepted.trans htexts)) (fun hsome => hnil ?_) (fun data hdata => ?_)
  · rw [hwriting'] at hsome
    obtain ⟨data, hdata⟩ := Option.isSome_iff_exists.mp hsome
    exact Option.isSome_of_mem (hwriting data hdata)
  · rw [hwriting'] at hdata
    exact htext'.trans (htext.trans (h.intact data (hwriting data hdata)))

/-- `do_work`: nothing is sent, or a batch is. -/
theorem Invariant.doWork (hstep : w.step .doWork = some w') : w'.Invariant := by
  rw [step] at hstep
  cases hconnected : w.connection.clientConnected with
  | false =>
    rw [SocketClientConnection.doWork, hconnected] at hstep
    obtain rfl := Option.some.inj hstep
    obtain ⟨batches, unsent, hbatches, htexts, hnil, -⟩ := h.whole
    exact .of_disconnected rfl hbatches htexts hnil h.intact
  | true =>
    have hcases := doWork_cases w.connection w.raw.accepts hconnected
    generalize w.connection.doWork w.raw.accepts = worked at hcases hstep
    obtain ⟨connection, requests, sending⟩ := worked
    dsimp only at hcases hstep
    obtain ⟨batches, unsent, hbatches, htexts, hnil, hunsent⟩ := h.whole
    rcases hcases with ⟨hnothing, rfl, hframe⟩ | ⟨hblocked, -, haccepts, rfl, hblocked', htext⟩ |
      ⟨hblocked, hrefused, rfl, hended⟩
    · obtain rfl := Option.some.inj hstep
      have h₀ : Invariant
          { w with connection := { w.connection with requestedService := false } } := by
        refine ⟨h.accepts, h.rawBlocked, h.blocked, fun _ hwriting hbuffer => ?_, h.whole, h.intact⟩
        have hblocked := h.blocked hconnected
        rw [hwriting] at hblocked
        exact absurd (hnothing.resolve_left (by simp [hblocked])) hbuffer
      exact h₀.congr hframe
    · obtain rfl := Option.some.inj hstep
      have hwriting : w.raw.writing = none := by
        rw [h.blocked hconnected] at hblocked
        exact Option.isSome_eq_false_iff.mp hblocked |> Option.isNone_iff_eq_none.mp
      exact
        { accepts := fun _ => h.accepts hconnected
          rawBlocked := fun _ => rfl
          blocked := fun _ => hblocked'
          requested := fun _ h => absurd h nofun
          whole := by
            refine ⟨batches ++ [⟨unsent, w.connection.outgoingControlBuffer⟩], [], ?_, ?_,
              fun _ => rfl, fun _ h => absurd h nofun⟩
            · rw [List.map_append, ← hbatches, hunsent hconnected hwriting]
              rfl
            · rw [List.flatMap_append, htexts]
              simp
          intact := fun data hdata => htext.trans (Option.some.inj hdata) }
    · have hwriting : w.raw.writing.isSome = false :=
        (h.blocked hconnected).symm.trans hblocked
      rw [h.raw_accepts hconnected, hwriting] at hrefused
      cases hrefused

/-- A text that does not fill the buffer. -/
theorem Invariant.clientSendData {serId : MessageSerialId} {formattedOutput : ByteString}
    (hfits : w.Fits (.clientSendData serId formattedOutput))
    (hstep : w.step (.clientSendData serId formattedOutput) = some w') : w'.Invariant := by
  rw [TelnetOutput.step] at hstep
  have hcases := clientSendData_cases w.connection serId formattedOutput
  generalize w.connection.clientSendData serId formattedOutput = answered at hcases hstep
  obtain ⟨code, connection⟩ := answered
  dsimp only at hcases hstep
  rcases hcases with ⟨-, rfl, hcode⟩ | ⟨hconnected, hblocked, hcode, hconnected', hblocked', htext,
    hrequested⟩
  · rw [if_neg hcode] at hstep
    obtain rfl := Option.some.inj hstep
    exact h
  · rw [if_pos hcode] at hstep
    obtain rfl := Option.some.inj hstep
    have hwriting : w.raw.writing = none :=
      Option.not_isSome_iff_eq_none.mp (by simp [← h.blocked hconnected, hblocked])
    have hroom := hfits hconnected hblocked
    obtain ⟨batches, unsent, hbatches, htexts, -, hunsent⟩ := h.whole
    exact
      { accepts := fun _ => h.accepts hconnected
        rawBlocked := fun _ => h.rawBlocked hconnected
        blocked := fun _ => by
          dsimp only
          rw [hblocked', hwriting, decide_eq_false (by omega)]
          rfl
        requested := fun _ _ _ => hrequested
        whole := by
          refine ⟨batches, unsent ++ [formattedOutput ++ [telnetLf]], hbatches, ?_, ?_, ?_⟩
          · dsimp only
            rw [htexts, List.append_assoc]
          · exact fun hsome => by simp [hwriting] at hsome
          · intro _ _
            dsimp only
            rw [htext, hunsent hconnected hwriting]
            simp
        intact := fun data hdata => absurd (hwriting.symm.trans hdata) nofun }

/-- What has been sent is removed from the buffer. -/
theorem Invariant.writeComplete {failed : Bool} (hstep : w.step (.writeComplete failed) = some w') :
    w'.Invariant := by
  rw [TelnetOutput.step] at hstep
  split at hstep
  · cases hstep
  next hwriting =>
  obtain ⟨batches, unsent, hbatches, htexts, hnil, -⟩ := h.whole
  have hunsent := hnil (Option.isSome_iff_ne_none.mpr hwriting)
  split at hstep
  · obtain rfl := Option.some.inj hstep
    exact h.handleDisconnect id rfl (.inr rfl) rfl rfl
  · obtain rfl := Option.some.inj hstep
    cases hconnected : w.connection.clientConnected with
    | false =>
      refine .of_disconnected ?_ hbatches htexts nofun nofun
      simp only [SocketClientConnection.rawSendComplete, hconnected]
      split <;> simp [hconnected]
    | true =>
      obtain ⟨haccepted, hraw, hclient⟩ := h.accepts hconnected
      have hblocked := h.blocked hconnected
      rw [Option.isSome_iff_ne_none.mpr hwriting] at hblocked
      simp only [hclient, if_true, SocketClientConnection.rawSendComplete, hconnected, hblocked,
        and_self]
      exact
        { accepts := fun _ => ⟨haccepted, hraw, rfl⟩
          rawBlocked := fun _ => rfl
          blocked := fun _ => rfl
          requested := fun _ _ _ => rfl
          whole := ⟨batches, [], hbatches, hunsent ▸ htexts, fun _ => rfl, fun _ _ => rfl⟩
          intact := nofun }

theorem Invariant.sendControlTextRaw {text : ByteString}
    (hstep : w.step (.sendControlTextRaw text) = some w') : w'.Invariant := by
  rw [TelnetOutput.step, SocketClientConnection.sendControlTextRaw] at hstep
  split_ifs at hstep with hsends htext
  · obtain rfl := Option.some.inj hstep
    exact h
  · obtain rfl := Option.some.inj hstep
    exact ⟨h.accepts, h.rawBlocked, h.blocked, fun _ _ _ => rfl, h.whole, h.intact⟩
  · obtain rfl := Option.some.inj hstep
    exact h

theorem Invariant.clientDisconnect (hstep : w.step .clientDisconnect = some w') : w'.Invariant := by
  rw [TelnetOutput.step, SocketClientConnection.clientDisconnect] at hstep
  split_ifs at hstep with hconnected
  · obtain rfl := Option.some.inj hstep
    exact h.handleDisconnect nofun rfl (.inl rfl) rfl rfl
  · obtain rfl := Option.some.inj hstep
    exact h

/-- **Each step keeps the connection blocked only while the socket is writing**, where the text
does not fill the buffer. -/
theorem Invariant.step {a : Action} (hfits : w.Fits a) (hstep : w.step a = some w') :
    w'.Invariant := by
  cases a with
  | clientSendData serId formattedOutput => exact h.clientSendData hfits hstep
  | doWork => exact h.doWork hstep
  | writeComplete failed => exact h.writeComplete hstep
  | clientChannelStatusChanged serId =>
    obtain rfl := Option.some.inj hstep
    exact h.congr ⟨rfl, rfl, rfl, rfl, id⟩
  | clientSendAcknowledgeDataReconnect =>
    obtain rfl := Option.some.inj hstep
    exact h.congr ⟨rfl, rfl, rfl, rfl, fun _ => rfl⟩
  | receiveLine =>
    obtain rfl := Option.some.inj hstep
    exact h.congr ⟨rfl, rfl, rfl, rfl, id⟩
  | sendControlTextRaw text => exact h.sendControlTextRaw hstep
  | readFailed =>
    obtain rfl := Option.some.inj hstep
    exact h.handleDisconnect id rfl (.inl rfl) rfl rfl
  | disconnectSocket => exact h.clientDisconnect hstep
  | clientDisconnect => exact h.clientDisconnect hstep

end

theorem invariant_start (socketSendBufferSize : UInt32) (loginScreen : ByteString) :
    (start socketSendBufferSize loginScreen).Invariant := by
  have hwhole : Whole (start socketSendBufferSize loginScreen) [] [] :=
    ⟨rfl, rfl, fun _ => rfl, fun _ _ => by
      simp only [start, SocketClientConnection.rawReady, SocketClientConnection.sendControlTextRaw]
      split_ifs <;> rfl⟩
  refine ⟨fun _ => ⟨rfl, rfl, rfl⟩, fun _ => rfl, fun _ => ?_, fun _ _ hbuffer => ?_,
    ⟨[], [], hwhole⟩, nofun⟩ <;>
    simp only [start, SocketClientConnection.rawReady, SocketClientConnection.sendControlTextRaw]
      at *
  · split_ifs <;> rfl
  · split_ifs at hbuffer ⊢ <;> first | rfl | exact absurd rfl hbuffer

/-- A connection that is blocked sends nothing. -/
theorem writing_of_blocked (hconnected : w.connection.clientConnected = true)
    (hblocked : w.connection.clientBlocked = true) (hstep : w.step .doWork = some w') :
    w'.raw.writing = w.raw.writing := by
  rw [step] at hstep
  have hcases := doWork_cases w.connection w.raw.accepts hconnected
  generalize w.connection.doWork w.raw.accepts = worked at hcases hstep
  obtain ⟨connection, requests, sending⟩ := worked
  rcases hcases with ⟨-, rfl, -⟩ | ⟨hfalse, -⟩ | ⟨hfalse, -⟩
  · obtain rfl := Option.some.inj hstep
    rfl
  · exact absurd (hblocked.symm.trans hfalse) nofun
  · exact absurd (hblocked.symm.trans hfalse) nofun

/-- A text that fills the buffer is not sent. -/
theorem Invariant.fits_of_step (h : w.Invariant) {a : Action} (hstep : w.step a = some w')
    (hflows : w'.Flows) : w.Fits a := by
  cases a with
  | clientSendData serId formattedOutput =>
    intro hconnected hblocked
    by_contra hfull
    rw [TelnetOutput.step] at hstep
    have hcases := clientSendData_cases w.connection serId formattedOutput
    generalize w.connection.clientSendData serId formattedOutput = answered at hcases hstep
    obtain ⟨code, connection⟩ := answered
    dsimp only at hcases hstep
    obtain rfl := Option.some.inj hstep
    rcases hcases with ⟨hblocks, -⟩ | ⟨-, -, -, hconnected', hblocked', -⟩
    · exact absurd ((hblocks hconnected).symm.trans hblocked) nofun
    · have hwriting : w.raw.writing = none :=
        Option.not_isSome_iff_eq_none.mp (by simp [← h.blocked hconnected, hblocked])
      rw [decide_eq_true (by omega)] at hblocked'
      rcases hflows.moves hconnected' (.inl hblocked') with hsome | ⟨-, w', hwork, hsome⟩
      · simp [hwriting] at hsome
      · rw [writing_of_blocked hconnected' hblocked' hwork] at hsome
        simp [hwriting] at hsome
  | _ => trivial

/-- A text that fills the buffer is accepted, and not sent. -/
theorem exists_run_full (socketSendBufferSize : UInt32) (serId : MessageSerialId)
    (formattedOutput : ByteString)
    (hfull : socketSendBufferSize.toNat ≤ formattedOutput.length + 1) :
    ∃ w, run step (start socketSendBufferSize [])
        [.clientSendData serId formattedOutput, .doWork] = some w ∧
      w.connection.clientConnected = true ∧ w.connection.clientBlocked = true ∧
      w.raw.writing = none ∧ w.connection.requestedService = false ∧
      w.accepted = [formattedOutput ++ [telnetLf]] ∧ w.sends = [] := by
  simp [run, step, start, SocketClientConnection.new, SocketClientConnection.rawReady,
    SocketClientConnection.sendControlTextRaw, SocketClientConnection.clientSendData,
    SocketClientConnection.sendTextLine, SocketClientConnection.requestService,
    SocketClientConnection.pendingSerAck, SocketClientConnection.doWork,
    SocketClientConnection.acknowledgeWork, SocketClientConnection.sendWork, incomingLinesAck,
    RawSocketConnection.started, hfull]

end TelnetOutput

end Mutgos.Socket
