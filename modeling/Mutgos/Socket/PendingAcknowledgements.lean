import Mathlib.Algebra.BigOperators.Group.List.Lemmas
import Mathlib.Algebra.Order.BigOperators.Group.List
import Mathlib.Algebra.Order.Group.Nat
import Mathlib.Algebra.Ring.Nat
import Mutgos.CommInterface.ReliableDelivery
import Mutgos.Socket.SocketClientConnection

/-!
# What a telnet connection acknowledges

The session keeps the events that have not been acknowledged, and the connection their serial
IDs and sizes: two lists that are to shrink together.  `ack_outgoing_data` removes messages from
the front of its list until little enough is left, and acknowledges them to the session; but where
it stops before the end of the list, it acknowledges one message more than it removes.

## Main results

* `TelnetSession.acknowledges_iff` — **what is pending is what has not been acknowledged, all
  through a run, exactly if each time all of it is acknowledged.**
-/

namespace Mutgos.Socket

open CommInterface Text ClientSession RouterEvent List

/-! ### The loop -/

section Loop

open SocketClientConnection

theorem sizeSub_of_le {a b : ℕ} (h : b ≤ a) : sizeSub a b = a - b := if_pos h

/-- The loop removes messages from the front, and knows the size of those that are left. -/
theorem exists_ackLoop (targetSize : ℕ) (entries : List (MessageSerialId × ℕ)) :
    ∃ removed rest, entries = removed ++ rest ∧
      ackLoop targetSize (entries.map Prod.snd).sum entries = ((rest.map Prod.snd).sum, rest) ∧
      (targetSize < (entries.map Prod.snd).sum → removed ≠ []) := by
  induction entries with
  | nil => exact ⟨[], [], rfl, rfl, fun h => absurd h (by simp)⟩
  | cons entry entries ih =>
    rw [ackLoop]
    split
    · obtain ⟨removed, rest, hentries, hloop, -⟩ := ih
      refine ⟨entry :: removed, rest, by rw [hentries, cons_append], ?_, fun _ => by simp⟩
      rw [map_cons, sum_cons, sizeSub_of_le (Nat.le_add_right _ _),
        Nat.add_sub_cancel_left]
      exact hloop
    · next hle => exact ⟨[], entry :: entries, rfl, rfl, fun h => absurd h hle⟩

/-- Nothing is left exactly if the last message alone is more than enough. -/
theorem ackLoop_eq_nil_iff (targetSize : ℕ) (entries : List (MessageSerialId × ℕ))
    (last : MessageSerialId × ℕ) :
    (ackLoop targetSize ((entries ++ [last]).map Prod.snd).sum (entries ++ [last])).2 = [] ↔
      targetSize < last.2 := by
  induction entries with
  | nil => by_cases h : targetSize < last.2 <;> simp [ackLoop, h]
  | cons entry entries ih =>
    rw [cons_append, ackLoop, map_cons, sum_cons,
      sizeSub_of_le (Nat.le_add_right _ _), Nat.add_sub_cancel_left]
    split
    · exact ih
    · next hle =>
      have hlast : last.2 ≤ ((entries ++ [last]).map Prod.snd).sum :=
        single_le_sum (by simp) _ (mem_map_of_mem (by simp))
      simp only [reduceCtorEq, false_iff, not_lt]
      omega

end Loop

/-! ### A connection with its session -/

/-- A connection with its session. -/
structure TelnetSession where
  connection : SocketClientConnection
  session : ClientSession
  /-- The serial IDs that the connection has been given. -/
  given : List MessageSerialId
  /-- The serial IDs that the connection has acknowledged, and whether each was that of an event
  that had been sent and not acknowledged, and was no reason to disconnect. -/
  acknowledged : List (MessageSerialId × Bool)

/-- What happens to a connection and its session. -/
inductive TelnetAction where
  /-- There is an event for the client. -/
  | queue (channelId : ChannelId) (data : RouterEventData)
  /-- Something else happens in the session, which becomes like this one. -/
  | elsewhere (session : ClientSession)
  /-- A new connection, and `set_client_connection`. -/
  | connect (socketSendBufferSize : UInt32) (loginScreen : ByteString)
  /-- `process_pending` begins the handshake. -/
  | handshake
  /-- `process_pending` sends an event, with the text that is made of it. -/
  | send (formattedOutput : ByteString)
  | doWork (accepts : Bool)
  | receiveLine
  | sendComplete
  | sendControlTextRaw (text : ByteString)
  | disconnect

/-- What the connection says to an event. -/
def SocketClientConnection.sendEvent (c : SocketClientConnection) (event : RouterEvent)
    (formattedOutput : ByteString) : SendReturnCode × SocketClientConnection :=
  match event.data with
  | .channelStatus _ => c.clientChannelStatusChanged event.serialId
  | .data (.text _) => c.clientSendData event.serialId formattedOutput
  | .data (.message _) => (.sendNotSupported, c)

/-- A session in which something else has happened. -/
def elsewhere (s s' : ClientSession) : ClientSession :=
  { s' with
    outgoingEvents := s.outgoingEvents
    sentEvents := s.sentEvents
    lastUsedMessageSerId := s.lastUsedMessageSerId
    clientWindowSize := s.clientWindowSize
    needHandleReconnect := s.needHandleReconnect
    waitReconnectResponse := s.waitReconnectResponse
    needDisconnect := s.needDisconnect || s'.needDisconnect }

namespace TelnetSession

/-- A new connection with a new session. -/
def start (socketSendBufferSize : UInt32) (loginScreen : ByteString) : TelnetSession where
  connection := (SocketClientConnection.new socketSendBufferSize).rawReady loginScreen
  session := new socketSendBufferSize.toNat
  given := []
  acknowledged := []

/-- The session does what the connection calls it for. -/
def answer (w : TelnetSession) : SessionRequest → TelnetSession
  | .acknowledge serId =>
    { w with
      session := w.session.clientDataAcknowledge serId
      acknowledged := w.acknowledged ++
        [(serId, decide (serId ∈ w.session.sentEvents.map serialId ∧
          (w.session.clientDataAcknowledge serId).needDisconnect = w.session.needDisconnect))] }
  | .acknowledgeReconnect serId =>
    { w with session := w.session.clientDataAcknowledgeReconnect serId }
  | .unblocked => { w with session := w.session.clientUnblocked }
  | .disconnected => { w with session := w.session.clientDisconnected }

/-- The loop of `process_pending`, once around. -/
def sendNext (w : TelnetSession) (formattedOutput : ByteString) : Option TelnetSession :=
  if w.session.needDisconnect || w.session.needHandleReconnect ||
      w.session.waitReconnectResponse || w.session.clientIsBlocked ||
      w.session.clientWindowSize ≤ w.session.sentEvents.length then none
  else
    match w.session.outgoingEvents with
    | [] => none
    | event :: rest =>
      let (code, connection) := w.connection.sendEvent event formattedOutput
      match w.session.processSendReturnCode code with
      | (true, session) =>
        some
          { w with
            connection := connection
            session :=
              { session with
                outgoingEvents := rest
                sentEvents := session.sentEvents ++ [event] }
            given := w.given ++ [event.serialId] }
      | (false, session) => some { w with connection := connection, session := session }

/-- One step. -/
def step (w : TelnetSession) : TelnetAction → Option TelnetSession
  | .queue channelId data => some { w with session := w.session.queueEvent channelId data }
  | .elsewhere session => some { w with session := elsewhere w.session session }
  | .connect socketSendBufferSize loginScreen =>
    some
      { start socketSendBufferSize loginScreen with
        session := w.session.setClientConnection socketSendBufferSize.toNat }
  | .handshake =>
    if w.session.needHandleReconnect && !w.session.needDisconnect then
      some
        { w with
          connection := w.connection.clientSendAcknowledgeDataReconnect
          session := w.session.sendPending [] }
    else none
  | .send formattedOutput => w.sendNext formattedOutput
  | .doWork accepts =>
    let (connection, requests, _) := w.connection.doWork accepts
    some (requests.foldl answer { w with connection := connection })
  | .receiveLine => some { w with connection := w.connection.receiveLine }
  | .sendComplete =>
    let (connection, requests) := w.connection.rawSendComplete
    some (requests.foldl answer { w with connection := connection })
  | .sendControlTextRaw text =>
    some { w with connection := (w.connection.sendControlTextRaw text).2 }
  | .disconnect =>
    let (connection, requests) := w.connection.rawDisconnected
    some (requests.foldl answer { w with connection := connection })

/-! ### What is promised -/

/-- **What is pending is what has not been acknowledged.** -/
structure Acknowledges (w : TelnetSession) : Prop where
  /-- What has been acknowledged had been sent, and not acknowledged before. -/
  known : ∀ entry ∈ w.acknowledged, entry.2 = true
  /-- What has been given is acknowledged in order, and what comes after the last one that has
  been acknowledged is pending. -/
  covered : ∃ covered, w.given = covered ++ w.connection.pendingSerialIds.map Prod.fst ∧
    (w.acknowledged.map Prod.fst).Sublist covered ∧
    covered.getLast? = (w.acknowledged.map Prod.fst).getLast?
  /-- The size is that of what is pending. -/
  size : w.connection.pendingIdsMessageSize = (w.connection.pendingSerialIds.map Prod.snd).sum

end TelnetSession

namespace SocketClientConnection

/-- There is little enough, or the last message alone is more than enough. -/
def AcksWhole (c : SocketClientConnection) (fromClientInput : Bool) : Prop :=
  c.pendingIdsMessageSize ≤ c.targetSize fromClientInput ∨
    ∀ last ∈ c.pendingSerialIds.getLast?, c.targetSize fromClientInput < last.2

instance (c : SocketClientConnection) (fromClientInput : Bool) :
    Decidable (c.AcksWhole fromClientInput) := by
  unfold AcksWhole
  infer_instance

end SocketClientConnection

namespace TelnetSession

/-- What has to be so before `do_work`. -/
def AcksWhole (w : TelnetSession) : TelnetAction → Prop
  | .doWork _ =>
    w.connection.clientConnected = true → w.connection.clientDoReconnect = false →
      if w.connection.ackLinesReceivedFromClient > incomingLinesAck then
        w.connection.AcksWhole true
      else w.connection.clientBlocked = false → w.connection.AcksWhole false
  | _ => True

end TelnetSession

/-! ### Serial IDs -/

section SerialIds

/-- The serial ID of a message, counted from the first one of the session. -/
def messageId (n : ℕ) : MessageSerialId := n % (2 ^ 32 - 1) + 1

/-- The serial ID that has been used last, after so many messages. -/
def lastId : ℕ → MessageSerialId
  | 0 => 0
  | n + 1 => messageId n

theorem nextMessageId_lastId (n : ℕ) : nextMessageId (lastId n) = messageId n := by
  have hnext : ∀ m : ℕ, m < 2 ^ 32 →
      (if (m + 1) % 2 ^ 32 = 0 then 1 else (m + 1) % 2 ^ 32) = m % (2 ^ 32 - 1) + 1 := by
    intro m hm
    split <;> omega
  cases n with
  | zero => decide
  | succ n =>
    refine (hnext (n % (2 ^ 32 - 1) + 1) (by omega)).trans ?_
    unfold messageId
    omega

theorem messageId_ne_zero (n : ℕ) : messageId n ≠ 0 := Nat.succ_ne_zero _

/-- The IDs of messages that follow each other do not repeat too early. -/
theorem nodup_messageIds {n length : ℕ} (h : length < 2 ^ 32) :
    ((List.range' n length).map messageId).Nodup := by
  refine List.Nodup.map_on (fun a ha b hb hab => ?_) nodup_range'
  rw [mem_range'_1] at ha hb
  have hab : a % 4294967295 = b % 4294967295 := Nat.succ.inj hab
  omega

/-- Events that follow each other, up to the last one. -/
def Numbered (events : List RouterEvent) (lastUsed : MessageSerialId) : Prop :=
  ∃ n, events.map serialId = (List.range' n events.length).map messageId ∧
    lastUsed = lastId (n + events.length)

variable {events events' : List RouterEvent} {lastUsed : MessageSerialId}

theorem numbered_nil : Numbered [] 0 := ⟨0, rfl, rfl⟩

theorem Numbered.concat (h : Numbered events lastUsed) (event : RouterEvent)
    (hevent : event.serialId = nextMessageId lastUsed) :
    Numbered (events ++ [event]) event.serialId := by
  obtain ⟨n, hids, rfl⟩ := h
  rw [nextMessageId_lastId] at hevent
  refine ⟨n, ?_, ?_⟩
  · rw [map_append, hids, length_append, length_singleton, range'_concat,
      map_append, map_singleton, map_singleton, hevent, Nat.one_mul]
  · rw [hevent, length_append, length_singleton, ← Nat.add_assoc, lastId]

section

variable (h : Numbered (events ++ events') lastUsed)
include h

theorem Numbered.of_append : Numbered events' lastUsed := by
  obtain ⟨n, hids, rfl⟩ := h
  refine ⟨n + events.length, ?_, by rw [length_append, Nat.add_assoc]⟩
  rw [length_append, ← range'_append_1, map_append, map_append] at hids
  exact append_inj_right hids (by simp)

theorem Numbered.ids :
    ∃ n, events.map serialId = (List.range' n events.length).map messageId := by
  obtain ⟨n, hids, -⟩ := h
  refine ⟨n, ?_⟩
  rw [length_append, ← range'_append_1, map_append, map_append] at hids
  exact append_inj_left hids (by simp)

theorem Numbered.nodup (hlength : events.length < 2 ^ 32) :
    (events.map serialId).Nodup := by
  obtain ⟨n, hids⟩ := h.ids
  rw [hids]
  exact nodup_messageIds hlength

theorem Numbered.ne_zero {id : MessageSerialId} (hid : id ∈ events.map serialId) :
    id ≠ 0 := by
  obtain ⟨n, hids⟩ := h.ids
  rw [hids] at hid
  obtain ⟨k, -, rfl⟩ := mem_map.mp hid
  exact messageId_ne_zero k

end

end SerialIds

/-! ### What stays as it is -/

/-- What is sent, and whether it can be, is as it was. -/
structure SessionFrame (s s' : ClientSession) : Prop where
  sentEvents : s'.sentEvents = s.sentEvents
  outgoingEvents : s'.outgoingEvents = s.outgoingEvents
  lastUsedMessageSerId : s'.lastUsedMessageSerId = s.lastUsedMessageSerId
  clientWindowSize : s'.clientWindowSize = s.clientWindowSize
  needHandleReconnect : s'.needHandleReconnect = s.needHandleReconnect
  waitReconnectResponse : s'.waitReconnectResponse = s.waitReconnectResponse
  needDisconnect : s.needDisconnect = true → s'.needDisconnect = true

/-- What is pending is as it was. -/
structure PendingFrame (c c' : SocketClientConnection) : Prop where
  pendingSerialIds : c'.pendingSerialIds = c.pendingSerialIds
  pendingIdsMessageSize : c'.pendingIdsMessageSize = c.pendingIdsMessageSize
  clientDoReconnect : c'.clientDoReconnect = true → c.clientDoReconnect = true

theorem SessionFrame.refl (s : ClientSession) : SessionFrame s s :=
  ⟨rfl, rfl, rfl, rfl, rfl, rfl, id⟩

theorem PendingFrame.refl (c : SocketClientConnection) : PendingFrame c c := ⟨rfl, rfl, id⟩

theorem sessionFrame_elsewhere (s s' : ClientSession) : SessionFrame s (elsewhere s s') :=
  ⟨rfl, rfl, rfl, rfl, rfl, rfl, fun h => by simp [elsewhere, h]⟩

theorem sessionFrame_clientUnblocked (s : ClientSession) : SessionFrame s s.clientUnblocked := by
  unfold clientUnblocked
  dsimp only
  split <;> exact ⟨rfl, rfl, rfl, rfl, rfl, rfl, id⟩

theorem sessionFrame_processSendReturnCode (s : ClientSession) (code : SendReturnCode) :
    SessionFrame s (s.processSendReturnCode code).2 := by
  cases code with
  | sendNotSupported => exact ⟨rfl, rfl, rfl, rfl, rfl, rfl, fun _ => rfl⟩
  | _ => exact ⟨rfl, rfl, rfl, rfl, rfl, rfl, id⟩

namespace SocketClientConnection

variable (c : SocketClientConnection)

theorem pendingFrame_sendTextLine (text : ByteString) : PendingFrame c (c.sendTextLine text).2 := by
  unfold sendTextLine
  dsimp only
  split_ifs <;> exact ⟨rfl, rfl, id⟩

theorem pendingFrame_sendControlTextRaw (text : ByteString) :
    PendingFrame c (c.sendControlTextRaw text).2 := by
  unfold sendControlTextRaw
  split_ifs <;> exact ⟨rfl, rfl, id⟩

theorem pendingFrame_rawSendComplete : PendingFrame c c.rawSendComplete.1 := by
  unfold rawSendComplete
  dsimp only
  split_ifs <;> exact ⟨rfl, rfl, id⟩

theorem pendingFrame_rawDisconnected : PendingFrame c c.rawDisconnected.1 := by
  unfold rawDisconnected
  split_ifs <;> exact ⟨rfl, rfl, id⟩

theorem pendingFrame_sendWork (accepts : Bool) : PendingFrame c (c.sendWork accepts).1 := by
  unfold sendWork
  dsimp only
  split
  · split
    · exact ⟨rfl, rfl, id⟩
    · split
      · exact ⟨rfl, rfl, id⟩
      · have hframe := pendingFrame_rawDisconnected
          { c with
            outgoingTextBuffer := c.outgoingTextBuffer ++ c.outgoingControlBuffer
            outgoingControlBuffer := [] }
        exact ⟨hframe.1, hframe.2, hframe.3⟩
  · exact .refl c

theorem requests_rawSendComplete :
    c.rawSendComplete.2 = [] ∨ c.rawSendComplete.2 = [.unblocked] := by
  unfold rawSendComplete
  dsimp only
  split_ifs
  · exact .inr rfl
  · exact .inl rfl

theorem requests_rawDisconnected : ∀ request ∈ c.rawDisconnected.2, request = .disconnected := by
  unfold rawDisconnected
  split_ifs <;> simp

/-- The session is called for nothing but that the client has disconnected. -/
theorem requests_sendWork (accepts : Bool) :
    ∀ request ∈ (c.sendWork accepts).2.1, request = .disconnected := by
  unfold sendWork rawDisconnected
  grind

end SocketClientConnection

namespace TelnetSession

variable {w w' : TelnetSession}

theorem acknowledges_congr (hpending : PendingFrame w.connection w'.connection)
    (hgiven : w'.given = w.given) (hacknowledged : w'.acknowledged = w.acknowledged) :
    w'.Acknowledges ↔ w.Acknowledges := by
  constructor <;> rintro ⟨hknown, hcovered, hsize⟩
  · rw [hgiven, hacknowledged, hpending.pendingSerialIds] at hcovered
    rw [hpending.pendingIdsMessageSize, hpending.pendingSerialIds] at hsize
    exact ⟨hacknowledged ▸ hknown, hcovered, hsize⟩
  · refine ⟨hacknowledged ▸ hknown, ?_, ?_⟩
    · rw [hgiven, hacknowledged, hpending.pendingSerialIds]
      exact hcovered
    · rw [hpending.pendingIdsMessageSize, hpending.pendingSerialIds]
      exact hsize

/-- The two lists are the same, as long as the session sends anything. -/
structure Invariant (w : TelnetSession) : Prop where
  numbered : Numbered (w.session.sentEvents ++ w.session.outgoingEvents)
    w.session.lastUsedMessageSerId
  window : w.session.clientWindowSize < 2 ^ 32
  room : w.session.sentEvents.length < 2 ^ 32
  /-- Nothing is sent during the handshake. -/
  waits : w.session.needHandleReconnect = true ∨ w.session.waitReconnectResponse = true →
    w.connection.pendingSerialIds = []
  reconnects : w.connection.clientDoReconnect = true → w.session.waitReconnectResponse = true
  agrees : w.connection.pendingSerialIds.map Prod.fst =
      w.session.sentEvents.map serialId ∨
    w.connection.pendingSerialIds = [] ∧ (w.session.needHandleReconnect = true ∨
      w.session.waitReconnectResponse = true ∨ w.session.needDisconnect = true)
  sizes : ∀ entry ∈ w.connection.pendingSerialIds, entry.2 < 2 ^ 32
  acknowledges : w.Acknowledges

theorem Invariant.congr (h : w.Invariant) (hsession : SessionFrame w.session w'.session)
    (hpending : PendingFrame w.connection w'.connection)
    (hgiven : w'.given = w.given) (hacknowledged : w'.acknowledged = w.acknowledged) :
    w'.Invariant where
  numbered := by
    rw [hsession.sentEvents, hsession.outgoingEvents, hsession.lastUsedMessageSerId]
    exact h.numbered
  window := hsession.clientWindowSize ▸ h.window
  room := hsession.sentEvents ▸ h.room
  waits hwaits := by
    rw [hsession.needHandleReconnect, hsession.waitReconnectResponse] at hwaits
    rw [hpending.pendingSerialIds]
    exact h.waits hwaits
  reconnects hreconnect := by
    rw [hsession.waitReconnectResponse]
    exact h.reconnects (hpending.clientDoReconnect hreconnect)
  agrees := by
    rw [hsession.sentEvents, hsession.needHandleReconnect, hsession.waitReconnectResponse,
      hpending.pendingSerialIds]
    exact h.agrees.imp_right (And.imp_right (Or.imp_right (Or.imp_right hsession.needDisconnect)))
  sizes := hpending.pendingSerialIds ▸ h.sizes
  acknowledges := (acknowledges_congr hpending hgiven hacknowledged).mpr h.acknowledges

theorem frame_answer_disconnected (w : TelnetSession) (requests : List SessionRequest)
    (h : ∀ request ∈ requests, request = .disconnected) :
    SessionFrame w.session (requests.foldl answer w).session ∧
      (requests.foldl answer w).connection = w.connection ∧
      (requests.foldl answer w).given = w.given ∧
      (requests.foldl answer w).acknowledged = w.acknowledged := by
  induction requests generalizing w with
  | nil => exact ⟨.refl _, rfl, rfl, rfl⟩
  | cons request requests ih =>
    obtain ⟨hrequest, hrequests⟩ := forall_mem_cons.mp h
    subst hrequest
    obtain ⟨hsession, hrest⟩ := ih (w.answer .disconnected) hrequests
    exact ⟨⟨hsession.1, hsession.2, hsession.3, hsession.4, hsession.5, hsession.6, hsession.7⟩,
      hrest⟩

/-! ### What is acknowledged -/

/-- What is left of the two lists is the same: the session knows what is acknowledged. -/
theorem Invariant.known (h : w.Invariant) {serId : MessageSerialId}
    (hid : serId ∈ w.connection.pendingSerialIds.map Prod.fst) :
    serId ∈ w.session.sentEvents.map serialId ∧
      (w.session.clientDataAcknowledge serId).needDisconnect = w.session.needDisconnect := by
  rcases h.agrees with hagrees | ⟨hpending, -⟩
  · rw [hagrees] at hid
    obtain ⟨event, hevent, rfl⟩ := mem_map.mp hid
    obtain ⟨n, hn⟩ := getElem?_of_mem hevent
    have hacknowledge := clientDataAcknowledge_eq (h.numbered.nodup h.room) hn
      (h.numbered.ne_zero hid)
    exact ⟨hid, hacknowledge.2.2.2.2.1⟩
  · simp [hpending] at hid

/-- When the last event that has been sent is acknowledged, none is left. -/
theorem sessionFrame_acknowledge_last {s : ClientSession}
    (hids : (s.sentEvents.map serialId).Nodup) {before : List RouterEvent}
    {event : RouterEvent} (hsent : s.sentEvents = before ++ [event]) (hzero : event.serialId ≠ 0) :
    SessionFrame { s with sentEvents := [] } (s.clientDataAcknowledge event.serialId) := by
  have hany : s.sentEvents.any (fun e => e.serialId = event.serialId) = true := by simp [hsent]
  have hevent : s.sentEvents[before.length]? = some event := by simp [hsent]
  have hdrop : s.sentEvents.drop (before.length + 1) = [] := by simp [hsent]
  rw [clientDataAcknowledge, if_neg hzero, if_pos hany]
  dsimp only
  rw [dropThrough_eq_drop hids hevent, hdrop]
  split <;> exact ⟨rfl, rfl, rfl, rfl, rfl, rfl, id⟩

/-- The loop of `ack_outgoing_data`, by what it removes. -/
theorem Invariant.exists_ackOutgoingData (h : w.Invariant) (fromClientInput : Bool)
    (hsize : w.connection.pendingIdsMessageSize > w.connection.targetSize fromClientInput) :
    ∃ removed last, w.connection.pendingSerialIds = removed ++ [last] ∧
      (w.connection.targetSize fromClientInput < last.2 →
        w.connection.ackOutgoingData fromClientInput =
          ({ w.connection with pendingSerialIds := [], pendingIdsMessageSize := 0 },
            [.acknowledge last.1])) ∧
      (¬w.connection.targetSize fromClientInput < last.2 → ∃ removed' entry rest,
        removed' ≠ [] ∧ w.connection.pendingSerialIds = removed' ++ entry :: rest ∧
        w.connection.ackOutgoingData fromClientInput =
          ({ w.connection with
              pendingSerialIds := entry :: rest
              pendingIdsMessageSize := ((entry :: rest).map Prod.snd).sum },
            [.acknowledge entry.1])) := by
  have hne : w.connection.pendingSerialIds ≠ [] := by
    intro hnil
    rw [h.acknowledges.size, hnil] at hsize
    simp at hsize
  obtain ⟨before, last, hpending⟩ :=
    (eq_nil_or_concat' w.connection.pendingSerialIds).resolve_left hne
  have hlast : w.connection.pendingSerialIds.getLast? = some last := by simp [hpending]
  obtain ⟨removed, rest, hcut, hloop, hremoved⟩ := exists_ackLoop
    (w.connection.targetSize fromClientInput) w.connection.pendingSerialIds
  have hnil := ackLoop_eq_nil_iff (w.connection.targetSize fromClientInput) before last
  rw [← hpending, hloop] at hnil
  rw [← h.acknowledges.size] at hloop hremoved
  refine ⟨before, last, hpending, fun hall => ?_, fun hsome => ?_⟩
  · obtain rfl : rest = [] := hnil.mpr hall
    simp only [SocketClientConnection.ackOutgoingData, if_pos hsize, hlast, hloop]
  · cases rest with
    | nil => exact absurd (hnil.mp rfl) hsome
    | cons entry rest =>
      refine ⟨removed, entry, rest, hremoved hsize, hcut, ?_⟩
      simp only [SocketClientConnection.ackOutgoingData, if_pos hsize, hlast, hloop]

/-- The connection acknowledges what it does, and the session is told. -/
def acknowledge (w : TelnetSession) (fromClientInput : Bool) : TelnetSession :=
  (w.connection.ackOutgoingData fromClientInput).2.foldl answer
    { w with connection := (w.connection.ackOutgoingData fromClientInput).1 }

/-- **Where all is acknowledged, nothing is left on either side.** -/
theorem Invariant.acknowledge (h : w.Invariant) (fromClientInput : Bool)
    (hwhole : w.connection.AcksWhole fromClientInput) :
    (w.acknowledge fromClientInput).Invariant := by
  by_cases hsize : w.connection.pendingIdsMessageSize > w.connection.targetSize fromClientInput
  · obtain ⟨removed, last, hpending, hall, -⟩ := h.exists_ackOutgoingData fromClientInput hsize
    have hlast : w.connection.pendingSerialIds.getLast? = some last := by simp [hpending]
    have hack := hall (hwhole.resolve_left (by omega) last hlast)
    have hmem : last.1 ∈ w.connection.pendingSerialIds.map Prod.fst := by simp [hpending]
    have hknown := h.known hmem
    have hsent : w.session.sentEvents.map serialId =
        removed.map Prod.fst ++ [last.1] := by
      rw [← h.agrees.resolve_right (by simp [hpending]), hpending, map_append,
        map_singleton]
    obtain ⟨before, events, hevents, hbefore, hlastEvent⟩ := map_eq_append_iff.mp hsent
    obtain ⟨event, rfl, hevent⟩ := map_eq_singleton_iff.mp hlastEvent
    have hframe := sessionFrame_acknowledge_last (h.numbered.nodup h.room) hevents
      (hevent ▸ h.numbered.ne_zero hknown.1)
    rw [hevent] at hframe
    rw [TelnetSession.acknowledge, hack]
    have hnumbered := h.numbered.of_append
    exact
      { numbered := by
          simpa [answer, hframe.sentEvents, hframe.outgoingEvents, hframe.lastUsedMessageSerId]
            using hnumbered
        window := by simpa [answer, hframe.clientWindowSize] using h.window
        room := by simp [answer, hframe.sentEvents]
        waits := fun _ => rfl
        reconnects := fun hreconnect =>
          hframe.waitReconnectResponse.trans (h.reconnects hreconnect)
        agrees := .inl (by simp [answer, hframe.sentEvents])
        sizes := by simp [answer]
        acknowledges := by
          obtain ⟨covered, hgiven, hsublist, hlast⟩ := h.acknowledges.covered
          refine ⟨?_, ⟨covered ++ w.connection.pendingSerialIds.map Prod.fst, ?_, ?_, ?_⟩, rfl⟩
          · simpa [answer, hknown] using h.acknowledges.known
          · simpa [answer] using hgiven
          · simp only [foldl_cons, foldl_nil, answer, map_append, map_singleton]
            exact hsublist.append (singleton_sublist.mpr hmem)
          · simp [answer, hpending] }
  · have hack : w.connection.ackOutgoingData fromClientInput = (w.connection, []) := if_neg hsize
    rw [TelnetSession.acknowledge, hack]
    exact h

/-- What the loop stops at is acknowledged, and still pending. -/
theorem Invariant.acksWhole_of_acknowledges (h : w.Invariant) {fromClientInput : Bool}
    (hacknowledges : (w.acknowledge fromClientInput).Acknowledges) :
    w.connection.AcksWhole fromClientInput := by
  by_contra hwhole
  obtain ⟨hsize, hlast⟩ := not_or.mp hwhole
  obtain ⟨before, last, hpending, -, hsome⟩ :=
    h.exists_ackOutgoingData fromClientInput (Nat.lt_of_not_le hsize)
  have hnot : ¬w.connection.targetSize fromClientInput < last.2 := by
    simpa [hpending] using hlast
  obtain ⟨removed, entry, rest, hremoved, hcut, hack⟩ := hsome hnot
  have hids : (w.connection.pendingSerialIds.map Prod.fst).Nodup := by
    rw [h.agrees.resolve_right (by simp [hpending])]
    exact h.numbered.nodup h.room
  obtain ⟨covered, hgiven, -, hcovered⟩ := h.acknowledges.covered
  obtain ⟨covered', hgiven', -, hcovered'⟩ := hacknowledges.covered
  simp only [TelnetSession.acknowledge, hack, foldl_cons, foldl_nil, answer]
    at hgiven' hcovered'
  rw [hgiven, hcut, map_append, ← append_assoc] at hgiven'
  -- What has been removed ends what is covered, but is not what has been acknowledged.
  have hend : covered ++ removed.map Prod.fst = covered' := append_inj_left' hgiven' rfl
  obtain ⟨removed, lastRemoved, rfl⟩ := (eq_nil_or_concat' removed).resolve_left hremoved
  rw [← hend] at hcovered'
  have hsame : lastRemoved.1 = entry.1 := by simpa using hcovered'
  rw [hcut, map_append, map_append, nodup_append] at hids
  exact hids.2.2 lastRemoved.1 (by simp) entry.1 (by simp) hsame

/-! ### The steps -/

/-- The first part of `do_work`, with its session. -/
def acknowledgeStep (w : TelnetSession) : TelnetSession :=
  w.connection.acknowledgeWork.2.foldl answer
    { w with connection := w.connection.acknowledgeWork.1 }

/-- The session has nothing to do with what the connection is. -/
theorem foldl_answer_connection (requests : List SessionRequest) (w : TelnetSession)
    (c : SocketClientConnection) : requests.foldl answer { w with connection := c } =
      { requests.foldl answer w with connection := c } := by
  induction requests generalizing w with
  | nil => rfl
  | cons request requests ih =>
    have hanswer := ih (w.answer request)
    cases request <;> exact hanswer

/-- What the first part of `do_work` acknowledges. -/
theorem acknowledgeStep_cases (w : TelnetSession) :
    (w.connection.clientDoReconnect = true ∧ w.acknowledgeStep =
        { w with
          connection := { w.connection with clientDoReconnect := false }
          session := w.session.clientDataAcknowledgeReconnect 0 }) ∨
      (w.connection.clientDoReconnect = false ∧
        w.connection.ackLinesReceivedFromClient > incomingLinesAck ∧ w.acknowledgeStep =
        { w.acknowledge true with
          connection :=
            { (w.acknowledge true).connection with ackLinesReceivedFromClient := 0 } }) ∨
      (w.connection.clientDoReconnect = false ∧
        ¬w.connection.ackLinesReceivedFromClient > incomingLinesAck ∧
        w.connection.clientBlocked = false ∧ w.acknowledgeStep = w.acknowledge false) ∨
      (w.connection.clientDoReconnect = false ∧
        ¬w.connection.ackLinesReceivedFromClient > incomingLinesAck ∧
        w.connection.clientBlocked = true ∧ w.acknowledgeStep = w) := by
  unfold acknowledgeStep SocketClientConnection.acknowledgeWork
  cases hreconnect : w.connection.clientDoReconnect with
  | true => exact .inl ⟨rfl, rfl⟩
  | false =>
    refine .inr ?_
    by_cases hmany : w.connection.ackLinesReceivedFromClient > incomingLinesAck
    · refine .inl ⟨rfl, hmany, ?_⟩
      simp only [Bool.false_eq_true, if_false, if_pos hmany]
      have hfold := foldl_answer_connection (w.connection.ackOutgoingData true).2 w
      have hack : w.acknowledge true = _ := hfold (w.connection.ackOutgoingData true).1
      rw [hack]
      exact hfold _
    · refine .inr ?_
      simp only [Bool.false_eq_true, if_false, if_neg hmany]
      cases hblocked : w.connection.clientBlocked with
      | false => exact .inl ⟨trivial, hmany, rfl, rfl⟩
      | true => exact .inr ⟨trivial, hmany, rfl, rfl⟩

/-- After a reconnect, what had been sent is to be sent again, or the client is disconnected. -/
theorem sessionFrame_acknowledgeReconnect (s : ClientSession) : ∃ sent outgoing,
    s.sentEvents ++ s.outgoingEvents = sent ++ outgoing ∧
    sent.length ≤ s.sentEvents.length ∧
    SessionFrame
      { s with sentEvents := sent, outgoingEvents := outgoing, waitReconnectResponse := false }
      (s.clientDataAcknowledgeReconnect 0) ∧
    (sent = [] ∨ (s.clientDataAcknowledgeReconnect 0).needDisconnect = true) := by
  unfold clientDataAcknowledgeReconnect acknowledgeReconnect
  cases hwait : s.waitReconnectResponse with
  | false =>
    exact ⟨s.sentEvents, s.outgoingEvents, rfl, le_rfl,
      ⟨rfl, rfl, rfl, rfl, rfl, rfl, fun _ => rfl⟩, .inr rfl⟩
  | true =>
    cases hneed : s.needDisconnect with
    | false =>
      refine ⟨[], s.sentEvents ++ s.outgoingEvents, rfl, Nat.zero_le _, ?_, .inl rfl⟩
      exact ⟨rfl, rfl, rfl, rfl, rfl, rfl, id⟩
    | true =>
      exact ⟨s.sentEvents, s.outgoingEvents, rfl, le_rfl,
        ⟨rfl, rfl, rfl, rfl, rfl, rfl, fun _ => rfl⟩, .inr rfl⟩

theorem Invariant.acknowledgeReconnect (h : w.Invariant)
    (hreconnect : w.connection.clientDoReconnect = true) :
    Invariant
      { w with
        connection := { w.connection with clientDoReconnect := false }
        session := w.session.clientDataAcknowledgeReconnect 0 } := by
  have hpending := h.waits (.inr (h.reconnects hreconnect))
  obtain ⟨sent, outgoing, hevents, hlength, hframe, hsent⟩ :=
    sessionFrame_acknowledgeReconnect w.session
  exact
    { numbered := by
        rw [hframe.sentEvents, hframe.outgoingEvents, hframe.lastUsedMessageSerId, ← hevents]
        exact h.numbered
      window := hframe.clientWindowSize ▸ h.window
      room := hframe.sentEvents ▸ hlength.trans_lt h.room
      waits := fun _ => hpending
      reconnects := nofun
      agrees := by
        rcases hsent with rfl | hneed
        · refine .inl ?_
          rw [hframe.sentEvents, hpending]
          rfl
        · exact .inr ⟨hpending, .inr (.inr hneed)⟩
      sizes := h.sizes
      acknowledges := ⟨h.acknowledges.known, h.acknowledges.covered, h.acknowledges.size⟩ }

/-- What the connection says to an event: it keeps its serial ID, or not. -/
theorem sendEvent_cases (c : SocketClientConnection) (event : RouterEvent)
    (formattedOutput : ByteString) :
    (∃ c' size, PendingFrame c c' ∧
      (c.sendEvent event formattedOutput).2 = c'.pendingSerAck event.serialId size ∧
      ∀ s : ClientSession,
        (s.processSendReturnCode (c.sendEvent event formattedOutput).1).1 = true) ∨
    ((c.sendEvent event formattedOutput).2 = c ∧ ∀ s : ClientSession,
      (s.processSendReturnCode (c.sendEvent event formattedOutput).1).1 = false) := by
  unfold SocketClientConnection.sendEvent
  split
  · exact .inl ⟨c, 0, .refl c, rfl, fun _ => rfl⟩
  · unfold SocketClientConnection.clientSendData
    split_ifs with hconnected hblocked
    · exact .inr ⟨rfl, fun _ => rfl⟩
    · exact .inr ⟨rfl, fun _ => rfl⟩
    · refine .inl ⟨_, formattedOutput.length + 1, c.pendingFrame_sendTextLine formattedOutput, rfl,
        fun s => ?_⟩
      simp only [SocketClientConnection.sendTextLine, if_neg hconnected, if_neg hblocked]
      split_ifs <;> rfl
  · exact .inr ⟨rfl, fun _ => rfl⟩

/-- The sum of the sizes does not get too large. -/
theorem sum_sizes_lt {entries : List (MessageSerialId × ℕ)} {size : ℕ}
    (hsizes : ∀ entry ∈ entries, entry.2 < 2 ^ 32) (hlength : entries.length + 1 < 2 ^ 32)
    (hsize : size < 2 ^ 32) : (entries.map Prod.snd).sum + size < 2 ^ 64 := by
  have hsum : (entries.map Prod.snd).sum ≤ entries.length * (2 ^ 32 - 1) := by
    have hle := sum_le_card_nsmul (entries.map Prod.snd) (2 ^ 32 - 1) fun size hmem => by
      obtain ⟨entry, hentry, rfl⟩ := mem_map.mp hmem
      exact Nat.le_sub_one_of_lt (hsizes entry hentry)
    rwa [length_map, Nat.nsmul_eq_mul] at hle
  omega

/-- The connection is given an event. -/
theorem Invariant.sendNext (h : w.Invariant) {formattedOutput : ByteString}
    (hsend : w.sendNext formattedOutput = some w') : w'.Invariant := by
  unfold TelnetSession.sendNext at hsend
  split at hsend
  · cases hsend
  next hguard =>
  simp only [Bool.or_eq_true, decide_eq_true_eq, not_or, Bool.not_eq_true, not_le] at hguard
  obtain ⟨⟨⟨⟨hneed, hhandle⟩, hwait⟩, -⟩, hroom⟩ := hguard
  split at hsend
  · cases hsend
  next event rest hevents =>
  have hagrees := h.agrees.resolve_right (by simp [hneed, hhandle, hwait])
  have hcases := sendEvent_cases w.connection event formattedOutput
  generalize w.connection.sendEvent event formattedOutput = answered at hsend hcases
  obtain ⟨code, connection⟩ := answered
  have hframe := sessionFrame_processSendReturnCode w.session code
  rcases hcases with ⟨c', size, hpending, rfl, hcode⟩ | ⟨rfl, hcode⟩
  · have hcode := hcode w.session
    dsimp only at hsend hcode
    generalize w.session.processSendReturnCode code = returned at hsend hframe hcode
    obtain ⟨accepted, session⟩ := returned
    subst hcode
    obtain rfl := Option.some.inj hsend
    have hlength : w.connection.pendingSerialIds.length = w.session.sentEvents.length := by
      simpa using congrArg List.length hagrees
    have hwindow := h.window
    have hroom : w.session.sentEvents.length + 1 < 2 ^ 32 := by omega
    have hsize : size % 2 ^ 32 < 2 ^ 32 := Nat.mod_lt _ (by decide)
    have hsum := sum_sizes_lt h.sizes (hlength ▸ hroom) hsize
    exact
      { numbered := by
          dsimp only
          rw [hframe.sentEvents, hframe.lastUsedMessageSerId, append_assoc,
            singleton_append, ← hevents]
          exact h.numbered
        window := hframe.clientWindowSize ▸ h.window
        room := by
          dsimp only
          rw [hframe.sentEvents, length_append, length_singleton]
          exact hroom
        waits := fun hwaits => by
          dsimp only at hwaits
          rw [hframe.needHandleReconnect, hframe.waitReconnectResponse, hhandle, hwait] at hwaits
          simp at hwaits
        reconnects := fun hreconnect =>
          hframe.waitReconnectResponse.trans (h.reconnects (hpending.clientDoReconnect hreconnect))
        agrees := by
          refine .inl ?_
          dsimp only at hframe ⊢
          rw [hframe.sentEvents, SocketClientConnection.pendingSerAck, hpending.pendingSerialIds,
            map_append, map_append, hagrees]
          rfl
        sizes := by
          simp only [SocketClientConnection.pendingSerAck, hpending.pendingSerialIds]
          rintro entry hentry
          rcases mem_append.mp hentry with hentry | hentry
          · exact h.sizes entry hentry
          · rw [mem_singleton.mp hentry]
            exact hsize
        acknowledges := by
          obtain ⟨covered, hgiven, hsublist, hlast⟩ := h.acknowledges.covered
          refine ⟨h.acknowledges.known, ⟨covered, ?_, hsublist, hlast⟩, ?_⟩
          · simp [SocketClientConnection.pendingSerAck, hpending.pendingSerialIds, hgiven]
          · simp only [SocketClientConnection.pendingSerAck, hpending.pendingSerialIds,
              hpending.pendingIdsMessageSize, h.acknowledges.size]
            rw [Nat.mod_eq_of_lt hsum, map_append, sum_append]
            simp }
  · have hcode := hcode w.session
    dsimp only at hsend hcode
    generalize w.session.processSendReturnCode code = returned at hsend hframe hcode
    obtain ⟨accepted, session⟩ := returned
    subst hcode
    obtain rfl := Option.some.inj hsend
    exact h.congr hframe (.refl _) rfl rfl

theorem foldl_answer_append (requests requests' : List SessionRequest) (w : TelnetSession)
    (c c' : SocketClientConnection) :
    (requests ++ requests').foldl answer { w with connection := c' } =
      { requests'.foldl answer (requests.foldl answer { w with connection := c }) with
        connection := c' } := by
  rw [foldl_append, foldl_answer_connection requests w c]
  have hfirst : requests.foldl answer { w with connection := c' } = _ :=
    foldl_answer_connection requests w c'
  rw [hfirst]
  have hc := foldl_answer_connection requests' (requests.foldl answer w) c
  have hc' := foldl_answer_connection requests' (requests.foldl answer w) c'
  exact hc'.trans (by rw [show requests'.foldl answer _ = _ from hc])

/-- `do_work`: what is acknowledged, and what is sent. -/
theorem step_doWork (w : TelnetSession) (accepts : Bool)
    (hconnected : w.connection.clientConnected = true) :
    let w₀ := { w with connection := { w.connection with requestedService := false } }
    let sent := w₀.connection.acknowledgeWork.1.sendWork accepts
    w.step (.doWork accepts) =
      some { sent.2.1.foldl answer w₀.acknowledgeStep with connection := sent.1 } := by
  intro w₀ sent
  have hfold := foldl_answer_append w₀.connection.acknowledgeWork.2 sent.2.1 w₀
    w₀.connection.acknowledgeWork.1 sent.1
  have hwork : w.connection.doWork accepts =
      (sent.1, w₀.connection.acknowledgeWork.2 ++ sent.2.1, sent.2.2) := by
    rw [SocketClientConnection.doWork]
    exact if_pos hconnected
  rw [step, hwork]
  exact congrArg some hfold

theorem connection_acknowledgeStep (w : TelnetSession) :
    w.acknowledgeStep.connection = w.connection.acknowledgeWork.1 := by
  rw [acknowledgeStep, foldl_answer_connection w.connection.acknowledgeWork.2 w]

theorem Invariant.acknowledgeStep (h : w.Invariant) (accepts : Bool)
    (hconnected : w.connection.clientConnected = true) (hok : w.AcksWhole (.doWork accepts)) :
    w.acknowledgeStep.Invariant := by
  rcases w.acknowledgeStep_cases with ⟨hreconnect, hstep⟩ | ⟨hreconnect, hmany, hstep⟩ |
    ⟨hreconnect, hmany, hblocked, hstep⟩ | ⟨-, -, -, hstep⟩ <;> rw [hstep]
  · exact h.acknowledgeReconnect hreconnect
  · have hwhole := hok hconnected hreconnect
    rw [if_pos hmany] at hwhole
    exact (h.acknowledge true hwhole).congr (.refl _) ⟨rfl, rfl, id⟩ rfl rfl
  · have hwhole := hok hconnected hreconnect
    rw [if_neg hmany] at hwhole
    exact h.acknowledge false (hwhole hblocked)
  · exact h

/-- What the second part of `do_work` does is not about acknowledgements. -/
theorem frame_doWork {accepts : Bool} (hconnected : w.connection.clientConnected = true)
    (hstep : w.step (.doWork accepts) = some w') {w₀ : TelnetSession}
    (hw₀ : w₀ = { w with connection := { w.connection with requestedService := false } }) :
    SessionFrame w₀.acknowledgeStep.session w'.session ∧
      PendingFrame w₀.acknowledgeStep.connection w'.connection ∧
      w'.given = w₀.acknowledgeStep.given ∧
      w'.acknowledged = w₀.acknowledgeStep.acknowledged := by
  rw [step_doWork w accepts hconnected] at hstep
  dsimp only at hstep
  rw [← hw₀] at hstep
  obtain rfl := Option.some.inj hstep
  obtain ⟨hsession, -, hgiven, hacknowledged⟩ := frame_answer_disconnected w₀.acknowledgeStep _
    (w₀.connection.acknowledgeWork.1.requests_sendWork accepts)
  refine ⟨?_, ?_, ?_, ?_⟩
  · rw [hw₀] at hsession ⊢
    exact hsession
  · rw [connection_acknowledgeStep, hw₀]
    exact SocketClientConnection.pendingFrame_sendWork _ accepts
  · rw [hw₀] at hgiven ⊢
    exact hgiven
  · rw [hw₀] at hacknowledged ⊢
    exact hacknowledged

theorem Invariant.doWork (h : w.Invariant) {accepts : Bool} (hok : w.AcksWhole (.doWork accepts))
    (hstep : w.step (.doWork accepts) = some w') : w'.Invariant := by
  have h₀ : Invariant { w with connection := { w.connection with requestedService := false } } :=
    h.congr (.refl _) ⟨rfl, rfl, id⟩ rfl rfl
  cases hconnected : w.connection.clientConnected with
  | true =>
    obtain ⟨hsession, hpending, hgiven, hacknowledged⟩ := frame_doWork hconnected hstep rfl
    exact (h₀.acknowledgeStep accepts hconnected hok).congr hsession hpending hgiven
      hacknowledged
  | false =>
    rw [step, SocketClientConnection.doWork] at hstep
    simp only [hconnected, Bool.false_eq_true, if_false] at hstep
    obtain rfl := Option.some.inj hstep
    exact h.congr (.refl _) ⟨rfl, rfl, id⟩ rfl rfl

theorem acknowledges_start (socketSendBufferSize : UInt32) (loginScreen : ByteString)
    (session : ClientSession) :
    Acknowledges { start socketSendBufferSize loginScreen with session := session } := by
  have hpending := SocketClientConnection.pendingFrame_sendControlTextRaw
    { SocketClientConnection.new socketSendBufferSize with clientConnected := true } loginScreen
  refine ⟨nofun, ⟨[], ?_, .slnil, rfl⟩, ?_⟩
  · exact (congrArg (List.map Prod.fst) hpending.pendingSerialIds).symm
  · refine hpending.pendingIdsMessageSize.trans ?_
    exact congrArg (fun entries => (entries.map Prod.snd).sum) hpending.pendingSerialIds.symm

/-- **Each step keeps the two lists the same**, where all is acknowledged. -/
theorem Invariant.step (h : w.Invariant) {a : TelnetAction} (hok : w.AcksWhole a)
    (hstep : w.step a = some w') : w'.Invariant := by
  cases a with
  | doWork accepts => exact h.doWork hok hstep
  | send formattedOutput => exact h.sendNext hstep
  | queue channelId data =>
    obtain rfl := Option.some.inj hstep
    refine ⟨?_, h.window, h.room, h.waits, h.reconnects, h.agrees, h.sizes,
      ⟨h.acknowledges.known, h.acknowledges.covered, h.acknowledges.size⟩⟩
    have hnumbered := h.numbered.concat ⟨_, channelId, data⟩ rfl
    rw [append_assoc] at hnumbered
    exact hnumbered
  | elsewhere session =>
    obtain rfl := Option.some.inj hstep
    exact h.congr (sessionFrame_elsewhere _ _) (.refl _) rfl rfl
  | connect socketSendBufferSize loginScreen =>
    obtain rfl := Option.some.inj hstep
    have hpending := (SocketClientConnection.pendingFrame_sendControlTextRaw
      { SocketClientConnection.new socketSendBufferSize with clientConnected := true } loginScreen)
    have hnil : (start socketSendBufferSize loginScreen).connection.pendingSerialIds = [] :=
      hpending.pendingSerialIds
    exact
      { numbered := h.numbered
        window := socketSendBufferSize.toNat_lt
        room := h.room
        waits := fun _ => hnil
        reconnects := fun _ => rfl
        agrees := .inr ⟨hnil, .inl rfl⟩
        sizes := by
          dsimp only
          rw [hnil]
          exact nofun
        acknowledges := acknowledges_start socketSendBufferSize loginScreen _ }
  | handshake =>
    rw [TelnetSession.step] at hstep
    split at hstep
    · next hguard =>
      simp only [Bool.and_eq_true, Bool.not_eq_true'] at hguard
      have hpending := h.waits (.inl hguard.1)
      obtain rfl := Option.some.inj hstep
      rw [sendPending, if_pos hguard.1]
      exact
        { numbered := h.numbered
          window := h.window
          room := h.room
          waits := fun _ => hpending
          reconnects := fun _ => rfl
          agrees := .inr ⟨hpending, .inr (.inl rfl)⟩
          sizes := h.sizes
          acknowledges := ⟨h.acknowledges.known, h.acknowledges.covered, h.acknowledges.size⟩ }
    · cases hstep
  | receiveLine =>
    obtain rfl := Option.some.inj hstep
    exact h.congr (.refl _) ⟨rfl, rfl, id⟩ rfl rfl
  | sendComplete =>
    have hpending := w.connection.pendingFrame_rawSendComplete
    rw [TelnetSession.step] at hstep
    dsimp only at hstep
    rw [foldl_answer_connection w.connection.rawSendComplete.2 w] at hstep
    obtain rfl := Option.some.inj hstep
    rcases w.connection.requests_rawSendComplete with hrequests | hrequests <;> rw [hrequests]
    · exact h.congr (.refl _) hpending rfl rfl
    · exact h.congr (sessionFrame_clientUnblocked _) hpending rfl rfl
  | sendControlTextRaw text =>
    obtain rfl := Option.some.inj hstep
    exact h.congr (.refl _) (w.connection.pendingFrame_sendControlTextRaw text) rfl rfl
  | disconnect =>
    obtain ⟨hsession, -, hgiven, hacknowledged⟩ := frame_answer_disconnected w _
      w.connection.requests_rawDisconnected
    rw [TelnetSession.step] at hstep
    dsimp only at hstep
    rw [foldl_answer_connection w.connection.rawDisconnected.2 w] at hstep
    obtain rfl := Option.some.inj hstep
    exact h.congr hsession w.connection.pendingFrame_rawDisconnected hgiven hacknowledged

theorem invariant_start (socketSendBufferSize : UInt32) (loginScreen : ByteString) :
    (start socketSendBufferSize loginScreen).Invariant := by
  have hpending := SocketClientConnection.pendingFrame_sendControlTextRaw
    { SocketClientConnection.new socketSendBufferSize with clientConnected := true } loginScreen
  have hnil : (start socketSendBufferSize loginScreen).connection.pendingSerialIds = [] :=
    hpending.pendingSerialIds
  exact
    { numbered := numbered_nil
      window := socketSendBufferSize.toNat_lt
      room := Nat.two_pow_pos 32
      waits := fun _ => hnil
      reconnects := fun hreconnect => absurd (hpending.clientDoReconnect hreconnect) nofun
      agrees := .inl (congrArg (List.map Prod.fst) hnil)
      sizes := by
        rw [hnil]
        exact nofun
      acknowledges := acknowledges_start socketSendBufferSize loginScreen _ }

/-- Where it is so after `do_work`, all has been acknowledged. -/
theorem Invariant.acksWhole_of_step (h : w.Invariant) {a : TelnetAction}
    (hstep : w.step a = some w') (hacknowledges : w'.Acknowledges) : w.AcksWhole a := by
  cases a with
  | doWork accepts =>
    intro hconnected hreconnect
    have h₀ : Invariant { w with connection := { w.connection with requestedService := false } } :=
      h.congr (.refl _) ⟨rfl, rfl, id⟩ rfl rfl
    obtain ⟨-, hpending, hgiven, hacknowledged⟩ := frame_doWork hconnected hstep rfl
    rw [acknowledges_congr hpending hgiven hacknowledged] at hacknowledges
    rcases acknowledgeStep_cases
        { w with connection := { w.connection with requestedService := false } } with
      ⟨htrue, -⟩ | ⟨-, hmany, hack⟩ | ⟨-, hmany, -, hack⟩ | ⟨-, hmany, hblocked, -⟩
    · exact absurd (hreconnect.symm.trans htrue) nofun
    · rw [hack] at hacknowledges
      rw [if_pos hmany]
      exact h₀.acksWhole_of_acknowledges
        ⟨hacknowledges.known, hacknowledges.covered, hacknowledges.size⟩
    · rw [hack] at hacknowledges
      rw [if_neg hmany]
      exact fun _ => h₀.acksWhole_of_acknowledges hacknowledges
    · rw [if_neg hmany]
      exact fun hfalse => absurd (hfalse.symm.trans hblocked) nofun
  | _ => trivial

/-- A line for the client, and six lines from it. -/
def oneLine : List TelnetAction :=
  [.queue 1 (.data (.text [])), .send [72, 101, 108, 108, 111]] ++ List.replicate 6 .receiveLine ++
    [.doWork true]

/-- Two lines for the client, and six lines from it, twice. -/
def twoLines : List TelnetAction :=
  [.queue 1 (.data (.text [])), .send [72, 101, 108, 108, 111], .queue 1 (.data (.text [])),
    .send [72, 101, 108, 108, 111]] ++ List.replicate 6 .receiveLine ++ [.doWork true] ++
    List.replicate 6 .receiveLine ++ [.doWork true]

/-- **What is pending is what has not been acknowledged, all through a run, exactly if each time
all of it is acknowledged.** -/
theorem acknowledges_iff {socketSendBufferSize : UInt32} {loginScreen : ByteString}
    {actions : List TelnetAction}
    (h : run step (start socketSendBufferSize loginScreen) actions = some w) :
    (∀ as a bs t t', actions = as ++ a :: bs →
        run step (start socketSendBufferSize loginScreen) as = some t → step t a = some t' →
        t'.Acknowledges) ↔
      Steps step AcksWhole (start socketSendBufferSize loginScreen) actions w :=
  steps_iff_forall_step (P := fun _ _ t' => t'.Acknowledges)
    (fun _ _ _ ht hok hstep => ⟨ht.step hok hstep, (ht.step hok hstep).acknowledges⟩)
    (fun _ _ _ ht hstep => ht.acksWhole_of_step hstep)
    (invariant_start socketSendBufferSize loginScreen) h

/-- A line for the client, and six lines from it: the connection acknowledges what it has been
given. -/
theorem acknowledges_iff_oneLine : ∃ w,
    run step (start 1024 []) oneLine = some w ∧
    ((∀ as a bs t t', oneLine = as ++ a :: bs → run step (start 1024 []) as = some t →
        step t a = some t' → t'.Acknowledges) ↔
      Steps step AcksWhole (start 1024 []) oneLine w) :=
  ⟨_, rfl, acknowledges_iff rfl⟩

/-- **The second line is acknowledged twice**, which the session takes for a fault of the
connection. -/
theorem twoLines_disconnected : ∃ w,
    run step (start 1024 []) twoLines = some w ∧ w.session.needDisconnect = true ∧
      ¬w.Acknowledges := by
  refine ⟨_, rfl, rfl, fun h => ?_⟩
  exact absurd (h.known (2, false) (by decide)) nofun

end TelnetSession

end Mutgos.Socket
