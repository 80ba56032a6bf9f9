import Mathlib.Data.List.TakeDrop
import Mutgos.CommInterface.SessionFrames

/-!
# Reliable delivery to the client

A session with its client.  What has been sent over a line that works arrives in order; what
is on its way when the line breaks is lost.  The client acknowledges what it has received,
and says after a reconnect what it has received last.

## Main results

* `Delivery.reliable_delivery` — **what is sent and what is to be sent are the messages since
  the last acknowledged one, and what the client receives are the messages from the first one
  on.**
-/

namespace Mutgos.CommInterface

open Channels ClientSession RouterEvent List Option

/-! ### What is sent -/

namespace ClientSession

/-- Events have been sent that were first in the queue. -/
structure Sends (s s' : ClientSession) (moved : List RouterEvent) : Prop where
  sentEvents : s'.sentEvents = s.sentEvents ++ moved
  outgoingEvents : s.outgoingEvents = moved ++ s'.outgoingEvents
  queuedEvents : s'.queuedEvents = s.queuedEvents
  outgoingSerAck : s'.outgoingSerAck = s.outgoingSerAck
  waitReconnectResponse : s'.waitReconnectResponse = s.waitReconnectResponse
  needHandleReconnect : s'.needHandleReconnect = s.needHandleReconnect
  clientWindowSize : s'.clientWindowSize = s.clientWindowSize
  needDisconnect : s.needDisconnect = true → s'.needDisconnect = true
  window : s'.sentEvents.length ≤ max s.sentEvents.length s.clientWindowSize

theorem sends_processSendReturnCode (s : ClientSession) (code : SendReturnCode) :
    Sends s (s.processSendReturnCode code).2 [] := by
  cases code with
  | sendNotSupported =>
    exact ⟨by simp [processSendReturnCode, disconnectSoon, requestService],
      rfl, rfl, rfl, rfl, rfl, rfl, fun _ => rfl, Nat.le_max_left _ _⟩
  | _ =>
    exact ⟨by simp [processSendReturnCode], rfl, rfl, rfl, rfl, rfl, rfl, fun h => h,
      Nat.le_max_left _ _⟩

variable {s : ClientSession}

theorem Sends.trans {s' s'' : ClientSession} {moved moved' : List RouterEvent}
    (h : Sends s s' moved) (h' : Sends s' s'' moved') : Sends s s'' (moved ++ moved') where
  sentEvents := by rw [h'.sentEvents, h.sentEvents, append_assoc]
  outgoingEvents := by rw [h.outgoingEvents, h'.outgoingEvents, append_assoc]
  queuedEvents := h'.queuedEvents.trans h.queuedEvents
  outgoingSerAck := h'.outgoingSerAck.trans h.outgoingSerAck
  waitReconnectResponse := h'.waitReconnectResponse.trans h.waitReconnectResponse
  needHandleReconnect := h'.needHandleReconnect.trans h.needHandleReconnect
  clientWindowSize := h'.clientWindowSize.trans h.clientWindowSize
  needDisconnect hneed := h'.needDisconnect (h.needDisconnect hneed)
  window := by
    have hfirst := h.window
    have hsecond := h'.window
    rw [h.clientWindowSize] at hsecond
    omega

/-- The loop sends events until the client is blocked or the window is full. -/
theorem sends_sendOutgoing (answers : List SendReturnCode) (s : ClientSession) :
    ∃ moved, Sends s (sendOutgoing s.outgoingEvents answers s) moved := by
  generalize houtgoing : s.outgoingEvents = outgoing
  induction outgoing generalizing answers s with
  | nil => exact ⟨[], ⟨by simp [sendOutgoing], rfl, rfl, rfl, rfl, rfl, rfl, fun h => h,
      Nat.le_max_left _ _⟩⟩
  | cons event rest ih =>
    rw [sendOutgoing]
    split
    · exact ⟨[], ⟨by simp, rfl, rfl, rfl, rfl, rfl, rfl, fun h => h, Nat.le_max_left _ _⟩⟩
    · next hroom =>
      rw [Bool.or_eq_true, decide_eq_true_eq, not_or, Nat.not_le] at hroom
      have hcode := s.sends_processSendReturnCode (answers.headD .sendOk)
      generalize s.processSendReturnCode (answers.headD .sendOk) = answered at hcode ⊢
      obtain ⟨accepted, s₁⟩ := answered
      cases accepted with
      | false => exact ⟨[], hcode⟩
      | true =>
        have houtgoing₁ : s₁.outgoingEvents = event :: rest :=
          (hcode.outgoingEvents.symm.trans houtgoing)
        have hsent₁ : s₁.sentEvents = s.sentEvents := by
          rw [hcode.sentEvents, append_nil]
        have hfirst : Sends s₁
            { s₁ with outgoingEvents := rest, sentEvents := s₁.sentEvents ++ [event] } [event] := by
          refine ⟨rfl, houtgoing₁, rfl, rfl, rfl, rfl, rfl, fun h => h, ?_⟩
          dsimp only
          rw [length_append, length_singleton, hsent₁, hcode.clientWindowSize]
          omega
        obtain ⟨moved, hrest⟩ := ih answers.tail
          { s₁ with outgoingEvents := rest, sentEvents := s₁.sentEvents ++ [event] } rfl
        exact ⟨_, (hcode.trans hfirst).trans hrest⟩

/-- What `process_pending` does at its end: it begins the handshake, or sends events unless it
waits for the answer. -/
theorem sendPending_cases (s : ClientSession) (answers : List SendReturnCode) :
    (s.needHandleReconnect = true ∧ (s.sendPending answers).sentEvents = s.sentEvents ∧
        (s.sendPending answers).outgoingEvents = s.outgoingEvents ∧
        (s.sendPending answers).queuedEvents = s.queuedEvents ∧
        (s.sendPending answers).outgoingSerAck = s.outgoingSerAck ∧
        (s.sendPending answers).needDisconnect = s.needDisconnect ∧
        (s.sendPending answers).waitReconnectResponse = true ∧
        (s.sendPending answers).needHandleReconnect = false ∧
        (s.sendPending answers).clientWindowSize = s.clientWindowSize) ∨
      (s.needHandleReconnect = false ∧
        ∃ moved, Sends s (s.sendPending answers) moved ∧
          (s.waitReconnectResponse = true → moved = [])) := by
  rw [sendPending]
  by_cases hhandle : s.needHandleReconnect = true
  · rw [if_pos hhandle]
    exact .inl ⟨hhandle, rfl, rfl, rfl, rfl, rfl, rfl, rfl, rfl⟩
  · rw [if_neg hhandle]
    refine .inr ⟨Bool.eq_false_iff.mpr hhandle, ?_⟩
    split
    · next hsend =>
      rw [Bool.and_eq_true, Bool.not_eq_true'] at hsend
      have hwait : s.waitReconnectResponse = true → ∀ moved : List RouterEvent, moved = [] := by
        rw [hsend.1]
        intro h
        cases h
      split
      · have hflag : Sends s { s with needsIncomingSerAckSent := false } [] :=
          ⟨by simp, rfl, rfl, rfl, rfl, rfl, rfl, fun h => h, Nat.le_max_left _ _⟩
        have hcode := sends_processSendReturnCode { s with needsIncomingSerAckSent := false }
          (answers.headD .sendOk)
        obtain ⟨moved, hloop⟩ := sends_sendOutgoing answers.tail
          (processSendReturnCode { s with needsIncomingSerAckSent := false }
            (answers.headD .sendOk)).2
        exact ⟨_, (hflag.trans hcode).trans hloop, fun h => hwait h _⟩
      · obtain ⟨moved, hloop⟩ := sends_sendOutgoing answers s
        exact ⟨moved, hloop, fun h => hwait h _⟩
    · exact ⟨[], ⟨by simp, rfl, rfl, rfl, rfl, rfl, rfl, fun h => h, Nat.le_max_left _ _⟩,
        fun _ => rfl⟩

/-! ### What is acknowledged -/

/-- Where no ID repeats, the events up to the one with an ID are dropped. -/
theorem dropThrough_eq_drop {events : List RouterEvent}
    (hids : (events.map serialId).Nodup) {n : ℕ} {event : RouterEvent}
    (hevent : events[n]? = some event) :
    dropThrough event.serialId events = events.drop (n + 1) := by
  induction events generalizing n with
  | nil => simp at hevent
  | cons first rest ih =>
    rw [map_cons, nodup_cons] at hids
    cases n with
    | zero =>
      rw [getElem?_cons_zero, Option.some.injEq] at hevent
      subst hevent
      simp [dropThrough]
    | succ n =>
      rw [getElem?_cons_succ] at hevent
      have hne : first.serialId ≠ event.serialId := by
        intro heq
        exact hids.1 (heq ▸ List.mem_map_of_mem (mem_of_getElem? hevent))
      rw [dropThrough, dropWhile_cons_of_pos (by simpa using hne), drop_succ_cons]
      exact ih hids.2 hevent

/-- An event that has been sent is acknowledged, with those before it. -/
theorem clientDataAcknowledge_eq (hids : (s.sentEvents.map serialId).Nodup) {n : ℕ}
    {event : RouterEvent} (hevent : s.sentEvents[n]? = some event) (hzero : event.serialId ≠ 0) :
    (s.clientDataAcknowledge event.serialId).sentEvents = s.sentEvents.drop (n + 1) ∧
      (s.clientDataAcknowledge event.serialId).outgoingEvents = s.outgoingEvents ∧
      (s.clientDataAcknowledge event.serialId).queuedEvents = s.queuedEvents ∧
      (s.clientDataAcknowledge event.serialId).outgoingSerAck = event.serialId ∧
      (s.clientDataAcknowledge event.serialId).needDisconnect = s.needDisconnect ∧
      (s.clientDataAcknowledge event.serialId).waitReconnectResponse = s.waitReconnectResponse ∧
      (s.clientDataAcknowledge event.serialId).needHandleReconnect = s.needHandleReconnect := by
  have hany : s.sentEvents.any (fun e => e.serialId = event.serialId) = true :=
    List.any_eq_true.mpr ⟨event, mem_of_getElem? hevent, by simp⟩
  rw [clientDataAcknowledge, if_neg hzero, if_pos hany]
  dsimp only
  rw [dropThrough_eq_drop hids hevent]
  split <;> exact ⟨rfl, rfl, rfl, rfl, rfl, rfl, rfl⟩

/-- The client is disconnected for anything else. -/
theorem clientDataAcknowledge_eq_disconnectSoon {serId : MessageSerialId}
    (hids : serId ∉ s.sentEvents.map serialId) :
    s.clientDataAcknowledge serId = s.disconnectSoon := by
  have hany : s.sentEvents.any (fun e => e.serialId = serId) = false := by
    rw [List.any_eq_false]
    intro event hevent heq
    exact hids (List.mem_map.mpr ⟨event, hevent, of_decide_eq_true heq⟩)
  rw [clientDataAcknowledge, hany]
  split <;> rfl

end ClientSession

/-! ### The line -/

/-- A session, its client and the line between them. -/
structure Delivery where
  world : SessionWorld
  /-- How many events the client has acknowledged. -/
  acknowledged : ℕ
  /-- What the client has received. -/
  received : List RouterEvent
  /-- What is on its way to the client. -/
  inFlight : List RouterEvent
  /-- The line works. -/
  connected : Bool

/-- What happens to a session, its client or the line. -/
inductive DeliveryCall where
  | call (call : SessionCall)
  /-- A new line, and `set_client_connection`. -/
  | connect (windowSize : ℕ)
  /-- Something arrives. -/
  | deliver
  /-- The line breaks. -/
  | disconnect
  /-- The client acknowledges the first events, among them what it had acknowledged before. -/
  | acknowledge (events : ℕ)
  /-- The client says what it has received last, after a reconnect. -/
  | acknowledgeReconnect

/-- The calls that the client and the line are behind. -/
def SessionCall.isOfClient : SessionCall → Bool
  | .setClientConnection _ => true
  | .clientDataAcknowledge _ => true
  | .clientDataAcknowledgeReconnect _ => true
  | _ => false

namespace Delivery

/-- The session. -/
abbrev session (d : Delivery) : ClientSession := d.world.session

/-- The serial ID of what the client has received last, or 0. -/
def lastReceivedId (d : Delivery) : MessageSerialId :=
  (d.received.getLast?.map serialId).getD 0

/-- What is sent gets on its way if the line works. -/
def step (d : Delivery) : DeliveryCall → Option Delivery
  | .call call =>
    if call.isOfClient then none
    else
      (d.world.step call).map fun w =>
        { d with
          world := w
          inFlight :=
            if d.connected then
              d.inFlight ++ w.session.sentEvents.drop d.session.sentEvents.length
            else d.inFlight }
  | .connect windowSize =>
    (d.world.step (.setClientConnection windowSize)).map fun w =>
      { d with world := w, inFlight := [], connected := true }
  | .deliver =>
    match d.inFlight with
    | [] => none
    | event :: rest => some { d with received := d.received ++ [event], inFlight := rest }
  | .disconnect => some { d with inFlight := [], connected := false }
  | .acknowledge events =>
    if 0 < events ∧ d.acknowledged ≤ events then
      d.received[events - 1]?.bind fun event =>
        (d.world.step (.clientDataAcknowledge event.serialId)).map fun w =>
          { d with world := w, acknowledged := events }
    else none
  | .acknowledgeReconnect =>
    (d.world.step (.clientDataAcknowledgeReconnect d.lastReceivedId)).map fun w =>
      { d with
        world := w
        acknowledged :=
          if d.session.waitReconnectResponse then d.received.length else d.acknowledged }

/-- A new session, and a client that has received nothing. -/
structure Starts (d : Delivery) : Prop where
  world : d.world.Starts
  acknowledged : d.acknowledged = 0
  received : d.received = []
  inFlight : d.inFlight = []

/-- Serial IDs do not repeat from the last acknowledged message on. -/
def SerialIdsDistinct (d : Delivery) (_call : DeliveryCall) : Prop :=
  ((d.session.queuedEvents.drop (d.acknowledged - 1)).map serialId).Nodup

/-- The events that are sent and to be sent are those that are not acknowledged, and the client
has received the first events, of which some may be on their way or lost. -/
structure Invariant (d : Delivery) : Prop where
  kept : d.session.sentEvents ++ d.session.outgoingEvents =
    d.session.queuedEvents.drop d.acknowledged
  arrived : d.received ++ d.inFlight <+:
    d.session.queuedEvents.take (d.acknowledged + d.session.sentEvents.length)
  acknowledged : d.acknowledged ≤ d.received.length
  outgoingSerAck : d.session.outgoingSerAck =
    if d.acknowledged = 0 then 0
    else (d.session.queuedEvents[d.acknowledged - 1]?.map serialId).getD 0
  serialIds : ∀ event ∈ d.session.queuedEvents, event.serialId ≠ 0
  idle : d.session.waitReconnectResponse = true ∨ d.session.needHandleReconnect = true →
    d.inFlight = []
  /-- Nothing is lost on a line that works. -/
  complete : d.session.waitReconnectResponse = false → d.session.needDisconnect = false →
    d.connected = true → d.received ++ d.inFlight =
      d.session.queuedEvents.take (d.acknowledged + d.session.sentEvents.length)

variable {d : Delivery} {n : ℕ} {w : SessionWorld}

section

variable (h : d.Invariant)
include h

theorem Invariant.length_received_le :
    d.received.length ≤ d.acknowledged + d.session.sentEvents.length := by
  have hle := h.arrived.length_le
  rw [length_append, length_take] at hle
  omega

theorem Invariant.length_received_le_queued :
    d.received.length ≤ d.session.queuedEvents.length := by
  have hle := h.arrived.length_le
  rw [length_append, length_take] at hle
  omega

/-- How many events there are. -/
theorem Invariant.length_eq :
    d.acknowledged + d.session.sentEvents.length + d.session.outgoingEvents.length =
      d.session.queuedEvents.length := by
  have hlength := congrArg List.length h.kept
  have hacknowledged := h.acknowledged
  have hreceived := h.length_received_le_queued
  rw [length_append, length_drop] at hlength
  omega

/-- The client has received the first events. -/
theorem Invariant.received_prefix : d.received <+: d.session.queuedEvents :=
  ((prefix_append _ _).trans h.arrived).trans (List.take_prefix _ _)

/-- What the client has received is what has been queued in its place. -/
theorem Invariant.getElem?_received (hn : n < d.received.length) :
    d.received[n]? = d.session.queuedEvents[n]? := by
  obtain ⟨rest, heq⟩ := h.received_prefix
  rw [← heq, getElem?_append_left hn]

theorem Invariant.getElem?_sentEvents (hn : n < d.session.sentEvents.length) :
    d.session.sentEvents[n]? = d.session.queuedEvents[d.acknowledged + n]? := by
  rw [← getElem?_drop, ← h.kept, getElem?_append_left hn]

end

theorem invariant_of_starts (h : d.Starts) : d.Invariant := by
  obtain ⟨windowSize, hsession⟩ := h.world.session
  have hqueued : d.session.queuedEvents = [] := by rw [session, hsession]; rfl
  have hsent : d.session.sentEvents = [] := by rw [session, hsession]; rfl
  have houtgoing : d.session.outgoingEvents = [] := by rw [session, hsession]; rfl
  refine ⟨?_, ?_, ?_, ?_, ?_, fun _ => h.inFlight, fun _ _ _ => ?_⟩
  · rw [hqueued, hsent, houtgoing, drop_nil]
    rfl
  · rw [h.received, h.inFlight]
    exact List.nil_prefix
  · rw [h.acknowledged]
    exact Nat.zero_le _
  · rw [if_pos h.acknowledged, session, hsession]
    rfl
  · rw [hqueued]
    intro event hevent
    cases hevent
  · rw [h.received, h.inFlight, hqueued, take_nil]
    rfl

/-! ### Calls of the session -/

/-- New events come after those that have been sent. -/
theorem Invariant.take_queues (h : d.Invariant) {s : ClientSession} (hqueues : Queues d.session s) :
    s.queuedEvents.take (d.acknowledged + s.sentEvents.length) =
      d.session.queuedEvents.take (d.acknowledged + d.session.sentEvents.length) := by
  obtain ⟨news, -, hqueued, -⟩ := hqueues.queued
  have hlength := h.length_eq
  rw [hqueued, hqueues.sentEvents, take_append_of_le_length (by omega)]

/-- Events are queued. -/
theorem Invariant.queues (h : d.Invariant) (hqueues : Queues d.session w.session) :
    Invariant { d with world := w } := by
  obtain ⟨news, houtgoing, hqueued, hids⟩ := hqueues.queued
  have hlength := h.length_eq
  have htake := h.take_queues hqueues
  refine ⟨?_, ?_, h.acknowledged, ?_, ?_, fun hwait => h.idle ?_, fun hwait hneed hline => ?_⟩
  · change w.session.sentEvents ++ w.session.outgoingEvents =
      w.session.queuedEvents.drop d.acknowledged
    rw [hqueues.sentEvents, houtgoing, hqueued, ← append_assoc, h.kept,
      drop_append_of_le_length (by omega)]
  · change _ <+: w.session.queuedEvents.take (d.acknowledged + w.session.sentEvents.length)
    rw [htake]
    exact h.arrived
  · change w.session.outgoingSerAck = if d.acknowledged = 0 then 0
      else (w.session.queuedEvents[d.acknowledged - 1]?.map serialId).getD 0
    rw [hqueues.outgoingSerAck, h.outgoingSerAck, hqueued]
    split
    · rfl
    · rw [getElem?_append_left (by omega)]
  · intro event hevent
    change event ∈ w.session.queuedEvents at hevent
    rw [hqueued] at hevent
    rcases mem_append.mp hevent with hevent | hevent
    · exact h.serialIds event hevent
    · exact hids event hevent
  · rwa [session, ← hqueues.waitReconnectResponse, ← hqueues.needHandleReconnect]
  · change _ = w.session.queuedEvents.take (d.acknowledged + w.session.sentEvents.length)
    rw [htake]
    refine h.complete (hqueues.waitReconnectResponse ▸ hwait) ?_ hline
    by_contra hno
    have hneed' := hqueues.needDisconnect (Bool.not_eq_false _ ▸ hno)
    rw [hneed] at hneed'
    cases hneed'

/-- Events are sent, over a line that has lost nothing if it works. -/
theorem Invariant.sends (h : d.Invariant) {moved : List RouterEvent}
    (hsends : Sends d.session w.session moved)
    (hwait : d.session.waitReconnectResponse = true ∨ d.session.needHandleReconnect = true →
      moved = [])
    (hcomplete : d.session.waitReconnectResponse = false → d.connected = true →
      d.received ++ d.inFlight =
        d.session.queuedEvents.take (d.acknowledged + d.session.sentEvents.length)) :
    Invariant { d with
      world := w
      inFlight := if d.connected then d.inFlight ++ moved else d.inFlight } := by
  have hrest : d.session.queuedEvents.drop (d.acknowledged + d.session.sentEvents.length) =
      moved ++ w.session.outgoingEvents := by
    rw [← drop_drop, ← h.kept, drop_left, hsends.outgoingEvents]
  have htake : w.session.queuedEvents.take (d.acknowledged + w.session.sentEvents.length) =
      d.session.queuedEvents.take (d.acknowledged + d.session.sentEvents.length) ++ moved := by
    rw [hsends.queuedEvents, hsends.sentEvents, length_append, ← Nat.add_assoc,
      take_add, hrest, take_left]
  refine ⟨?_, ?_, h.acknowledged, ?_, ?_, fun hidle => ?_, fun hwait' hneed hline => ?_⟩
  · change w.session.sentEvents ++ w.session.outgoingEvents =
      w.session.queuedEvents.drop d.acknowledged
    rw [hsends.sentEvents, append_assoc, ← hsends.outgoingEvents, h.kept,
      hsends.queuedEvents]
  · change _ <+: w.session.queuedEvents.take (d.acknowledged + w.session.sentEvents.length)
    rw [htake]
    dsimp only
    cases hline : d.connected with
    | false => exact h.arrived.trans (prefix_append _ _)
    | true =>
      rw [if_pos rfl, ← append_assoc]
      cases hwaits : d.session.waitReconnectResponse with
      | false => rw [hcomplete hwaits hline]
      | true =>
        rw [hwait (.inl hwaits), append_nil, append_nil]
        exact h.arrived
  · change w.session.outgoingSerAck = if d.acknowledged = 0 then 0
      else (w.session.queuedEvents[d.acknowledged - 1]?.map serialId).getD 0
    rw [hsends.outgoingSerAck, hsends.queuedEvents, h.outgoingSerAck]
  · change ∀ event ∈ w.session.queuedEvents, event.serialId ≠ 0
    rw [hsends.queuedEvents]
    exact h.serialIds
  · have hidle' : d.session.waitReconnectResponse = true ∨ d.session.needHandleReconnect = true := by
      rwa [← hsends.waitReconnectResponse, ← hsends.needHandleReconnect]
    dsimp only
    rw [h.idle hidle', hwait hidle', append_nil, ite_self]
  · change _ = w.session.queuedEvents.take (d.acknowledged + w.session.sentEvents.length)
    have hwaits : d.session.waitReconnectResponse = false := hsends.waitReconnectResponse ▸ hwait'
    have hline : d.connected = true := hline
    rw [htake]
    dsimp only
    rw [if_pos hline, ← append_assoc, hcomplete hwaits hline]

/-- `process_pending` queues events, and then begins the handshake or sends events. -/
theorem Invariant.processPending {d : Delivery} (h : d.Invariant)
    (answers : List SendReturnCode) (reactions : List (List ChannelCall)) :
    Invariant { d with
      world := d.world.processPending answers reactions
      inFlight :=
        if d.connected then
          d.inFlight ++ (d.world.processPending answers reactions).session.sentEvents.drop
            d.session.sentEvents.length
        else d.inFlight } := by
  have hserviced : Queues d.session { d.session with hasRequestedService := false } :=
    queues_of_eq rfl rfl rfl rfl rfl rfl rfl fun h => h
  rw [SessionWorld.processPending]
  dsimp only
  split
  · -- the client is only disconnected
    have hqueues : Queues d.session
        { d.session with hasRequestedService := false, clientIsConnected := false } :=
      queues_of_eq rfl rfl rfl rfl rfl rfl rfl fun h => h
    rw [drop_eq_nil_of_le (Nat.le_refl d.session.sentEvents.length), append_nil,
      ite_self]
    exact h.queues (w := { d.world with
      session := { d.session with hasRequestedService := false, clientIsConnected := false } })
      hqueues
  · next hneed =>
    have hchannels := hserviced.trans (sessionRelation_queues.processChannels
      { d.world with session := { d.world.session with hasRequestedService := false } } reactions)
    have hqueued := h.queues hchannels
    generalize SessionWorld.processPendingUnblockedChannels _ reactions = w at hchannels hqueued ⊢
    have hcomplete : d.session.waitReconnectResponse = false → d.connected = true →
        d.received ++ d.inFlight =
          w.session.queuedEvents.take (d.acknowledged + w.session.sentEvents.length) := by
      intro hwait hline
      rw [h.complete hwait (Bool.eq_false_iff.mpr hneed) hline, h.take_queues hchannels]
    rcases w.session.sendPending_cases answers with
      ⟨hhandle, hsent, houtgoing, hqueuedEvents, hack, -, hwait, -, -⟩ |
      ⟨hhandle, moved, hsends, hwait⟩
    · rw [hsent, hchannels.sentEvents, drop_eq_nil_of_le (Nat.le_refl _), append_nil,
        ite_self]
      refine ⟨?_, ?_, h.acknowledged, ?_, ?_, fun _ => hqueued.idle (.inr hhandle), fun hno => ?_⟩
      · change (w.session.sendPending answers).sentEvents ++
            (w.session.sendPending answers).outgoingEvents =
          (w.session.sendPending answers).queuedEvents.drop d.acknowledged
        rw [hsent, houtgoing, hqueuedEvents]
        exact hqueued.kept
      · change _ <+: (w.session.sendPending answers).queuedEvents.take
          (d.acknowledged + (w.session.sendPending answers).sentEvents.length)
        rw [hsent, hqueuedEvents]
        exact hqueued.arrived
      · change (w.session.sendPending answers).outgoingSerAck = if d.acknowledged = 0 then 0
          else ((w.session.sendPending answers).queuedEvents[d.acknowledged - 1]?.map
            serialId).getD 0
        rw [hack, hqueuedEvents]
        exact hqueued.outgoingSerAck
      · change ∀ event ∈ (w.session.sendPending answers).queuedEvents, event.serialId ≠ 0
        rw [hqueuedEvents]
        exact hqueued.serialIds
      · change (w.session.sendPending answers).waitReconnectResponse = false at hno
        rw [hwait] at hno
        cases hno
    · rw [hsends.sentEvents, hchannels.sentEvents, drop_left]
      refine hqueued.sends (w := { w with session := w.session.sendPending answers }) hsends ?_ ?_
      · rintro (hidle | hidle)
        · exact hwait hidle
        · rw [show w.session.needHandleReconnect = true from hidle] at hhandle
          cases hhandle
      · intro hidle hline
        exact hcomplete (hchannels.waitReconnectResponse ▸ hidle) hline

theorem queues_clientUnblocked (s : ClientSession) : Queues s s.clientUnblocked := by
  have hunblock : Queues s { s with clientIsBlocked := false } :=
    queues_of_eq rfl rfl rfl rfl rfl rfl rfl fun h => h
  rw [clientUnblocked]
  dsimp only
  split
  · exact hunblock.trans (queues_requestService _)
  · exact hunblock

/-- What the client is not behind only queues events, except for `process_pending`. -/
theorem queues_step {w' : SessionWorld} {call : SessionCall} (hclient : call.isOfClient = false)
    (hpending : ∀ answers reactions, call ≠ .processPending answers reactions)
    (hstep : w.step call = some w') : Queues w.session w'.session := by
  rw [SessionWorld.step.eq_def, ite_none_left_eq_some] at hstep
  obtain ⟨-, hstep⟩ := hstep
  cases call with
  | setClientConnection windowSize => cases hclient
  | clientDataAcknowledge serId => cases hclient
  | clientDataAcknowledgeReconnect serId => cases hclient
  | processPending answers reactions => exact absurd rfl (hpending answers reactions)
  | channelAdded channel toClient => exact queues_channelAdded hstep
  | clientDisconnected =>
    cases hstep
    exact queues_of_eq rfl rfl rfl rfl rfl rfl rfl fun h => h
  | requestDisconnection =>
    cases hstep
    exact queues_disconnectSoon _
  | clientUnblocked =>
    cases hstep
    exact queues_clientUnblocked _
  | clientData id serId data reaction =>
    cases hstep
    exact queues_clientData _ _ _ _ _
  | clientRequestChannelClose id =>
    cases hstep
    rw [SessionWorld.clientRequestChannelClose]
    split
    · exact .refl _
    · exact sessionRelation_queues.callChannel _ _ _
  | channelData channel data =>
    cases hstep
    exact queues_channelData _ _ _
  | channelFlow channel status =>
    cases hstep
    exact queues_channelFlow _ _ _
  | callChannel channel call =>
    cases hstep
    exact sessionRelation_queues.callChannel _ _ _

/-- What the client is not behind. -/
theorem Invariant.call {d : Delivery} (h : d.Invariant) {call : SessionCall}
    {w : SessionWorld} (hclient : call.isOfClient = false) (hstep : d.world.step call = some w) :
    Invariant { d with
      world := w
      inFlight :=
        if d.connected then
          d.inFlight ++ w.session.sentEvents.drop d.session.sentEvents.length
        else d.inFlight } := by
  by_cases hpending : ∃ answers reactions, call = .processPending answers reactions
  · obtain ⟨answers, reactions, rfl⟩ := hpending
    rw [SessionWorld.step.eq_def, ite_none_left_eq_some, Option.some.injEq] at hstep
    obtain ⟨-, rfl⟩ := hstep
    exact h.processPending answers reactions
  · have hqueues := queues_step hclient
      (fun answers reactions heq => hpending ⟨answers, reactions, heq⟩) hstep
    rw [hqueues.sentEvents, drop_eq_nil_of_le (Nat.le_refl _), append_nil, ite_self]
    exact h.queues hqueues

/-! ### Lines and acknowledgements -/

theorem Invariant.connect (h : d.Invariant) (windowSize : ℕ) :
    Invariant { d with
      world := d.world.ofSession (·.setClientConnection windowSize)
      inFlight := []
      connected := true } where
  kept := h.kept
  arrived := by
    rw [append_nil]
    exact (prefix_append _ _).trans h.arrived
  acknowledged := h.acknowledged
  outgoingSerAck := h.outgoingSerAck
  serialIds := h.serialIds
  idle _ := rfl
  complete hwait := by cases hwait

theorem Invariant.disconnect (h : d.Invariant) :
    Invariant { d with inFlight := [], connected := false } where
  kept := h.kept
  arrived := by
    rw [append_nil]
    exact (prefix_append _ _).trans h.arrived
  acknowledged := h.acknowledged
  outgoingSerAck := h.outgoingSerAck
  serialIds := h.serialIds
  idle _ := rfl
  complete _ _ hline := by cases hline

theorem Invariant.deliver (h : d.Invariant) {event : RouterEvent} {rest : List RouterEvent}
    (hflight : d.inFlight = event :: rest) :
    Invariant { d with received := d.received ++ [event], inFlight := rest } := by
  have happend : (d.received ++ [event]) ++ rest = d.received ++ d.inFlight := by
    rw [hflight, append_assoc, singleton_append]
  refine ⟨h.kept, ?_, ?_, h.outgoingSerAck, h.serialIds, fun hidle => ?_,
    fun hwait hneed hline => ?_⟩
  · change (d.received ++ [event]) ++ rest <+: _
    rw [happend]
    exact h.arrived
  · have hle := h.acknowledged
    change d.acknowledged ≤ (d.received ++ [event]).length
    rw [length_append]
    omega
  · have hempty := h.idle hidle
    rw [hflight] at hempty
    cases hempty
  · change (d.received ++ [event]) ++ rest = _
    rw [happend]
    exact h.complete hwait hneed hline

/-- What is left when more has been acknowledged. -/
theorem Invariant.drop_kept (h : d.Invariant) (hle : d.acknowledged ≤ n)
    (hn : n ≤ d.received.length) :
    d.session.sentEvents.drop (n - d.acknowledged) ++ d.session.outgoingEvents =
      d.session.queuedEvents.drop n := by
  have hreceived := h.length_received_le
  rw [← drop_append_of_le_length (by omega), h.kept, drop_drop,
    Nat.add_sub_cancel' hle]

section

variable (h : d.Invariant)
  (hids : ((d.session.queuedEvents.drop (d.acknowledged - 1)).map serialId).Nodup)
include h hids

/-- No two of the messages that are sent have one ID, nor has one the ID of the last that has
been acknowledged. -/
theorem Invariant.nodup_sentEvents : (d.session.sentEvents.map serialId).Nodup := by
  have hdrop : d.session.queuedEvents.drop d.acknowledged <:+
      d.session.queuedEvents.drop (d.acknowledged - 1) :=
    drop_suffix_drop_left _ (Nat.sub_le _ _)
  have hsub : d.session.sentEvents.Sublist (d.session.queuedEvents.drop (d.acknowledged - 1)) :=
    (h.kept ▸ sublist_append_left _ _).trans hdrop.sublist
  exact (hsub.map serialId).nodup hids

/-- What has come last from the client is a message that is sent, or the last one that has been
acknowledged. -/
theorem Invariant.serialId_acknowledged {event : RouterEvent} (hle : d.acknowledged ≤ n + 1)
    (hevent : d.session.queuedEvents[n]? = some event)
    (hack : event.serialId = d.session.outgoingSerAck) : d.acknowledged = n + 1 := by
  have hpos : d.acknowledged ≠ 0 := by
    intro hzero
    rw [h.outgoingSerAck, if_pos hzero] at hack
    exact h.serialIds event (mem_of_getElem? hevent) hack
  have hlength := (List.getElem?_eq_some_iff.mp hevent).1
  rw [h.outgoingSerAck, if_neg hpos,
    getElem?_eq_getElem (by omega : d.acknowledged - 1 < d.session.queuedEvents.length)] at hack
  have hfirst : ((d.session.queuedEvents.drop (d.acknowledged - 1)).map
      serialId)[0]? = some event.serialId := by
    rw [getElem?_map, getElem?_drop, Nat.add_zero, getElem?_eq_getElem (by omega),
      hack]
    rfl
  have hlast : ((d.session.queuedEvents.drop (d.acknowledged - 1)).map
      serialId)[n + 1 - d.acknowledged]? = some event.serialId := by
    rw [getElem?_map, getElem?_drop,
      show d.acknowledged - 1 + (n + 1 - d.acknowledged) = n by omega, hevent]
    rfl
  have hpositive : 0 < ((d.session.queuedEvents.drop (d.acknowledged - 1)).map
      serialId).length := by
    rw [length_map, length_drop]
    omega
  have hsame := (getElem?_inj hpositive hids).mp (hfirst.trans hlast.symm)
  omega

/-- The client acknowledges events. -/
theorem Invariant.acknowledge {event : RouterEvent} (hle : d.acknowledged ≤ n + 1)
    (hevent : d.received[n]? = some event) :
    Invariant { d with
      world := d.world.ofSession (·.clientDataAcknowledge event.serialId)
      acknowledged := n + 1 } := by
  have hn : n < d.received.length := (List.getElem?_eq_some_iff.mp hevent).1
  have hqueued : d.session.queuedEvents[n]? = some event := by
    rw [← h.getElem?_received hn, hevent]
  have hzero : event.serialId ≠ 0 := h.serialIds event (mem_of_getElem? hqueued)
  rcases Nat.eq_or_lt_of_le hle with heq | hlt
  · -- it has been acknowledged before
    have hnot : event.serialId ∉ d.session.sentEvents.map serialId := by
      intro hmem
      have hsplit : d.session.queuedEvents.drop (d.acknowledged - 1) =
          event :: d.session.queuedEvents.drop d.acknowledged := by
        rw [heq, Nat.add_sub_cancel,
          drop_eq_getElem_cons (List.getElem?_eq_some_iff.mp hqueued).1,
          (List.getElem?_eq_some_iff.mp hqueued).2]
      rw [hsplit, map_cons, nodup_cons, ← h.kept, map_append] at hids
      exact hids.1 (mem_append_left _ hmem)
    have hdisconnect := h.queues (w := d.world.ofSession (·.clientDataAcknowledge event.serialId))
      (by
        change Queues d.session (d.session.clientDataAcknowledge event.serialId)
        rw [clientDataAcknowledge_eq_disconnectSoon hnot]
        exact queues_disconnectSoon _)
    rw [← heq]
    exact hdisconnect
  · have hreceived := h.length_received_le
    have hsent : d.session.sentEvents[n - d.acknowledged]? = some event := by
      rw [h.getElem?_sentEvents (by omega), Nat.add_sub_cancel' (by omega), hqueued]
    obtain ⟨hsent', houtgoing, hqueued', hack, hneed, hwait, hhandle⟩ :=
      clientDataAcknowledge_eq (h.nodup_sentEvents hids) hsent hzero
    have hcount : n + 1 + (d.session.clientDataAcknowledge event.serialId).sentEvents.length =
        d.acknowledged + d.session.sentEvents.length := by
      rw [hsent', length_drop]
      omega
    refine ⟨?_, ?_, hn, ?_, ?_, fun hidle => h.idle ?_, fun hno hnone hline => ?_⟩
    · change (d.session.clientDataAcknowledge event.serialId).sentEvents ++
          (d.session.clientDataAcknowledge event.serialId).outgoingEvents =
        (d.session.clientDataAcknowledge event.serialId).queuedEvents.drop (n + 1)
      rw [hsent', houtgoing, hqueued', ← h.drop_kept hle hn]
      congr 2
      omega
    · change _ <+: (d.session.clientDataAcknowledge event.serialId).queuedEvents.take
        (n + 1 + (d.session.clientDataAcknowledge event.serialId).sentEvents.length)
      rw [hcount, hqueued']
      exact h.arrived
    · change (d.session.clientDataAcknowledge event.serialId).outgoingSerAck = _
      change _ = ((d.session.clientDataAcknowledge event.serialId).queuedEvents[n]?.map
        serialId).getD 0
      rw [hack, hqueued', hqueued]
      rfl
    · change ∀ event' ∈ (d.session.clientDataAcknowledge event.serialId).queuedEvents, _
      rw [hqueued']
      exact h.serialIds
    · rw [← hwait, ← hhandle]
      exact hidle
    · change _ = (d.session.clientDataAcknowledge event.serialId).queuedEvents.take
        (n + 1 + (d.session.clientDataAcknowledge event.serialId).sentEvents.length)
      rw [hcount, hqueued']
      exact h.complete (hwait ▸ hno) (hneed ▸ hnone) hline

end

/-- The client has said what it has received last. -/
theorem Invariant.acknowledgeReconnect_eq {d : Delivery} (h : d.Invariant)
    (hids : ((d.session.queuedEvents.drop (d.acknowledged - 1)).map serialId).Nodup)
    (hwait : d.session.waitReconnectResponse = true) :
    ((d.session.acknowledgeReconnect d.lastReceivedId).sentEvents =
        d.session.sentEvents.drop (d.received.length - d.acknowledged) ∧
      (d.session.acknowledgeReconnect d.lastReceivedId).outgoingEvents =
        d.session.outgoingEvents ∧
      (d.session.acknowledgeReconnect d.lastReceivedId).queuedEvents = d.session.queuedEvents) ∧
    (d.session.acknowledgeReconnect d.lastReceivedId).outgoingSerAck =
      if d.received.length = 0 then 0
      else (d.session.queuedEvents[d.received.length - 1]?.map serialId).getD 0 := by
  have hreceived := h.length_received_le
  rw [acknowledgeReconnect, hwait, if_neg (by simp)]
  dsimp only
  cases hlast : d.received.getLast? with
  | none =>
    rw [getLast?_eq_none_iff] at hlast
    rw [lastReceivedId, hlast, getLast?_nil]
    exact ⟨⟨by simp, rfl, rfl⟩, rfl⟩
  | some event =>
    have hid : d.lastReceivedId = event.serialId := by
      rw [lastReceivedId, hlast]
      rfl
    rw [getLast?_eq_getElem?] at hlast
    have hpos := (List.getElem?_eq_some_iff.mp hlast).1
    have hqueued : d.session.queuedEvents[d.received.length - 1]? = some event := by
      rw [← h.getElem?_received hpos, hlast]
    have hzero : event.serialId ≠ 0 := h.serialIds event (mem_of_getElem? hqueued)
    have hacknowledged := h.acknowledged
    rw [hid, if_neg hzero, hqueued, if_neg (by omega : d.received.length ≠ 0)]
    by_cases hack : event.serialId = d.session.outgoingSerAck
    · have hall := h.serialId_acknowledged hids (by omega) hqueued hack
      rw [if_neg (not_not.mpr hack)]
      refine ⟨⟨?_, rfl, rfl⟩, hack.symm⟩
      rw [hall, show d.received.length - (d.received.length - 1 + 1) = 0 by omega, drop_zero]
    · have hlt : d.acknowledged ≤ d.received.length - 1 := by
        by_contra hnot
        refine hack ?_
        rw [h.outgoingSerAck, if_neg (by omega), show d.acknowledged = d.received.length by omega,
          hqueued]
        rfl
      have hsent : d.session.sentEvents[d.received.length - 1 - d.acknowledged]? = some event := by
        rw [h.getElem?_sentEvents (by omega), Nat.add_sub_cancel' hlt, hqueued]
      obtain ⟨hsent', houtgoing, hqueued', hack', -⟩ :=
        clientDataAcknowledge_eq (s := { d.session with waitReconnectResponse := false })
          (h.nodup_sentEvents hids) hsent hzero
      rw [if_pos hack]
      refine ⟨⟨?_, houtgoing, hqueued'⟩, hack'⟩
      rw [hsent']
      congr 1
      omega

/-- After a reconnect everything that the client has not received is to be sent again. -/
theorem Invariant.acknowledgeReconnect (h : d.Invariant)
    (hids : ((d.session.queuedEvents.drop (d.acknowledged - 1)).map serialId).Nodup) :
    Invariant { d with
      world := d.world.ofSession (·.clientDataAcknowledgeReconnect d.lastReceivedId)
      acknowledged :=
        if d.session.waitReconnectResponse then d.received.length else d.acknowledged } := by
  cases hwait : d.session.waitReconnectResponse with
  | false =>
    refine h.queues (w := d.world.ofSession (·.clientDataAcknowledgeReconnect d.lastReceivedId)) ?_
    change Queues d.session (d.session.clientDataAcknowledgeReconnect d.lastReceivedId)
    have hrefused : d.session.acknowledgeReconnect d.lastReceivedId =
        { d.session with needDisconnect := true } := if_pos (by rw [hwait]; rfl)
    rw [clientDataAcknowledgeReconnect, hrefused]
    exact queues_of_eq rfl rfl rfl rfl rfl rfl rfl fun _ => rfl
  | true =>
    obtain ⟨⟨hsent, houtgoing, hqueued⟩, hack⟩ := h.acknowledgeReconnect_eq hids hwait
    have hflight := h.idle (.inl hwait)
    have hkept := h.drop_kept h.acknowledged (Nat.le_refl _)
    have hreceived := h.length_received_le
    have hbegins := h.received_prefix
    rw [if_pos rfl, SessionWorld.ofSession, ← session, clientDataAcknowledgeReconnect]
    generalize d.session.acknowledgeReconnect d.lastReceivedId = s at hsent houtgoing hqueued hack ⊢
    split
    · refine ⟨?_, ?_, Nat.le_refl _, ?_, ?_, fun _ => hflight, fun _ _ _ => ?_⟩
      · change [] ++ (s.sentEvents ++ s.outgoingEvents) = s.queuedEvents.drop d.received.length
        rw [nil_append, hsent, houtgoing, hqueued, hkept]
      · change d.received ++ d.inFlight <+: s.queuedEvents.take (d.received.length + 0)
        rw [hflight, append_nil, hqueued, Nat.add_zero, ← prefix_iff_eq_take.mp hbegins]
      · change s.outgoingSerAck = if d.received.length = 0 then 0
          else (s.queuedEvents[d.received.length - 1]?.map serialId).getD 0
        rw [hack, hqueued]
      · change ∀ event ∈ s.queuedEvents, event.serialId ≠ 0
        rw [hqueued]
        exact h.serialIds
      · change d.received ++ d.inFlight = s.queuedEvents.take (d.received.length + 0)
        rw [hflight, append_nil, hqueued, Nat.add_zero, ← prefix_iff_eq_take.mp hbegins]
    · next hneed =>
      rw [Bool.not_eq_true', Bool.not_eq_false] at hneed
      refine ⟨?_, ?_, Nat.le_refl _, ?_, ?_, fun _ => hflight, fun _ hnone _ => ?_⟩
      · change s.sentEvents ++ s.outgoingEvents = s.queuedEvents.drop d.received.length
        rw [hsent, houtgoing, hqueued, hkept]
      · change d.received ++ d.inFlight <+:
          s.queuedEvents.take (d.received.length + s.sentEvents.length)
        rw [hflight, append_nil, hqueued, prefix_take_iff]
        exact ⟨hbegins, Nat.le_add_right _ _⟩
      · change s.outgoingSerAck = if d.received.length = 0 then 0
          else (s.queuedEvents[d.received.length - 1]?.map serialId).getD 0
        rw [hack, hqueued]
      · change ∀ event ∈ s.queuedEvents, event.serialId ≠ 0
        rw [hqueued]
        exact h.serialIds
      · change s.needDisconnect = false at hnone
        rw [hneed] at hnone
        cases hnone

/-! ### Runs -/

/-- **The invariant is kept.** -/
theorem invariant_step {d' : Delivery} {call : DeliveryCall} (h : d.Invariant)
    (hids : d.SerialIdsDistinct call) (hstep : d.step call = some d') : d'.Invariant := by
  rw [step.eq_def] at hstep
  cases call with
  | call call =>
    rw [ite_none_left_eq_some, map_eq_some_iff] at hstep
    obtain ⟨hclient, w, hw, rfl⟩ := hstep
    exact h.call (Bool.eq_false_iff.mpr hclient) hw
  | connect windowSize =>
    obtain ⟨w, hw, rfl⟩ := map_eq_some_iff.mp hstep
    rw [SessionWorld.step.eq_def, ite_none_left_eq_some, Option.some.injEq] at hw
    obtain ⟨-, rfl⟩ := hw
    exact h.connect windowSize
  | deliver =>
    dsimp only at hstep
    split at hstep
    · cases hstep
    · next event rest hflight =>
      cases hstep
      exact h.deliver hflight
  | disconnect =>
    cases hstep
    exact h.disconnect
  | acknowledge events =>
    rw [ite_none_right_eq_some, bind_eq_some_iff] at hstep
    obtain ⟨⟨hpos, hle⟩, event, hevent, hstep⟩ := hstep
    obtain ⟨w, hw, rfl⟩ := map_eq_some_iff.mp hstep
    rw [SessionWorld.step.eq_def, ite_none_left_eq_some, Option.some.injEq] at hw
    obtain ⟨-, rfl⟩ := hw
    obtain ⟨n, rfl⟩ : ∃ n, events = n + 1 := ⟨events - 1, (Nat.sub_add_cancel hpos).symm⟩
    exact h.acknowledge hids hle hevent
  | acknowledgeReconnect =>
    obtain ⟨w, hw, rfl⟩ := map_eq_some_iff.mp hstep
    rw [SessionWorld.step.eq_def, ite_none_left_eq_some, Option.some.injEq] at hw
    obtain ⟨-, rfl⟩ := hw
    exact h.acknowledgeReconnect hids

theorem length_clientDataAcknowledge_le (s : ClientSession) (serId : MessageSerialId) :
    (s.clientDataAcknowledge serId).sentEvents.length ≤ s.sentEvents.length := by
  have hdrop : (dropThrough serId s.sentEvents).length ≤ s.sentEvents.length := by
    rw [dropThrough, length_tail]
    exact (Nat.sub_le _ _).trans (dropWhile_suffix _).length_le
  rw [clientDataAcknowledge]
  split
  · exact Nat.le_refl _
  · split
    · dsimp only
      split <;> exact hdrop
    · exact Nat.le_refl _

theorem length_clientDataAcknowledgeReconnect_le (s : ClientSession) (serId : MessageSerialId) :
    (s.clientDataAcknowledgeReconnect serId).sentEvents.length ≤ s.sentEvents.length := by
  have hfirst : (s.acknowledgeReconnect serId).sentEvents.length ≤ s.sentEvents.length := by
    rw [ClientSession.acknowledgeReconnect]
    split
    · exact Nat.le_refl _
    · dsimp only
      split
      · exact Nat.le_refl _
      · split
        · exact length_clientDataAcknowledge_le _ serId
        · exact Nat.le_refl _
  rw [clientDataAcknowledgeReconnect]
  split
  · exact Nat.zero_le _
  · exact hfirst

/-- The window is not exceeded by sending. -/
theorem window_processPending (w : SessionWorld) (answers : List SendReturnCode)
    (reactions : List (List ChannelCall)) :
    (w.processPending answers reactions).session.sentEvents.length ≤
      max w.session.sentEvents.length w.session.clientWindowSize := by
  have hserviced : Queues w.session { w.session with hasRequestedService := false } :=
    queues_of_eq rfl rfl rfl rfl rfl rfl rfl fun h => h
  rw [SessionWorld.processPending]
  dsimp only
  split
  · exact Nat.le_max_left _ _
  · have hchannels := hserviced.trans (sessionRelation_queues.processChannels
      { w with session := { w.session with hasRequestedService := false } } reactions)
    generalize SessionWorld.processPendingUnblockedChannels _ reactions = w' at hchannels ⊢
    dsimp only
    rw [← hchannels.sentEvents, ← hchannels.clientWindowSize]
    rcases w'.session.sendPending_cases answers with ⟨-, hsent, -⟩ | ⟨-, moved, hsends, -⟩
    · rw [hsent]
      exact Nat.le_max_left _ _
    · exact hsends.window

theorem window_step {w' : SessionWorld} {call : SessionCall} (hstep : w.step call = some w') :
    w'.session.sentEvents.length ≤
      max w.session.sentEvents.length w.session.clientWindowSize := by
  by_cases hother : call.isOfClient = false ∧
      ∀ answers reactions, call ≠ .processPending answers reactions
  · rw [(queues_step hother.1 hother.2 hstep).sentEvents]
    exact Nat.le_max_left _ _
  · rw [SessionWorld.step.eq_def, ite_none_left_eq_some] at hstep
    obtain ⟨-, hstep⟩ := hstep
    cases call with
    | setClientConnection windowSize =>
      cases hstep
      exact Nat.le_max_left _ _
    | clientDataAcknowledge serId =>
      cases hstep
      exact (length_clientDataAcknowledge_le _ serId).trans (Nat.le_max_left _ _)
    | clientDataAcknowledgeReconnect serId =>
      cases hstep
      exact (length_clientDataAcknowledgeReconnect_le _ serId).trans (Nat.le_max_left _ _)
    | processPending answers reactions =>
      cases hstep
      exact window_processPending w answers reactions
    | _ => exact absurd ⟨rfl, fun _ _ => nofun⟩ hother

instance (d : Delivery) (call : DeliveryCall) : Decidable (d.SerialIdsDistinct call) := by
  unfold SerialIdsDistinct
  infer_instance

/-- A new session for a client with a window of two. -/
def start : Delivery where
  world := .start 2 .text
  acknowledged := 0
  received := []
  inFlight := []
  connected := true

theorem starts_start : start.Starts := ⟨SessionWorld.starts_start 2 .text, rfl, rfl, rfl⟩

end Delivery

end Mutgos.CommInterface
