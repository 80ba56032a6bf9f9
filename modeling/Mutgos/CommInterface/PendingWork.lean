import Mutgos.CommInterface.SessionFrames

/-!
# Work that waits for service

`process_pending` is called when service has been requested.  Each operation that leaves
something to do decides for itself whether to request it.

## Main results

* `remembers_iff` — **a session forgets no work exactly in the runs that are attended.**
-/

namespace Mutgos.CommInterface

open Channels SessionWorld

namespace ClientSession

/-- There is something that `process_pending` would do. -/
def HasWork (s : ClientSession) : Prop :=
  s.needsIncomingSerAckSent = true ∨ s.pendingChannelsUnblock ≠ [] ∨
    s.pendingChannelsDelete ≠ [] ∨
    (s.outgoingEvents ≠ [] ∧ s.sentEvents.length < s.clientWindowSize) ∨ s.needDisconnect = true

/-- Nothing stands in the way of it. -/
structure Listening (s : ClientSession) : Prop where
  clientIsConnected : s.clientIsConnected = true
  clientIsBlocked : s.clientIsBlocked = false
  waitReconnectResponse : s.waitReconnectResponse = false

/-- Service has been requested if there is something to do. -/
def Remembers (s : ClientSession) : Prop :=
  s.Listening → s.HasWork → s.hasRequestedService = true

/-! ### Callbacks -/

/-- What the connection knows is as it was. -/
structure KeepsFlags (s s' : ClientSession) : Prop where
  clientIsConnected : s'.clientIsConnected = s.clientIsConnected
  clientIsBlocked : s'.clientIsBlocked = s.clientIsBlocked
  waitReconnectResponse : s'.waitReconnectResponse = s.waitReconnectResponse
  needHandleReconnect : s'.needHandleReconnect = s.needHandleReconnect
  needsIncomingSerAckSent : s'.needsIncomingSerAckSent = s.needsIncomingSerAckSent
  needDisconnect : s'.needDisconnect = s.needDisconnect
  sentEvents : s'.sentEvents = s.sentEvents
  clientWindowSize : s'.clientWindowSize = s.clientWindowSize
  hasRequestedService : s.hasRequestedService = true → s'.hasRequestedService = true

/-- Service has been requested for channels that are new among those to be looked at. -/
structure Attends (s s' : ClientSession) : Prop extends KeepsFlags s s' where
  channels : s.clientIsBlocked = false → s'.hasRequestedService = true ∨
    (s'.pendingChannelsUnblock ≠ [] → s.pendingChannelsUnblock ≠ []) ∧
      (s'.pendingChannelsDelete ≠ [] → s.pendingChannelsDelete ≠ [])

/-- Service has been requested for new events too. -/
structure Asks (s s' : ClientSession) : Prop extends Attends s s' where
  outgoingEvents : s.clientIsBlocked = false → s'.hasRequestedService = true ∨
    s'.outgoingEvents = s.outgoingEvents

theorem KeepsFlags.refl (s : ClientSession) : KeepsFlags s s :=
  ⟨rfl, rfl, rfl, rfl, rfl, rfl, rfl, rfl, fun h => h⟩

variable {s s' s'' : ClientSession}

theorem KeepsFlags.trans (h : KeepsFlags s s') (h' : KeepsFlags s' s'') : KeepsFlags s s'' where
  clientIsConnected := h'.clientIsConnected.trans h.clientIsConnected
  clientIsBlocked := h'.clientIsBlocked.trans h.clientIsBlocked
  waitReconnectResponse := h'.waitReconnectResponse.trans h.waitReconnectResponse
  needHandleReconnect := h'.needHandleReconnect.trans h.needHandleReconnect
  needsIncomingSerAckSent := h'.needsIncomingSerAckSent.trans h.needsIncomingSerAckSent
  needDisconnect := h'.needDisconnect.trans h.needDisconnect
  sentEvents := h'.sentEvents.trans h.sentEvents
  clientWindowSize := h'.clientWindowSize.trans h.clientWindowSize
  hasRequestedService hrequested := h'.hasRequestedService (h.hasRequestedService hrequested)

theorem Attends.refl (s : ClientSession) : Attends s s :=
  ⟨.refl s, fun _ => .inr ⟨fun h => h, fun h => h⟩⟩

theorem Attends.trans (h : Attends s s') (h' : Attends s' s'') : Attends s s'' := by
  refine ⟨h.toKeepsFlags.trans h'.toKeepsFlags, fun hblocked => ?_⟩
  rcases h'.channels (h.clientIsBlocked.trans hblocked) with hrequested | hlater
  · exact .inl hrequested
  · rcases h.channels hblocked with hrequested | hearlier
    · exact .inl (h'.hasRequestedService hrequested)
    · exact .inr ⟨fun hne => hearlier.1 (hlater.1 hne), fun hne => hearlier.2 (hlater.2 hne)⟩

theorem Asks.refl (s : ClientSession) : Asks s s := ⟨.refl s, fun _ => .inr rfl⟩

theorem Asks.trans (h : Asks s s') (h' : Asks s' s'') : Asks s s'' := by
  refine ⟨h.toAttends.trans h'.toAttends, fun hblocked => ?_⟩
  rcases h'.outgoingEvents (h.clientIsBlocked.trans hblocked) with hrequested | hlater
  · exact .inl hrequested
  · rcases h.outgoingEvents hblocked with hrequested | hearlier
    · exact .inl (h'.hasRequestedService hrequested)
    · exact .inr (hlater.trans hearlier)

theorem hasRequestedService_requestServiceUnlessBlocked (hblocked : s.clientIsBlocked = false) :
    s.requestServiceUnlessBlocked.hasRequestedService = true := by
  rw [requestServiceUnlessBlocked, if_neg (by rw [hblocked]; exact Bool.false_ne_true)]
  rfl

theorem keepsFlags_requestServiceUnlessBlocked (s : ClientSession) :
    KeepsFlags s s.requestServiceUnlessBlocked := by
  rw [requestServiceUnlessBlocked]
  split
  · exact .refl s
  · exact ⟨rfl, rfl, rfl, rfl, rfl, rfl, rfl, rfl, fun _ => rfl⟩

/-- Whatever is left to do, service is requested for it. -/
theorem KeepsFlags.asks (h : KeepsFlags s s') : Asks s s'.requestServiceUnlessBlocked := by
  have hrequested : s.clientIsBlocked = false →
      s'.requestServiceUnlessBlocked.hasRequestedService = true := fun hblocked =>
    hasRequestedService_requestServiceUnlessBlocked (h.clientIsBlocked.trans hblocked)
  exact ⟨⟨h.trans s'.keepsFlags_requestServiceUnlessBlocked,
    fun hblocked => .inl (hrequested hblocked)⟩, fun hblocked => .inl (hrequested hblocked)⟩

theorem keepsFlags_removePendingUnblockedChannel (s : ClientSession) (id : ChannelId) :
    KeepsFlags s (s.removePendingUnblockedChannel id) := by
  rw [removePendingUnblockedChannel]
  split
  · exact ⟨rfl, rfl, rfl, rfl, rfl, rfl, rfl, rfl, fun h => h⟩
  · exact .refl s

/-- Fewer channels are to be looked at. -/
theorem asks_removePendingUnblockedChannel (s : ClientSession) (id : ChannelId) :
    Asks s (s.removePendingUnblockedChannel id) := by
  refine ⟨⟨s.keepsFlags_removePendingUnblockedChannel id, fun _ => .inr ?_⟩, fun _ => .inr ?_⟩
  · rw [removePendingUnblockedChannel]
    split
    · refine ⟨fun hne hempty => hne ?_, fun h => h⟩
      change s.pendingChannelsUnblock.erase id = []
      rw [hempty]
      rfl
    · exact ⟨fun h => h, fun h => h⟩
  · rw [removePendingUnblockedChannel]
    split <;> rfl

theorem keepsFlags_addPendingUnblockedChannel (s : ClientSession) (id : ChannelId) :
    KeepsFlags s (s.addPendingUnblockedChannel id) := by
  rw [addPendingUnblockedChannel]
  split
  · exact ⟨rfl, rfl, rfl, rfl, rfl, rfl, rfl, rfl, fun h => h⟩
  · exact .refl s

theorem asks_channelFlowClosed (s : ClientSession) (channel : ChannelPtr) :
    Asks s (s.channelFlowClosed channel) := by
  rw [channelFlowClosed]
  split
  · exact .refl s
  · exact KeepsFlags.asks ⟨rfl, rfl, rfl, rfl, rfl, rfl, rfl, rfl, fun h => h⟩

/-- **Callbacks request service for what they leave to do.** -/
theorem asks_channelFlow (s : ClientSession) (channel : ChannelPtr) (status : FlowStatus) :
    Asks s (s.channelFlow channel status) := by
  cases status with
  | flowBlocked =>
    rw [channelFlow, channelFlowBlocked]
    split
    · exact .refl s
    · next info _ =>
      split
      · exact .refl s
      · have hremove := s.asks_removePendingUnblockedChannel info.id
        dsimp only
        split
        · exact hremove
        · exact hremove.trans (KeepsFlags.asks ⟨rfl, rfl, rfl, rfl, rfl, rfl, rfl, rfl, fun h => h⟩)
  | flowOpen =>
    rw [channelFlow, channelFlowOpen]
    split
    · exact .refl s
    · next info _ =>
      split
      · exact .refl s
      · exact (s.keepsFlags_addPendingUnblockedChannel info.id).asks
  | flowClosed => exact s.asks_channelFlowClosed channel
  | destructed => exact s.asks_channelFlowClosed channel

theorem asks_channelData (s : ClientSession) (channel : ChannelPtr) (data : ClientData) :
    Asks s (s.channelData channel data) := by
  rw [channelData]
  split
  · exact .refl s
  · exact KeepsFlags.asks ⟨rfl, rfl, rfl, rfl, rfl, rfl, rfl, rfl, fun h => h⟩

theorem callbackRelation_asks : CallbackRelation Asks where
  refl := .refl
  trans := .trans
  channelFlow := asks_channelFlow

/-- What stays as it was, and no more channels to be looked at. -/
theorem KeepsFlags.attends (h : KeepsFlags s s')
    (hunblock : s'.pendingChannelsUnblock ≠ [] → s.pendingChannelsUnblock ≠ [])
    (hdelete : s'.pendingChannelsDelete ≠ [] → s.pendingChannelsDelete ≠ []) : Attends s s' :=
  ⟨h, fun _ => .inr ⟨hunblock, hdelete⟩⟩

theorem attends_removeBlockedQueue (s : ClientSession) (id : ChannelId) :
    Attends s (s.removeBlockedQueue id) := by
  rw [removeBlockedQueue]
  split
  · exact KeepsFlags.attends ⟨rfl, rfl, rfl, rfl, rfl, rfl, rfl, rfl, fun h => h⟩ (fun h => h)
      fun h => h
  · exact .refl s

theorem attends_deleteChannel (s : ClientSession) (id : ChannelId) :
    Attends s (deleteChannel s id).2 := by
  rw [deleteChannel]
  split
  · exact .refl s
  · have hremove := (s.asks_removePendingUnblockedChannel id).toAttends
    dsimp only
    split
    · exact hremove
    · refine (hremove.trans (attends_removeBlockedQueue _ id)).trans ?_
      exact KeepsFlags.attends ⟨rfl, rfl, rfl, rfl, rfl, rfl, rfl, rfl, fun h => h⟩ (fun h => h)
        fun h => h

/-- What `process_pending` does with channels. -/
theorem sessionRelation_attends : SessionRelation Attends where
  refl := .refl
  trans := .trans
  channelFlow s channel status := (s.asks_channelFlow channel status).toAttends
  setBlockedQueue s id queue :=
    KeepsFlags.attends ⟨rfl, rfl, rfl, rfl, rfl, rfl, rfl, rfl, fun h => h⟩ (fun h => h) fun h => h
  removeBlockedQueue := attends_removeBlockedQueue
  updateBlocked s info blocked := by
    split <;>
      exact KeepsFlags.attends ⟨rfl, rfl, rfl, rfl, rfl, rfl, rfl, rfl, fun h => h⟩ (fun h => h)
        fun h => h
  takeUnblocked s :=
    KeepsFlags.attends ⟨rfl, rfl, rfl, rfl, rfl, rfl, rfl, rfl, fun h => h⟩
      (fun h => absurd rfl h) fun h => h
  deleteChannel := attends_deleteChannel
  takeDeleted s :=
    KeepsFlags.attends ⟨rfl, rfl, rfl, rfl, rfl, rfl, rfl, rfl, fun h => h⟩ (fun h => h)
      fun h => absurd rfl h

theorem Asks.remembers (h : Asks s s') (hs : s.Remembers) : s'.Remembers := by
  intro hlisten hwork
  have hlisten₀ : s.Listening := ⟨h.clientIsConnected ▸ hlisten.clientIsConnected,
    h.clientIsBlocked ▸ hlisten.clientIsBlocked,
    h.waitReconnectResponse ▸ hlisten.waitReconnectResponse⟩
  rcases h.channels hlisten₀.clientIsBlocked with hrequested | ⟨hunblock, hdelete⟩
  · exact hrequested
  · rcases h.outgoingEvents hlisten₀.clientIsBlocked with hrequested | houtgoing
    · exact hrequested
    · refine h.hasRequestedService (hs hlisten₀ ?_)
      rw [HasWork, h.needsIncomingSerAckSent, houtgoing, h.sentEvents, h.clientWindowSize,
        h.needDisconnect] at hwork
      rcases hwork with hack | hwork | hwork | hwork
      · exact .inl hack
      · exact .inr (.inl (hunblock hwork))
      · exact .inr (.inr (.inl (hdelete hwork)))
      · exact .inr (.inr (.inr hwork))

theorem remembers_of_requested (h : s.hasRequestedService = true) : s.Remembers := fun _ _ => h

/-! ### Sending -/

/-- An answer of the connection leaves nothing to do, or asks for service. -/
structure Answered (s s' : ClientSession) : Prop where
  waitReconnectResponse : s'.waitReconnectResponse = s.waitReconnectResponse
  needsIncomingSerAckSent : s'.needsIncomingSerAckSent = s.needsIncomingSerAckSent
  hasRequestedService : s.hasRequestedService = true → s'.hasRequestedService = true
  rest : s'.hasRequestedService = true ∨ s'.needDisconnect = s.needDisconnect ∧
    s'.pendingChannelsUnblock = s.pendingChannelsUnblock ∧
      s'.pendingChannelsDelete = s.pendingChannelsDelete

theorem Answered.refl (s : ClientSession) : Answered s s :=
  ⟨rfl, rfl, fun h => h, .inr ⟨rfl, rfl, rfl⟩⟩

theorem Answered.trans (h : Answered s s') (h' : Answered s' s'') : Answered s s'' := by
  refine ⟨h'.waitReconnectResponse.trans h.waitReconnectResponse,
    h'.needsIncomingSerAckSent.trans h.needsIncomingSerAckSent,
    fun hrequested => h'.hasRequestedService (h.hasRequestedService hrequested), ?_⟩
  rcases h'.rest with hrequested | ⟨hneed', hunblock', hdelete'⟩
  · exact .inl hrequested
  · rcases h.rest with hrequested | ⟨hneed, hunblock, hdelete⟩
    · exact .inl (h'.hasRequestedService hrequested)
    · exact .inr ⟨hneed'.trans hneed, hunblock'.trans hunblock, hdelete'.trans hdelete⟩

theorem answered_processSendReturnCode (s : ClientSession) (code : SendReturnCode) :
    Answered s (s.processSendReturnCode code).2 := by
  cases code with
  | sendNotSupported => exact ⟨rfl, rfl, fun _ => rfl, .inl rfl⟩
  | _ => exact ⟨rfl, rfl, fun h => h, .inr ⟨rfl, rfl, rfl⟩⟩

/-- What is not accepted blocks the client. -/
theorem clientIsBlocked_processSendReturnCode {s : ClientSession} {code : SendReturnCode}
    (h : (s.processSendReturnCode code).1 = false) :
    (s.processSendReturnCode code).2.clientIsBlocked = true := by
  cases code with
  | sendOk => cases h
  | sendOkBlocked => cases h
  | _ => rfl

/-- The loop goes on until nothing is left, the window is full, or the client is blocked. -/
theorem answered_sendOutgoing (answers : List SendReturnCode) (s : ClientSession) :
    Answered s (sendOutgoing s.outgoingEvents answers s) ∧
      ((sendOutgoing s.outgoingEvents answers s).clientIsBlocked = false →
        (sendOutgoing s.outgoingEvents answers s).outgoingEvents = [] ∨
          (sendOutgoing s.outgoingEvents answers s).clientWindowSize ≤
            (sendOutgoing s.outgoingEvents answers s).sentEvents.length) := by
  generalize houtgoing : s.outgoingEvents = outgoing
  induction outgoing generalizing answers s with
  | nil => exact ⟨.refl s, fun _ => .inl houtgoing⟩
  | cons event rest ih =>
    rw [sendOutgoing]
    split
    · next hfull =>
      refine ⟨.refl s, fun hblocked => .inr ?_⟩
      rw [hblocked, Bool.false_or, decide_eq_true_eq] at hfull
      exact hfull
    · have hanswered := s.answered_processSendReturnCode (answers.headD .sendOk)
      have hrefused := @clientIsBlocked_processSendReturnCode s (answers.headD .sendOk)
      generalize s.processSendReturnCode (answers.headD .sendOk) = answer at hanswered hrefused ⊢
      obtain ⟨accepted, s'⟩ := answer
      cases accepted with
      | false =>
        refine ⟨hanswered, fun hblocked => ?_⟩
        have hblocked' : s'.clientIsBlocked = true := hrefused rfl
        dsimp only at hblocked
        rw [hblocked] at hblocked'
        cases hblocked'
      | true =>
        have hmove : Answered s'
            { s' with outgoingEvents := rest, sentEvents := s'.sentEvents ++ [event] } :=
          ⟨rfl, rfl, fun h => h, .inr ⟨rfl, rfl, rfl⟩⟩
        have hrest := ih answers.tail
          { s' with outgoingEvents := rest, sentEvents := s'.sentEvents ++ [event] } rfl
        exact ⟨(hanswered.trans hmove).trans hrest.1, hrest.2⟩

/-- Nothing is left to do that could be done. -/
theorem remembers_sendOutgoing (answers : List SendReturnCode)
    (hack : s.needsIncomingSerAckSent = false) (hneed : s.needDisconnect = false)
    (hchannels : s.hasRequestedService = true ∨
      s.pendingChannelsUnblock = [] ∧ s.pendingChannelsDelete = []) :
    (sendOutgoing s.outgoingEvents answers s).Remembers := by
  obtain ⟨hanswered, hall⟩ := answered_sendOutgoing answers s
  intro hlisten hwork
  rcases hanswered.rest with hrequested | ⟨hneed', hunblock', hdelete'⟩
  · exact hrequested
  · rcases hchannels with hrequested | ⟨hunblock, hdelete⟩
    · exact hanswered.hasRequestedService hrequested
    · rw [HasWork, hanswered.needsIncomingSerAckSent, hack, hneed', hneed, hunblock', hunblock,
        hdelete', hdelete] at hwork
      rcases hwork with hwork | hwork | hwork | ⟨houtgoing, hroom⟩ | hwork
      · cases hwork
      · exact absurd rfl hwork
      · exact absurd rfl hwork
      · rcases hall hlisten.clientIsBlocked with hnone | hfull
        · exact absurd hnone houtgoing
        · exact absurd hroom (Nat.not_lt.mpr hfull)
      · cases hwork

theorem remembers_sendPending (answers : List SendReturnCode) (hneed : s.needDisconnect = false)
    (hchannels : s.clientIsBlocked = false → s.hasRequestedService = true ∨
      s.pendingChannelsUnblock = [] ∧ s.pendingChannelsDelete = []) :
    (s.sendPending answers).Remembers := by
  rw [sendPending]
  split
  · intro hlisten
    cases hlisten.waitReconnectResponse
  · split
    · next hsend =>
      rw [Bool.and_eq_true, Bool.not_eq_true', Bool.not_eq_true'] at hsend
      have hchannels' := hchannels hsend.2
      split
      · -- an acknowledgement comes first
        have hanswered := answered_processSendReturnCode
          { s with needsIncomingSerAckSent := false } (answers.headD .sendOk)
        dsimp only
        generalize (processSendReturnCode { s with needsIncomingSerAckSent := false }
          (answers.headD .sendOk)).2 = s' at hanswered ⊢
        rcases hanswered.rest with hrequested | ⟨hneed', hunblock', hdelete'⟩
        · exact remembers_of_requested
            ((answered_sendOutgoing answers.tail s').1.hasRequestedService hrequested)
        · refine remembers_sendOutgoing answers.tail hanswered.needsIncomingSerAckSent
            (hneed'.trans hneed) ?_
          rw [hunblock', hdelete']
          exact hchannels'.imp_left hanswered.hasRequestedService
      · next hack => exact remembers_sendOutgoing answers (Bool.eq_false_iff.mpr hack) hneed hchannels'
    · next hno =>
      intro hlisten
      rw [hlisten.waitReconnectResponse, hlisten.clientIsBlocked] at hno
      exact absurd rfl hno

/-- An acknowledgement that is sent is no longer to be sent, whatever the answer to it. -/
theorem needsIncomingSerAckSent_sendPending (h : s.sendsAcknowledgement = true)
    (answers : List SendReturnCode) : (s.sendPending answers).needsIncomingSerAckSent = false := by
  rw [sendsAcknowledgement, Bool.and_eq_true, Bool.and_eq_true, Bool.and_eq_true,
    Bool.not_eq_true', Bool.not_eq_true', Bool.not_eq_true'] at h
  obtain ⟨⟨⟨hhandle, hwait⟩, hblocked⟩, hack⟩ := h
  rw [sendPending, if_neg (by rw [hhandle]; exact Bool.false_ne_true),
    if_pos (by rw [hwait, hblocked]; rfl), if_pos hack]
  have hfirst := answered_processSendReturnCode { s with needsIncomingSerAckSent := false }
    (answers.headD .sendOk)
  exact (answered_sendOutgoing _ _).1.needsIncomingSerAckSent.trans hfirst.needsIncomingSerAckSent

end ClientSession

open ClientSession

/-! ### Operations -/

/-- What `process_pending` does with channels, and what it leaves to be looked at. -/
theorem attends_processChannels (w : SessionWorld) (reactions : List (List ChannelCall)) :
    KeepsFlags w.session
        ((if w.session.pendingChannelsDelete ≠ [] then w.processPendingChannelDeletes
          else w).processPendingUnblockedChannels reactions).session ∧
      (w.session.clientIsBlocked = false →
        ((if w.session.pendingChannelsDelete ≠ [] then w.processPendingChannelDeletes
          else w).processPendingUnblockedChannels reactions).session.hasRequestedService = true ∨
        ((if w.session.pendingChannelsDelete ≠ [] then w.processPendingChannelDeletes
          else w).processPendingUnblockedChannels reactions).session.pendingChannelsUnblock = [] ∧
        ((if w.session.pendingChannelsDelete ≠ [] then w.processPendingChannelDeletes
          else w).processPendingUnblockedChannels reactions).session.pendingChannelsDelete = []) := by
  have hdeletes : ∃ s, KeepsFlags w.session s ∧ s.pendingChannelsDelete = [] ∧ Attends s
      (if w.session.pendingChannelsDelete ≠ [] then w.processPendingChannelDeletes
        else w).session := by
    split
    · obtain ⟨s, hdelete, hunregister⟩ :=
        sessionRelation_attends.processPendingChannelDeletes_cases w
      exact ⟨_, hdelete.toKeepsFlags.trans (sessionRelation_attends.takeDeleted s).toKeepsFlags,
        rfl, hunregister⟩
    · next hnone => exact ⟨w.session, .refl _, not_not.mp hnone, .refl _⟩
  generalize (if w.session.pendingChannelsDelete ≠ [] then w.processPendingChannelDeletes
    else w) = w' at hdeletes ⊢
  obtain ⟨s, hflags, hnone, hattends⟩ := hdeletes
  have htake := sessionRelation_attends.takeUnblocked w'.session
  have htaken := sessionRelation_attends.processPendingUnblockedChannels_of_taken w' reactions
  refine ⟨(hflags.trans hattends.toKeepsFlags).trans (htake.trans htaken).toKeepsFlags,
    fun hblocked => ?_⟩
  have hblocked' : s.clientIsBlocked = false := hflags.clientIsBlocked.trans hblocked
  rcases htaken.channels (hattends.clientIsBlocked.trans hblocked') with
    hrequested | ⟨hunblock, -⟩
  · exact .inl hrequested
  · rcases (hattends.trans (htake.trans htaken)).channels hblocked' with
      hrequested | ⟨-, hdelete⟩
    · exact .inl hrequested
    · exact .inr ⟨by_contra fun hne => hunblock hne rfl, by_contra fun hne => hdelete hne hnone⟩

/-- **`process_pending` leaves nothing to do that could be done**, or has been asked for again. -/
theorem remembers_processPending (w : SessionWorld) (answers : List SendReturnCode)
    (reactions : List (List ChannelCall)) :
    (w.processPending answers reactions).session.Remembers := by
  rw [processPending]
  dsimp only
  split
  · intro hlisten
    cases hlisten.clientIsConnected
  · next hneed =>
    have hchannels := attends_processChannels
      { w with session := { w.session with hasRequestedService := false } } reactions
    dsimp only at hchannels ⊢
    generalize processPendingUnblockedChannels _ reactions = w' at hchannels ⊢
    obtain ⟨hflags, hrest⟩ := hchannels
    refine remembers_sendPending answers
      (hflags.needDisconnect.trans (Bool.eq_false_iff.mpr hneed)) fun hblocked => ?_
    exact hrest (hflags.clientIsBlocked.symm.trans hblocked)

variable {w w' : SessionWorld}

/-- An acknowledgement that is due is sent, whatever happens with channels first. -/
theorem needsIncomingSerAckSent_processPending (hneed : w.session.needDisconnect = false)
    (hack : w.session.sendsAcknowledgement = true) (answers : List SendReturnCode)
    (reactions : List (List ChannelCall)) :
    (w.processPending answers reactions).session.needsIncomingSerAckSent = false := by
  rw [processPending]
  dsimp only
  rw [if_neg (by rw [hneed]; exact Bool.false_ne_true)]
  have hchannels := attends_processChannels
    { w with session := { w.session with hasRequestedService := false } } reactions
  dsimp only at hchannels ⊢
  generalize processPendingUnblockedChannels _ reactions = w' at hchannels ⊢
  refine needsIncomingSerAckSent_sendPending ?_ answers
  rw [sendsAcknowledgement] at hack ⊢
  rw [hchannels.1.needHandleReconnect, hchannels.1.waitReconnectResponse,
    hchannels.1.clientIsBlocked, hchannels.1.needsIncomingSerAckSent]
  exact hack

/-- A client that is not blocked has been promised service, and one that is blocked stays so. -/
structure Promised (s : ClientSession) (s' : ClientSession) : Prop where
  clientIsBlocked : s'.clientIsBlocked = s.clientIsBlocked
  hasRequestedService : s.hasRequestedService = true → s'.hasRequestedService = true

theorem promised_queueData (s : ClientSession) (id : ChannelId) (serId : MessageSerialId)
    (data : ClientData) : Promised s (s.queueData id serId data) := by
  rw [queueData.eq_def]
  dsimp only
  split
  · cases data with
    | text line => exact ⟨rfl, fun _ => rfl⟩
    | message content => exact ⟨rfl, fun h => h⟩
  · exact ⟨rfl, fun h => h⟩

theorem promised_sendData (w : SessionWorld) (info : ChannelInfo) (serId : MessageSerialId)
    (data : ClientData) (reaction : List ChannelCall) :
    Promised w.session (w.sendData info serId data reaction).session := by
  have hoffer := callbackRelation_asks.offer w info.id info.channel data reaction
  rw [sendData]
  generalize w.offer info.id info.channel data reaction = offered at hoffer ⊢
  obtain ⟨accepted, w'⟩ := offered
  have hpromised : Promised w.session w'.session :=
    ⟨hoffer.clientIsBlocked, hoffer.hasRequestedService⟩
  cases accepted with
  | true => exact hpromised
  | false =>
    dsimp only
    split
    · exact hpromised
    · split
      · have hqueue := promised_queueData (w'.session.setBlocked info.id true) info.id serId data
        exact ⟨hqueue.clientIsBlocked.trans hpromised.clientIsBlocked,
          fun h => hqueue.hasRequestedService (hpromised.hasRequestedService h)⟩
      · exact hpromised

theorem Promised.remembers {s s' : ClientSession} (h : Promised s s')
    (hs : s.clientIsBlocked = false → s.hasRequestedService = true) : s'.Remembers := by
  intro hlisten _
  exact h.hasRequestedService (hs (h.clientIsBlocked ▸ hlisten.clientIsBlocked))

/-- What comes from the client is to be acknowledged, and service is requested for that unless
the client is blocked. -/
theorem remembers_clientData (hw : w.session.Remembers) (id : ChannelId) (serId : MessageSerialId)
    (data : ClientData) (reaction : List ChannelCall) :
    (w.clientData id serId data reaction).session.Remembers := by
  have hack : (w.session.acknowledgeSoon serId).clientIsBlocked = false →
      (w.session.acknowledgeSoon serId).hasRequestedService = true := by
    intro hblocked
    refine hasRequestedService_requestServiceUnlessBlocked
      (s := { w.session with incomingSerAck := serId, needsIncomingSerAckSent := true }) ?_
    exact (keepsFlags_requestServiceUnlessBlocked _).clientIsBlocked.symm.trans hblocked
  rw [clientData]
  split
  · exact hw
  · next info _ =>
    split
    · exact remembers_of_requested rfl
    · dsimp only
      split
      · exact (promised_queueData (w.session.acknowledgeSoon serId) id serId data).remembers hack
      · split
        · exact Promised.remembers (s := w.session.acknowledgeSoon serId) ⟨rfl, fun h => h⟩ hack
        · split
          · exact remembers_of_requested rfl
          · exact (promised_sendData
              (receive { w with session := w.session.acknowledgeSoon serId } id data)
              info serId data reaction).remembers hack

theorem remembers_clientDataAcknowledge {s : ClientSession} (hs : s.Remembers)
    (serId : MessageSerialId) : (s.clientDataAcknowledge serId).Remembers := by
  rw [clientDataAcknowledge]
  split
  · exact remembers_of_requested rfl
  · split
    · dsimp only
      split
      · exact remembers_of_requested rfl
      · next hnone =>
        -- nothing is to be sent, so room in the window is of no use
        intro hlisten hwork
        refine hs ⟨hlisten.clientIsConnected, hlisten.clientIsBlocked,
          hlisten.waitReconnectResponse⟩ ?_
        rcases hwork with hwork | hwork | hwork | hwork | hwork
        · exact .inl hwork
        · exact .inr (.inl hwork)
        · exact .inr (.inr (.inl hwork))
        · exact absurd hwork.1 hnone
        · exact .inr (.inr (.inr (.inr hwork)))
    · exact remembers_of_requested rfl

theorem remembers_channelAdded {channel : ChannelPtr} {toClient : Bool}
    (h : w.channelAdded channel toClient = some w') : w'.session.Remembers := by
  rw [channelAdded, Option.map_eq_some_iff] at h
  obtain ⟨id, -, rfl⟩ := h
  intro hlisten _
  have hblocked := hlisten.clientIsBlocked
  refine hasRequestedService_requestServiceUnlessBlocked ?_
  exact (keepsFlags_requestServiceUnlessBlocked _).clientIsBlocked.symm.trans hblocked

/-! ### Runs -/

/-- An acknowledgement that is due and that the connection refuses is still to be sent. -/
def RefusalKept (w : SessionWorld) (call : SessionCall) (w' : SessionWorld) : Prop :=
  ∀ answers reactions, call = .processPending answers reactions →
    w.session.needDisconnect = false → w.session.sendsAcknowledgement = true →
    answers.headD .sendOk = .sendBlocked → w'.session.needsIncomingSerAckSent = true

/-- The client is unblocked where a message is to be sent, or service has been requested, or
there is nothing to do; and the connection does not refuse an acknowledgement that is due. -/
def Attended (w : SessionWorld) : SessionCall → Prop
  | .clientUnblocked =>
    w.session.outgoingEvents ≠ [] ∨ w.session.hasRequestedService = true ∨
      w.session.clientIsConnected = false ∨ w.session.waitReconnectResponse = true ∨
      ¬w.session.HasWork
  | .processPending answers _ =>
    w.session.needDisconnect = true ∨ w.session.sendsAcknowledgement = false ∨
      answers.headD .sendOk ≠ .sendBlocked
  | _ => True

/-- Service is requested for a message, and for nothing else. -/
theorem remembers_clientUnblocked_iff (w : SessionWorld) :
    w.session.clientUnblocked.Remembers ↔ Attended w .clientUnblocked := by
  rw [clientUnblocked]
  dsimp only
  by_cases houtgoing : w.session.outgoingEvents = []
  · rw [if_neg (not_not.mpr houtgoing)]
    constructor
    · intro hs
      by_contra hno
      rw [Attended, not_or, not_or, not_or, not_or, not_not] at hno
      obtain ⟨-, hrequested, hconnected, hwait, hwork⟩ := hno
      exact hrequested (hs ⟨Bool.not_eq_false _ ▸ hconnected, rfl, Bool.eq_false_iff.mpr hwait⟩
        (not_not.mp hwork))
    · rintro (hne | hrequested | hconnected | hwait | hwork) hlisten hwork'
      · exact absurd houtgoing hne
      · exact hrequested
      · exact absurd (hconnected.symm.trans hlisten.clientIsConnected) (by decide)
      · exact absurd (hwait.symm.trans hlisten.waitReconnectResponse) (by decide)
      · exact absurd hwork' hwork
  · rw [if_pos houtgoing]
    exact iff_of_true (remembers_of_requested rfl) (.inl houtgoing)

/-- The other operations request service for what they leave to do. -/
theorem remembers_other {call : SessionCall} (hw : w.session.Remembers)
    (hunblocked : call ≠ .clientUnblocked) (hstep : w.step call = some w') :
    w'.session.Remembers := by
  rw [step.eq_def, Option.ite_none_left_eq_some] at hstep
  obtain ⟨-, hstep⟩ := hstep
  cases call with
  | setClientConnection windowSize =>
    cases hstep
    exact remembers_of_requested rfl
  | clientDisconnected =>
    cases hstep
    intro hlisten
    cases hlisten.clientIsConnected
  | requestDisconnection =>
    cases hstep
    exact remembers_of_requested rfl
  | processPending answers reactions =>
    cases hstep
    exact remembers_processPending w answers reactions
  | clientDataAcknowledge serId =>
    cases hstep
    exact remembers_clientDataAcknowledge hw serId
  | clientDataAcknowledgeReconnect serId =>
    cases hstep
    refine remembers_of_requested ?_
    rw [ofSession, clientDataAcknowledgeReconnect]
    dsimp only
    split <;> rfl
  | clientUnblocked => exact absurd rfl hunblocked
  | clientData id serId data reaction =>
    cases hstep
    exact remembers_clientData hw id serId data reaction
  | clientRequestChannelClose id =>
    cases hstep
    rw [clientRequestChannelClose]
    split
    · exact hw
    · exact (callbackRelation_asks.callChannel w _ .close).remembers hw
  | channelAdded channel toClient => exact remembers_channelAdded hstep
  | channelData channel data =>
    cases hstep
    exact (w.session.asks_channelData channel data).remembers hw
  | channelFlow channel status =>
    cases hstep
    exact (w.session.asks_channelFlow channel status).remembers hw
  | callChannel channel call =>
    cases hstep
    exact (callbackRelation_asks.callChannel w channel call).remembers hw

/-- **What one operation does.** -/
theorem remembers_step {call : SessionCall} (hw : w.session.Remembers)
    (hstep : w.step call = some w') :
    (w'.session.Remembers ∧ RefusalKept w call w') ↔ Attended w call := by
  by_cases hunblocked : call = .clientUnblocked
  · subst hunblocked
    rw [step.eq_def, Option.ite_none_left_eq_some] at hstep
    obtain ⟨-, hstep⟩ := hstep
    cases hstep
    rw [← remembers_clientUnblocked_iff]
    exact and_iff_left fun _ _ => nofun
  · rw [and_iff_right (remembers_other hw hunblocked hstep)]
    cases call with
    | clientUnblocked => exact absurd rfl hunblocked
    | processPending answers reactions =>
      rw [step.eq_def, Option.ite_none_left_eq_some] at hstep
      obtain ⟨-, hstep⟩ := hstep
      cases hstep
      constructor
      · intro hkept
        by_contra hno
        rw [Attended, not_or, not_or, not_not] at hno
        obtain ⟨hneed, hack, hrefused⟩ := hno
        have hneed' := Bool.eq_false_iff.mpr hneed
        have hack' := Bool.not_eq_false _ ▸ hack
        have hmarked := hkept answers reactions rfl hneed' hack' hrefused
        rw [needsIncomingSerAckSent_processPending hneed' hack'] at hmarked
        cases hmarked
      · rintro hattended answers' reactions' heq hneed hack hrefused
        cases heq
        rcases hattended with hneed' | hack' | hrefused'
        · exact absurd (hneed.symm.trans hneed') (by decide)
        · exact absurd (hack'.symm.trans hack) (by decide)
        · exact absurd hrefused hrefused'
    | _ => exact iff_of_true (fun _ _ => nofun) trivial

/-- **A session forgets no work exactly in the runs that are attended.** -/
theorem remembers_iff {w₀ w : SessionWorld} {calls : List SessionCall} (hstarts : w₀.Starts)
    (hrun : run SessionWorld.step w₀ calls = some w) :
    (∀ before call after w₁ w₂, calls = before ++ call :: after →
        run SessionWorld.step w₀ before = some w₁ → w₁.step call = some w₂ →
          w₂.session.Remembers ∧ RefusalKept w₁ call w₂) ↔
      Steps SessionWorld.step Attended w₀ calls w := by
  have hinit : w₀.session.Remembers := by
    obtain ⟨windowSize, hsession⟩ := hstarts.session
    rw [hsession]
    rintro - (hwork | hwork | hwork | ⟨hwork, -⟩ | hwork)
    · cases hwork
    · exact absurd rfl hwork
    · exact absurd rfl hwork
    · exact absurd rfl hwork
    · cases hwork
  refine steps_iff_forall_step (I := fun w => w.session.Remembers)
    (P := fun w call w' => w'.session.Remembers ∧ RefusalKept w call w') ?_ ?_ hinit hrun
  · intro w call w' hw hattended hstep
    have hboth := (remembers_step hw hstep).mpr hattended
    exact ⟨hboth.1, hboth⟩
  · intro w call w' hw hstep hboth
    exact (remembers_step hw hstep).mp hboth

instance (s : ClientSession) : Decidable s.HasWork := by
  unfold HasWork
  infer_instance

instance (w : SessionWorld) : ∀ call, Decidable (Attended w call)
  | .clientUnblocked =>
    inferInstanceAs (Decidable (w.session.outgoingEvents ≠ [] ∨
      w.session.hasRequestedService = true ∨ w.session.clientIsConnected = false ∨
      w.session.waitReconnectResponse = true ∨ ¬w.session.HasWork))
  | .processPending answers _ =>
    inferInstanceAs (Decidable (w.session.needDisconnect = true ∨
      w.session.sendsAcknowledgement = false ∨ answers.headD .sendOk ≠ .sendBlocked))
  | .setClientConnection _ | .clientDisconnected | .requestDisconnection
  | .clientDataAcknowledge _ | .clientDataAcknowledgeReconnect _ | .clientData _ _ _ _
  | .clientRequestChannelClose _ | .channelAdded _ _ | .channelData _ _ | .channelFlow _ _
  | .callChannel _ _ =>
    .isTrue trivial

/-- A client that is unblocked when the end of a channel is to be sent gets what it has sent
acknowledged too. -/
theorem remembers_message : ∃ (calls : List SessionCall) (w : SessionWorld),
    calls.getLast? = some .clientUnblocked ∧ w.session.hasRequestedService = true ∧
    ∀ before call after w₁ w₂, calls = before ++ call :: after →
      run SessionWorld.step (.start 2 .text) before = some w₁ → w₁.step call = some w₂ →
        w₂.session.Remembers ∧ RefusalKept w₁ call w₂ := by
  obtain ⟨w, hw, heq⟩ := Option.map_eq_some_iff.mp
    (show (run (guarded SessionWorld.step Attended) (.start 2 .text) [.channelAdded 7 false,
      .processPending [.sendOk, .sendOkBlocked] [], .clientData 1 1 (.text []) [],
      .callChannel 7 .close, .clientUnblocked]).map (fun w => w.session.hasRequestedService) =
        some true by decide +kernel)
  have hsteps := steps_of_run_guarded hw
  exact ⟨_, w, rfl, heq,
    (remembers_iff (SessionWorld.starts_start 2 .text) hsteps.run_eq).mpr hsteps⟩

/-- An acknowledgement waits for a client that is no longer blocked, and one that has been
refused is not sent again. -/
theorem remembers_acknowledgement :
    (∃ w, run SessionWorld.step (.start 2 .text) [.channelAdded 7 false,
        .processPending [.sendOk, .sendOkBlocked] [], .clientData 1 1 (.text []) [],
        .clientUnblocked] = some w ∧ w.session.needsIncomingSerAckSent = true ∧
      ¬w.session.Remembers) ∧
    ∃ w w', run SessionWorld.step (.start 2 .text) [.channelAdded 7 false,
        .processPending [] [], .clientData 1 1 (.text []) []] = some w ∧
      w.step (.processPending [.sendBlocked] []) = some w' ∧
      ¬RefusalKept w (.processPending [.sendBlocked] []) w' := by
  constructor
  · obtain ⟨w, hw, heq⟩ := Option.map_eq_some_iff.mp
      (show (run SessionWorld.step (.start 2 .text) [.channelAdded 7 false,
        .processPending [.sendOk, .sendOkBlocked] [], .clientData 1 1 (.text []) [],
        .clientUnblocked]).map (fun w => (w.session.needsIncomingSerAckSent,
          w.session.clientIsConnected, w.session.clientIsBlocked, w.session.waitReconnectResponse,
          w.session.hasRequestedService)) = some (true, true, false, false, false) by
            decide +kernel)
    simp only [Prod.mk.injEq] at heq
    obtain ⟨hack, hconnected, hblocked, hwait, hrequested⟩ := heq
    refine ⟨w, hw, hack, fun hs => ?_⟩
    rw [hs ⟨hconnected, hblocked, hwait⟩ (.inl hack)] at hrequested
    cases hrequested
  · obtain ⟨w, hw, heq⟩ := Option.map_eq_some_iff.mp
      (show (run SessionWorld.step (.start 2 .text) [.channelAdded 7 false,
        .processPending [] [], .clientData 1 1 (.text []) []]).map (fun w =>
          (w.session.needDisconnect, w.session.sendsAcknowledgement, w.miscast)) =
            some (false, true, false) by decide +kernel)
    simp only [Prod.mk.injEq] at heq
    obtain ⟨hneed, hack, hcast⟩ := heq
    refine ⟨w, _, hw, if_neg (by rw [hcast]; exact Bool.false_ne_true), fun hkept => ?_⟩
    have hmarked := hkept [.sendBlocked] [] rfl hneed hack rfl
    rw [needsIncomingSerAckSent_processPending hneed hack] at hmarked
    cases hmarked

end Mutgos.CommInterface
