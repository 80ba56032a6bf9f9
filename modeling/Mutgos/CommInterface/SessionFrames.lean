import Mutgos.CommInterface.SessionWorld

/-!
# What operations do to a session

A session is changed in many places, most of them callbacks from channels.  A relation
between sessions that those small changes respect is respected by the loops they are in.

## Main results

* `CallbackRelation.react`, `CallbackRelation.offer`, `SessionRelation.drainQueue` — callbacks.
-/

namespace Mutgos.CommInterface

open Channels

/-- A relation between sessions that is respected by callbacks from channels. -/
structure CallbackRelation (R : ClientSession → ClientSession → Prop) : Prop where
  refl : ∀ s, R s s
  trans : ∀ {s s' s''}, R s s' → R s' s'' → R s s''
  channelFlow : ∀ s channel status, R s (s.channelFlow channel status)

/-- It is respected too by changes of channels and of what waits for them. -/
structure SessionRelation (R : ClientSession → ClientSession → Prop) : Prop
    extends CallbackRelation R where
  setBlockedQueue : ∀ s id queue, R s (s.setBlockedQueue id queue)
  removeBlockedQueue : ∀ s id, R s (s.removeBlockedQueue id)
  updateBlocked : ∀ s (info : ChannelInfo) (blocked : Bool),
    R s (if blocked then s.setBlocked info.id blocked
      else (s.setBlocked info.id blocked).queueStatusChange info .statusUnblock)
  takeUnblocked : ∀ s : ClientSession, R s { s with pendingChannelsUnblock := [] }
  deleteChannel : ∀ s id, R s (SessionWorld.deleteChannel s id).2
  takeDeleted : ∀ s : ClientSession, R s { s with pendingChannelsDelete := [] }

variable {R : ClientSession → ClientSession → Prop}

namespace CallbackRelation

section

variable (hR : CallbackRelation R)
include hR

theorem foldl {α : Type} {f : ClientSession → α → ClientSession} (hf : ∀ s x, R s (f s x))
    (xs : List α) (s : ClientSession) : R s (xs.foldl f s) := by
  induction xs generalizing s with
  | nil => exact hR.refl s
  | cons x xs ih => exact hR.trans (hf s x) (ih (f s x))

theorem tell (w : SessionWorld) (channel : ChannelPtr) (told : List (FlowRecipient × FlowStatus)) :
    R w.session (w.tell channel told).session := by
  refine hR.foldl (fun s notice => ?_) told w.session
  split
  · exact hR.channelFlow s channel notice.2
  · exact hR.refl s

theorem callChannel (w : SessionWorld) (channel : ChannelPtr) (call : ChannelCall) :
    R w.session (w.callChannel channel call).2.session :=
  hR.tell _ _ _

theorem react (channel : ChannelPtr) (reaction : List ChannelCall) (w : SessionWorld) :
    R w.session (w.react channel reaction).session := by
  induction reaction generalizing w with
  | nil => exact hR.refl _
  | cons call reaction ih => exact hR.trans (hR.callChannel w channel call) (ih _)

theorem offer (w : SessionWorld) (id : ChannelId) (channel : ChannelPtr) (data : ClientData)
    (reaction : List ChannelCall) : R w.session (w.offer id channel data reaction).2.session := by
  have hsend := hR.callChannel
    { w with overtaken := w.overtaken || w.overtakes id channel data } channel .send
  rw [SessionWorld.offer]
  generalize SessionWorld.callChannel _ channel .send = sent at hsend ⊢
  obtain ⟨accepted, w'⟩ := sent
  cases accepted with
  | true =>
    exact hR.trans hsend (hR.react channel reaction
      { w' with handed := Function.update w'.handed id (w'.handed id ++ [data]) })
  | false => exact hsend

end

end CallbackRelation

namespace SessionRelation

section

variable (hR : SessionRelation R)
include hR

theorem drainQueue (id : ChannelId) (channel : ChannelPtr) (queue : List RouterEvent)
    (reactions : List (List ChannelCall)) (w : SessionWorld) :
    R w.session (SessionWorld.drainQueue id channel queue reactions w).world.session := by
  induction queue generalizing reactions w with
  | nil => exact hR.refl _
  | cons event rest ih =>
    rw [SessionWorld.drainQueue]
    cases event.data with
    | channelStatus _ => exact hR.refl _
    | data data =>
      dsimp only
      split
      · exact hR.refl _
      · have hoffer := hR.offer w id channel data (reactions.headD [])
        generalize SessionWorld.offer w id channel data (reactions.headD []) = offered at hoffer ⊢
        obtain ⟨accepted, w'⟩ := offered
        cases accepted with
        | true => exact hR.trans hoffer (ih _ _)
        | false => exact hoffer

theorem processUnblockedChannel (u : SessionWorld.Unblocking) (id : ChannelId) :
    R u.world.session (SessionWorld.processUnblockedChannel u id).world.session := by
  rw [SessionWorld.processUnblockedChannel]
  split
  · exact hR.refl _
  · next info _ =>
    split
    · exact hR.refl _
    · have hdrain := hR.drainQueue id info.channel (u.world.session.blockedQueue id) u.reactions
        u.world
      have hset := hR.trans hdrain (hR.setBlockedQueue _ id
        (SessionWorld.drainQueue id info.channel (u.world.session.blockedQueue id) u.reactions
          u.world).queue)
      dsimp only
      split
      · exact hR.trans hset (hR.updateBlocked _ info _)
      · exact hset

/-- From the channels having been taken on. -/
theorem processPendingUnblockedChannels_of_taken (w : SessionWorld)
    (reactions : List (List ChannelCall)) : R { w.session with pendingChannelsUnblock := [] }
      (w.processPendingUnblockedChannels reactions).session := by
  have hloop : ∀ (ids : List ChannelId) (u : SessionWorld.Unblocking),
      R u.world.session (ids.foldl SessionWorld.processUnblockedChannel u).world.session := by
    intro ids
    induction ids with
    | nil => exact fun u => hR.refl _
    | cons id ids ih => exact fun u => hR.trans (hR.processUnblockedChannel u id) (ih _)
  have hunblocked := hloop w.session.pendingChannelsUnblock
    ⟨{ w with session := { w.session with pendingChannelsUnblock := [] } }, [], reactions⟩
  exact hR.trans hunblocked (hR.foldl (fun s id => hR.removeBlockedQueue s id) _ _)

theorem processPendingUnblockedChannels (w : SessionWorld) (reactions : List (List ChannelCall)) :
    R w.session (w.processPendingUnblockedChannels reactions).session :=
  hR.trans (hR.takeUnblocked w.session) (hR.processPendingUnblockedChannels_of_taken w reactions)

theorem deleteChannels (ids : List ChannelId) (infos : List ChannelInfo) (s : ClientSession) :
    R s (ids.foldl (fun (infos, s) id =>
      match SessionWorld.deleteChannel s id with
      | (some info, s) => (infos ++ [info], s)
      | (none, s) => (infos, s)) (infos, s)).2 := by
  induction ids generalizing infos s with
  | nil => exact hR.refl s
  | cons id ids ih =>
    have hdelete := hR.deleteChannel s id
    rw [List.foldl_cons]
    dsimp only
    generalize SessionWorld.deleteChannel s id = deleted at hdelete ⊢
    obtain ⟨info, s'⟩ := deleted
    cases info with
    | none => exact hR.trans hdelete (ih _ _)
    | some info => exact hR.trans hdelete (ih _ _)

theorem unregisterChannel (w : SessionWorld) (info : ChannelInfo) :
    R w.session (w.unregisterChannel info).session :=
  hR.callChannel
    { w with
      channels := Function.update w.channels info.channel
        ((w.channels info.channel).unregisterControlListener sessionPtr) } info.channel .close

/-- Channels are deleted, and then those that hold them are called. -/
theorem processPendingChannelDeletes_cases (w : SessionWorld) :
    ∃ s, R w.session s ∧
      R { s with pendingChannelsDelete := [] } w.processPendingChannelDeletes.session := by
  have hloop : ∀ (infos : List ChannelInfo) (w : SessionWorld),
      R w.session (infos.foldl SessionWorld.unregisterChannel w).session := by
    intro infos
    induction infos with
    | nil => exact fun w => hR.refl _
    | cons info infos ih => exact fun w => hR.trans (hR.unregisterChannel w info) (ih _)
  have hdelete := hR.deleteChannels w.session.pendingChannelsDelete [] w.session
  have hunregister := hloop
    (SessionWorld.deleteChannels w.session w.session.pendingChannelsDelete).1
    { w with
      session := { (SessionWorld.deleteChannels w.session w.session.pendingChannelsDelete).2 with
        pendingChannelsDelete := [] } }
  exact ⟨_, hdelete, hunregister⟩

theorem processPendingChannelDeletes (w : SessionWorld) :
    R w.session w.processPendingChannelDeletes.session := by
  obtain ⟨s, hdelete, hunregister⟩ := hR.processPendingChannelDeletes_cases w
  exact hR.trans hdelete (hR.trans (hR.takeDeleted s) hunregister)

/-- The first half of `process_pending`. -/
theorem processChannels (w : SessionWorld) (reactions : List (List ChannelCall)) :
    R w.session
      ((if w.session.pendingChannelsDelete ≠ [] then w.processPendingChannelDeletes
        else w).processPendingUnblockedChannels reactions).session := by
  refine hR.trans ?_ (hR.processPendingUnblockedChannels _ reactions)
  split
  · exact hR.processPendingChannelDeletes w
  · exact hR.refl _

end

end SessionRelation

/-! ### Events are only queued -/

namespace ClientSession

/-- Events have been put in the queue for the client, and the connection has nothing to do with
it. -/
structure Queues (s s' : ClientSession) : Prop where
  sentEvents : s'.sentEvents = s.sentEvents
  queued : ∃ news, s'.outgoingEvents = s.outgoingEvents ++ news ∧
    s'.queuedEvents = s.queuedEvents ++ news ∧ ∀ event ∈ news, event.serialId ≠ 0
  outgoingSerAck : s'.outgoingSerAck = s.outgoingSerAck
  waitReconnectResponse : s'.waitReconnectResponse = s.waitReconnectResponse
  needHandleReconnect : s'.needHandleReconnect = s.needHandleReconnect
  clientWindowSize : s'.clientWindowSize = s.clientWindowSize
  needDisconnect : s.needDisconnect = true → s'.needDisconnect = true

theorem Queues.refl (s : ClientSession) : Queues s s :=
  ⟨rfl, ⟨[], by simp⟩, rfl, rfl, rfl, rfl, fun h => h⟩

theorem Queues.trans {s s' s'' : ClientSession} (h : Queues s s') (h' : Queues s' s'') :
    Queues s s'' := by
  obtain ⟨news, houtgoing, hqueued, hids⟩ := h.queued
  obtain ⟨news', houtgoing', hqueued', hids'⟩ := h'.queued
  refine ⟨h'.sentEvents.trans h.sentEvents, ⟨news ++ news', ?_, ?_, ?_⟩,
    h'.outgoingSerAck.trans h.outgoingSerAck,
    h'.waitReconnectResponse.trans h.waitReconnectResponse,
    h'.needHandleReconnect.trans h.needHandleReconnect,
    h'.clientWindowSize.trans h.clientWindowSize, fun hneed => h'.needDisconnect
      (h.needDisconnect hneed)⟩
  · rw [houtgoing', houtgoing, List.append_assoc]
  · rw [hqueued', hqueued, List.append_assoc]
  · intro event hevent
    rcases List.mem_append.mp hevent with hevent | hevent
    · exact hids event hevent
    · exact hids' event hevent

theorem nextMessageId_ne_zero (last : MessageSerialId) : nextMessageId last ≠ 0 := by
  rw [nextMessageId]
  split
  · exact Nat.one_ne_zero
  · next hne => exact hne

theorem queues_queueEvent (s : ClientSession) (channelId : ChannelId) (data : RouterEventData) :
    Queues s (s.queueEvent channelId data) := by
  refine ⟨rfl, ⟨[_], rfl, rfl, ?_⟩, rfl, rfl, rfl, rfl, fun h => h⟩
  intro event hevent
  rw [List.mem_singleton.mp hevent]
  exact nextMessageId_ne_zero _

/-- What has nothing to do with events and the connection. -/
theorem queues_of_eq {s s' : ClientSession} (hsent : s'.sentEvents = s.sentEvents)
    (houtgoing : s'.outgoingEvents = s.outgoingEvents)
    (hqueued : s'.queuedEvents = s.queuedEvents) (hack : s'.outgoingSerAck = s.outgoingSerAck)
    (hwait : s'.waitReconnectResponse = s.waitReconnectResponse)
    (hhandle : s'.needHandleReconnect = s.needHandleReconnect)
    (hwindow : s'.clientWindowSize = s.clientWindowSize)
    (hneed : s.needDisconnect = true → s'.needDisconnect = true) : Queues s s' :=
  ⟨hsent, ⟨[], by simp [houtgoing], by simp [hqueued], by simp⟩, hack, hwait, hhandle, hwindow,
    hneed⟩

theorem queues_requestService (s : ClientSession) : Queues s s.requestService :=
  queues_of_eq rfl rfl rfl rfl rfl rfl rfl fun h => h

theorem queues_requestServiceUnlessBlocked (s : ClientSession) :
    Queues s s.requestServiceUnlessBlocked := by
  rw [requestServiceUnlessBlocked]
  split
  · exact .refl s
  · exact s.queues_requestService

theorem queues_disconnectSoon (s : ClientSession) : Queues s s.disconnectSoon :=
  queues_of_eq rfl rfl rfl rfl rfl rfl rfl fun _ => rfl

theorem queues_removePendingUnblockedChannel (s : ClientSession) (id : ChannelId) :
    Queues s (s.removePendingUnblockedChannel id) := by
  rw [removePendingUnblockedChannel]
  split
  · exact queues_of_eq rfl rfl rfl rfl rfl rfl rfl fun h => h
  · exact .refl s

theorem queues_addPendingUnblockedChannel (s : ClientSession) (id : ChannelId) :
    Queues s (s.addPendingUnblockedChannel id) := by
  rw [addPendingUnblockedChannel]
  split
  · exact queues_of_eq rfl rfl rfl rfl rfl rfl rfl fun h => h
  · exact .refl s

theorem queues_setBlocked (s : ClientSession) (id : ChannelId) (blocked : Bool) :
    Queues s (s.setBlocked id blocked) :=
  queues_of_eq rfl rfl rfl rfl rfl rfl rfl fun h => h

theorem queues_setBlockedQueue (s : ClientSession) (id : ChannelId) (queue : List RouterEvent) :
    Queues s (s.setBlockedQueue id queue) :=
  queues_of_eq rfl rfl rfl rfl rfl rfl rfl fun h => h

theorem queues_removeBlockedQueue (s : ClientSession) (id : ChannelId) :
    Queues s (s.removeBlockedQueue id) := by
  rw [removeBlockedQueue]
  split
  · exact queues_of_eq rfl rfl rfl rfl rfl rfl rfl fun h => h
  · exact .refl s

theorem queues_channelFlowClosed (s : ClientSession) (channel : ChannelPtr) :
    Queues s (s.channelFlowClosed channel) := by
  rw [channelFlowClosed]
  split
  · exact .refl s
  · next info _ =>
    have hqueue := s.queues_queueEvent 0 (.channelStatus ⟨.statusClose, info.out, info.id⟩)
    refine (hqueue.trans ?_).trans (queues_requestServiceUnlessBlocked _)
    exact queues_of_eq rfl rfl rfl rfl rfl rfl rfl fun h => h

theorem queues_channelFlow (s : ClientSession) (channel : ChannelPtr) (status : FlowStatus) :
    Queues s (s.channelFlow channel status) := by
  cases status with
  | flowBlocked =>
    rw [channelFlow, channelFlowBlocked]
    split
    · exact .refl s
    · next info _ =>
      split
      · exact .refl s
      · have hremove := s.queues_removePendingUnblockedChannel info.id
        dsimp only
        split
        · exact hremove
        · have hupdate := hremove.trans (queues_setBlocked _ info.id true)
          exact (hupdate.trans (queues_queueEvent _ 0 _)).trans
            (queues_requestServiceUnlessBlocked _)
  | flowOpen =>
    rw [channelFlow, channelFlowOpen]
    split
    · exact .refl s
    · next info _ =>
      split
      · exact .refl s
      · exact (s.queues_addPendingUnblockedChannel info.id).trans
          (queues_requestServiceUnlessBlocked _)
  | flowClosed => exact s.queues_channelFlowClosed channel
  | destructed => exact s.queues_channelFlowClosed channel

theorem queues_channelData (s : ClientSession) (channel : ChannelPtr) (data : ClientData) :
    Queues s (s.channelData channel data) := by
  rw [channelData]
  split
  · exact .refl s
  · exact (s.queues_queueEvent _ _).trans (queues_requestServiceUnlessBlocked _)

theorem queues_deleteChannel (s : ClientSession) (id : ChannelId) :
    Queues s (SessionWorld.deleteChannel s id).2 := by
  rw [SessionWorld.deleteChannel]
  split
  · exact .refl s
  · have hremove := s.queues_removePendingUnblockedChannel id
    dsimp only
    split
    · exact hremove
    · refine (hremove.trans (queues_removeBlockedQueue _ id)).trans ?_
      exact queues_of_eq rfl rfl rfl rfl rfl rfl rfl fun h => h

theorem queues_queueData (s : ClientSession) (id : ChannelId) (serId : MessageSerialId)
    (data : ClientData) : Queues s (s.queueData id serId data) := by
  have hset := s.queues_setBlockedQueue id (s.blockedQueue id ++ [⟨serId, 0, .data data⟩])
  rw [queueData.eq_def]
  dsimp only
  split
  · cases data with
    | text line => exact hset.trans (queues_disconnectSoon _)
    | message content =>
      exact hset.trans (queues_of_eq rfl rfl rfl rfl rfl rfl rfl fun _ => rfl)
  · exact hset

theorem queues_acknowledgeSoon (s : ClientSession) (serId : MessageSerialId) :
    Queues s (s.acknowledgeSoon serId) := by
  have hack : Queues s { s with incomingSerAck := serId, needsIncomingSerAckSent := true } :=
    queues_of_eq rfl rfl rfl rfl rfl rfl rfl fun h => h
  exact hack.trans (queues_requestServiceUnlessBlocked _)

end ClientSession

open ClientSession

/-- What channels do to a session only queues events. -/
theorem sessionRelation_queues : SessionRelation Queues where
  refl := .refl
  trans := .trans
  channelFlow := queues_channelFlow
  setBlockedQueue := queues_setBlockedQueue
  removeBlockedQueue := queues_removeBlockedQueue
  updateBlocked s info blocked := by
    have hupdate := s.queues_setBlocked info.id blocked
    split
    · exact hupdate
    · exact hupdate.trans (queues_queueEvent _ 0 _)
  takeUnblocked _ := queues_of_eq rfl rfl rfl rfl rfl rfl rfl fun h => h
  deleteChannel := queues_deleteChannel
  takeDeleted _ := queues_of_eq rfl rfl rfl rfl rfl rfl rfl fun h => h

theorem queues_sendData (w : SessionWorld) (info : ChannelInfo) (serId : MessageSerialId)
    (data : ClientData) (reaction : List ChannelCall) :
    Queues w.session (w.sendData info serId data reaction).session := by
  have hoffer := sessionRelation_queues.offer w info.id info.channel data reaction
  rw [SessionWorld.sendData]
  generalize w.offer info.id info.channel data reaction = offered at hoffer ⊢
  obtain ⟨accepted, w'⟩ := offered
  cases accepted with
  | true => exact hoffer
  | false =>
    dsimp only
    split
    · exact hoffer
    · split
      · exact (hoffer.trans (queues_setBlocked _ info.id true)).trans
          (queues_queueData _ info.id serId data)
      · exact hoffer

theorem queues_clientData (w : SessionWorld) (id : ChannelId) (serId : MessageSerialId)
    (data : ClientData) (reaction : List ChannelCall) :
    Queues w.session (w.clientData id serId data reaction).session := by
  have hack := w.session.queues_acknowledgeSoon serId
  rw [SessionWorld.clientData]
  split
  · exact .refl _
  · next info _ =>
    split
    · exact queues_disconnectSoon _
    · dsimp only
      split
      · exact hack.trans (queues_queueData _ id serId data)
      · split
        · exact hack
        · split
          · exact hack.trans (queues_disconnectSoon _)
          · exact hack.trans (queues_sendData
              (SessionWorld.receive { w with session := w.session.acknowledgeSoon serId } id data)
              info serId data reaction)

theorem queues_channelAdded {w w' : SessionWorld} {channel : ChannelPtr} {toClient : Bool}
    (h : w.channelAdded channel toClient = some w') : Queues w.session w'.session := by
  rw [SessionWorld.channelAdded, Option.map_eq_some_iff] at h
  obtain ⟨id, -, rfl⟩ := h
  refine Queues.trans ?_ (queues_queueEvent _ 0 _)
  refine Queues.trans ?_ (queues_requestServiceUnlessBlocked _)
  refine Queues.trans ?_ (queues_queueEvent _ 0 _)
  exact queues_of_eq rfl rfl rfl rfl rfl rfl rfl fun h => h

end Mutgos.CommInterface
