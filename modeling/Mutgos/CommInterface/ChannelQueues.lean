import Mutgos.CommInterface.SessionFrames

/-!
# Queues of channels

Data that cannot go on waits in the queue of its channel, as a channel is known to the session
by its ID.  What happens to queues and to the list of channels is said here; what is in them
comes after.

## Main results

* `SessionWorld.offer_cases` — **what is offered to a channel is taken exactly if the channel is
  open.**
-/

namespace Mutgos.CommInterface

open Channels Function List

namespace ClientSession

/-! ### Queues -/

theorem find?_setQueue (id id' : ChannelId) (queue : List RouterEvent)
    (entries : List (ChannelId × List RouterEvent)) :
    (setQueue id queue entries).find? (fun entry => entry.1 = id') =
      if id' = id then some (id, queue) else entries.find? fun entry => entry.1 = id' := by
  induction entries with
  | nil =>
    rw [setQueue, find?_singleton]
    by_cases heq : id' = id
    · rw [if_pos heq, if_pos (decide_eq_true heq.symm)]
    · rw [if_neg heq, if_neg (by simpa using Ne.symm heq), find?_nil]
  | cons entry entries ih =>
    rw [setQueue]
    by_cases hentry : entry.1 = id
    · rw [if_pos hentry]
      by_cases heq : id' = id
      · rw [if_pos heq, find?_cons_of_pos (by simpa using heq.symm)]
      · rw [if_neg heq, find?_cons_of_neg (by simpa using Ne.symm heq),
          find?_cons_of_neg (by simpa [hentry] using Ne.symm heq)]
    · rw [if_neg hentry]
      by_cases hsame : entry.1 = id'
      · rw [find?_cons_of_pos (by simpa using hsame), if_neg (by rwa [← hsame]),
          find?_cons_of_pos (by simpa using hsame)]
      · rw [find?_cons_of_neg (by simpa using hsame), ih,
          find?_cons_of_neg (by simpa using hsame)]

/-- One queue has been changed. -/
theorem blockedQueue_setBlockedQueue (s : ClientSession) (id : ChannelId)
    (queue : List RouterEvent) :
    (s.setBlockedQueue id queue).blockedQueue = update s.blockedQueue id queue := by
  funext id'
  rw [blockedQueue, setBlockedQueue]
  dsimp only
  rw [find?_setQueue]
  by_cases heq : id' = id
  · rw [if_pos heq, heq, update_self]
    rfl
  · rw [if_neg heq, update_of_ne heq]
    rfl

/-- Empty queues at the end may go. -/
theorem find?_rdropWhile (id : ChannelId) (entries : List (ChannelId × List RouterEvent)) :
    (((entries.rdropWhile fun entry => entry.2.isEmpty).find? fun entry => entry.1 = id).map
      Prod.snd).getD [] = ((entries.find? fun entry => entry.1 = id).map Prod.snd).getD [] := by
  induction entries using List.reverseRecOn with
  | nil => rfl
  | append_singleton entries entry ih =>
    by_cases hempty : entry.2.isEmpty = true
    · rw [rdropWhile_concat_pos (fun entry => entry.2.isEmpty) entries entry hempty, ih, find?_append]
      cases hfind : entries.find? (fun entry => entry.1 = id) with
      | some found => rfl
      | none =>
        rw [Option.none_or, find?_singleton]
        split
        · rw [Option.map_some, Option.getD_some, List.isEmpty_iff.mp hempty]
          rfl
        · rfl
    · rw [rdropWhile_concat_neg (fun entry => entry.2.isEmpty) entries entry hempty]

/-- One queue has been emptied. -/
theorem blockedQueue_removeBlockedQueue (s : ClientSession) (id : ChannelId) :
    (s.removeBlockedQueue id).blockedQueue = update s.blockedQueue id [] := by
  rw [removeBlockedQueue]
  split
  · rw [← blockedQueue_setBlockedQueue]
    funext id'
    exact find?_rdropWhile id' _
  · next hnone =>
    have hempty : s.blockedQueue id = [] := by
      rw [blockedQueue, find?_eq_none.mpr]
      · rfl
      · intro entry hentry heq
        exact hnone (any_eq_true.mpr ⟨entry, hentry, heq⟩)
    rw [← hempty, update_eq_self]

/-! ### Callbacks -/

end ClientSession

/-- A channel may be blocked or closed, but is the same channel still. -/
structure InfoStays (info info' : ChannelInfo) : Prop where
  id : info'.id = info.id
  channel : info'.channel = info.channel
  out : info'.out = info.out
  blocked : info.blocked = true → info'.blocked = true

theorem InfoStays.refl (info : ChannelInfo) : InfoStays info info :=
  ⟨rfl, rfl, rfl, fun h => h⟩

theorem InfoStays.trans {info info' info'' : ChannelInfo} (h : InfoStays info info')
    (h' : InfoStays info' info'') : InfoStays info info'' :=
  ⟨h'.id.trans h.id, h'.channel.trans h.channel, h'.out.trans h.out,
    fun hblocked => h'.blocked (h.blocked hblocked)⟩

namespace ClientSession

/-- The queues are as they were, the channels are the same channels, and none is closed now but
those that are closing. -/
structure KeepsChannels (closing : ChannelPtr → Prop) (s s' : ClientSession) : Prop where
  blockedChannelQueues : s'.blockedChannelQueues = s.blockedChannelQueues
  activeChannels : ∃ f : ChannelInfo → ChannelInfo,
    s'.activeChannels = s.activeChannels.map f ∧ ∀ info, InfoStays info (f info)
  closes : (s.activeChannels.map ChannelInfo.id).Nodup → ∀ info' ∈ s'.activeChannels,
    info'.closed = true → closing info'.channel ∨
      ∃ info ∈ s.activeChannels, info.channel = info'.channel ∧ info.closed = true

variable {closing : ChannelPtr → Prop} {s s' : ClientSession}

/-- Nothing is closed. -/
theorem keepsChannels_of_map (hqueues : s'.blockedChannelQueues = s.blockedChannelQueues)
    {f : ChannelInfo → ChannelInfo} (hf : s'.activeChannels = s.activeChannels.map f)
    (hstays : ∀ info, InfoStays info (f info)) (hclosed : ∀ info, (f info).closed = info.closed) :
    KeepsChannels closing s s' := by
  refine ⟨hqueues, ⟨f, hf, hstays⟩, fun _ info' hinfo' hclosed' => .inr ?_⟩
  rw [hf] at hinfo'
  obtain ⟨info, hinfo, rfl⟩ := mem_map.mp hinfo'
  exact ⟨info, hinfo, (hstays info).channel.symm, (hclosed info).symm.trans hclosed'⟩

theorem keepsChannels_of_eq (hqueues : s'.blockedChannelQueues = s.blockedChannelQueues)
    (hactive : s'.activeChannels = s.activeChannels) : KeepsChannels closing s s' :=
  keepsChannels_of_map hqueues (f := fun info => info) (by rw [hactive, map_id']) .refl
    fun _ => rfl

theorem KeepsChannels.refl (s : ClientSession) : KeepsChannels closing s s :=
  keepsChannels_of_eq rfl rfl

section

variable (h : KeepsChannels closing s s')
include h

theorem KeepsChannels.map_id :
    s'.activeChannels.map ChannelInfo.id = s.activeChannels.map ChannelInfo.id := by
  obtain ⟨f, hf, hstays⟩ := h.activeChannels
  rw [hf, map_map]
  exact map_congr_left fun info _ => (hstays info).id

theorem KeepsChannels.trans {s'' : ClientSession} (h' : KeepsChannels closing s' s'') :
    KeepsChannels closing s s'' := by
  obtain ⟨f, hf, hstays⟩ := h.activeChannels
  obtain ⟨f', hf', hstays'⟩ := h'.activeChannels
  refine ⟨h'.blockedChannelQueues.trans h.blockedChannelQueues,
    ⟨f' ∘ f, by rw [hf', hf, map_map], fun info => (hstays info).trans (hstays' (f info))⟩,
    fun hnodup info'' hinfo'' hclosed => ?_⟩
  rcases h'.closes (h.map_id ▸ hnodup) info'' hinfo'' hclosed with
    hclosing | ⟨info', hinfo', hchannel', hclosed'⟩
  · exact .inl hclosing
  · rcases h.closes hnodup info' hinfo' hclosed' with
      hclosing | ⟨info, hinfo, hchannel, hclosed⟩
    · exact .inl (hchannel' ▸ hclosing)
    · exact .inr ⟨info, hinfo, hchannel.trans hchannel', hclosed⟩

theorem KeepsChannels.mono {closing' : ChannelPtr → Prop}
    (hle : ∀ channel, closing channel → closing' channel) : KeepsChannels closing' s s' :=
  ⟨h.blockedChannelQueues, h.activeChannels, fun hnodup info' hinfo' hclosed =>
    (h.closes hnodup info' hinfo' hclosed).imp_left (hle info'.channel)⟩

theorem KeepsChannels.blockedQueue : s'.blockedQueue = s.blockedQueue := by
  funext id
  rw [ClientSession.blockedQueue, ClientSession.blockedQueue, h.blockedChannelQueues]

/-- Each channel was there before. -/
theorem KeepsChannels.exists_before {info' : ChannelInfo} (hinfo : info' ∈ s'.activeChannels) :
    ∃ info ∈ s.activeChannels, InfoStays info info' := by
  obtain ⟨f, hf, hstays⟩ := h.activeChannels
  rw [hf] at hinfo
  obtain ⟨info, hmem, rfl⟩ := mem_map.mp hinfo
  exact ⟨info, hmem, hstays info⟩

/-- Each channel is still there. -/
theorem KeepsChannels.exists_after {info : ChannelInfo} (hinfo : info ∈ s.activeChannels) :
    ∃ info' ∈ s'.activeChannels, InfoStays info info' := by
  obtain ⟨f, hf, hstays⟩ := h.activeChannels
  exact ⟨f info, hf ▸ mem_map_of_mem hinfo, hstays info⟩

end

theorem keepsChannels_requestServiceUnlessBlocked (s : ClientSession) :
    KeepsChannels closing s s.requestServiceUnlessBlocked := by
  rw [requestServiceUnlessBlocked]
  split
  · exact .refl s
  · exact keepsChannels_of_eq rfl rfl

theorem keepsChannels_removePendingUnblockedChannel (s : ClientSession) (id : ChannelId) :
    KeepsChannels closing s (s.removePendingUnblockedChannel id) := by
  rw [removePendingUnblockedChannel]
  split
  · exact keepsChannels_of_eq rfl rfl
  · exact .refl s

theorem keepsChannels_setBlocked (s : ClientSession) (id : ChannelId) :
    KeepsChannels closing s (s.setBlocked id true) := by
  refine keepsChannels_of_map rfl rfl (fun info => ?_) fun info => ?_
  · split
    · exact ⟨rfl, rfl, rfl, fun _ => rfl⟩
    · exact .refl info
  · dsimp only
    split <;> rfl

theorem keepsChannels_channelFlowClosed (s : ClientSession) {channel : ChannelPtr}
    (hclosing : closing channel) : KeepsChannels closing s (s.channelFlowClosed channel) := by
  rw [channelFlowClosed]
  split
  · exact .refl s
  · next info hinfo =>
    refine KeepsChannels.trans ?_ (keepsChannels_requestServiceUnlessBlocked _)
    refine ⟨rfl, ⟨fun info' => if info'.id = info.id then { info' with closed := true } else info',
      rfl, fun info' => ?_⟩, fun hnodup info' hinfo' hclosed => ?_⟩
    · dsimp only
      split
      · exact ⟨rfl, rfl, rfl, fun h => h⟩
      · exact .refl info'
    · have hmem : info ∈ s.activeChannels := mem_of_find?_eq_some hinfo
      have hchannel : info.channel = channel := by simpa using find?_some hinfo
      obtain ⟨first, hfirst, rfl⟩ := mem_map.mp hinfo'
      by_cases hid : first.id = info.id
      · -- this is the channel that has called
        have hsame : first = info := inj_on_of_nodup_map hnodup hfirst hmem hid
        rw [if_pos hid, hsame]
        exact .inl (hchannel ▸ hclosing)
      · rw [if_neg hid] at hclosed ⊢
        exact .inr ⟨first, hfirst, rfl, hclosed⟩

/-- A status that closes a channel, as far as the session is told. -/
def tellsClosed : FlowStatus → Bool
  | .flowClosed | .destructed => true
  | _ => false

theorem keepsChannels_channelFlow (s : ClientSession) {channel : ChannelPtr}
    {status : FlowStatus} (hclosing : tellsClosed status = true → closing channel) :
    KeepsChannels closing s (s.channelFlow channel status) := by
  cases status with
  | flowBlocked =>
    rw [channelFlow, channelFlowBlocked]
    split
    · exact .refl s
    · next info _ =>
      split
      · exact .refl s
      · have hremove : KeepsChannels closing s (s.removePendingUnblockedChannel info.id) :=
          s.keepsChannels_removePendingUnblockedChannel info.id
        dsimp only
        split
        · exact hremove
        · refine KeepsChannels.trans ?_ (keepsChannels_requestServiceUnlessBlocked _)
          exact (hremove.trans (keepsChannels_setBlocked _ info.id)).trans
            (keepsChannels_of_eq rfl rfl)
  | flowOpen =>
    rw [channelFlow, channelFlowOpen]
    split
    · exact .refl s
    · next info _ =>
      split
      · exact .refl s
      · refine KeepsChannels.trans ?_ (keepsChannels_requestServiceUnlessBlocked _)
        rw [addPendingUnblockedChannel]
        split
        · exact keepsChannels_of_eq rfl rfl
        · exact .refl s
  | flowClosed => exact s.keepsChannels_channelFlowClosed (hclosing rfl)
  | destructed => exact s.keepsChannels_channelFlowClosed (hclosing rfl)

end ClientSession

open ClientSession

/-- **Callbacks keep the queues and the channels.** -/
theorem keepsChannels_tell {closing : ChannelPtr → Prop} (w : SessionWorld) {channel : ChannelPtr}
    {told : List (FlowRecipient × FlowStatus)}
    (hclosing : ∀ notice ∈ told, tellsClosed notice.2 = true → closing channel) :
    KeepsChannels closing w.session (w.tell channel told).session := by
  rw [SessionWorld.tell]
  dsimp only
  generalize w.session = s
  induction told generalizing s with
  | nil => exact .refl s
  | cons notice told ih =>
    rw [foldl_cons]
    refine KeepsChannels.trans ?_ (ih (fun later hlater => hclosing later (.tail notice hlater)) _)
    split
    · exact s.keepsChannels_channelFlow (hclosing notice (.head told))
    · exact .refl s

/-! ### Calls of channels -/

/-- A channel that has been called. -/
structure ChannelStays (c c' : Channel) : Prop where
  settled : c'.Settled
  type : c'.type = c.type
  closed : c.closed = true → c'.closed = true

variable {c : Channel}

theorem ChannelStays.refl (h : c.Settled) : ChannelStays c c :=
  ⟨h, rfl, fun h => h⟩

theorem ChannelStays.trans {c' c'' : Channel} (h : ChannelStays c c') (h' : ChannelStays c' c'') :
    ChannelStays c c'' :=
  ⟨h'.settled, h'.type.trans h.type, fun hclosed => h'.closed (h.closed hclosed)⟩

theorem channelStays_call (h : c.Settled) (call : ChannelCall) :
    ChannelStays c (c.call call).channel := by
  refine ⟨h.call call, ?_, fun hclosed => ?_⟩
  · rw [(h.call_cases call).1]
    cases call with
    | send => rfl
    | close => rfl
    | _ =>
      rw [Channel.fieldsAfter]
      split_ifs <;> rfl
  · rw [h.closed_call, hclosed, Bool.true_or]

namespace SessionWorld

/-- The channels are the same channels still, for the session too. -/
structure ChannelsStay (w w' : SessionWorld) : Prop where
  session : KeepsChannels (fun channel => (w'.channels channel).closed = true) w.session
    w'.session
  channels : ∀ channel, ChannelStays (w.channels channel) (w'.channels channel)

/-- Channels have been called, and the session has been called back. -/
structure CallsChannels (w w' : SessionWorld) : Prop extends ChannelsStay w w' where
  received : w'.received = w.received
  handed : w'.handed = w.handed
  overtaken : w'.overtaken = w.overtaken
  miscast : w'.miscast = w.miscast

variable {w w' : SessionWorld}

theorem ChannelsStay.refl (h : ∀ channel, (w.channels channel).Settled) : ChannelsStay w w :=
  ⟨.refl _, fun channel => .refl (h channel)⟩

theorem ChannelsStay.trans {w'' : SessionWorld} (h : ChannelsStay w w') (h' : ChannelsStay w' w'') :
    ChannelsStay w w'' :=
  ⟨(h.session.mono fun channel => (h'.channels channel).closed).trans h'.session,
    fun channel => (h.channels channel).trans (h'.channels channel)⟩

theorem ChannelsStay.settled (h : ChannelsStay w w') (channel : ChannelPtr) :
    (w'.channels channel).Settled := (h.channels channel).settled

theorem CallsChannels.refl (h : ∀ channel, (w.channels channel).Settled) : CallsChannels w w :=
  ⟨.refl h, rfl, rfl, rfl, rfl⟩

theorem CallsChannels.trans {w'' : SessionWorld} (h : CallsChannels w w')
    (h' : CallsChannels w' w'') : CallsChannels w w'' :=
  ⟨h.toChannelsStay.trans h'.toChannelsStay, h'.received.trans h.received,
    h'.handed.trans h.handed, h'.overtaken.trans h.overtaken, h'.miscast.trans h.miscast⟩

/-- Who is told that a channel is closed has been told so by a closed channel. -/
theorem closed_of_told {c : Channel} (h : c.Settled) {call : ChannelCall}
    {notice : FlowRecipient × FlowStatus} (hnotice : notice ∈ (c.call call).told)
    (hcloses : tellsClosed notice.2 = true) : (c.call call).channel.closed = true := by
  obtain ⟨hchannel, htold⟩ := h.call_cases call
  rw [htold] at hnotice
  split at hnotice
  · cases hnotice
  · obtain ⟨recipient, -, rfl⟩ := mem_map.mp hnotice
    rw [hchannel]
    dsimp only at hcloses ⊢
    rw [Channel.effectiveStatus] at hcloses
    split at hcloses
    · assumption
    · split at hcloses <;> cases hcloses

theorem callsChannels_callChannel (h : ∀ channel, (w.channels channel).Settled)
    (channel : ChannelPtr) (call : ChannelCall) :
    CallsChannels w (w.callChannel channel call).2 := by
  have hcalled : (w.callChannel channel call).2.channels =
      update w.channels channel ((w.channels channel).call call).channel := rfl
  refine ⟨⟨?_, fun channel' => ?_⟩, rfl, rfl, rfl, rfl⟩
  · refine keepsChannels_tell
      { w with
        channels := update w.channels channel ((w.channels channel).call call).channel }
      fun notice hnotice hcloses => ?_
    rw [hcalled, update_self]
    exact closed_of_told (h channel) hnotice hcloses
  change ChannelStays _ (update w.channels channel
    ((w.channels channel).call call).channel channel')
  by_cases heq : channel' = channel
  · rw [heq, update_self]
    exact channelStays_call (h channel) call
  · rw [update_of_ne heq]
    exact .refl (h channel')

theorem callsChannels_react (h : ∀ channel, (w.channels channel).Settled) (channel : ChannelPtr)
    (reaction : List ChannelCall) : CallsChannels w (w.react channel reaction) := by
  induction reaction generalizing w with
  | nil => exact .refl h
  | cons call reaction ih =>
    have hcall := callsChannels_callChannel h channel call
    exact hcall.trans (ih hcall.settled)

/-- An item leaves the channel as it is. -/
theorem callChannel_send {channel : ChannelPtr} (h : (w.channels channel).Settled) :
    w.callChannel channel .send = (decide ((w.channels channel).effectiveStatus = .flowOpen), w) := by
  rw [callChannel, Channel.call, h.sendItem]
  dsimp only
  rw [update_eq_self]
  rfl

/-- **What is offered to a channel is taken exactly if the channel is open.** -/
theorem offer_cases (h : ∀ channel, (w.channels channel).Settled) (id : ChannelId)
    (channel : ChannelPtr) (data : ClientData) (reaction : List ChannelCall) :
    (∃ w', w.offer id channel data reaction = (true, w') ∧
        (w.channels channel).closed = false ∧
        CallsChannels
          { w with
            overtaken := w.overtaken || w.overtakes id channel data
            handed := update w.handed id (w.handed id ++ [data]) } w') ∨
      (w.offer id channel data reaction =
          (false, { w with overtaken := w.overtaken || w.overtakes id channel data }) ∧
        ((w.channels channel).closed = true ∨ (w.channels channel).blocked = true)) := by
  have hsend := callChannel_send
    (w := { w with overtaken := w.overtaken || w.overtakes id channel data }) (h channel)
  rw [offer]
  dsimp only at hsend ⊢
  rw [hsend]
  by_cases hopen : (w.channels channel).effectiveStatus = .flowOpen
  · rw [decide_eq_true hopen]
    exact .inl ⟨_, rfl, (Channel.effectiveStatus_eq_flowOpen.mp hopen).1,
      callsChannels_react (w := { w with
        overtaken := w.overtaken || w.overtakes id channel data
        handed := update w.handed id (w.handed id ++ [data]) }) h channel reaction⟩
  · rw [decide_eq_false hopen]
    refine .inr ⟨rfl, ?_⟩
    rw [Channel.effectiveStatus_eq_flowOpen, not_and_or, Bool.not_eq_false,
      Bool.not_eq_false] at hopen
    exact hopen

/-! ### Deleted channels -/

theorem removeChannelInfo_perm (info : ChannelInfo) (infos : List ChannelInfo) :
    (removeChannelInfo info infos).Perm (infos.erase info) := by
  rw [removeChannelInfo]
  split
  · exact .refl _
  · exact VectorSet.swapRemove_perm info infos

/-- A channel is deleted with its queue. -/
theorem deleteChannel_cases {closing : ChannelPtr → Prop} {s : ClientSession}
    (hnodup : (s.activeChannels.map ChannelInfo.id).Nodup) (id : ChannelId) :
    KeepsChannels closing s (deleteChannel s id).2 ∨
      (deleteChannel s id).2.blockedQueue = update s.blockedQueue id [] ∧
        ((deleteChannel s id).2.activeChannels.map ChannelInfo.id).Nodup ∧
        ∀ info, info ∈ (deleteChannel s id).2.activeChannels ↔
          info ∈ s.activeChannels ∧ info.id ≠ id := by
  rw [deleteChannel]
  split
  · exact .inl (.refl s)
  · have hremove : KeepsChannels closing s (s.removePendingUnblockedChannel id) :=
      s.keepsChannels_removePendingUnblockedChannel id
    dsimp only
    have hactive : (s.removePendingUnblockedChannel id).activeChannels = s.activeChannels := by
      rw [removePendingUnblockedChannel]
      split <;> rfl
    split
    · exact .inl hremove
    · next info hinfo =>
      right
      rw [getChannelInfo, hactive] at hinfo
      have hmem := mem_of_find?_eq_some hinfo
      have hid : info.id = id := by simpa using find?_some hinfo
      have hactive' : ((s.removePendingUnblockedChannel id).removeBlockedQueue id).activeChannels =
          s.activeChannels := by
        rw [removeBlockedQueue]
        split <;> exact hactive
      have hperm := removeChannelInfo_perm info s.activeChannels
      have hnodup' : s.activeChannels.Nodup := .of_map _ hnodup
      refine ⟨?_, ?_, fun info' => ?_⟩
      · change ((s.removePendingUnblockedChannel id).removeBlockedQueue id).blockedQueue = _
        rw [blockedQueue_removeBlockedQueue, hremove.blockedQueue]
      · change ((removeChannelInfo info ((s.removePendingUnblockedChannel id).removeBlockedQueue
          id).activeChannels).map ChannelInfo.id).Nodup
        rw [hactive', (hperm.map ChannelInfo.id).nodup_iff]
        exact (erase_sublist.map ChannelInfo.id).nodup hnodup
      · change info' ∈ removeChannelInfo info ((s.removePendingUnblockedChannel
          id).removeBlockedQueue id).activeChannels ↔ _
        rw [hactive', hperm.mem_iff, hnodup'.mem_erase_iff, and_comm, and_congr_right_iff]
        intro hmem'
        rw [not_iff_not, ← hid]
        exact ⟨fun heq => by rw [heq], fun heq => inj_on_of_nodup_map hnodup hmem' hmem heq⟩

end SessionWorld

end Mutgos.CommInterface
