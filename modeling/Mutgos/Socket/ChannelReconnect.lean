import Mutgos.Socket.ChannelSnapshot

/-!
# What a telnet connection knows after a reconnect

Whatever channels do while connections come and go, a connection ends with what it would know of
them had it heard every event from the start, if `Restorable` holds where it is told of the
channels there are.  A puppet's channel that is open breaks this: it ends on a stack, and the
puppet has no name.

## Main results

* `ReconnectingSession.restored_of_steps` — **the connection knows what it should, in every state
  of a run whose steps are allowed.**
-/

namespace Mutgos.Socket

open CommInterface Text ChannelTables List

/-- Two connections know the same channels, with the same marks, the same main input and the same
puppets. -/
structure ChannelTables.Same (t t' : ChannelTables) : Prop where
  onStacks : ∀ out, ∀ entry, entry ∈ t.stack out ↔ entry ∈ t'.stack out
  main : t.channelMainInputId = t'.channelMainInputId
  puppets : ∀ id, SortedMap.find id t.puppetChannelInfo = SortedMap.find id t'.puppetChannelInfo

namespace ReconnectingSession

/-- **What the connection knows, once it has heard what it has yet to hear, is what it would know
had it heard every event from the start**; no channel is on a stack twice, and none that is
closed. -/
structure Restored (w : ReconnectingSession) : Prop where
  same : w.replayed.Same w.reference
  distinct : w.replayed.Distinct
  opened : ∀ out, ∀ entry ∈ w.replayed.stack out,
    ∃ c ∈ w.activeChannels, c.closed = false ∧ c.out = out ∧ c.id = entry.1

/-- Where a connection is told of the channels there are, these and the events that are not
acknowledged say what all events do. -/
def Allowed (w : ReconnectingSession) : Action → Prop
  | .finishProcessPending _ =>
    w.needHandleReconnect = true → w.needDisconnect = false →
      Restorable w.activeChannels w.log w.unacknowledged
  | _ => True

instance (w : ReconnectingSession) (action : Action) : Decidable (w.Allowed action) := by
  cases action <;> unfold Allowed <;> infer_instance

/-! ### Tables and functions -/

variable {t : ChannelTables} {c : NamedChannel}

theorem distinct_foldl (h : t.Distinct) (events : List NamedStatusChange) :
    (events.foldl clientChannelStatusChanged t).Distinct := by
  induction events generalizing t with
  | nil => exact h
  | cons e events ih => exact ih (h.clientChannelStatusChanged e)

theorem view_foldl (h : t.Distinct) (events : List NamedStatusChange) :
    (events.foldl clientChannelStatusChanged t).view = t.view.replay events := by
  induction events generalizing t with
  | nil => rfl
  | cons e events ih =>
    rw [foldl_cons, ih (h.clientChannelStatusChanged e),
      view_clientChannelStatusChanged h, View.replay_cons]

theorem mem_stack_iff (h : t.Distinct) (out : Bool) (entry : ChannelId × Bool) :
    entry ∈ t.stack out ↔ t.view.mark (out, entry.1) = some entry.2 := by
  constructor
  · intro hmem
    exact SortedMap.find_of_mem (h out) hmem
  · exact SortedMap.mem_of_find

/-- The reference has the view of all events. -/
theorem view_reference (w : ReconnectingSession) : w.reference.view = known w.log := by
  rw [reference, view_foldl distinct_new, view_new]
  rfl

theorem same_of_view {t' : ChannelTables} (h : t.Distinct) (h' : t'.Distinct)
    (hview : t.view = t'.view) : t.Same t' where
  onStacks out entry := by rw [mem_stack_iff h, mem_stack_iff h', hview]
  main := congrArg View.main hview
  puppets id := congrFun (congrArg View.puppet hview) id

/-- What a connection learns from `get_current_channel_info`. -/
theorem view_getCurrentChannelInfo {w : ReconnectingSession} (h : Books w.activeChannels w.log) :
    let t := new.clientSendAcknowledgeDataReconnect w.getCurrentChannelInfo
    t.Distinct ∧ t.view = learned w.activeChannels := by
  have hvalid : w.activeChannels.filter NamedChannel.valid = w.activeChannels :=
    filter_eq_self.mpr h.valid
  have hkeys : KeyedVector.Distinct ClientChannelInfo.key
      (w.activeChannels.map NamedChannel.clientChannelInfo) := by
    have hids := h.distinct
    rw [KeyedVector.Distinct, map_map]
    have hproj : w.activeChannels.map (fun c => c.id) =
        (w.activeChannels.map (ClientChannelInfo.key ∘ NamedChannel.clientChannelInfo)).map
          Prod.snd := by
      rw [map_map]
      rfl
    rw [KeyedVector.Distinct, hproj] at hids
    exact hids.of_map _
  obtain ⟨hdistinct, hview⟩ := view_clientSendAcknowledgeDataReconnect hkeys
  rw [getCurrentChannelInfo, hvalid]
  refine ⟨hdistinct, hview.trans (View.ext ?_ ?_ rfl)⟩
  · funext key
    dsimp only [learned]
    rw [find?_map, Option.map_map]
    rfl
  · dsimp only [learned]
    rw [PendingEvents.lastAbout, ← map_reverse, find?_map, Option.map_map]
    rfl

/-! ### Channels are removed -/

theorem deleteFrom_cases (channels : List NamedChannel) (id : ChannelId) :
    (∀ c ∈ channels, c.id ≠ id) ∧ deleteFrom channels id = channels ∨
      ∃ front c back, channels = front ++ c :: back ∧ c.id = id ∧
        (deleteFrom channels id).Perm (front ++ back) := by
  cases hfind : channels.findIdx? fun c => decide (c.id = id) with
  | none =>
    left
    have hnone := findIdx?_eq_none_iff.mp hfind
    refine ⟨fun c hc => of_decide_eq_false (hnone c hc), ?_⟩
    rw [deleteFrom, hfind]
  | some i =>
    right
    obtain ⟨hi, hid, -⟩ := findIdx?_eq_some_iff_getElem.mp hfind
    have hsplit : channels = channels.take i ++ channels[i] :: channels.drop (i + 1) := by
      rw [← drop_eq_getElem_cons hi, take_append_drop]
    have hlen : (channels.take i).length = i := length_take_of_le (Nat.le_of_lt hi)
    refine ⟨channels.take i, channels[i], channels.drop (i + 1), hsplit, of_decide_eq_true hid, ?_⟩
    have hne : channels ≠ [] := ne_nil_of_length_pos (Nat.zero_lt_of_lt hi)
    rw [deleteFrom, hfind]
    dsimp only
    rw [getElem?_eq_getElem hi, getLast?_eq_some_getLast hne]
    dsimp only
    split
    · rw [eraseIdx_eq_take_drop_succ]
    · next hchannel =>
      -- it is not the last one, for the addresses differ
      have hlast : i + 1 ≠ channels.length := by
        intro heq
        refine hchannel (congrArg (fun c : NamedChannel => c.channel) ?_)
        rw [getLast_eq_getElem]
        congr 1
        omega
      have hperm := KeyedVector.swapRemoveAt_perm (channels.take i) channels[i]
        (channels.drop (i + 1))
      rw [← hsplit, hlen, KeyedVector.swapRemoveAt, if_neg hlast,
        getLast?_eq_some_getLast hne] at hperm
      exact hperm

variable {channels : List NamedChannel}

/-- The ID of a channel. -/
def idOf (c : NamedChannel) : ChannelId := c.id

theorem mem_deleteFrom (h : KeyedVector.Distinct idOf channels) (id : ChannelId) :
    c ∈ deleteFrom channels id ↔ c ∈ channels ∧ c.id ≠ id := by
  obtain ⟨hnone, heq⟩ | ⟨front, d, back, rfl, rfl, hperm⟩ := deleteFrom_cases channels id
  · rw [heq]
    exact ⟨fun hc => ⟨hc, hnone c hc⟩, fun hc => hc.1⟩
  · exact KeyedVector.mem_of_perm_remove h hperm

theorem distinct_deleteFrom (h : KeyedVector.Distinct idOf channels) (id : ChannelId) :
    KeyedVector.Distinct idOf (deleteFrom channels id) := by
  obtain ⟨-, heq⟩ | ⟨front, d, back, rfl, -, hperm⟩ := deleteFrom_cases channels id
  · rw [heq]
    exact h
  · exact h.of_perm_remove hperm

/-- Many are removed. -/
theorem foldl_deleteFrom (h : KeyedVector.Distinct idOf channels) (ids : List ChannelId) :
    KeyedVector.Distinct idOf (ids.foldl deleteFrom channels) ∧
      ∀ c, c ∈ ids.foldl deleteFrom channels ↔ c ∈ channels ∧ c.id ∉ ids := by
  induction ids generalizing channels with
  | nil => exact ⟨h, fun c => by simp⟩
  | cons id ids ih =>
    obtain ⟨hdistinct, hmem⟩ := ih (distinct_deleteFrom h id)
    refine ⟨hdistinct, fun c => ?_⟩
    rw [foldl_cons, hmem, mem_deleteFrom h, mem_cons, not_or, and_assoc]

/-! ### The invariant -/

/-- What holds all through a run. -/
structure Invariant (w : ReconnectingSession) : Prop where
  books : Books w.activeChannels w.log
  /-- The channels that wait to be removed are those that are closed. -/
  pendingDelete : ∀ id, id ∈ w.pendingChannelsDelete ↔
    ∃ c ∈ w.activeChannels, c.id = id ∧ c.closed = true
  /-- One that is closed after they have been removed is not told of before the turn ends. -/
  working : w.processing = .working → ∀ c ∈ w.activeChannels, c.closed = true →
    c.makeChannelStatusChange .statusClose ∈ w.outgoingEvents
  /-- A connection that replaces another one knows nothing until it is told. -/
  clean : w.needHandleReconnect = true → w.client = .new
  distinct : w.client.Distinct
  agrees : w.needHandleReconnect = false → w.needDisconnect = false →
    w.client.view.replay w.toReplay = known w.log

variable {w w' : ReconnectingSession}

theorem invariant_start : start.Invariant where
  books := .nil
  pendingDelete id := by simp [start]
  working h := absurd h nofun
  clean h := absurd h nofun
  distinct := distinct_new
  agrees _ _ := view_new

/-- Channels change, and events tell of it. -/
theorem Invariant.update (h : w.Invariant) {pendingDelete : List ChannelId}
    {events : List NamedStatusChange} (hbooks : Books channels (w.log ++ events))
    (hpending : ∀ id, id ∈ pendingDelete ↔ ∃ c ∈ channels, c.id = id ∧ c.closed = true)
    (hworking : w.processing = .working → ∀ c ∈ channels, c.closed = true →
      c.makeChannelStatusChange .statusClose ∈ w.outgoingEvents ++ events) :
    { w with
      activeChannels := channels
      pendingChannelsDelete := pendingDelete
      outgoingEvents := w.outgoingEvents ++ events }.Invariant := by
  have hlog : log { w with
      activeChannels := channels
      pendingChannelsDelete := pendingDelete
      outgoingEvents := w.outgoingEvents ++ events } = w.log ++ events :=
    (append_assoc _ _ _).symm
  refine ⟨?_, hpending, hworking, h.clean, h.distinct, fun hneed hdisconnect => ?_⟩
  · rw [hlog]
    exact hbooks
  · have hreplay : toReplay { w with
        activeChannels := channels
        pendingChannelsDelete := pendingDelete
        outgoingEvents := w.outgoingEvents ++ events } = w.toReplay ++ events := by
      unfold toReplay unacknowledged
      dsimp only
      split
      · exact (append_assoc _ _ _).symm
      · rfl
    rw [hreplay, View.replay_append, h.agrees hneed hdisconnect, hlog]
    exact (View.replay_append _ _ _).symm

/-! ### What channels do -/

/-- Whether a channel is blocked is changed. -/
def setBlockedIn (channels : List NamedChannel) (id : ChannelId) (blocked : Bool) :
    List NamedChannel :=
  channels.map fun c => if c.id = id then { c with blocked := blocked } else c

theorem exists_mem_setBlockedIn (hc : c ∈ channels) (id : ChannelId) (blocked : Bool) :
    ∃ b, { c with blocked := b } ∈ setBlockedIn channels id blocked := by
  by_cases hid : c.id = id
  · exact ⟨blocked, mem_map.mpr ⟨c, hc, if_pos hid⟩⟩
  · exact ⟨c.blocked, mem_map.mpr ⟨c, hc, if_neg hid⟩⟩

theorem exists_of_mem_setBlockedIn {c' : NamedChannel} {id : ChannelId} {blocked : Bool}
    (hc' : c' ∈ setBlockedIn channels id blocked) :
    ∃ c ∈ channels, ∃ b, c' = { c with blocked := b } := by
  obtain ⟨c, hc, rfl⟩ := mem_map.mp hc'
  split
  · exact ⟨c, hc, blocked, rfl⟩
  · exact ⟨c, hc, c.blocked, rfl⟩

/-- Whether a channel is blocked is changed, and events tell of it, or not. -/
theorem Invariant.setBlocked (h : w.Invariant) (id : ChannelId) (blocked : Bool)
    {events : List NamedStatusChange} (hbooks : Books w.activeChannels (w.log ++ events)) :
    { w with
      activeChannels := setBlockedIn w.activeChannels id blocked
      outgoingEvents := w.outgoingEvents ++ events }.Invariant := by
  refine h.update (hbooks.congr ?_ ?_ ?_) ?_ ?_
  · rw [setBlockedIn, map_map]
    refine map_congr_left fun c _ => ?_
    dsimp only [Function.comp]
    split <;> rfl
  · exact fun c hc => exists_mem_setBlockedIn hc id blocked
  · exact fun c hc => exists_of_mem_setBlockedIn hc
  · intro id'
    rw [h.pendingDelete]
    constructor
    · rintro ⟨c, hc, hrest⟩
      obtain ⟨b, hb⟩ := exists_mem_setBlockedIn hc id blocked
      exact ⟨_, hb, hrest⟩
    · rintro ⟨c', hc', hrest⟩
      obtain ⟨c, hc, b, rfl⟩ := exists_of_mem_setBlockedIn hc'
      exact ⟨c, hc, hrest⟩
  · intro hworking c' hc' hclosed
    obtain ⟨c, hc, b, rfl⟩ := exists_of_mem_setBlockedIn hc'
    exact mem_append_left _ (h.working hworking c hc hclosed)

theorem Invariant.setBlockedSilently (h : w.Invariant) (id : ChannelId) (blocked : Bool) :
    { w with activeChannels := setBlockedIn w.activeChannels id blocked }.Invariant := by
  have hbooks : Books w.activeChannels (w.log ++ []) := by
    rw [append_nil]
    exact h.books
  have hset := h.setBlocked id blocked hbooks
  rw [append_nil] at hset
  exact hset

theorem mem_of_getChannelInfo {id : ChannelId} (hget : w.getChannelInfo id = some c) :
    c ∈ w.activeChannels :=
  mem_of_find?_eq_some hget

theorem mem_of_getChannelInfoOf {channel : ChannelPtr}
    (hget : w.getChannelInfoOf channel = some c) : c ∈ w.activeChannels :=
  mem_of_find?_eq_some hget

section

variable (h : w.Invariant)
include h

theorem Invariant.channelAdded {id : ChannelId} {channel : ChannelPtr}
    (channelName channelSubtype : ByteString) (toClient channelIsBlocked : Bool)
    (hchannel : channel ≠ 0) (hid : ∀ c ∈ w.activeChannels, c.id ≠ id) :
    (w.channelAdded id channel channelName channelSubtype toClient channelIsBlocked).Invariant := by
  unfold ReconnectingSession.channelAdded queueStatusChange
  dsimp only
  generalize hinfo : (NamedChannel.mk (ChannelInfo.mk id channel toClient false
    (!toClient && channelIsBlocked)) channelName channelSubtype) = info
  have hvalid : info.valid = true := by rw [← hinfo]; exact decide_eq_true hchannel
  have hopen : info.closed = false := by rw [← hinfo]
  have hinfoid : info.id = id := by rw [← hinfo]
  have hnew : ∀ d ∈ w.activeChannels, d.id ≠ info.id := fun d hd => hinfoid ▸ hid d hd
  have hmark : ∀ blocked : Bool, (if blocked then ChannelStatus.statusBlock else .statusUnblock) =
      .statusBlock ∨ (if blocked then ChannelStatus.statusBlock else .statusUnblock) =
        .statusUnblock := by decide
  have hbooks := h.books.add hvalid hopen hnew (hmark (!toClient && channelIsBlocked))
  rw [append_assoc] at hbooks ⊢
  refine h.update hbooks ?_ ?_
  · intro id'
    rw [h.pendingDelete]
    constructor
    · rintro ⟨c, hc, hrest⟩
      exact ⟨c, mem_append_left _ hc, hrest⟩
    · rintro ⟨c, hc, hcid, hclosed⟩
      rcases mem_append.mp hc with hc | hc
      · exact ⟨c, hc, hcid, hclosed⟩
      · obtain rfl := mem_singleton.mp hc
        exact absurd (hopen.symm.trans hclosed) nofun
  · intro hworking c hc hclosed
    rcases mem_append.mp hc with hc | hc
    · exact mem_append_left _ (h.working hworking c hc hclosed)
    · obtain rfl := mem_singleton.mp hc
      exact absurd (hopen.symm.trans hclosed) nofun

theorem Invariant.channelFlowBlocked (channel : ChannelPtr) :
    (w.channelFlowBlocked channel).Invariant := by
  unfold ReconnectingSession.channelFlowBlocked
  cases hget : w.getChannelInfoOf channel with
  | none => exact h
  | some info =>
    dsimp only
    split
    · exact h
    · exact h.setBlocked info.id true
        (h.books.mark (mem_of_getChannelInfoOf hget) (.inl rfl))

theorem Invariant.clientDataBlocked (id : ChannelId) : (w.clientDataBlocked id).Invariant := by
  unfold ReconnectingSession.clientDataBlocked
  cases w.getChannelInfo id with
  | none => exact h
  | some info =>
    dsimp only
    split
    · exact h
    · exact h.setBlockedSilently id true

theorem Invariant.unblockChannel (id : ChannelId) (channelIsBlocked : Bool) :
    (w.unblockChannel id channelIsBlocked).Invariant := by
  unfold ReconnectingSession.unblockChannel
  cases hget : w.getChannelInfo id with
  | none => exact h
  | some info =>
    cases channelIsBlocked with
    | true =>
      exact h.setBlockedSilently id true
    | false =>
      exact h.setBlocked id false (h.books.mark (mem_of_getChannelInfo hget) (.inr rfl))

theorem Invariant.channelFlowClosed (channel : ChannelPtr) :
    (w.channelFlowClosed channel).Invariant := by
  unfold ReconnectingSession.channelFlowClosed
  cases hget : w.getChannelInfoOf channel with
  | none => exact h
  | some info =>
    have hinfo := mem_of_getChannelInfoOf hget
    have hmem : ∀ c, c ∈ (w.activeChannels.map fun d =>
        if d.id = info.id then { d with closed := true } else d) ↔ _ :=
      fun c => h.books.mem_close hinfo
    dsimp only [queueStatusChange, updateChannelInfo]
    refine h.update (h.books.close hinfo) ?_ ?_
    · intro id
      rw [mem_append, mem_singleton, h.pendingDelete]
      constructor
      · rintro (⟨c, hc, rfl, hclosed⟩ | rfl)
        · by_cases hid : c.id = info.id
          · exact ⟨_, (hmem _).mpr (.inl rfl), hid.symm, rfl⟩
          · exact ⟨c, (hmem c).mpr (.inr ⟨hc, hid⟩), rfl, hclosed⟩
        · exact ⟨_, (hmem _).mpr (.inl rfl), rfl, rfl⟩
      · rintro ⟨c, hc, rfl, hclosed⟩
        rcases (hmem c).mp hc with rfl | ⟨hc, -⟩
        · exact .inr rfl
        · exact .inl ⟨c, hc, rfl, hclosed⟩
    · intro hworking c hc hclosed
      rcases (hmem c).mp hc with rfl | ⟨hc, -⟩
      · exact mem_append_right _ mem_cons_self
      · exact mem_append_left _ (h.working hworking c hc hclosed)

/-! ### What the router and connections do -/

theorem Invariant.processPendingChannelDeletes : w.processPendingChannelDeletes.Invariant := by
  obtain ⟨hdistinct, hmem⟩ := foldl_deleteFrom h.books.distinct w.pendingChannelsDelete
  -- only closed channels go, and no closed one stays
  have hopen : ∀ c ∈ w.pendingChannelsDelete.foldl deleteFrom w.activeChannels,
      ¬ c.closed = true := by
    intro c hc hclosed
    obtain ⟨hactive, hout⟩ := (hmem c).mp hc
    exact hout ((h.pendingDelete c.id).mpr ⟨c, hactive, rfl, hclosed⟩)
  refine ⟨h.books.remove (fun c hc => ((hmem c).mp hc).1) hdistinct ?_, ?_, ?_, h.clean, h.distinct,
    h.agrees⟩
  · intro c hc hgone
    have hid : c.id ∈ w.pendingChannelsDelete := by
      by_contra hout
      exact hgone ((hmem c).mpr ⟨hc, hout⟩)
    obtain ⟨c', hc', hcid, hclosed⟩ := (h.pendingDelete c.id).mp hid
    rwa [h.books.eq_of_id hc' hc hcid] at hclosed
  · intro id
    refine iff_of_false nofun ?_
    rintro ⟨c, hc, -, hclosed⟩
    exact hopen c hc hclosed
  · intro _ c hc hclosed
    exact absurd hclosed (hopen c hc)

theorem Invariant.startProcessPending : w.startProcessPending.Invariant := by
  unfold ReconnectingSession.startProcessPending
  split
  · exact h
  · refine ⟨h.books, h.pendingDelete, fun hworking c hc hclosed => ?_, h.clean, h.distinct,
      h.agrees⟩
    have hid : c.id ∈ w.pendingChannelsDelete := (h.pendingDelete c.id).mpr ⟨c, hc, rfl, hclosed⟩
    have hne : w.pendingChannelsDelete ≠ [] := ne_nil_of_mem hid
    rw [if_neg hne] at hworking
    cases hworking

theorem Invariant.finishProcessPending (hworking : w.processing = .working) {count : ℕ}
    (hallowed : w.Allowed (.finishProcessPending count)) :
    (w.finishProcessPending count).Invariant := by
  unfold ReconnectingSession.finishProcessPending
  dsimp only
  split
  · next hneed =>
    obtain ⟨hdistinct, hview⟩ := view_getCurrentChannelInfo h.books
    rw [← h.clean hneed] at hdistinct hview
    refine ⟨h.books, h.pendingDelete, nofun, nofun, hdistinct, fun _ hdisconnect => ?_⟩
    have hlog : w.log = w.acknowledged ++ w.unacknowledged := append_assoc _ _ _
    have hbooks := h.books
    have hrestorable := hallowed hneed hdisconnect
    rw [hlog] at hbooks hrestorable
    refine (congrArg (fun v : View => v.replay w.unacknowledged) hview).trans ?_
    refine (hrestorable.replay_learned hbooks fun c hc hclosed => ?_).trans ?_
    · exact mem_append_right _ (h.working hworking c hc hclosed)
    · exact congrArg known hlog.symm
  · next hneed =>
    split
    · exact ⟨h.books, h.pendingDelete, nofun, h.clean, h.distinct, h.agrees⟩
    · next hwait =>
      have hlog : w.acknowledged ++ (w.sentEvents ++ w.outgoingEvents.take count) ++
          w.outgoingEvents.drop count = w.log := by
        rw [log, append_assoc, append_assoc, append_assoc, take_append_drop]
      refine ⟨?_, h.pendingDelete, nofun, fun htrue => absurd htrue hneed,
        distinct_foldl h.distinct _, fun hfalse hdisconnect => ?_⟩
      · exact (congrArg (Books w.activeChannels) hlog).mpr h.books
      · have hagrees := h.agrees hfalse hdisconnect
        have hreplay : w.toReplay = w.outgoingEvents.take count ++ w.outgoingEvents.drop count := by
          rw [take_append_drop, toReplay, if_neg hwait]
        rw [hreplay, View.replay_append] at hagrees
        have hrest : toReplay ({ w with processing := ProcessPending.idle }.sendEvents count) =
            w.outgoingEvents.drop count := if_neg hwait
        rw [hrest]
        refine (congrArg (fun v : View => v.replay (w.outgoingEvents.drop count))
          (view_foldl h.distinct (w.outgoingEvents.take count))).trans (hagrees.trans ?_)
        exact congrArg known hlog.symm

theorem Invariant.setClientConnection : w.setClientConnection.Invariant :=
  ⟨h.books, h.pendingDelete, h.working, fun _ => rfl, distinct_new, nofun⟩

theorem Invariant.clientDataAcknowledge (count : ℕ) (hwait : w.waitReconnectResponse = false) :
    (w.clientDataAcknowledge count).Invariant := by
  have hlog : (w.clientDataAcknowledge count).log = w.log := by
    unfold ReconnectingSession.clientDataAcknowledge log
    dsimp only
    rw [append_assoc w.acknowledged, take_append_drop]
  have hreplay : (w.clientDataAcknowledge count).toReplay = w.toReplay := by
    unfold ReconnectingSession.clientDataAcknowledge toReplay
    dsimp only
    rw [hwait]
    rfl
  refine ⟨?_, h.pendingDelete, h.working, h.clean, h.distinct, fun hneed hdisconnect => ?_⟩
  · rw [hlog]
    exact h.books
  · rw [hlog, hreplay]
    exact h.agrees hneed hdisconnect

theorem Invariant.clientDataAcknowledgeReconnect : w.clientDataAcknowledgeReconnect.Invariant := by
  unfold ReconnectingSession.clientDataAcknowledgeReconnect
  split
  · next hwait =>
    dsimp only
    split
    · next hdisconnect =>
      exact ⟨h.books, h.pendingDelete, h.working, h.clean, h.distinct,
        fun _ hfalse => absurd (hdisconnect.symm.trans hfalse) nofun⟩
    · have hlog : w.acknowledged ++ [] ++ (w.sentEvents ++ w.outgoingEvents) = w.log := by
        rw [append_nil, log, append_assoc]
      refine ⟨(congrArg (Books w.activeChannels) hlog).mpr h.books, h.pendingDelete,
        fun hworking c hc hclosed => ?_, h.clean, h.distinct, fun hneed hdisconnect => ?_⟩
      · exact mem_append_right _ (h.working hworking c hc hclosed)
      · have hagrees := h.agrees hneed hdisconnect
        rw [toReplay, if_pos hwait] at hagrees
        exact hagrees.trans (congrArg known hlog.symm)
  · exact ⟨h.books, h.pendingDelete, h.working, h.clean, h.distinct, nofun⟩

/-- **Each step keeps the invariant.** -/
theorem Invariant.step {action : Action} (hallowed : w.Allowed action)
    (hstep : w.step action = some w') : w'.Invariant := by
  unfold ReconnectingSession.step at hstep
  obtain ⟨henabled, hperform⟩ := Option.ite_none_right_eq_some.mp hstep
  obtain rfl := Option.some.inj hperform
  cases action with
  | channelAdded id channel channelName channelSubtype toClient channelIsBlocked =>
    simp only [enabled, Bool.and_eq_true, decide_eq_true_eq, all_eq_true] at henabled
    exact h.channelAdded _ _ _ _ henabled.1.1 henabled.2
  | channelFlowBlocked channel => exact h.channelFlowBlocked channel
  | channelFlowClosed channel => exact h.channelFlowClosed channel
  | clientDataBlocked id => exact h.clientDataBlocked id
  | startProcessPending => exact h.startProcessPending
  | processPendingChannelDeletes => exact h.processPendingChannelDeletes
  | unblockChannel id channelIsBlocked => exact h.unblockChannel id channelIsBlocked
  | finishProcessPending count =>
    exact h.finishProcessPending (of_decide_eq_true henabled) hallowed
  | setClientConnection => exact h.setClientConnection
  | clientDataAcknowledge count =>
    exact h.clientDataAcknowledge count (by simpa [enabled] using henabled)
  | clientDataAcknowledgeReconnect => exact h.clientDataAcknowledgeReconnect
  | requestDisconnection =>
    exact ⟨h.books, h.pendingDelete, h.working, h.clean, h.distinct, nofun⟩

/-! ### What the connection knows -/

theorem Invariant.restored (hneed : w.needHandleReconnect = false)
    (hdisconnect : w.needDisconnect = false) : w.Restored := by
  have hdistinct : w.replayed.Distinct := distinct_foldl h.distinct _
  have hview : w.replayed.view = known w.log :=
    (view_foldl h.distinct _).trans (h.agrees hneed hdisconnect)
  refine ⟨same_of_view hdistinct (distinct_foldl distinct_new _)
    (hview.trans w.view_reference.symm), hdistinct, ?_⟩
  intro out entry hentry
  rw [mem_stack_iff hdistinct, hview] at hentry
  obtain ⟨c, hc, hopen, -, hkey⟩ := (h.books.marked (out, entry.1)).mp (by rw [hentry]; rfl)
  exact ⟨c, hc, hopen, congrArg Prod.fst hkey, congrArg Prod.snd hkey⟩

end

/-- **The connection knows what it would know from all events**, once it has been told of the
channels there are, and unless it is to be disconnected. -/
theorem restored_of_steps {actions : List Action}
    (h : Steps ReconnectingSession.step Allowed start actions w)
    (hneed : w.needHandleReconnect = false) (hdisconnect : w.needDisconnect = false) :
    w.Restored :=
  (h.invariant invariant_start fun _ _ _ hw hallowed hstep => hw.step hallowed hstep).restored hneed
    hdisconnect

/-- A session agent, an output channel and a puppet: the puppet goes and the agent is blocked while
the connection is replaced. -/
def replacedOnce : List Action :=
  [.channelAdded 1 10 sessionAgentChannelName [] false false,
    .channelAdded 2 20 [79] [] true false,
    .channelAdded 3 30 (puppetNameStart ++ [65]) [66] true false,
    .startProcessPending, .finishProcessPending 6, .clientDataAcknowledge 3,
    .channelFlowClosed 30, .channelFlowBlocked 10,
    .startProcessPending, .processPendingChannelDeletes, .finishProcessPending 1,
    .setClientConnection, .startProcessPending, .finishProcessPending 0,
    .clientDataAcknowledgeReconnect, .startProcessPending, .finishProcessPending 5]

theorem restored_of_steps_replacedOnce :
    ∃ w, Steps ReconnectingSession.step Allowed start replacedOnce w ∧
      w.client = ⟨1, [(1, true)], [(2, false)], []⟩ ∧ w.toReplay = [] ∧ w.Restored := by
  have hrun : ∃ w, run (guarded ReconnectingSession.step Allowed) start replacedOnce = some w ∧
      w.client = ⟨1, [(1, true)], [(2, false)], []⟩ ∧ w.toReplay = [] ∧
      w.needHandleReconnect = false ∧ w.needDisconnect = false := ⟨_, rfl, by decide⟩
  obtain ⟨w, hrun, hclient, hreplay, hneed, hdisconnect⟩ := hrun
  have hsteps := steps_of_run_guarded hrun
  exact ⟨w, hsteps, hclient, hreplay, restored_of_steps hsteps hneed hdisconnect⟩

/-- **A puppet that is open while the connection is replaced ends on a stack**, and has no name. -/
theorem puppet_on_stack : ∃ w, run ReconnectingSession.step start
    [.channelAdded 1 10 (puppetNameStart ++ [65]) [66] true false,
      .startProcessPending, .finishProcessPending 2, .clientDataAcknowledge 2,
      .setClientConnection, .startProcessPending, .finishProcessPending 0,
      .clientDataAcknowledgeReconnect] = some w ∧
    w.needHandleReconnect = false ∧ w.needDisconnect = false ∧ w.toReplay = [] ∧
    w.client = ⟨0, [], [(1, false)], []⟩ ∧ w.reference = ⟨0, [], [], [(1, [66])]⟩ ∧
    ¬ w.Restored := by
  refine ⟨_, rfl, rfl, rfl, rfl, rfl, by decide, fun h => ?_⟩
  exact absurd (h.same.puppets 1) (by decide)

end ReconnectingSession

end Mutgos.Socket
