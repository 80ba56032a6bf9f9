import Mutgos.CommInterface.ChannelQueues
import Mutgos.Executor.FreshIds

/-!
# The IDs of the channels of a session

IDs go back to 1 before they reach `MAX_CHANNELS`, so there are one less than that.  With this
many channels the test whether there are too many still passes, and the search for the next ID
does not end.

## Main results

* `soundIds_iff` — **the IDs are as they should be all the time, and the search ends, exactly if
  there are fewer than `MAX_CHANNELS - 1` channels.**
-/

namespace Mutgos.CommInterface

open Channels Function List
open Executor (findFree)

namespace ClientSession

/-- The first ID that `get_next_channel_id` looks at. -/
def followingChannelId (s : ClientSession) : ChannelId :=
  if s.lastUsedChannelId + 1 ≥ maxChannels then 1 else s.lastUsedChannelId + 1

/-- `get_next_channel_id`, if it takes no more than so many rounds: the ID, and the last one that
has been used then. -/
def nextChannelId (s : ClientSession) (rounds : ℕ) : Option (ChannelId × ChannelId) :=
  if s.activeChannels.length ≥ maxChannels then some (0, s.lastUsedChannelId)
  else
    (findFree (fun id => (s.getChannelInfo id).isSome) maxChannels rounds
      s.followingChannelId).map fun found => (found.1, found.1)

/-- `get_next_channel_id` ends. -/
def FindsId (s : ClientSession) : Prop := ∃ rounds, (s.nextChannelId rounds).isSome

end ClientSession

namespace SessionWorld

variable {w w' : SessionWorld}

/-- `channel_added`, with what `get_next_channel_id` has given. -/
def channelAddedAs (w : SessionWorld) (channel : ChannelPtr) (toClient : Bool)
    (id last : ChannelId) : SessionWorld :=
  let blocked := !toClient && (w.channels channel).blocked
  let info : ChannelInfo := ⟨id, channel, toClient, false, blocked⟩
  let s := { w.session with
    lastUsedChannelId := last
    activeChannels := w.session.activeChannels ++ [info] }
  let s := (s.queueStatusChange info .statusOpen).requestServiceUnlessBlocked
  { w with
    session := s.queueStatusChange info (if blocked then .statusBlock else .statusUnblock)
    channels := update w.channels channel
      ((w.channels channel).registerControlListener sessionPtr)
    received := update w.received id []
    handed := update w.handed id [] }

/-- `channel_added` of a session that does not run out of IDs. -/
theorem channelAdded_eq (w : SessionWorld) (channel : ChannelPtr) (toClient : Bool) :
    w.channelAdded channel toClient
      = w.session.getNextChannelId.map fun id => w.channelAddedAs channel toClient id id := rfl

/-- `channel_added`, and what it returns. -/
def addChannel (w : SessionWorld) (channel : Option ChannelPtr) (toClient : Bool) :
    Option (ChannelId × SessionWorld) :=
  match channel with
  | none => some (0, w)
  | some channel => (w.session.nextChannelId maxChannels).map fun found =>
    (found.1, w.channelAddedAs channel toClient found.1 found.2)

/-- A channel comes or goes. -/
inductive IdCall
  | channelAdded (channel : Option ChannelPtr) (toClient : Bool)
  | deleteChannel (id : ChannelId)

/-- Nothing comes after an addition that does not end. -/
def idStep (w : SessionWorld) : IdCall → Option SessionWorld
  | .channelAdded channel toClient => (w.addChannel channel toClient).map Prod.snd
  | .deleteChannel id => some { w with session := (deleteChannel w.session id).2 }

/-- The IDs of the channels. -/
def channelIds (w : SessionWorld) : List ChannelId := w.session.activeChannels.map ChannelInfo.id

/-- The IDs are as they should be, there is another one or none, and nothing is added without
one. -/
structure SoundIds (w : SessionWorld) : Prop where
  ne_zero : ∀ id ∈ w.channelIds, id ≠ 0
  nodup : w.channelIds.Nodup
  findsId : w.session.FindsId
  added : ∀ channel toClient w', w.addChannel channel toClient = some (0, w') → w' = w

/-- The IDs in use, and the last one that has been used, are such as the search finds. -/
structure IdsInRange (w : SessionWorld) : Prop where
  nodup : w.channelIds.Nodup
  range : ∀ id ∈ w.channelIds, 0 < id ∧ id < maxChannels
  last : w.session.lastUsedChannelId < maxChannels

theorem followingChannelId_range (s : ClientSession) :
    0 < s.followingChannelId ∧ s.followingChannelId < maxChannels := by
  have hmax : 1 < maxChannels := by decide
  unfold ClientSession.followingChannelId
  split
  · exact ⟨Nat.one_pos, hmax⟩
  · next hlast => exact ⟨Nat.succ_pos _, Nat.not_le.mp hlast⟩

theorem isSome_getChannelInfo (id : ChannelId) :
    (w.session.getChannelInfo id).isSome = true ↔ id ∈ w.channelIds := by
  simp [ClientSession.getChannelInfo, channelIds]

/-- All IDs are in use exactly if there are `MAX_CHANNELS - 1` channels. -/
theorem IdsInRange.findFree_eq_none_iff (h : w.IdsInRange) {rounds : ℕ}
    (hrounds : maxChannels - 1 ≤ rounds) :
    findFree (fun id => (w.session.getChannelInfo id).isSome) maxChannels rounds
      w.session.followingChannelId = none ↔ w.session.activeChannels.length = maxChannels - 1 := by
  have hcard : w.channelIds.toFinset.card = w.session.activeChannels.length := by
    rw [toFinset_card_of_nodup h.nodup, channelIds, length_map]
  rw [Executor.findFree_eq_none_iff_inUse (followingChannelId_range _) hrounds, ← hcard,
    ← forall_mem_iff_card fun id hid => h.range id (mem_toFinset.mp hid)]
  simp only [isSome_getChannelInfo, mem_toFinset]

theorem IdsInRange.length_lt (h : w.IdsInRange) :
    w.session.activeChannels.length < maxChannels := by
  have hsubset : w.channelIds.toFinset ⊆ Finset.Ico 1 maxChannels := fun id hid =>
    Finset.mem_Ico.mpr (h.range id (mem_toFinset.mp hid))
  have hcard := Finset.card_le_card hsubset
  rw [toFinset_card_of_nodup h.nodup, channelIds, length_map, Nat.card_Ico] at hcard
  have hmax : 1 < maxChannels := by decide
  omega

/-- **Another ID is found exactly if not all but the last are in use.** -/
theorem IdsInRange.findsId_iff (h : w.IdsInRange) :
    w.session.FindsId ↔ w.session.activeChannels.length < maxChannels - 1 := by
  have hlength := h.length_lt
  have hall := fun rounds (hrounds : maxChannels - 1 ≤ rounds) => h.findFree_eq_none_iff hrounds
  unfold ClientSession.FindsId ClientSession.nextChannelId
  simp only [if_neg hlength.not_ge, Option.isSome_map]
  constructor
  · rintro ⟨rounds, hsome⟩
    by_contra hfull
    have hnone := (Executor.findFree_eq_none_iff (followingChannelId_range _)).mp
      ((hall maxChannels (Nat.sub_le _ 1)).mpr (by omega)) rounds
    rw [hnone] at hsome
    cases hsome
  · intro hroom
    refine ⟨maxChannels, Option.isSome_iff_ne_none.mpr fun hnone => ?_⟩
    rw [hall maxChannels (Nat.sub_le _ 1)] at hnone
    omega

/-- What an addition does to the IDs. -/
theorem channelAddedAs_eq (w : SessionWorld) (channel : ChannelPtr) (toClient : Bool)
    (id last : ChannelId) :
    (w.channelAddedAs channel toClient id last).channelIds = w.channelIds ++ [id] ∧
      (w.channelAddedAs channel toClient id last).session.lastUsedChannelId = last := by
  unfold channelAddedAs channelIds
  simp only [ClientSession.requestServiceUnlessBlocked]
  split <;> exact ⟨map_append .., rfl⟩

/-- **An addition has found an ID that is free**, or has had no channel. -/
theorem IdsInRange.addChannel (h : w.IdsInRange) {channel : Option ChannelPtr} {toClient : Bool}
    {id : ChannelId} (hadd : w.addChannel channel toClient = some (id, w')) :
    (id = 0 ∧ w' = w) ∨ (0 < id ∧ w'.IdsInRange ∧
      w'.session.activeChannels.length = w.session.activeChannels.length + 1) := by
  cases channel with
  | none =>
    cases hadd
    exact .inl ⟨rfl, rfl⟩
  | some channel =>
    simp only [SessionWorld.addChannel, ClientSession.nextChannelId, if_neg h.length_lt.not_ge,
      Option.map_map, Option.map_eq_some_iff] at hadd
    obtain ⟨⟨first, following⟩, hfind, hadd⟩ := hadd
    cases hadd
    obtain ⟨hrange, -⟩ := Executor.range_of_findFree (followingChannelId_range _) hfind
    have hfree := (Executor.findFree_spec hfind).2
    rw [← Bool.not_eq_true, isSome_getChannelInfo] at hfree
    obtain ⟨hids, hlast⟩ := w.channelAddedAs_eq channel toClient first first
    refine .inr ⟨hrange.1, ⟨?_, ?_, ?_⟩, ?_⟩
    · rw [hids]
      exact h.nodup.append (nodup_singleton _) (disjoint_singleton.mpr hfree)
    · rw [hids]
      intro id hid
      rcases mem_append.mp hid with hid | hid
      · exact h.range id hid
      · exact mem_singleton.mp hid ▸ hrange
    · exact hlast.trans_lt hrange.2
    · have hlength := congrArg length hids
      simpa [channelIds] using hlength

/-- Channels are only taken away. -/
theorem IdsInRange.of_subperm (h : w.IdsInRange) {s : ClientSession}
    (hchannels : s.activeChannels.Subperm w.session.activeChannels)
    (hlast : s.lastUsedChannelId = w.session.lastUsedChannelId) :
    IdsInRange { w with session := s } := by
  obtain ⟨infos, hperm, hsub⟩ := hchannels
  refine ⟨?_, fun id hid => ?_, hlast.trans_lt h.last⟩
  · exact (hperm.map ChannelInfo.id).nodup_iff.mp ((hsub.map ChannelInfo.id).nodup h.nodup)
  · exact h.range id ((hsub.map ChannelInfo.id).subset ((hperm.map ChannelInfo.id).mem_iff.mpr hid))

theorem IdsInRange.deleteChannel (h : w.IdsInRange) (id : ChannelId) :
    IdsInRange { w with session := (deleteChannel w.session id).2 } := by
  have hpending : (w.session.removePendingUnblockedChannel id).activeChannels
        = w.session.activeChannels ∧ (w.session.removePendingUnblockedChannel id).lastUsedChannelId
        = w.session.lastUsedChannelId := by
    unfold ClientSession.removePendingUnblockedChannel
    split <;> exact ⟨rfl, rfl⟩
  have hqueue : ∀ s : ClientSession, (s.removeBlockedQueue id).activeChannels = s.activeChannels ∧
      (s.removeBlockedQueue id).lastUsedChannelId = s.lastUsedChannelId := by
    intro s
    unfold ClientSession.removeBlockedQueue
    split <;> exact ⟨rfl, rfl⟩
  unfold SessionWorld.deleteChannel
  split
  · exact h
  · dsimp only
    split
    · exact h.of_subperm (hpending.1 ▸ .refl _) hpending.2
    · refine h.of_subperm ?_ ((hqueue _).2.trans hpending.2)
      dsimp only
      rw [(hqueue _).1, hpending.1]
      exact (removeChannelInfo_perm _ _).subperm.trans erase_sublist.subperm

/-- A step keeps the IDs in their range. -/
theorem IdsInRange.idStep (h : w.IdsInRange) {call : IdCall} (hstep : w.idStep call = some w') :
    w'.IdsInRange := by
  cases call with
  | channelAdded channel toClient =>
    obtain ⟨⟨id, w''⟩, hadd, rfl⟩ := Option.map_eq_some_iff.mp hstep
    rcases h.addChannel hadd with ⟨-, rfl⟩ | ⟨-, hrange, -⟩
    · exact h
    · exact hrange
  | deleteChannel id =>
    cases hstep
    exact h.deleteChannel id

/-- A session without channels. -/
def NoChannels (w : SessionWorld) : Prop := ∃ windowSize, w.session = .new windowSize

theorem idsInRange_of_reachable {start : SessionWorld} (hstart : start.NoChannels)
    (h : Reachable SessionWorld.idStep (fun _ _ => True) start w) : w.IdsInRange := by
  refine h.invariant ?_ fun _ _ _ ht _ hstep => ht.idStep hstep
  obtain ⟨windowSize, hsession⟩ := hstart
  have hnone : start.channelIds = [] := by
    rw [channelIds, hsession]
    rfl
  refine ⟨hnone ▸ .nil, fun id hid => absurd hid (hnone ▸ not_mem_nil), ?_⟩
  rw [hsession]
  exact (by decide : 0 < maxChannels)

/-- **In every state of a session** the IDs are as they should be, and another one is found or it
is said that there is none, exactly if there are fewer than `MAX_CHANNELS - 1` channels. -/
theorem soundIds_iff {start : SessionWorld} (hstart : start.NoChannels)
    (h : Reachable SessionWorld.idStep (fun _ _ => True) start w) :
    w.SoundIds ↔ w.session.activeChannels.length < maxChannels - 1 := by
  have hrange := idsInRange_of_reachable hstart h
  rw [← hrange.findsId_iff]
  refine ⟨fun hsound => hsound.findsId, fun hfinds => ⟨?_, hrange.nodup, hfinds, ?_⟩⟩
  · exact fun id hid => (hrange.range id hid).1.ne'
  · intro channel toClient w' hadd
    rcases hrange.addChannel hadd with ⟨-, hsame⟩ | ⟨hpos, -⟩
    · exact hsame
    · exact absurd hpos (Nat.lt_irrefl 0)

/-- A session, and channels that nothing has been done with. -/
def emptySession : SessionWorld where
  session := .new 0
  channels _ := .new .text [] (0, 0) []
  received _ := []
  handed _ := []
  overtaken := false
  miscast := false

theorem soundIds_iff_emptySession :
    emptySession.SoundIds ↔ emptySession.session.activeChannels.length < maxChannels - 1 :=
  soundIds_iff ⟨0, rfl⟩ .init

/-- Any number of channels that there are IDs for. -/
theorem exists_reachable_length (n : ℕ) (hn : n < maxChannels) :
    ∃ w, Reachable SessionWorld.idStep (fun _ _ => True) emptySession w ∧
      w.session.activeChannels.length = n := by
  induction n with
  | zero => exact ⟨emptySession, .init, rfl⟩
  | succ n ih =>
    obtain ⟨w, hw, hlength⟩ := ih (Nat.lt_of_succ_lt hn)
    have hrange := idsInRange_of_reachable ⟨0, rfl⟩ hw
    obtain ⟨⟨id, following⟩, hfind⟩ := Option.ne_none_iff_exists'.mp
      (mt (hrange.findFree_eq_none_iff (Nat.sub_le maxChannels 1)).mp (by omega))
    have hadd : w.addChannel (some 1) true = some (id, w.channelAddedAs 1 true id id) := by
      simp [SessionWorld.addChannel, ClientSession.nextChannelId, if_neg hrange.length_lt.not_ge,
        hfind]
    refine ⟨_, hw.step (a := .channelAdded (some 1) true) trivial
      (congrArg (Option.map Prod.snd) hadd), ?_⟩
    rcases hrange.addChannel hadd with ⟨hzero, -⟩ | ⟨-, -, hone⟩
    · exact absurd hzero (Executor.findFree_spec hfind).1
    · exact hone.trans (congrArg (· + 1) hlength)

/-- **With all IDs in use the search does not end**, though there are fewer channels than
`MAX_CHANNELS`. -/
theorem allChannelIds_searchesForever :
    ∃ w, Reachable SessionWorld.idStep (fun _ _ => True) emptySession w ∧
      w.session.activeChannels.length = maxChannels - 1 ∧ ¬ w.session.FindsId ∧ ¬ w.SoundIds := by
  obtain ⟨w, hw, hlength⟩ := exists_reachable_length (maxChannels - 1) (by decide)
  have hfinds : ¬ w.session.FindsId := by
    rw [(idsInRange_of_reachable ⟨0, rfl⟩ hw).findsId_iff]
    omega
  exact ⟨w, hw, hlength, hfinds, fun hsound => hfinds hsound.findsId⟩

end SessionWorld

end Mutgos.CommInterface
