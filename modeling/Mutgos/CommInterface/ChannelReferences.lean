import Mutgos.CommInterface.SessionWorld
import Mutgos.Lib.TransitionSystem

/-!
# References to channels

What the client sends for a channel is handled with a reference to the entry of the channel in
`active_channels`, which is fetched under the lock and used after it has been released.  Entries
are deleted only while pending work is processed, when nobody else has a reference.  An
addition needs no such turn, and when the vector is full it moves all entries.

## Main results

* `valid_iff` — **the references are valid all the time exactly if the vector does not grow while
  there is one.**
-/

namespace Mutgos.CommInterface

open SessionWorld (removeChannelInfo)

/-- `active_channels`: the entries, and the buffer that they are in. -/
structure ChannelVector where
  buffer : ℕ
  capacity : ℕ
  entries : List ChannelInfo

/-- A reference to a `ChannelInfo`: the ID that it was fetched for, and the buffer and the index of
the entry.  There is none if it refers to the invalid entry. -/
structure ChannelReference where
  id : ChannelId
  place : Option (ℕ × ℕ)
  deriving DecidableEq

namespace ChannelVector

variable {v : ChannelVector} {r : ChannelReference}

/-- `push_back`: if the vector is full, into a new buffer. -/
def pushBack (v : ChannelVector) (info : ChannelInfo) (newCapacity : ℕ) : ChannelVector :=
  if v.entries.length < v.capacity then { v with entries := v.entries ++ [info] }
  else ⟨v.buffer + 1, newCapacity, v.entries ++ [info]⟩

def getChannelInfo (v : ChannelVector) (id : ChannelId) : ChannelReference :=
  ⟨id, (v.entries.findIdx? fun info => info.id = id).map fun i => (v.buffer, i)⟩

def deleteChannel (v : ChannelVector) (id : ChannelId) : ChannelVector :=
  match v.entries.find? fun info => info.id = id with
  | none => v
  | some info => { v with entries := removeChannelInfo info v.entries }

/-- What is noted of a channel. -/
def mark (v : ChannelVector) (id : ChannelId) (closed blocked : Bool) : ChannelVector :=
  { v with
    entries := v.entries.map fun info =>
      if info.id = id then { info with closed := closed, blocked := blocked } else info }

/-- The reference is to the entry of its channel. -/
def Denotes (v : ChannelVector) (r : ChannelReference) : Prop :=
  ∀ buffer i, r.place = some (buffer, i) →
    v.buffer = buffer ∧ (v.entries[i]?).map ChannelInfo.id = some r.id

theorem denotes_getChannelInfo (v : ChannelVector) (id : ChannelId) :
    v.Denotes (v.getChannelInfo id) := by
  intro buffer i hplace
  obtain ⟨j, hj, hpair⟩ := Option.map_eq_some_iff.mp hplace
  cases hpair
  obtain ⟨hlt, hid, -⟩ := List.findIdx?_eq_some_iff_getElem.mp hj
  refine ⟨rfl, ?_⟩
  rw [List.getElem?_eq_getElem hlt]
  exact congrArg some (of_decide_eq_true hid)

theorem Denotes.mark (h : v.Denotes r) (id : ChannelId) (closed blocked : Bool) :
    (v.mark id closed blocked).Denotes r := by
  intro buffer i hplace
  obtain ⟨hbuffer, hid⟩ := h buffer i hplace
  refine ⟨hbuffer, ?_⟩
  rw [ChannelVector.mark, List.getElem?_map, Option.map_map, ← hid]
  congr 1
  funext info
  dsimp only [Function.comp_apply]
  split <;> rfl

/-- There is room for another entry. -/
theorem Denotes.pushBack (h : v.Denotes r) (hroom : v.entries.length < v.capacity)
    (info : ChannelInfo) (newCapacity : ℕ) : (v.pushBack info newCapacity).Denotes r := by
  intro buffer i hplace
  obtain ⟨hbuffer, hid⟩ := h buffer i hplace
  obtain ⟨entry, hentry, -⟩ := Option.map_eq_some_iff.mp hid
  have hlt := (List.getElem?_eq_some_iff.mp hentry).1
  rw [ChannelVector.pushBack, if_pos hroom]
  exact ⟨hbuffer, by rwa [List.getElem?_append_left hlt]⟩

/-- **In a new buffer** only what refers to no entry is valid. -/
theorem Denotes.grow_iff (h : v.Denotes r) (hfull : ¬ v.entries.length < v.capacity)
    (info : ChannelInfo) (newCapacity : ℕ) :
    (v.pushBack info newCapacity).Denotes r ↔ r.place = none := by
  rw [ChannelVector.pushBack, if_neg hfull]
  constructor
  · intro hgrown
    by_contra hsome
    obtain ⟨⟨buffer, i⟩, hplace⟩ := Option.ne_none_iff_exists'.mp hsome
    have hold := (h buffer i hplace).1
    have hnew : v.buffer + 1 = buffer := (hgrown buffer i hplace).1
    omega
  · intro hnone buffer i hplace
    rw [hnone] at hplace
    cases hplace

end ChannelVector

/-- What `process_pending` is doing. -/
inductive PendingPhase
  | idle
  | deleting
  /-- `process_pending_unblocked_channels`, with the channel it is at. -/
  | unblocking (r : ChannelReference)
  deriving DecidableEq

/-- A session, and the references to its channels that are still used. -/
structure ReferencedChannels where
  channels : ChannelVector
  /-- Those of `client_data` and `client_request_channel_close`. -/
  callers : List ChannelReference
  pending : PendingPhase

/-- What is done under `client_lock`. -/
inductive ReferenceCall
  /-- `client_data` or `client_request_channel_close` begins. -/
  | fetch (id : ChannelId)
  /-- It ends. -/
  | release (r : ChannelReference)
  /-- The entry of a channel is changed, by a listener or through a reference. -/
  | mark (id : ChannelId) (closed blocked : Bool)
  | channelAdded (info : ChannelInfo) (newCapacity : ℕ)
  | processPending
  | deleteChannel (id : ChannelId)
  | unblockChannel (id : ChannelId)
  | processed

namespace ReferencedChannels

open ReferenceCall

variable {s s' : ReferencedChannels} {call : ReferenceCall}

def new : ReferencedChannels := ⟨⟨0, 0, []⟩, [], .idle⟩

/-- One section.  While pending work is processed no other methods are called than those of the
listeners, and it is not processed while `client_data` or `client_request_channel_close` is. -/
def step (s : ReferencedChannels) : ReferenceCall → Option ReferencedChannels
  | fetch id =>
    if s.pending = .idle then some { s with callers := s.channels.getChannelInfo id :: s.callers }
    else none
  | release r => if r ∈ s.callers then some { s with callers := s.callers.erase r } else none
  | mark id closed blocked => some { s with channels := s.channels.mark id closed blocked }
  | channelAdded info newCapacity =>
    if s.pending = .idle ∧ s.channels.entries.length < newCapacity then
      some { s with channels := s.channels.pushBack info newCapacity }
    else none
  | processPending =>
    if s.pending = .idle ∧ s.callers = [] then some { s with pending := .deleting } else none
  | deleteChannel id =>
    if s.pending = .deleting then some { s with channels := s.channels.deleteChannel id } else none
  | unblockChannel id =>
    if s.pending ≠ .idle then
      some { s with pending := .unblocking (s.channels.getChannelInfo id) }
    else none
  | processed => if s.pending ≠ .idle then some { s with pending := .idle } else none

/-- Every reference that is still used is to the entry of its channel. -/
def Valid (s : ReferencedChannels) : Prop :=
  (∀ r ∈ s.callers, s.channels.Denotes r) ∧
    ∀ r, s.pending = .unblocking r → s.channels.Denotes r

/-- The vector does not grow while there is a reference to an entry. -/
def StaysInPlace (s : ReferencedChannels) : ReferenceCall → Prop
  | channelAdded _ _ =>
    s.channels.entries.length < s.channels.capacity ∨ ∀ r ∈ s.callers, r.place = none
  | _ => True

/-- What the steps keep. -/
def Inv (s : ReferencedChannels) : Prop := s.Valid ∧ (s.pending ≠ .idle → s.callers = [])

/-- **A step that does not move the entries** keeps the references valid. -/
theorem Inv.step (h : s.Inv) (hplace : s.StaysInPlace call) (hstep : s.step call = some s') :
    s'.Inv ∧ s'.Valid := by
  suffices hinv : s'.Inv from ⟨hinv, hinv.1⟩
  obtain ⟨⟨hcallers, hpending⟩, hidle⟩ := id h
  cases call with
  | fetch id =>
    obtain ⟨hphase, ⟨⟩⟩ := Option.ite_none_right_eq_some.mp hstep
    refine ⟨⟨fun r hr => ?_, hpending⟩, fun hne => absurd hphase hne⟩
    rcases List.mem_cons.mp hr with rfl | hr
    · exact s.channels.denotes_getChannelInfo id
    · exact hcallers r hr
  | release r =>
    obtain ⟨-, ⟨⟩⟩ := Option.ite_none_right_eq_some.mp hstep
    refine ⟨⟨fun r' hr' => hcallers r' (List.mem_of_mem_erase hr'), hpending⟩, fun hne => ?_⟩
    simp [hidle hne]
  | mark id closed blocked =>
    cases hstep
    exact ⟨⟨fun r hr => (hcallers r hr).mark id closed blocked,
      fun r hr => (hpending r hr).mark id closed blocked⟩, hidle⟩
  | channelAdded info newCapacity =>
    obtain ⟨⟨hphase, -⟩, ⟨⟩⟩ := Option.ite_none_right_eq_some.mp hstep
    refine ⟨⟨fun r hr => ?_, fun r hr => nomatch hphase.symm.trans hr⟩, hidle⟩
    by_cases hroom : s.channels.entries.length < s.channels.capacity
    · exact (hcallers r hr).pushBack hroom info newCapacity
    · exact ((hcallers r hr).grow_iff hroom info newCapacity).mpr (hplace.resolve_left hroom r hr)
  | processPending =>
    obtain ⟨⟨-, hnone⟩, ⟨⟩⟩ := Option.ite_none_right_eq_some.mp hstep
    exact ⟨⟨hcallers, nofun⟩, fun _ => hnone⟩
  | deleteChannel id =>
    -- nobody has a reference now
    obtain ⟨hphase, ⟨⟩⟩ := Option.ite_none_right_eq_some.mp hstep
    have hnone := hidle (by rw [hphase]; exact nofun)
    refine ⟨⟨fun r hr => ?_, fun r hr => nomatch hphase.symm.trans hr⟩, hidle⟩
    rw [hnone] at hr
    cases hr
  | unblockChannel id =>
    obtain ⟨hphase, ⟨⟩⟩ := Option.ite_none_right_eq_some.mp hstep
    refine ⟨⟨hcallers, ?_⟩, fun _ => hidle hphase⟩
    rintro r ⟨⟩
    exact s.channels.denotes_getChannelInfo id
  | processed =>
    obtain ⟨-, ⟨⟩⟩ := Option.ite_none_right_eq_some.mp hstep
    exact ⟨⟨hcallers, nofun⟩, fun hne => absurd rfl hne⟩

/-- **A step that moves the entries** leaves a reference behind. -/
theorem Inv.staysInPlace (h : s.Inv) (hstep : s.step call = some s') (hvalid : s'.Valid) :
    s.StaysInPlace call := by
  cases call with
  | channelAdded info newCapacity =>
    simp only [ReferencedChannels.step, Option.ite_none_right_eq_some] at hstep
    obtain ⟨-, hstep⟩ := hstep
    cases hstep
    by_cases hroom : s.channels.entries.length < s.channels.capacity
    · exact .inl hroom
    · exact .inr fun r hr => ((h.1.1 r hr).grow_iff hroom info newCapacity).mp (hvalid.1 r hr)
  | _ => trivial

/-- **The references are valid all through a run exactly if the vector never grows while there is
one.** -/
theorem valid_iff {calls : List ReferenceCall}
    (h : run ReferencedChannels.step new calls = some s) :
    (∀ as call bs t t', calls = as ++ call :: bs →
        run ReferencedChannels.step new as = some t → t.step call = some t' → t'.Valid) ↔
      Steps ReferencedChannels.step StaysInPlace new calls s :=
  steps_iff_forall_step (I := Inv) (P := fun _ _ t' => t'.Valid)
    (fun _ _ _ ht hplace hstep => ht.step hplace hstep)
    (fun _ _ _ ht hstep => ht.staysInPlace hstep) ⟨⟨nofun, nofun⟩, fun _ => rfl⟩ h

/-- A channel is added, and the client sends something for it. -/
def addAndSend : List ReferenceCall :=
  [channelAdded ⟨1, 1, false, false, false⟩ 1, fetch 1, release ⟨1, some (1, 0)⟩]

theorem valid_iff_addAndSend : ∃ s, run ReferencedChannels.step new addAndSend = some s ∧
    ((∀ as call bs t t', addAndSend = as ++ call :: bs →
        run ReferencedChannels.step new as = some t → t.step call = some t' → t'.Valid) ↔
      Steps ReferencedChannels.step StaysInPlace new addAndSend s) :=
  ⟨_, rfl, valid_iff rfl⟩

/-- **Another channel is added while the client's data is handled**: the entry has moved. -/
theorem addedMeanwhile_dangling : ∃ s, run ReferencedChannels.step new
      [channelAdded ⟨1, 1, false, false, false⟩ 1, fetch 1,
        channelAdded ⟨2, 2, true, false, false⟩ 2] = some s ∧
    s.callers = [⟨1, some (1, 0)⟩] ∧ s.channels.buffer = 2 ∧ ¬ s.Valid := by
  refine ⟨_, rfl, rfl, rfl, fun h => ?_⟩
  have hbuffer := (h.1 ⟨1, some (1, 0)⟩ (by decide) 1 0 rfl).1
  exact absurd hbuffer (by decide)

end ReferencedChannels

end Mutgos.CommInterface
