import Mutgos.Executor.ProcessInfo

/-!
# Channels

A channel is a one way flow of items from senders to a receiver.  It is open, blocked or
closed, and tells its listeners and processes whenever that changes.

## Main results

* `Channel.Settled` — what has been told last is how the channel is.
-/

namespace Mutgos.Channels

open Executor (PID RID)

/-- `ChannelFlowMessage::ChannelFlowStatus` -/
inductive FlowStatus where
  | flowOpen | flowBlocked | flowClosed | destructed
  deriving DecidableEq, Repr

inductive ChannelType where
  | text | clientData
  deriving DecidableEq, Repr

/-- The address of a `ChannelControlListener`. -/
abbrev ListenerPtr := ℕ

/-- Who is told about the flow of a channel. -/
inductive FlowRecipient where
  | listener (listener : ListenerPtr)
  | process (pid : PID) (rid : RID)
  deriving DecidableEq

structure Channel where
  /-- `channel_type` -/
  type : ChannelType
  /-- `channel_control_listeners` -/
  controlListeners : List ListenerPtr
  /-- `channel_recv_pid` and `channel_recv_rid`; a PID of 0 is no process. -/
  recv : PID × RID
  /-- `channel_send_processes` -/
  sendProcesses : List (PID × RID)
  /-- `channel_items_remaining` -/
  itemsRemaining : ℕ
  /-- `channel_unlimited_items` -/
  unlimitedItems : Bool
  /-- `channel_blocked` -/
  blocked : Bool
  /-- `channel_closed` -/
  closed : Bool
  /-- `channel_last_status` -/
  lastStatus : FlowStatus
  deriving DecidableEq

/-- What a call comes to: what it returns, the channel, and who has been told what. -/
structure Outcome where
  result : Bool
  channel : Channel
  told : List (FlowRecipient × FlowStatus)
  deriving DecidableEq

namespace Channel

/-- The constructor, and those who are told before anything is done with the channel. -/
def new (type : ChannelType) (controlListeners : List ListenerPtr) (recv : PID × RID)
    (sendProcesses : List (PID × RID)) : Channel where
  type := type
  controlListeners := controlListeners
  recv := recv
  sendProcesses := sendProcesses
  itemsRemaining := 0
  unlimitedItems := true
  blocked := true
  closed := false
  lastStatus := .flowBlocked

/-- Those who are told. -/
def recipients (c : Channel) : List FlowRecipient :=
  c.controlListeners.map .listener ++
    (if c.recv.1 ≠ 0 then [.process c.recv.1 c.recv.2] else []) ++
      c.sendProcesses.map fun process => .process process.1 process.2

def broadcastStatus (c : Channel) : List (FlowRecipient × FlowStatus) :=
  c.recipients.map fun recipient => (recipient, c.lastStatus)

/-- The status that the fields of a channel stand for. -/
def effectiveStatus (c : Channel) : FlowStatus :=
  if c.closed then .flowClosed else if c.blocked then .flowBlocked else .flowOpen

def checkStatus (c : Channel) : Channel × List (FlowRecipient × FlowStatus) :=
  if c.lastStatus = .destructed then (c, [])
  else
    let c := if !c.unlimitedItems && c.itemsRemaining = 0 then { c with blocked := true } else c
    if c.closed then
      if c.lastStatus ≠ .flowClosed then
        let c := { c with lastStatus := .flowClosed }
        (c, c.broadcastStatus)
      else (c, [])
    else if c.blocked then
      if c.lastStatus ≠ .flowBlocked then
        let c := { c with lastStatus := .flowBlocked }
        (c, c.broadcastStatus)
      else (c, [])
    else
      if c.lastStatus ≠ .flowOpen then
        let c := { c with lastStatus := .flowOpen }
        (c, c.broadcastStatus)
      else (c, [])

def blockChannel (c : Channel) : Outcome :=
  if c.closed then ⟨true, c, []⟩
  else
    let (c, told) := { c with blocked := true }.checkStatus
    ⟨true, c, told⟩

def unblockChannel (c : Channel) (allowedItems : ℕ) : Outcome :=
  if c.closed then ⟨false, c, []⟩
  else
    let (c, told) := { c with blocked := false, itemsRemaining := allowedItems }.checkStatus
    ⟨true, c, told⟩

/-- `close_channel`, up to the deletion of a channel that nobody holds. -/
def closeChannel (c : Channel) : Outcome :=
  let (c, told) := { c with closed := true }.checkStatus
  ⟨true, c, told⟩

def channelAboutToSendItem (c : Channel) : Outcome :=
  if c.lastStatus = .flowOpen then
    if c.unlimitedItems then ⟨true, c, []⟩
    else if c.itemsRemaining > 0 then ⟨true, { c with itemsRemaining := c.itemsRemaining - 1 }, []⟩
    else
      let (c, told) := { c with blocked := true, lastStatus := .flowBlocked }.checkStatus
      ⟨false, c, told⟩
  else ⟨false, c, []⟩

/-- `send_item`, up to what the receiver does with the item. -/
def sendItem (c : Channel) : Outcome := c.channelAboutToSendItem

/-- `channel_register_control_listener` -/
def registerControlListener (c : Channel) (listener : ListenerPtr) : Channel :=
  if listener ∈ c.controlListeners then c
  else { c with controlListeners := c.controlListeners ++ [listener] }

/-- `channel_unregister_control_listener` -/
def unregisterControlListener (c : Channel) (listener : ListenerPtr) : Channel :=
  { c with controlListeners := c.controlListeners.erase listener }

/-! ### What has been told -/

/-- What has been told last is how the channel is.  The number of items is not limited: there
is nothing that would set `channel_unlimited_items` to false. -/
structure Settled (c : Channel) : Prop where
  lastStatus : c.lastStatus = c.effectiveStatus
  unlimitedItems : c.unlimitedItems = true

theorem effectiveStatus_ne_destructed (c : Channel) : c.effectiveStatus ≠ .destructed := by
  rw [effectiveStatus]
  split_ifs <;> decide

theorem settled_new (type : ChannelType) (controlListeners : List ListenerPtr)
    (recv : PID × RID) (sendProcesses : List (PID × RID)) :
    (new type controlListeners recv sendProcesses).Settled :=
  ⟨rfl, rfl⟩

/-- What `check_status` does for a channel that had settled before its fields were changed. -/
theorem checkStatus_eq {c : Channel} (hlast : c.lastStatus ≠ .destructed)
    (hunlimited : c.unlimitedItems = true) :
    c.checkStatus = ({ c with lastStatus := c.effectiveStatus },
      if c.lastStatus = c.effectiveStatus then []
      else c.recipients.map fun recipient => (recipient, c.effectiveStatus)) := by
  have hitems : (!c.unlimitedItems && decide (c.itemsRemaining = 0)) = false := by
    rw [hunlimited]
    rfl
  rw [checkStatus, if_neg hlast, hitems]
  dsimp only
  rw [if_neg Bool.false_ne_true]
  obtain ⟨type, listeners, recv, senders, items, unlimited, blocked, closed, last⟩ := c
  cases closed with
  | true =>
    by_cases hsame : last = .flowClosed
    · subst hsame
      rfl
    · simp [hsame, effectiveStatus, broadcastStatus, recipients]
  | false =>
    cases blocked with
    | true =>
      by_cases hsame : last = .flowBlocked
      · subst hsame
        rfl
      · simp [hsame, effectiveStatus, broadcastStatus, recipients]
    | false =>
      by_cases hsame : last = .flowOpen
      · subst hsame
        rfl
      · simp [hsame, effectiveStatus, broadcastStatus, recipients]

end Channel

end Mutgos.Channels
