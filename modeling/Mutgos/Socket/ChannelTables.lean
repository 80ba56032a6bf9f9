import Mutgos.CommInterface.ClientSession
import Mutgos.Lib.KeyedVector
import Mutgos.Lib.PendingEvents
import Mutgos.Lib.SortedMap

/-!
# What a telnet connection knows of its channels

`socket::SocketClientConnection` keeps a stack of input channels and one of output channels, with
what is blocked, the channel of the main input, and the names of puppets by their output channels.
It learns of them by the session's events, and of those there are from the session when it takes
the place of another connection.

When a puppet's channel was last used, and what is acknowledged to the session, are left out.

## Main results

* `ChannelTables.view_clientChannelStatusChanged` — **an event does to the tables what it does to
  the functions.**
-/

namespace Mutgos.Socket

open CommInterface Function Text List
open KeyedVector (Distinct modifyFirst)

/-- `SESSION_AGENT_CHANNEL_NAME`, which is `Session Agent`. -/
def sessionAgentChannelName : ByteString :=
  [83, 101, 115, 115, 105, 111, 110, 32, 65, 103, 101, 110, 116]

/-- What the names of puppets' channels begin with: `Puppet `. -/
def puppetNameStart : ByteString := [80, 117, 112, 112, 101, 116, 32]

/-- `message::ChannelStatusChange`, with what the channel is called. -/
structure NamedStatusChange extends ChannelStatusChange where
  channelName : ByteString
  channelSubtype : ByteString
  deriving DecidableEq

/-- `comm::ClientChannelInfo`, as far as it is looked at. -/
structure ClientChannelInfo where
  channelId : ChannelId
  channelName : ByteString
  channelIsOutgoing : Bool
  channelIsBlocked : Bool
  deriving DecidableEq

/-- `is_puppet` -/
def NamedStatusChange.isPuppet (change : NamedStatusChange) : Bool :=
  puppetNameStart.isPrefixOf change.channelName

/-- The part of `socket::SocketClientConnection` that is about channels. -/
structure ChannelTables where
  /-- `channel_main_input_id`: 0 if there is none. -/
  channelMainInputId : ChannelId
  /-- `channel_input_stack`: each channel with whether it is blocked. -/
  channelInputStack : List (ChannelId × Bool)
  channelOutputStack : List (ChannelId × Bool)
  /-- `puppet_channel_info`: the names of puppets. -/
  puppetChannelInfo : List (ChannelId × ByteString)
  deriving DecidableEq

namespace ChannelTables

/-- The constructor. -/
def new : ChannelTables := ⟨0, [], [], []⟩

/-- The stack for a direction. -/
def stack (t : ChannelTables) (out : Bool) : List (ChannelId × Bool) :=
  if out then t.channelOutputStack else t.channelInputStack

/-- The stack for a direction is changed. -/
def setStack (t : ChannelTables) (out : Bool) (stack : List (ChannelId × Bool)) : ChannelTables :=
  if out then { t with channelOutputStack := stack } else { t with channelInputStack := stack }

/-- Whether a channel is found on the stack. -/
def onStack (t : ChannelTables) (out : Bool) (id : ChannelId) : Bool :=
  (t.stack out).any fun entry => entry.1 = id

/-- A channel that is found on the stack is blocked, or it is not. -/
def setBlocked (t : ChannelTables) (out : Bool) (id : ChannelId) (blocked : Bool) :
    ChannelTables :=
  t.setStack out (modifyFirst Prod.fst id (fun entry => (entry.1, blocked)) (t.stack out))

def clientChannelStatusChanged (t : ChannelTables) (change : NamedStatusChange) : ChannelTables :=
  let id := change.channelId
  let out := change.out
  match change.status with
  | .statusOpen =>
    if change.isPuppet then
      if out then
        { t with
          puppetChannelInfo := SortedMap.insert id change.channelSubtype t.puppetChannelInfo }
      else t
    else if t.onStack out id then t
    else
      let t := t.setStack out (t.stack out ++ [(id, false)])
      if change.channelName = sessionAgentChannelName then { t with channelMainInputId := id }
      else t
  | .statusClose =>
    if change.isPuppet then
      if out then { t with puppetChannelInfo := SortedMap.erase id t.puppetChannelInfo } else t
    else if t.onStack out id then
      let t := if id = t.channelMainInputId then { t with channelMainInputId := 0 } else t
      t.setStack out ((t.stack out).eraseP fun entry => entry.1 = id)
    else t
  | .statusBlock => t.setBlocked out id true
  | .statusUnblock => t.setBlocked out id false

/-- What `client_send_acknowledge_data_reconnect` does with a channel. -/
def addKnownChannel (t : ChannelTables) (info : ClientChannelInfo) : ChannelTables :=
  let t := t.setStack info.channelIsOutgoing
    (t.stack info.channelIsOutgoing ++ [(info.channelId, info.channelIsBlocked)])
  if info.channelName = sessionAgentChannelName then
    { t with channelMainInputId := info.channelId }
  else t

/-- `client_send_acknowledge_data_reconnect`, with what `get_current_channel_info` has
returned. -/
def clientSendAcknowledgeDataReconnect (t : ChannelTables) (channels : List ClientChannelInfo) :
    ChannelTables :=
  channels.foldl addKnownChannel t

end ChannelTables

/-! ### The tables as functions -/

/-- What tells channels apart: an ID is used again once its channel is gone. -/
abbrev ChannelKey := Bool × ChannelId

/-- The direction and ID of the channel that an event is about. -/
def NamedStatusChange.key (change : NamedStatusChange) : ChannelKey :=
  (change.out, change.channelId)

/-- The direction and ID of a channel that there is. -/
def ClientChannelInfo.key (info : ClientChannelInfo) : ChannelKey :=
  (info.channelIsOutgoing, info.channelId)

/-- Whether a channel is the one for the main input. -/
def ClientChannelInfo.isSessionAgent (info : ClientChannelInfo) : Bool :=
  info.channelName = sessionAgentChannelName

/-- What the connection knows of channels. -/
@[ext] structure View where
  /-- Whether a channel is blocked, for those on the stacks. -/
  mark : ChannelKey → Option Bool
  main : ChannelId
  puppet : ChannelId → Option ByteString

namespace View

/-- What an event does. -/
def step (v : View) (change : NamedStatusChange) : View :=
  match change.status with
  | .statusOpen =>
    if change.isPuppet then
      if change.out then
        { v with
          puppet := update v.puppet change.channelId (some change.channelSubtype) }
      else v
    else if (v.mark change.key).isSome then v
    else
      { v with
        mark := update v.mark change.key (some false)
        main :=
          if change.channelName = sessionAgentChannelName then change.channelId else v.main }
  | .statusClose =>
    if change.isPuppet then
      if change.out then { v with puppet := update v.puppet change.channelId none } else v
    else if (v.mark change.key).isSome then
      { v with
        mark := update v.mark change.key none
        main := if change.channelId = v.main then 0 else v.main }
    else v
  | .statusBlock =>
    { v with
      mark := update v.mark change.key ((v.mark change.key).map fun _ => true) }
  | .statusUnblock =>
    { v with
      mark := update v.mark change.key ((v.mark change.key).map fun _ => false) }

end View

/-! ### One stack -/

section Stack

variable {stack : List (ChannelId × Bool)} {id id' : ChannelId}

theorem find_append_singleton (stack : List (ChannelId × Bool)) (id id' : ChannelId)
    (blocked : Bool) : SortedMap.find id' (stack ++ [(id, blocked)]) =
      (SortedMap.find id' stack).or (if id' = id then some blocked else none) := by
  induction stack with
  | nil => simp [SortedMap.find]
  | cons entry stack ih =>
    obtain ⟨k, b⟩ := entry
    rw [cons_append, SortedMap.find, SortedMap.find, ih]
    split <;> rfl

theorem find_modifyFirst (stack : List (ChannelId × Bool)) (id id' : ChannelId) (blocked : Bool) :
    SortedMap.find id' (modifyFirst Prod.fst id (fun entry => (entry.1, blocked)) stack) =
      if id' = id then (SortedMap.find id stack).map fun _ => blocked
      else SortedMap.find id' stack := by
  induction stack with
  | nil => simp [modifyFirst]
  | cons entry stack ih =>
    obtain ⟨k, b⟩ := entry
    rw [modifyFirst]
    by_cases hk : k = id
    · subst hk
      by_cases hid : id' = k <;> simp [SortedMap.find, hid]
    · have hne : id ≠ k := fun heq => hk heq.symm
      rw [if_neg hk, SortedMap.find, SortedMap.find, SortedMap.find, ih, if_neg hne]
      by_cases hid : id' = id
      · rw [if_neg fun heq => hk (heq.symm.trans hid), if_pos hid, if_pos hid]
      · rw [if_neg hid, if_neg hid]

theorem find_isSome_iff (stack : List (ChannelId × Bool)) (id : ChannelId) :
    (SortedMap.find id stack).isSome = stack.any fun entry => entry.1 = id := by
  induction stack with
  | nil => rfl
  | cons entry stack ih =>
    obtain ⟨k, b⟩ := entry
    rw [SortedMap.find, any_cons, ← ih]
    by_cases hk : k = id
    · simp [hk]
    · have hne : id ≠ k := fun heq => hk heq.symm
      simp [hk, hne]

theorem find_eraseP (h : Distinct Prod.fst stack) (id id' : ChannelId) :
    SortedMap.find id' (stack.eraseP fun entry => entry.1 = id) =
      if id' = id then none else SortedMap.find id' stack := by
  induction stack with
  | nil => simp
  | cons entry stack ih =>
    obtain ⟨k, b⟩ := entry
    obtain ⟨hout, hrest⟩ := nodup_cons.mp h
    by_cases hk : k = id
    · subst hk
      rw [eraseP_cons_of_pos (by simp), SortedMap.find]
      by_cases hid : id' = k
      · subst hid
        have hnone : SortedMap.find id' stack = none := by
          cases hfind : SortedMap.find id' stack with
          | none => rfl
          | some b' => exact absurd (SortedMap.mem_keys_of_find hfind) hout
        rw [if_pos rfl, hnone]
      · rw [if_neg hid, if_neg hid]
    · rw [eraseP_cons_of_neg (by simp [hk]), SortedMap.find, SortedMap.find, ih hrest]
      by_cases hid : id' = id
      · rw [if_neg fun heq => hk (heq.symm.trans hid), if_pos hid, if_pos hid]
      · rw [if_neg hid, if_neg hid]

end Stack

/-! ### The tables -/

namespace ChannelTables

/-- No channel is on a stack twice. -/
def Distinct (t : ChannelTables) : Prop := ∀ out, KeyedVector.Distinct Prod.fst (t.stack out)

/-- The tables as functions. -/
def view (t : ChannelTables) : View where
  mark key := SortedMap.find key.2 (t.stack key.1)
  main := t.channelMainInputId
  puppet id := SortedMap.find id t.puppetChannelInfo

variable {t : ChannelTables}

theorem view_new : new.view = ⟨fun _ => none, 0, fun _ => none⟩ := by
  refine View.ext ?_ rfl rfl
  funext ⟨out, id⟩
  cases out <;> rfl

@[simp] theorem stack_setStack (t : ChannelTables) (out out' : Bool)
    (s : List (ChannelId × Bool)) :
    (t.setStack out s).stack out' = if out' = out then s else t.stack out' := by
  cases out <;> cases out' <;> rfl

@[simp] theorem channelMainInputId_setStack (t : ChannelTables) (out : Bool)
    (s : List (ChannelId × Bool)) :
    (t.setStack out s).channelMainInputId = t.channelMainInputId := by
  cases out <;> rfl

@[simp] theorem puppetChannelInfo_setStack (t : ChannelTables) (out : Bool)
    (s : List (ChannelId × Bool)) :
    (t.setStack out s).puppetChannelInfo = t.puppetChannelInfo := by
  cases out <;> rfl

@[simp] theorem stack_withMain (t : ChannelTables) (id : ChannelId) (out : Bool) :
    { t with channelMainInputId := id }.stack out = t.stack out := rfl

@[simp] theorem stack_withPuppets (t : ChannelTables) (puppets : List (ChannelId × ByteString))
    (out : Bool) : { t with puppetChannelInfo := puppets }.stack out = t.stack out := rfl

theorem onStack_eq (t : ChannelTables) (key : ChannelKey) :
    t.onStack key.1 key.2 = (t.view.mark key).isSome :=
  (find_isSome_iff _ _).symm

variable {out : Bool} {s : List (ChannelId × Bool)} {info : ClientChannelInfo}

/-- One mark changes where one stack is changed for one channel. -/
theorem view_setStack {id : ChannelId} {mark : Option Bool}
    (h : ∀ id', SortedMap.find id' s = if id' = id then mark else
      SortedMap.find id' (t.stack out)) :
    (t.setStack out s).view =
      { t.view with mark := update t.view.mark (out, id) mark } := by
  refine View.ext ?_ (channelMainInputId_setStack t out s) ?_
  · funext ⟨out', id'⟩
    dsimp only [view]
    rw [stack_setStack, update_apply]
    by_cases hout : out' = out
    · subst hout
      rw [if_pos rfl, h]
      simp
    · rw [if_neg hout, if_neg fun heq => hout (congrArg Prod.fst heq)]
  · funext id'
    exact congrArg (SortedMap.find id') (puppetChannelInfo_setStack t out s)

theorem view_setBlocked (t : ChannelTables) (out : Bool) (id : ChannelId) (blocked : Bool) :
    (t.setBlocked out id blocked).view =
      { t.view with
        mark := update t.view.mark (out, id)
          ((t.view.mark (out, id)).map fun _ => blocked) } :=
  view_setStack fun id' => find_modifyFirst (t.stack out) id id' blocked

/-- A channel that is not on its stack is put there. -/
theorem view_push {id : ChannelId} (h : t.view.mark (out, id) = none) (blocked : Bool) :
    (t.setStack out (t.stack out ++ [(id, blocked)])).view =
      { t.view with mark := update t.view.mark (out, id) (some blocked) } := by
  refine view_setStack fun id' => ?_
  rw [find_append_singleton]
  by_cases hid : id' = id
  · subst hid
    have hnone : SortedMap.find id' (t.stack out) = none := h
    rw [hnone, if_pos rfl]
    rfl
  · rw [if_neg hid, if_neg hid, Option.or_none]

/-- The puppets are changed for one channel. -/
theorem view_withPuppets {puppets : List (ChannelId × ByteString)} {id : ChannelId}
    {name : Option ByteString}
    (h : ∀ id', SortedMap.find id' puppets =
      if id' = id then name else SortedMap.find id' t.puppetChannelInfo) :
    { t with puppetChannelInfo := puppets }.view =
      { t.view with puppet := update t.view.puppet id name } := by
  refine View.ext rfl rfl ?_
  funext id'
  exact (h id').trans (update_apply t.view.puppet id name id').symm

/-- **An event does to the tables what it does to the functions.** -/
theorem view_clientChannelStatusChanged (h : t.Distinct) (change : NamedStatusChange) :
    (t.clientChannelStatusChanged change).view = t.view.step change := by
  have hon : t.onStack change.out change.channelId = (t.view.mark change.key).isSome :=
    t.onStack_eq change.key
  unfold clientChannelStatusChanged View.step
  cases change.status with
  | statusOpen =>
    dsimp only
    rw [hon]
    split
    · split
      · exact view_withPuppets fun id => SortedMap.find_insert _ id _ _
      · rfl
    · split
      · rfl
      · next hmark =>
        have hnone : t.view.mark change.key = none := by simpa using hmark
        have hpush := view_push hnone false
        split
        · exact congrArg (fun v : View => { v with main := change.channelId }) hpush
        · exact hpush
  | statusClose =>
    dsimp only
    rw [hon]
    split
    · split
      · exact view_withPuppets fun id => SortedMap.find_erase _ id _
      · rfl
    · split
      · have herase := fun id => find_eraseP (h change.out) change.channelId id
        by_cases hmain : change.channelId = t.channelMainInputId
        · have hview : change.channelId = t.view.main := hmain
          rw [if_pos hmain, if_pos hview]
          exact view_setStack (t := { t with channelMainInputId := 0 }) herase
        · have hview : change.channelId ≠ t.view.main := hmain
          rw [if_neg hmain, if_neg hview]
          exact view_setStack herase
      · rfl
  | statusBlock => exact view_setBlocked t _ _ _
  | statusUnblock => exact view_setBlocked t _ _ _

/-! ### No channel twice -/

theorem distinct_new : new.Distinct := fun out => by cases out <;> exact .nil

theorem Distinct.setStack (h : t.Distinct) (out : Bool) (hs : KeyedVector.Distinct Prod.fst s) :
    (t.setStack out s).Distinct := by
  intro out'
  rw [stack_setStack]
  split
  · exact hs
  · exact h out'

theorem Distinct.push (h : t.Distinct) {id : ChannelId} (hnone : t.view.mark (out, id) = none)
    (blocked : Bool) : (t.setStack out (t.stack out ++ [(id, blocked)])).Distinct := by
  refine h.setStack out (KeyedVector.distinct_append (h out) (nodup_singleton _) ?_)
  intro entry hentry new hnew heq
  obtain rfl := mem_singleton.mp hnew
  have hkey : entry.1 = id := heq
  have hfind : SortedMap.find id (t.stack out) = none := hnone
  exact SortedMap.find_ne_none (hkey ▸ mem_map_of_mem hentry) hfind

theorem Distinct.setBlocked (h : t.Distinct) (out : Bool) (id : ChannelId) (blocked : Bool) :
    (t.setBlocked out id blocked).Distinct :=
  h.setStack out (KeyedVector.Distinct.modifyFirst (f := fun entry => (entry.1, blocked)) (h out)
    (fun _ => rfl) id)

theorem Distinct.clientChannelStatusChanged (h : t.Distinct) (change : NamedStatusChange) :
    (t.clientChannelStatusChanged change).Distinct := by
  have hon : t.onStack change.out change.channelId = (t.view.mark change.key).isSome :=
    t.onStack_eq change.key
  unfold ChannelTables.clientChannelStatusChanged
  cases change.status with
  | statusOpen =>
    dsimp only
    rw [hon]
    split
    · split <;> exact h
    · split
      · exact h
      · next hmark =>
        have hnone : t.view.mark change.key = none := by simpa using hmark
        have hpush := h.push hnone false
        split <;> exact hpush
  | statusClose =>
    dsimp only
    split
    · split <;> exact h
    · split
      · have herase : KeyedVector.Distinct Prod.fst
            ((t.stack change.out).eraseP fun entry => entry.1 = change.channelId) :=
          (h change.out).sublist (eraseP_sublist.map _)
        split
        · exact Distinct.setStack (t := { t with channelMainInputId := 0 }) h _ herase
        · exact h.setStack _ herase
      · exact h
  | statusBlock => exact h.setBlocked _ _ _
  | statusUnblock => exact h.setBlocked _ _ _

/-! ### The channels that there are -/

/-- A channel is added. -/
theorem view_addKnownChannel (hnone : t.view.mark info.key = none) :
    (t.addKnownChannel info).view =
      { t.view with
        mark := update t.view.mark info.key (some info.channelIsBlocked)
        main := if info.isSessionAgent then info.channelId else t.view.main } := by
  have hpush := view_push hnone info.channelIsBlocked
  unfold addKnownChannel
  by_cases hname : info.channelName = sessionAgentChannelName
  · have hagent : info.isSessionAgent = true := decide_eq_true hname
    rw [if_pos hname, if_pos hagent]
    exact congrArg (fun v : View => { v with main := info.channelId }) hpush
  · have hagent : info.isSessionAgent = false := decide_eq_false hname
    rw [if_neg hname, hagent]
    exact hpush

theorem Distinct.addKnownChannel (h : t.Distinct) (hnone : t.view.mark info.key = none) :
    (t.addKnownChannel info).Distinct := by
  have hpush := h.push hnone info.channelIsBlocked
  unfold ChannelTables.addKnownChannel
  split <;> exact hpush

/-- What a new connection learns from the channels that there are. -/
theorem view_clientSendAcknowledgeDataReconnect {channels : List ClientChannelInfo}
    (h : KeyedVector.Distinct ClientChannelInfo.key channels) :
    let t := new.clientSendAcknowledgeDataReconnect channels
    t.Distinct ∧ t.view =
      { mark := fun key =>
          (channels.find? fun info => info.key = key).map ClientChannelInfo.channelIsBlocked
        main := ((PendingEvents.lastAbout ClientChannelInfo.isSessionAgent channels).map
          ClientChannelInfo.channelId).getD 0
        puppet := fun _ => none } := by
  induction channels using List.reverseRecOn with
  | nil => exact ⟨distinct_new, view_new⟩
  | append_singleton channels info ih =>
    rw [KeyedVector.Distinct, map_append, map_singleton] at h
    have hothers : ∀ c ∈ channels, c.key ≠ info.key := by
      intro c hc heq
      exact (nodup_append.mp h).2.2 _ (mem_map_of_mem hc) _ mem_cons_self heq
    obtain ⟨hdistinct, hview⟩ := ih (nodup_append.mp h).1
    have hnone : (channels.find? fun c => c.key = info.key) = none := by
      rw [find?_eq_none]
      intro c hc
      simpa using hothers c hc
    have hmark : (new.clientSendAcknowledgeDataReconnect channels).view.mark info.key = none := by
      rw [hview]
      exact congrArg (Option.map ClientChannelInfo.channelIsBlocked) hnone
    unfold clientSendAcknowledgeDataReconnect at hdistinct hview hmark ⊢
    rw [foldl_append]
    refine ⟨hdistinct.addKnownChannel hmark, (view_addKnownChannel hmark).trans ?_⟩
    rw [hview]
    refine View.ext ?_ ?_ rfl
    · funext key
      dsimp only
      rw [update_apply, find?_append, find?_singleton]
      by_cases hkey : key = info.key
      · subst hkey
        rw [if_pos rfl, hnone]
        simp
      · have hne : info.key ≠ key := fun heq => hkey heq.symm
        rw [if_neg hkey, if_neg (by simpa using hne), Option.or_none]
    · dsimp only
      rw [PendingEvents.lastAbout_append, PendingEvents.lastAbout_singleton]
      split <;> rfl

end ChannelTables

end Mutgos.Socket
