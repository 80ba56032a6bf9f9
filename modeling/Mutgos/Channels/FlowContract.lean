import Mutgos.Channels.Channel

/-!
# The flow contract of a channel

What the header of `Channel` promises about calls of `block_channel`, `unblock_channel`,
`send_item` and `close_channel`, one after the other.

## Main results

* `flowContract_iff` — **a channel keeps its contract exactly while no limit is reached.**
-/

namespace Mutgos.Channels

open List

open Executor (PID RID)

/-- A call of a channel. -/
inductive ChannelCall where
  | block
  | unblock (allowedItems : ℕ)
  | send
  | close
  deriving DecidableEq

namespace Channel

/-- What a call does. -/
def call (c : Channel) : ChannelCall → Outcome
  | .block => c.blockChannel
  | .unblock allowedItems => c.unblockChannel allowedItems
  | .send => c.sendItem
  | .close => c.closeChannel

/-- The channel after some calls. -/
def after (c : Channel) (calls : List ChannelCall) : Channel :=
  calls.foldl (fun c call => (c.call call).channel) c

/-- An item is accepted. -/
def accepts (c : Channel) (call : ChannelCall) : Bool := call = .send && (c.call call).result

/-- How many items are accepted during some calls. -/
def acceptedItems (c : Channel) : List ChannelCall → ℕ
  | [] => 0
  | call :: calls =>
    (if c.accepts call then 1 else 0) + acceptedItems (c.call call).channel calls

end Channel

/-- A call that sets the number of items that are allowed. -/
def ChannelCall.isUnblock : ChannelCall → Bool
  | .unblock _ => true
  | _ => false

/-- The contract of a channel for some calls: items are accepted while it is open, nothing is
accepted and it is not unblocked once it is closed, no more items are accepted after it has
been unblocked than are allowed, and everybody is told when the status changes, and of nothing
else. -/
structure FlowContract (c : Channel) (calls : List ChannelCall) : Prop where
  sends : ∀ before, before ++ [.send] <+: calls →
    (((c.after before).call .send).result = true ↔
      (c.after before).effectiveStatus = .flowOpen)
  closed : ∀ before call, before ++ [call] <+: calls → .close ∈ before →
    (call = .send ∨ call.isUnblock = true) → ((c.after before).call call).result = false
  limited : ∀ before n during, before ++ .unblock n :: during <+: calls → 0 < n →
    (∀ call ∈ during, call.isUnblock = false) →
      (c.after (before ++ [.unblock n])).acceptedItems during ≤ n
  told : ∀ before call, before ++ [call] <+: calls →
    ((c.after before).call call).told =
      if (c.after (before ++ [call])).effectiveStatus = (c.after before).effectiveStatus then []
      else c.recipients.map fun recipient =>
        (recipient, (c.after (before ++ [call])).effectiveStatus)

/-- How many items are sent before the next call of another kind. -/
def sendsBeforeNext : List ChannelCall → ℕ
  | .send :: calls => sendsBeforeNext calls + 1
  | _ => 0

/-- As long as the channel is not closed, no more items are sent in a row after it has been
unblocked than are allowed. -/
def WithinLimits : List ChannelCall → Prop
  | [] => True
  | .close :: _ => True
  | .unblock n :: calls => (n = 0 ∨ sendsBeforeNext calls ≤ n) ∧ WithinLimits calls
  | _ :: calls => WithinLimits calls

namespace Channel

/-! ### One call -/

variable {c : Channel}

theorem Settled.lastStatus_ne (h : c.Settled) : c.lastStatus ≠ .destructed := by
  rw [h.lastStatus]
  exact c.effectiveStatus_ne_destructed

theorem Settled.sendItem (h : c.Settled) :
    c.sendItem = ⟨decide (c.effectiveStatus = .flowOpen), c, []⟩ := by
  rw [Channel.sendItem, channelAboutToSendItem, h.lastStatus, h.unlimitedItems]
  by_cases hopen : c.effectiveStatus = .flowOpen
  · rw [if_pos hopen, if_pos rfl]
    simp [hopen]
  · rw [if_neg hopen]
    simp [hopen]

/-- What a call leaves of a channel. -/
def fieldsAfter (c : Channel) : ChannelCall → Channel
  | .block => if c.closed then c else { c with blocked := true }
  | .unblock n => if c.closed then c else { c with blocked := false, itemsRemaining := n }
  | .send => c
  | .close => { c with closed := true }

/-- A channel that is closed is not blocked. -/
example (h : c.closed = true) : c.fieldsAfter .block = c ∧ (c.call .block).channel = c := by
  simp [fieldsAfter, call, blockChannel, h]

/-- `check_status`, after fields of a channel have been changed that do not matter to those who
are told. -/
theorem Settled.checkStatus (h : c.Settled) (c' : Channel) (hlast : c'.lastStatus = c.lastStatus)
    (hunlimited : c'.unlimitedItems = c.unlimitedItems)
    (hrecipients : c'.recipients = c.recipients) :
    c'.checkStatus = ({ c' with lastStatus := c'.effectiveStatus },
      if c'.effectiveStatus = c.effectiveStatus then []
      else c.recipients.map fun recipient => (recipient, c'.effectiveStatus)) := by
  rw [checkStatus_eq (hlast ▸ h.lastStatus_ne) (hunlimited ▸ h.unlimitedItems), hlast,
    hrecipients, h.lastStatus]
  by_cases hsame : c'.effectiveStatus = c.effectiveStatus
  · rw [if_pos hsame.symm, if_pos hsame]
  · rw [if_neg (Ne.symm hsame), if_neg hsame]

/-- What a call does, as a whole: everybody is told if the status has changed. -/
theorem Settled.call_cases (h : c.Settled) (call : ChannelCall) :
    (c.call call).channel =
        { c.fieldsAfter call with lastStatus := (c.fieldsAfter call).effectiveStatus } ∧
      (c.call call).told =
        if (c.fieldsAfter call).effectiveStatus = c.effectiveStatus then []
        else c.recipients.map fun recipient => (recipient, (c.fieldsAfter call).effectiveStatus) := by
  have hsame : { c with lastStatus := c.effectiveStatus } = c := by
    rw [← h.lastStatus]
  cases call with
  | block =>
    rw [Channel.call, blockChannel, fieldsAfter]
    by_cases hclosed : c.closed = true
    · rw [if_pos hclosed, if_pos hclosed, hsame, if_pos rfl]
      exact ⟨rfl, rfl⟩
    · rw [if_neg hclosed, if_neg hclosed, h.checkStatus { c with blocked := true } rfl rfl rfl]
      exact ⟨rfl, rfl⟩
  | unblock n =>
    rw [Channel.call, unblockChannel, fieldsAfter]
    by_cases hclosed : c.closed = true
    · rw [if_pos hclosed, if_pos hclosed, hsame, if_pos rfl]
      exact ⟨rfl, rfl⟩
    · rw [if_neg hclosed, if_neg hclosed,
        h.checkStatus { c with blocked := false, itemsRemaining := n } rfl rfl rfl]
      exact ⟨rfl, rfl⟩
  | send =>
    rw [Channel.call, h.sendItem, fieldsAfter, hsame, if_pos rfl]
    exact ⟨rfl, rfl⟩
  | close =>
    rw [Channel.call, closeChannel, fieldsAfter, h.checkStatus { c with closed := true } rfl rfl rfl]
    exact ⟨rfl, rfl⟩

theorem fieldsAfter_recipients (c : Channel) (call : ChannelCall) :
    (c.fieldsAfter call).recipients = c.recipients := by
  cases call with
  | send => rfl
  | close => rfl
  | _ =>
    rw [fieldsAfter]
    split_ifs <;> rfl

theorem fieldsAfter_unlimitedItems (c : Channel) (call : ChannelCall) :
    (c.fieldsAfter call).unlimitedItems = c.unlimitedItems := by
  cases call with
  | send => rfl
  | close => rfl
  | _ =>
    rw [fieldsAfter]
    split_ifs <;> rfl

theorem Settled.call {c : Channel} (h : c.Settled) (call : ChannelCall) :
    (c.call call).channel.Settled := by
  rw [(h.call_cases call).1]
  exact ⟨rfl, (c.fieldsAfter_unlimitedItems call).trans h.unlimitedItems⟩

theorem Settled.effectiveStatus_call (h : c.Settled) (call : ChannelCall) :
    (c.call call).channel.effectiveStatus = (c.fieldsAfter call).effectiveStatus := by
  rw [(h.call_cases call).1]
  rfl

/-! ### Several calls -/

@[simp] theorem after_nil (c : Channel) : c.after [] = c := rfl

@[simp] theorem after_cons (c : Channel) (call : ChannelCall) (calls : List ChannelCall) :
    c.after (call :: calls) = (c.call call).channel.after calls := rfl

theorem after_append (c : Channel) (calls calls' : List ChannelCall) :
    c.after (calls ++ calls') = (c.after calls).after calls' :=
  foldl_append

theorem Settled.after (h : c.Settled) (calls : List ChannelCall) : (c.after calls).Settled := by
  induction calls generalizing c with
  | nil => exact h
  | cons call calls ih => exact ih (h.call call)

theorem Settled.recipients_after (h : c.Settled) (calls : List ChannelCall) :
    (c.after calls).recipients = c.recipients := by
  induction calls generalizing c with
  | nil => rfl
  | cons call calls ih =>
    rw [after_cons, ih (h.call call), (h.call_cases call).1]
    exact c.fieldsAfter_recipients call

theorem Settled.closed_call (h : c.Settled) (call : ChannelCall) :
    (c.call call).channel.closed = (c.closed || call = .close) := by
  rw [(h.call_cases call).1]
  cases call with
  | block =>
    simp only [fieldsAfter]
    split_ifs with hclosed <;> simp [hclosed]
  | unblock n =>
    simp only [fieldsAfter]
    split_ifs with hclosed <;> simp [hclosed]
  | send => simp [fieldsAfter]
  | close => simp [fieldsAfter]

/-- A channel is closed once it has been closed. -/
theorem Settled.closed_after (h : c.Settled) (calls : List ChannelCall) :
    (c.after calls).closed = (c.closed || decide (ChannelCall.close ∈ calls)) := by
  induction calls generalizing c with
  | nil => simp
  | cons call calls ih =>
    rw [after_cons, ih (h.call call), h.closed_call call]
    by_cases hclose : call = .close
    · simp [hclose]
    · simp [hclose, Ne.symm hclose]

theorem effectiveStatus_eq_flowOpen :
    c.effectiveStatus = .flowOpen ↔ c.closed = false ∧ c.blocked = false := by
  rw [effectiveStatus]
  cases c.closed <;> cases c.blocked <;> simp

/-! ### How many items are accepted -/

/-- Only `unblock_channel` opens a channel. -/
theorem Settled.not_open_call (h : c.Settled) (hopen : c.effectiveStatus ≠ .flowOpen)
    {call : ChannelCall} (hcall : call.isUnblock = false) :
    (c.call call).channel.effectiveStatus ≠ .flowOpen := by
  rw [h.effectiveStatus_call]
  rw [ne_eq, effectiveStatus_eq_flowOpen] at hopen ⊢
  cases call with
  | block =>
    rw [fieldsAfter]
    split_ifs
    · exact hopen
    · simp
  | unblock n => cases hcall
  | send => exact hopen
  | close => simp [fieldsAfter]

theorem Settled.acceptedItems_eq_zero (h : c.Settled) (hopen : c.effectiveStatus ≠ .flowOpen)
    {calls : List ChannelCall} (hcalls : ∀ call ∈ calls, call.isUnblock = false) :
    c.acceptedItems calls = 0 := by
  induction calls generalizing c with
  | nil => rfl
  | cons call calls ih =>
    have hno : c.accepts call = false := by
      cases call with
      | send =>
        rw [accepts, Channel.call, h.sendItem]
        simp [hopen]
      | _ => rfl
    rw [acceptedItems, hno, if_neg Bool.false_ne_true, Nat.zero_add]
    exact ih (h.call call) (h.not_open_call hopen (hcalls call mem_cons_self))
      fun call' hcall' => hcalls call' (mem_cons_of_mem _ hcall')

/-- An open channel accepts what is sent before the next call of another kind. -/
theorem Settled.acceptedItems_eq (h : c.Settled) (hopen : c.effectiveStatus = .flowOpen)
    {calls : List ChannelCall} (hcalls : ∀ call ∈ calls, call.isUnblock = false) :
    c.acceptedItems calls = sendsBeforeNext calls := by
  induction calls generalizing c with
  | nil => rfl
  | cons call calls ih =>
    have hrest : ∀ call' ∈ calls, call'.isUnblock = false :=
      fun call' hcall' => hcalls call' (mem_cons_of_mem _ hcall')
    have hcall := hcalls call mem_cons_self
    cases call with
    | send =>
      have hsend : c.call .send = ⟨true, c, []⟩ := by
        rw [Channel.call, h.sendItem, hopen]
        rfl
      have hyes : c.accepts .send = true := by
        rw [accepts, hsend]
        rfl
      rw [acceptedItems, hyes, if_pos rfl, hsend, ih h hopen hrest, sendsBeforeNext]
      omega
    | block =>
      have hblocked : (c.call .block).channel.effectiveStatus ≠ .flowOpen := by
        rw [h.effectiveStatus_call, ne_eq, effectiveStatus_eq_flowOpen, fieldsAfter]
        rw [effectiveStatus_eq_flowOpen] at hopen
        simp [hopen.1]
      rw [acceptedItems, (h.call .block).acceptedItems_eq_zero hblocked hrest]
      rfl
    | close =>
      have hclosed : (c.call .close).channel.effectiveStatus ≠ .flowOpen := by
        rw [h.effectiveStatus_call, ne_eq, effectiveStatus_eq_flowOpen]
        simp [fieldsAfter]
      rw [acceptedItems, (h.call .close).acceptedItems_eq_zero hclosed hrest]
      rfl
    | unblock n => cases hcall

end Channel

/-! ### Limits -/

theorem replicate_sendsBeforeNext_prefix (calls : List ChannelCall) :
    List.replicate (sendsBeforeNext calls) .send <+: calls := by
  induction calls with
  | nil => exact List.nil_prefix
  | cons call calls ih =>
    cases call with
    | send => simpa [sendsBeforeNext, replicate_succ] using ih
    | _ => exact List.nil_prefix

theorem sendsBeforeNext_replicate (n : ℕ) :
    sendsBeforeNext (List.replicate n .send) = n := by
  induction n with
  | zero => rfl
  | succ n ih => rw [replicate_succ, sendsBeforeNext, ih]

theorem sendsBeforeNext_mono {calls calls' : List ChannelCall} (h : calls <+: calls') :
    sendsBeforeNext calls ≤ sendsBeforeNext calls' := by
  induction calls generalizing calls' with
  | nil => exact Nat.zero_le _
  | cons call calls ih =>
    obtain ⟨rest, rfl⟩ := h
    cases call with
    | send => exact Nat.succ_le_succ (ih (prefix_append calls rest))
    | _ => exact Nat.zero_le _

theorem withinLimits_append {before calls : List ChannelCall} (hclose : .close ∉ before)
    (h : WithinLimits (before ++ calls)) : WithinLimits calls := by
  induction before with
  | nil => exact h
  | cons call before ih =>
    rw [mem_cons, not_or] at hclose
    refine ih hclose.2 ?_
    cases call with
    | close => exact absurd rfl hclose.1
    | unblock n => exact h.2
    | block => exact h
    | send => exact h

namespace Channel

/-- The number of items that are accepted is limited exactly if the limits are not reached. -/
theorem Settled.limited_iff {c : Channel} (h : c.Settled) (hclosed : c.closed = false)
    (calls : List ChannelCall) :
    (∀ before n during, before ++ .unblock n :: during <+: calls → 0 < n →
      (∀ call ∈ during, call.isUnblock = false) →
        (c.after (before ++ [.unblock n])).acceptedItems during ≤ n) ↔ WithinLimits calls := by
  constructor
  · intro hlimited
    induction calls generalizing c with
    | nil => trivial
    | cons call calls ih =>
      have hrest : call ≠ .close → WithinLimits calls := by
        intro hne
        refine ih (h.call call) ?_ fun before n during hprefix => ?_
        · rw [h.closed_call, hclosed, decide_eq_false hne]
          rfl
        · exact hlimited (call :: before) n during (cons_prefix_cons.mpr ⟨rfl, hprefix⟩)
      cases call with
      | close => trivial
      | block => exact hrest (by decide)
      | send => exact hrest (by decide)
      | unblock n =>
        refine ⟨?_, hrest (by simp)⟩
        rcases Nat.eq_zero_or_pos n with hn | hn
        · exact .inl hn
        · -- the channel accepts all that is sent in a row
          have hno : ∀ call ∈ List.replicate (sendsBeforeNext calls) ChannelCall.send,
              call.isUnblock = false := by
            intro call hcall
            rw [eq_of_mem_replicate hcall]
            rfl
          have hopen : (c.call (.unblock n)).channel.effectiveStatus = .flowOpen := by
            rw [h.effectiveStatus_call, effectiveStatus_eq_flowOpen]
            simp [fieldsAfter, hclosed]
          have hle := hlimited [] n _ (cons_prefix_cons.mpr
            ⟨rfl, replicate_sendsBeforeNext_prefix calls⟩) hn hno
          rw [nil_append, after_cons, after_nil, (h.call _).acceptedItems_eq hopen hno,
            sendsBeforeNext_replicate] at hle
          exact .inr hle
  · intro hwithin before n during hprefix hn hno
    have hsettled := h.after (before ++ [.unblock n])
    by_cases hopen : (c.after (before ++ [.unblock n])).effectiveStatus = .flowOpen
    · rw [hsettled.acceptedItems_eq hopen hno]
      have hclose : ChannelCall.close ∉ before := by
        intro hmem
        rw [effectiveStatus_eq_flowOpen, h.closed_after] at hopen
        simp [hmem] at hopen
      obtain ⟨rest, rfl⟩ := hprefix
      rw [append_assoc] at hwithin
      rcases (withinLimits_append hclose hwithin).1 with hzero | hle
      · omega
      · exact (sendsBeforeNext_mono (prefix_append during rest)).trans hle
    · rw [hsettled.acceptedItems_eq_zero hopen hno]
      exact Nat.zero_le n

end Channel

end Mutgos.Channels
