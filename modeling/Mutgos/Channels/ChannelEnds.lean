import Mutgos.Executor.ProcessInfo
import Mutgos.Lib.TransitionSystem

/-!
# The ends of a channel

A channel has one receiver, a process or a callback, and any number of senders.  Which of them
a process is when it adds the channel is told by a PID that has been announced before.

The PID stays after the add that it was announced for.  What the process adds later makes it a
receiver again or is refused, though it is to be a sender then; and one that adds the channel
before and after an announcement can be at both ends.

## Main results

* `assigns_iff` — **the ends are assigned as they should be exactly in the runs in which nobody
  adds the channel so.**
-/

namespace Mutgos.Channels

open Executor (PID RID)

/-- The address of a `TextChannelReceiver` or a `ClientDataReceiver`. -/
abbrev CallbackPtr := ℕ

/-- The ends of an `events::Channel` and its subclasses. -/
structure ChannelEnds where
  /-- `channel_recv_pid` and `channel_recv_rid`; a PID of 0 is no process. -/
  recv : PID × RID
  /-- `channel_send_processes` -/
  sendProcesses : List (PID × RID)
  /-- `channel_resource_add_pid` -/
  resourceAddPid : PID
  recvCallbackPtr : Option CallbackPtr

namespace ChannelEnds

def new : ChannelEnds := ⟨(0, 0), [], 0, none⟩

def nextResourceAddIsReceiver (c : ChannelEnds) (processId : PID) : ChannelEnds :=
  { c with resourceAddPid := processId }

def resourceAddedToProcess (c : ChannelEnds) (processId : PID) (resourceId : RID) :
    Bool × ChannelEnds :=
  if processId = c.resourceAddPid then
    if c.recvCallbackPtr = none ∧
        (c.recv.1 = 0 ∨ processId = c.recv.1 ∧ resourceId = c.recv.2) then
      (true, { c with recv := (processId, resourceId) })
    else (false, c)
  else if (processId, resourceId) ∈ c.sendProcesses then (true, c)
  else (true, { c with sendProcesses := c.sendProcesses ++ [(processId, resourceId)] })

/-- `resource_removed_from_process`, which also closes the channel. -/
def resourceRemovedFromProcess (c : ChannelEnds) (processId : PID) (resourceId : RID) :
    ChannelEnds :=
  if c.recv.1 = processId ∧ c.recv.2 = resourceId then { c with recv := (0, 0) }
  else { c with sendProcesses := c.sendProcesses.erase (processId, resourceId) }

def registerReceiverCallback (c : ChannelEnds) (callbackPtr : CallbackPtr) : ChannelEnds :=
  if c.recv.1 = 0 ∧ (c.recvCallbackPtr = none ∨ c.recvCallbackPtr = some callbackPtr) then
    { c with recvCallbackPtr := some callbackPtr }
  else c

def unregisterReceiverCallback (c : ChannelEnds) (callbackPtr : CallbackPtr) : ChannelEnds :=
  if c.recvCallbackPtr = some callbackPtr then { c with recvCallbackPtr := none } else c

/-- The process is the receiver. -/
def IsReceiver (c : ChannelEnds) (process : PID × RID) : Prop := c.recv.1 ≠ 0 ∧ c.recv = process

end ChannelEnds

/-- The calls that the ends depend on. -/
inductive EndsCall
  | nextResourceAddIsReceiver (processId : PID)
  | resourceAddedToProcess (processId : PID) (resourceId : RID)
  | resourceRemovedFromProcess (processId : PID) (resourceId : RID)
  | registerReceiverCallback (callbackPtr : CallbackPtr)
  | unregisterReceiverCallback (callbackPtr : CallbackPtr)

/-- A channel and what has been done with it. -/
structure EndsHistory where
  ends : ChannelEnds
  /-- What has been returned when a process last added the channel, unless it has removed it. -/
  answered : PID × RID → Option Bool
  /-- The process that has been announced, until it becomes the receiver. -/
  announced : Option PID

namespace EndsHistory

variable {s s' : EndsHistory} {call : EndsCall}

open ChannelEnds (IsReceiver)

def new : EndsHistory := ⟨.new, fun _ => none, none⟩

/-- One call.  No process has the PID 0. -/
def step (s : EndsHistory) : EndsCall → Option (EndsHistory)
  | .nextResourceAddIsReceiver pid =>
    some { s with ends := s.ends.nextResourceAddIsReceiver pid, announced := some pid }
  | .resourceAddedToProcess pid rid =>
    if pid = 0 then none
    else
      let result := s.ends.resourceAddedToProcess pid rid
      some ⟨result.2, Function.update s.answered (pid, rid) (some result.1),
        if s.announced = some pid ∧ result.1 = true then none else s.announced⟩
  | .resourceRemovedFromProcess pid rid =>
    if pid = 0 then none
    else
      some { s with
        ends := s.ends.resourceRemovedFromProcess pid rid
        answered := Function.update s.answered (pid, rid) none }
  | .registerReceiverCallback callbackPtr =>
    some { s with ends := s.ends.registerReceiverCallback callbackPtr }
  | .unregisterReceiverCallback callbackPtr =>
    some { s with ends := s.ends.unregisterReceiverCallback callbackPtr }

/-- There is one receiver, and who has been let in is at one end. -/
structure Assigned (s : EndsHistory) : Prop where
  one : s.ends.recv.1 = 0 ∨ s.ends.recvCallbackPtr = none
  accepted : ∀ process, s.answered process = some true →
    (s.ends.IsReceiver process ∧ process ∉ s.ends.sendProcesses) ∨
      (¬ s.ends.IsReceiver process ∧ s.ends.sendProcesses.count process = 1)
  refused : ∀ process, s.answered process = some false →
    ¬ s.ends.IsReceiver process ∧ process ∉ s.ends.sendProcesses

/-- What a process is with what it adds. -/
structure Roles (s : EndsHistory) (call : EndsCall) (s' : EndsHistory) : Prop where
  /-- Who has been announced becomes the receiver, if there is none. -/
  announced : ∀ pid rid, call = .resourceAddedToProcess pid rid → s.announced = some pid →
    s.ends.recv.1 = 0 → s.ends.recvCallbackPtr = none → s'.ends.IsReceiver (pid, rid)
  /-- Who has not, or has become the receiver, is a sender with what it adds next. -/
  further : ∀ pid rid, call = .resourceAddedToProcess pid rid → s.announced ≠ some pid →
    ¬ s.ends.IsReceiver (pid, rid) →
    s'.answered (pid, rid) = some true ∧ (pid, rid) ∈ s'.ends.sendProcesses

/-- A process that is waited for is no sender with what it adds.  The one whose PID is still
remembered adds only what it receives with, and any other one does not add that. -/
def InTurn (s : EndsHistory) : EndsCall → Prop
  | .resourceAddedToProcess pid rid =>
    if s.announced = some pid then (pid, rid) ∉ s.ends.sendProcesses
    else pid = s.ends.resourceAddPid ↔ s.ends.IsReceiver (pid, rid)
  | _ => True

/-- What the steps keep. -/
structure Inv (s : EndsHistory) : Prop where
  one : s.ends.recv.1 = 0 ∨ s.ends.recvCallbackPtr = none
  nodup : s.ends.sendProcesses.Nodup
  apart : ∀ process, s.ends.IsReceiver process → process ∉ s.ends.sendProcesses
  answered : ∀ process, s.answered process = some true ↔
    s.ends.IsReceiver process ∨ process ∈ s.ends.sendProcesses
  announced : ∀ pid, s.announced = some pid → pid = s.ends.resourceAddPid

theorem inv_new : new.Inv where
  one := .inl rfl
  nodup := .nil
  apart _ h := absurd rfl h.1
  answered process := by simp [new, ChannelEnds.new, IsReceiver]
  announced := nofun

theorem Inv.assigned (h : s.Inv) : s.Assigned where
  one := h.one
  accepted process hanswer := by
    by_cases hrecv : s.ends.IsReceiver process
    · exact .inl ⟨hrecv, h.apart process hrecv⟩
    · have hsender := ((h.answered process).mp hanswer).resolve_left hrecv
      exact .inr ⟨hrecv, List.count_eq_one_of_mem h.nodup hsender⟩
  refused process hanswer := by
    rw [← not_or, ← h.answered, hanswer]
    exact nofun

/-- **An add in turn.** -/
theorem Inv.add (h : s.Inv) {pid : PID} {rid : RID}
    (hturn : s.InTurn (.resourceAddedToProcess pid rid))
    (hstep : s.step (.resourceAddedToProcess pid rid) = some s') :
    s'.Inv ∧ s.Roles (.resourceAddedToProcess pid rid) s' := by
  obtain ⟨hone, hnodup, hapart, hanswered, hannounced⟩ := h
  simp only [step, Option.ite_none_left_eq_some] at hstep
  obtain ⟨hpid, hstep⟩ := hstep
  simp only [InTurn, IsReceiver] at hturn hapart hanswered
  unfold ChannelEnds.resourceAddedToProcess at hstep
  by_cases hadd : pid = s.ends.resourceAddPid
  · simp only [if_pos hadd] at hstep
    split at hstep
    · next hfree =>
      -- it is the receiver now, and if it has been one before, the same one
      cases hstep
      exact ⟨⟨.inr hfree.1, hnodup, by grind [IsReceiver], by grind [IsReceiver], by grind⟩,
        by grind [IsReceiver], by grind [IsReceiver]⟩
    · cases hstep
      exact ⟨⟨hone, hnodup, by grind [IsReceiver], by grind [IsReceiver], by grind⟩,
        by grind [IsReceiver], by grind [IsReceiver]⟩
  · simp only [if_neg hadd] at hstep
    split at hstep
    · cases hstep
      exact ⟨⟨hone, hnodup, by grind [IsReceiver], by grind [IsReceiver], by grind⟩,
        by grind [IsReceiver], by grind [IsReceiver]⟩
    · cases hstep
      exact ⟨⟨hone, by grind, by grind [IsReceiver], by grind [IsReceiver], by grind⟩,
        by grind [IsReceiver], by grind [IsReceiver]⟩

theorem Inv.step (h : s.Inv) (hturn : s.InTurn call) (hstep : s.step call = some s') :
    s'.Inv ∧ s'.Assigned ∧ s.Roles call s' := by
  suffices hkeeps : s'.Inv ∧ s.Roles call s' from ⟨hkeeps.1, hkeeps.1.assigned, hkeeps.2⟩
  obtain ⟨hone, hnodup, hapart, hanswered, hannounced⟩ := id h
  cases call with
  | nextResourceAddIsReceiver pid =>
    cases hstep
    exact ⟨⟨hone, hnodup, hapart, hanswered, fun _ hpid => Option.some.inj hpid.symm⟩, nofun, nofun⟩
  | resourceAddedToProcess pid rid => exact h.add hturn hstep
  | resourceRemovedFromProcess pid rid =>
    simp only [EndsHistory.step, Option.ite_none_left_eq_some] at hstep
    obtain ⟨hpid, hstep⟩ := hstep
    cases hstep
    refine ⟨?_, nofun, nofun⟩
    unfold ChannelEnds.resourceRemovedFromProcess
    split
    · exact ⟨.inl rfl, hnodup, by grind [IsReceiver], by grind [IsReceiver], hannounced⟩
    · exact ⟨hone, hnodup.erase _, by grind [IsReceiver], by grind [IsReceiver], hannounced⟩
  | registerReceiverCallback callbackPtr =>
    cases hstep
    refine ⟨?_, nofun, nofun⟩
    unfold ChannelEnds.registerReceiverCallback
    split
    · next hfree => exact ⟨.inl hfree.1, hnodup, hapart, hanswered, hannounced⟩
    · exact h
  | unregisterReceiverCallback callbackPtr =>
    cases hstep
    refine ⟨?_, nofun, nofun⟩
    unfold ChannelEnds.unregisterReceiverCallback
    split
    · exact ⟨.inr rfl, hnodup, hapart, hanswered, hannounced⟩
    · exact h

/-- **An add out of turn** gives a process both ends, or not the one that is its own. -/
theorem Inv.inTurn (h : s.Inv) (hstep : s.step call = some s')
    (hassigned : s'.Assigned ∧ s.Roles call s') : s.InTurn call := by
  obtain ⟨⟨-, haccepted, hrefused⟩, -, hfurther⟩ := hassigned
  obtain ⟨hone, hnodup, hapart, hanswered, hannounced⟩ := h
  cases call with
  | resourceAddedToProcess pid rid =>
    simp only [EndsHistory.step, Option.ite_none_left_eq_some] at hstep
    obtain ⟨hpid, hstep⟩ := hstep
    cases hstep
    have hyes := haccepted (pid, rid)
    have hno := hrefused (pid, rid)
    have hmore := hfurther pid rid rfl
    unfold ChannelEnds.resourceAddedToProcess at hyes hno hmore
    simp only [InTurn]
    grind [IsReceiver]
  | _ => trivial

/-- **The ends are assigned as they should be all through a run exactly if each process adds the
channel in turn.** -/
theorem assigns_iff {calls : List EndsCall} (h : run EndsHistory.step new calls = some s) :
    (∀ as call bs t t', calls = as ++ call :: bs → run EndsHistory.step new as = some t →
        t.step call = some t' → t'.Assigned ∧ t.Roles call t') ↔
      Steps EndsHistory.step InTurn new calls s :=
  steps_iff_forall_step (P := fun t call t' => t'.Assigned ∧ t.Roles call t')
    (fun _ _ _ ht hturn hstep => ht.step hturn hstep)
    (fun _ _ _ ht hstep => ht.inTurn hstep) inv_new h

/-- A process that receives, and another one that sends. -/
def receiverAndSender : List EndsCall :=
  [.nextResourceAddIsReceiver 1, .resourceAddedToProcess 1 1, .resourceAddedToProcess 2 1]

theorem assigns_iff_receiverAndSender : ∃ s, run EndsHistory.step new receiverAndSender = some s ∧
    ((∀ as call bs t t', receiverAndSender = as ++ call :: bs →
        run EndsHistory.step new as = some t → t.step call = some t' →
        t'.Assigned ∧ t.Roles call t') ↔
      Steps EndsHistory.step InTurn new receiverAndSender s) :=
  ⟨_, rfl, assigns_iff rfl⟩

/-- **The process that receives is refused as a sender.** -/
theorem addedAgain_refused : ∃ t s,
    run EndsHistory.step new [.nextResourceAddIsReceiver 1, .resourceAddedToProcess 1 1] = some t ∧
      t.step (.resourceAddedToProcess 1 2) = some s ∧ s.answered (1, 2) = some false ∧
      ¬ t.Roles (.resourceAddedToProcess 1 2) s := by
  refine ⟨_, _, rfl, rfl, rfl, fun h => ?_⟩
  exact nomatch (h.further 1 2 rfl nofun fun hrecv => absurd hrecv.2 (by decide)).1

end EndsHistory

end Mutgos.Channels
