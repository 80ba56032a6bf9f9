import Mutgos.Executor.Reachable

/-!
# No lost wake-ups

A process is parked only when it has nothing to do: one that waits for a message
or sleeps has none, and a blocked one that owns blocking resources still waits
for one of them.  So a message that has been queued finds a process that will
look at it, or that is blocked on a resource it owns.  Two kinds of process keep
a message and do not look at it: one that is completed, and one that is blocked
and owns no blocking resource, for which a message without a RID does not count.

## Main results

* `noLostWakeup` — **in every such run every process is settled, and attends to
  its messages.**
-/

namespace Mutgos.Executor

open Function Finset

namespace ProcessInfo

/-- A process waits for blocking resources of its own. -/
structure WaitSetOwned (info : ProcessInfo) : Prop where
  blocking : info.blockedResources ⊆ info.defaultBlockedResources
  owned : ∀ rid ∈ info.defaultBlockedResources, rid ∈ info.resources

/-- A process between two sections: parked only when it has nothing to do. -/
structure Settled (info : ProcessInfo) : Prop extends WaitSetOwned info where
  resting : info.processState ≠ .scheduling ∧ info.processState ≠ .endInvalid
  idle : info.processState = .waitMessage ∨ info.processState = .sleeping →
    info.waitingMessages = []
  waiting : info.processState = .blocked → info.defaultBlockedResources ≠ ∅ →
    info.blockedResources ≠ ∅

/-- The process will look at its messages, or waits for a blocking resource that it
owns. -/
def Attentive (info : ProcessInfo) : Prop :=
  info.processState = .ready ∨ info.processState = .executing ∨ info.processState = .killed ∨
    info.processState = .created ∨ info.processState = .suspended ∨
    info.processState = .blocked ∧ ∃ rid ∈ info.blockedResources, rid ∈ info.resources

/-- Whoever has messages is attentive, is done, or is blocked without owning a
blocking resource. -/
def Attended (info : ProcessInfo) : Prop :=
  info.waitingMessages ≠ [] → info.Attentive ∨ info.processState = .completed ∨
    info.processState = .blocked ∧ info.defaultBlockedResources = ∅

variable {info info' : ProcessInfo}

theorem Settled.attended (h : info.Settled) : info.Attended := by
  intro hmessages
  cases hs : info.processState with
  | waitMessage => exact absurd (h.idle (.inl hs)) hmessages
  | sleeping => exact absurd (h.idle (.inr hs)) hmessages
  | scheduling => exact absurd hs h.resting.1
  | endInvalid => exact absurd hs h.resting.2
  | completed => exact .inr (.inl rfl)
  | blocked =>
    by_cases hnone : info.defaultBlockedResources = ∅
    · exact .inr (.inr ⟨rfl, hnone⟩)
    · obtain ⟨rid, hrid⟩ := nonempty_iff_ne_empty.mpr (h.waiting hs hnone)
      have howned := h.owned rid (h.blocking hrid)
      have hwaits : info.Attentive := by simp [Attentive, hs]; exact ⟨rid, hrid, howned⟩
      exact .inl hwaits
  | _ => exact .inl (by simp [Attentive, hs])

/-- A process in a state in which it is not parked, or waits to be started, needs
nothing but its wait set. -/
theorem WaitSetOwned.settled (h : info.WaitSetOwned)
    (hs : info.processState = .ready ∨ info.processState = .executing ∨
      info.processState = .killed ∨ info.processState = .created ∨
      info.processState = .suspended ∨ info.processState = .completed) : info.Settled where
  toWaitSetOwned := h
  resting := by rcases hs with hs | hs | hs | hs | hs | hs <;> rw [hs] <;> decide
  idle := by
    rcases hs with hs | hs | hs | hs | hs | hs <;> rw [hs] <;> rintro (h | h) <;> cases h
  waiting := by
    rcases hs with hs | hs | hs | hs | hs | hs <;> rw [hs] <;> intro h <;> cases h

/-- Only the resources and the two sets matter for the wait set. -/
theorem WaitSetOwned.congr (h : info.WaitSetOwned) (hr : info'.resources = info.resources)
    (hd : info'.defaultBlockedResources = info.defaultBlockedResources)
    (hb : info'.blockedResources = info.blockedResources) : info'.WaitSetOwned :=
  ⟨by rw [hb, hd]; exact h.blocking, by rw [hd, hr]; exact h.owned⟩

theorem processState_scheduled (info : ProcessInfo) :
    info.scheduled.processState = .ready ∨ info.scheduled.processState = .executing ∨
      info.scheduled.processState = .killed := by
  unfold scheduled
  split
  · next hs => exact .inr (.inl hs)
  · split
    · exact .inr (.inr rfl)
    · split
      · next hin =>
        rcases ProcessState.inQueue_iff.mp hin with hs | hs
        · exact .inl hs
        · exact .inr (.inr hs)
      · exact .inl rfl

/-- **Scheduling settles** a process that waits for its own resources. -/
theorem WaitSetOwned.scheduled (h : info.WaitSetOwned) : info.scheduled.Settled := by
  have hkept : info.scheduled.WaitSetOwned := by
    rw [scheduled_eq]
    exact h.congr rfl rfl rfl
  refine hkept.settled ?_
  rcases processState_scheduled info with hs | hs | hs
  · exact .inl hs
  · exact .inr (.inl hs)
  · exact .inr (.inr (.inl hs))

theorem WaitSetOwned.addMessage (h : info.WaitSetOwned) (message : Option MessagePtr)
    (rid : RID) : (info.addMessage message rid).2.WaitSetOwned := by
  unfold ProcessInfo.addMessage
  split
  · exact h
  · split
    · exact h.congr rfl rfl rfl
    · split
      · exact ⟨(erase_subset _ _).trans h.blocking, h.owned⟩
      · exact h

variable {rid : RID} {resource : ResourcePtr}

/-- **A receiver that is not scheduled is settled all the same**: it has not been
started, or it is blocked and its wait set has not been emptied. -/
theorem Settled.addMessage (h : info.Settled) {message : Option MessagePtr}
    (hneed : ((info.addMessage message rid).1 && (info.addMessage message rid).2.needSchedule rid)
      = false) : (info.addMessage message rid).2.Settled := by
  have hwait := h.toWaitSetOwned.addMessage message rid
  have hresult : (info.addMessage message rid).1 = true := by
    unfold ProcessInfo.addMessage
    split
    · rfl
    · split
      · rfl
      · split <;> rfl
  have hstate : (info.addMessage message rid).2.processState = info.processState := by
    unfold ProcessInfo.addMessage
    split
    · rfl
    · split
      · rfl
      · split <;> rfl
  rw [hresult, Bool.true_and, needSchedule, hstate] at hneed
  split at hneed
  · next hs =>
    -- blocked: without a RID nothing is taken out of the wait set
    refine ⟨hwait, by rw [hstate, hs]; decide, ?_, ?_⟩
    · rw [hstate, hs]; rintro (h | h) <;> cases h
    · intro _ hne
      by_cases hrid : rid = 0
      · subst hrid
        cases message with
        | none => exact h.waiting hs hne
        | some message => exact h.waiting hs hne
      · simpa [hrid, blockedResourcesEmpty] using hneed
  · next hs => exact hwait.settled (.inr (.inr (.inr (.inl (hstate.trans hs)))))
  · cases hneed

/-- **A process that is parked** on its return has no messages, and is blocked on
all its blocking resources again. -/
theorem Settled.returns {now : TimePoint} {sleepMs : ℕ} (h : info.Settled)
    (hreturns : info.Returns now sleepMs (false, info')) : info'.Settled := by
  cases hreturns with
  | suspend blocked hblocked halive =>
    have hsubset : blocked ⊆ info.defaultBlockedResources := by
      rcases hblocked with rfl | rfl
      · exact h.blocking
      · exact subset_rfl
    exact WaitSetOwned.settled ⟨hsubset, h.owned⟩ (by simp)
  | sleep wakeup hwakeup halive hempty =>
    exact ⟨h.toWaitSetOwned.congr rfl rfl rfl, ⟨nofun, nofun⟩, fun _ => hempty, nofun⟩
  | wait halive hempty =>
    exact ⟨h.toWaitSetOwned.congr rfl rfl rfl, ⟨nofun, nofun⟩, fun _ => hempty, nofun⟩
  | block halive hempty =>
    exact ⟨⟨subset_rfl, h.owned⟩, ⟨nofun, nofun⟩, fun _ => hempty, fun _ hne => hne⟩

theorem WaitSetOwned.returns {now : TimePoint} {sleepMs : ℕ} (h : info.WaitSetOwned)
    (hreturns : info.Returns now sleepMs (true, info')) : info'.WaitSetOwned := by
  cases hreturns with
  | reschedule blocked hblocked =>
    refine ⟨?_, h.owned⟩
    rcases hblocked with rfl | rfl
    · exact h.blocking
    · exact subset_rfl

/-! ### Resources -/

/-- Removing a resource takes it out of both sets. -/
theorem WaitSetOwned.removeResource (h : info.WaitSetOwned) (rid : RID) :
    (info.removeResource rid).2.WaitSetOwned := by
  unfold ProcessInfo.removeResource
  split
  · exact h
  · refine ⟨erase_subset_erase rid h.blocking, ?_⟩
    intro rid' hrid'
    obtain ⟨hne, hmem⟩ := mem_erase.mp hrid'
    have howned := h.owned rid' hmem
    exact Std.TreeMap.mem_erase.mpr ⟨by simpa using Ne.symm hne, howned⟩

theorem WaitSetOwned.takeResources : ∀ (rids : List RID) {info : ProcessInfo},
    info.WaitSetOwned → (ProcessInfo.takeResources rids info).2.WaitSetOwned
  | [], _, h => h
  | rid :: rids, _, h => WaitSetOwned.takeResources rids (h.removeResource rid)

/-- A process whose resources have all been taken has none to wait for. -/
theorem WaitSetOwned.takeAll (h : info.WaitSetOwned) :
    (ProcessInfo.takeResources info.getResourceIds info).2.defaultBlockedResources = ∅ := by
  refine eq_empty_of_forall_notMem ?_
  intro rid hrid
  have howned := (h.takeResources info.getResourceIds).owned rid hrid
  obtain ⟨hmem, htaken⟩ := (ProcessScheduler.mem_resources_takeResources _ _ _).mp howned
  exact htaken (Std.TreeMap.mem_keys.mpr hmem)

theorem Settled.takeAll (h : info.Settled) :
    (ProcessInfo.takeResources info.getResourceIds info).2.Settled := by
  have hnone := h.toWaitSetOwned.takeAll
  have hwait := h.toWaitSetOwned.takeResources info.getResourceIds
  obtain ⟨r, d, b, heq⟩ := ProcessScheduler.takeResources_eq info.getResourceIds info
  rw [heq] at hnone hwait ⊢
  exact ⟨hwait, h.resting, h.idle, fun _ hne => absurd hnone hne⟩

theorem Settled.addResource (h : info.Settled) (hrid : rid ≠ 0) :
    (info.addResource rid (some resource)).2.Settled := by
  rw [ProcessInfo.addResource, if_neg hrid]
  refine ⟨⟨h.blocking, ?_⟩, h.resting, h.idle, h.waiting⟩
  intro rid' hrid'
  exact Std.TreeMap.mem_insert.mpr (.inr (h.owned rid' hrid'))

/-- A new blocking resource is waited for, whatever its process does. -/
theorem Settled.addBlockingResource (h : info.Settled) (hrid : rid ≠ 0) :
    (info.addBlockingResource rid (some resource)).2.Settled := by
  rw [ProcessInfo.addBlockingResource, ProcessInfo.addResource, if_neg hrid]
  refine ⟨⟨insert_subset_insert rid h.blocking, ?_⟩, h.resting, h.idle, ?_⟩
  · intro rid' hrid'
    rcases mem_insert.mp hrid' with rfl | hmem
    · exact Std.TreeMap.mem_insert_self
    · exact Std.TreeMap.mem_insert.mpr (.inr (h.owned rid' hmem))
  · intro _ _
    exact insert_ne_empty _ _

/-- Whether a removal leaves a blocked process something to wait for, if it still
owns something to wait for. -/
def KeepsWaiting (info : ProcessInfo) (rid : RID) : Prop :=
  info.processState = .blocked → info.defaultBlockedResources.erase rid ≠ ∅ →
    info.blockedResources.erase rid ≠ ∅

theorem Settled.removeResource (h : info.Settled)
    (hremove : info.removeResource rid = (some resource, info')) (hkeeps : info.KeepsWaiting rid) :
    info'.Settled := by
  have hwait := h.toWaitSetOwned.removeResource rid
  rw [hremove] at hwait
  unfold ProcessInfo.removeResource at hremove
  split at hremove
  · cases hremove
  · cases hremove
    exact ⟨hwait, h.resting, h.idle, hkeeps⟩

/-- A resource that does not block may be removed by its pointer. -/
theorem Settled.removeResourcePtr (h : info.Settled)
    (hremove : info.removeResourcePtr resource = (rid, info'))
    (hblocking : rid ∉ info.defaultBlockedResources) : info'.Settled := by
  unfold ProcessInfo.removeResourcePtr at hremove
  split at hremove
  · cases hremove
    exact h
  · cases hremove
    have hsame : info.blockedResources.erase rid = info.blockedResources :=
      erase_eq_of_notMem fun hmem => hblocking (h.blocking hmem)
    refine ⟨⟨(erase_subset _ _).trans h.blocking, ?_⟩, h.resting, h.idle, ?_⟩
    · intro rid' hrid'
      have hne : rid' ≠ rid := by rintro rfl; exact hblocking hrid'
      exact Std.TreeMap.mem_erase.mpr ⟨by simpa using hne.symm, h.owned rid' hrid'⟩
    · intro hs hne
      show info.blockedResources.erase rid ≠ ∅
      rw [hsame]
      exact h.waiting hs hne

/-- The next message leaves the queue; whoever had one was not parked. -/
theorem Settled.getNextMessage (h : info.Settled) {entry : RID × MessagePtr}
    (hnext : info.getNextMessage = some (entry, info')) : info'.Settled := by
  unfold ProcessInfo.getNextMessage at hnext
  split at hnext
  · cases hnext
  · next hcons =>
    cases hnext
    refine ⟨h.toWaitSetOwned.congr rfl rfl rfl, h.resting, ?_, h.waiting⟩
    intro hs
    have hempty := h.idle hs
    rw [hcons] at hempty
    cases hempty

theorem settled_new (pid : PID) (process : ProcessPtr) (executableId ownerId : DbTypes.Id) :
    (ProcessInfo.new pid process executableId ownerId).Settled :=
  WaitSetOwned.settled ⟨subset_rfl, nofun⟩ (by simp [ProcessInfo.new])

end ProcessInfo

/-! ### The scheduler -/

namespace ProcessScheduler

/-- Every process is settled. -/
def AllSettled (s : ProcessScheduler) : Prop :=
  ∀ p info, s.heap p = some info → info.Settled

variable {s s' : ProcessScheduler} {p : InfoPtr} {info : ProcessInfo}

/-- One process changes. -/
theorem AllSettled.update (h : s.AllSettled) (hinfo : info.Settled)
    (hheap : s'.heap = update s.heap p (some info)) : s'.AllSettled := by
  intro q info' hq
  rw [hheap, update_apply] at hq
  split at hq
  · cases hq; exact hinfo
  · exact h q info' hq

theorem AllSettled.setInfo (h : s.AllSettled) (hinfo : info.Settled) :
    (s.setInfo p info).AllSettled := h.update hinfo rfl

/-- **Scheduling** settles the process that is scheduled. -/
theorem AllSettled.scheduleProcess (h : s.AllSettled) (hinfo : info.WaitSetOwned)
    (hsched : (s.setInfo p info).scheduleProcess p = some s') : s'.AllSettled := by
  have hself : (s.setInfo p info).heap p = some info := update_self ..
  obtain ⟨t, ht, -, hheap, -⟩ := scheduleProcess_spec hself
  obtain rfl := Option.some.inj (hsched.symm.trans ht)
  refine h.update (p := p) hinfo.scheduled ?_
  rw [hheap, ProcessScheduler.setInfo, update_idem]

theorem AllSettled.reschedule (h : s.AllSettled) (hsched : s.scheduleProcess p = some s') :
    s'.AllSettled := by
  obtain ⟨info, hinfo⟩ := heap_of_scheduleProcess hsched
  rw [← setInfo_self hinfo] at hsched
  exact h.scheduleProcess (h p info hinfo).toWaitSetOwned hsched

variable {pid : PID} {result : Bool}

theorem AllSettled.killProcess (h : s.AllSettled) (hkill : s.killProcess pid = some (result, s')) :
    s'.AllSettled := by
  rcases killProcess_cases hkill with ⟨-, -, rfl⟩ | ⟨-, p, info, -, hinfo, hcase⟩
  · exact h
  · rcases hcase with ⟨-, rfl⟩ | ⟨-, -, hsched⟩
    · exact h
    · refine h.scheduleProcess ?_ hsched
      exact (h p info hinfo).toWaitSetOwned.congr rfl rfl rfl

theorem AllSettled.suspendProcess (h : s.AllSettled)
    (hsuspend : s.suspendProcess pid = some (result, s')) : s'.AllSettled := by
  rcases suspendProcess_cases hsuspend with ⟨-, rfl⟩ | ⟨-, -, p, info, -, hinfo, hcase⟩
  · exact h
  · have hold := h p info hinfo
    have hwait := hold.toWaitSetOwned
    rcases hcase with ⟨-, rfl⟩ | ⟨-, rfl⟩
    · exact h.setInfo ⟨⟨hwait.blocking, hwait.owned⟩, hold.resting, hold.idle, hold.waiting⟩
    · exact h.setInfo (ProcessInfo.WaitSetOwned.settled ⟨hwait.blocking, hwait.owned⟩ (by simp))

theorem AllSettled.startProcess (h : s.AllSettled)
    (hstart : s.startProcess pid = some (result, s')) : s'.AllSettled := by
  rcases startProcess_cases hstart with rfl | ⟨p, info, -, -, -, hsched⟩
  · exact h
  · exact h.reschedule hsched

theorem AllSettled.sendMessage (h : s.AllSettled) {rid : RID} {message : Option MessagePtr}
    {outcome : SendOutcome} (hsend : s.sendMessage pid rid message = some (outcome, s')) :
    s'.AllSettled := by
  rcases sendMessage_cases hsend with ⟨-, rfl, -⟩ | ⟨-, -, p, info, -, hinfo, -, rfl, hcase⟩
  · exact h
  · have hold := h p info hinfo
    rcases hcase with ⟨hneed, rfl⟩ | ⟨-, hsched⟩
    · exact h.setInfo (hold.addMessage hneed)
    · exact h.scheduleProcess (hold.toWaitSetOwned.addMessage message rid) hsched

theorem AllSettled.shutdown (h : s.AllSettled) (hdown : s.shutdown = some s') :
    s'.AllSettled := by
  unfold ProcessScheduler.shutdown at hdown
  split at hdown
  · cases hdown; exact h
  · refine foldlM_invariant (I := AllSettled) ?_ _ { s with shuttingDown := true } s' h hdown
    intro t pid t' ht hkill
    obtain ⟨⟨result, t''⟩, hkilled, rfl⟩ := Option.map_eq_some_iff.mp hkill
    exact ht.killProcess hkilled

theorem AllSettled.wakeLoop {now : TimePoint} : ∀ (fuel : ℕ) (s s' : ProcessScheduler),
    s.AllSettled → s.wakeLoop fuel now = some s' → s'.AllSettled := by
  intro fuel
  induction fuel with
  | zero => intro s s' _ h; cases h
  | succ fuel ih =>
    intro s s' hs h
    rw [ProcessScheduler.wakeLoop] at h
    split at h
    · cases h; exact hs
    · split at h
      · cases h; exact hs
      · obtain ⟨t, hsched, hrest⟩ := Option.bind_eq_some_iff.mp h
        exact ih t s' (hs.reschedule hsched) hrest

theorem AllSettled.returnedFromExecute (h : s.AllSettled) {status : ProcessStatus}
    {now : TimePoint} {sleepMs : ℕ}
    (hreturn : s.returnedFromExecute p status now sleepMs = some s') : s'.AllSettled := by
  obtain ⟨info, hinfo, ⟨-, -, hheap, -⟩ | ⟨-, -, info', hcase⟩⟩ :=
    returnedFromExecute_cases hreturn
  · have hwait := (h p info hinfo).toWaitSetOwned
    refine h.update ?_ hheap
    exact ProcessInfo.WaitSetOwned.settled ⟨hwait.blocking, hwait.owned⟩ (by simp)
  · rcases hcase with ⟨hreturns, hsched⟩ | ⟨hreturns, rfl⟩
    · exact h.scheduleProcess ((h p info hinfo).toWaitSetOwned.returns hreturns) hsched
    · have hset := (h p info hinfo).returns hreturns
      split <;> exact h.update hset rfl

end ProcessScheduler

/-! ### Runs -/

namespace System

open ProcessScheduler

/-- The guard for removals: a blocking resource is not removed by its pointer, and
not by its RID from a process that then waits for nothing although it owns
something to wait for. -/
def KeepsBlockers (s : System) : Action → Prop
  | .removeResource t rid => ∀ p call info, (s.threads t).services = some (p, call) →
      s.scheduler.heap p = some info → info.KeepsWaiting rid
  | .removeResourcePtr t (some resource) => ∀ p call info,
      (s.threads t).services = some (p, call) → s.scheduler.heap p = some info →
      (info.removeResourcePtr resource).1 ∉ info.defaultBlockedResources
  | _ => True

/-- Whether a label is a removal. -/
def isRemoval : Action → Bool
  | .removeResource .. | .removeResourcePtr .. => true
  | _ => false

/-- Any other label is always allowed. -/
theorem keepsBlockers_of_not_isRemoval (s : System) {a : Action} (ha : isRemoval a = false) :
    KeepsBlockers s a := by
  cases a with
  | removeResource | removeResourcePtr => cases ha
  | _ => trivial

/-- **Every such step keeps every process settled.** -/
theorem allSettled_step {s s' : System} {a : Action} (h : s.scheduler.AllSettled)
    (hok : KeepsBlockers s a) (hstep : step s a = some s') : s'.scheduler.AllSettled := by
  cases happens_of_step hstep with
  | refused => exact h
  | adds ht hadd =>
    obtain ⟨process', nextPid, -, -, -, -, -, rfl⟩ := addProcess_cases hadd
    exact h.update (ProcessInfo.settled_new ..) rfl
  | added => exact h
  | kills hop => exact h.killProcess hop
  | suspends hop => exact h.suspendProcess hop
  | starts hop => exact h.startProcess hop
  | sends hop => exact h.sendMessage hop
  | shutsDown hop => exact h.shutdown hop
  | jumps backwards => cases backwards <;> exact h
  | wakes ht hnow hloop => exact AllSettled.wakeLoop _ _ _ h hloop
  | popsNothing | pops | timesOut => exact h
  | @dispatches t p info ht hinfo =>
    have hwait := (h p info hinfo).toWaitSetOwned
    exact h.setInfo (ProcessInfo.WaitSetOwned.settled ⟨hwait.blocking, hwait.owned⟩ (by simp))
  | handsKilled | handsPlain | messagesDone | callReturns => exact h
  | handsMessage _ ht hstage hinfo hnext => exact h.setInfo ((h _ _ hinfo).getNextMessage hnext)
  | returns ht hnow hret => exact h.returnedFromExecute hret
  | takesAll ht htake =>
    unfold ProcessScheduler.takeResources at htake
    split at htake
    · cases htake
    · next info hinfo =>
      cases htake
      exact h.setInfo (h _ _ hinfo).takeAll
  | finishes ht hfin =>
    obtain ⟨info, ridToPid, -, rfl, -⟩ := finishCleanup_cases hfin
    intro q info' hq
    have hold : update s.scheduler.heap _ none q = some info' := hq
    rw [update_apply] at hold
    split at hold
    · cases hold
    · exact h q info' hold
  | getsRid ht hinfo hrid hne =>
    obtain ⟨nextRid, ridToPid, rfl⟩ := getNextRid_eq hrid
    exact h
  | @stores t p pid rid resource blocking info ht hinfo hne =>
    refine h.setInfo ?_
    cases blocking
    · exact (h p info hinfo).addResource hne
    · exact (h p info hinfo).addBlockingResource hne
  | storesNot => exact h
  | notAdded ht | removed ht =>
    show ((s.scheduler.releaseRid _ _)).AllSettled
    rw [releaseRid_eq]
    exact h
  | takes ht hinfo hremove =>
    exact h.setInfo ((h _ _ hinfo).removeResource hremove (hok _ _ _ ht hinfo))
  | takesPtr ht hinfo hremove hne =>
    have hblocking := hok _ _ _ ht hinfo
    rw [hremove] at hblocking
    exact h.setInfo ((h _ _ hinfo).removeResourcePtr hremove hblocking)

end System

/-- **No wake-up is lost**, in every run that keeps blocked processes waiting. -/
theorem noLostWakeup {s : System} (h : Reachable System.step System.KeepsBlockers .initial s)
    {p : InfoPtr} {info : ProcessInfo} (hinfo : s.scheduler.heap p = some info) :
    info.Settled ∧ info.Attended := by
  have hall : s.scheduler.AllSettled := by
    refine h.invariant (I := fun s => s.scheduler.AllSettled) nofun ?_
    intro s a s' hs hok hstep
    exact System.allSettled_step hs hok hstep
  exact ⟨hall p info hinfo, (hall p info hinfo).attended⟩

/-- A process that waits for its one blocking resource and gets a message from
elsewhere. -/
def blocksOnResource : List Action :=
  [.addProcess 0 ⟨1, 5⟩ ⟨1, 7⟩ (some 100), .processAdded 0, .startProcess 1,
    .getNextExecute 0 0 1, .pop 0, .dispatch 0, .hand 0, .addResource 0 (some 200) true,
    .resourceAdded 0 true, .processReturns 0 .blocked, .returnedFromExecute 0 0 0,
    .sendMessage 1 0 (some 42)]

theorem noLostWakeup_blocked : ∃ s info, run System.step .initial blocksOnResource = some s ∧
    s.scheduler.heap 0 = some info ∧ info.processState = .blocked ∧
    info.waitingMessages = [(0, 42)] ∧ info.Settled ∧ info.Attended := by
  have hrun : (run System.step .initial blocksOnResource).bind (fun s =>
      (s.scheduler.heap 0).map fun info => (info.processState, info.waitingMessages))
      = some (.blocked, [(0, 42)]) := by decide +kernel
  obtain ⟨s, hs, hrun⟩ := Option.bind_eq_some_iff.mp hrun
  obtain ⟨info, hinfo, heq⟩ := Option.map_eq_some_iff.mp hrun
  obtain ⟨hstate, hmessages⟩ := Prod.mk.inj heq
  refine ⟨s, info, hs, hinfo, hstate, hmessages, ?_⟩
  have hremoval : ∀ a ∈ blocksOnResource, System.isRemoval a = false := by decide
  refine noLostWakeup (.steps .init (steps_of_run hs ?_)) hinfo
  intro s a ha
  exact System.keepsBlockers_of_not_isRemoval s (hremoval a ha)

/-- A process that is blocked without any resource, and one that is done, after a
message was accepted for each: neither will look at it. -/
theorem noLostWakeup_unattended :
    (∃ s info, System.Reaches s ∧ s.scheduler.heap 0 = some info ∧
      info.processState = .blocked ∧ info.waitingMessages = [(0, 42)] ∧ ¬ info.Attentive) ∧
    ∃ s info, System.Reaches s ∧ s.scheduler.heap 0 = some info ∧
      info.processState = .completed ∧ info.waitingMessages = [(0, 42)] ∧ ¬ info.Attentive := by
  have hblocked : (run System.step .initial
      [.addProcess 0 ⟨1, 5⟩ ⟨1, 7⟩ (some 100), .processAdded 0, .startProcess 1,
        .getNextExecute 0 0 1, .pop 0, .dispatch 0, .hand 0, .processReturns 0 .blocked,
        .returnedFromExecute 0 0 0, .sendMessage 1 0 (some 42)]).bind (fun s =>
      (s.scheduler.heap 0).map fun info =>
        (info.processState, info.waitingMessages, info.blockedResources))
      = some (.blocked, [(0, 42)], ∅) := by decide +kernel
  have hcompleted : (run System.step .initial
      [.addProcess 0 ⟨1, 5⟩ ⟨1, 7⟩ (some 100), .processAdded 0, .startProcess 1,
        .getNextExecute 0 0 1, .pop 0, .dispatch 0, .hand 0, .sendMessage 1 0 (some 42),
        .processReturns 0 .finished, .returnedFromExecute 0 0 0]).bind (fun s =>
      (s.scheduler.heap 0).map fun info =>
        (info.processState, info.waitingMessages, info.blockedResources))
      = some (.completed, [(0, 42)], ∅) := by decide +kernel
  constructor
  · obtain ⟨s, hs, hrun⟩ := Option.bind_eq_some_iff.mp hblocked
    obtain ⟨info, hinfo, heq⟩ := Option.map_eq_some_iff.mp hrun
    obtain ⟨hstate, hmessages, hnone⟩ : _ ∧ _ ∧ _ := by simpa only [Prod.mk.injEq] using heq
    refine ⟨s, info, System.reaches_of_run hs, hinfo, hstate, hmessages, ?_⟩
    simp [ProcessInfo.Attentive, hstate, hnone]
  · obtain ⟨s, hs, hrun⟩ := Option.bind_eq_some_iff.mp hcompleted
    obtain ⟨info, hinfo, heq⟩ := Option.map_eq_some_iff.mp hrun
    obtain ⟨hstate, hmessages, hnone⟩ : _ ∧ _ ∧ _ := by simpa only [Prod.mk.injEq] using heq
    refine ⟨s, info, System.reaches_of_run hs, hinfo, hstate, hmessages, ?_⟩
    simp [ProcessInfo.Attentive, hstate]

end Mutgos.Executor
