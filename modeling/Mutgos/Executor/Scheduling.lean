import Mutgos.Executor.Steps

/-!
# What the operations of the scheduler do

One lemma for each operation, so that proofs about the scheduler need not look at
its definitions: what scheduling a process changes, and which ways the public
operations go.

## Main results

* `ProcessScheduler.scheduleProcess_spec` — **scheduling** changes one process, the
  two queues and nothing else.
* `ProcessInfo.returns_afterExecute`, `returnedFromExecute_cases` — **how an
  execution ends.**
-/

namespace Mutgos.Executor

open DbTypes

/-- The tables and counters of two schedulers agree. -/
structure SameTables (s s' : ProcessScheduler) : Prop where
  shuttingDown : s'.shuttingDown = s.shuttingDown
  allProcesses : s'.allProcesses = s.allProcesses
  allProcessesEntity : s'.allProcessesEntity = s.allProcessesEntity
  nextPid : s'.nextPid = s.nextPid
  nextRid : s'.nextRid = s.nextRid
  ridToPid : s'.ridToPid = s.ridToPid
  nextPtr : s'.nextPtr = s.nextPtr

theorem SameTables.trans {s₁ s₂ s₃ : ProcessScheduler} (h : SameTables s₁ s₂)
    (h' : SameTables s₂ s₃) : SameTables s₁ s₃ where
  shuttingDown := h'.shuttingDown.trans h.shuttingDown
  allProcesses := h'.allProcesses.trans h.allProcesses
  allProcessesEntity := h'.allProcessesEntity.trans h.allProcessesEntity
  nextPid := h'.nextPid.trans h.nextPid
  nextRid := h'.nextRid.trans h.nextRid
  ridToPid := h'.ridToPid.trans h.ridToPid
  nextPtr := h'.nextPtr.trans h.nextPtr

theorem ProcessState.inQueue_iff {state : ProcessState} :
    state.inQueue = true ↔ state = .ready ∨ state = .killed := by
  cases state <;> simp [inQueue]

namespace ProcessInfo

/-- Scheduling changes the state and the flag of a pending kill. -/
theorem scheduled_eq (info : ProcessInfo) : info.scheduled = { info with
    processState := info.scheduled.processState
    pendingKilled := info.scheduled.pendingKilled } := by
  unfold scheduled
  split
  · rfl
  · split
    · rfl
    · split <;> rfl

end ProcessInfo

namespace ProcessScheduler

variable {s s' : ProcessScheduler} {p : InfoPtr} {info : ProcessInfo}

/-- **Scheduling a process** changes this process, appends it to the run queue
unless it is there or executing, and takes it out of the timer queue. -/
theorem scheduleProcess_spec (h : s.heap p = some info) :
    ∃ s', s.scheduleProcess p = some s' ∧ SameTables s s' ∧
      s'.heap = Function.update s.heap p (some info.scheduled) ∧
      s'.processRunQueue = (if info.processState.inQueue || info.processState == .executing
        then s.processRunQueue else s.processRunQueue ++ [p]) ∧
      s'.processTimerQueue = (if info.processState = .sleeping
        then eraseTimer info.wakeupTime p s.processTimerQueue else s.processTimerQueue) := by
  have hsleep : info.processState.inQueue || info.processState == .executing →
      info.processState ≠ .sleeping := by
    intro hstay hs
    rw [hs] at hstay
    cases hstay
  simp only [scheduleProcess, h]
  generalize hs₁ : (if info.pendingKilled && info.processState != .executing then
    (s.setInfo p info.scheduled).publish (info.event .killed)
    else s.setInfo p info.scheduled) = s₁
  have htables : SameTables s s₁ := by
    rw [← hs₁]
    split <;> exact ⟨rfl, rfl, rfl, rfl, rfl, rfl, rfl⟩
  have hheap : s₁.heap = Function.update s.heap p (some info.scheduled) := by
    rw [← hs₁]
    split <;> rfl
  have hqueue : s₁.processRunQueue = s.processRunQueue := by
    rw [← hs₁]
    split <;> rfl
  have htimer : s₁.processTimerQueue = s.processTimerQueue := by
    rw [← hs₁]
    split <;> rfl
  split
  · next hstay =>
    exact ⟨s₁, rfl, htables, hheap, hqueue, by rw [if_neg (hsleep hstay), htimer]⟩
  · refine ⟨_, rfl, ?_, ?_, ?_, ?_⟩
    · unfold unsleep
      split <;> exact htables.trans ⟨rfl, rfl, rfl, rfl, rfl, rfl, rfl⟩
    · unfold unsleep
      split <;> exact hheap
    · unfold unsleep
      split <;> exact congrArg (· ++ [p]) hqueue
    · unfold unsleep
      split
      · exact congrArg _ htimer
      · exact htimer

/-- A process that has been freed cannot be scheduled. -/
theorem heap_of_scheduleProcess (h : s.scheduleProcess p = some s') :
    ∃ info, s.heap p = some info := by
  cases hp : s.heap p with
  | none => rw [scheduleProcess, hp] at h; cases h
  | some info => exact ⟨info, rfl⟩

/-! ### The public operations -/

variable {pid : PID} {result : Bool}

theorem killProcess_cases (h : s.killProcess pid = some (result, s')) :
    (result = false ∧ s.allProcesses[pid]? = none ∧ s' = s) ∨
    result = true ∧ ∃ p info, s.allProcesses[pid]? = some p ∧ s.heap p = some info ∧
      ((info.processState = .killed ∨ info.processState = .completed) ∧ s' = s ∨
        info.processState ≠ .killed ∧ info.processState ≠ .completed ∧
        (s.setInfo p { info with pendingKilled := true }).scheduleProcess p = some s') := by
  unfold killProcess at h
  split at h
  · next hp => cases h; exact .inl ⟨rfl, hp, rfl⟩
  · next p hp =>
    split at h
    · cases h
    · next info hinfo =>
      split at h
      · next hdone => cases h; exact .inr ⟨rfl, p, info, hp, hinfo, .inl ⟨hdone, rfl⟩⟩
      · next halive =>
        rw [Option.map_eq_some_iff] at h
        obtain ⟨t, hsched, heq⟩ := h
        cases heq
        obtain ⟨hk, hc⟩ := not_or.mp halive
        exact .inr ⟨rfl, p, info, hp, hinfo, .inr ⟨hk, hc, hsched⟩⟩

/-- Whether `suspend_process` leaves a process in the state to the thread that
executes it next. -/
def suspendsLater : ProcessState → Bool
  | .ready | .executing | .killed => true
  | _ => false

theorem suspendProcess_cases (h : s.suspendProcess pid = some (result, s')) :
    (result = false ∧ s' = s) ∨
    result = true ∧ s.shuttingDown = false ∧ ∃ p info, s.allProcesses[pid]? = some p ∧
      s.heap p = some info ∧
      (suspendsLater info.processState = true ∧
        s' = s.setInfo p { info with pendingSuspended := true } ∨
      suspendsLater info.processState = false ∧
        s' = s.setInfo p { info with pendingSuspended := false, processState := .suspended }) := by
  unfold suspendProcess at h
  split at h
  · cases h; exact .inl ⟨rfl, rfl⟩
  · next hrunning =>
    split at h
    · cases h; exact .inl ⟨rfl, rfl⟩
    · next p hp =>
      split at h
      · cases h
      · next info hinfo =>
        have hdown : s.shuttingDown = false := by simpa using hrunning
        split at h <;> cases h <;>
          refine .inr ⟨rfl, hdown, p, info, hp, hinfo, ?_⟩
        · next hs => exact .inl ⟨by rw [hs]; rfl, rfl⟩
        · next hs => exact .inl ⟨by rw [hs]; rfl, rfl⟩
        · next hs => exact .inl ⟨by rw [hs]; rfl, rfl⟩
        · next h₁ h₂ h₃ =>
          refine .inr ⟨?_, rfl⟩
          revert h₁ h₂ h₃
          cases info.processState <;> simp [suspendsLater]

theorem startProcess_cases (h : s.startProcess pid = some (result, s')) :
    s' = s ∨ ∃ p info, s.allProcesses[pid]? = some p ∧ s.heap p = some info ∧
      (info.processState = .created ∨ info.processState = .suspended) ∧
      s.scheduleProcess p = some s' := by
  unfold startProcess at h
  split at h
  · cases h; exact .inl rfl
  · split at h
    · cases h; exact .inl rfl
    · next p hp =>
      split at h
      · cases h
      · next info hinfo =>
        split at h
        · next hs =>
          rw [Option.map_eq_some_iff] at h
          obtain ⟨t, hsched, heq⟩ := h
          cases heq
          exact .inr ⟨p, info, hp, hinfo, .inl hs, hsched⟩
        · next hs =>
          rw [Option.map_eq_some_iff] at h
          obtain ⟨t, hsched, heq⟩ := h
          cases heq
          exact .inr ⟨p, info, hp, hinfo, .inr hs, hsched⟩
        · cases h; exact .inl rfl

/-- A message is refused, or added to the queue of a process that is then
scheduled if it is to be. -/
theorem sendMessage_cases {rid : RID} {message : Option MessagePtr} {outcome : SendOutcome}
    (h : s.sendMessage pid rid message = some (outcome, s')) :
    (outcome = ⟨false, message.isSome⟩ ∧ s' = s ∧
      (message = none ∨ pid = 0 ∨ s.allProcesses[pid]? = none ∨
        ∃ p info, s.allProcesses[pid]? = some p ∧ s.heap p = some info ∧
          info.processState.canReceiveMessages s.shuttingDown = false)) ∨
    message ≠ none ∧ pid ≠ 0 ∧ ∃ p info, s.allProcesses[pid]? = some p ∧
      s.heap p = some info ∧ info.processState.canReceiveMessages s.shuttingDown = true ∧
      outcome = ⟨(info.addMessage message rid).1, !(info.addMessage message rid).1⟩ ∧
      ((outcome.result && (info.addMessage message rid).2.needSchedule rid) = false ∧
        s' = s.setInfo p (info.addMessage message rid).2 ∨
      (outcome.result && (info.addMessage message rid).2.needSchedule rid) = true ∧
        (s.setInfo p (info.addMessage message rid).2).scheduleProcess p = some s') := by
  unfold sendMessage at h
  cases message with
  | none => cases h; exact .inl ⟨rfl, rfl, .inl rfl⟩
  | some message =>
    rw [if_neg (by simp)] at h
    split at h
    · next hpid => cases h; exact .inl ⟨rfl, rfl, .inr (.inl hpid)⟩
    · next hpid =>
      split at h
      · next hp => cases h; exact .inl ⟨rfl, rfl, .inr (.inr (.inl hp))⟩
      · next p hp =>
        split at h
        · cases h
        · next info hinfo =>
          split at h
          · next hcan =>
            refine .inr ⟨by simp, hpid, p, info, hp, hinfo, hcan, ?_⟩
            simp only at h
            split at h
            · next hneed =>
              rw [Option.map_eq_some_iff] at h
              obtain ⟨t, hsched, heq⟩ := h
              cases heq
              exact ⟨rfl, .inr ⟨hneed, hsched⟩⟩
            · next hneed =>
              cases h
              exact ⟨rfl, .inl ⟨by simpa using hneed, rfl⟩⟩
          · next hcan =>
            cases h
            exact .inl ⟨rfl, rfl, .inr (.inr (.inr ⟨p, info, hp, hinfo, by simpa using hcan⟩))⟩

end ProcessScheduler

/-! ### Returning -/

/-- The ways a process that is not done goes on after it has executed. -/
inductive ProcessInfo.Returns (info : ProcessInfo) (now : TimePoint) (sleepMs : ℕ) :
    Bool × ProcessInfo → Prop
  /-- It is rescheduled, to be killed or because there is more to do. -/
  | reschedule (blocked : Finset RID)
      (hblocked : blocked = info.blockedResources ∨ blocked = info.defaultBlockedResources) :
      Returns info now sleepMs
        (true, { info with processState := .scheduling, blockedResources := blocked })
  /-- It is suspended, and loses its messages. -/
  | suspend (blocked : Finset RID)
      (hblocked : blocked = info.blockedResources ∨ blocked = info.defaultBlockedResources)
      (halive : info.pendingKilled = false) :
      Returns info now sleepMs (false, { info with
        processState := .suspended
        pendingSuspended := false
        waitingMessages := []
        blockedResources := blocked })
  | sleep (wakeup : TimePoint) (hwakeup : wakeup = now + sleepMs * 1000000)
      (halive : info.pendingKilled = false) (hempty : info.waitingMessages = []) :
      Returns info now sleepMs
        (false, { info with wakeupTime := wakeup, processState := .sleeping })
  | wait (halive : info.pendingKilled = false) (hempty : info.waitingMessages = []) :
      Returns info now sleepMs (false, { info with processState := .waitMessage })
  /-- It waits for all its blocking resources again. -/
  | block (halive : info.pendingKilled = false) (hempty : info.waitingMessages = []) :
      Returns info now sleepMs (false, { info with
        processState := .blocked
        blockedResources := info.defaultBlockedResources })

/-- **`returned_from_execute` goes one of these ways** for a process that is not
cleaned up. -/
theorem ProcessInfo.returns_afterExecute (info : ProcessInfo) {status : ProcessStatus}
    (now : TimePoint) (sleepMs : ℕ) (hfinished : status ≠ .finished) (herror : status ≠ .error) :
    info.Returns now sleepMs (info.afterExecute status now sleepMs) := by
  have hsame : info.blockedResources = info.blockedResources ∨
      info.blockedResources = info.defaultBlockedResources := .inl rfl
  have hreset : info.defaultBlockedResources = info.blockedResources ∨
      info.defaultBlockedResources = info.defaultBlockedResources := .inr rfl
  unfold afterExecute
  cases hk : info.pendingKilled with
  | true =>
    -- nothing but the reset of a blocked process happens before it is rescheduled
    by_cases hb : status = .blocked
    · subst hb
      simpa [hk, resetBlockedResources] using Returns.reschedule _ hreset
    · simpa [hk, hb] using Returns.reschedule _ hsame
  | false =>
    by_cases hsus : (status == .suspended || info.pendingSuspended) = true
    · by_cases hb : status = .blocked
      · subst hb
        simpa [hk, hsus, clearAllMessages, resetBlockedResources] using
          Returns.suspend _ hreset hk
      · simpa [hk, hsus, hb, clearAllMessages] using Returns.suspend _ hsame hk
    · rw [Bool.not_eq_true] at hsus
      cases hm : info.waitingMessages with
      | cons entry rest =>
        by_cases hb : status = .blocked
        · subst hb
          simpa [hk, hsus, hm, resetBlockedResources] using Returns.reschedule _ hreset
        · simpa [hk, hsus, hm, hb] using Returns.reschedule _ hsame
      | nil =>
        cases status with
        | finished => exact absurd rfl hfinished
        | error => exact absurd rfl herror
        | suspended => cases hsus
        | executeMore => simpa [hk, hsus, hm] using Returns.reschedule _ hsame
        | sleep => simpa [hk, hsus, hm, setSleepTimeOffset] using Returns.sleep _ rfl hk hm
        | waitMessage => simpa [hk, hsus, hm] using Returns.wait hk hm
        | blocked =>
          simpa [hk, hsus, hm, resetBlockedResources] using Returns.block hk hm

namespace ProcessScheduler

variable {s s' : ProcessScheduler} {p : InfoPtr}

/-- The section either begins the cleanup, or writes the process back and then
schedules it again or leaves it where it waits. -/
theorem returnedFromExecute_cases {status : ProcessStatus} {now : TimePoint} {sleepMs : ℕ}
    (h : s.returnedFromExecute p status now sleepMs = some s') :
    ∃ info, s.heap p = some info ∧
      ((status = .finished ∨ status = .error) ∧ SameTables s s' ∧
        s'.heap = Function.update s.heap p (some { info with processState := .completed }) ∧
        s'.processRunQueue = s.processRunQueue ∧ s'.processTimerQueue = s.processTimerQueue ∨
      status ≠ .finished ∧ status ≠ .error ∧ ∃ info',
        (info.Returns now sleepMs (true, info') ∧
          (s.setInfo p info').scheduleProcess p = some s' ∨
        info.Returns now sleepMs (false, info') ∧
          s' = if info'.processState = .sleeping then { s.setInfo p info' with
              processTimerQueue := MultiMap.insert info'.wakeupTime p s.processTimerQueue }
            else s.setInfo p info')) := by
  unfold returnedFromExecute at h
  split at h
  · cases h
  · next info hinfo =>
    refine ⟨info, hinfo, ?_⟩
    split at h
    · cases h
      exact .inl ⟨.inl rfl, ⟨rfl, rfl, rfl, rfl, rfl, rfl, rfl⟩, rfl, rfl, rfl⟩
    · cases h
      exact .inl ⟨.inr rfl, ⟨rfl, rfl, rfl, rfl, rfl, rfl, rfl⟩, rfl, rfl, rfl⟩
    · next hfinished herror =>
      refine .inr ⟨hfinished, herror, (info.afterExecute status now sleepMs).2, ?_⟩
      have hreturns := info.returns_afterExecute now sleepMs hfinished herror
      cases hafter : info.afterExecute status now sleepMs with
      | mk reschedule info' =>
        rw [hafter] at hreturns
        simp only [hafter] at h
        cases reschedule with
        | true =>
          refine .inl ⟨hreturns, ?_⟩
          have hawake : info'.processState ≠ .sleeping := by cases hreturns; simp
          simpa [hawake] using h
        | false =>
          refine .inr ⟨hreturns, ?_⟩
          rw [if_neg (by decide), Option.some.injEq] at h
          exact h.symm

/-- Removing a resource leaves everything but the resources alone. -/
theorem removeResource_eq (info : ProcessInfo) (rid : RID) : ∃ resources default blocked,
    (info.removeResource rid).2 = { info with
      resources := resources
      defaultBlockedResources := default
      blockedResources := blocked } := by
  unfold ProcessInfo.removeResource
  split <;> exact ⟨_, _, _, rfl⟩

/-- And so does the loop that empties the resource list. -/
theorem takeResources_eq : ∀ (rids : List RID) (info : ProcessInfo), ∃ resources default blocked,
    (ProcessInfo.takeResources rids info).2 = { info with
      resources := resources
      defaultBlockedResources := default
      blockedResources := blocked } := by
  intro rids
  induction rids with
  | nil => intro info; exact ⟨_, _, _, rfl⟩
  | cons rid rids ih =>
    intro info
    obtain ⟨r, d, b, hr⟩ := removeResource_eq info rid
    obtain ⟨resources, default, blocked, hrest⟩ := ih (info.removeResource rid).2
    rw [hr] at hrest
    refine ⟨resources, default, blocked, ?_⟩
    simp only [ProcessInfo.takeResources, hr]
    exact hrest

/-- A resource that is removed is gone, and the others stay. -/
theorem mem_resources_removeResource (info : ProcessInfo) (rid rid' : RID) :
    rid' ∈ (info.removeResource rid).2.resources ↔ rid' ∈ info.resources ∧ rid' ≠ rid := by
  unfold ProcessInfo.removeResource
  split
  · next hnone =>
    have hrid : rid ∉ info.resources := by
      rw [Std.TreeMap.mem_iff_isSome_getElem?, hnone]
      exact nofun
    constructor
    · intro h; exact ⟨h, by rintro rfl; exact hrid h⟩
    · intro h; exact h.1
  · show rid' ∈ info.resources.erase rid ↔ _
    rw [Std.TreeMap.mem_erase, and_comm, Ne, Std.compare_eq_iff_eq, eq_comm]

/-- A removal by pointer that finds a RID takes it out. -/
theorem removeResourcePtr_cases {info info' : ProcessInfo} {rid : RID} {resource : ResourcePtr}
    (h : info.removeResourcePtr resource = (rid, info')) (hrid : rid ≠ 0) :
    rid ∈ info.resources ∧ info' = { info with
      resources := info.resources.erase rid
      blockedResources := info.blockedResources.erase rid } := by
  unfold ProcessInfo.removeResourcePtr at h
  split at h
  · cases h; exact absurd rfl hrid
  · next rid' resource' hfind =>
    cases h
    have hmem := List.mem_of_find?_eq_some hfind
    rw [Std.TreeMap.mem_toList_iff_getElem?_eq_some] at hmem
    refine ⟨?_, rfl⟩
    rw [Std.TreeMap.mem_iff_isSome_getElem?, hmem]
    rfl

/-- The loop removes what it is told to. -/
theorem mem_resources_takeResources : ∀ (rids : List RID) (info : ProcessInfo) (rid' : RID),
    rid' ∈ (ProcessInfo.takeResources rids info).2.resources ↔
      rid' ∈ info.resources ∧ rid' ∉ rids := by
  intro rids
  induction rids with
  | nil => intro info rid'; simp [ProcessInfo.takeResources]
  | cons rid rids ih =>
    intro info rid'
    show rid' ∈ (ProcessInfo.takeResources rids (info.removeResource rid).2).2.resources ↔ _
    rw [ih, mem_resources_removeResource, List.mem_cons]
    tauto

/-! ### Releasing resource IDs -/

theorem releaseRid_eq (s : ProcessScheduler) (pid : PID) (rid : RID) :
    s.releaseRid pid rid = { s with ridToPid := (s.releaseRid pid rid).ridToPid } := by
  unfold releaseRid
  split <;> rfl

/-- A RID that is given out was free. -/
theorem getNextRid_cases {pid : PID} {rid : RID} (h : s.getNextRid pid = some (rid, s'))
    (hrid : rid ≠ 0) : ∃ nextRid, s.ridToPid[rid]? = none ∧
      s' = { s with nextRid := nextRid, ridToPid := s.ridToPid.insert rid pid } := by
  unfold getNextRid at h
  split at h
  · cases h; exact absurd rfl hrid
  · split at h
    · cases h; exact absurd rfl hrid
    · obtain ⟨⟨rid', following⟩, hfind, heq⟩ := Option.map_eq_some_iff.mp h
      cases heq
      have hfree := (findFree_spec hfind).2
      exact ⟨following, Std.TreeMap.getElem?_eq_none_of_contains_eq_false hfree, rfl⟩

/-- A RID is released if it belongs to the process it is released for. -/
theorem ridToPid_releaseRid (s : ProcessScheduler) (pid pid' : PID) (rid rid' : RID) :
    (s.releaseRid pid rid).ridToPid[rid']? = some pid' ↔
      s.ridToPid[rid']? = some pid' ∧ ¬ (rid' = rid ∧ pid' = pid) := by
  unfold releaseRid
  split
  · next howner =>
    rw [Std.TreeMap.getElem?_erase]
    by_cases hr : rid = rid'
    · subst hr
      simp [howner, eq_comm]
    · simp [hr, Ne.symm hr]
  · next hother =>
    refine (and_iff_left_of_imp ?_).symm
    rintro hrid ⟨rfl, rfl⟩
    exact hother hrid

/-- Releasing a list of RIDs, one after the other. -/
theorem releaseRids_spec (pid : PID) : ∀ (rids : List RID) (s : ProcessScheduler),
    ∃ ridToPid, rids.foldl (fun s rid => s.releaseRid pid rid) s = { s with ridToPid := ridToPid } ∧
      ∀ (rid' : RID) (pid' : PID), ridToPid[rid']? = some pid' ↔
        s.ridToPid[rid']? = some pid' ∧ ¬ (rid' ∈ rids ∧ pid' = pid) := by
  intro rids
  induction rids with
  | nil => intro s; exact ⟨s.ridToPid, rfl, by simp⟩
  | cons rid rids ih =>
    intro s
    obtain ⟨m, hm, hmem⟩ := ih (s.releaseRid pid rid)
    refine ⟨m, ?_, ?_⟩
    · rw [List.foldl_cons, hm, releaseRid_eq]
    · intro rid' pid'
      rw [hmem, ridToPid_releaseRid, List.mem_cons]
      tauto

/-- The last section of a cleanup releases the RIDs, takes the process out of the
tables and frees it. -/
theorem finishCleanup_cases {rids : List RID} (h : s.finishCleanup p rids = some s') :
    ∃ info ridToPid, s.heap p = some info ∧
      s' = { s with
        ridToPid := ridToPid
        allProcesses := s.allProcesses.erase info.myPid
        allProcessesEntity := BucketIndex.remove s.allProcessesEntity info.dbOwnerId.siteId
          info.dbOwnerId.entityId p
        heap := Function.update s.heap p none } ∧
      ∀ (rid' : RID) (pid' : PID), ridToPid[rid']? = some pid' ↔
        s.ridToPid[rid']? = some pid' ∧ ¬ (rid' ∈ rids ∧ pid' = info.myPid) := by
  unfold finishCleanup at h
  split at h
  · cases h
  · next info hinfo =>
    obtain ⟨m, hm, hmem⟩ := releaseRids_spec info.myPid rids s
    refine ⟨info, m, hinfo, ?_, hmem⟩
    simp only [hm, Option.some.injEq] at h
    exact h.symm

/-- What it takes to be added: the PID is new, and everything else is as it was. -/
theorem addProcess_cases {executableId ownerId : Id} {process : Option ProcessPtr} {pid : PID}
    (h : s.addProcess executableId ownerId process = some ((pid, some p), s')) :
    ∃ process' nextPid, process = some process' ∧ s.shuttingDown = false ∧ pid ≠ 0 ∧
      s.allProcesses[pid]? = none ∧ p = s.nextPtr ∧
      s' = { s.setInfo p (.new pid process' executableId ownerId) with
        nextPtr := p + 1
        nextPid := nextPid
        allProcesses := s.allProcesses.insert pid p
        allProcessesEntity :=
          BucketIndex.add s.allProcessesEntity ownerId.siteId ownerId.entityId p } := by
  unfold addProcess at h
  cases process with
  | none => cases h
  | some process =>
    simp only at h
    split at h
    · cases h
    · next hdown =>
      split at h
      · cases h
      · split at h
        · cases h
        · next pid' nextPid hfind =>
          cases h
          obtain ⟨hne, hfree⟩ := findFree_spec hfind
          refine ⟨process, nextPid, rfl, by simpa using hdown, hne, ?_, rfl, rfl⟩
          refine Std.TreeMap.getElem?_eq_none_of_contains_eq_false hfree

end ProcessScheduler

end Mutgos.Executor
