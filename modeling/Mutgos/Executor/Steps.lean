import Mutgos.Executor.System

/-!
# What a step can do

The step function taken apart once: every way a step can go, with the conditions
it goes that way on and the system it leads to.  Proofs about steps are by cases
on `Happens` and do not look at the definition of the step function again.

## Main results

* `happens_of_step` — every step is one of them.
-/

namespace Mutgos.Executor

open DbTypes Option

namespace System

/-- The ways a step can go. -/
inductive Happens (s : System) : Action → System → Prop
  /-- A call that is refused at once. -/
  | refused (a : Action) : Happens s a s
  | adds {t : ℕ} {executableId ownerId : Id} {process : Option ProcessPtr} {pid : PID}
      {p : InfoPtr} {scheduler : ProcessScheduler} (ht : s.threads t = .idle)
      (h : s.scheduler.addProcess executableId ownerId process
        = some ((pid, some p), scheduler)) :
      Happens s (.addProcess t executableId ownerId process)
        ((s.withScheduler scheduler).setPhase t
          (.adding p ⟨pid, executableId, ownerId, .created⟩ .none))
  | added {t : ℕ} {p : InfoPtr} {event : ProcessExecutionEvent}
      (ht : s.threads t = .adding p event .none) :
      Happens s (.processAdded t)
        ((s.withScheduler (s.scheduler.publish event)).setPhase t .idle)
  | kills {pid : PID} {result : Bool} {scheduler : ProcessScheduler}
      (h : s.scheduler.killProcess pid = some (result, scheduler)) :
      Happens s (.killProcess pid) (s.withScheduler scheduler)
  | suspends {pid : PID} {result : Bool} {scheduler : ProcessScheduler}
      (h : s.scheduler.suspendProcess pid = some (result, scheduler)) :
      Happens s (.suspendProcess pid) (s.withScheduler scheduler)
  | starts {pid : PID} {result : Bool} {scheduler : ProcessScheduler}
      (h : s.scheduler.startProcess pid = some (result, scheduler)) :
      Happens s (.startProcess pid) (s.withScheduler scheduler)
  | sends {pid : PID} {rid : RID} {message : Option MessagePtr}
      {outcome : ProcessScheduler.SendOutcome} {scheduler : ProcessScheduler}
      (h : s.scheduler.sendMessage pid rid message = some (outcome, scheduler)) :
      Happens s (.sendMessage pid rid message) (s.withScheduler scheduler)
  | shutsDown {scheduler : ProcessScheduler} (h : s.scheduler.shutdown = some scheduler) :
      Happens s .shutdown (s.withScheduler scheduler)
  | jumps (backwards : Bool) :
      Happens s (.osTimeHasJumped backwards)
        (s.withScheduler (s.scheduler.osTimeHasJumped backwards))
  | wakes {t : ℕ} {now : TimePoint} {fuel : ℕ} {scheduler : ProcessScheduler}
      (ht : s.threads t = .idle) (hnow : s.clock ≤ now)
      (h : s.scheduler.wakeLoop fuel now = some scheduler) :
      Happens s (.getNextExecute t now fuel)
        { (s.withScheduler scheduler).setPhase t (.waiting s.scheduler.shuttingDown) with
          clock := now }
  | popsNothing {t : ℕ} {shutdownCaller : Bool} (ht : s.threads t = .waiting shutdownCaller)
      (hq : s.scheduler.processRunQueue = []) :
      Happens s (.pop t)
        ((s.withScheduler { s.scheduler with
          processRunQueueSemaphore := s.scheduler.processRunQueueSemaphore - 1 }).nothingToExecute
            t shutdownCaller)
  | pops {t : ℕ} {shutdownCaller : Bool} {p : InfoPtr} {rest : List InfoPtr}
      (ht : s.threads t = .waiting shutdownCaller)
      (hq : s.scheduler.processRunQueue = p :: rest) :
      Happens s (.pop t)
        ((s.withScheduler { s.scheduler with
          processRunQueueSemaphore := s.scheduler.processRunQueueSemaphore - 1
          processRunQueue := rest }).setPhase t (.popped p))
  | timesOut {t : ℕ} {shutdownCaller : Bool} (ht : s.threads t = .waiting shutdownCaller) :
      Happens s (.timeout t) (s.nothingToExecute t shutdownCaller)
  | dispatches {t : ℕ} {p : InfoPtr} {info : ProcessInfo} (ht : s.threads t = .popped p)
      (hinfo : s.scheduler.heap p = some info) :
      Happens s (.dispatch t)
        ((s.withScheduler (s.scheduler.setInfo p { info with processState := .executing })).setPhase
          t (.executing p (info.processState == .killed) .dispatched .none))
  | handsKilled {t : ℕ} {p : InfoPtr} {call : ServicesCall}
      (ht : s.threads t = .executing p true .dispatched call) :
      Happens s (.hand t) (s.setPhase t (.executing p true (.inCall .killed) .none))
  | handsPlain {t : ℕ} {p : InfoPtr} {call : ServicesCall}
      (ht : s.threads t = .executing p false .dispatched call) :
      Happens s (.hand t) (s.setPhase t (.executing p false (.inCall .execute) .none))
  /-- The first message, or one that the message loop has found. -/
  | handsMessage (a : Action) {t : ℕ} {p : InfoPtr} {isKilled : Bool} {stage : Stage}
      {call : ServicesCall} {rid : RID} {message : MessagePtr} {info info' : ProcessInfo}
      (ht : s.threads t = .executing p isKilled stage call)
      (hstage : stage = .dispatched ∧ isKilled = false ∨ ∃ status, stage = .looping status)
      (hinfo : s.scheduler.heap p = some info)
      (hnext : info.getNextMessage = some ((rid, message), info')) :
      Happens s a ((s.withScheduler (s.scheduler.setInfo p info')).setPhase t
        (.executing p isKilled (.inCall (.message rid message)) .none))
  | messagesDone {t : ℕ} {p : InfoPtr} {isKilled : Bool} {status : ProcessStatus}
      {call : ServicesCall} (ht : s.threads t = .executing p isKilled (.looping status) call) :
      Happens s (.nextMessage t) (s.setPhase t (.executing p isKilled (.returning status) .none))
  | callReturns {t : ℕ} {p : InfoPtr} {isKilled : Bool} {handing : Handing}
      (status : ProcessStatus)
      (ht : s.threads t = .executing p isKilled (.inCall handing) .none) :
      Happens s (.processReturns t status)
        (s.setPhase t (.executing p isKilled (afterCall handing status) .none))
  | returns {t : ℕ} {p : InfoPtr} {isKilled : Bool} {status : ProcessStatus}
      {call : ServicesCall} {now : TimePoint} {sleepMs : ℕ} {scheduler : ProcessScheduler}
      (ht : s.threads t = .executing p isKilled (.returning status) call) (hnow : s.clock ≤ now)
      (h : s.scheduler.returnedFromExecute p status now sleepMs = some scheduler) :
      Happens s (.returnedFromExecute t now sleepMs)
        { (s.withScheduler scheduler).setPhase t (afterReturn p status) with clock := now }
  | takesAll {t : ℕ} {p : InfoPtr} {rids : List RID} {scheduler : ProcessScheduler}
      (ht : s.threads t = .cleaning p)
      (h : s.scheduler.takeResources p = some (rids, scheduler)) :
      Happens s (.takeResources t) ((s.withScheduler scheduler).setPhase t (.releasing p rids))
  | finishes {t : ℕ} {p : InfoPtr} {rids : List RID} {scheduler : ProcessScheduler}
      (ht : s.threads t = .releasing p rids)
      (h : s.scheduler.finishCleanup p rids = some scheduler) :
      Happens s (.finishCleanup t) ((s.withScheduler scheduler).setPhase t .idle)
  | getsRid {t : ℕ} {p : InfoPtr} {info : ProcessInfo} {resource : ResourcePtr} {blocking : Bool}
      {rid : RID} {scheduler : ProcessScheduler}
      (ht : (s.threads t).services = some (p, .none)) (hinfo : s.scheduler.heap p = some info)
      (h : s.scheduler.getNextRid info.myPid = some (rid, scheduler)) (hrid : rid ≠ 0) :
      Happens s (.addResource t (some resource) blocking)
        ((s.withScheduler scheduler).setPhase t
          ((s.threads t).withCall (.adding info.myPid rid resource blocking)))
  | stores {t : ℕ} {p : InfoPtr} {pid : PID} {rid : RID} {resource : ResourcePtr}
      {blocking : Bool} {info : ProcessInfo}
      (ht : (s.threads t).services = some (p, .adding pid rid resource blocking))
      (hinfo : s.scheduler.heap p = some info) (hrid : rid ≠ 0) :
      Happens s (.resourceAdded t true)
        ((s.withScheduler (s.scheduler.setInfo p
          (if blocking then info.addBlockingResource rid (some resource)
            else info.addResource rid (some resource)).2)).setPhase t
          ((s.threads t).withCall .none))
  /-- RID 0 is not stored. -/
  | storesNot {t : ℕ} {p : InfoPtr} {pid : PID} {resource : ResourcePtr} {blocking : Bool}
      (ht : (s.threads t).services = some (p, .adding pid 0 resource blocking)) :
      Happens s (.resourceAdded t true) (s.setPhase t ((s.threads t).withCall (.removing pid 0)))
  | notAdded {t : ℕ} {p : InfoPtr} {pid : PID} {rid : RID} {resource : ResourcePtr}
      {blocking : Bool}
      (ht : (s.threads t).services = some (p, .adding pid rid resource blocking)) :
      Happens s (.resourceAdded t false)
        ((s.withScheduler (s.scheduler.releaseRid pid rid)).setPhase t
          ((s.threads t).withCall .none))
  | takes {t : ℕ} {p : InfoPtr} {rid : RID} {resource : ResourcePtr} {info info' : ProcessInfo}
      (ht : (s.threads t).services = some (p, .none)) (hinfo : s.scheduler.heap p = some info)
      (h : info.removeResource rid = (some resource, info')) :
      Happens s (.removeResource t rid)
        ((s.withScheduler (s.scheduler.setInfo p info')).setPhase t
          ((s.threads t).withCall (.removing info.myPid rid)))
  | takesPtr {t : ℕ} {p : InfoPtr} {rid : RID} {resource : ResourcePtr} {info info' : ProcessInfo}
      (ht : (s.threads t).services = some (p, .none)) (hinfo : s.scheduler.heap p = some info)
      (h : info.removeResourcePtr resource = (rid, info')) (hrid : rid ≠ 0) :
      Happens s (.removeResourcePtr t (some resource))
        ((s.withScheduler (s.scheduler.setInfo p info')).setPhase t
          ((s.threads t).withCall (.removing info.myPid rid)))
  | removed {t : ℕ} {p : InfoPtr} {pid : PID} {rid : RID}
      (ht : (s.threads t).services = some (p, .removing pid rid)) :
      Happens s (.resourceRemoved t)
        ((s.withScheduler (s.scheduler.releaseRid pid rid)).setPhase t
          ((s.threads t).withCall .none))

/-! ### Refused calls -/

@[simp] theorem withScheduler_self (s : System) : s.withScheduler s.scheduler = s := rfl

end System

variable {s s' : ProcessScheduler} {pid : PID}

theorem ProcessScheduler.setInfo_self {p : InfoPtr} {info : ProcessInfo}
    (h : s.heap p = some info) : s.setInfo p info = s := by
  rw [ProcessScheduler.setInfo, ← h, Function.update_eq_self]

/-- A process that is not added changes nothing. -/
theorem ProcessScheduler.addProcess_none {executableId ownerId : Id} {process : Option ProcessPtr}
    (h : s.addProcess executableId ownerId process = some ((pid, none), s')) : s' = s := by
  unfold addProcess at h
  cases process with
  | none => cases h; rfl
  | some process =>
    simp only at h
    split at h
    · cases h; rfl
    · split at h
      · cases h; rfl
      · split at h
        · cases h
        · cases h

/-- The search finds a number that is not 0 and not in use. -/
theorem findFree_spec {inUse : ℕ → Bool} {max rounds next n following : ℕ}
    (h : findFree inUse max rounds next = some (n, following)) : n ≠ 0 ∧ inUse n = false := by
  induction rounds generalizing next with
  | zero => cases h
  | succ rounds ih =>
    rw [findFree] at h
    split at h
    · next hfree => cases h; exact hfree
    · exact ih h

/-- A RID that is not given out changes nothing. -/
theorem ProcessScheduler.getNextRid_zero (h : s.getNextRid pid = some (0, s')) : s' = s := by
  unfold getNextRid at h
  split at h
  · cases h; rfl
  · split at h
    · cases h; rfl
    · rw [map_eq_some_iff] at h
      obtain ⟨⟨rid, following⟩, hfind, heq⟩ := h
      have hzero : rid = 0 := by injections
      exact absurd hzero (findFree_spec hfind).1

/-! ### The inversion -/

namespace System

variable {s s' : System} {t : ℕ} {p : InfoPtr}

/-- Handing over a message, from either place of the main loop. -/
theorem happens_handMessage (a : Action) {isKilled : Bool} {stage : Stage} {call : ServicesCall}
    {info : ProcessInfo} (ht : s.threads t = .executing p isKilled stage call)
    (hstage : stage = .dispatched ∧ isKilled = false ∨ ∃ status, stage = .looping status)
    (hinfo : s.scheduler.heap p = some info) (h : s.handMessage t p info isKilled = some s') :
    Happens s a s' := by
  rw [handMessage, map_eq_some_iff] at h
  obtain ⟨⟨⟨rid, message⟩, info'⟩, hnext, rfl⟩ := h
  exact .handsMessage a ht hstage hinfo hnext

theorem happens_resourceAdded {pid : PID} {rid : RID} {resource : ResourcePtr}
    {blocking accepted : Bool}
    (ht : (s.threads t).services = some (p, .adding pid rid resource blocking))
    (h : s.resourceAdded t p pid rid resource blocking accepted = some s') :
    Happens s (.resourceAdded t accepted) s' := by
  unfold resourceAdded at h
  cases accepted with
  | false => cases h; exact .notAdded ht
  | true =>
    simp only [if_true] at h
    split at h
    · cases h
    · next info hinfo =>
      cases h
      by_cases hrid : rid = 0
      · subst hrid
        have hback := ProcessScheduler.setInfo_self hinfo
        cases blocking <;>
          simpa [ProcessInfo.addBlockingResource, ProcessInfo.addResource, hback] using
            Happens.storesNot ht
      · have hstore := Happens.stores ht hinfo hrid
        cases blocking <;>
          simpa [ProcessInfo.addBlockingResource, ProcessInfo.addResource, hrid] using hstore

/-- **Every step is one of the ways a step can go.** -/
theorem happens_of_step {a : Action} (h : step s a = some s') : Happens s a s' := by
  cases a with
  | addProcess t executableId ownerId process =>
    simp only [step] at h
    split at h
    · next ht =>
      rw [map_eq_some_iff] at h
      obtain ⟨⟨⟨pid, p⟩, scheduler⟩, hadd, rfl⟩ := h
      cases p with
      | none => rw [ProcessScheduler.addProcess_none hadd]; exact .refused _
      | some p => exact .adds ht hadd
    · cases h
  | processAdded t =>
    simp only [step] at h
    split at h
    · next ht => cases h; exact .added ht
    · cases h
  | killProcess pid =>
    simp only [step, map_eq_some_iff] at h
    obtain ⟨⟨result, scheduler⟩, hop, rfl⟩ := h
    exact .kills hop
  | suspendProcess pid =>
    simp only [step, map_eq_some_iff] at h
    obtain ⟨⟨result, scheduler⟩, hop, rfl⟩ := h
    exact .suspends hop
  | startProcess pid =>
    simp only [step, map_eq_some_iff] at h
    obtain ⟨⟨result, scheduler⟩, hop, rfl⟩ := h
    exact .starts hop
  | sendMessage pid rid message =>
    simp only [step, map_eq_some_iff] at h
    obtain ⟨⟨result, scheduler⟩, hop, rfl⟩ := h
    exact .sends hop
  | shutdown =>
    simp only [step, map_eq_some_iff] at h
    obtain ⟨scheduler, hop, rfl⟩ := h
    exact .shutsDown hop
  | osTimeHasJumped backwards => cases h; exact .jumps backwards
  | getNextExecute t now fuel =>
    simp only [step] at h
    split at h
    · next ht =>
      split at h
      · cases h
      · next hnow =>
        rw [map_eq_some_iff] at h
        obtain ⟨scheduler, hloop, rfl⟩ := h
        exact .wakes ht (not_lt.mp hnow) hloop
    · cases h
  | pop t =>
    simp only [step] at h
    split at h
    · next ht =>
      split at h
      · cases h
      · split at h
        · next hq => cases h; exact .popsNothing ht hq
        · next hq => cases h; exact .pops ht hq
    · cases h
  | timeout t =>
    simp only [step] at h
    split at h
    · next ht => cases h; exact .timesOut ht
    · cases h
  | dispatch t =>
    simp only [step] at h
    split at h
    · next ht =>
      rw [map_eq_some_iff] at h
      obtain ⟨info, hinfo, rfl⟩ := h
      exact .dispatches ht hinfo
    · cases h
  | hand t =>
    simp only [step] at h
    split at h
    · next p isKilled call ht =>
      unfold hand at h
      split at h
      · cases h
      · next info hinfo =>
        cases isKilled with
        | true => cases h; exact .handsKilled ht
        | false =>
          rw [if_neg (by decide)] at h
          split at h
          · cases h; exact .handsPlain ht
          · exact happens_handMessage _ ht (.inl ⟨rfl, rfl⟩) hinfo h
    · cases h
  | processReturns t status =>
    simp only [step] at h
    split at h
    · next ht => cases h; exact .callReturns status ht
    · cases h
  | nextMessage t =>
    simp only [step] at h
    split at h
    · next status call ht =>
      unfold nextMessage at h
      split at h
      · cases h
      · next info hinfo =>
        split at h
        · cases h; exact .messagesDone ht
        · exact happens_handMessage _ ht (.inr ⟨_, rfl⟩) hinfo h
    · cases h
  | returnedFromExecute t now sleepMs =>
    simp only [step] at h
    split at h
    · next ht =>
      split at h
      · cases h
      · next hnow =>
        rw [returnedFromExecute, map_eq_some_iff] at h
        obtain ⟨scheduler, hret, rfl⟩ := h
        exact .returns ht (not_lt.mp hnow) hret
    · cases h
  | takeResources t =>
    simp only [step] at h
    split at h
    · next ht =>
      rw [map_eq_some_iff] at h
      obtain ⟨⟨rids, scheduler⟩, htake, rfl⟩ := h
      exact .takesAll ht htake
    · cases h
  | finishCleanup t =>
    simp only [step] at h
    split at h
    · next ht =>
      rw [map_eq_some_iff] at h
      obtain ⟨scheduler, hfin, rfl⟩ := h
      exact .finishes ht hfin
    · cases h
  | addResource t resource blocking =>
    simp only [step] at h
    split at h
    · next ht =>
      unfold addResource at h
      split at h
      · cases h
      · next info hinfo =>
        cases resource with
        | none => cases h; exact .refused _
        | some resource =>
          simp only [map_eq_some_iff] at h
          obtain ⟨⟨rid, scheduler⟩, hrid, rfl⟩ := h
          by_cases hzero : rid = 0
          · subst hzero
            rw [if_pos rfl, ProcessScheduler.getNextRid_zero hrid]
            exact .refused _
          · rw [if_neg hzero]
            exact .getsRid ht hinfo hrid hzero
    · cases h
  | resourceAdded t accepted =>
    simp only [step] at h
    split at h
    · next ht => exact happens_resourceAdded ht h
    · cases h
  | removeResource t rid =>
    simp only [step] at h
    split at h
    · next ht =>
      unfold removeResource at h
      split at h
      · cases h
      · next info hinfo =>
        split at h
        · cases h; exact .refused _
        · cases hremove : info.removeResource rid with
          | mk taken info' =>
            rw [hremove] at h
            cases taken with
            | none => cases h; exact .refused _
            | some resource => cases h; exact .takes ht hinfo hremove
    · cases h
  | removeResourcePtr t resource =>
    simp only [step] at h
    split at h
    · next ht =>
      unfold removeResourcePtr at h
      split at h
      · cases h
      · cases h; exact .refused _
      · next info resource hinfo =>
        cases hremove : info.removeResourcePtr resource with
        | mk rid info' =>
          simp only [hremove] at h
          split at h
          · cases h; exact .refused _
          · next hrid => cases h; exact .takesPtr ht hinfo hremove hrid
    · cases h
  | resourceRemoved t =>
    simp only [step] at h
    split at h
    · next ht => cases h; exact .removed ht
    · cases h

end System

end Mutgos.Executor
