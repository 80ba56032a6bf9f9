import Mutgos.Executor.ProcessTables
import Mutgos.Executor.TimerQueue

/-!
# Exclusive execution

A process is in the run queue, in the hands of the one thread that executes it or
cleans it up, or in neither, and once it has been freed nothing points to it any
more.  The cleanup gives up the lock of the scheduler between its two sections;
all that keeps the process out of the run queue meanwhile is that the operations
leave a completed one alone.  `suspend_process` does not: the process becomes
suspended, `start_process` puts it into the run queue, and the second section of
the cleanup frees what the queue still points to.

## Main results

* `exclusiveExecution` — **it holds in every run that suspends no sleeping or
  completed process.**
-/

namespace Mutgos.Executor

/-- Exclusive execution.  A process that a thread has taken off the run queue is
marked as executing under its own token, after the queue has been left: until then
it is ready or killed, in the hands of that thread. -/
structure ExclusiveExecution (s : System) : Prop where
  once : ∀ p, s.scheduler.processRunQueue.count p ≤ 1
  queued : ∀ p info, s.scheduler.heap p = some info →
    (p ∈ s.scheduler.processRunQueue ↔
      (info.processState = .ready ∨ info.processState = .killed) ∧ ∀ t, s.threads t ≠ .popped p)
  executing : ∀ t p isKilled stage call, s.threads t = .executing p isKilled stage call →
    p ∉ s.scheduler.processRunQueue
  cleaning : ∀ t p, (s.threads t = .cleaning p ∨ ∃ rids, s.threads t = .releasing p rids) →
    p ∉ s.scheduler.processRunQueue
  /-- At most one thread has a process. -/
  alone : ∀ t t' g g', (s.threads t).hold = some g → (s.threads t').hold = some g' →
    g.grip.1 = g'.grip.1 → t = t'
  /-- Nothing points to an address that is free. -/
  freed : ∀ p, s.scheduler.heap p = none → p ∉ s.scheduler.processRunQueue ∧
    (∀ w, (w, p) ∉ s.scheduler.processTimerQueue) ∧
    (∀ pid : PID, s.scheduler.allProcesses[pid]? ≠ some p) ∧
    ∀ siteId entityId, p ∉ BucketIndex.bucket s.scheduler.allProcessesEntity siteId entityId

namespace System

variable {s : System}

/-- A thread grips a process in the run queue's stead where it has popped it. -/
theorem grip_queued_iff {t : ℕ} {p : InfoPtr} :
    s.dispatch.grip t = some (p, .queued) ↔ s.threads t = .popped p := by
  show (s.threads t).hold.map Hold.grip = _ ↔ _
  cases s.threads t <;> simp [Phase.hold, Hold.grip]

end System

/-- **Execution is exclusive** in every run that suspends no sleeping or completed
process. -/
theorem exclusiveExecution {s : System} (h : s.ReachesBy attentive) : ExclusiveExecution s := by
  have hcompleted : ¬ attentive .completed := fun hc => hc.2 rfl
  have hcustody := (System.exclusive_of_reachable h hcompleted).custody
  have htables := System.tablesAgree_of_reachable h
  have hgrip : ∀ {t g}, (s.threads t).hold = some g → s.dispatch.grip t = some g.grip :=
    fun ht => Dispatch.grip_of_hold ht
  constructor
  · exact hcustody.count_le_one
  · intro p info hinfo
    have hmem := hcustody.mem_queue_iff p
    rw [System.place_of_heap hinfo, Option.some.injEq, ProcessState.place_eq_queued] at hmem
    simp only [ne_eq, System.grip_queued_iff] at hmem
    exact hmem
  · intro t p isKilled stage call ht
    exact hcustody.notMem_queue (hgrip (g := .executing p isKilled) (by rw [ht]; rfl))
  · intro t p ht
    have hhold : (s.threads t).hold = some (.cleaning p) := by
      rcases ht with ht | ⟨rids, ht⟩ <;> rw [ht] <;> rfl
    exact hcustody.notMem_queue (hgrip hhold)
  · intro t t' g g' ht ht' hsame
    have h₁ := hgrip ht
    have h₂ := hgrip ht'
    rw [← Prod.mk.eta (p := g.grip), hsame] at h₁
    exact hcustody.unique t t' _ _ _ h₁ h₂
  · intro p hp
    have hqueue := hcustody.not_queued (.inl (System.place_of_heap_none hp))
    refine ⟨hqueue, ?_, ?_, ?_⟩
    · intro w hw
      have hexact := System.timerExact_of_attentive h
      obtain ⟨info, hinfo, -⟩ := ProcessScheduler.sleepsUntil_iff.mp ((hexact.mem_iff w p).mp hw)
      rw [hp] at hinfo
      cases hinfo
    · intro pid
      apply htables.allProcesses_ne
      simp [hp]
    · intro siteId entityId
      apply htables.notMem_bucket
      simp [hp]

/-- Of two processes that are started, a thread has begun to execute the first. -/
def executesFirst : List Action :=
  [.addProcess 0 ⟨1, 5⟩ ⟨1, 7⟩ (some 100), .processAdded 0, .addProcess 0 ⟨1, 5⟩ ⟨1, 8⟩ (some 101),
    .processAdded 0, .startProcess 1, .startProcess 2, .getNextExecute 0 0 1, .pop 0, .dispatch 0]

/-- The other one is in the run queue. -/
theorem exclusiveExecution_second : ∃ s, run System.step System.initial executesFirst = some s ∧
    s.scheduler.processRunQueue = [1] ∧ s.threads 0 = .executing 0 false .dispatched .none ∧
    ExclusiveExecution s := by
  have hrun : (run System.step System.initial executesFirst).map
      (fun s => (s.scheduler.processRunQueue, s.threads 0))
      = some ([1], .executing 0 false .dispatched .none) := by decide +kernel
  obtain ⟨s, hs, heq⟩ := Option.map_eq_some_iff.mp hrun
  obtain ⟨hqueue, hthread⟩ := Prod.mk.inj heq
  refine ⟨s, hs, hqueue, hthread, exclusiveExecution ?_⟩
  exact System.reachesBy_of_run hs (by decide)

/-- A process that is done is suspended and started while it is cleaned up. -/
def startedInCleanup : List Action :=
  [.addProcess 0 ⟨1, 5⟩ ⟨1, 7⟩ (some 100), .processAdded 0, .startProcess 1,
    .getNextExecute 0 0 1, .pop 0, .dispatch 0, .hand 0, .processReturns 0 .finished,
    .returnedFromExecute 0 0 0, .suspendProcess 1, .startProcess 1]

/-- It is in the run queue while it is cleaned up, and once it has been freed. -/
theorem exclusiveExecution_broken :
    (∃ s : System, s.Reaches ∧ s.threads 0 = .cleaning 0 ∧ 0 ∈ s.scheduler.processRunQueue ∧
      ¬ ExclusiveExecution s) ∧
    ∃ s : System, s.Reaches ∧ s.scheduler.heap 0 = none ∧ 0 ∈ s.scheduler.processRunQueue ∧
      ¬ ExclusiveExecution s := by
  constructor
  · have hrun : (run System.step System.initial startedInCleanup).map
        (fun s => (s.scheduler.processRunQueue, s.threads 0)) = some ([0], .cleaning 0) := by
      decide +kernel
    obtain ⟨s, hs, heq⟩ := Option.map_eq_some_iff.mp hrun
    obtain ⟨hqueue, hthread⟩ := Prod.mk.inj heq
    have hmem : 0 ∈ s.scheduler.processRunQueue := by rw [hqueue]; exact List.mem_singleton_self 0
    refine ⟨s, System.reaches_of_run hs, hthread, hmem, ?_⟩
    intro hex
    exact hex.cleaning 0 0 (.inl hthread) hmem
  · have hrun : (run System.step System.initial
        (startedInCleanup ++ [.takeResources 0, .finishCleanup 0])).map
        (fun s => (s.scheduler.processRunQueue, (s.scheduler.heap 0).isSome))
        = some ([0], false) := by decide +kernel
    obtain ⟨s, hs, heq⟩ := Option.map_eq_some_iff.mp hrun
    obtain ⟨hqueue, hfree⟩ := Prod.mk.inj heq
    have hmem : 0 ∈ s.scheduler.processRunQueue := by rw [hqueue]; exact List.mem_singleton_self 0
    have hnone : s.scheduler.heap 0 = none := by simpa using hfree
    refine ⟨s, System.reaches_of_run hs, hnone, hmem, ?_⟩
    intro hex
    exact (hex.freed 0 hnone).1 hmem

end Mutgos.Executor
