import Mutgos.Executor.ProcessScheduler
import Mutgos.Lib.TransitionSystem

/-!
# Threads around the scheduler

The executor threads of `executor::ThreadedExecutor`, the callers of
`add_process` and everybody else who may call the scheduler, as one transition
system.  A step is one section that holds the scheduler lock, one section that
holds the token of a process, one operation on the run queue, or the return of a
call into the code of a process or a resource; between any two steps of one
thread every other thread may do any number of its own.

A thread here is one call in progress.  A call made from inside another one is a
thread of its own, so nesting only takes interleavings away.

## References

`executor_ThreadedExecutor.cpp` for the executing phases,
`executor_ProcessServices.cpp` for the service calls.
-/

namespace Mutgos.Executor

open DbTypes

/-- How far a `ProcessServices` call has got. -/
inductive ServicesCall
  /-- None is in progress. -/
  | none
  /-- `add_resource` or `add_blocking_resource` has its RID, and the resource is
  being told that it is added. -/
  | adding (pid : PID) (rid : RID) (resource : ResourcePtr) (blocking : Bool)
  /-- The resource is out of the `ProcessInfo` (or did not get in), it is being
  told so, and the RID is released afterwards. -/
  | removing (pid : PID) (rid : RID)
  deriving DecidableEq, Repr

/-- What a process has been handed to do. -/
inductive Handing
  /-- `process_killed` -/
  | killed
  /-- `process_execute` without a message -/
  | execute
  /-- `process_execute` with a message -/
  | message (rid : RID) (message : MessagePtr)
  deriving DecidableEq, Repr

/-- Where `thread_main` is between `get_next_execute` and
`returned_from_execute`. -/
inductive Stage
  /-- `get_next_execute` has returned. -/
  | dispatched
  /-- The code of the process is running. -/
  | inCall (handing : Handing)
  /-- A message has been processed with this status; the queue is to be looked at
  again. -/
  | looping (status : ProcessStatus)
  /-- `returned_from_execute` is to be called with this status. -/
  | returning (status : ProcessStatus)
  deriving DecidableEq, Repr

/-- Where a thread is. -/
inductive Phase
  | idle
  /-- The main loop has been left. -/
  | stopped
  /-- `add_process` is past its locked section and `process_added` is running. -/
  | adding (p : InfoPtr) (event : ProcessExecutionEvent) (call : ServicesCall)
  /-- `get_next_execute` is past its locked section, where it read whether the
  scheduler is shutting down. -/
  | waiting (shutdownCaller : Bool)
  /-- `get_next_execute` has taken the process off the run queue. -/
  | popped (p : InfoPtr)
  /-- `get_next_execute` has handed the process out, with its `is_killed`. -/
  | executing (p : InfoPtr) (isKilled : Bool) (stage : Stage) (call : ServicesCall)
  /-- `cleanup_process` is past its first locked section. -/
  | cleaning (p : InfoPtr)
  /-- `cleanup_process` has taken the resources and is telling them. -/
  | releasing (p : InfoPtr) (rids : List RID)
  deriving DecidableEq, Repr

namespace Phase

/-- The process a `ProcessServices` call can be made for, and the call. -/
def services : Phase → Option (InfoPtr × ServicesCall)
  | adding p _ call => some (p, call)
  | executing p _ (.inCall _) call => some (p, call)
  | _ => none

/-- Move the `ProcessServices` call on. -/
def withCall (call : ServicesCall) : Phase → Phase
  | adding p event _ => adding p event call
  | executing p isKilled stage _ => executing p isKilled stage call
  | phase => phase

end Phase

/-- The scheduler, all threads, and the latest time read. -/
structure System where
  scheduler : ProcessScheduler
  threads : ℕ → Phase
  clock : TimePoint

/-- What can happen next.  `t` is the thread it happens in; the public operations
need none. -/
inductive Action
  | addProcess (t : ℕ) (executableId ownerId : Id) (process : Option ProcessPtr)
  /-- `process_added` returns. -/
  | processAdded (t : ℕ)
  | killProcess (pid : PID)
  | suspendProcess (pid : PID)
  | startProcess (pid : PID)
  | sendMessage (pid : PID) (rid : RID) (message : Option MessagePtr)
  | shutdown
  | osTimeHasJumped (backwards : Bool)
  /-- The locked section of `get_next_execute`, at a time. -/
  | getNextExecute (t : ℕ) (now : TimePoint) (fuel : ℕ)
  /-- `timed_wait` gets the semaphore, and the run queue is popped. -/
  | pop (t : ℕ)
  /-- `timed_wait` times out. -/
  | timeout (t : ℕ)
  /-- The end of `get_next_execute`, under the token of the process. -/
  | dispatch (t : ℕ)
  /-- `thread_main` calls the process for the first time. -/
  | hand (t : ℕ)
  /-- The code of the process returns, with a status. -/
  | processReturns (t : ℕ) (status : ProcessStatus)
  /-- The message loop of `thread_main` looks at the queue again. -/
  | nextMessage (t : ℕ)
  | returnedFromExecute (t : ℕ) (now : TimePoint) (sleepMs : ℕ)
  /-- `cleanup_process` takes the resources, `process_finished` having returned. -/
  | takeResources (t : ℕ)
  | finishCleanup (t : ℕ)
  /-- `add_resource` or `add_blocking_resource` gets its RID. -/
  | addResource (t : ℕ) (resource : Option ResourcePtr) (blocking : Bool)
  /-- `resource_added_to_process` returns. -/
  | resourceAdded (t : ℕ) (accepted : Bool)
  | removeResource (t : ℕ) (rid : RID)
  | removeResourcePtr (t : ℕ) (resource : Option ResourcePtr)
  /-- `resource_removed_from_process` returns, and the RID is released. -/
  | resourceRemoved (t : ℕ)
  deriving DecidableEq, Repr

namespace System

/-- An empty scheduler and idle threads. -/
def initial : System := ⟨.new, fun _ => .idle, 0⟩

/-- Move one thread on. -/
def setPhase (s : System) (t : ℕ) (phase : Phase) : System :=
  { s with threads := Function.update s.threads t phase }

/-- The scheduler after a public operation. -/
def withScheduler (s : System) (scheduler : ProcessScheduler) : System :=
  { s with scheduler := scheduler }

/-- `get_next_execute` returns null: a thread that is told of a shutdown stops. -/
def nothingToExecute (s : System) (t : ℕ) (shutdownCaller : Bool) : System :=
  s.setPhase t (if shutdownCaller then .stopped else .idle)

/-- `thread_main` takes the next message and calls the process with it. -/
def handMessage (s : System) (t : ℕ) (p : InfoPtr) (info : ProcessInfo) (isKilled : Bool) :
    Option System :=
  info.getNextMessage.map fun ((rid, message), info) =>
    (s.withScheduler (s.scheduler.setInfo p info)).setPhase t
      (.executing p isKilled (.inCall (.message rid message)) .none)

/-- `thread_main` after `get_next_execute`: `process_killed`, a plain
`process_execute`, or the first message. -/
def hand (s : System) (t : ℕ) (p : InfoPtr) (isKilled : Bool) : Option System :=
  match s.scheduler.heap p with
  | none => none
  | some info =>
    if isKilled then some (s.setPhase t (.executing p isKilled (.inCall .killed) .none))
    else if info.waitingMessages = [] then
      some (s.setPhase t (.executing p isKilled (.inCall .execute) .none))
    else s.handMessage t p info isKilled

/-- What `thread_main` does with the status a call returned: `process_killed`
counts as finished, and after a message the loop goes on unless the process
wants no more. -/
def afterCall (handing : Handing) (status : ProcessStatus) : Stage :=
  match handing with
  | .killed => .returning .finished
  | .execute => .returning status
  | .message _ _ =>
    match status with
    | .error | .suspended | .finished => .returning status
    | _ => .looping status

/-- The message loop looks at the queue again. -/
def nextMessage (s : System) (t : ℕ) (p : InfoPtr) (isKilled : Bool) (status : ProcessStatus) :
    Option System :=
  match s.scheduler.heap p with
  | none => none
  | some info =>
    if info.waitingMessages = [] then
      some (s.setPhase t (.executing p isKilled (.returning status) .none))
    else s.handMessage t p info isKilled

/-- Where `returned_from_execute` goes from its locked section: on inside
`cleanup_process`, or back. -/
def afterReturn (p : InfoPtr) : ProcessStatus → Phase
  | .finished | .error => .cleaning p
  | _ => .idle

/-- The locked section of `returned_from_execute`, at a time. -/
def returnedFromExecute (s : System) (t : ℕ) (p : InfoPtr) (status : ProcessStatus)
    (now : TimePoint) (sleepMs : ℕ) : Option System :=
  (s.scheduler.returnedFromExecute p status now sleepMs).map fun scheduler =>
    { (s.withScheduler scheduler).setPhase t (afterReturn p status) with clock := now }

/-- `add_resource` and `add_blocking_resource` up to the call of the resource. -/
def addResource (s : System) (t : ℕ) (p : InfoPtr) (resource : Option ResourcePtr)
    (blocking : Bool) : Option System :=
  match s.scheduler.heap p with
  | none => none
  | some info =>
    match resource with
    | none => some s
    | some resource =>
      (s.scheduler.getNextRid info.myPid).map fun (rid, scheduler) =>
        let s := s.withScheduler scheduler
        if rid = 0 then s
        else s.setPhase t ((s.threads t).withCall (.adding info.myPid rid resource blocking))

/-- The rest of them: store the resource, or release the RID again, once the
resource has been told. -/
def resourceAdded (s : System) (t : ℕ) (p : InfoPtr) (pid : PID) (rid : RID)
    (resource : ResourcePtr) (blocking accepted : Bool) : Option System :=
  if accepted then
    match s.scheduler.heap p with
    | none => none
    | some info =>
      let (stored, info) :=
        if blocking then info.addBlockingResource rid (some resource)
        else info.addResource rid (some resource)
      some ((s.withScheduler (s.scheduler.setInfo p info)).setPhase t
        ((s.threads t).withCall (if stored then .none else .removing pid rid)))
  else
    some ((s.withScheduler (s.scheduler.releaseRid pid rid)).setPhase t
      ((s.threads t).withCall .none))

/-- `remove_resource` by RID, up to the call of the resource. -/
def removeResource (s : System) (t : ℕ) (p : InfoPtr) (rid : RID) : Option System :=
  match s.scheduler.heap p with
  | none => none
  | some info =>
    if rid = 0 then some s
    else
      match info.removeResource rid with
      | (none, _) => some s
      | (some _, info') =>
        some ((s.withScheduler (s.scheduler.setInfo p info')).setPhase t
          ((s.threads t).withCall (.removing info.myPid rid)))

/-- `remove_resource` by pointer, up to the call of the resource. -/
def removeResourcePtr (s : System) (t : ℕ) (p : InfoPtr) (resource : Option ResourcePtr) :
    Option System :=
  match s.scheduler.heap p, resource with
  | none, _ => none
  | some _, none => some s
  | some info, some resource =>
    match info.removeResourcePtr resource with
    | (rid, info') =>
      if rid = 0 then some s
      else
        some ((s.withScheduler (s.scheduler.setInfo p info')).setPhase t
          ((s.threads t).withCall (.removing info.myPid rid)))

/-- **The step function.** -/
def step (s : System) : Action → Option System
  | .addProcess t executableId ownerId process =>
    match s.threads t with
    | .idle =>
      (s.scheduler.addProcess executableId ownerId process).map fun ((pid, p), scheduler) =>
        let s := s.withScheduler scheduler
        match p with
        | none => s
        | some p => s.setPhase t (.adding p ⟨pid, executableId, ownerId, .created⟩ .none)
    | _ => none
  | .processAdded t =>
    match s.threads t with
    | .adding _ event .none =>
      some ((s.withScheduler (s.scheduler.publish event)).setPhase t .idle)
    | _ => none
  | .killProcess pid => (s.scheduler.killProcess pid).map fun r => s.withScheduler r.2
  | .suspendProcess pid => (s.scheduler.suspendProcess pid).map fun r => s.withScheduler r.2
  | .startProcess pid => (s.scheduler.startProcess pid).map fun r => s.withScheduler r.2
  | .sendMessage pid rid message =>
    (s.scheduler.sendMessage pid rid message).map fun r => s.withScheduler r.2
  | .shutdown => s.scheduler.shutdown.map s.withScheduler
  | .osTimeHasJumped backwards => some (s.withScheduler (s.scheduler.osTimeHasJumped backwards))
  | .getNextExecute t now fuel =>
    match s.threads t with
    | .idle =>
      if now < s.clock then none
      else
        (s.scheduler.wakeLoop fuel now).map fun scheduler =>
          { (s.withScheduler scheduler).setPhase t (.waiting s.scheduler.shuttingDown) with
            clock := now }
    | _ => none
  | .pop t =>
    match s.threads t with
    | .waiting shutdownCaller =>
      if s.scheduler.processRunQueueSemaphore = 0 then none
      else
        let scheduler := { s.scheduler with
          processRunQueueSemaphore := s.scheduler.processRunQueueSemaphore - 1 }
        match s.scheduler.processRunQueue with
        | [] => some ((s.withScheduler scheduler).nothingToExecute t shutdownCaller)
        | p :: rest =>
          some ((s.withScheduler { scheduler with processRunQueue := rest }).setPhase t (.popped p))
    | _ => none
  | .timeout t =>
    match s.threads t with
    | .waiting shutdownCaller => some (s.nothingToExecute t shutdownCaller)
    | _ => none
  | .dispatch t =>
    match s.threads t with
    | .popped p =>
      (s.scheduler.heap p).map fun info =>
        (s.withScheduler (s.scheduler.setInfo p { info with processState := .executing })).setPhase
          t (.executing p (info.processState == .killed) .dispatched .none)
    | _ => none
  | .hand t =>
    match s.threads t with
    | .executing p isKilled .dispatched _ => s.hand t p isKilled
    | _ => none
  | .processReturns t status =>
    match s.threads t with
    | .executing p isKilled (.inCall handing) .none =>
      some (s.setPhase t (.executing p isKilled (afterCall handing status) .none))
    | _ => none
  | .nextMessage t =>
    match s.threads t with
    | .executing p isKilled (.looping status) _ => s.nextMessage t p isKilled status
    | _ => none
  | .returnedFromExecute t now sleepMs =>
    match s.threads t with
    | .executing p _ (.returning status) _ =>
      if now < s.clock then none else s.returnedFromExecute t p status now sleepMs
    | _ => none
  | .takeResources t =>
    match s.threads t with
    | .cleaning p =>
      (s.scheduler.takeResources p).map fun (rids, scheduler) =>
        (s.withScheduler scheduler).setPhase t (.releasing p rids)
    | _ => none
  | .finishCleanup t =>
    match s.threads t with
    | .releasing p rids =>
      (s.scheduler.finishCleanup p rids).map fun scheduler =>
        (s.withScheduler scheduler).setPhase t .idle
    | _ => none
  | .addResource t resource blocking =>
    match (s.threads t).services with
    | some (p, .none) => s.addResource t p resource blocking
    | _ => none
  | .resourceAdded t accepted =>
    match (s.threads t).services with
    | some (p, .adding pid rid resource blocking) =>
      s.resourceAdded t p pid rid resource blocking accepted
    | _ => none
  | .removeResource t rid =>
    match (s.threads t).services with
    | some (p, .none) => s.removeResource t p rid
    | _ => none
  | .removeResourcePtr t resource =>
    match (s.threads t).services with
    | some (p, .none) => s.removeResourcePtr t p resource
    | _ => none
  | .resourceRemoved t =>
    match (s.threads t).services with
    | some (_, .removing pid rid) =>
      some ((s.withScheduler (s.scheduler.releaseRid pid rid)).setPhase t
        ((s.threads t).withCall .none))
    | _ => none

end System

end Mutgos.Executor
