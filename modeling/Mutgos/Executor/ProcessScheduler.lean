import Mutgos.Executor.ProcessInfo
import Mutgos.Lib.BucketIndex
import Mutgos.Lib.MultiMap
import Mathlib.Logic.Function.Basic

/-!
# The process scheduler

`executor::ProcessScheduler`: the process tables, the run queue and the timer
queue, and the methods that work on them.  A method takes the scheduler lock once
and gives it back once, so what it does in between is one step; where it has
several such sections (`get_next_execute`, `returned_from_execute` with
`cleanup_process`, `add_process`), each section is a definition of its own and
the threads of `Mutgos.Executor.System` put them in order.

`ProcessInfo`s live on a heap.  An address is never given out twice, so an
address without an entry below `nextPtr` is one that has been freed, and a
section that dereferences it has no result.  The other reason for no result is a
search for a free number that finds none and does not end.
-/

namespace Mutgos.Executor

open DbTypes

def maxPid : PID := 30000

/-- `max_rid`: the maximum of a 32 bit unsigned, less one. -/
def maxRid : RID := 4294967294

/-- `events::ProcessExecutionEvent`, less the name the process reports. -/
structure ProcessExecutionEvent where
  pid : PID
  executableId : Id
  ownerId : Id
  state : ProcessState
  deriving DecidableEq, Repr

structure ProcessScheduler where
  shuttingDown : Bool
  allProcesses : Std.TreeMap PID InfoPtr
  allProcessesEntity : BucketIndex SiteIdType EntityIdType InfoPtr
  processRunQueueSemaphore : ℕ
  processRunQueue : List InfoPtr
  processTimerQueue : MultiMap TimePoint InfoPtr
  nextPid : PID
  nextRid : RID
  ridToPid : Std.TreeMap RID PID
  /-- The `ProcessInfo`s that exist. -/
  heap : InfoPtr → Option ProcessInfo
  /-- The next address an allocation gets. -/
  nextPtr : InfoPtr
  /-- What has been given to `publish_event`. -/
  published : List ProcessExecutionEvent

namespace ProcessState

/-- The states `schedule_process` takes to mean that the process is queued. -/
def inQueue : ProcessState → Bool
  | killed | ready => true
  | _ => false

def canReceiveMessages (shuttingDown : Bool) : ProcessState → Bool
  | suspended | killed | completed => false
  | _ => !shuttingDown

end ProcessState

/-- The search for a free number: from `next` on, going back to 1 at `max`, the
first that is neither 0 nor in use, and where the next search starts.  After
`max` rounds every number has been looked at, so a search that is out of rounds
goes on for ever. -/
def findFree (inUse : ℕ → Bool) (max : ℕ) : (rounds next : ℕ) → Option (ℕ × ℕ)
  | 0, _ => none
  | rounds + 1, next =>
    let following := if max ≤ next + 1 then 1 else next + 1
    if next ≠ 0 ∧ inUse next = false then some (next, following)
    else findFree inUse max rounds following

namespace ProcessInfo

/-- The event that reports a process in the given state. -/
def event (info : ProcessInfo) (state : ProcessState) : ProcessExecutionEvent :=
  ⟨info.myPid, info.dbExecutableId, info.dbOwnerId, state⟩

/-- What `schedule_process` makes of a process. -/
def scheduled (info : ProcessInfo) : ProcessInfo :=
  if info.processState = .executing then info
  else if info.pendingKilled then { info with processState := .killed, pendingKilled := false }
  else if info.processState.inQueue then info
  else { info with processState := .ready }

/-- `returned_from_execute` for a process that is not cleaned up: whether it is
to be rescheduled, and the process, with `SCHEDULING` for a state that the
rescheduling replaces. -/
def afterExecute (info : ProcessInfo) (status : ProcessStatus) (now : TimePoint) (sleepMs : ℕ) :
    Bool × ProcessInfo :=
  let info := { info with processState := .scheduling }
  let suspended := !info.pendingKilled && (status == .suspended || info.pendingSuspended)
  let info :=
    if suspended then
      { info with pendingSuspended := false, processState := .suspended }.clearAllMessages
    else info
  let reschedule := info.pendingKilled ||
    (!suspended && (status == .executeMore || !info.waitingMessages.isEmpty))
  if !suspended && !reschedule && status == .sleep then
    (false, { info.setSleepTimeOffset now sleepMs with processState := .sleeping })
  else if !suspended && !reschedule && status == .waitMessage then
    (false, { info with processState := .waitMessage })
  else if status == .blocked then
    let info := info.resetBlockedResources
    if !suspended && !reschedule then (false, { info with processState := .blocked })
    else (reschedule, info)
  else (reschedule, info)

/-- Whether `send_message` schedules the receiver, looked at after the message
has been added. -/
def needSchedule (info : ProcessInfo) (rid : RID) : Bool :=
  match info.processState with
  | .blocked => rid != 0 && info.blockedResourcesEmpty
  | .created => false
  | _ => true

/-- The loop of `cleanup_process` that empties the resource list: the given RIDs
with what was registered under them. -/
def takeResources : List RID → ProcessInfo → List (RID × Option ResourcePtr) × ProcessInfo
  | [], info => ([], info)
  | rid :: rids, info =>
    let (resource, info) := info.removeResource rid
    let (taken, info) := takeResources rids info
    ((rid, resource) :: taken, info)

end ProcessInfo

/-- The loop that looks for a process from a found entry on: it stops when the
entry is the one, or stands under another key. -/
def eraseFrom (wakeupTime : TimePoint) (p : InfoPtr) :
    MultiMap TimePoint InfoPtr → MultiMap TimePoint InfoPtr
  | [] => []
  | e :: rest =>
    if e.2 = p then rest
    else if e.1 ≠ wakeupTime then e :: rest
    else e :: eraseFrom wakeupTime p rest

/-- Remove a process from the timer queue: `find` goes to the first entry of its
wakeup time, and the loop looks on from there. -/
def eraseTimer (wakeupTime : TimePoint) (p : InfoPtr) :
    MultiMap TimePoint InfoPtr → MultiMap TimePoint InfoPtr
  | [] => []
  | e :: rest =>
    if e.1 = wakeupTime then eraseFrom wakeupTime p (e :: rest)
    else e :: eraseTimer wakeupTime p rest

namespace ProcessScheduler

/-- The constructor. -/
def new : ProcessScheduler where
  shuttingDown := false
  allProcesses := ∅
  allProcessesEntity := ∅
  processRunQueueSemaphore := 0
  processRunQueue := []
  processTimerQueue := []
  nextPid := 1
  nextRid := 1
  ridToPid := ∅
  heap := fun _ => none
  nextPtr := 0
  published := []

/-- Write a `ProcessInfo` back. -/
def setInfo (s : ProcessScheduler) (p : InfoPtr) (info : ProcessInfo) : ProcessScheduler :=
  { s with heap := Function.update s.heap p (some info) }

/-- `publish_event` -/
def publish (s : ProcessScheduler) (event : ProcessExecutionEvent) : ProcessScheduler :=
  { s with published := s.published ++ [event] }

/-- Push onto the run queue and post its semaphore. -/
def enqueue (s : ProcessScheduler) (p : InfoPtr) : ProcessScheduler :=
  { s with
    processRunQueue := s.processRunQueue ++ [p]
    processRunQueueSemaphore := s.processRunQueueSemaphore + 1 }

/-- Take a sleeping process out of the timer queue. -/
def unsleep (s : ProcessScheduler) (p : InfoPtr) (info : ProcessInfo) : ProcessScheduler :=
  if info.processState = .sleeping then
    { s with processTimerQueue := eraseTimer info.wakeupTime p s.processTimerQueue }
  else s

/-! ### Scheduling -/

def scheduleProcess (s : ProcessScheduler) (p : InfoPtr) : Option ProcessScheduler :=
  match s.heap p with
  | none => none
  | some info =>
    let s := s.setInfo p info.scheduled
    let s :=
      if info.pendingKilled && info.processState != .executing then s.publish (info.event .killed)
      else s
    if info.processState.inQueue || info.processState == .executing then some s
    else some ((s.unsleep p info).enqueue p)

/-! ### Public operations -/

/-- The locked section of `add_process`: the new PID and the address of its
`ProcessInfo`, or PID 0. -/
def addProcess (s : ProcessScheduler) (executableId ownerId : Id) (process : Option ProcessPtr) :
    Option ((PID × Option InfoPtr) × ProcessScheduler) :=
  match process with
  | none => some ((0, none), s)
  | some process =>
    if s.shuttingDown then some ((0, none), s)
    else if maxPid ≤ s.allProcesses.size then some ((0, none), s)
    else
      match findFree (fun pid => s.allProcesses.contains pid) maxPid maxPid s.nextPid with
      | none => none
      | some (pid, nextPid) =>
        let p := s.nextPtr
        some ((pid, some p), { s.setInfo p (.new pid process executableId ownerId) with
          nextPtr := p + 1
          nextPid := nextPid
          allProcesses := s.allProcesses.insert pid p
          allProcessesEntity :=
            BucketIndex.add s.allProcessesEntity ownerId.siteId ownerId.entityId p })

def killProcess (s : ProcessScheduler) (pid : PID) : Option (Bool × ProcessScheduler) :=
  match s.allProcesses[pid]? with
  | none => some (false, s)
  | some p =>
    match s.heap p with
    | none => none
    | some info =>
      if info.processState = .killed ∨ info.processState = .completed then some (true, s)
      else ((s.setInfo p { info with pendingKilled := true }).scheduleProcess p).map (true, ·)

def suspendProcess (s : ProcessScheduler) (pid : PID) : Option (Bool × ProcessScheduler) :=
  if s.shuttingDown then some (false, s)
  else
    match s.allProcesses[pid]? with
    | none => some (false, s)
    | some p =>
      match s.heap p with
      | none => none
      | some info =>
        match info.processState with
        | .ready | .executing | .killed =>
          some (true, s.setInfo p { info with pendingSuspended := true })
        | _ =>
          some (true, s.setInfo p
            { info with pendingSuspended := false, processState := .suspended })

def startProcess (s : ProcessScheduler) (pid : PID) : Option (Bool × ProcessScheduler) :=
  if s.shuttingDown then some (false, s)
  else
    match s.allProcesses[pid]? with
    | none => some (false, s)
    | some p =>
      match s.heap p with
      | none => none
      | some info =>
        match info.processState with
        | .created | .suspended => (s.scheduleProcess p).map (true, ·)
        | _ => some (true, s)

/-- What `send_message` answers, and whether it deleted the message. -/
structure SendOutcome where
  result : Bool
  deleted : Bool
  deriving DecidableEq, Repr

/-- `send_message`.  A message that is not accepted is deleted. -/
def sendMessage (s : ProcessScheduler) (pid : PID) (rid : RID) (message : Option MessagePtr) :
    Option (SendOutcome × ProcessScheduler) :=
  if message = none then some (⟨false, false⟩, s)
  else if pid = 0 then some (⟨false, true⟩, s)
  else
    match s.allProcesses[pid]? with
    | none => some (⟨false, true⟩, s)
    | some p =>
      match s.heap p with
      | none => none
      | some info =>
        if info.processState.canReceiveMessages s.shuttingDown then
          let (result, info) := info.addMessage message rid
          let s := s.setInfo p info
          if result && info.needSchedule rid then
            (s.scheduleProcess p).map (⟨result, !result⟩, ·)
          else some (⟨result, !result⟩, s)
        else some (⟨false, true⟩, s)

/-- The locked section of `shutdown`: kill everything, once. -/
def shutdown (s : ProcessScheduler) : Option ProcessScheduler :=
  if s.shuttingDown then some s
  else s.allProcesses.keys.foldlM (fun s pid => (s.killProcess pid).map Prod.snd)
    { s with shuttingDown := true }

def osTimeHasJumped (s : ProcessScheduler) (backwards : Bool) : ProcessScheduler :=
  if backwards then { s with processRunQueueSemaphore := s.processRunQueueSemaphore + 1 } else s

def getPidsForId (s : ProcessScheduler) (id : Id) : Option (List PID) :=
  (BucketIndex.bucket s.allProcessesEntity id.siteId id.entityId).mapM fun p =>
    (s.heap p).map ProcessInfo.myPid

def getPidsForSite (s : ProcessScheduler) (siteId : SiteIdType) : Option (List PID) :=
  (BucketIndex.slice s.allProcessesEntity siteId).mapM fun p => (s.heap p).map ProcessInfo.myPid

/-! ### Executing -/

/-- The loop of `get_next_execute`, which looks at the first timer as long as it
has expired; `fuel` bounds the iterations. -/
def wakeLoop : (fuel : ℕ) → (now : TimePoint) → ProcessScheduler → Option ProcessScheduler
  | 0, _, _ => none
  | fuel + 1, now, s =>
    match s.processTimerQueue with
    | [] => some s
    | (wakeup, p) :: _ =>
      if now < wakeup then some s
      else (s.scheduleProcess p).bind (wakeLoop fuel now)

/-- The first locked section of `cleanup_process`. -/
def beginCleanup (s : ProcessScheduler) (p : InfoPtr) (info : ProcessInfo) : ProcessScheduler :=
  (s.setInfo p { info with processState := .completed }).publish (info.event .completed)

/-- The locked section of `returned_from_execute`, which for a process that is
done ends inside `cleanup_process`. -/
def returnedFromExecute (s : ProcessScheduler) (p : InfoPtr) (status : ProcessStatus)
    (now : TimePoint) (sleepMs : ℕ) : Option ProcessScheduler :=
  match s.heap p with
  | none => none
  | some info =>
    match status with
    | .finished => some (s.beginCleanup p info)
    | .error => some ((s.publish (info.event .killed)).beginCleanup p info)
    | status =>
      let (reschedule, info) := info.afterExecute status now sleepMs
      let s := s.setInfo p info
      let s :=
        if info.processState = .sleeping then
          { s with processTimerQueue := MultiMap.insert info.wakeupTime p s.processTimerQueue }
        else s
      if reschedule then s.scheduleProcess p else some s

/-- The part of `cleanup_process` that holds the token of the process: take all
its resources. -/
def takeResources (s : ProcessScheduler) (p : InfoPtr) : Option (List RID × ProcessScheduler) :=
  match s.heap p with
  | none => none
  | some info => some (info.getResourceIds,
      s.setInfo p (ProcessInfo.takeResources info.getResourceIds info).2)

/-- `release_rid_internal`. -/
def releaseRid (s : ProcessScheduler) (pid : PID) (rid : RID) : ProcessScheduler :=
  if s.ridToPid[rid]? = some pid then { s with ridToPid := s.ridToPid.erase rid } else s

/-- The second locked section of `cleanup_process`: release the RIDs, take the
process out of the tables and free it. -/
def finishCleanup (s : ProcessScheduler) (p : InfoPtr) (rids : List RID) :
    Option ProcessScheduler :=
  match s.heap p with
  | none => none
  | some info =>
    let s := rids.foldl (fun s rid => s.releaseRid info.myPid rid) s
    some { s with
      allProcesses := s.allProcesses.erase info.myPid
      allProcessesEntity := BucketIndex.remove s.allProcessesEntity info.dbOwnerId.siteId
        info.dbOwnerId.entityId p
      heap := Function.update s.heap p none }

def getNextRid (s : ProcessScheduler) (pid : PID) : Option (RID × ProcessScheduler) :=
  if maxRid ≤ s.ridToPid.size then some (0, s)
  else if s.allProcesses[pid]? = none then some (0, s)
  else
    (findFree (fun rid => s.ridToPid.contains rid) maxRid maxRid s.nextRid).map fun found =>
      (found.1, { s with nextRid := found.2, ridToPid := s.ridToPid.insert found.1 pid })

end ProcessScheduler

end Mutgos.Executor
