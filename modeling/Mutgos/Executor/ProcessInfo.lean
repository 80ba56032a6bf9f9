import Mutgos.DbTypes.Id
import Mathlib.Data.Finset.Basic
import Std.Data.TreeMap

/-!
# Process states and the process container

`executor::ProcessInfo` holds everything the scheduler knows about one process:
its state, the two pending flags, when a sleep ends, the messages waiting for it
and the resources it owns.  Every method takes a lock token and only complains
when it is the wrong one; the definitions here are what the methods do with the
right token, each one atomic because the token is held throughout.
-/

namespace Mutgos.Executor

open DbTypes

/-- Globally unique identifier of a process; 0 is no process. -/
abbrev PID := ℕ

/-- Globally unique process resource identifier; 0 is invalid. -/
abbrev RID := ℕ

/-- The address of a `ProcessInfo`. -/
abbrev InfoPtr := ℕ

/-- The address of a `Process`. -/
abbrev ProcessPtr := ℕ

/-- The address of a `ProcessResource`. -/
abbrev ResourcePtr := ℕ

/-- The address of a `ProcessMessage`. -/
abbrev MessagePtr := ℕ

/-- A point of the steady clock, in nanoseconds. -/
abbrev TimePoint := ℕ

inductive ProcessState
  | executing
  | ready
  | waitMessage
  | sleeping
  | suspended
  | blocked
  | scheduling
  | killed
  | completed
  | created
  | endInvalid
  deriving DecidableEq, Repr

inductive ProcessStatus
  | finished
  | sleep
  | waitMessage
  | suspended
  | blocked
  | error
  | executeMore
  deriving DecidableEq, Repr

/-- `executor::ProcessInfo`.  The `process` pointer is never null: `add_process`
refuses a null one. -/
structure ProcessInfo where
  myPid : PID
  /-- `process_ptr` -/
  process : ProcessPtr
  /-- `my_db_executable_id` -/
  dbExecutableId : Id
  /-- `my_db_owner_id` -/
  dbOwnerId : Id
  processState : ProcessState
  pendingKilled : Bool
  pendingSuspended : Bool
  wakeupTime : TimePoint
  /-- `waiting_messages`: the RID that sent a message (or 0) and the message -/
  waitingMessages : List (RID × MessagePtr)
  resources : Std.TreeMap RID ResourcePtr
  defaultBlockedResources : Finset RID
  blockedResources : Finset RID

namespace ProcessInfo

/-- The constructor. -/
def new (pid : PID) (process : ProcessPtr) (executableId ownerId : Id) : ProcessInfo where
  myPid := pid
  process := process
  dbExecutableId := executableId
  dbOwnerId := ownerId
  processState := .created
  pendingKilled := false
  pendingSuspended := false
  wakeupTime := 0
  waitingMessages := []
  resources := ∅
  defaultBlockedResources := ∅
  blockedResources := ∅

/-- `set_sleep_time_offset`: the absolute wakeup time is now plus the offset. -/
def setSleepTimeOffset (info : ProcessInfo) (now : TimePoint) (offsetMs : ℕ) : ProcessInfo :=
  { info with wakeupTime := now + offsetMs * 1000000 }

/-! ### Messages -/

/-- `remove_blocked_resource`: whether nothing is left to wait for, and the
container afterwards. -/
def removeBlockedResource (info : ProcessInfo) (rid : RID) : Bool × ProcessInfo :=
  let blocked := info.blockedResources.erase rid
  (decide (blocked = ∅), { info with blockedResources := blocked })

def blockedResourcesEmpty (info : ProcessInfo) : Bool := decide (info.blockedResources = ∅)

/-- `add_message`.  The answer computed for a RID that is not owned is `false`,
but the branch that holds the lock ends in `return true`. -/
def addMessage (info : ProcessInfo) (message : Option MessagePtr) (rid : RID) :
    Bool × ProcessInfo :=
  match message with
  | none => (true, info)
  | some message =>
    if rid = 0 then
      (true, { info with waitingMessages := info.waitingMessages ++ [(rid, message)] })
    else if rid ∈ info.resources then
      (true, ({ info with
        waitingMessages := info.waitingMessages ++ [(rid, message)] }.removeBlockedResource rid).2)
    else
      (true, info)

/-- `get_next_message` on a queue that is not empty. -/
def getNextMessage (info : ProcessInfo) : Option ((RID × MessagePtr) × ProcessInfo) :=
  match info.waitingMessages with
  | [] => none
  | entry :: rest => some (entry, { info with waitingMessages := rest })

def clearAllMessages (info : ProcessInfo) : ProcessInfo := { info with waitingMessages := [] }

/-! ### Resources -/

def addResource (info : ProcessInfo) (rid : RID) (resource : Option ResourcePtr) :
    Bool × ProcessInfo :=
  match resource with
  | none => (false, info)
  | some resource =>
    if rid = 0 then (false, info)
    else (true, { info with resources := info.resources.insert rid resource })

def addBlockingResource (info : ProcessInfo) (rid : RID) (resource : Option ResourcePtr) :
    Bool × ProcessInfo :=
  match info.addResource rid resource with
  | (true, info) =>
    (true, { info with
      blockedResources := insert rid info.blockedResources
      defaultBlockedResources := insert rid info.defaultBlockedResources })
  | (false, info) => (false, info)

/-- `remove_resource` by RID. -/
def removeResource (info : ProcessInfo) (rid : RID) : Option ResourcePtr × ProcessInfo :=
  match info.resources[rid]? with
  | none => (none, info)
  | some resource =>
    (some resource, { info with
      resources := info.resources.erase rid
      blockedResources := info.blockedResources.erase rid
      defaultBlockedResources := info.defaultBlockedResources.erase rid })

/-- `remove_resource` by pointer: the first RID, in order, that holds the
resource, or 0.  Unlike the removal by RID this one leaves
`default_blocked_resources` alone. -/
def removeResourcePtr (info : ProcessInfo) (resource : ResourcePtr) : RID × ProcessInfo :=
  match info.resources.toList.find? (fun entry => entry.2 == resource) with
  | none => (0, info)
  | some (rid, _) =>
    (rid, { info with
      resources := info.resources.erase rid
      blockedResources := info.blockedResources.erase rid })

def getResourceIds (info : ProcessInfo) : List RID := info.resources.keys

def resetBlockedResources (info : ProcessInfo) : ProcessInfo :=
  { info with blockedResources := info.defaultBlockedResources }

end ProcessInfo

end Mutgos.Executor
