import Mutgos.DbTypes.EntityField
import Mutgos.DbTypes.EntityType
import Mutgos.Executor.ProcessInfo
import Mutgos.Text.ByteString

/-!
# Events

What has happened, as it is told to those who have subscribed to it: the data of events
that subscriptions ask for.

-/

namespace Mutgos.Events

open DbTypes Text
open Executor (PID ProcessState)

/-- `Event::EventType`, without the marker for its end. -/
inductive EventType where
  | movement | emit | connection | entityChanged | processExecution | site
  deriving DecidableEq, Repr

/-- The event types in order. -/
def EventType.all : List EventType :=
  [movement, emit, connection, entityChanged, processExecution, site]

/-- An Entity has moved. -/
structure MovementEvent where
  /-- `movement_who` -/
  who : Id
  /-- `movement_from` -/
  source : Id
  /-- `movement_to` -/
  destination : Id
  /-- `movement_via_program` -/
  viaProgram : Bool
  /-- `movement_how` -/
  how : Id
  deriving DecidableEq

/-- An Entity has emitted text. -/
structure EmitEvent where
  /-- `emit_source` -/
  source : Id
  /-- `emit_target` -/
  target : Id
  /-- `emit_exclude` -/
  exclude : Id
  deriving DecidableEq

inductive ConnectionAction where
  | connected | disconnected
  deriving DecidableEq

/-- An Entity has connected or disconnected. -/
structure ConnectionEvent where
  /-- `connection_action` -/
  action : ConnectionAction
  /-- `connection_entity_id` -/
  entityId : Id
  /-- `connection_source` -/
  source : ByteString
  deriving DecidableEq

inductive EntityAction where
  | created | updated | deleted
  deriving DecidableEq

/-- An Entity has been created, updated or deleted. -/
structure EntityChangedEvent where
  entityId : Id
  entityType : EntityType
  entityOwner : Id
  entityAction : EntityAction
  /-- `entity_fields_changed` -/
  fieldsChanged : Finset EntityField
  /-- The first half of `entity_flags_changed` -/
  flagsRemoved : Finset ByteString
  /-- The second half of `entity_flags_changed` -/
  flagsAdded : Finset ByteString
  /-- `entity_id_fields_changed`: for each field the IDs removed and added. -/
  idFieldsChanged : List (EntityField × Finset Id × Finset Id)
  deriving DecidableEq

/-- A process has come into another state. -/
structure ProcessExecutionEvent where
  processId : PID
  executableId : Id
  ownerId : Id
  processName : ByteString
  processState : ProcessState
  deriving DecidableEq

inductive SiteAction where
  | create | delete
  deriving DecidableEq

/-- A site has been created or deleted. -/
structure SiteEvent where
  siteAction : SiteAction
  siteId : SiteIdType
  deriving DecidableEq

/-- An event of any type. -/
inductive Event where
  | movement (event : MovementEvent)
  | emit (event : EmitEvent)
  | connection (event : ConnectionEvent)
  | entityChanged (event : EntityChangedEvent)
  | processExecution (event : ProcessExecutionEvent)
  | site (event : SiteEvent)
  deriving DecidableEq

/-- `get_event_type` -/
def Event.eventType : Event → EventType
  | movement _ => .movement
  | emit _ => .emit
  | connection _ => .connection
  | entityChanged _ => .entityChanged
  | processExecution _ => .processExecution
  | site _ => .site

/-- A process that does not come from an Entity. -/
def ProcessExecutionEvent.isNative (event : ProcessExecutionEvent) : Bool :=
  event.executableId.isDefault

end Mutgos.Events
