import Mathlib.Data.Finset.Card
import Mathlib.Data.List.Infix
import Mutgos.Events.Event

/-!
# What is subscribed to

The parameters of subscriptions, what makes them valid, and the events they match.  A
parameter that is empty, or the default, matches everything.

-/

namespace Mutgos.Events

open DbTypes Text
open Executor (PID ProcessState)

inductive SubscriptionType where
  | movement | emit | connection | entityChanged | processExecution | site
  deriving DecidableEq, Repr

/-- There is nothing to be matched, or it is matched. -/
def emptyOr (isEmpty isMatch : Bool) : Bool := isEmpty || isMatch

/-! ### Movements -/

inductive MovementType where
  | program | exit | all
  deriving DecidableEq

structure MovementSubscriptionParams where
  /-- `movement_who` -/
  who : List Id
  /-- `movement_from` -/
  fromIds : List Id
  /-- `movement_to` -/
  toIds : List Id
  /-- `movement_site` -/
  site : SiteIdType
  /-- `movement_type` -/
  type : MovementType
  /-- `movement_how` -/
  how : Id
  deriving DecidableEq

namespace MovementSubscriptionParams

/-- `validate`: a site excludes Entities. -/
def validate (params : MovementSubscriptionParams) : Bool :=
  params.site = 0 || (params.who.isEmpty && params.fromIds.isEmpty && params.toIds.isEmpty)

def isMatch (params : MovementSubscriptionParams) (event : MovementEvent) : Bool :=
  (params.type = .all || params.type = if event.viaProgram then .program else .exit) &&
    (if params.site ≠ 0 then
      event.who.siteId = params.site || event.source.siteId = params.site ||
        event.destination.siteId = params.site
    else
      emptyOr params.who.isEmpty (event.who ∈ params.who) &&
        emptyOr params.fromIds.isEmpty (event.source ∈ params.fromIds) &&
        emptyOr params.toIds.isEmpty (event.destination ∈ params.toIds)) &&
    emptyOr params.how.isDefault (params.how = event.how)

end MovementSubscriptionParams

/-! ### Emits -/

structure EmitSubscriptionParams where
  /-- `emit_source` -/
  source : Id
  /-- `emit_target` -/
  target : Id
  /-- `emit_my_id` -/
  myId : Id
  deriving DecidableEq

namespace EmitSubscriptionParams

/-- `validate`: there has to be a source or a target. -/
def validate (params : EmitSubscriptionParams) : Bool :=
  !params.source.isDefault || !params.target.isDefault

def isMatch (params : EmitSubscriptionParams) (event : EmitEvent) : Bool :=
  emptyOr params.source.isDefault (params.source = event.source) &&
    emptyOr params.target.isDefault (params.target = event.target) &&
    emptyOr (params.myId.isDefault || event.exclude.isDefault) (params.myId ≠ event.exclude)

end EmitSubscriptionParams

/-! ### Connections -/

inductive ConnectionTypeSubscription where
  | connect | disconnect | all
  deriving DecidableEq

structure ConnectionSubscriptionParams where
  /-- `connection_type` -/
  type : ConnectionTypeSubscription
  /-- `connection_entity_ids` -/
  entityIds : List Id
  /-- `connection_site_ids` -/
  siteIds : List SiteIdType
  /-- `connection_sources` -/
  sources : List ByteString
  deriving DecidableEq

namespace ConnectionSubscriptionParams

/-- `validate`: there are not both Entities and sites. -/
def validate (params : ConnectionSubscriptionParams) : Bool :=
  (params.entityIds.isEmpty && params.siteIds.isEmpty) ||
    params.entityIds.isEmpty != params.siteIds.isEmpty

def isMatch (params : ConnectionSubscriptionParams) (event : ConnectionEvent) : Bool :=
  (params.type = .all || params.type =
      match event.action with
      | .connected => .connect
      | .disconnected => .disconnect) &&
    (if params.entityIds ≠ [] then decide (event.entityId ∈ params.entityIds)
    else emptyOr params.siteIds.isEmpty (event.entityId.siteId ∈ params.siteIds)) &&
    emptyOr params.sources.isEmpty (params.sources.any fun source => source <:+: event.source)

end ConnectionSubscriptionParams

/-! ### Changes of Entities -/

structure EntityChangedSubscriptionParams where
  /-- `entity_actions` -/
  actions : List EntityAction
  entityIds : List Id
  /-- `entity_ids_owners` -/
  entitiesAreOwners : Bool
  /-- `entity_site_id` -/
  siteId : SiteIdType
  /-- `entity_types` -/
  types : List EntityType
  /-- `entity_fields` -/
  fields : Finset EntityField
  /-- `entity_flags_added` -/
  flagsAdded : Finset ByteString
  /-- `entity_flags_removed` -/
  flagsRemoved : Finset ByteString
  /-- `entity_field_ids_added` -/
  fieldIdsAdded : List Id
  /-- `entity_field_ids_removed` -/
  fieldIdsRemoved : List Id
  deriving DecidableEq

namespace EntityChangedSubscriptionParams

/-- `validate`: there are not both Entities and a site. -/
def validate (params : EntityChangedSubscriptionParams) : Bool :=
  (params.entityIds.isEmpty && params.siteId = 0) ||
    params.entityIds.isEmpty != decide (params.siteId = 0)

/-- The loop over the smaller of two sets, for something that is in both. -/
def meetsFields (fields eventFields : Finset EntityField) : Bool :=
  if fields.card ≤ eventFields.card then decide (∃ field ∈ fields, field ∈ eventFields)
  else decide (∃ field ∈ eventFields, field ∈ fields)

def isMatch (params : EntityChangedSubscriptionParams) (event : EntityChangedEvent) : Bool :=
  emptyOr params.actions.isEmpty (event.entityAction ∈ params.actions) &&
    (if params.entityIds ≠ [] then
      if params.entitiesAreOwners then decide (event.entityOwner ∈ params.entityIds)
      else decide (event.entityId ∈ params.entityIds)
    else emptyOr (params.siteId = 0) (params.siteId = event.entityId.siteId)) &&
    emptyOr params.types.isEmpty (event.entityType ∈ params.types) &&
    emptyOr (params.fields = ∅) (meetsFields params.fields event.fieldsChanged) &&
    emptyOr (params.flagsAdded = ∅) (∃ flag ∈ event.flagsAdded, flag ∈ params.flagsAdded) &&
    emptyOr (params.flagsRemoved = ∅) (∃ flag ∈ event.flagsRemoved, flag ∈ params.flagsRemoved) &&
    emptyOr params.fieldIdsAdded.isEmpty
      (event.idFieldsChanged.any fun change => ∃ id ∈ change.2.2, id ∈ params.fieldIdsAdded) &&
    emptyOr params.fieldIdsRemoved.isEmpty
      (event.idFieldsChanged.any fun change => ∃ id ∈ change.2.1, id ∈ params.fieldIdsRemoved)

end EntityChangedSubscriptionParams

/-! ### Executions of processes -/

inductive ProcessTypeSubscription where
  | nativeOnly | interpretedOnly | nativeAndInterpreted
  deriving DecidableEq

def processTypeSubscriptionMatch (nativeProcess : Bool) : ProcessTypeSubscription → Bool
  | .nativeAndInterpreted => true
  | .nativeOnly => nativeProcess
  | .interpretedOnly => !nativeProcess

structure ProcessExecutionSubscriptionParams where
  processId : PID
  executableId : Id
  processType : ProcessTypeSubscription
  ownerId : Id
  processName : ByteString
  processStates : List ProcessState
  deriving DecidableEq

namespace ProcessExecutionSubscriptionParams

/-- `validate`: an executable means an interpreted process, and an ID without a site is
the default. -/
def validate (params : ProcessExecutionSubscriptionParams) : Bool :=
  (params.processType = .interpretedOnly || params.executableId.isDefault) &&
    (!params.executableId.isSiteDefault || params.executableId.isEntityDefault) &&
    (!params.ownerId.isSiteDefault || params.ownerId.isEntityDefault)

/-- An ID without an Entity stands for its site. -/
def idMatch (wanted id : Id) : Bool :=
  if wanted.isEntityDefault then id.siteId = wanted.siteId else id = wanted

def isMatch (params : ProcessExecutionSubscriptionParams) (event : ProcessExecutionEvent) : Bool :=
  processTypeSubscriptionMatch event.isNative params.processType &&
    emptyOr (params.processId = 0) (event.processId = params.processId) &&
    emptyOr params.executableId.isDefault (idMatch params.executableId event.executableId) &&
    emptyOr params.ownerId.isDefault (idMatch params.ownerId event.ownerId) &&
    emptyOr params.processName.isEmpty (event.processName = params.processName) &&
    emptyOr params.processStates.isEmpty (event.processState ∈ params.processStates)

end ProcessExecutionSubscriptionParams

/-! ### Subscriptions of any type -/

/-- `SubscriptionParams` and the classes below it. -/
inductive SubscriptionParams where
  | movement (params : MovementSubscriptionParams)
  | emit (params : EmitSubscriptionParams)
  | connection (params : ConnectionSubscriptionParams)
  | entityChanged (params : EntityChangedSubscriptionParams)
  | processExecution (params : ProcessExecutionSubscriptionParams)
  | site
  deriving DecidableEq

namespace SubscriptionParams

def getType : SubscriptionParams → SubscriptionType
  | movement _ => .movement
  | emit _ => .emit
  | connection _ => .connection
  | entityChanged _ => .entityChanged
  | processExecution _ => .processExecution
  | site => .site

def validate : SubscriptionParams → Bool
  | movement params => params.validate
  | emit params => params.validate
  | connection params => params.validate
  | entityChanged params => params.validate
  | processExecution params => params.validate
  | site => true

/-- `is_match`, for an event of the type of the subscription.  There is no other, since
events and subscriptions come together in a processor. -/
def isMatch : SubscriptionParams → Event → Bool
  | movement params, .movement event => params.isMatch event
  | emit params, .emit event => params.isMatch event
  | connection params, .connection event => params.isMatch event
  | entityChanged params, .entityChanged event => params.isMatch event
  | processExecution params, .processExecution event => params.isMatch event
  | site, .site _ => true
  | _, _ => false

end SubscriptionParams

end Mutgos.Events
