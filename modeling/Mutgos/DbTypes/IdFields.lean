import Mutgos.DbTypes.SecurityDiff

/-!
# The fields of an Entity that hold IDs

Twelve kinds of fields of an Entity and its subclasses refer to other Entities, and the
Security does.  What changes one of them enters the change in the journal of the IDs and
marks the field as changed; the listeners are called when the lock is released.

The fields differ in how they are journaled.  Six have one ID, which is replaced in the
journal; the container has one too, but is journaled as a removal and an addition.  Four
are sets.  The targets of an action are a vector, which can have an ID more than once.

## Implementation notes

There is one record for all classes: a field that a class does not have is never set.
What the setters return only says that the lock is the right one.
-/

namespace Mutgos.DbTypes

/-- `Entity::IdSet`, in some order. -/
structure IdSet where
  ids : List Id
  nodup : ids.Nodup

namespace IdSet

def empty : IdSet := ⟨[], .nil⟩

def insert (set : IdSet) (id : Id) : IdSet := ⟨set.ids.insert id, set.nodup.insert⟩

def erase (set : IdSet) (id : Id) : IdSet := ⟨set.ids.erase id, set.nodup.erase id⟩

@[simp] theorem ids_insert (set : IdSet) (id : Id) : (set.insert id).ids = set.ids.insert id := rfl

@[simp] theorem ids_erase (set : IdSet) (id : Id) : (set.erase id).ids = set.ids.erase id := rfl

end IdSet

/-- How IDs are kept in a field, and journaled. -/
inductive IdKind
  /-- The field holds no IDs. -/
  | none
  | security
  /-- One ID, and `set_single_id_field`. -/
  | single
  /-- One ID, removed and added. -/
  | contained
  | set
  | targets
  deriving DecidableEq

def EntityField.idKind : EntityField → IdKind
  | .security => .security
  | .owner | .playerHome | .thingHome | .vehicleInterior | .vehicleController
  | .actionContainedBy => .single
  | .containedBy => .contained
  | .linkedPrograms | .groupIds | .groupDisabledIds | .programIncludes => .set
  | .actionTargets => .targets
  | _ => .none

/-- An Entity with the fields that hold IDs.  Its Security is in the Entity. -/
structure IdFields where
  entity : Entity
  entityId : Id
  /-- `entity_owner`, `contained_by`, `player_home`, `thing_home`, `vehicle_interior`,
  `vehicle_controller`, `action_entity_contained_by` -/
  singleId : EntityField → Id
  /-- `linked_programs`, `group_ids`, `disabled_ids`, `program_includes` -/
  idSet : EntityField → IdSet
  actionEntityTargets : List Id

namespace IdFields

variable (s : IdFields)

/-- A new Entity. -/
def new (entityId : Id) (now : TimeStamp) : IdFields where
  entity := .new true now
  entityId := entityId
  singleId _ := default
  idSet _ := .empty
  actionEntityTargets := []

@[simp] theorem entity_new (entityId : Id) (now : TimeStamp) :
    (new entityId now).entity = .new true now := by rw [new]

/-- The IDs in a field. -/
def ids (field : EntityField) : List Id :=
  match field.idKind with
  | .none => []
  | .security => s.entity.entitySecurity.adminIds ++ s.entity.entitySecurity.listIds
  | .single => [s.singleId field]
  | .contained => [s.singleId field]
  | .set => (s.idSet field).ids
  | .targets => s.actionEntityTargets

/-- The Entity and one field. -/
def setSingleId (field : EntityField) (id : Id) (entity : Entity) : IdFields :=
  { s with entity := entity, singleId := Function.update s.singleId field id }

def setIdSet (field : EntityField) (set : IdSet) (entity : Entity) : IdFields :=
  { s with entity := entity, idSet := Function.update s.idSet field set }

def setTargets (targets : List Id) (entity : Entity) : IdFields :=
  { s with entity := entity, actionEntityTargets := targets }

@[simp] theorem singleId_setSingleId (field : EntityField) (id : Id) (e : Entity) :
    (s.setSingleId field id e).singleId = Function.update s.singleId field id := rfl

@[simp] theorem idSet_setIdSet (field : EntityField) (set : IdSet) (e : Entity) :
    (s.setIdSet field set e).idSet = Function.update s.idSet field set := rfl

/-! ### One ID -/

/-- The only ID of a field is replaced. -/
def replaceId (field : EntityField) (id : Id) : IdFields :=
  s.setSingleId field id
    ((s.entity.setSingleIdField field (s.singleId field) id).notifyFieldChanged field)

/-- The same, if it is another one. -/
def replaceOther (field : EntityField) (id : Id) : IdFields :=
  if s.singleId field ≠ id then s.replaceId field id else s

def setEntityOwner (owner : Id) : IdFields := s.replaceOther .owner owner

def setPlayerHome (home : Id) : IdFields := s.replaceOther .playerHome home

def setThingHome (home : Id) : IdFields := s.replaceId .thingHome home

def setVehicleInterior (interior : Id) : IdFields := s.replaceId .vehicleInterior interior

def setVehicleController (controller : Id) : IdFields := s.replaceId .vehicleController controller

def setActionContainedBy (container : Id) : IdFields := s.replaceId .actionContainedBy container

def setContainedBy (id : Id) : IdFields :=
  if s.singleId .containedBy ≠ id then
    let e := (s.entity.removedId .containedBy (s.singleId .containedBy)).notifyFieldChanged
      .containedBy
    s.setSingleId .containedBy id ((e.addedId .containedBy id).notifyFieldChanged .containedBy)
  else s

/-! ### Sets -/

/-- An ID is put in a set. -/
def insertId (field : EntityField) (id : Id) : IdFields :=
  if id ∈ (s.idSet field).ids then s
  else
    s.setIdSet field ((s.idSet field).insert id)
      ((s.entity.addedId field id).notifyFieldChanged field)

/-- An ID is taken out of a set. -/
def eraseId (field : EntityField) (id : Id) : IdFields :=
  if id ∈ (s.idSet field).ids then
    s.setIdSet field ((s.idSet field).erase id)
      ((s.entity.removedId field id).notifyFieldChanged field)
  else s

def addProgram (id : Id) : IdFields := s.insertId .linkedPrograms id

def removeProgram (id : Id) : IdFields := s.eraseId .linkedPrograms id

def addToGroup (idToAdd : Id) : IdFields :=
  if idToAdd ≠ s.entityId ∧ ¬ idToAdd.isDefault then s.insertId .groupIds idToAdd else s

def removeFromGroup (idToRemove : Id) : IdFields :=
  if idToRemove ∈ (s.idSet .groupIds).ids then
    (s.eraseId .groupDisabledIds idToRemove).eraseId .groupIds idToRemove
  else s

def addToDisabledGroup (idToAdd : Id) : IdFields :=
  if idToAdd ∈ (s.idSet .groupIds).ids then s.insertId .groupDisabledIds idToAdd else s

def removeFromDisabledGroup (idToRemove : Id) : IdFields := s.eraseId .groupDisabledIds idToRemove

def setProgramIncludes (includes : IdSet) : IdFields :=
  let e := (s.idSet .programIncludes).ids.foldl (fun e id => e.removedId .programIncludes id)
    s.entity
  let e := includes.ids.foldl (fun e id => e.addedId .programIncludes id) e
  s.setIdSet .programIncludes includes (e.notifyFieldChanged .programIncludes)

def clearIncludedPrograms : IdFields := s.setProgramIncludes .empty

/-! ### Targets of actions -/

def addActionTarget (target : Id) : IdFields :=
  if target ∈ s.actionEntityTargets then s
  else
    s.setTargets (s.actionEntityTargets ++ [target])
      ((s.entity.addedId .actionTargets target).notifyFieldChanged .actionTargets)

/-- `remove_action_target`: the first of them. -/
def removeActionTarget (target : Id) : IdFields :=
  if target ∈ s.actionEntityTargets then
    s.setTargets (s.actionEntityTargets.erase target)
      ((s.entity.removedId .actionTargets target).notifyFieldChanged .actionTargets)
  else s

def clearActionTarget : IdFields :=
  if s.actionEntityTargets = [] then s
  else
    let e := s.actionEntityTargets.foldl (fun e id => e.removedId .actionTargets id) s.entity
    s.setTargets [] (e.notifyFieldChanged .actionTargets)

def setActionTarget (targets : List Id) : IdFields :=
  let s := s.clearActionTarget
  let e := targets.foldl (fun e id => e.addedId .actionTargets id) s.entity
  s.setTargets targets (if targets = [] then e else e.notifyFieldChanged .actionTargets)

/-! ### Security -/

def setEntitySecurity (security : Security) : IdFields :=
  { s with entity := s.entity.setEntitySecurity security }

end IdFields

/-- The calls that change a field.  A Security is one that the calls of its class can
have made. -/
inductive FieldCall
  | setEntityOwner (owner : Id)
  | setEntitySecurity (security : Security) (wellFormed : security.WellFormed)
  | setContainedBy (id : Id)
  | addProgram (id : Id)
  | removeProgram (id : Id)
  | setPlayerHome (home : Id)
  | setThingHome (home : Id)
  | setVehicleInterior (interior : Id)
  | setVehicleController (controller : Id)
  | addToGroup (id : Id)
  | removeFromGroup (id : Id)
  | addToDisabledGroup (id : Id)
  | removeFromDisabledGroup (id : Id)
  | setProgramIncludes (includes : IdSet)
  | clearIncludedPrograms
  | setActionContainedBy (container : Id)
  | addActionTarget (target : Id)
  | removeActionTarget (target : Id)
  | clearActionTarget
  | setActionTarget (targets : List Id)

/-- The IDs that a call is to put in a field. -/
def FieldCall.newIds : FieldCall → List Id
  | setEntityOwner id | setContainedBy id | addProgram id | setPlayerHome id | setThingHome id
  | setVehicleInterior id | setVehicleController id | addToGroup id | addToDisabledGroup id
  | setActionContainedBy id | addActionTarget id => [id]
  | setEntitySecurity security _ => security.adminIds ++ security.listIds
  | setProgramIncludes includes => includes.ids
  | setActionTarget targets => targets
  | removeProgram _ | removeFromGroup _ | removeFromDisabledGroup _ | clearIncludedPrograms
  | removeActionTarget _ | clearActionTarget => []

namespace IdFields

def call (s : IdFields) : FieldCall → IdFields
  | .setEntityOwner owner => s.setEntityOwner owner
  | .setEntitySecurity security _ => s.setEntitySecurity security
  | .setContainedBy id => s.setContainedBy id
  | .addProgram id => s.addProgram id
  | .removeProgram id => s.removeProgram id
  | .setPlayerHome home => s.setPlayerHome home
  | .setThingHome home => s.setThingHome home
  | .setVehicleInterior interior => s.setVehicleInterior interior
  | .setVehicleController controller => s.setVehicleController controller
  | .addToGroup id => s.addToGroup id
  | .removeFromGroup id => s.removeFromGroup id
  | .addToDisabledGroup id => s.addToDisabledGroup id
  | .removeFromDisabledGroup id => s.removeFromDisabledGroup id
  | .setProgramIncludes includes => s.setProgramIncludes includes
  | .clearIncludedPrograms => s.clearIncludedPrograms
  | .setActionContainedBy container => s.setActionContainedBy container
  | .addActionTarget target => s.addActionTarget target
  | .removeActionTarget target => s.removeActionTarget target
  | .clearActionTarget => s.clearActionTarget
  | .setActionTarget targets => s.setActionTarget targets

/-- What is done under one lock, and what the listeners are told when it is released. -/
def underLock (s : IdFields) (change : IdFields → IdFields) (now : TimeStamp) :
    Option EntityChanges × IdFields :=
  let s := change s
  let result := s.entity.notifyDbListener now
  (result.1, { s with entity := result.2 })

end IdFields

end Mutgos.DbTypes
