import Mutgos.DbTypes.Applications
import Mutgos.DbTypes.EntityType

/-!
# Entities as they are read

The data of Entities that security checks and moves read and change.  The data of
the subclasses stand next to each other; those of a class the Entity does not have
are never read.

The type of the data of a property is a parameter, since all that is done with it is
to compare it.
-/

namespace Mutgos.DbTypes

open Text

variable {δ : Type}

inductive LockType where
  | invalid | byId | byGroup | byProperty
  deriving DecidableEq

structure Lock (δ : Type) where
  lockType : LockType
  lockId : Option Id
  lockPath : Option ByteString
  lockPathData : Option δ
  operationNot : Bool

/-- The constructor: not locked. -/
def Lock.unlocked : Lock δ := ⟨.invalid, none, none, none, false⟩

/-- `dbtype::Entity` and its subclasses. -/
structure EntityData (δ : Type) where
  /-- `entity_id` -/
  id : Id
  entityType : EntityType
  /-- `entity_owner` -/
  owner : Id
  /-- `entity_security` -/
  security : Security
  /-- `entity_deleted_flag` -/
  deleted : Bool
  /-- `contained_by` of a `ContainerPropertyEntity` -/
  containedBy : Id
  /-- `group_ids` of a `Group` -/
  groupIds : List Id
  /-- `disabled_ids` of a `Group` -/
  disabledIds : List Id
  /-- `application_properties` of a `PropertyEntity` -/
  applications : Applications δ
  /-- `action_contained_by` of an `ActionEntity` -/
  actionContainedBy : Id
  /-- `action_entity_targets` of an `ActionEntity` -/
  actionTargets : List Id
  /-- `action_lock` of an `ActionEntity` -/
  actionLock : Lock δ

namespace EntityData

/-- An Entity of which only the ID and the type are not the defaults. -/
def ofType (id : Id) (type : EntityType) : EntityData δ where
  id := id
  entityType := type
  owner := default
  security := Security.empty
  deleted := false
  containedBy := default
  groupIds := []
  disabledIds := []
  applications := []
  actionContainedBy := default
  actionTargets := []
  actionLock := Lock.unlocked

/-- The Entity as a `ContainerPropertyEntity`, if it is one. -/
def asContainer (e : EntityData δ) : Option (EntityData δ) :=
  if e.entityType.isContainerPropertyEntity then some e else none

/-- `ActionEntity::get_first_action_target` -/
def getFirstActionTarget (e : EntityData δ) : Id := e.actionTargets.headD default

/-- `ContainerPropertyEntity::set_contained_by` -/
def setContainedBy (e : EntityData δ) (container : Id) : EntityData δ :=
  { e with containedBy := container }

/-- `ActionEntity::set_action_contained_by` -/
def setActionContainedBy (e : EntityData δ) (container : Id) : EntityData δ :=
  { e with actionContainedBy := container }

/-- `Group::is_in_group` -/
def isInGroup (group : EntityData δ) (id : Id) : Bool :=
  !id.isDefault && decide (id ∉ group.disabledIds) && decide (id ∈ group.groupIds)

end EntityData

namespace Lock

def lockValid (lock : Lock δ) : Bool := lock.lockType ≠ .invalid

def getId (lock : Lock δ) : Id :=
  if lock.lockType = .byGroup ∨ lock.lockType = .byId then lock.lockId.getD default else default

/-- `evaluate`, for an Entity, where there is one. -/
def evaluate [BEq δ] (lock : Lock δ) (entity : Option (EntityData δ)) : Bool :=
  if !lock.lockValid then true
  else
    match entity with
    | none => false
    | some e =>
      match lock.lockType, lock.lockId, lock.lockPath, lock.lockPathData with
      | .byId, some lockId, _, _ => xor (decide (e.id = lockId)) lock.operationNot
      | .byProperty, _, some path, some data =>
        if e.entityType.isPropertyEntity then
          xor ((e.applications.getProperty path).any (· == data)) lock.operationNot
        else false
      | _, _, _, _ => false

/-- `evaluate`, for an Entity and a Group. -/
def evaluateGroup (lock : Lock δ) (entity : Option (EntityData δ)) (group : EntityData δ) : Bool :=
  if !lock.lockValid then true
  else
    match entity with
    | none => false
    | some e =>
      if lock.lockType = .byGroup then xor (group.isInGroup e.id) lock.operationNot else false

end Lock

end Mutgos.DbTypes
