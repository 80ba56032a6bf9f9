import Mutgos.DbInterface.UpdateEffects
import Mutgos.DbTypes.IdSections

/-!
# References between Entities

Every Entity keeps an index of the fields of other Entities that refer to it.  A change
of a field reaches the index through the queue of the update manager.  Before an Entity
is deleted, its own references are taken out of the indexes of the others, and then
every field that its index lists is emptied.

## Implementation notes

What `remove_all_references` reads of the fields of the Entity, it reads at once.  What it
changes, it changes one reference at a time, and other threads can come in between.
Changes that have no IDs, such as that of an index itself, are told to the manager on
their own.
-/

namespace Mutgos.DbInterface

open DbTypes

/-- All fields, in order. -/
def EntityField.all : List EntityField := (List.range 48).map EntityField.ofNat

/-- `entity_references`: the Entities that refer to one, and the fields in which they
do. -/
abbrev EntityReferences := List (Id × EntityField)

def addEntityReference (references : EntityReferences) (id : Id) (field : EntityField) :
    EntityReferences :=
  references.insert (id, field)

def removeEntityReference (references : EntityReferences) (id : Id) (field : EntityField) :
    EntityReferences :=
  references.filter (· ≠ (id, field))

/-- `process_id_references`, for one field, as one Entity sees it. -/
def processField (id : Id) (changedFields : ChangedIdFieldsMap) (target : Id)
    (references : EntityReferences) (field : EntityField) : EntityReferences :=
  match changedFields field with
  | none => references
  | some journal =>
    let references :=
      if target ∈ journal.removed then removeEntityReference references id field else references
    if target ∈ journal.added then addEntityReference references id field else references

/-- `process_id_references`.  Entities that are not there are left out. -/
def processIdReferences (entities : Finset Id) (id : Id) (changedFields : ChangedIdFieldsMap)
    (references : Id → EntityReferences) : Id → EntityReferences := fun target =>
  if target ∈ entities then
    EntityField.all.foldl (processField id changedFields target) (references target)
  else references target

/-- The fields that `remove_all_references` looks at. -/
def ownFields : List EntityField :=
  [.owner, .security, .containedBy, .linkedPrograms, .playerHome, .thingHome, .vehicleInterior,
    .vehicleController, .groupIds, .programIncludes, .actionContainedBy, .actionTargets]

/-- The references that it finds there. -/
def ownReferences (fields : IdFields) : List (Id × EntityField) :=
  ownFields.flatMap fun field => (fields.ids field).map fun target => (target, field)

def removeReferenceFromSource (target : Id) (field : EntityField) (source : IdFields) : IdFields :=
  match field with
  | .containedBy => source.setContainedBy default
  | .actionContainedBy => source.setActionContainedBy default
  | .playerHome => source.setPlayerHome default
  | .thingHome => source.setThingHome default
  | .programIncludes => source.clearIncludedPrograms
  | .actionTargets => source.removeActionTarget target
  | .groupIds => source.removeFromGroup target
  | .vehicleController => source.setVehicleController default
  | .vehicleInterior => source.setVehicleInterior default
  | .linkedPrograms => source.removeProgram target
  | .security =>
    source.setEntitySecurity
      ((source.entity.entitySecurity.removeFromList target).2.removeAdmin target).2
  | .owner => source.setEntityOwner default
  -- The field is only logged.
  | _ => source

/-- Where the thread is in `remove_all_references`. -/
inductive RemovalPhase
  | idle
  /-- Taking the references of the Entity out of the indexes of others. -/
  | leaving (entityId : Id) (todo : List (Id × EntityField))
  /-- Breaking the references of others to the Entity. -/
  | breaking (entityId : Id) (todo : List (Id × EntityField))

/-- The Entities with their fields and indexes, and the update manager. -/
structure ReferenceSystem where
  updates : UpdateSystem
  /-- The Entities that are in the database. -/
  entities : Finset Id
  fields : Id → IdFields
  /-- `entity_references` -/
  references : Id → EntityReferences
  removal : RemovalPhase
  /-- The Entities that have been removed from the database, until their IDs are given
  out again. -/
  removed : Finset Id

/-- What can happen. -/
inductive ReferenceStep
  /-- A new Entity. -/
  | newEntity (entityId : Id) (now : TimeStamp)
  /-- Fields of an Entity are changed under one lock. -/
  | change (entityId : Id) (calls : List FieldCall) (now : TimeStamp)
  /-- A step of the manager, or of another thread, that has nothing to do with
  references. -/
  | update (label : UpdateStep)
  /-- `process_id_references`, for one update. -/
  | processIdReferences
  /-- `remove_all_references` begins for an Entity. -/
  | getEntityDeleted (entityId : Id)
  | removeReference
  | getAllReferences
  | removeReferenceFromSource (now : TimeStamp)
  /-- The section before the deletion. -/
  | eraseUpdate
  /-- `internal_delete_entity`, the Entity being in use or not. -/
  | deleteEntity (inUse : Bool)

namespace ReferenceSystem

variable (s : ReferenceSystem)

def init : ReferenceSystem where
  updates := .init
  entities := ∅
  fields id := .new id 0
  references _ := []
  removal := .idle
  removed := ∅

/-- The fields of an Entity are changed, and the manager is told. -/
def applyChange (entityId : Id) (change : IdFields → IdFields) (now : TimeStamp) :
    Option ReferenceSystem :=
  let result := (s.fields entityId).underLock change now
  let s := { s with fields := Function.update s.fields entityId result.2 }
  match result.1 with
  | none => some s
  | some changes =>
    (s.updates.step (.entityChanged entityId changes)).map fun updates =>
      { s with updates := updates }

/-- The steps that have nothing to do with references.  The thread makes none of its own
while it is in `remove_all_references`. -/
def isOther : UpdateStep → RemovalPhase → Bool
  | .entityChanged _ changes, _ => ChangedIdFieldsMap.isEmpty changes.ids
  | .setDeletedFlag _, _ | .entitiesDeleted _, _ | .shutdown, _ => true
  | .takeImmediate, .idle | .mergeImmediate, .idle | .skipCommits, .idle | .takePending, .idle
  | .commitEntity, .idle | .finishCommits, .idle | .exitTest, .idle => true
  | _, _ => false

def step : ReferenceStep → Option ReferenceSystem
  | .newEntity entityId now =>
    if entityId ∈ s.entities ∨ entityId.isDefault then none
    else
      (s.updates.step (.newEntity entityId)).map fun updates =>
        { s with
          updates := updates
          entities := insert entityId s.entities
          fields := Function.update s.fields entityId (.new entityId now)
          references := Function.update s.references entityId []
          removed := s.removed.erase entityId }
  | .change entityId calls now =>
    if entityId ∈ s.entities then
      s.applyChange entityId (fun fields => calls.foldl IdFields.call fields) now
    else none
  | .update label =>
    if isOther label s.removal then
      (s.updates.step label).map fun updates => { s with updates := updates }
    else none
  | .processIdReferences =>
    match s.removal, s.updates.phase with
    | .idle, .applying _ (update :: _) =>
      (s.updates.step .processIdReferences).map fun updates =>
        { s with
          updates := updates
          references :=
            DbInterface.processIdReferences s.entities update.entityId update.idsChanged s.references }
    | _, _ => none
  | .getEntityDeleted entityId =>
    match s.removal, s.updates.phase with
    | .idle, .committing [] deletes _ =>
      if entityId ∈ deletes ∧ entityId ∈ s.entities then
        some { s with removal := .leaving entityId (ownReferences (s.fields entityId)) }
      else none
    | _, _ => none
  | .removeReference =>
    match s.removal with
    | .leaving entityId ((target, field) :: todo) =>
      some { s with
        removal := .leaving entityId todo
        references :=
          if ¬ target.isDefault ∧ target ∈ s.entities then
            Function.update s.references target
              (removeEntityReference (s.references target) entityId field)
          else s.references }
    | _ => none
  | .getAllReferences =>
    match s.removal with
    | .leaving entityId [] =>
      some { s with removal := .breaking entityId (s.references entityId) }
    | _ => none
  | .removeReferenceFromSource now =>
    match s.removal with
    | .breaking entityId ((source, field) :: todo) =>
      let s := { s with removal := .breaking entityId todo }
      if source ∈ s.entities then
        s.applyChange source (DbInterface.removeReferenceFromSource entityId field) now
      else some s
    | _ => none
  | .eraseUpdate =>
    match s.removal with
    | .breaking entityId [] =>
      (s.updates.step (.eraseUpdate entityId)).map fun updates =>
        { s with updates := updates, removal := .idle }
    | _ => none
  | .deleteEntity inUse =>
    match s.removal, s.updates.phase with
    | .idle, .deleting entityId _ _ =>
      (s.updates.step (.deleteEntity inUse)).map fun updates =>
        if inUse then { s with updates := updates }
        else
          { s with
            updates := updates
            entities := s.entities.erase entityId
            references := Function.update s.references entityId []
            removed := insert entityId s.removed }
    | _, _ => none

end ReferenceSystem

end Mutgos.DbInterface
