import Mutgos.DbInterface.ReferenceSystem

/-!
# Deleting Entities

`DatabaseAccess::delete_entity`, which any thread may call, and the part of
`UpdateManager::process_db_commits` that commits and removes Entities.  The first finds
everything an Entity contains, gives it the deleted flag, and puts it where the second will
come upon it.

An Entity is in the database, and in memory as well when somebody has asked for it.  What
a table of references has in it is left to other threads, and so is whether an Entity is in
use when it is to be removed; what becomes of the fields of others while the references to
an Entity are taken away is in `ReferenceSystem`.

## Implementation notes

A reference that is null when it is used is only noted; the server does not go on from
there.  That SQLite does not answer is a flag of the steps that ask it.
-/

namespace Mutgos.DbInterface

open DbTypes Function

/-- A thread that calls `delete_entity`. -/
abbrev Caller := ℕ

/-- What is asked of an Entity in memory. -/
structure LoadedEntity where
  /-- `entity_deleted_flag` -/
  deletedFlag : Bool
  /-- `dirty_flag` -/
  dirty : Bool
  deriving DecidableEq, Repr

/-- Where a call of `delete_entity` is. -/
inductive DeleteCall where
  /-- In `get_entities_contained_by`, with `deletes_to_process`. -/
  | searching (todo : List Id) (entities : Finset Id)
  /-- In the loop over what has been found. -/
  | marking (todo entities : Finset Id)
  deriving DecidableEq

namespace DeleteCall

/-- The Entities whose deletion the call is about to ask for. -/
def entities : DeleteCall → Finset Id
  | searching _ _ => ∅
  | marking _ entities => entities

/-- How many steps the call has before it. -/
def remaining : DeleteCall → ℕ
  | searching _ _ => 0
  | marking todo _ => todo.card + 1

end DeleteCall

/-- Where the update thread is in `process_db_commits`, with its copies. -/
inductive CommitPhase where
  | idle
  /-- Between two Entities. -/
  | committing (updates : List Id) (deletes : Finset Id)
  /-- About to call `internal_commit_entity`. -/
  | saving (id : Id) (updates : List Id) (deletes : Finset Id)
  /-- `deleted_entity_ref` has been set, and `remove_all_references` is done. -/
  | clearing (id : Id) (valid : Bool) (deletes : Finset Id)
  /-- `deleted_entity_ref` has been cleared. -/
  | erasing (id : Id) (deletes : Finset Id)
  /-- About to call `delete_entity_cache`. -/
  | deletingCache (id : Id) (deletes : Finset Id)
  /-- About to call `delete_entity_db`. -/
  | deletingRow (id : Id) (deletes : Finset Id)
  /-- The Entity has been found in use. -/
  | reinserting (id : Id) (deletes : Finset Id)
  deriving DecidableEq

namespace CommitPhase

/-- The Entity that is being removed. -/
def current? : CommitPhase → Option Id
  | clearing id _ _ | erasing id _ | deletingCache id _ | deletingRow id _ | reinserting id _ =>
    some id
  | _ => none

/-- The Entities that are still to be removed. -/
def rest : CommitPhase → Finset Id
  | idle => ∅
  | committing _ deletes | saving _ _ deletes | clearing _ _ deletes | erasing _ deletes
  | deletingCache _ deletes | deletingRow _ deletes | reinserting _ deletes => deletes

/-- The Entity whose row is about to be deleted. -/
def row? : CommitPhase → Option Id
  | deletingRow id _ => some id
  | _ => none

/-- At most how many steps the loops have before them. -/
def remaining : CommitPhase → ℕ
  | idle => 0
  | committing updates deletes => 2 * updates.length + 6 * deletes.card + 1
  | saving _ updates deletes => 2 * updates.length + 6 * deletes.card + 2
  | clearing _ _ deletes => 6 * deletes.card + 6
  | erasing _ deletes => 6 * deletes.card + 5
  | deletingCache _ deletes => 6 * deletes.card + 4
  | deletingRow _ deletes => 6 * deletes.card + 3
  | reinserting _ deletes => 6 * deletes.card + 2

end CommitPhase

/-- The Entities, those who delete them, and the update thread. -/
structure DeleteSystem where
  /-- The Entities in the database, with the deleted flag that was saved. -/
  rows : Id → Option Bool
  /-- The Entities in memory. -/
  memory : Id → Option LoadedEntity
  /-- `entity_references` -/
  references : Id → EntityReferences
  manager : UpdateManager
  calls : Caller → Option DeleteCall
  phase : CommitPhase
  /-- The Entities that have been given the deleted flag. -/
  marked : Finset Id
  /-- Whether a reference has been used that was null. -/
  nullDereferenced : Bool

/-- What can happen. -/
inductive DeleteStep where
  /-- A call of `delete_entity` begins. -/
  | deleteEntity (t : Caller) (id : Id)
  /-- `get_entities_contained_by`, one turn of the loop. -/
  | searchNext (t : Caller) (readable : Bool)
  /-- `get_entities_contained_by` ends. -/
  | searchDone (t : Caller)
  /-- `set_deleted_flag` for one Entity that has been found. -/
  | setDeletedFlag (t : Caller) (id : Id) (readable : Bool)
  | entitiesDeleted (t : Caller)
  /-- `process_immediate_updates`, but for the tables of references. -/
  | processImmediate
  /-- `process_db_commits` takes what is pending. -/
  | takePending
  /-- `get_entity` of an Entity that has changed. -/
  | getUpdated (readable : Bool)
  /-- `internal_commit_entity` -/
  | commitEntity (saved : Bool)
  /-- `get_entity_deleted` of an Entity that is to be removed, and
  `remove_all_references`. -/
  | getDeleted (id : Id) (readable : Bool)
  | clearDirty
  /-- `pending_updates.erase` -/
  | eraseUpdate
  /-- `delete_entity_cache`, the Entity being in use or not. -/
  | deleteCache (inUse : Bool)
  /-- `delete_entity_db` -/
  | deleteRow (deleted : Bool)
  /-- The Entity goes back into `pending_deletes`. -/
  | reinsert
  /-- The loops are done. -/
  | finish
  | newEntity (id : Id)
  /-- Somebody else gets an Entity. -/
  | load (id : Id) (readable : Bool)
  /-- Somebody else changes an Entity. -/
  | change (id : Id) (changes : EntityChanges)
  /-- A table of references changes. -/
  | setReferences (id : Id) (references : EntityReferences)

namespace DeleteStep

/-- The step is one of the update thread, on what it has taken. -/
def commits : DeleteStep → Bool
  | getUpdated _ | commitEntity _ | getDeleted _ _ | clearDirty | eraseUpdate | deleteCache _
  | deleteRow _ | reinsert | finish => true
  | _ => false

/-- The step is one of a call, on what it has found. -/
def marks (t : Caller) : DeleteStep → Bool
  | setDeletedFlag t' _ _ | entitiesDeleted t' => t' = t
  | _ => false

end DeleteStep

namespace DeleteSystem

def init : DeleteSystem where
  rows _ := none
  memory _ := none
  references _ := []
  manager := .new
  calls _ := none
  phase := .idle
  marked := ∅
  nullDereferenced := false

variable (s : DeleteSystem)

/-- `valid`, of a reference that has just been asked for. -/
def isLoaded (id : Id) : Bool := (s.memory id).isSome

/-- An Entity changes, and the manager is told. -/
def changeEntity (id : Id) (change : LoadedEntity → LoadedEntity) (changes : EntityChanges) :
    DeleteSystem :=
  { s with
    memory := update s.memory id ((s.memory id).map change)
    manager := s.manager.entityChanged id changes }

/-- `set_entity_accessed_timestamp`, of an Entity that has just been read. -/
def setAccessedTimestamp (id : Id) : DeleteSystem :=
  s.changeEntity id (fun entity => { entity with dirty := true })
    ⟨{.accessedTimestamp, .accessCount}, .empty, fun _ => none⟩

def getEntityDeleted (id : Id) (readable : Bool) : DeleteSystem :=
  match s.memory id, s.rows id with
  | none, some deletedFlag =>
    if readable && !id.isDefault then
      setAccessedTimestamp
        { s with memory := update s.memory id (some ⟨deletedFlag, false⟩) } id
    else s
  | _, _ => s

def setDeletedFlag (id : Id) : DeleteSystem :=
  let s := s.changeEntity id (fun _ => ⟨true, true⟩)
    ⟨{.deletedFlag, .updatedTimestamp}, .empty, fun _ => none⟩
  { s with marked := insert id s.marked }

/-- `delete_entity`, for one Entity that has been found. -/
def markEntity (id : Id) (readable : Bool) : DeleteSystem :=
  let s := s.getEntityDeleted id readable
  -- `get_entity` leaves out what has the flag already
  if (s.memory id).any (!·.deletedFlag) then s.setDeletedFlag id else s

/-- What `get_reference_ids` gives for the two fields. -/
def contents (id : Id) : List Id :=
  ((s.references id).filter (·.2 = .containedBy)).map Prod.fst ++
    ((s.references id).filter (·.2 = .actionContainedBy)).map Prod.fst

/-- `remove_reference_from_source`, for one entry of the table of references.  Where the
source is not there, what is logged asks it for its ID. -/
def removeReferenceFromSource (readable : Bool) (s : DeleteSystem) (reference : Id × EntityField) :
    DeleteSystem :=
  let s := s.getEntityDeleted reference.1 readable
  if s.isLoaded reference.1 then s else { s with nullDereferenced := true }

/-- `internal_commit_entity` -/
def commitEntity (id : Id) : DeleteSystem :=
  match s.memory id with
  | none => s
  | some entity =>
    { s with
      rows := update s.rows id ((s.rows id).map fun _ => entity.deletedFlag)
      memory := update s.memory id (some { entity with dirty := false }) }

/-- What a call of `delete_entity` does, where it is. -/
def callStep (t : Caller) : DeleteCall → DeleteStep → Option DeleteSystem
  | .searching (id :: todo) entities, .searchNext _ readable =>
    if id ∈ entities then
      some { s with calls := update s.calls t (some (.searching todo entities)) }
    else
      let s := s.getEntityDeleted id readable
      let call : DeleteCall :=
        if s.isLoaded id then .searching (todo ++ s.contents id) (insert id entities)
        else .searching todo entities
      some { s with calls := update s.calls t (some call) }
  | .searching [] entities, .searchDone _ =>
    some { s with calls := update s.calls t (some (.marking entities entities)) }
  | .marking todo entities, .setDeletedFlag _ id readable =>
    -- The order of the Entities does not matter.
    if id ∈ todo then
      some { s.markEntity id readable with
        calls := update s.calls t (some (.marking (todo.erase id) entities)) }
    else none
  | .marking todo entities, .entitiesDeleted _ =>
    if todo = ∅ then
      some { s with
        manager := s.manager.entitiesDeleted entities
        calls := update s.calls t none }
    else none
  | _, _ => none

/-- What the update thread does, where it is. -/
def commitStep : CommitPhase → DeleteStep → Option DeleteSystem
  | .idle, .processImmediate =>
    some { s with
      manager := (s.manager.immediateUpdateQueue.map EntityUpdate.clearIds).foldl
        UpdateManager.addPending { s.manager with immediateUpdateQueue := [] } }
  | .idle, .takePending =>
    some { s with
      manager := { s.manager with
        pendingUpdates := []
        pendingDeletes := ∅
        pendingSiteDeletes := [] }
      phase := .committing (s.manager.pendingUpdates.map Prod.fst) s.manager.pendingDeletes }
  | .committing (id :: updates) deletes, .getUpdated readable =>
    let s := s.getEntityDeleted id readable
    -- `get_entity` leaves out what is being deleted
    if (s.memory id).any (!·.deletedFlag) then
      some { s with phase := .saving id updates deletes }
    else some { s with phase := .committing updates deletes }
  | .saving id updates deletes, .commitEntity saved =>
    some { (if saved then s.commitEntity id else s) with phase := .committing updates deletes }
  | .committing [] deletes, .getDeleted id readable =>
    if id ∈ deletes then
      let s := s.getEntityDeleted id readable
      if s.isLoaded id then
        some { (s.references id).foldl (removeReferenceFromSource readable) s with
          phase := .clearing id true (deletes.erase id) }
      else some { s with phase := .clearing id false (deletes.erase id) }
    else none
  | .clearing id valid deletes, .clearDirty =>
    -- this is done whether the reference is valid or not
    some { s with
      memory := update s.memory id ((s.memory id).map fun x => { x with dirty := false })
      phase := .erasing id deletes
      nullDereferenced := s.nullDereferenced || !valid }
  | .erasing id deletes, .eraseUpdate =>
    some { s with
      manager := { s.manager with
        pendingUpdates := SortedMap.erase id s.manager.pendingUpdates }
      phase := .deletingCache id deletes }
  | .deletingCache id deletes, .deleteCache inUse =>
    if (s.memory id).any fun entity => inUse || entity.dirty then
      some { s with phase := .reinserting id deletes }
    else
      some { s with
        memory := update s.memory id none
        phase := .deletingRow id deletes }
  | .deletingRow id deletes, .deleteRow deleted =>
    -- the Entity may have been read again; that the row stays is not noticed
    if s.isLoaded id then some { s with phase := .reinserting id deletes }
    else
      some { s with
        rows := if deleted then update s.rows id none else s.rows
        phase := .committing [] deletes }
  | .reinserting id deletes, .reinsert =>
    some { s with
      manager := { s.manager with pendingDeletes := insert id s.manager.pendingDeletes }
      phase := .committing [] deletes }
  | .committing [] deletes, .finish =>
    if deletes = ∅ then some { s with phase := .idle } else none
  | _, _ => none

/-- One step. -/
def step (s : DeleteSystem) : DeleteStep → Option DeleteSystem
  | .deleteEntity t id =>
    if (s.calls t).isSome then none
    else if id.isDefault || id ∈ s.manager.pendingDeletes then some s
    else some { s with calls := update s.calls t (some (.searching [id] ∅)) }
  | .searchNext t readable => (s.calls t).bind fun call => s.callStep t call (.searchNext t readable)
  | .searchDone t => (s.calls t).bind fun call => s.callStep t call (.searchDone t)
  | .setDeletedFlag t id readable =>
    (s.calls t).bind fun call => s.callStep t call (.setDeletedFlag t id readable)
  | .entitiesDeleted t => (s.calls t).bind fun call => s.callStep t call (.entitiesDeleted t)
  | .newEntity id =>
    if id.isDefault || (s.rows id).isSome then none
    else
      some { s with
        rows := update s.rows id (some false)
        memory := update s.memory id (some ⟨false, true⟩)
        references := update s.references id []
        marked := s.marked.erase id }
  | .load id readable => some (s.getEntityDeleted id readable)
  | .change id changes =>
    if s.isLoaded id then
      some (s.changeEntity id (fun entity => { entity with dirty := true }) changes)
    else none
  | .setReferences id references =>
    some { s with references := update s.references id references }
  | label => s.commitStep s.phase label

end DeleteSystem

end Mutgos.DbInterface
