import Mutgos.DbTypes.Entity
import Mutgos.Lib.SortedMap
import Mutgos.Lib.TransitionSystem
import Mathlib.Data.Fintype.Pi

/-!
# The update manager

`dbinterface::UpdateManager`, between the Entities, which tell it what has changed, and
the database.  A change of references goes through a queue first, so that the Entities
that are referenced can be told; then it is pending, merged with what is pending for
that Entity already, until the Entity is written to the database.

A thread of its own does all of this.  What it takes from the manager it takes under the
mutex and at once, and goes through it without the mutex.

## Implementation notes

A run ends with the thread.  Whatever another thread calls may come between any two
steps of the thread; what the thread itself changes when it removes the references to an
Entity is told to the manager like any other change.
-/

namespace Mutgos.DbInterface

open DbTypes

instance : Fintype EntityField where
  elems := ((List.range 48).map EntityField.ofNat).toFinset
  complete field := by cases field <;> decide

/-- `Entity::ChangedIdFieldsMap` -/
abbrev ChangedIdFieldsMap := EntityField → Option (SetJournal Id)

/-- `ids_changed.empty()` -/
def ChangedIdFieldsMap.isEmpty (ids : ChangedIdFieldsMap) : Bool := decide (∀ field, ids field = none)

/-- The union of the sets. -/
def mergeJournal {α : Type} [DecidableEq α] (journal other : SetJournal α) : SetJournal α :=
  ⟨journal.removed ∪ other.removed, journal.added ∪ other.added⟩

structure EntityUpdate where
  entityId : Id
  fieldsChanged : Finset EntityField
  flagsChanged : SetJournal FlagType
  idsChanged : ChangedIdFieldsMap

namespace EntityUpdate

/-- A new update, with the arguments of `entity_changed`. -/
def new (entityId : Id) (changes : EntityChanges) : EntityUpdate :=
  ⟨entityId, changes.fields, changes.flags, changes.ids⟩

def mergeUpdate (update : EntityUpdate) (fields : Finset EntityField) (flags : SetJournal FlagType)
    (ids : ChangedIdFieldsMap) : EntityUpdate :=
  { update with
    fieldsChanged := update.fieldsChanged ∪ fields
    flagsChanged := mergeJournal update.flagsChanged flags
    idsChanged := fun field =>
      match ids field with
      | none => update.idsChanged field
      | some journal => some (mergeJournal ((update.idsChanged field).getD .empty) journal) }

/-- `ids_changed.clear()` -/
def clearIds (update : EntityUpdate) : EntityUpdate := { update with idsChanged := fun _ => none }

end EntityUpdate

/-- The members of `UpdateManager` that the mutex is for, and the flag that ends the
thread. -/
structure UpdateManager where
  immediateUpdateQueue : List EntityUpdate
  /-- `PendingUpdatesMap` -/
  pendingUpdates : List (Id × EntityUpdate)
  pendingDeletes : Finset Id
  pendingSiteDeletes : List SiteIdType
  shutdownThreadFlag : Bool

namespace UpdateManager

variable (manager : UpdateManager)

def new : UpdateManager := ⟨[], [], ∅, [], false⟩

/-- An update is pending, merged with one that is already. -/
def addPending (update : EntityUpdate) : UpdateManager :=
  { manager with
    pendingUpdates := SortedMap.insert update.entityId
      (match SortedMap.find update.entityId manager.pendingUpdates with
      | none => update
      | some existing =>
        existing.mergeUpdate update.fieldsChanged update.flagsChanged update.idsChanged)
      manager.pendingUpdates }

def entityChanged (entityId : Id) (changes : EntityChanges) : UpdateManager :=
  let update := EntityUpdate.new entityId changes
  if ChangedIdFieldsMap.isEmpty changes.ids then manager.addPending update
  else { manager with immediateUpdateQueue := manager.immediateUpdateQueue ++ [update] }

def entitiesDeleted (entities : Finset Id) : UpdateManager :=
  { manager with pendingDeletes := manager.pendingDeletes ∪ entities }

def siteDeleted (siteId : SiteIdType) : UpdateManager :=
  { manager with pendingSiteDeletes := manager.pendingSiteDeletes ++ [siteId] }

/-- The test for the end of the thread.  Deletes of sites are not asked for. -/
def doShutdown : Bool :=
  manager.pendingUpdates.isEmpty && decide (manager.pendingDeletes = ∅) &&
    manager.immediateUpdateQueue.isEmpty && manager.shutdownThreadFlag

end UpdateManager

/-- Where the thread is, with the copies it has taken. -/
inductive ThreadPhase
  /-- At the semaphore. -/
  | waiting
  /-- In `process_immediate_updates`, with the updates that are done and those that are
  not. -/
  | applying (done todo : List EntityUpdate)
  /-- Whether it is time for `process_db_commits` is next. -/
  | timing
  /-- In `process_db_commits`. -/
  | committing (updates : List (Id × EntityUpdate)) (deletes : Finset Id) (sites : List SiteIdType)
  /-- About to call `internal_delete_entity`. -/
  | deleting (entityId : Id) (deletes : Finset Id) (sites : List SiteIdType)
  /-- At the test for its end. -/
  | testing
  | exited

/-- The manager, its thread, and what they are to do. -/
structure UpdateSystem where
  manager : UpdateManager
  phase : ThreadPhase
  /-- The deleted flag of each Entity. -/
  deletedFlag : Id → Bool
  /-- The sites that are marked for their deletion. -/
  siteDeletePending : SiteIdType → Bool
  /-- The Entities that have changed since they were committed last. -/
  uncommitted : Finset Id
  /-- The journals of IDs that the manager has been told, and those that have been
  applied, in order. -/
  journals : List (Id × ChangedIdFieldsMap)
  applied : List (Id × ChangedIdFieldsMap)
  /-- The Entities whose deletion has been accepted, and that are there. -/
  undeleted : Finset Id
  /-- The deletions of sites that have been accepted, and those that are done. -/
  sitesAccepted : List SiteIdType
  sitesDeleted : List SiteIdType

/-- What can happen. -/
inductive UpdateStep
  | entityChanged (entityId : Id) (changes : EntityChanges)
  /-- A new Entity, its ID being one that is free. -/
  | newEntity (entityId : Id)
  /-- `delete_entity`, up to the flag of one Entity. -/
  | setDeletedFlag (entityId : Id)
  | entitiesDeleted (entities : Finset Id)
  /-- `delete_site`, the site being in use or not. -/
  | deleteSite (siteId : SiteIdType) (referenced : Bool)
  | shutdown
  /-- The first section of `process_immediate_updates`. -/
  | takeImmediate
  /-- `process_id_references`, for one update. -/
  | processIdReferences
  /-- The second section of `process_immediate_updates`. -/
  | mergeImmediate
  /-- It is not yet time to commit. -/
  | skipCommits
  /-- The first section of `process_db_commits`. -/
  | takePending
  /-- `internal_commit_entity`, if the Entity is one that is not being deleted. -/
  | commitEntity
  /-- The section before the deletion of an Entity, after `remove_all_references`. -/
  | eraseUpdate (entityId : Id)
  /-- `internal_delete_entity`, the Entity being in use or not. -/
  | deleteEntity (inUse : Bool)
  /-- `delete_site`, by the thread. -/
  | deleteNextSite (referenced : Bool)
  /-- The rest of `process_db_commits`. -/
  | finishCommits
  /-- The test for the end. -/
  | exitTest

namespace UpdateSystem

variable (s : UpdateSystem)

def init : UpdateSystem where
  manager := .new
  phase := .waiting
  deletedFlag _ := false
  siteDeletePending _ := false
  uncommitted := ∅
  journals := []
  applied := []
  undeleted := ∅
  sitesAccepted := []
  sitesDeleted := []

/-- `get_entity` does not give an Entity that is being deleted, or one of such a site. -/
def isDeletePending (entityId : Id) : Bool :=
  s.deletedFlag entityId || s.siteDeletePending entityId.siteId

/-- `DatabaseAccess::delete_site` -/
def deleteSite (siteId : SiteIdType) (referenced : Bool) : UpdateSystem :=
  let s := { s with siteDeletePending := Function.update s.siteDeletePending siteId true }
  if referenced then { s with manager := s.manager.siteDeleted siteId }
  else { s with sitesDeleted := s.sitesDeleted ++ [siteId] }

/-- What other threads call. -/
def call : UpdateStep → Option UpdateSystem
  | .entityChanged entityId changes =>
    some { s with
      manager := s.manager.entityChanged entityId changes
      uncommitted := insert entityId s.uncommitted
      journals :=
        if ChangedIdFieldsMap.isEmpty changes.ids then s.journals
        else s.journals ++ [(entityId, changes.ids)] }
  | .newEntity entityId =>
    if entityId ∈ s.undeleted then none
    else
      some { s with
        deletedFlag := Function.update s.deletedFlag entityId false
        uncommitted := s.uncommitted.erase entityId }
  | .setDeletedFlag entityId =>
    some { s with deletedFlag := Function.update s.deletedFlag entityId true }
  | .entitiesDeleted entities =>
    if ∀ entityId ∈ entities, s.deletedFlag entityId = true then
      some { s with
        manager := s.manager.entitiesDeleted entities
        undeleted := s.undeleted ∪ entities }
    else none
  | .deleteSite siteId referenced =>
    some ({ s with sitesAccepted := s.sitesAccepted ++ [siteId] }.deleteSite siteId referenced)
  | .shutdown => some { s with manager := { s.manager with shutdownThreadFlag := true } }
  | _ => none

/-- What the thread does, where it is. -/
def threadStep : ThreadPhase → UpdateStep → Option UpdateSystem
  | .waiting, .takeImmediate =>
    some { s with
      manager := { s.manager with immediateUpdateQueue := [] }
      phase := .applying [] s.manager.immediateUpdateQueue }
  | .applying done (update :: todo), .processIdReferences =>
    some { s with
      phase := .applying (done ++ [update.clearIds]) todo
      applied :=
        if update.idsChanged.isEmpty then s.applied
        else s.applied ++ [(update.entityId, update.idsChanged)] }
  | .applying done [], .mergeImmediate =>
    some { s with manager := done.foldl UpdateManager.addPending s.manager, phase := .timing }
  | .timing, .skipCommits => some { s with phase := .testing }
  | .timing, .takePending =>
    some { s with
      manager := { s.manager with
        pendingUpdates := []
        pendingDeletes := ∅
        pendingSiteDeletes := [] }
      phase := .committing s.manager.pendingUpdates s.manager.pendingDeletes
        s.manager.pendingSiteDeletes }
  | .committing ((entityId, _) :: updates) deletes sites, .commitEntity =>
    some { s with
      phase := .committing updates deletes sites
      uncommitted :=
        if s.isDeletePending entityId then s.uncommitted else s.uncommitted.erase entityId }
  | .committing [] deletes sites, .eraseUpdate entityId =>
    -- The order of the Entities does not matter.
    if entityId ∈ deletes then
      some { s with
        manager := { s.manager with
          pendingUpdates := SortedMap.erase entityId s.manager.pendingUpdates }
        phase := .deleting entityId (deletes.erase entityId) sites }
    else none
  | .deleting entityId deletes sites, .deleteEntity inUse =>
    some { s with
      manager := { s.manager with
        pendingDeletes :=
          if inUse then insert entityId s.manager.pendingDeletes else s.manager.pendingDeletes }
      phase := .committing [] deletes sites
      undeleted := if inUse then s.undeleted else s.undeleted.erase entityId }
  | .committing [] deletes (siteId :: sites), .deleteNextSite referenced =>
    if deletes = ∅ then
      some { s.deleteSite siteId referenced with phase := .committing [] deletes sites }
    else none
  | .committing [] deletes [], .finishCommits =>
    if deletes = ∅ then some { s with phase := .testing } else none
  | .testing, .exitTest =>
    some { s with phase := if s.manager.doShutdown then .exited else .waiting }
  | _, _ => none

/-- What the thread does, with the state afterwards. -/
inductive ThreadNext (s : UpdateSystem) : UpdateStep → UpdateSystem → Prop
  | takeImmediate (hphase : s.phase = .waiting) :
      ThreadNext s .takeImmediate { s with
        manager := { s.manager with immediateUpdateQueue := [] }
        phase := .applying [] s.manager.immediateUpdateQueue }
  | processIdReferences {done : List EntityUpdate} {update : EntityUpdate}
      {todo : List EntityUpdate} (hphase : s.phase = .applying done (update :: todo)) :
      ThreadNext s .processIdReferences { s with
        phase := .applying (done ++ [update.clearIds]) todo
        applied :=
          if update.idsChanged.isEmpty then s.applied
          else s.applied ++ [(update.entityId, update.idsChanged)] }
  | mergeImmediate {done : List EntityUpdate} (hphase : s.phase = .applying done []) :
      ThreadNext s .mergeImmediate { s with
        manager := done.foldl UpdateManager.addPending s.manager
        phase := .timing }
  | skipCommits (hphase : s.phase = .timing) :
      ThreadNext s .skipCommits { s with phase := .testing }
  | takePending (hphase : s.phase = .timing) :
      ThreadNext s .takePending { s with
        manager := { s.manager with
          pendingUpdates := []
          pendingDeletes := ∅
          pendingSiteDeletes := [] }
        phase := .committing s.manager.pendingUpdates s.manager.pendingDeletes
          s.manager.pendingSiteDeletes }
  | commitEntity {entityId : Id} {update : EntityUpdate} {updates : List (Id × EntityUpdate)}
      {deletes : Finset Id} {sites : List SiteIdType}
      (hphase : s.phase = .committing ((entityId, update) :: updates) deletes sites) :
      ThreadNext s .commitEntity { s with
        phase := .committing updates deletes sites
        uncommitted :=
          if s.isDeletePending entityId then s.uncommitted else s.uncommitted.erase entityId }
  | eraseUpdate {entityId : Id} {deletes : Finset Id} {sites : List SiteIdType}
      (hphase : s.phase = .committing [] deletes sites) (hmem : entityId ∈ deletes) :
      ThreadNext s (.eraseUpdate entityId) { s with
        manager := { s.manager with
          pendingUpdates := SortedMap.erase entityId s.manager.pendingUpdates }
        phase := .deleting entityId (deletes.erase entityId) sites }
  | deleteEntity {entityId : Id} {deletes : Finset Id} {sites : List SiteIdType} {inUse : Bool}
      (hphase : s.phase = .deleting entityId deletes sites) :
      ThreadNext s (.deleteEntity inUse) { s with
        manager := { s.manager with
          pendingDeletes :=
            if inUse then insert entityId s.manager.pendingDeletes else s.manager.pendingDeletes }
        phase := .committing [] deletes sites
        undeleted := if inUse then s.undeleted else s.undeleted.erase entityId }
  | deleteNextSite {siteId : SiteIdType} {sites : List SiteIdType} {referenced : Bool}
      (hphase : s.phase = .committing [] ∅ (siteId :: sites)) :
      ThreadNext s (.deleteNextSite referenced)
        { s.deleteSite siteId referenced with phase := .committing [] ∅ sites }
  | finishCommits (hphase : s.phase = .committing [] ∅ []) :
      ThreadNext s .finishCommits { s with phase := .testing }
  | exitTest (hphase : s.phase = .testing) :
      ThreadNext s .exitTest
        { s with phase := if s.manager.doShutdown then .exited else .waiting }

theorem threadNext {s s' : UpdateSystem} {label : UpdateStep}
    (h : s.threadStep s.phase label = some s') : ThreadNext s label s' := by
  rw [threadStep.eq_def] at h
  split at h
  · next hphase =>
    cases h
    exact .takeImmediate hphase
  · next hphase =>
    cases h
    exact .processIdReferences hphase
  · next hphase =>
    cases h
    exact .mergeImmediate hphase
  · next hphase =>
    cases h
    exact .skipCommits hphase
  · next hphase =>
    cases h
    exact .takePending hphase
  · next hphase =>
    cases h
    exact .commitEntity hphase
  · next hphase =>
    rw [Option.ite_none_right_eq_some] at h
    obtain ⟨hmem, ⟨⟩⟩ := h
    exact .eraseUpdate hphase hmem
  · next hphase =>
    cases h
    exact .deleteEntity hphase
  · next hphase =>
    rw [Option.ite_none_right_eq_some] at h
    obtain ⟨rfl, ⟨⟩⟩ := h
    exact .deleteNextSite hphase
  · next hphase =>
    rw [Option.ite_none_right_eq_some] at h
    obtain ⟨rfl, ⟨⟩⟩ := h
    exact .finishCommits hphase
  · next hphase =>
    cases h
    exact .exitTest hphase
  · cases h

/-- One step, as long as there is the thread. -/
def step (s : UpdateSystem) (label : UpdateStep) : Option UpdateSystem :=
  match s.phase with
  | .exited => none
  | phase => (s.call label).or (s.threadStep phase label)

end UpdateSystem

end Mutgos.DbInterface
