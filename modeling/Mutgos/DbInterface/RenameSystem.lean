import Mutgos.DbInterface.PendingRename
import Mutgos.DbInterface.UpdateEffects

/-!
# Names and the database

Some Entities of a site have names that are theirs alone: programs have registration
names, and players have their names.  A name is changed in memory, after the update
manager has been asked, and comes to the database when the update manager commits the
Entity.

## Implementation notes

One system has names of one kind, and the Entities are those of this kind.  After
`new_entity` has made a player it sets the name that was asked for, and deletes the
player if it cannot; these are steps of their own here.
-/

namespace Mutgos.DbInterface

open DbTypes Text

/-- The names in the database, of the Entities that have one. -/
abbrev NameRows := List (Id × ByteString)

/-- The first Entity of the site that has the name, in capitals or not. -/
def findName (rows : NameRows) (siteId : SiteIdType) (name : ByteString) : Option Id :=
  (rows.map Prod.fst).find? fun id =>
    id.siteId = siteId && (SortedMap.find id rows).any fun other =>
      toLowerCopy other = toLowerCopy name

/-- What is different for the registration names of programs and for the names of
players. -/
structure RenameKind where
  field : EntityField
  /-- Whether an Entity may be made under a name. -/
  isCreatable : ByteString → Bool
  /-- The name of an Entity that is new. -/
  initialName : ℕ → ByteString
  /-- Whether it counts as a name. -/
  isHeld : ByteString → Bool
  /-- The name to check, if there is nothing wrong with it. -/
  candidate : ByteString → Option ByteString
  /-- The check of the update manager. -/
  check : NameLookup → Bool → PendingRename → Id → ByteString → ByteString → Bool × PendingRename
  /-- The name to store, if there is nothing wrong with it. -/
  assigned : ByteString → Option ByteString
  /-- A new Entity comes to the database. -/
  newRows : Id → ByteString → NameRows → NameRows
  /-- `save_entity_db` -/
  save : Id → ByteString → NameRows → Bool × NameRows
  /-- `delete_site_in_db` -/
  deleteSiteRows : SiteIdType → NameRows → NameRows
  /-- The database may know of a rename. -/
  processRenameUpdate : NameLookup → PendingRename → Id → PendingRename

/-- The state. -/
structure RenameSystem where
  updates : UpdateSystem
  entities : Finset Id
  /-- The names in memory. -/
  names : Id → ByteString
  rows : NameRows
  pendingInfo : PendingRename
  /-- The copies of `process_db_commits`. -/
  updatesCopy : List (Id × EntityUpdate)
  deletesCopy : Finset Id
  siteDeletesCopy : List SiteIdType
  playerNameSer : ℕ

/-- What can happen. -/
inductive RenameStep
  /-- A name is set. -/
  | setName (id : Id) (name : ByteString)
  /-- An Entity is made, to have this name. -/
  | newEntity (id : Id) (name : ByteString)
  /-- A step of the update manager. -/
  | update (label : UpdateStep)

namespace RenameSystem

variable (kind : RenameKind) (s : RenameSystem)

def init : RenameSystem where
  updates := .init
  entities := ∅
  names _ := []
  rows := []
  pendingInfo := []
  updatesCopy := []
  deletesCopy := ∅
  siteDeletesCopy := []
  playerNameSer := 0

/-- An Entity that is not being deleted. -/
def isLive (id : Id) : Bool := decide (id ∈ s.entities) && !s.updates.isDeletePending id

/-- `internal_get_prog_by_regname`, `internal_get_player_by_name`: nothing is found in a
site that is being deleted. -/
def lookup : NameLookup := fun siteId name =>
  if s.updates.siteDeletePending siteId then none else findName s.rows siteId name

/-- A name that has been approved is stored. -/
def assign (id : Id) (name : ByteString) (pendingInfo : PendingRename) : RenameSystem :=
  { s with pendingInfo := pendingInfo, names := Function.update s.names id name }

/-- `set_program_reg_name`, `Player::set_entity_name`, to the end of the lock. -/
def setName (id : Id) (name : ByteString) : Option RenameSystem :=
  match kind.candidate name with
  | none => some s
  | some newName =>
    let check := kind.check s.lookup (decide (id ∈ s.entities)) s.pendingInfo id (s.names id) newName
    match if check.1 then kind.assigned name else none with
    | none => some { s with pendingInfo := check.2 }
    | some assigned =>
      (s.updates.step (.entityChanged id ⟨{kind.field}, .empty, fun _ => none⟩)).map fun updates =>
        { s.assign id assigned check.2 with updates := updates }

/-- An Entity is there, with the name of one that is new. -/
def enter (id : Id) : RenameSystem :=
  { s with
    entities := insert id s.entities
    names := Function.update s.names id (kind.initialName s.playerNameSer)
    rows := kind.newRows id (kind.initialName s.playerNameSer) s.rows
    playerNameSer := s.playerNameSer + 1 }

/-- `new_entity`, up to the name that was asked for. -/
def newEntity (id : Id) (name : ByteString) : Option RenameSystem :=
  if kind.isCreatable name = false then some s
  else if id ∈ s.entities ∨ s.updates.siteDeletePending id.siteId = true then none
  else
    (s.updates.step (.newEntity id)).map fun updates =>
      { s.enter kind id with updates := updates }

/-- `internal_commit_entity`, if `get_entity` finds the Entity. -/
def commitEntity (id : Id) : RenameSystem :=
  if s.isLive id then { s with rows := (kind.save id (s.names id) s.rows).2 } else s

/-- `internal_delete_entity`, where the Entity is not in use. -/
def deleteEntity (id : Id) : RenameSystem :=
  if s.updates.siteDeletePending id.siteId then s
  else { s with entities := s.entities.erase id, rows := SortedMap.erase id s.rows }

/-- `delete_site_in_db` -/
def deleteSite (siteId : SiteIdType) : RenameSystem :=
  { s with
    entities := s.entities.filter fun id => id.siteId ≠ siteId
    rows := kind.deleteSiteRows siteId s.rows }

/-- The end of `process_db_commits`. -/
def finishCommits : RenameSystem :=
  { s with
    pendingInfo := clearRenames kind.field (kind.processRenameUpdate s.lookup) s.updatesCopy
      s.deletesCopy s.siteDeletesCopy s.pendingInfo
    updatesCopy := []
    deletesCopy := ∅
    siteDeletesCopy := [] }

/-- The start of `process_db_commits`. -/
def takePending : RenameSystem :=
  { s with
    updatesCopy := s.updates.manager.pendingUpdates
    deletesCopy := s.updates.manager.pendingDeletes
    siteDeletesCopy := s.updates.manager.pendingSiteDeletes }

/-- What a step of the update manager does to names. -/
def follow : UpdateStep → ThreadPhase → RenameSystem
  | .takePending, _ => s.takePending
  | .commitEntity, .committing ((id, _) :: _) _ _ => s.commitEntity kind id
  | .deleteEntity false, .deleting id _ _ => s.deleteEntity id
  | .deleteSite siteId false, _ => s.deleteSite kind siteId
  | .deleteNextSite false, .committing _ _ (siteId :: _) => s.deleteSite kind siteId
  | .finishCommits, _ => s.finishCommits kind
  | _, _ => s

/-- One step.  That an Entity is new is for `newEntity` to say. -/
def step (s : RenameSystem) : RenameStep → Option RenameSystem
  | .setName id name => if id ∈ s.entities then s.setName kind id name else none
  | .newEntity id name => s.newEntity kind id name
  | .update (.newEntity _) => none
  | .update label => (s.updates.step label).map fun updates =>
      { s.follow kind label s.updates.phase with updates := updates }

end RenameSystem

end Mutgos.DbInterface
