import Mathlib.Data.Fintype.Basic
import Mathlib.Logic.Function.Basic
import Mutgos.DbTypes.Id

/-!
# The locks of the database layer

The operations of the database layer, as what they lock and unlock, one after the other,
and the threads that run them.  What an operation finds (whether an Entity is in the cache,
whether a name has to be looked up) is chosen when it starts.

The lock of an Entity is that of the object in memory.  One that is being made or read from
the database is known to its thread alone, until it is in the cache, and one that is
unreferenced again can be taken out of others' reach; these two are actions as well, since
what a thread has to itself it cannot be kept waiting for.

## Implementation notes

A shared hold on the lock of an Entity is as good as an exclusive one here.  A mutex that
nothing is locked under, such as that of a reference count, is left out.
-/

namespace Mutgos.DbInterface

open DbTypes Function

/-- An Entity in memory. -/
abbrev EntityAddress := ℕ

/-- The locks. -/
inductive Lock where
  /-- `DatabaseAccess::mutex` -/
  | databaseAccess
  /-- `SiteCache::mutex` -/
  | siteCache (site : SiteIdType)
  /-- `SqliteBackend::mutex` -/
  | sqliteBackend
  /-- The lock of an Entity. -/
  | entity (e : EntityAddress)
  /-- `UpdateManager::mutex` -/
  | updateManager
  deriving DecidableEq, Repr

namespace Lock

/-- The Entity whose lock it is. -/
def entity? : Lock → Option EntityAddress
  | entity e => some e
  | _ => none

/-- `DatabaseAccess::mutex`, `SiteCache::mutex`, `SqliteBackend::mutex` -/
def isStore : Lock → Bool
  | databaseAccess | siteCache _ | sqliteBackend => true
  | entity _ | updateManager => false

end Lock

/-- What a thread does with locks and Entities. -/
inductive LockAction where
  | lock (l : Lock)
  | unlock (l : Lock)
  /-- An Entity that only the thread knew is in the cache. -/
  | publish (e : EntityAddress)
  /-- An Entity that nobody else has a reference to cannot get one. -/
  | retire (e : EntityAddress)
  deriving DecidableEq, Repr

namespace LockAction

/-- The Entity that an action is about. -/
def entity? : LockAction → Option EntityAddress
  | lock l | unlock l => l.entity?
  | publish e | retire e => some e

end LockAction

/-- What `get_entity_deleted` comes upon. -/
inductive Fetch where
  /-- There is no such site. -/
  | noSite
  /-- There is no such Entity. -/
  | missing
  /-- The Entity is in the cache. -/
  | cached (e : EntityAddress)
  /-- The Entity is read from the database. -/
  | loaded (e : EntityAddress)
  deriving DecidableEq, Repr

/-- The Entity that has been got. -/
def Fetch.entity? : Fetch → Option EntityAddress
  | cached e | loaded e => some e
  | _ => none

/-- The Entity, if nobody else knows it. -/
def Fetch.own : Fetch → List EntityAddress
  | loaded e => [e]
  | _ => []

/-- How a new name is checked. -/
inductive NameCheck where
  /-- The name does not change, or cannot be one. -/
  | none
  /-- What is pending decides. -/
  | pending
  /-- The database is asked. -/
  | database
  deriving DecidableEq, Repr

/-- What is called with a writer token. -/
inductive TokenCall where
  /-- `Program::set_program_reg_name` -/
  | setProgramRegName (check : NameCheck)
  /-- `Player::set_entity_name` -/
  | setEntityName (check : NameCheck)
  /-- `Player::set_entity_name`, for the temporary name of a Player that is being made. -/
  | setTemporaryName
  /-- A method that makes a token of its own. -/
  | nested
  deriving DecidableEq, Repr

/-- What `delete_entity_cache` comes upon. -/
inductive CacheOutcome where
  | absent
  | referenced
  | dirty
  | deleted
  deriving DecidableEq, Repr

/-- An Entity that `remove_all_references` gets, and changes or not. -/
structure Touch where
  site : SiteIdType
  fetch : Fetch
  changed : Bool
  deriving DecidableEq, Repr

open LockAction Lock

/-! ### Parts of operations -/

def getSiteCache (site : SiteIdType) : List LockAction :=
  [lock databaseAccess, lock (siteCache site), unlock (siteCache site), unlock databaseAccess]

/-- `entity_changed`, and whatever else needs the manager for a moment. -/
def tellManager : List LockAction := [lock updateManager, unlock updateManager]

/-- A call of the backend. -/
def askBackend : List LockAction := [lock sqliteBackend, unlock sqliteBackend]

/-- A token on an Entity, without a change. -/
def readEntity (e : EntityAddress) : List LockAction := [lock (entity e), unlock (entity e)]

/-- `SiteCache::get_entity_ref` -/
def getEntityRef (site : SiteIdType) : Fetch → List LockAction
  | .cached _ => [lock (siteCache site), unlock (siteCache site)]
  | .loaded e =>
    [lock (siteCache site)] ++ askBackend ++
      -- `set_entity_accessed_timestamp`
      ([lock (entity e)] ++ tellManager ++ [unlock (entity e)]) ++
      [publish e, unlock (siteCache site)]
  | _ => [lock (siteCache site)] ++ askBackend ++ [unlock (siteCache site)]

def getEntityDeleted (site : SiteIdType) : Fetch → List LockAction
  | .noSite => [lock databaseAccess, unlock databaseAccess]
  | fetch => getSiteCache site ++ getEntityRef site fetch

/-- What is done with an Entity, if there is one. -/
def withEntity (fetch : Fetch) (f : EntityAddress → List LockAction) : List LockAction :=
  fetch.entity?.elim [] f

/-- `get_entity`: `is_delete_pending` reads the deleted flag. -/
def getEntity (site : SiteIdType) (fetch : Fetch) : List LockAction :=
  getEntityDeleted site fetch ++ withEntity fetch readEntity

/-- `check_program_registration_name`, and `check_player_name` from where it has the
mutex. -/
def checkName (site : SiteIdType) : NameCheck → List LockAction
  | .none => []
  | .pending => tellManager
  | .database =>
    [lock updateManager] ++ getSiteCache site ++ askBackend ++ [unlock updateManager]

/-- What is called with a writer token. -/
def tokenCall (site : SiteIdType) (e : EntityAddress) : TokenCall → List LockAction
  | .setProgramRegName check => checkName site check
  | .setEntityName .none => []
  -- `entity_exists`
  | .setEntityName check => askBackend ++ checkName site check
  | .setTemporaryName => askBackend
  | .nested => readEntity e

/-- A writer token, what is called with it, and its end, which tells the manager what has
changed. -/
def writerToken (site : SiteIdType) (e : EntityAddress) (calls : List TokenCall) (changed : Bool) :
    List LockAction :=
  [lock (entity e)] ++ calls.flatMap (tokenCall site e) ++ (if changed then tellManager else []) ++
    [unlock (entity e)]

/-- `save_entity_db`, and the second half of `SqliteBackend::new_entity` -/
def saveEntityDb (e : EntityAddress) : List LockAction :=
  [lock sqliteBackend] ++ readEntity e ++ [unlock sqliteBackend]

/-- `SqliteBackend::new_entity` -/
def backendNewEntity (site : SiteIdType) (e : EntityAddress) (calls : List TokenCall) :
    List LockAction :=
  askBackend ++ writerToken site e calls true ++ saveEntityDb e

def deleteEntityCache (site : SiteIdType) (e : EntityAddress) : CacheOutcome → List LockAction
  | .absent | .referenced => [lock (siteCache site), unlock (siteCache site)]
  | .dirty =>
    [lock (siteCache site), retire e] ++ readEntity e ++ [publish e, unlock (siteCache site)]
  | .deleted => [lock (siteCache site), retire e] ++ readEntity e ++ [unlock (siteCache site)]

/-- `internal_delete_entity`, and the reinsertion of what is in use. -/
def internalDeleteEntity (site : SiteIdType) (e : EntityAddress) (outcome : CacheOutcome) :
    List LockAction :=
  getSiteCache site ++ deleteEntityCache site e outcome ++
    match outcome with
    | .absent | .deleted => askBackend
    | .referenced | .dirty => tellManager

/-- `remove_reference`, `remove_reference_from_source` -/
def touch (t : Touch) : List LockAction :=
  getEntityDeleted t.site t.fetch ++ withEntity t.fetch fun e => writerToken t.site e [] t.changed

/-! ### Operations -/

/-- The operations. -/
inductive Operation where
  /-- `new_entity`, with the object that is made and the one that is then read. -/
  | newEntity (site : SiteIdType) (e : EntityAddress) (fetch : Fetch)
  /-- `new_entity`, for a Player. -/
  | newPlayer (site : SiteIdType) (e : EntityAddress) (fetch : Fetch) (check : NameCheck)
      (changed : Bool)
  | getEntity (site : SiteIdType) (fetch : Fetch)
  /-- `delete_entity`, with what is found in the Entity. -/
  | deleteEntity (site : SiteIdType) (contents : List Touch)
  | newSite
  | deleteSite (site : SiteIdType) (referenced : Bool)
  /-- A writer token from its beginning to its end. -/
  | writerToken (site : SiteIdType) (e : EntityAddress) (calls : List TokenCall) (changed : Bool)
  /-- `process_db_commits` takes what is pending. -/
  | takePending
  /-- `process_db_commits`, for an Entity that has changed. -/
  | commitEntity (site : SiteIdType) (fetch : Fetch)
  /-- `process_db_commits`, for an Entity that is to be deleted. -/
  | removeEntity (site : SiteIdType) (fetch : Fetch) (references : List Touch)
      (outcome : CacheOutcome)
  /-- `process_db_commits`, for the renames of the sites. -/
  | finishCommits (sites : List SiteIdType)
  deriving DecidableEq, Repr

namespace Operation

/-- What an operation locks and unlocks. -/
def program : Operation → List LockAction
  | newEntity site e fetch =>
    getSiteCache site ++ backendNewEntity site e [] ++ DbInterface.getEntity site fetch
  | newPlayer site e fetch check changed =>
    getSiteCache site ++
      ([lock databaseAccess] ++ backendNewEntity site e [.setTemporaryName] ++
        [unlock databaseAccess]) ++
      DbInterface.getEntity site fetch ++
      withEntity fetch fun e' => DbInterface.writerToken site e' [.setEntityName check] changed
  | getEntity site fetch => DbInterface.getEntity site fetch
  | deleteEntity site contents =>
    tellManager ++ getSiteCache site ++
      -- `get_entities_contained_by`
      contents.flatMap (fun t =>
        getEntityDeleted t.site t.fetch ++ withEntity t.fetch readEntity) ++
      contents.flatMap (fun t => DbInterface.getEntity t.site t.fetch ++
        withEntity t.fetch fun e => DbInterface.writerToken t.site e [] t.changed) ++
      tellManager
  | newSite => [lock databaseAccess] ++ askBackend ++ [unlock databaseAccess]
  | deleteSite site referenced =>
    [lock databaseAccess] ++ getSiteCache site ++
      -- `set_delete_pending`, `is_anything_referenced`
      [lock (siteCache site), unlock (siteCache site)] ++
      [lock (siteCache site), unlock (siteCache site)] ++
      (if referenced then tellManager
      else [lock (siteCache site), unlock (siteCache site)] ++ askBackend) ++
      [unlock databaseAccess]
  | writerToken site e calls changed => DbInterface.writerToken site e calls changed
  | takePending => tellManager
  | commitEntity site fetch =>
    DbInterface.getEntity site fetch ++ withEntity fetch saveEntityDb
  | removeEntity site fetch references outcome =>
    getEntityDeleted site fetch ++ references.flatMap touch ++
      -- `clear_dirty`
      withEntity fetch fun e =>
        readEntity e ++ tellManager ++ internalDeleteEntity site e outcome
  | finishCommits sites =>
    [lock updateManager] ++ sites.flatMap (fun site => getSiteCache site ++ askBackend) ++
      [unlock updateManager]

/-- `delete_site` -/
def deletesSite : Operation → Bool
  | deleteSite _ _ => true
  | _ => false

/-- The objects in memory that the operation makes. -/
def own : Operation → List EntityAddress
  | newEntity _ e fetch | newPlayer _ e fetch _ _ => e :: fetch.own
  | getEntity _ fetch | commitEntity _ fetch => fetch.own
  | deleteEntity _ contents => contents.flatMap fun t => t.fetch.own
  | removeEntity _ fetch references _ => fetch.own ++ references.flatMap fun t => t.fetch.own
  | newSite | deleteSite _ _ | writerToken _ _ _ _ | takePending | finishCommits _ => []

end Operation

/-! ### Threads -/

/-- Who knows an object in memory. -/
inductive EntityState (n : ℕ) where
  /-- There is no such object yet. -/
  | unused
  /-- Only one thread. -/
  | own (t : Fin n)
  /-- It is in the cache. -/
  | shared
  deriving DecidableEq

/-- What a thread holds, and what it has yet to do. -/
structure Frame where
  held : List Lock
  todo : List LockAction
  deriving DecidableEq

/-- Some threads, and the objects in memory. -/
structure LockSystem (n : ℕ) where
  threads : Fin n → Frame
  entities : EntityAddress → EntityState n

/-- What can happen. -/
inductive LockStep (n : ℕ) where
  /-- A thread with nothing to do starts an operation. -/
  | start (t : Fin n) (op : Operation)
  /-- A thread goes on. -/
  | go (t : Fin n)
  /-- A thread leaves its operation, for an error: what guards it holds are given back. -/
  | leave (t : Fin n)

/-- A step that starts `delete_site`. -/
def LockStep.deletesSite {n : ℕ} : LockStep n → Bool
  | start _ op => op.deletesSite
  | _ => false

namespace LockSystem

variable {n : ℕ}

def init (n : ℕ) : LockSystem n := ⟨fun _ => ⟨[], []⟩, fun _ => .unused⟩

variable (s : LockSystem n)

/-- A lock that a thread can get: nobody holds it, or the thread itself, and it is that of
an Entity. -/
def Available (t : Fin n) (l : Lock) : Prop :=
  ∀ t', l ∈ (s.threads t').held → t' = t ∧ l.entity?.isSome

instance (t : Fin n) (l : Lock) : Decidable (s.Available t l) :=
  inferInstanceAs (Decidable (∀ _, _))

/-- What a thread does next. -/
def perform (t : Fin n) (held : List Lock) (todo : List LockAction) :
    LockAction → Option (LockSystem n)
  | .lock l =>
    if s.Available t l then
      some { s with threads := update s.threads t ⟨l :: held, todo⟩ }
    else none
  | .unlock l => some { s with threads := update s.threads t ⟨held.erase l, todo⟩ }
  | .publish e => some { s with
      threads := update s.threads t ⟨held, todo⟩
      entities := update s.entities e .shared }
  | .retire e =>
    if ∀ t', t' ≠ t → entity e ∉ (s.threads t').held ∧
        ∀ a ∈ (s.threads t').todo, a.entity? ≠ some e then
      some { s with
        threads := update s.threads t ⟨held, todo⟩
        entities := update s.entities e (.own t) }
    else none

/-- One step. -/
def step (s : LockSystem n) : LockStep n → Option (LockSystem n)
  | .start t op =>
    -- what an operation does not make itself, it has a reference to
    if (s.threads t).todo = [] ∧ (∀ e ∈ op.own, s.entities e = .unused) ∧
        ∀ a ∈ op.program, ∀ e ∈ a.entity?, e ∈ op.own ∨ s.entities e = .shared then
      some
        { threads := update s.threads t ⟨(s.threads t).held, op.program⟩
          entities := fun e => if e ∈ op.own then .own t else s.entities e }
    else none
  | .go t =>
    match (s.threads t).todo with
    | [] => none
    | a :: todo => s.perform t (s.threads t).held todo a
  | .leave t =>
    if ∀ l ∈ (s.threads t).held, l.entity? = none then
      some { s with
        threads := update s.threads t
          ⟨(s.threads t).held, (s.threads t).held.map unlock⟩ }
    else none

/-! ### Waiting -/

/-- A thread has a lock. -/
def Holds (t : Fin n) (l : Lock) : Prop := l ∈ (s.threads t).held

/-- A thread is kept waiting for a lock. -/
def Waits (t : Fin n) (l : Lock) : Prop :=
  ∃ todo, (s.threads t).todo = .lock l :: todo ∧ ¬ s.Available t l

end LockSystem

end Mutgos.DbInterface
