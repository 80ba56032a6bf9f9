import Mutgos.Lib.PendingEvents
import Mutgos.Primitives.NameRegistry

/-!
# The manager of Entity names

`useragent::EntityNameManager`, which keeps the registry of names up to date: it handles, one
by one, the events it has subscribed to.  What it reads while it handles an event is the
database as it is by then.

There are two views of the database.  `get_entity` gives an Entity as it has been changed last,
and no Entity that is being deleted.  `find` and `get_entity_metadata` read the backend, where
changes and deletions arrive with a later commit; and an owner is stored there by the half of
the ID that is not the site.

The router keeps one session for each player.  A player is not deleted while online.
-/

namespace Mutgos.Useragent

open DbTypes Text Primitives

/-- What of an Entity is read here. -/
structure EntityInfo where
  type : EntityType
  owner : Id
  name : ByteString
  deriving DecidableEq

/-- A row of `entities` in the backend. -/
structure EntityRow where
  type : EntityType
  /-- The owner, without its site. -/
  owner : EntityIdType
  name : ByteString
  deriving DecidableEq

/-- The row of an Entity. -/
def EntityInfo.row (entity : EntityInfo) : EntityRow :=
  ⟨entity.type, entity.owner.entityId, entity.name⟩

/-- `ConnectionEvent` and `EntityChangedEvent`. -/
inductive Event where
  | connected (player : Id)
  | disconnected (player : Id)
  | created (id : Id) (type : EntityType)
  | deleted (id : Id) (type : EntityType)
  /-- With whether `get_entity_fields_changed` has the name, and the owner. -/
  | updated (id : Id) (type : EntityType) (name owner : Bool)
  deriving DecidableEq

/-- `subscribe_events`: all connections, the puppets that come and go, and the names and owners of
puppets and players. -/
def Event.subscribed : Event → Bool
  | connected _ | disconnected _ => true
  | created _ type | deleted _ type => type = .puppet
  | updated _ type name owner => HasNames type && (name || owner)

/-- The database, the sessions and the manager. -/
structure World where
  /-- What `get_entity` gives. -/
  entities : List (Id × EntityInfo)
  /-- The rows of the backend. -/
  backend : List (Id × EntityRow)
  /-- The players that have a session. -/
  sessions : List Id
  /-- The messages to the manager that wait. -/
  queue : List Event
  registry : NameRegistry
  onlinePlayers : List Id

namespace World

variable (w : World)

/-- `get_entity`, where it is valid. -/
def getEntity (id : Id) : Option EntityInfo := SortedMap.find id w.entities

/-- `get_entity_metadata`, where it is valid. -/
def getEntityMetadata (id : Id) : Option EntityRow := SortedMap.find id w.backend

/-- `find_in_db`, by type and owner.  The ID of an owner is not 0. -/
def findInDb (site : SiteIdType) (type : EntityType) (ownerId : EntityIdType) : List Id :=
  if site = 0 then []
  else (w.backend.filter fun row =>
    row.1.siteId = site && row.2.type = type && row.2.owner = ownerId).map Prod.fst

/-- The puppets that `find` gives for a player. -/
def foundPuppets (player : Id) : List Id := w.findInDb player.siteId .puppet player.entityId

/-- `name_infos`: the player, and the puppets that have been found. -/
def nameInfosOf (player : Id) (row : EntityRow) : List NameRegistryInfo :=
  ⟨row.name, player, .player⟩ :: (w.foundPuppets player).filterMap fun puppet =>
    (w.getEntityMetadata puppet).map fun row => ⟨row.name, puppet, .puppet⟩

/-- `process_connection_event`, for `ACTION_CONNECTED` or `ACTION_DISCONNECTED`. -/
def processConnectionEvent (connect : Bool) (player : Id) : World :=
  if connect then
    match w.getEntityMetadata player with
    | none => w
    | some row =>
      { w with
        registry := (w.registry.addEntities (w.nameInfosOf player row)).1
        onlinePlayers := w.onlinePlayers.insert player }
  else
    let registry := (w.registry.removeEntity player .player).1
    { w with
      registry := (registry.removeEntities (w.foundPuppets player) .puppet).1
      onlinePlayers := w.onlinePlayers.filter (· ≠ player) }

/-- The name has been changed. -/
def processName (id : Id) (type : EntityType) : World :=
  match w.getEntity id with
  | some entity => { w with registry := (w.registry.updateEntityName id type entity.name).1 }
  | none => { w with registry := (w.registry.removeEntity id type).1 }

/-- The owner has been changed: the Entity is removed, and added again if the new one is
online. -/
def processOwner (id : Id) (type : EntityType) : World :=
  let registry := (w.registry.removeEntity id type).1
  match w.getEntity id with
  | some entity =>
    if entity.owner ∈ w.onlinePlayers then
      { w with registry := (registry.addEntity ⟨entity.name, id, type⟩).1 }
    else { w with registry := registry }
  | none => { w with registry := registry }

def processEntityEvent : Event → World
  | .deleted id _ => { w with registry := (w.registry.removeEntity id .puppet).1 }
  | .created id _ =>
    match w.getEntity id with
    | some entity => { w with registry := (w.registry.addEntity ⟨entity.name, id, .puppet⟩).1 }
    | none => w
  | .updated id type name owner =>
    let named := if name then w.processName id type else w
    if owner then named.processOwner id type else named
  | _ => w

/-- `process_execute`, with a message. -/
def processExecute : Event → World
  | .connected player => w.processConnectionEvent true player
  | .disconnected player => w.processConnectionEvent false player
  | event => w.processEntityEvent event

/-- An event gets to the manager if it has subscribed to it. -/
def publishEvent (event : Event) : World :=
  if event.subscribed then { w with queue := w.queue ++ [event] } else w

end World

/-- What can happen. -/
inductive Action where
  | newEntity (id : Id) (entity : EntityInfo)
  /-- A writer sets the name or the owner, or both, and releases the lock. -/
  | update (id : Id) (name : Option ByteString) (owner : Option Id)
  /-- The same for an Entity that is being deleted. -/
  | updateDeleted (id : Id) (name owner : Bool)
  | deleteEntity (id : Id)
  /-- The backend is brought up to date about an Entity. -/
  | commit (id : Id)
  /-- `authorize_client`: there is a new session, and another one that the player had is gone. -/
  | authorizeClient (player : Id)
  | removeSession (player : Id)
  /-- The manager handles an event. -/
  | process

namespace World

variable (w : World)

/-- A name and an owner are set.  `set_entity_name` does not take an empty name. -/
def set (entity : EntityInfo) (name : Option ByteString) (owner : Option Id) : EntityInfo :=
  { entity with
    name := (name.filter (· ≠ [])).getD entity.name
    owner := owner.getD entity.owner }

/-- What the event says has been changed by `set`. -/
def setEvent (id : Id) (entity : EntityInfo) (name : Option ByteString) (owner : Option Id) :
    Event :=
  .updated id entity.type (name.any (· ≠ [])) (owner.any (· ≠ entity.owner))

/-- The session of a player is removed. -/
def removeSession (player : Id) : World :=
  { w with sessions := w.sessions.filter (· ≠ player) }.publishEvent (.disconnected player)

/-- There is a session of a player. -/
def addSession (player : Id) : World :=
  { w with sessions := w.sessions.insert player }.publishEvent (.connected player)

/-- One step. -/
def step (w : World) : Action → Option World
  | .newEntity id entity =>
    if id.siteId ≠ 0 ∧ w.getEntity id = none ∧ w.getEntityMetadata id = none then
      some ({ w with
        entities := SortedMap.insert id entity w.entities
        backend := SortedMap.insert id entity.row w.backend }.publishEvent
          (.created id entity.type))
    else none
  | .update id name owner =>
    match w.getEntity id with
    | some entity =>
      some ({ w with
        entities := SortedMap.insert id (set entity name owner) w.entities }.publishEvent
          (setEvent id entity name owner))
    | none => none
  | .updateDeleted id name owner =>
    match w.getEntity id, w.getEntityMetadata id with
    | none, some row => some (w.publishEvent (.updated id row.type name owner))
    | _, _ => none
  | .deleteEntity id =>
    match w.getEntity id with
    | some entity =>
      if entity.type = .player ∧ id ∈ w.sessions then none
      else some ({ w with entities := SortedMap.erase id w.entities }.publishEvent
        (.deleted id entity.type))
    | none => none
  | .commit id =>
    match w.getEntity id with
    | some entity => some { w with backend := SortedMap.insert id entity.row w.backend }
    | none => some { w with backend := SortedMap.erase id w.backend }
  | .authorizeClient player =>
    match w.getEntity player with
    | some entity =>
      if entity.type = .player then
        some ((if player ∈ w.sessions then w.removeSession player else w).addSession player)
      else none
    | none => none
  | .removeSession player =>
    if player ∈ w.sessions then some (w.removeSession player) else none
  | .process =>
    match w.queue with
    | event :: rest => some ({ w with queue := rest }.processExecute event)
    | [] => none

end World

/-- The Entities that are in the database when the program starts. -/
structure Stored where
  entities : List (Id × EntityInfo)
  sorted : SortedMap.Sorted entities
  sites : ∀ id ∈ entities.map Prod.fst, id.siteId ≠ 0

/-- No one is online, and nothing has happened. -/
def World.start (stored : Stored) : World where
  entities := stored.entities
  backend := stored.entities.map fun entry => (entry.1, entry.2.row)
  sessions := []
  queue := []
  registry := ⟨[]⟩
  onlinePlayers := []

end Mutgos.Useragent
