import Mutgos.Useragent.EntityNameManager

/-!
# The names of those who are online

What the registry should have: an entry for each player who is online and for each puppet that
such a player owns, and no other.  An entry is right as soon as no event about it waits, as long
as each event, when it is handled, finds the database as far as it has to be and does not add
what is there.

## Main results

* `World.Invariant.agrees` — when no event waits, the registry is right.
-/

namespace Mutgos.Useragent

open DbTypes Text Primitives PendingEvents

/-- The event says whether a player or puppet is one that the registry should have. -/
def Event.unsettles (type : EntityType) (id : Id) : Event → Bool
  | connected player | disconnected player => type = .player && player = id
  | created id' type' | deleted id' type' => type' = type && id' = id
  | updated id' type' _ owner => owner && (type' = type && id' = id)

/-- The event is about a name. -/
def Event.renames (type : EntityType) (id : Id) : Event → Bool
  | updated id' type' name _ => name && (type' = type && id' = id)
  | _ => false

/-- The event is about a session of a player. -/
def Event.isConnection (player : Id) : Event → Bool
  | connected player' | disconnected player' => player' = player
  | _ => false

/-- The Entity that an event is about. -/
def Event.id : Event → Id
  | connected id | disconnected id | created id _ | deleted id _ | updated id _ _ _ => id

namespace World

/-! ### What is promised -/

/-- The registry should have a name: of a player who is online, or of a puppet whose owner is. -/
def Belongs (w : World) (type : EntityType) (id : Id) (name : ByteString) : Prop :=
  ∃ entity, w.getEntity id = some entity ∧ entity.type = type ∧ entity.name = name ∧
    (type = .player ∧ id ∈ w.sessions ∨ type = .puppet ∧ entity.owner ∈ w.sessions)

/-- **The registry has one entry for each name that it should have, and no other.** -/
structure Agrees (w : World) : Prop where
  once : ∀ type, HasNames type → ∀ site, ((w.registry.nameInfos type site).map NameInfo.id).Nodup
  mem_iff : ∀ type, HasNames type → ∀ site info, info ∈ w.registry.nameInfos type site ↔
    info.id.siteId = site ∧ info.normalizedName = toLowerCopy info.name ∧
      w.Belongs type info.id info.name

/-! ### When an event is handled well -/

/-- The backend has the right name, or an event about it waits. -/
def NameStored (w : World) (rest : List Event) (type : EntityType) (id : Id) (row : EntityRow) :
    Prop :=
  row.name ≠ [] ∧ (Settled (Event.unsettles type id) rest →
    Settled (Event.renames type id) rest → ∀ entity ∈ w.getEntity id, row.name = entity.name)

instance (w : World) (rest : List Event) (type : EntityType) (id : Id) (row : EntityRow) :
    Decidable (w.NameStored rest type id row) :=
  inferInstanceAs (Decidable (_ ∧ (_ → _ → ∀ entity ∈ w.getEntity id, _)))

/-- A puppet has an owner. -/
def OwnedBy (w : World) (puppet owner : Id) : Prop :=
  ∃ entity ∈ w.getEntity puppet, entity.type = .puppet ∧ entity.owner = owner

instance (w : World) (puppet owner : Id) : Decidable (w.OwnedBy puppet owner) :=
  inferInstanceAs (Decidable (∃ entity ∈ w.getEntity puppet, _))

/-- All puppets of a player are found, unless an event about them waits. -/
def FindsPuppets (w : World) (rest : List Event) (player : Id) : Prop :=
  ∀ entry ∈ w.entities, entry.2.type = .puppet → entry.2.owner = player →
    Settled (Event.unsettles .puppet entry.1) rest → entry.1 ∈ w.foundPuppets player

instance (w : World) (rest : List Event) (player : Id) : Decidable (w.FindsPuppets rest player) :=
  inferInstanceAs (Decidable (∀ entry ∈ w.entities, _ → _ → _ → _))

/-- There is no entry of an ID. -/
def NotThere (w : World) (type : EntityType) (id : Id) : Prop :=
  ∀ info ∈ w.registry.nameInfos type id.siteId, info.id ≠ id

instance (w : World) (type : EntityType) (id : Id) : Decidable (w.NotThere type id) :=
  inferInstanceAs (Decidable (∀ info ∈ w.registry.nameInfos type id.siteId, _))

/-- When the first event is handled, while the `rest` waits, it leads to what it should. -/
def AllowedEvent (w : World) (rest : List Event) : Event → Prop
  | .connected player => ∀ row ∈ w.getEntityMetadata player,
    w.NotThere .player player ∧ w.NameStored rest .player player row ∧
      (∀ puppet ∈ w.foundPuppets player, w.NotThere .puppet puppet ∧
        (∀ row ∈ w.getEntityMetadata puppet, w.NameStored rest .puppet puppet row) ∧
        (Settled (Event.unsettles .puppet puppet) rest → w.OwnedBy puppet player)) ∧
      w.FindsPuppets rest player
  | .disconnected player =>
    (∀ puppet ∈ w.foundPuppets player, Settled (Event.unsettles .puppet puppet) rest →
      ∀ entity ∈ w.getEntity puppet, entity.type = .puppet →
        entity.owner = player ∨ entity.owner ∉ w.onlinePlayers) ∧ w.FindsPuppets rest player
  | .created id type => ∀ entity ∈ w.getEntity id, entity.type = type ∧ w.NotThere .puppet id ∧
    (Settled (Event.unsettles .puppet id) rest →
      entity.owner ∈ w.onlinePlayers ∧ entity.name ≠ [])
  | .deleted _ _ => True
  | .updated id type _ owner => ∀ entity ∈ w.getEntity id, entity.type = type ∧ entity.name ≠ [] ∧
    (owner = true → type = .player → Settled (Event.unsettles .player id) rest →
      (entity.owner ∈ w.onlinePlayers ↔ id ∈ w.onlinePlayers))

instance (w : World) (rest : List Event) : DecidablePred (w.AllowedEvent rest) := fun event =>
  match event with
  | .connected player => inferInstanceAs (Decidable (∀ row ∈ w.getEntityMetadata player, _ ∧ _ ∧
      (∀ puppet ∈ w.foundPuppets player, _ ∧ (∀ row ∈ w.getEntityMetadata puppet, _) ∧
        (_ → _)) ∧ _))
  | .disconnected player => inferInstanceAs (Decidable ((∀ puppet ∈ w.foundPuppets player, _ →
      ∀ entity ∈ w.getEntity puppet, _ → _) ∧ _))
  | .created id type => inferInstanceAs (Decidable (∀ entity ∈ w.getEntity id, _ ∧ _ ∧ (_ → _)))
  | .deleted _ _ => inferInstanceAs (Decidable True)
  | .updated id type _ owner => inferInstanceAs (Decidable (∀ entity ∈ w.getEntity id,
      _ ∧ _ ∧ (_ → _ → _ → _)))

/-- What is done outside is allowed, and so is an event that leads to what it should. -/
def Allowed (w : World) : Action → Prop
  | .process => match w.queue with
    | event :: rest => w.AllowedEvent rest event
    | [] => True
  | _ => True

instance (w : World) : DecidablePred w.Allowed := fun action =>
  match action with
  | .process => match hqueue : w.queue with
    | event :: rest => decidable_of_iff (w.AllowedEvent rest event) (by rw [Allowed, hqueue])
    | [] => isTrue (by rw [Allowed, hqueue]; trivial)
  | .newEntity _ _ | .update _ _ _ | .updateDeleted _ _ _ | .deleteEntity _ | .commit _
  | .authorizeClient _ | .removeSession _ => isTrue trivial

/-! ### The invariant -/

/-- Where no event about it waits, an entry is right; and the last event that waits is. -/
structure Invariant (w : World) : Prop where
  wellFormed : w.registry.WellFormed
  sorted : SortedMap.Sorted w.backend
  sites : ∀ id row, w.getEntityMetadata id = some row → id.siteId ≠ 0
  eventSites : ∀ event ∈ w.queue, event.id.siteId ≠ 0
  subscribed : ∀ event ∈ w.queue, event.subscribed = true
  stored : ∀ id entity, w.getEntity id = some entity → (w.getEntityMetadata id).isSome = true
  sessionsLive : ∀ id ∈ w.sessions, ∃ entity, w.getEntity id = some entity ∧ entity.type = .player
  connected : ∀ id, lastAbout (Event.isConnection id) w.queue = some (.connected id) →
    id ∈ w.sessions
  disconnected : ∀ id, lastAbout (Event.isConnection id) w.queue = some (.disconnected id) →
    id ∉ w.sessions
  online : ∀ id, Settled (Event.isConnection id) w.queue →
    (id ∈ w.onlinePlayers ↔ id ∈ w.sessions)
  created : ∀ id type, lastAbout (Event.unsettles .puppet id) w.queue = some (.created id type) →
    ∃ owner, w.OwnedBy id owner
  deleted : ∀ id type, lastAbout (Event.unsettles .puppet id) w.queue = some (.deleted id type) →
    ∀ owner, ¬ w.OwnedBy id owner
  puppets : ∀ id, Settled (Event.unsettles .puppet id) w.queue →
    ((∃ name, w.registry.Listed .puppet id name) ↔ ∃ owner ∈ w.onlinePlayers, w.OwnedBy id owner)
  players : ∀ id, Settled (Event.unsettles .player id) w.queue →
    ((∃ name, w.registry.Listed .player id name) ↔ id ∈ w.sessions)
  names : ∀ type, HasNames type → ∀ id, Settled (Event.unsettles type id) w.queue →
    Settled (Event.renames type id) w.queue → ∀ name, w.registry.Listed type id name →
      ∀ entity, w.getEntity id = some entity → entity.type = type → entity.name = name

variable {w w' : World}

/-- When no event waits, the registry is right. -/
theorem Invariant.agrees (h : w.Invariant) (hqueue : w.queue = []) : w.Agrees := by
  have hsettled : ∀ about : Event → Bool, Settled about w.queue := by
    intro about
    rw [hqueue]
    exact settled_nil
  have honline : ∀ id, id ∈ w.onlinePlayers ↔ id ∈ w.sessions := fun id => h.online id (hsettled _)
  refine ⟨fun type _ site => h.wellFormed.distinct type site, ?_⟩
  intro type htype site info
  rw [h.wellFormed.mem_iff]
  refine and_congr_right fun _ => and_congr_right fun _ => ?_
  have hname := h.names type htype info.id (hsettled _) (hsettled _)
  constructor
  · intro hlisted
    rcases htype with rfl | rfl
    · have hsession := (h.players info.id (hsettled _)).mp ⟨info.name, hlisted⟩
      obtain ⟨entity, hget, hplayer⟩ := h.sessionsLive info.id hsession
      exact ⟨entity, hget, hplayer, hname info.name hlisted entity hget hplayer,
        .inl ⟨rfl, hsession⟩⟩
    · obtain ⟨owner, howner, entity, hget, hpuppet, rfl⟩ :=
        (h.puppets info.id (hsettled _)).mp ⟨info.name, hlisted⟩
      exact ⟨entity, hget, hpuppet, hname info.name hlisted entity hget hpuppet,
        .inr ⟨rfl, (honline _).mp howner⟩⟩
  · rintro ⟨entity, hget, hentity, hentityName, hbelongs⟩
    have hexists : ∃ name, w.registry.Listed type info.id name := by
      rcases hbelongs with ⟨rfl, hsession⟩ | ⟨rfl, howner⟩
      · exact (h.players info.id (hsettled _)).mpr hsession
      · exact (h.puppets info.id (hsettled _)).mpr
          ⟨entity.owner, (honline _).mpr howner, entity, hget, hentity, rfl⟩
    obtain ⟨name, hlisted⟩ := hexists
    have heq := hname name hlisted entity hget hentity
    rwa [← hentityName, heq]

end World

end Mutgos.Useragent
