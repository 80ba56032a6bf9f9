import Mutgos.Useragent.OnlineNames

/-!
# What happens to those who have names

The database changes and players come and go.  Events tell of it, and only what they are about
changes.

## Main results

* `World.Invariant.tells` — **what happens outside keeps the invariant.**
-/

namespace Mutgos.Useragent

open DbTypes Text Primitives PendingEvents Option

namespace World

variable {w w' : World}

/-! ### What happens outside -/

/-- Something happens outside, and an event may tell of it: only what the event is about
changes. -/
structure Tells (w w' : World) (event : Option Event) : Prop where
  queue : w'.queue = w.queue ++ event.toList
  registry : w'.registry = w.registry
  onlinePlayers : w'.onlinePlayers = w.onlinePlayers
  sorted : SortedMap.Sorted w'.backend
  sites : ∀ id row, w'.getEntityMetadata id = some row → id.siteId ≠ 0
  eventSite : ∀ e ∈ event, e.id.siteId ≠ 0
  subscribed : ∀ e ∈ event, e.subscribed = true
  stored : ∀ id entity, w'.getEntity id = some entity → (w'.getEntityMetadata id).isSome = true
  sessionsLive : ∀ id ∈ w'.sessions,
    ∃ entity, w'.getEntity id = some entity ∧ entity.type = .player
  sessions : ∀ id, event.any (Event.isConnection id) = false →
    (id ∈ w'.sessions ↔ id ∈ w.sessions)
  connected : ∀ id, event = some (.connected id) → id ∈ w'.sessions
  disconnected : ∀ id, event = some (.disconnected id) → id ∉ w'.sessions
  puppets : ∀ id, event.any (Event.unsettles .puppet id) = false →
    ∀ owner, w'.OwnedBy id owner ↔ w.OwnedBy id owner
  created : ∀ id type, event = some (.created id type) → ∃ owner, w'.OwnedBy id owner
  deleted : ∀ id type, event = some (.deleted id type) → ∀ owner, ¬ w'.OwnedBy id owner
  names : ∀ type, HasNames type → ∀ id, event.any (Event.unsettles type id) = false →
    event.any (Event.renames type id) = false → ∀ entity', w'.getEntity id = some entity' →
      entity'.type = type → (∃ entity, w.getEntity id = some entity ∧ entity.type = type ∧
        entity.name = entity'.name) ∨ w.getEntity id = none

/-- A session is a matter of the Player's name as well. -/
theorem unsettles_of_isConnection {id : Id} {event : Event} (h : event.isConnection id = true) :
    event.unsettles .player id = true := by
  cases event <;> simp_all [Event.isConnection, Event.unsettles]

/-- Where the event is not about a player, neither is it about its sessions. -/
theorem isConnection_eq_false {id : Id} {event : Option Event}
    (h : event.any (Event.unsettles .player id) = false) :
    event.any (Event.isConnection id) = false := by
  cases event with
  | none => rfl
  | some event =>
    by_contra hnot
    have htrue : event.isConnection id = true := by simpa using hnot
    rw [any_some, unsettles_of_isConnection htrue] at h
    cases h

/-- **What happens outside keeps the invariant.** -/
theorem Invariant.tells (h : w.Invariant) {event : Option Event} (ht : w.Tells w' event) :
    w'.Invariant where
  wellFormed := ht.registry ▸ h.wellFormed
  sorted := ht.sorted
  sites := ht.sites
  eventSites e he := by
    rw [ht.queue] at he
    rcases List.mem_append.mp he with he | he
    · exact h.eventSites e he
    · exact ht.eventSite e (mem_toList.mp he)
  subscribed e he := by
    rw [ht.queue] at he
    rcases List.mem_append.mp he with he | he
    · exact h.subscribed e he
    · exact ht.subscribed e (mem_toList.mp he)
  stored := ht.stored
  sessionsLive := ht.sessionsLive
  connected id hlast := by
    rw [ht.queue, lastAbout_append_toList] at hlast
    split at hlast
    · exact ht.connected id hlast
    · next hnot => exact (ht.sessions id (Bool.not_eq_true _ ▸ hnot)).mpr (h.connected id hlast)
  disconnected id hlast := by
    rw [ht.queue, lastAbout_append_toList] at hlast
    split at hlast
    · exact ht.disconnected id hlast
    · next hnot =>
      rw [ht.sessions id (Bool.not_eq_true _ ▸ hnot)]
      exact h.disconnected id hlast
  online id hsettled := by
    rw [ht.queue, settled_append_toList] at hsettled
    rw [ht.onlinePlayers, ht.sessions id hsettled.2]
    exact h.online id hsettled.1
  created id type hlast := by
    rw [ht.queue, lastAbout_append_toList] at hlast
    split at hlast
    · exact ht.created id type hlast
    · next hnot =>
      obtain ⟨owner, howner⟩ := h.created id type hlast
      exact ⟨owner, (ht.puppets id (Bool.not_eq_true _ ▸ hnot) owner).mpr howner⟩
  deleted id type hlast owner := by
    rw [ht.queue, lastAbout_append_toList] at hlast
    split at hlast
    · exact ht.deleted id type hlast owner
    · next hnot =>
      rw [ht.puppets id (Bool.not_eq_true _ ▸ hnot)]
      exact h.deleted id type hlast owner
  puppets id hsettled := by
    rw [ht.queue, settled_append_toList] at hsettled
    rw [ht.registry, ht.onlinePlayers, h.puppets id hsettled.1]
    refine exists_congr fun owner => and_congr_right fun _ => ?_
    exact (ht.puppets id hsettled.2 owner).symm
  players id hsettled := by
    rw [ht.queue, settled_append_toList] at hsettled
    rw [ht.registry, ht.sessions id (isConnection_eq_false hsettled.2)]
    exact h.players id hsettled.1
  names type htype id hsettled hrenames name hlisted entity' hget' htype' := by
    rw [ht.queue, settled_append_toList] at hsettled hrenames
    rw [ht.registry] at hlisted
    obtain ⟨entity, hget, hentity, hname⟩ | hnone :=
      ht.names type htype id hsettled.2 hrenames.2 entity' hget' htype'
    · rw [← hname]
      exact h.names type htype id hsettled.1 hrenames.1 name hlisted entity hget hentity
    · -- there is no entry of what has not been there
      exfalso
      rcases htype with rfl | rfl
      · have hsession := (h.players id hsettled.1).mp ⟨name, hlisted⟩
        obtain ⟨entity, hget, -⟩ := h.sessionsLive id hsession
        exact nomatch hget.symm.trans hnone
      · obtain ⟨owner, -, entity, hget, -⟩ := (h.puppets id hsettled.1).mp ⟨name, hlisted⟩
        exact nomatch hget.symm.trans hnone

/-! ### Each thing that happens outside -/

/-- The event, if the manager gets it. -/
def published (event : Event) : Option Event := if event.subscribed then some event else none

theorem queue_publishEvent (w : World) (event : Event) :
    (w.publishEvent event).queue = w.queue ++ (published event).toList := by
  unfold publishEvent published
  split
  · rfl
  · exact (List.append_nil _).symm

@[simp] theorem registry_publishEvent (w : World) (event : Event) :
    (w.publishEvent event).registry = w.registry := by unfold publishEvent; split <;> rfl

@[simp] theorem onlinePlayers_publishEvent (w : World) (event : Event) :
    (w.publishEvent event).onlinePlayers = w.onlinePlayers := by unfold publishEvent; split <;> rfl

@[simp] theorem backend_publishEvent (w : World) (event : Event) :
    (w.publishEvent event).backend = w.backend := by unfold publishEvent; split <;> rfl

@[simp] theorem entities_publishEvent (w : World) (event : Event) :
    (w.publishEvent event).entities = w.entities := by unfold publishEvent; split <;> rfl

@[simp] theorem sessions_publishEvent (w : World) (event : Event) :
    (w.publishEvent event).sessions = w.sessions := by unfold publishEvent; split <;> rfl

@[simp] theorem getEntity_publishEvent (w : World) (event : Event) (id : Id) :
    (w.publishEvent event).getEntity id = w.getEntity id := by
  rw [getEntity, entities_publishEvent, getEntity]

@[simp] theorem getEntityMetadata_publishEvent (w : World) (event : Event) (id : Id) :
    (w.publishEvent event).getEntityMetadata id = w.getEntityMetadata id := by
  rw [getEntityMetadata, backend_publishEvent, getEntityMetadata]

theorem mem_published {event e : Event} (h : e ∈ published event) : e = event := by
  unfold published at h
  split at h
  · exact (Option.some.inj h).symm
  · cases h

theorem subscribed_of_mem_published {event e : Event} (h : e ∈ published event) :
    e.subscribed = true := by
  obtain rfl := mem_published h
  by_contra hnot
  rw [published, if_neg hnot] at h
  cases h

/-- Whose puppet it is depends on the Entity. -/
theorem ownedBy_congr {id : Id} (h : w'.getEntity id = w.getEntity id) (owner : Id) :
    w'.OwnedBy id owner ↔ w.OwnedBy id owner := by
  unfold OwnedBy
  rw [h]

/-- One Entity changes, or the manager hears of it. -/
structure EntityChange (w w' : World) (id : Id) (event : Event) : Prop where
  id_eq : event.id = id
  entityEvent : ∀ player, event.isConnection player = false
  site : id.siteId ≠ 0
  queue : w'.queue = w.queue ++ (published event).toList
  registry : w'.registry = w.registry
  onlinePlayers : w'.onlinePlayers = w.onlinePlayers
  sessions : w'.sessions = w.sessions
  sorted : SortedMap.Sorted w'.backend
  row : ∀ id', id' ≠ id → w'.getEntityMetadata id' = w.getEntityMetadata id'
  entity : ∀ id', id' ≠ id → w'.getEntity id' = w.getEntity id'
  stored : (w'.getEntityMetadata id).isSome = true
  live : id ∈ w.sessions → ∃ entity, w'.getEntity id = some entity ∧ entity.type = .player
  puppet : (published event).any (Event.unsettles .puppet id) = false →
    ∀ owner, w'.OwnedBy id owner ↔ w.OwnedBy id owner
  created : ∀ type, published event = some (.created id type) → ∃ owner, w'.OwnedBy id owner
  deleted : ∀ type, published event = some (.deleted id type) → ∀ owner, ¬ w'.OwnedBy id owner
  name : ∀ type, HasNames type → (published event).any (Event.unsettles type id) = false →
    (published event).any (Event.renames type id) = false → ∀ entity',
      w'.getEntity id = some entity' → entity'.type = type →
        (∃ entity, w.getEntity id = some entity ∧ entity.type = type ∧
          entity.name = entity'.name) ∨ w.getEntity id = none

theorem EntityChange.tells {id : Id} {event : Event} (h : w.Invariant)
    (hc : w.EntityChange w' id event) : w.Tells w' (published event) where
  queue := hc.queue
  registry := hc.registry
  onlinePlayers := hc.onlinePlayers
  sorted := hc.sorted
  sites id' row hrow := by
    by_cases heq : id' = id
    · exact heq ▸ hc.site
    · rw [hc.row id' heq] at hrow
      exact h.sites id' row hrow
  eventSite e he := by
    rw [mem_published he, hc.id_eq]
    exact hc.site
  subscribed e he := subscribed_of_mem_published he
  stored id' entity hget := by
    by_cases heq : id' = id
    · exact heq ▸ hc.stored
    · rw [hc.entity id' heq] at hget
      rw [hc.row id' heq]
      exact h.stored id' entity hget
  sessionsLive id' hsession := by
    rw [hc.sessions] at hsession
    by_cases heq : id' = id
    · subst heq
      exact hc.live hsession
    · rw [hc.entity id' heq]
      exact h.sessionsLive id' hsession
  sessions id' _ := by rw [hc.sessions]
  connected id' heq := by
    have hkind := hc.entityEvent id'
    rw [← mem_published heq, Event.isConnection, decide_eq_false_iff_not] at hkind
    exact absurd rfl hkind
  disconnected id' heq := by
    have hkind := hc.entityEvent id'
    rw [← mem_published heq, Event.isConnection, decide_eq_false_iff_not] at hkind
    exact absurd rfl hkind
  puppets id' hnot owner := by
    by_cases heq : id' = id
    · subst heq
      exact hc.puppet hnot owner
    · exact ownedBy_congr (hc.entity id' heq) owner
  created id' type hevent := by
    obtain rfl : id' = id := (congrArg Event.id (mem_published hevent)).trans hc.id_eq
    exact hc.created type hevent
  deleted id' type hevent := by
    obtain rfl : id' = id := (congrArg Event.id (mem_published hevent)).trans hc.id_eq
    exact hc.deleted type hevent
  names type htype id' hsettled hrenames entity' hget' hentity' := by
    by_cases heq : id' = id
    · subst heq
      exact hc.name type htype hsettled hrenames entity' hget' hentity'
    · rw [hc.entity id' heq] at hget'
      exact .inl ⟨entity', hget', hentity', rfl⟩

/-- Whose puppet it is, where the Entity is known. -/
theorem ownedBy_of_getEntity {id : Id} {entity : EntityInfo} (h : w.getEntity id = some entity)
    (owner : Id) : w.OwnedBy id owner ↔ entity.type = .puppet ∧ entity.owner = owner := by
  unfold OwnedBy
  rw [h]
  simp

theorem not_ownedBy_of_getEntity {id : Id} (h : w.getEntity id = none) (owner : Id) :
    ¬ w.OwnedBy id owner := by
  unfold OwnedBy
  rw [h]
  simp

/-- An event about a puppet unsettles it. -/
theorem published_created (id : Id) (type : EntityType) :
    (published (.created id type)).any (Event.unsettles .puppet id) = decide (type = .puppet) := by
  unfold published
  by_cases htype : type = .puppet <;> simp [Event.subscribed, Event.unsettles, htype]

theorem published_deleted (id : Id) (type : EntityType) :
    (published (.deleted id type)).any (Event.unsettles .puppet id) = decide (type = .puppet) := by
  unfold published
  by_cases htype : type = .puppet <;> simp [Event.subscribed, Event.unsettles, htype]

theorem getEntity_insert (w : World) (id id' : Id) (entity : EntityInfo)
    (backend : List (Id × EntityRow)) :
    ({ w with entities := SortedMap.insert id entity w.entities, backend := backend } :
      World).getEntity id' = if id' = id then some entity else w.getEntity id' :=
  SortedMap.find_insert id id' entity w.entities

theorem getEntityMetadata_insert (w : World) (id id' : Id) (row : EntityRow)
    (entities : List (Id × EntityInfo)) :
    ({ w with entities := entities, backend := SortedMap.insert id row w.backend } :
      World).getEntityMetadata id' = if id' = id then some row else w.getEntityMetadata id' :=
  SortedMap.find_insert id id' row w.backend

theorem entityChange_newEntity (h : w.Invariant) {id : Id} (entity : EntityInfo)
    (hsite : id.siteId ≠ 0) (hget : w.getEntity id = none) :
    w.EntityChange ({ w with
        entities := SortedMap.insert id entity w.entities
        backend := SortedMap.insert id entity.row w.backend }.publishEvent
          (.created id entity.type)) id (.created id entity.type) := by
  generalize hw' : ({ w with
        entities := SortedMap.insert id entity w.entities
        backend := SortedMap.insert id entity.row w.backend }.publishEvent
          (.created id entity.type) : World) = w'
  have hnew : ∀ id', w'.getEntity id' = if id' = id then some entity else w.getEntity id' := by
    intro id'
    rw [← hw', getEntity_publishEvent, getEntity_insert]
  have hrow : ∀ id', w'.getEntityMetadata id' =
      if id' = id then some entity.row else w.getEntityMetadata id' := by
    intro id'
    rw [← hw', getEntityMetadata_publishEvent, getEntityMetadata_insert]
  have hself : w'.getEntity id = some entity := (hnew id).trans (if_pos rfl)
  exact {
    id_eq := rfl
    entityEvent := fun _ => rfl
    site := hsite
    queue := by rw [← hw', queue_publishEvent]
    registry := by rw [← hw', registry_publishEvent]
    onlinePlayers := by rw [← hw', onlinePlayers_publishEvent]
    sessions := by rw [← hw', sessions_publishEvent]
    sorted := by
      rw [← hw', backend_publishEvent]
      exact h.sorted.insert id entity.row
    row := fun id' hne => (hrow id').trans (if_neg hne)
    entity := fun id' hne => (hnew id').trans (if_neg hne)
    stored := by rw [hrow, if_pos rfl, isSome_some]
    live := fun hsession => by
      obtain ⟨old, hold, -⟩ := h.sessionsLive id hsession
      exact nomatch hold.symm.trans hget
    puppet := fun hnot owner => by
      rw [published_created, decide_eq_false_iff_not] at hnot
      rw [ownedBy_of_getEntity hself]
      exact iff_of_false (fun howned => hnot howned.1) (not_ownedBy_of_getEntity hget owner)
    created := fun type hevent => by
      have hsub := subscribed_of_mem_published hevent
      obtain ⟨-, rfl⟩ := Event.created.inj (mem_published hevent)
      exact ⟨entity.owner, (ownedBy_of_getEntity hself _).mpr ⟨of_decide_eq_true hsub, rfl⟩⟩
    deleted := fun type hevent => nomatch mem_published hevent
    name := fun _ _ _ _ _ _ _ => .inr hget }

theorem entityChange_deleteEntity (h : w.Invariant) {id : Id} {entity : EntityInfo}
    (hget : w.getEntity id = some entity) (hplayer : ¬ (entity.type = .player ∧ id ∈ w.sessions)) :
    w.EntityChange ({ w with entities := SortedMap.erase id w.entities }.publishEvent
        (.deleted id entity.type)) id (.deleted id entity.type) := by
  generalize hw' : ({ w with entities := SortedMap.erase id w.entities }.publishEvent
        (.deleted id entity.type) : World) = w'
  have hgone : ∀ id', w'.getEntity id' = if id' = id then none else w.getEntity id' := by
    intro id'
    rw [← hw', getEntity_publishEvent]
    exact SortedMap.find_erase id id' w.entities
  have hrow : ∀ id', w'.getEntityMetadata id' = w.getEntityMetadata id' := by
    intro id'
    rw [← hw', getEntityMetadata_publishEvent]
    rfl
  have hself : w'.getEntity id = none := (hgone id).trans (if_pos rfl)
  have hstored := h.stored id entity hget
  obtain ⟨row, hmeta⟩ := isSome_iff_exists.mp hstored
  exact {
    id_eq := rfl
    entityEvent := fun _ => rfl
    site := h.sites id row hmeta
    queue := by rw [← hw', queue_publishEvent]
    registry := by rw [← hw', registry_publishEvent]
    onlinePlayers := by rw [← hw', onlinePlayers_publishEvent]
    sessions := by rw [← hw', sessions_publishEvent]
    sorted := by
      rw [← hw', backend_publishEvent]
      exact h.sorted
    row := fun id' _ => hrow id'
    entity := fun id' hne => (hgone id').trans (if_neg hne)
    stored := by
      rw [hrow]
      exact hstored
    live := fun hsession => by
      obtain ⟨old, hold, htype⟩ := h.sessionsLive id hsession
      obtain rfl := Option.some.inj (hold.symm.trans hget)
      exact absurd ⟨htype, hsession⟩ hplayer
    puppet := fun hnot owner => by
      rw [published_deleted, decide_eq_false_iff_not] at hnot
      rw [ownedBy_of_getEntity hget]
      exact iff_of_false (not_ownedBy_of_getEntity hself owner) fun howned => hnot howned.1
    created := fun type hevent => nomatch mem_published hevent
    deleted := fun type _ => not_ownedBy_of_getEntity hself
    name := fun _ _ _ _ _ hget' _ => nomatch hself.symm.trans hget' }

/-- The manager hears of what it has subscribed to. -/
theorem published_updated_unsettles {type : EntityType} (htype : HasNames type) (id : Id)
    (name owner : Bool) :
    (published (.updated id type name owner)).any (Event.unsettles type id) = owner := by
  unfold published
  cases name <;> cases owner <;> simp [Event.subscribed, Event.unsettles, htype]

theorem published_updated_renames {type : EntityType} (htype : HasNames type) (id : Id)
    (name owner : Bool) :
    (published (.updated id type name owner)).any (Event.renames type id) = name := by
  unfold published
  cases name <;> cases owner <;> simp [Event.subscribed, Event.renames, htype]

theorem set_owner_eq {entity : EntityInfo} {owner : Option Id}
    (h : owner.any (· ≠ entity.owner) = false) (name : Option ByteString) :
    (set entity name owner).owner = entity.owner := by
  cases owner with
  | none => rfl
  | some owner => simpa [set] using h

theorem set_name_eq {entity : EntityInfo} {name : Option ByteString}
    (h : name.any (· ≠ []) = false) (owner : Option Id) :
    (set entity name owner).name = entity.name := by
  cases name with
  | none => rfl
  | some name =>
    obtain rfl : name = [] := by simpa using h
    rfl

section

variable (h : w.Invariant)
include h

theorem entityChange_update {id : Id} {entity : EntityInfo} (hget : w.getEntity id = some entity)
    (name : Option ByteString) (owner : Option Id) :
    w.EntityChange ({ w with
        entities := SortedMap.insert id (set entity name owner) w.entities }.publishEvent
          (setEvent id entity name owner)) id (setEvent id entity name owner) := by
  generalize hw' : ({ w with
        entities := SortedMap.insert id (set entity name owner) w.entities }.publishEvent
          (setEvent id entity name owner) : World) = w'
  have hnew : ∀ id', w'.getEntity id' =
      if id' = id then some (set entity name owner) else w.getEntity id' := by
    intro id'
    rw [← hw', getEntity_publishEvent, getEntity_insert]
  have hrow : ∀ id', w'.getEntityMetadata id' = w.getEntityMetadata id' := by
    intro id'
    rw [← hw', getEntityMetadata_publishEvent]
    rfl
  have hself : w'.getEntity id = some (set entity name owner) := (hnew id).trans (if_pos rfl)
  have hstored := h.stored id entity hget
  obtain ⟨row, hmeta⟩ := isSome_iff_exists.mp hstored
  exact {
    id_eq := rfl
    entityEvent := fun _ => rfl
    site := h.sites id row hmeta
    queue := by rw [← hw', queue_publishEvent]
    registry := by rw [← hw', registry_publishEvent]
    onlinePlayers := by rw [← hw', onlinePlayers_publishEvent]
    sessions := by rw [← hw', sessions_publishEvent]
    sorted := by
      rw [← hw', backend_publishEvent]
      exact h.sorted
    row := fun id' _ => hrow id'
    entity := fun id' hne => (hnew id').trans (if_neg hne)
    stored := by
      rw [hrow]
      exact hstored
    live := fun hsession => by
      obtain ⟨old, hold, htype⟩ := h.sessionsLive id hsession
      obtain rfl := Option.some.inj (hold.symm.trans hget)
      exact ⟨_, hself, htype⟩
    puppet := fun hnot owner' => by
      rw [ownedBy_of_getEntity hself, ownedBy_of_getEntity hget]
      refine and_congr_right fun htype => ?_
      have htype' : entity.type = .puppet := htype
      rw [← htype', setEvent, published_updated_unsettles (.inr htype')] at hnot
      rw [set_owner_eq hnot]
    created := fun type hevent => nomatch mem_published hevent
    deleted := fun type hevent => nomatch mem_published hevent
    name := fun type htype _ hrenames entity' hget' hentity' => by
      obtain rfl := Option.some.inj (hself.symm.trans hget')
      have hentity : entity.type = type := hentity'
      subst hentity
      rw [setEvent, published_updated_renames htype] at hrenames
      exact .inl ⟨entity, hget, rfl, (set_name_eq hrenames owner).symm⟩ }

theorem entityChange_updateDeleted {id : Id} {row : EntityRow} (hget : w.getEntity id = none)
    (hmeta : w.getEntityMetadata id = some row) (name owner : Bool) :
    w.EntityChange (w.publishEvent (.updated id row.type name owner)) id
      (.updated id row.type name owner) where
  id_eq := rfl
  entityEvent _ := rfl
  site := h.sites id row hmeta
  queue := queue_publishEvent _ _
  registry := registry_publishEvent _ _
  onlinePlayers := onlinePlayers_publishEvent _ _
  sessions := sessions_publishEvent _ _
  sorted := by
    rw [backend_publishEvent]
    exact h.sorted
  row id' _ := getEntityMetadata_publishEvent w _ id'
  entity id' _ := getEntity_publishEvent w _ id'
  stored := by rw [getEntityMetadata_publishEvent, hmeta, isSome_some]
  live hsession := by
    obtain ⟨entity, hlive, -⟩ := h.sessionsLive id hsession
    exact nomatch hlive.symm.trans hget
  puppet _ := ownedBy_congr (getEntity_publishEvent w _ id)
  created type hevent := nomatch mem_published hevent
  deleted type hevent := nomatch mem_published hevent
  name _ _ _ _ _ _ _ := .inr hget

/-- The backend is not read again before an event is handled. -/
theorem tells_commit (id : Id) {backend : List (Id × EntityRow)}
    (hsorted : SortedMap.Sorted backend)
    (hrow : ∀ id', SortedMap.find id' backend = if id' = id then (w.getEntity id).map EntityInfo.row
      else w.getEntityMetadata id') : w.Tells { w with backend := backend } none where
  queue := (List.append_nil _).symm
  registry := rfl
  onlinePlayers := rfl
  sorted := hsorted
  sites id' row hmeta := by
    have hfind := (hrow id').symm.trans hmeta
    split at hfind
    · next heq =>
      subst heq
      obtain ⟨entity, hget, -⟩ := map_eq_some_iff.mp hfind
      obtain ⟨old, hold⟩ := isSome_iff_exists.mp (h.stored id' entity hget)
      exact h.sites id' old hold
    · exact h.sites id' row hfind
  eventSite := nofun
  subscribed := nofun
  stored id' entity hget := by
    have hget' : w.getEntity id' = some entity := hget
    have hfind : World.getEntityMetadata { w with backend := backend } id' = _ := hrow id'
    rw [hfind]
    split
    · next heq =>
      subst heq
      rw [hget']
      rfl
    · exact h.stored id' entity hget'
  sessionsLive := h.sessionsLive
  sessions _ _ := Iff.rfl
  connected := nofun
  disconnected := nofun
  puppets _ _ owner := Iff.rfl
  created := nofun
  deleted := nofun
  names type _ id' _ _ entity hget hentity := .inl ⟨entity, hget, hentity, rfl⟩

/-- A session comes or goes. -/
theorem tells_session {event : Event} {player : Id}
    (hevent : event = .connected player ∨ event = .disconnected player) (hsite : player.siteId ≠ 0)
    {sessions : List Id} (hother : ∀ id, id ≠ player → (id ∈ sessions ↔ id ∈ w.sessions))
    (hself : player ∈ sessions ↔ event = .connected player)
    (hlive : player ∈ sessions → ∃ entity, w.getEntity player = some entity ∧
      entity.type = .player) :
    w.Tells ({ w with sessions := sessions }.publishEvent event) (some event) where
  queue := by rcases hevent with rfl | rfl <;> rfl
  registry := registry_publishEvent _ _
  onlinePlayers := onlinePlayers_publishEvent _ _
  sorted := by
    rw [backend_publishEvent]
    exact h.sorted
  sites id row hmeta := by
    rw [getEntityMetadata_publishEvent] at hmeta
    exact h.sites id row hmeta
  eventSite e he := by
    obtain rfl := Option.some.inj he
    rcases hevent with rfl | rfl
    · exact hsite
    · exact hsite
  subscribed e he := by
    obtain rfl := Option.some.inj he
    rcases hevent with rfl | rfl
    · rfl
    · rfl
  stored id entity hget := by
    rw [getEntity_publishEvent] at hget
    rw [getEntityMetadata_publishEvent]
    exact h.stored id entity hget
  sessionsLive id hsession := by
    rw [sessions_publishEvent] at hsession
    rw [getEntity_publishEvent]
    by_cases heq : id = player
    · subst heq
      exact hlive hsession
    · exact h.sessionsLive id ((hother id heq).mp hsession)
  sessions id hnot := by
    rw [sessions_publishEvent]
    refine hother id ?_
    rintro rfl
    rcases hevent with rfl | rfl <;> simp [Event.isConnection] at hnot
  connected id heq := by
    obtain rfl := Option.some.inj heq
    rw [sessions_publishEvent]
    rcases hevent with heq | heq
    · cases heq
      exact hself.mpr rfl
    · cases heq
  disconnected id heq := by
    obtain rfl := Option.some.inj heq
    rw [sessions_publishEvent]
    rcases hevent with heq | heq
    · cases heq
    · cases heq
      exact fun hsession => nomatch hself.mp hsession
  puppets id _ := ownedBy_congr (getEntity_publishEvent _ _ id)
  created id type heq := by
    rcases hevent with rfl | rfl
    · cases heq
    · cases heq
  deleted id type heq := by
    rcases hevent with rfl | rfl
    · cases heq
    · cases heq
  names type _ id _ _ entity hget hentity := by
    rw [getEntity_publishEvent] at hget
    exact .inl ⟨entity, hget, hentity, rfl⟩

/-- Who is online has an ID in the database. -/
theorem Invariant.site_ne_zero {id : Id} {entity : EntityInfo}
    (hget : w.getEntity id = some entity) : id.siteId ≠ 0 := by
  obtain ⟨row, hmeta⟩ := isSome_iff_exists.mp (h.stored id entity hget)
  exact h.sites id row hmeta

theorem Invariant.removeSession {player : Id} (hsession : player ∈ w.sessions) :
    (w.removeSession player).Invariant := by
  obtain ⟨entity, hget, -⟩ := h.sessionsLive player hsession
  have hgone : player ∉ w.sessions.filter (· ≠ player) := by simp
  refine h.tells (tells_session h (.inr rfl) (h.site_ne_zero hget) ?_ ?_ ?_)
  · intro id hne
    simp [hne]
  · exact iff_of_false hgone nofun
  · exact fun hmem => absurd hmem hgone

theorem Invariant.addSession {player : Id} {entity : EntityInfo}
    (hget : w.getEntity player = some entity) (hplayer : entity.type = .player) :
    (w.addSession player).Invariant := by
  refine h.tells (tells_session h (.inl rfl) (h.site_ne_zero hget) ?_ ?_ ?_)
  · intro id hne
    rw [List.mem_insert_iff]
    exact or_iff_right hne
  · exact iff_of_true (List.mem_insert_self) rfl
  · exact fun _ => ⟨entity, hget, hplayer⟩

end

end World

end Mutgos.Useragent
