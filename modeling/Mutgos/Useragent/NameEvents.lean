import Mutgos.Lib.TransitionSystem
import Mutgos.Useragent.NameChanges

/-!
# Events about names

When an event is handled, what it is about becomes right, or another event about it waits.  So
the registry is right whenever none waits, in each run in which every event is allowed.  A puppet
that is created is added without a look at its owner, and that is not.

## Main results

* `World.Invariant.processExecute` — **an event is handled.**
* `World.agrees_of_steps` — **in a run in which each event is allowed, the registry is right
  whenever no event waits.**
-/

namespace Mutgos.Useragent

open DbTypes Text Primitives PendingEvents NameRegistry List

namespace World

variable {w w' : World}

/-! ### An event is handled -/

/-- An event is handled: what it is about has to be right, unless another such event waits. -/
theorem Invariant.handled (h : w.Invariant) {event : Event} {rest : List Event}
    (hqueue : w.queue = event :: rest) {registry : NameRegistry} {onlinePlayers : List Id}
    (hwf : registry.WellFormed)
    (honline : ∀ id, Settled (Event.isConnection id) rest →
      (id ∈ onlinePlayers ↔ id ∈ w.sessions))
    (hpuppets : ∀ id, Settled (Event.unsettles .puppet id) rest →
      ((∃ name, registry.Listed .puppet id name) ↔ ∃ owner ∈ onlinePlayers, w.OwnedBy id owner))
    (hplayers : ∀ id, Settled (Event.unsettles .player id) rest →
      ((∃ name, registry.Listed .player id name) ↔ id ∈ w.sessions))
    (hnames : ∀ type, HasNames type → ∀ id, Settled (Event.unsettles type id) rest →
      Settled (Event.renames type id) rest → ∀ name, registry.Listed type id name →
        ∀ entity, w.getEntity id = some entity → entity.type = type → entity.name = name) :
    Invariant { w with queue := rest, registry := registry, onlinePlayers := onlinePlayers } where
  wellFormed := hwf
  sorted := h.sorted
  sites := h.sites
  eventSites e he := h.eventSites e (hqueue ▸ mem_cons_of_mem event he)
  subscribed e he := h.subscribed e (hqueue ▸ mem_cons_of_mem event he)
  stored := h.stored
  sessionsLive := h.sessionsLive
  connected id hlast := h.connected id (hqueue ▸ lastAbout_cons_of_eq_some hlast)
  disconnected id hlast := h.disconnected id (hqueue ▸ lastAbout_cons_of_eq_some hlast)
  online := honline
  created id type hlast := h.created id type (hqueue ▸ lastAbout_cons_of_eq_some hlast)
  deleted id type hlast := h.deleted id type (hqueue ▸ lastAbout_cons_of_eq_some hlast)
  puppets := hpuppets
  players := hplayers
  names := hnames

section Handled

variable {event : Event} {rest : List Event}

/-- What the event is not about has been settled before. -/
theorem settled_queue (hqueue : w.queue = event :: rest) {about : Event → Bool}
    (hnot : about event = false) (hrest : Settled about rest) : Settled about w.queue := by
  rw [hqueue]
  exact settled_cons.mpr ⟨hnot, hrest⟩

/-- What the event is about: it is the last one. -/
theorem last_queue (hqueue : w.queue = event :: rest) {about : Event → Bool}
    (habout : about event = true) (hrest : Settled about rest) :
    lastAbout about w.queue = some event := by
  rw [hqueue]
  exact lastAbout_cons_of_settled hrest habout

variable {type type' : EntityType} {player : Id}

theorem NotThere.not_listed {id : Id} (h : w.NotThere type id) (name : ByteString) :
    ¬ w.registry.Listed type id name := fun hlisted => h _ hlisted rfl

theorem isDefault_of_site {id : Id} (h : id.siteId ≠ 0) : id.isDefault = false := by
  simp [Id.isDefault, h]

/-- `ENTITY_DELETED` -/
theorem Invariant.processDeleted {id : Id} (h : w.Invariant)
    (hqueue : w.queue = .deleted id type :: rest) :
    ({ w with queue := rest }.processExecute (.deleted id type)).Invariant := by
  have hhead : Event.deleted id type ∈ w.queue := hqueue ▸ mem_cons_self
  have hid := isDefault_of_site (h.eventSites _ hhead)
  obtain rfl : type = .puppet := of_decide_eq_true (h.subscribed _ hhead)
  have hlisted : ∀ type, HasNames type → ∀ id' name,
      (w.registry.removeEntity id .puppet).1.Listed type id' name ↔
        w.registry.Listed type id' name ∧ ¬ (type = .puppet ∧ id' = id) :=
    fun _ htype => listed_removeEntity h.wellFormed hid (.inr rfl) htype
  refine h.handled hqueue (h.wellFormed.removeEntity id .puppet) ?_ ?_ ?_ ?_
  · intro id' hrest
    exact h.online id' (settled_queue hqueue rfl hrest)
  · intro id' hrest
    simp only [hlisted _ (.inr rfl)]
    by_cases heq : id' = id
    · subst heq
      have hlast := last_queue hqueue (by simp [Event.unsettles]) hrest
      have hnot := h.deleted id' .puppet hlast
      simp [hnot]
    · have hother : Event.unsettles .puppet id' (.deleted id .puppet) = false := by
        simp [Event.unsettles, Ne.symm heq]
      simp only [heq, and_false, not_false_eq_true, and_true]
      exact h.puppets id' (settled_queue hqueue hother hrest)
  · intro id' hrest
    simp only [hlisted _ (.inl rfl), reduceCtorEq, false_and, not_false_eq_true, and_true]
    exact h.players id' (settled_queue hqueue rfl hrest)
  · intro type htype id' hrest hrenames name hname
    rw [hlisted type htype] at hname
    have hother : Event.unsettles type id' (.deleted id .puppet) = false := by
      by_contra hnot
      have hsame : EntityType.puppet = type ∧ id = id' := by simpa [Event.unsettles] using hnot
      exact hname.2 ⟨hsame.1.symm, hsame.2.symm⟩
    exact h.names type htype id' (settled_queue hqueue hother hrest)
      (settled_queue hqueue rfl hrenames) name hname.1

/-- `ENTITY_CREATED` -/
theorem Invariant.processCreated {id : Id} (h : w.Invariant)
    (hqueue : w.queue = .created id type :: rest)
    (hallowed : w.AllowedEvent rest (.created id type)) :
    ({ w with queue := rest }.processExecute (.created id type)).Invariant := by
  have hhead : Event.created id type ∈ w.queue := hqueue ▸ mem_cons_self
  have hid := isDefault_of_site (h.eventSites _ hhead)
  obtain rfl : type = .puppet := of_decide_eq_true (h.subscribed _ hhead)
  have hother : ∀ type id', ¬ (type = .puppet ∧ id' = id) →
      Event.unsettles type id' (.created id .puppet) = false := by
    rintro type id' hne
    by_contra hnot
    have hsame : EntityType.puppet = type ∧ id = id' := by simpa [Event.unsettles] using hnot
    exact hne ⟨hsame.1.symm, hsame.2.symm⟩
  have hexists : ∀ hrest : Settled (Event.unsettles .puppet id) rest, ∃ owner, w.OwnedBy id owner :=
    fun hrest => h.created id .puppet (last_queue hqueue (by simp [Event.unsettles]) hrest)
  cases hget : w.getEntity id with
  | none =>
    -- it has been deleted, and another event says so
    have hresult : ({ w with queue := rest } : World).processExecute (.created id .puppet) =
        { w with queue := rest } := by
      have hget' : ({ w with queue := rest } : World).getEntity id = none := hget
      simp only [processExecute, processEntityEvent, hget']
    rw [hresult]
    have hgone : ∀ id', Settled (Event.unsettles .puppet id') rest → id' ≠ id := by
      rintro id' hrest rfl
      obtain ⟨owner, howner⟩ := hexists hrest
      exact not_ownedBy_of_getEntity hget owner howner
    refine h.handled hqueue h.wellFormed ?_ ?_ ?_ ?_
    · intro id' hrest
      exact h.online id' (settled_queue hqueue rfl hrest)
    · intro id' hrest
      exact h.puppets id'
        (settled_queue hqueue (hother _ _ fun hsame => hgone id' hrest hsame.2) hrest)
    · intro id' hrest
      exact h.players id' (settled_queue hqueue rfl hrest)
    · intro type htype id' hrest hrenames
      refine h.names type htype id' (settled_queue hqueue (hother _ _ ?_) hrest)
        (settled_queue hqueue rfl hrenames)
      rintro ⟨rfl, rfl⟩
      exact hgone id' hrest rfl
  | some entity =>
    obtain ⟨htype, hnew, hright⟩ := hallowed entity hget
    have hresult : ({ w with queue := rest } : World).processExecute (.created id .puppet) =
        { w with
          queue := rest
          registry := (w.registry.addEntity ⟨entity.name, id, .puppet⟩).1 } := by
      have hget' : ({ w with queue := rest } : World).getEntity id = some entity := hget
      simp only [processExecute, processEntityEvent, hget']
    have hlisted : ∀ type, HasNames type → ∀ id' name,
        (w.registry.addEntity ⟨entity.name, id, .puppet⟩).1.Listed type id' name ↔
          w.registry.Listed type id' name ∨ _ :=
      fun _ htype => listed_addEntity htype
    rw [hresult]
    refine h.handled hqueue (h.wellFormed.addEntity hnew.not_listed) ?_ ?_ ?_ ?_
    · intro id' hrest
      exact h.online id' (settled_queue hqueue rfl hrest)
    · intro id' hrest
      by_cases heq : id' = id
      · subst heq
        obtain ⟨howner, hname⟩ := hright hrest
        refine iff_of_true ?_ ⟨entity.owner, howner, entity, hget, htype, rfl⟩
        exact ⟨entity.name, (hlisted _ (.inr rfl) _ _).mpr
          (.inr ⟨⟨hname, hid, .inr rfl⟩, rfl, rfl, rfl⟩)⟩
      · rw [← h.puppets id' (settled_queue hqueue (hother _ _ fun hsame => heq hsame.2) hrest)]
        refine exists_congr fun name => ?_
        rw [hlisted _ (.inr rfl)]
        exact or_iff_left fun hadded => heq hadded.2.2.1
    · intro id' hrest
      rw [← h.players id' (settled_queue hqueue rfl hrest)]
      refine exists_congr fun name => ?_
      rw [hlisted _ (.inl rfl)]
      exact or_iff_left fun hadded => by simp at hadded
    · intro type htype id' hrest hrenames name hname entity' hget' hentity'
      rcases (hlisted type htype id' name).mp hname with hold | ⟨-, rfl, rfl, rfl⟩
      · refine h.names type htype id' (settled_queue hqueue (hother _ _ ?_) hrest)
          (settled_queue hqueue rfl hrenames) name hold entity' hget' hentity'
        rintro ⟨rfl, rfl⟩
        exact hnew.not_listed name hold
      · obtain rfl := Option.some.inj (hget.symm.trans hget')
        rfl

/-! ### Sessions -/

/-- What is found is of the player's site. -/
theorem site_of_mem_foundPuppets {puppet : Id} (h : puppet ∈ w.foundPuppets player) :
    puppet.siteId = player.siteId := by
  unfold foundPuppets findInDb at h
  split at h
  · cases h
  · obtain ⟨row, hrow, rfl⟩ := mem_map.mp h
    have hkeys := (mem_filter.mp hrow).2
    simp only [Bool.and_eq_true, decide_eq_true_eq] at hkeys
    exact hkeys.1.1

/-- What is found has a row. -/
theorem Invariant.metadata_of_mem_foundPuppets (h : w.Invariant) {puppet : Id}
    (hfound : puppet ∈ w.foundPuppets player) : ∃ row, w.getEntityMetadata puppet = some row := by
  unfold foundPuppets findInDb at hfound
  split at hfound
  · cases hfound
  · obtain ⟨row, hrow, rfl⟩ := mem_map.mp hfound
    exact ⟨row.2, h.sorted.mem_iff.mp (mem_filter.mp hrow).1⟩

theorem Invariant.nodup_foundPuppets (h : w.Invariant) (player : Id) :
    (w.foundPuppets player).Nodup := by
  unfold foundPuppets findInDb
  split
  · exact nodup_nil
  · exact h.sorted.nodup.sublist (filter_sublist.map Prod.fst)

/-- A puppet of the player is found. -/
theorem FindsPuppets.mem (h : w.FindsPuppets rest player) {id : Id} (howned : w.OwnedBy id player)
    (hrest : Settled (Event.unsettles .puppet id) rest) : id ∈ w.foundPuppets player := by
  obtain ⟨entity, hget, htype, howner⟩ := howned
  exact h (id, entity) (SortedMap.mem_of_find hget) htype howner hrest

/-- A connection of one player is of no other. -/
theorem unsettles_connection {id : Id} {event : Event}
    (hevent : event = .connected player ∨ event = .disconnected player)
    (hne : ¬ (type = .player ∧ id = player)) : event.unsettles type id = false := by
  by_contra hnot
  refine hne ?_
  rcases hevent with rfl | rfl
  · have hsame : type = .player ∧ player = id := by simpa [Event.unsettles] using hnot
    exact ⟨hsame.1, hsame.2.symm⟩
  · have hsame : type = .player ∧ player = id := by simpa [Event.unsettles] using hnot
    exact ⟨hsame.1, hsame.2.symm⟩

theorem isConnection_connection {id : Id} {event : Event}
    (hevent : event = .connected player ∨ event = .disconnected player) :
    event.isConnection id = decide (player = id) := by
  rcases hevent with rfl | rfl
  · rfl
  · rfl

theorem settled_isConnection {id : Id} (h : Settled (Event.unsettles .player id) rest) :
    Settled (Event.isConnection id) rest := by
  intro e he
  by_contra hnot
  have htrue := unsettles_of_isConnection (Bool.not_eq_false _ ▸ hnot)
  exact absurd (htrue.symm.trans (h e he)) nofun

/-- `ACTION_DISCONNECTED` -/
theorem Invariant.processDisconnected (h : w.Invariant)
    (hqueue : w.queue = .disconnected player :: rest)
    (hallowed : w.AllowedEvent rest (.disconnected player)) :
    ({ w with queue := rest }.processExecute (.disconnected player)).Invariant := by
  obtain ⟨hothers, hfinds⟩ := hallowed
  have hhead : Event.disconnected player ∈ w.queue := hqueue ▸ mem_cons_self
  have hid : player.isDefault = false := isDefault_of_site (h.eventSites _ hhead)
  have hsame : Event.disconnected player = .connected player ∨
    Event.disconnected player = .disconnected player := .inr rfl
  have hwf := h.wellFormed.removeEntity player .player
  have hlisted : ∀ type, HasNames type → ∀ id name,
      ((w.registry.removeEntity player .player).1.removeEntities
          (w.foundPuppets player) .puppet).1.Listed type id name ↔
        (w.registry.Listed type id name ∧ ¬ (type = .player ∧ id = player)) ∧
          ¬ (type = .puppet ∧ id ∈ w.foundPuppets player) := by
    intro type htype id name
    rw [listed_removeEntities hwf (fun _ => site_of_mem_foundPuppets) (.inr rfl) htype,
      listed_removeEntity h.wellFormed hid (.inl rfl) htype]
  -- the player is offline, unless another event waits
  have hoffline : Settled (Event.isConnection player) rest → player ∉ w.sessions := by
    intro hrest
    exact h.disconnected player
      (last_queue hqueue (by rw [isConnection_connection hsame, decide_eq_true rfl]) hrest)
  have hresult : ({ w with queue := rest } : World).processExecute (.disconnected player) =
      { w with
        queue := rest
        registry := ((w.registry.removeEntity player .player).1.removeEntities
          (w.foundPuppets player) .puppet).1
        onlinePlayers := w.onlinePlayers.filter (· ≠ player) } := rfl
  rw [hresult]
  refine h.handled hqueue (hwf.removeEntities _ .puppet) ?_ ?_ ?_ ?_
  · intro id hrest
    by_cases heq : id = player
    · subst heq
      simp [hoffline hrest]
    · have hother : Event.isConnection id (.disconnected player) = false := by
        rw [isConnection_connection hsame, decide_eq_false_iff_not]
        exact Ne.symm heq
      simp only [mem_filter, decide_eq_true_eq, ne_eq, heq, not_false_eq_true, and_true]
      exact h.online id (settled_queue hqueue hother hrest)
  · intro id hrest
    have hbefore := h.puppets id (settled_queue hqueue rfl hrest)
    constructor
    · rintro ⟨name, hname⟩
      obtain ⟨⟨hold, -⟩, hnotFound⟩ := (hlisted _ (.inr rfl) id name).mp hname
      obtain ⟨owner, howner, howned⟩ := hbefore.mp ⟨name, hold⟩
      refine ⟨owner, mem_filter.mpr ⟨howner, ?_⟩, howned⟩
      refine decide_eq_true ?_
      rintro rfl
      exact hnotFound ⟨rfl, hfinds.mem howned hrest⟩
    · rintro ⟨owner, howner, howned⟩
      obtain ⟨hmem, hne⟩ := mem_filter.mp howner
      obtain ⟨name, hname⟩ := hbefore.mpr ⟨owner, hmem, howned⟩
      refine ⟨name, (hlisted _ (.inr rfl) id name).mpr ⟨⟨hname, nofun⟩, ?_⟩⟩
      rintro ⟨-, hfound⟩
      obtain ⟨entity, hget, htype, rfl⟩ := howned
      rcases hothers id hfound hrest entity hget htype with heq | hnot
      · exact of_decide_eq_true hne heq
      · exact hnot hmem
  · intro id hrest
    by_cases heq : id = player
    · subst heq
      refine iff_of_false ?_ (hoffline (settled_isConnection hrest))
      rintro ⟨name, hname⟩
      exact ((hlisted _ (.inl rfl) id name).mp hname).1.2 ⟨rfl, rfl⟩
    · have hother : Event.unsettles .player id (.disconnected player) = false :=
        unsettles_connection hsame fun hp => heq hp.2
      rw [← h.players id (settled_queue hqueue hother hrest)]
      refine exists_congr fun name => ?_
      rw [hlisted _ (.inl rfl)]
      simp [heq]
  · intro type htype id hrest hrenames name hname
    obtain ⟨⟨hold, hne⟩, -⟩ := (hlisted type htype id name).mp hname
    exact h.names type htype id (settled_queue hqueue (unsettles_connection hsame hne) hrest)
      (settled_queue hqueue rfl hrenames) name hold

/-- The informations of a connection: the player, and the puppets found. -/
theorem mem_nameInfosOf {row : EntityRow} {info : NameRegistryInfo} :
    info ∈ w.nameInfosOf player row ↔ info = ⟨row.name, player, .player⟩ ∨
      ∃ puppet ∈ w.foundPuppets player, ∃ row', w.getEntityMetadata puppet = some row' ∧
        info = ⟨row'.name, puppet, .puppet⟩ := by
  rw [nameInfosOf, mem_cons, mem_filterMap]
  refine or_congr_right (exists_congr fun puppet => and_congr_right fun _ => ?_)
  rw [Option.map_eq_some_iff]
  exact exists_congr fun row' => and_congr_right fun _ => eq_comm

theorem Invariant.new_nameInfosOf (h : w.Invariant) {row : EntityRow}
    (hplayer : w.NotThere .player player)
    (hpuppets : ∀ puppet ∈ w.foundPuppets player, w.NotThere .puppet puppet) :
    w.registry.New (w.nameInfosOf player row) := by
  constructor
  · intro info hinfo
    rcases mem_nameInfosOf.mp hinfo with rfl | ⟨puppet, -, row', -, rfl⟩
    · exact .inl rfl
    · exact .inr rfl
  · refine pairwise_cons.mpr ⟨?_, ?_⟩
    · rintro info hinfo ⟨htype, -⟩
      obtain ⟨puppet, -, hmap⟩ := mem_filterMap.mp hinfo
      obtain ⟨row', -, rfl⟩ := Option.map_eq_some_iff.mp hmap
      cases htype
    · refine List.Pairwise.filterMap _ ?_ (h.nodup_foundPuppets player)
      rintro puppet puppet' hne info hinfo info' hinfo' ⟨-, hid⟩
      obtain ⟨row, -, rfl⟩ := Option.map_eq_some_iff.mp hinfo
      obtain ⟨row', -, rfl⟩ := Option.map_eq_some_iff.mp hinfo'
      exact hne hid
  · intro info hinfo
    rcases mem_nameInfosOf.mp hinfo with rfl | ⟨puppet, hfound, row', -, rfl⟩
    · exact hplayer.not_listed
    · exact (hpuppets puppet hfound).not_listed

/-- The entries when a player has connected. -/
theorem listed_nameInfosOf {row : EntityRow} (hsite : player.siteId ≠ 0) (hname : row.name ≠ [])
    (hnames : ∀ puppet ∈ w.foundPuppets player, ∀ row ∈ w.getEntityMetadata puppet, row.name ≠ [])
    (htype : HasNames type) (id : Id) (name : ByteString) :
    (w.registry.addEntities (w.nameInfosOf player row)).1.Listed type id name ↔
      w.registry.Listed type id name ∨ (type = .player ∧ id = player ∧ name = row.name ∨
        type = .puppet ∧ id ∈ w.foundPuppets player ∧
          ∃ row', w.getEntityMetadata id = some row' ∧ name = row'.name) := by
  have hsites : ∀ info ∈ w.nameInfosOf player row, info.id.siteId = player.siteId := by
    intro info hinfo
    rcases mem_nameInfosOf.mp hinfo with rfl | ⟨puppet, hfound, row', -, rfl⟩
    · rfl
    · exact site_of_mem_foundPuppets hfound
  have hfilled : ∀ info ∈ w.nameInfosOf player row, info.filledOut := by
    intro info hinfo
    have hid := isDefault_of_site (hsites info hinfo ▸ hsite)
    rcases mem_nameInfosOf.mp hinfo with rfl | ⟨puppet, hfound, row', hrow', rfl⟩
    · exact ⟨hname, hid, .inl rfl⟩
    · exact ⟨hnames puppet hfound row' hrow', hid, .inr rfl⟩
  rw [listed_addEntities hsite hsites htype]
  refine or_congr_right ⟨?_, ?_⟩
  · rintro ⟨info, hinfo, -, rfl, rfl, rfl⟩
    rcases mem_nameInfosOf.mp hinfo with rfl | ⟨puppet, hfound, row', hrow', rfl⟩
    · exact .inl ⟨rfl, rfl, rfl⟩
    · exact .inr ⟨rfl, hfound, row', hrow', rfl⟩
  · rintro (⟨rfl, rfl, rfl⟩ | ⟨rfl, hfound, row', hrow', rfl⟩)
    · have hinfo : ⟨row.name, id, .player⟩ ∈ w.nameInfosOf id row := mem_nameInfosOf.mpr (.inl rfl)
      exact ⟨_, hinfo, hfilled _ hinfo, rfl, rfl, rfl⟩
    · have hinfo : ⟨row'.name, id, .puppet⟩ ∈ w.nameInfosOf player row :=
        mem_nameInfosOf.mpr (.inr ⟨id, hfound, row', hrow', rfl⟩)
      exact ⟨_, hinfo, hfilled _ hinfo, rfl, rfl, rfl⟩

/-- `ACTION_CONNECTED` -/
theorem Invariant.processConnected (h : w.Invariant) (hqueue : w.queue = .connected player :: rest)
    (hallowed : w.AllowedEvent rest (.connected player)) :
    ({ w with queue := rest }.processExecute (.connected player)).Invariant := by
  have hhead : Event.connected player ∈ w.queue := hqueue ▸ mem_cons_self
  have hsite : player.siteId ≠ 0 := h.eventSites _ hhead
  have hsame : Event.connected player = .connected player ∨
    Event.connected player = .disconnected player := .inl rfl
  -- the player is online, unless another event waits
  have honline : Settled (Event.isConnection player) rest → player ∈ w.sessions := by
    intro hrest
    exact h.connected player
      (last_queue hqueue (by rw [isConnection_connection hsame, decide_eq_true rfl]) hrest)
  have hotherConnection : ∀ id, id ≠ player →
      Event.isConnection id (.connected player) = false := by
    intro id hne
    rw [isConnection_connection hsame, decide_eq_false_iff_not]
    exact Ne.symm hne
  cases hmeta : w.getEntityMetadata player with
  | none =>
    have hresult : ({ w with queue := rest } : World).processExecute (.connected player) =
        { w with queue := rest } := by
      have hmeta' : ({ w with queue := rest } : World).getEntityMetadata player = none := hmeta
      simp only [processExecute, processConnectionEvent, hmeta', if_true]
    rw [hresult]
    have hne : ∀ id, Settled (Event.isConnection id) rest → id ≠ player := by
      rintro id hrest rfl
      obtain ⟨entity, hget, -⟩ := h.sessionsLive id (honline hrest)
      have hstored := h.stored id entity hget
      rw [hmeta] at hstored
      cases hstored
    refine h.handled hqueue h.wellFormed ?_ ?_ ?_ ?_
    · intro id hrest
      exact h.online id (settled_queue hqueue (hotherConnection id (hne id hrest)) hrest)
    · intro id hrest
      exact h.puppets id (settled_queue hqueue rfl hrest)
    · intro id hrest
      refine h.players id (settled_queue hqueue (unsettles_connection hsame ?_) hrest)
      exact fun hp => hne id (settled_isConnection hrest) hp.2
    · intro type htype id hrest hrenames
      refine h.names type htype id (settled_queue hqueue (unsettles_connection hsame ?_) hrest)
        (settled_queue hqueue rfl hrenames)
      rintro ⟨rfl, rfl⟩
      exact hne id (settled_isConnection hrest) rfl
  | some row =>
    obtain ⟨hplayer, hstored, hfound, hfinds⟩ := hallowed row hmeta
    have hresult : ({ w with queue := rest } : World).processExecute (.connected player) =
        { w with
          queue := rest
          registry := (w.registry.addEntities (w.nameInfosOf player row)).1
          onlinePlayers := w.onlinePlayers.insert player } := by
      have hmeta' : ({ w with queue := rest } : World).getEntityMetadata player = some row := hmeta
      simp only [processExecute, processConnectionEvent, hmeta', if_true]
      rfl
    have hnew : w.registry.New (w.nameInfosOf player row) :=
      h.new_nameInfosOf hplayer fun puppet hp => (hfound puppet hp).1
    have hlisted : ∀ type, HasNames type → ∀ id name,
        (w.registry.addEntities (w.nameInfosOf player row)).1.Listed type id name ↔ _ :=
      fun _ htype => listed_nameInfosOf hsite hstored.1
        (fun puppet hp row' hrow' => ((hfound puppet hp).2.1 row' hrow').1) htype
    rw [hresult]
    refine h.handled hqueue (h.wellFormed.addEntities hnew) ?_ ?_ ?_ ?_
    · intro id hrest
      rw [mem_insert_iff]
      by_cases heq : id = player
      · subst heq
        exact iff_of_true (.inl rfl) (honline hrest)
      · rw [or_iff_right heq]
        exact h.online id (settled_queue hqueue (hotherConnection id heq) hrest)
    · intro id hrest
      have hbefore := h.puppets id (settled_queue hqueue rfl hrest)
      constructor
      · rintro ⟨name, hname⟩
        rcases (hlisted _ (.inr rfl) id name).mp hname with hold | ⟨hp, -⟩ | ⟨-, hmem, -⟩
        · obtain ⟨owner, howner, howned⟩ := hbefore.mp ⟨name, hold⟩
          exact ⟨owner, mem_insert_of_mem howner, howned⟩
        · cases hp
        · exact ⟨player, mem_insert_self, (hfound id hmem).2.2 hrest⟩
      · rintro ⟨owner, howner, howned⟩
        rcases mem_insert_iff.mp howner with rfl | howner
        · have hmem := hfinds.mem howned hrest
          obtain ⟨row', hrow'⟩ := h.metadata_of_mem_foundPuppets hmem
          exact ⟨row'.name, (hlisted _ (.inr rfl) id _).mpr
            (.inr (.inr ⟨rfl, hmem, row', hrow', rfl⟩))⟩
        · obtain ⟨name, hname⟩ := hbefore.mpr ⟨owner, howner, howned⟩
          exact ⟨name, (hlisted _ (.inr rfl) id name).mpr (.inl hname)⟩
    · intro id hrest
      by_cases heq : id = player
      · subst heq
        refine iff_of_true ?_ (honline (settled_isConnection hrest))
        exact ⟨row.name, (hlisted _ (.inl rfl) id _).mpr (.inr (.inl ⟨rfl, rfl, rfl⟩))⟩
      · have hother : Event.unsettles .player id (.connected player) = false :=
          unsettles_connection hsame fun hp => heq hp.2
        rw [← h.players id (settled_queue hqueue hother hrest)]
        refine exists_congr fun name => ?_
        rw [hlisted _ (.inl rfl)]
        simp [heq]
    · intro type htype id hrest hrenames name hname entity hget hentity
      rcases (hlisted type htype id name).mp hname with hold | ⟨rfl, rfl, rfl⟩ |
        ⟨rfl, hmem, row', hrow', rfl⟩
      · refine h.names type htype id (settled_queue hqueue (unsettles_connection hsame ?_) hrest)
          (settled_queue hqueue rfl hrenames) name hold entity hget hentity
        rintro ⟨rfl, rfl⟩
        exact hplayer.not_listed name hold
      · exact (hstored.2 hrest hrenames entity hget).symm
      · exact (((hfound id hmem).2.1 row' hrow').2 hrest hrenames entity hget).symm

/-! ### Changed names and owners -/

/-- The entries after a rename. -/
theorem listed_processName (hwf : w.registry.WellFormed) {id : Id} (hid : id.isDefault = false)
    (htype : HasNames type) (htype' : HasNames type')
    (hname : ∀ entity ∈ w.getEntity id, entity.name ≠ []) (id' : Id) (name : ByteString) :
    (w.processName id type).registry.WellFormed ∧
      ((w.processName id type).registry.Listed type' id' name ↔
        if type' = type ∧ id' = id then
          (∃ entity ∈ w.getEntity id, name = entity.name) ∧ ∃ old, w.registry.Listed type id old
        else w.registry.Listed type' id' name) := by
  unfold processName
  cases hget : w.getEntity id with
  | none =>
    refine ⟨hwf.removeEntity id type, ?_⟩
    dsimp only
    rw [listed_removeEntity hwf hid htype htype']
    split
    · next hsame =>
      refine iff_of_false (fun hlisted => hlisted.2 hsame) ?_
      rintro ⟨⟨entity, hentity, -⟩, -⟩
      cases hentity
    · next hother => exact and_iff_left hother
  | some entity =>
    refine ⟨hwf.updateEntityName id type entity.name, ?_⟩
    dsimp only
    rw [listed_updateEntityName hwf hid htype htype' (hname entity hget)]
    simp

/-- The entries after a change of the owner. -/
theorem listed_processOwner (hwf : w.registry.WellFormed) {id : Id} (hid : id.isDefault = false)
    (htype : HasNames type) (htype' : HasNames type')
    (hname : ∀ entity ∈ w.getEntity id, entity.name ≠ []) (id' : Id) (name : ByteString) :
    (w.processOwner id type).registry.WellFormed ∧
      ((w.processOwner id type).registry.Listed type' id' name ↔
        if type' = type ∧ id' = id then
          ∃ entity ∈ w.getEntity id, name = entity.name ∧ entity.owner ∈ w.onlinePlayers
        else w.registry.Listed type' id' name) := by
  have hremoved := hwf.removeEntity id type
  have hgone : ∀ name, ¬ (w.registry.removeEntity id type).1.Listed type id name := by
    intro name hlisted
    exact ((listed_removeEntity hwf hid htype htype id name).mp hlisted).2 ⟨rfl, rfl⟩
  have hnotAdded : (∀ entity ∈ w.getEntity id, entity.owner ∉ w.onlinePlayers) →
      ((w.registry.removeEntity id type).1.Listed type' id' name ↔
        if type' = type ∧ id' = id then
          ∃ entity ∈ w.getEntity id, name = entity.name ∧ entity.owner ∈ w.onlinePlayers
        else w.registry.Listed type' id' name) := by
    intro hoffline
    rw [listed_removeEntity hwf hid htype htype']
    split
    · next hsame =>
      refine iff_of_false (fun hlisted => hlisted.2 hsame) ?_
      rintro ⟨entity, hget, -, howner⟩
      exact hoffline entity hget howner
    · next hother => exact and_iff_left hother
  unfold processOwner
  cases hget : w.getEntity id with
  | none =>
    rw [hget] at hnotAdded
    exact ⟨hremoved, hnotAdded nofun⟩
  | some entity =>
    dsimp only
    split
    · next howner =>
      refine ⟨hremoved.addEntity hgone, ?_⟩
      dsimp only
      rw [listed_addEntity htype',
        listed_removeEntity hwf hid htype htype']
      have hfilled : NameRegistryInfo.filledOut ⟨entity.name, id, type⟩ :=
        ⟨hname entity hget, hid, htype⟩
      rw [and_iff_right hfilled]
      split
      · next hsame =>
        obtain ⟨rfl, rfl⟩ := hsame
        simp [howner]
      · next hother =>
        rw [and_iff_left hother]
        exact or_iff_left fun hadded => hother ⟨hadded.1, hadded.2.1⟩
    · next howner =>
      rw [hget] at hnotAdded
      refine ⟨hremoved, hnotAdded ?_⟩
      intro entity' hentity'
      obtain rfl := Option.some.inj hentity'
      exact howner

theorem exists_processName (id : Id) (type : EntityType) :
    ∃ r, w.processName id type = { w with registry := r } := by
  unfold processName
  split
  · exact ⟨_, rfl⟩
  · exact ⟨_, rfl⟩

theorem exists_processOwner (id : Id) (type : EntityType) :
    ∃ r, w.processOwner id type = { w with registry := r } := by
  unfold processOwner
  dsimp only
  split
  · split
    · exact ⟨_, rfl⟩
    · exact ⟨_, rfl⟩
  · exact ⟨_, rfl⟩

/-- The entries after an update. -/
theorem listed_processUpdated (hwf : w.registry.WellFormed) {id : Id} (hid : id.isDefault = false)
    (htype : HasNames type) (htype' : HasNames type')
    (hname : ∀ entity ∈ w.getEntity id, entity.name ≠ []) (renamed owner : Bool) (id' : Id)
    (name : ByteString) :
    (w.processEntityEvent (.updated id type renamed owner)).registry.WellFormed ∧
      ((w.processEntityEvent (.updated id type renamed owner)).registry.Listed type' id' name ↔
        if type' = type ∧ id' = id then
          if owner then
            ∃ entity ∈ w.getEntity id, name = entity.name ∧ entity.owner ∈ w.onlinePlayers
          else if renamed then
            (∃ entity ∈ w.getEntity id, name = entity.name) ∧ ∃ old, w.registry.Listed type id old
          else w.registry.Listed type id name
        else w.registry.Listed type' id' name) := by
  obtain ⟨r, hr⟩ := exists_processName (w := w) id type
  have hnamed := listed_processName hwf hid htype htype' hname id' name
  have hnamedGet : (w.processName id type).getEntity id = w.getEntity id := by
    rw [hr]
    rfl
  have hnamedOnline : (w.processName id type).onlinePlayers = w.onlinePlayers := by rw [hr]
  have howned := listed_processOwner hwf hid htype htype' hname id' name
  have hboth := listed_processOwner (w := w.processName id type) hnamed.1 hid htype htype'
    (hnamedGet ▸ hname) id' name
  rw [hnamedGet, hnamedOnline] at hboth
  cases owner with
  | true =>
    cases renamed with
    | true =>
      refine ⟨hboth.1, hboth.2.trans ?_⟩
      split
      · rfl
      · next hother =>
        rw [hnamed.2, if_neg hother]
    | false => exact howned
  | false =>
    cases renamed with
    | true => exact hnamed
    | false =>
      refine ⟨hwf, ?_⟩
      split
      · next hsame =>
        rw [hsame.1, hsame.2]
        rfl
      · rfl

/-- Only the registry changes. -/
theorem exists_processUpdated (id : Id) (type : EntityType) (renamed owner : Bool) :
    ∃ r, w.processEntityEvent (.updated id type renamed owner) = { w with registry := r } := by
  obtain ⟨r, hr⟩ := exists_processName (w := w) id type
  cases owner with
  | true =>
    cases renamed with
    | true =>
      obtain ⟨r', hr'⟩ := exists_processOwner (w := { w with registry := r }) id type
      refine ⟨r', ?_⟩
      rw [← hr'] 
      simp only [processEntityEvent, if_true, hr]
    | false => exact exists_processOwner id type
  | false =>
    cases renamed with
    | true => exact ⟨r, hr⟩
    | false => exact ⟨w.registry, rfl⟩

/-- `ENTITY_UPDATED` -/
theorem Invariant.processUpdated {id : Id} {renamed owner : Bool} (h : w.Invariant)
    (hqueue : w.queue = .updated id type renamed owner :: rest)
    (hallowed : w.AllowedEvent rest (.updated id type renamed owner)) :
    ({ w with queue := rest }.processExecute (.updated id type renamed owner)).Invariant := by
  have hhead : Event.updated id type renamed owner ∈ w.queue := hqueue ▸ mem_cons_self
  have hid : id.isDefault = false := isDefault_of_site (h.eventSites _ hhead)
  obtain ⟨htype, hflags⟩ : HasNames type ∧ (renamed = true ∨ owner = true) := by
    simpa [Event.subscribed] using h.subscribed _ hhead
  have hname : ∀ entity ∈ w.getEntity id, entity.name ≠ [] :=
    fun entity hget => (hallowed entity hget).2.1
  have hother : ∀ type' id', ¬ (type' = type ∧ id' = id) →
      Event.unsettles type' id' (.updated id type renamed owner) = false ∧
        Event.renames type' id' (.updated id type renamed owner) = false := by
    intro type' id' hne
    have hne' : type = type' → id ≠ id' := fun htype hid => hne ⟨htype.symm, hid.symm⟩
    simp +contextual [Event.unsettles, Event.renames, hne']
  obtain ⟨r, hr⟩ := exists_processUpdated (w := { w with queue := rest }) id type renamed owner
  have hlisted := fun type' (htype' : HasNames type') =>
    listed_processUpdated (w := { w with queue := rest }) h.wellFormed hid htype htype' hname
      renamed owner
  rw [hr] at hlisted
  have hresult : ({ w with queue := rest } : World).processExecute
      (.updated id type renamed owner) = { w with queue := rest, registry := r } := hr
  -- where the owner stays, there is an entry if there was one
  have hstays : owner = false → ((∃ name, r.Listed type id name) ↔
      (∃ entity, w.getEntity id = some entity) ∧ ∃ old, w.registry.Listed type id old) := by
    rintro rfl
    have hrenamed : renamed = true := hflags.resolve_right (by rintro ⟨⟩)
    constructor
    · rintro ⟨name, hlist⟩
      have hentry := (hlisted type htype id name).2.mp hlist
      rw [if_pos ⟨rfl, rfl⟩, if_neg (by rintro ⟨⟩), if_pos hrenamed] at hentry
      obtain ⟨⟨entity, hget, -⟩, hold⟩ := hentry
      exact ⟨⟨entity, hget⟩, hold⟩
    · rintro ⟨⟨entity, hget⟩, hold⟩
      refine ⟨entity.name, (hlisted type htype id entity.name).2.mpr ?_⟩
      rw [if_pos ⟨rfl, rfl⟩, if_neg (by rintro ⟨⟩), if_pos hrenamed]
      exact ⟨⟨entity, hget, rfl⟩, hold⟩
  have hchanges : owner = true → ((∃ name, r.Listed type id name) ↔
      ∃ entity, w.getEntity id = some entity ∧ entity.owner ∈ w.onlinePlayers) := by
    rintro rfl
    constructor
    · rintro ⟨name, hlist⟩
      have hentry := (hlisted type htype id name).2.mp hlist
      rw [if_pos ⟨rfl, rfl⟩, if_pos rfl] at hentry
      obtain ⟨entity, hget, -, howner⟩ := hentry
      exact ⟨entity, hget, howner⟩
    · rintro ⟨entity, hget, howner⟩
      refine ⟨entity.name, (hlisted type htype id entity.name).2.mpr ?_⟩
      rw [if_pos ⟨rfl, rfl⟩, if_pos rfl]
      exact ⟨entity, hget, rfl, howner⟩
  have hunsettles : ∀ type' id', owner = false →
      Event.unsettles type' id' (.updated id type renamed owner) = false := by
    rintro type' id' rfl
    rfl
  rw [hresult]
  refine h.handled hqueue (hlisted type htype id []).1 ?_ ?_ ?_ ?_
  · intro id' hrest
    exact h.online id' (settled_queue hqueue rfl hrest)
  · intro id' hrest
    by_cases hsame : EntityType.puppet = type ∧ id' = id
    · obtain ⟨rfl, rfl⟩ := hsame
      cases howner : owner with
      | true =>
        rw [hchanges howner]
        constructor
        · rintro ⟨entity, hget, honline⟩
          exact ⟨entity.owner, honline, entity, hget, (hallowed entity hget).1, rfl⟩
        · rintro ⟨_, honline, entity, hget, -, rfl⟩
          exact ⟨entity, hget, honline⟩
      | false =>
        have hbefore := h.puppets id' (settled_queue hqueue (hunsettles _ _ howner) hrest)
        rw [hstays howner, ← hbefore]
        refine and_iff_right_of_imp fun hold => ?_
        obtain ⟨_, -, entity, hget, -⟩ := hbefore.mp hold
        exact ⟨entity, hget⟩
    · rw [← h.puppets id' (settled_queue hqueue (hother _ _ hsame).1 hrest)]
      refine exists_congr fun name => ?_
      rw [(hlisted _ (.inr rfl) id' name).2, if_neg hsame]
  · intro id' hrest
    by_cases hsame : EntityType.player = type ∧ id' = id
    · obtain ⟨rfl, rfl⟩ := hsame
      cases howner : owner with
      | true =>
        have honline := h.online id' (settled_queue hqueue rfl (settled_isConnection hrest))
        rw [hchanges howner]
        constructor
        · rintro ⟨entity, hget, hmem⟩
          exact honline.mp (((hallowed entity hget).2.2 howner rfl hrest).mp hmem)
        · intro hsession
          obtain ⟨entity, hget, -⟩ := h.sessionsLive id' hsession
          exact ⟨entity, hget,
            ((hallowed entity hget).2.2 howner rfl hrest).mpr (honline.mpr hsession)⟩
      | false =>
        have hbefore := h.players id' (settled_queue hqueue (hunsettles _ _ howner) hrest)
        rw [hstays howner, ← hbefore]
        refine and_iff_right_of_imp fun hold => ?_
        obtain ⟨entity, hget, -⟩ := h.sessionsLive id' (hbefore.mp hold)
        exact ⟨entity, hget⟩
    · rw [← h.players id' (settled_queue hqueue (hother _ _ hsame).1 hrest)]
      refine exists_congr fun name => ?_
      rw [(hlisted _ (.inl rfl) id' name).2, if_neg hsame]
  · intro type' htype' id' hrest hrenames name hlist entity hget hentity
    have hentry := (hlisted type' htype' id' name).2.mp hlist
    split_ifs at hentry with hsame howner hrenamed
    · obtain ⟨rfl, rfl⟩ := hsame
      obtain ⟨entity', hget', rfl, -⟩ := hentry
      obtain rfl := Option.some.inj (hget.symm.trans hget')
      rfl
    · obtain ⟨rfl, rfl⟩ := hsame
      obtain ⟨⟨entity', hget', rfl⟩, -⟩ := hentry
      obtain rfl := Option.some.inj (hget.symm.trans hget')
      rfl
    · exact absurd hflags (not_or_intro hrenamed howner)
    · exact h.names type' htype' id' (settled_queue hqueue (hother _ _ hsame).1 hrest)
        (settled_queue hqueue (hother _ _ hsame).2 hrenames) name hentry entity hget hentity

/-- **An event is handled.** -/
theorem Invariant.processExecute (h : w.Invariant) (hqueue : w.queue = event :: rest)
    (hallowed : w.AllowedEvent rest event) :
    ({ w with queue := rest }.processExecute event).Invariant := by
  cases event with
  | connected player => exact h.processConnected hqueue hallowed
  | disconnected player => exact h.processDisconnected hqueue hallowed
  | created id type => exact h.processCreated hqueue hallowed
  | deleted id type => exact h.processDeleted hqueue
  | updated id type renamed owner => exact h.processUpdated hqueue hallowed

end Handled

/-! ### Runs -/

/-- **Each allowed step keeps the invariant.** -/
theorem Invariant.step (h : w.Invariant) {action : Action} (hallowed : w.Allowed action)
    (hstep : World.step w action = some w') : w'.Invariant := by
  cases action with
  | newEntity id entity =>
    simp only [World.step] at hstep
    split at hstep
    · next hnew =>
      obtain rfl := Option.some.inj hstep
      exact h.tells ((entityChange_newEntity h entity hnew.1 hnew.2.1).tells h)
    · cases hstep
  | update id name owner =>
    simp only [World.step] at hstep
    split at hstep
    · next entity hget =>
      obtain rfl := Option.some.inj hstep
      exact h.tells ((entityChange_update h hget name owner).tells h)
    · cases hstep
  | updateDeleted id name owner =>
    simp only [World.step] at hstep
    split at hstep
    · next row hget hmeta =>
      obtain rfl := Option.some.inj hstep
      exact h.tells ((entityChange_updateDeleted h hget hmeta name owner).tells h)
    · cases hstep
  | deleteEntity id =>
    simp only [World.step] at hstep
    split at hstep
    · next entity hget =>
      split at hstep
      · cases hstep
      · next hplayer =>
        obtain rfl := Option.some.inj hstep
        exact h.tells ((entityChange_deleteEntity h hget hplayer).tells h)
    · cases hstep
  | commit id =>
    simp only [World.step] at hstep
    split at hstep
    · next entity hget =>
      obtain rfl := Option.some.inj hstep
      refine h.tells (tells_commit h id (h.sorted.insert id entity.row) fun id' => ?_)
      rw [SortedMap.find_insert, hget]
      rfl
    · next hget =>
      obtain rfl := Option.some.inj hstep
      refine h.tells (tells_commit h id (h.sorted.erase id) fun id' => ?_)
      rw [SortedMap.find_erase, hget]
      rfl
  | authorizeClient player =>
    simp only [World.step] at hstep
    split at hstep
    · next entity hget =>
      split at hstep
      · next hplayer =>
        obtain rfl := Option.some.inj hstep
        split
        · next hsession =>
          have hget' : (w.removeSession player).getEntity player = some entity := by
            rw [World.removeSession, getEntity_publishEvent]
            exact hget
          exact (h.removeSession hsession).addSession hget' hplayer
        · exact h.addSession hget hplayer
      · cases hstep
    · cases hstep
  | removeSession player =>
    simp only [World.step] at hstep
    split at hstep
    · next hsession =>
      obtain rfl := Option.some.inj hstep
      exact h.removeSession hsession
    · cases hstep
  | process =>
    simp only [World.step] at hstep
    split at hstep
    · next event rest hqueue =>
      obtain rfl := Option.some.inj hstep
      rw [Allowed, hqueue] at hallowed
      exact h.processExecute hqueue hallowed
    · cases hstep

/-- At first, the backend has what there is. -/
theorem getEntityMetadata_start (stored : Stored) (id : Id) :
    (start stored).getEntityMetadata id = ((start stored).getEntity id).map EntityInfo.row :=
  SortedMap.find_map (fun _ (entity : EntityInfo) => entity.row) id stored.entities

theorem invariant_start (stored : Stored) : (start stored).Invariant where
  wellFormed := wellFormed_empty
  sorted := by
    have hkeys : (start stored).backend.map Prod.fst = stored.entities.map Prod.fst := by
      rw [start, map_map]
      rfl
    rw [SortedMap.Sorted, hkeys]
    exact stored.sorted
  sites id row hmeta := by
    rw [getEntityMetadata_start] at hmeta
    obtain ⟨entity, hget, -⟩ := Option.map_eq_some_iff.mp hmeta
    exact stored.sites id (SortedMap.mem_keys_of_find hget)
  eventSites := nofun
  subscribed := nofun
  stored id entity hget := by
    rw [getEntityMetadata_start, hget]
    rfl
  sessionsLive := nofun
  connected := nofun
  disconnected := nofun
  online _ _ := Iff.rfl
  created := nofun
  deleted := nofun
  puppets id _ := by
    refine iff_of_false ?_ ?_
    · rintro ⟨name, hname⟩
      exact not_listed_empty _ _ _ hname
    · rintro ⟨owner, howner, -⟩
      cases howner
  players id _ := by
    refine iff_of_false ?_ not_mem_nil
    rintro ⟨name, hname⟩
    exact not_listed_empty _ _ _ hname
  names type _ id _ _ name hname := absurd hname (not_listed_empty _ _ _)

/-- Two players, one of whom has a puppet. -/
def twoPlayers : Stored where
  entities := [(⟨1, 1⟩, ⟨.player, ⟨1, 1⟩, [65]⟩), (⟨1, 2⟩, ⟨.puppet, ⟨1, 1⟩, [66]⟩),
    (⟨1, 3⟩, ⟨.player, ⟨1, 3⟩, [67]⟩)]
  sorted := by
    unfold SortedMap.Sorted
    decide
  sites := by decide

/-- A player connects and gets another puppet, and the first one goes to a player who is
offline. -/
def changingHands : List Action :=
  [.authorizeClient ⟨1, 1⟩, .process, .newEntity ⟨1, 4⟩ ⟨.puppet, ⟨1, 1⟩, [68]⟩, .process,
    .update ⟨1, 2⟩ none (some ⟨1, 3⟩), .commit ⟨1, 2⟩, .process,
    .update ⟨1, 4⟩ (some [70]) none, .process]

end World

end Mutgos.Useragent
