import Mathlib.Data.Finset.Lattice.Basic
import Mutgos.Events.SubscriptionData

/-!
# The processors of events

There is a processor for each type of events.  It keeps lists of the subscriptions to them,
by what they are about, and looks through those lists that have to do with an event.  The
six classes do the same with different lists; what differs is a `Processor`.

## Main results

* `matchedForSite_eq_empty`, `matchedForEntity_movement` — sets that stay empty.
-/

namespace Mutgos.Events

open DbTypes List
open Executor (PID)

/-! ### Lists -/

/-- The tables that are indexed by Entities. -/
inductive EntityTable where
  | who | fromId | toId | how | source | target | entity | owner
  deriving DecidableEq

/-- What a list of subscriptions is about. -/
inductive ListKey where
  | entity (table : EntityTable) (id : Id)
  | site (siteId : SiteIdType)
  | pid (pid : PID)
  | all
  deriving DecidableEq

/-- The lists of a processor. -/
abbrev Lists := ListIndex ListKey SubscriptionId

/-- The subscriptions of a table for an Entity, in the order they are kept in. -/
def getEntitySubscriptions (lists : Lists) (table : EntityTable) (id : Id) :
    List SubscriptionId :=
  lists.listAt (.entity table id)

/-! ### What is to be removed -/

abbrev SubscriptionCallbackSet := Finset SubscriptionId

/-- The loop that inserts the callbacks of a list. -/
def insertCallbacks (list : List SubscriptionId) (set : SubscriptionCallbackSet) :
    SubscriptionCallbackSet :=
  list.foldl (fun set id => insert id set) set

/-- A set that is changed after it has been passed by value: the caller does not see it. -/
def byValue (_change : SubscriptionCallbackSet → SubscriptionCallbackSet)
    (set : SubscriptionCallbackSet) : SubscriptionCallbackSet :=
  set

/-- `get_all_callbacks`, with the set of the caller. -/
def getAllCallbacks (list : List SubscriptionId) : SubscriptionCallbackSet →
    SubscriptionCallbackSet :=
  byValue (insertCallbacks list)

/-- `get_all_site_callbacks` for a table of Entities, with the set of the caller. -/
def getAllSiteEntityCallbacks (lists : Lists) (table : EntityTable) (siteId : SiteIdType) :
    SubscriptionCallbackSet → SubscriptionCallbackSet :=
  byValue fun set =>
    lists.foldl (fun set entry =>
      match entry.1 with
      | .entity table' id =>
        if table' = table ∧ id.siteId = siteId then getAllCallbacks entry.2 set else set
      | _ => set) set

/-- `get_all_site_callbacks` for sites, with the set of the caller. -/
def getAllSiteCallbacks (lists : Lists) (siteId : SiteIdType) : SubscriptionCallbackSet →
    SubscriptionCallbackSet :=
  byValue fun set => getAllCallbacks (lists.listAt (.site siteId)) set

/-- `MovementEventProcessor::add_matched_for_deleted`, with the set of the caller. -/
def addMatchedForDeleted (lists : Lists) (table : EntityTable) (id : Id) :
    SubscriptionCallbackSet → SubscriptionCallbackSet :=
  byValue (insertCallbacks (getEntitySubscriptions lists table id))

@[simp] theorem insertCallbacks_eq (list : List SubscriptionId) (set : SubscriptionCallbackSet) :
    insertCallbacks list set = set ∪ list.toFinset := by
  induction list generalizing set with
  | nil => simp [insertCallbacks]
  | cons id list ih =>
    rw [insertCallbacks, foldl_cons, ← insertCallbacks, ih, toFinset_cons]
    ext x
    simp only [Finset.mem_union, Finset.mem_insert]
    tauto

/-! ### Processors -/

/-- What makes up a class of processors. -/
structure Processor where
  /-- `event_type_handled` -/
  handles : EventType
  /-- The type of parameters that `add_subscription` accepts. -/
  manages : SubscriptionType
  /-- The event type that `add_subscription` passes on. -/
  registersAs : EventType
  /-- The type of parameters that `internal_remove_subscription` accepts. -/
  removes : SubscriptionType
  /-- The lists that `add_subscription` puts a subscription in. -/
  addKeys : SubscriptionParams → List ListKey
  /-- The lists that `internal_remove_subscription` removes a subscription from. -/
  removeKeys : SubscriptionParams → List ListKey
  /-- What `entity_deleted` collects. -/
  matchedForEntity : Lists → Id → SubscriptionCallbackSet
  /-- What `site_deleted` collects. -/
  matchedForSite : Lists → SiteIdType → SubscriptionCallbackSet
  /-- The lists that `process_event` evaluates. -/
  evaluatedKeys : Event → List ListKey

/-- The list for everything, where there is nothing specific. -/
def orAll (specific : List ListKey) : List ListKey := if specific = [] then [.all] else specific

/-- The lists of an ID, which is left out where it is the default, and stands for a site
without an Entity. -/
def idOrSiteKeys (table : EntityTable) (id : Id) : List ListKey :=
  if id.isDefault then []
  else if id.isEntityDefault then [.site id.siteId]
  else [.entity table id]

/-- The lists of a subscription to movements. -/
def MovementSubscriptionParams.keys (params : MovementSubscriptionParams) : List ListKey :=
  if params.site ≠ 0 then [.site params.site]
  else
    orAll (params.who.map (.entity .who) ++ params.fromIds.map (.entity .fromId) ++
      params.toIds.map (.entity .toId) ++
      if params.how.isDefault then [] else [.entity .how params.how])

def movementEventProcessor : Processor where
  handles := .movement
  manages := .movement
  registersAs := .movement
  removes := .movement
  addKeys
    | .movement params => params.keys
    | _ => []
  removeKeys
    | .movement params => params.keys
    | _ => []
  matchedForEntity lists id :=
    addMatchedForDeleted lists .how id <| addMatchedForDeleted lists .toId id <|
      addMatchedForDeleted lists .fromId id <| addMatchedForDeleted lists .who id ∅
  matchedForSite lists siteId :=
    getAllSiteCallbacks lists siteId <| getAllSiteEntityCallbacks lists .how siteId <|
      getAllSiteEntityCallbacks lists .toId siteId <|
        getAllSiteEntityCallbacks lists .fromId siteId <|
          getAllSiteEntityCallbacks lists .who siteId ∅
  evaluatedKeys
    | .movement event =>
      [.entity .who event.who, .entity .fromId event.source, .entity .toId event.destination,
        .entity .how event.how, .site event.who.siteId, .all]
    | _ => []

def emitEventProcessor : Processor where
  handles := .emit
  manages := .emit
  registersAs := .emit
  removes := .emit
  addKeys
    | .emit params =>
      (if params.source.isDefault then [] else [.entity .source params.source]) ++
        if params.target.isDefault then [] else [.entity .target params.target]
    | _ => []
  removeKeys
    | .emit params => [.entity .source params.source, .entity .target params.target]
    | _ => []
  matchedForEntity lists id :=
    insertCallbacks (getEntitySubscriptions lists .target id) <|
      insertCallbacks (getEntitySubscriptions lists .source id) ∅
  matchedForSite lists siteId :=
    getAllSiteEntityCallbacks lists .target siteId <|
      getAllSiteEntityCallbacks lists .source siteId ∅
  evaluatedKeys
    | .emit event => [.entity .source event.source, .entity .target event.target]
    | _ => []

/-- The lists of a subscription to connections. -/
def ConnectionSubscriptionParams.keys (params : ConnectionSubscriptionParams) : List ListKey :=
  if params.entityIds = [] ∧ params.siteIds = [] then [.all]
  else if params.entityIds ≠ [] then params.entityIds.map (.entity .entity)
  else params.siteIds.map .site

def connectionEventProcessor : Processor where
  handles := .connection
  manages := .connection
  registersAs := .connection
  removes := .connection
  addKeys
    | .connection params => params.keys
    | _ => []
  removeKeys
    | .connection params => params.keys
    | _ => []
  matchedForEntity lists id := insertCallbacks (getEntitySubscriptions lists .entity id) ∅
  matchedForSite lists siteId :=
    getAllSiteCallbacks lists siteId <| getAllSiteEntityCallbacks lists .entity siteId ∅
  evaluatedKeys
    | .connection event => [.entity .entity event.entityId, .site event.entityId.siteId, .all]
    | _ => []

/-- The lists of a subscription to changes of Entities. -/
def EntityChangedSubscriptionParams.keys (params : EntityChangedSubscriptionParams) :
    List ListKey :=
  if params.entityIds = [] ∧ params.siteId = 0 then [.all]
  else if params.entityIds ≠ [] then
    params.entityIds.map (.entity (if params.entitiesAreOwners then .owner else .entity))
  else [.site params.siteId]

def entityChangedEventProcessor : Processor where
  handles := .entityChanged
  manages := .entityChanged
  registersAs := .entityChanged
  removes := .entityChanged
  addKeys
    | .entityChanged params => params.keys
    | _ => []
  removeKeys
    | .entityChanged params => params.keys
    | _ => []
  matchedForEntity lists id :=
    insertCallbacks (getEntitySubscriptions lists .owner id) <|
      insertCallbacks (getEntitySubscriptions lists .entity id) ∅
  matchedForSite lists siteId :=
    getAllSiteCallbacks lists siteId <| getAllSiteEntityCallbacks lists .owner siteId <|
      getAllSiteEntityCallbacks lists .entity siteId ∅
  evaluatedKeys
    | .entityChanged event =>
      [.entity .entity event.entityId, .entity .owner event.entityOwner,
        .site event.entityId.siteId, .all]
    | _ => []

/-- The lists of a subscription to executions of processes.  An owner that is the executable
as well is listed once. -/
def ProcessExecutionSubscriptionParams.keys (params : ProcessExecutionSubscriptionParams) :
    List ListKey :=
  if params.processId ≠ 0 then [.pid params.processId]
  else
    orAll (idOrSiteKeys .entity params.executableId ++
      if params.executableId.isDefault ∨ params.ownerId ≠ params.executableId then
        idOrSiteKeys .entity params.ownerId
      else [])

/-- `ProcessExecutionEventProcessor`.  It registers subscriptions for another processor, and
removes those of another type. -/
def processExecutionEventProcessor : Processor where
  handles := .processExecution
  manages := .processExecution
  registersAs := .entityChanged
  removes := .entityChanged
  addKeys
    | .processExecution params => params.keys
    | _ => []
  removeKeys
    | .processExecution params => params.keys
    | _ => []
  matchedForEntity lists id := insertCallbacks (getEntitySubscriptions lists .entity id) ∅
  matchedForSite lists siteId :=
    getAllSiteCallbacks lists siteId <| getAllSiteEntityCallbacks lists .entity siteId ∅
  evaluatedKeys
    | .processExecution event =>
      [.entity .entity event.executableId, .site event.executableId.siteId,
        .entity .entity event.ownerId, .site event.ownerId.siteId, .all, .pid event.processId]
    | _ => []

/-- `SiteEventProcessor`, of which `remove_subscription` is all there is to removing.  It
registers subscriptions for another processor. -/
def siteEventProcessor : Processor where
  handles := .site
  manages := .site
  registersAs := .connection
  removes := .site
  addKeys
    | .site => [.all]
    | _ => []
  removeKeys
    | .site => [.all]
    | _ => []
  matchedForEntity _ _ := ∅
  matchedForSite _ _ := ∅
  evaluatedKeys
    | .site _ => [.all]
    | _ => []

/-- `get_subscription_processor`, of those that `EventAccess::startup` registers. -/
def processor : EventType → Processor
  | .movement => movementEventProcessor
  | .emit => emitEventProcessor
  | .connection => connectionEventProcessor
  | .entityChanged => entityChangedEventProcessor
  | .processExecution => processExecutionEventProcessor
  | .site => siteEventProcessor

@[simp] theorem handles_processor (p : EventType) : (processor p).handles = p := by
  cases p <;> rfl

/-- By value, nothing is collected for a site. -/
@[simp] theorem matchedForSite_eq_empty (p : EventType) (lists : Lists) (siteId : SiteIdType) :
    (processor p).matchedForSite lists siteId = ∅ := by
  cases p <;> rfl

/-- By value, nothing is collected for an Entity that has moved. -/
@[simp] theorem matchedForEntity_movement (lists : Lists) (id : Id) :
    (processor .movement).matchedForEntity lists id = ∅ := rfl

/-! ### What matches an event -/

structure SubscriptionsSatisfied where
  /-- `subscriptions_processed` -/
  processed : List SubscriptionId
  /-- `callbacks_satisfied` -/
  satisfied : List SubscriptionId

def evaluateSubscription (isMatch : SubscriptionId → Bool) (tracker : SubscriptionsSatisfied)
    (id : SubscriptionId) : SubscriptionsSatisfied :=
  if id ∈ tracker.processed then tracker
  else if isMatch id then ⟨id :: tracker.processed, tracker.satisfied ++ [id]⟩
  else ⟨id :: tracker.processed, tracker.satisfied⟩

/-- `evaluate_subscriptions`, for one list after the other. -/
def evaluateSubscriptions (isMatch : SubscriptionId → Bool) (lists : List (List SubscriptionId)) :
    SubscriptionsSatisfied :=
  lists.foldl (fun tracker list => list.foldl (evaluateSubscription isMatch) tracker) ⟨[], []⟩

/-- The subscriptions that have been processed, and those among them that match, each once. -/
structure SubscriptionsSatisfied.Tracks (isMatch : SubscriptionId → Bool)
    (tracker : SubscriptionsSatisfied) (ids : List SubscriptionId) : Prop where
  mem_processed : ∀ id, id ∈ tracker.processed ↔ id ∈ ids
  mem_satisfied : ∀ id, id ∈ tracker.satisfied ↔ id ∈ ids ∧ isMatch id = true
  nodup : tracker.satisfied.Nodup

theorem SubscriptionsSatisfied.Tracks.evaluateSubscription {isMatch : SubscriptionId → Bool}
    {tracker : SubscriptionsSatisfied} {ids : List SubscriptionId}
    (h : tracker.Tracks isMatch ids) (id : SubscriptionId) :
    (Events.evaluateSubscription isMatch tracker id).Tracks isMatch (ids ++ [id]) := by
  rw [Events.evaluateSubscription]
  split_ifs with hprocessed hmatch
  · have hid : id ∈ ids := (h.mem_processed id).mp hprocessed
    refine ⟨fun x => ?_, fun x => ?_, h.nodup⟩
    · rw [h.mem_processed, mem_append, mem_singleton]
      exact ⟨.inl, fun hx => hx.elim (fun hx => hx) fun hx => hx ▸ hid⟩
    · rw [h.mem_satisfied, mem_append, mem_singleton]
      refine and_congr_left fun _ => ⟨.inl, fun hx => hx.elim (fun hx => hx) fun hx => hx ▸ hid⟩
  · refine ⟨fun x => ?_, fun x => ?_, ?_⟩
    · rw [mem_cons, h.mem_processed, mem_append, mem_singleton, or_comm]
    · rw [mem_append, h.mem_satisfied, mem_append, mem_singleton]
      constructor
      · rintro (⟨hx, hm⟩ | rfl)
        · exact ⟨.inl hx, hm⟩
        · exact ⟨.inr rfl, hmatch⟩
      · rintro ⟨hx | hx, hm⟩
        · exact .inl ⟨hx, hm⟩
        · exact .inr hx
    · refine nodup_append.mpr ⟨h.nodup, nodup_singleton id, ?_⟩
      rintro x hx y hy rfl
      obtain rfl := mem_singleton.mp hy
      exact hprocessed ((h.mem_processed x).mpr ((h.mem_satisfied x).mp hx).1)
  · refine ⟨fun x => ?_, fun x => ?_, h.nodup⟩
    · rw [mem_cons, h.mem_processed, mem_append, mem_singleton, or_comm]
    · rw [h.mem_satisfied, mem_append, mem_singleton]
      constructor
      · rintro ⟨hx, hm⟩
        exact ⟨.inl hx, hm⟩
      · rintro ⟨hx | rfl, hm⟩
        · exact ⟨hx, hm⟩
        · exact absurd hm hmatch

theorem SubscriptionsSatisfied.Tracks.foldl {isMatch : SubscriptionId → Bool}
    {tracker : SubscriptionsSatisfied} {ids : List SubscriptionId}
    (h : tracker.Tracks isMatch ids) (list : List SubscriptionId) :
    (list.foldl (Events.evaluateSubscription isMatch) tracker).Tracks isMatch (ids ++ list) := by
  induction list generalizing tracker ids with
  | nil => simpa using h
  | cons id list ih => simpa using ih (h.evaluateSubscription id)

theorem tracks_evaluateSubscriptions (isMatch : SubscriptionId → Bool)
    (lists : List (List SubscriptionId)) :
    (evaluateSubscriptions isMatch lists).Tracks isMatch lists.flatten := by
  suffices ∀ (tracker : SubscriptionsSatisfied) (ids : List SubscriptionId),
      tracker.Tracks isMatch ids →
        (lists.foldl (fun tracker list => list.foldl (evaluateSubscription isMatch) tracker)
          tracker).Tracks isMatch (ids ++ lists.flatten) by
    have hstart := this ⟨[], []⟩ [] ⟨by simp, by simp, nodup_nil⟩
    rwa [nil_append] at hstart
  induction lists with
  | nil =>
    intro tracker ids h
    simpa using h
  | cons list lists ih =>
    intro tracker ids h
    simpa using ih _ _ (h.foldl list)

end Mutgos.Events
