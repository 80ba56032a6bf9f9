import Mutgos.Events.SubscriptionProcessors

/-!
# The event system

`EventAccess` and the thread of `EventQueueProcessor`: the table of subscriptions, the lists
of the processors, and who has been called back.  Calls are taken one after the other, each
under the locks that it holds.  What a listener does when it is called back is one of the
next calls.

The order in which the subscriptions of a set are removed is that of their addresses, so that
it may be any.
-/

namespace Mutgos.Events

open DbTypes
open Executor (PID)

/-- Why somebody is called back. -/
inductive Reason where
  | eventMatched (event : Event)
  | subscriptionDeleted
  deriving DecidableEq

/-- Somebody is called back about a subscription. -/
structure Notice where
  recipient : Recipient
  subscription : SubscriptionId
  reason : Reason
  deriving DecidableEq

/-- The event system. -/
structure EventSystem where
  /-- `subscription_data_ptr` -/
  data : SubscriptionData
  /-- The lists of the processors. -/
  lists : EventType → Lists
  /-- Who has been called back so far. -/
  notices : List Notice

namespace EventSystem

/-- `EventAccess::startup` -/
def init : EventSystem := ⟨.init, fun _ => [], []⟩

/-! ### Subscribing -/

/-- `add_subscription` of a processor.  `none` is that the search for an ID never ends. -/
def addSubscription (s : EventSystem) (p : EventType) (params : SubscriptionParams)
    (callback : SubscriptionCallback) : Option (SubscriptionId × EventSystem) :=
  if params.getType ≠ (processor p).manages then some (0, s)
  else if !params.validate then some (0, s)
  else
    (s.data.addSubscription params (processor p).registersAs callback).map fun (id, data) =>
      if id ≠ 0 then
        (id, { s with
          data := data
          lists := Function.update s.lists p
            ((s.lists p).pushAll ((processor p).addKeys params) id) })
      else (id, { s with data := data })

/-- The processor that `EventAccess::subscribe` chooses. -/
def processorFor : SubscriptionType → EventType
  | .movement => .movement
  | .emit => .emit
  | .connection => .connection
  | .entityChanged => .entityChanged
  | .processExecution => .processExecution
  | .site => .site

/-- `EventAccess::subscribe` -/
def subscribe (s : EventSystem) (params : SubscriptionParams) (callback : SubscriptionCallback) :
    Option (SubscriptionId × EventSystem) :=
  s.addSubscription (processorFor params.getType) params callback

/-- `internal_remove_subscription` of a processor. -/
def internalRemove (s : EventSystem) (p : EventType) (id : SubscriptionId) :
    Bool × EventSystem :=
  match s.data.getSubscriptionInfo id with
  | none => (false, s)
  | some details =>
    if details.params.getType ≠ (processor p).removes then (false, s)
    else
      let (success, data) := s.data.removeSubscription id
      (success, { s with
        data := data
        lists := Function.update s.lists p
          ((s.lists p).removeAll ((processor p).removeKeys details.params) id) })

/-- `EventAccess::unsubscribe` -/
def unsubscribe (s : EventSystem) (id : SubscriptionId) : Bool × EventSystem :=
  match s.data.getSubscriptionInfo id with
  | none => (false, s)
  | some details => s.internalRemove details.eventType id

/-! ### Callbacks -/

/-- `do_callback` and `do_delete_callback` of the callback of a subscription. -/
def callBack (s : EventSystem) (reason : Reason) (id : SubscriptionId) : EventSystem :=
  { s with
    notices := s.notices ++
      match (s.data.getSubscriptionInfo id).bind (·.callback.recipient) with
      | some recipient => [⟨recipient, id, reason⟩]
      | none => [] }

/-- A subscription matches an event. -/
def isMatch (s : EventSystem) (event : Event) (id : SubscriptionId) : Bool :=
  (s.data.getSubscriptionInfo id).any fun details => details.params.isMatch event

/-- The subscriptions that are called back about an event. -/
def satisfied (s : EventSystem) (p : EventType) (event : Event) : List SubscriptionId :=
  (evaluateSubscriptions (s.isMatch event)
    (((processor p).evaluatedKeys event).map (s.lists p).listAt)).satisfied

/-- `process_event` of a processor, up to `process_callbacks`. -/
def dispatch (s : EventSystem) (p : EventType) (event : Event) : EventSystem :=
  if event.eventType ≠ (processor p).handles then s
  else (s.satisfied p event).foldl (fun s id => s.callBack (.eventMatched event) id) s

/-! ### Deletions -/

/-- The loop that tells of the subscriptions and removes them. -/
def removeDeleted (s : EventSystem) (p : EventType) (ids : List SubscriptionId) : EventSystem :=
  ids.foldl (fun s id => ((s.callBack .subscriptionDeleted id).internalRemove p id).2) s

/-- A set of subscriptions is removed, in some order. -/
def removeMatched (s : EventSystem) (p : EventType) (set : SubscriptionCallbackSet)
    (order : List SubscriptionId) : Option EventSystem :=
  if order.Nodup ∧ order.toFinset = set then some (s.removeDeleted p order) else none

/-- `entity_deleted` of each processor. -/
def entityDeleted (s : EventSystem) (id : Id) (order : EventType → List SubscriptionId) :
    Option EventSystem :=
  EventType.all.foldlM (fun s p =>
    s.removeMatched p ((processor p).matchedForEntity (s.lists p) id) (order p)) s

/-- `site_deleted` of each processor. -/
def siteDeleted (s : EventSystem) (siteId : SiteIdType)
    (order : EventType → List SubscriptionId) : Option EventSystem :=
  EventType.all.foldlM (fun s p =>
    s.removeMatched p ((processor p).matchedForSite (s.lists p) siteId) (order p)) s

/-- The end of `ProcessExecutionEventProcessor::process_event`: the subscriptions for a
process that has ended. -/
def removeForProcess (s : EventSystem) (pid : PID) : EventSystem :=
  s.removeDeleted .processExecution ((s.lists .processExecution).listAt (.pid pid))

/-- The loop of the thread over the subscriptions of a process that has ended. -/
def unsubscribeProcess (s : EventSystem) (pid : PID) : EventSystem :=
  (s.data.pidSubscriptions.listAt pid).foldl (fun s id => (s.unsubscribe id).2) s

/-- `EventQueueProcessor::thread_main`, for one event. -/
def processEvent (s : EventSystem) (event : Event) (order : EventType → List SubscriptionId) :
    Option EventSystem :=
  let s := s.dispatch event.eventType event
  match event with
  | .entityChanged event =>
    if event.entityAction = .deleted then s.entityDeleted event.entityId order else some s
  | .site event =>
    if event.siteAction = .delete then s.siteDeleted event.siteId order else some s
  | .processExecution event =>
    if event.processState = .completed then
      some ((s.removeForProcess event.processId).unsubscribeProcess event.processId)
    else some s
  | _ => some s

/-! ### Steps -/

end EventSystem

/-- A call. -/
inductive EventCall where
  | subscribe (params : SubscriptionParams) (callback : SubscriptionCallback)
  | unsubscribe (id : SubscriptionId)
  | processEvent (event : Event) (order : EventType → List SubscriptionId)

/-- What a call does. -/
def EventSystem.step (s : EventSystem) : EventCall → Option EventSystem
  | .subscribe params callback => (s.subscribe params callback).map Prod.snd
  | .unsubscribe id => some (s.unsubscribe id).2
  | .processEvent event order => s.processEvent event order

end Mutgos.Events
