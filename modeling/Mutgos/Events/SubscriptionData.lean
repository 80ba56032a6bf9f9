import Mutgos.Events.SubscriptionParams
import Mutgos.Executor.FreshIds
import Mutgos.Lib.ListIndex

/-!
# The table of subscriptions

`events::SubscriptionData`: the details of each subscription under its ID, and the
subscriptions of each process.  Parameters and callbacks belong to it; the pointers to them
that processors keep are the IDs here.

## Main results

* `SubscriptionData.WellFormed` — the invariant: IDs are used once, and the subscriptions of
  processes are those whose callbacks go to them.
-/

namespace Mutgos.Events

open SortedMap

open Executor (PID findFree findFree_spec range_of_findFree)

/-- `events::SubscriptionId`; 0 is no subscription. -/
abbrev SubscriptionId := ℕ

/-- The address of an `EventListener`. -/
abbrev ListenerPtr := ℕ

/-- Who is called back. -/
inductive Recipient where
  | process (pid : PID)
  | listener (listener : ListenerPtr)
  deriving DecidableEq

structure SubscriptionCallback where
  /-- `pid_callback` -/
  pid : PID
  /-- `listener_callback_ptr` -/
  listener : Option ListenerPtr
  deriving DecidableEq

/-- The recipient that `do_callback` and `do_delete_callback` choose. -/
def SubscriptionCallback.recipient (callback : SubscriptionCallback) : Option Recipient :=
  if callback.pid ≠ 0 then some (.process callback.pid) else callback.listener.map .listener

/-- `valid` -/
def SubscriptionCallback.valid (callback : SubscriptionCallback) : Bool :=
  callback.pid ≠ 0 || callback.listener.isSome

theorem SubscriptionCallback.recipient_isSome (callback : SubscriptionCallback) :
    callback.recipient.isSome = callback.valid := by
  rw [recipient, valid]
  by_cases hpid : callback.pid = 0 <;> simp [hpid]

structure SubscriptionDetails where
  /-- `pid`, which is that of the callback. -/
  pid : PID
  eventType : EventType
  /-- `params_ptr` -/
  params : SubscriptionParams
  /-- `callback_ptr` -/
  callback : SubscriptionCallback
  deriving DecidableEq

structure SubscriptionData where
  subscriptionData : List (SubscriptionId × SubscriptionDetails)
  pidSubscriptions : ListIndex PID SubscriptionId
  nextUniqueSubscriptionId : SubscriptionId

def maxSubscriptionId : ℕ := 2 ^ 32 - 2

namespace SubscriptionData

/-- The constructor. -/
def init : SubscriptionData := ⟨[], [], 1⟩

/-- `get_subscription_info`, with the rest of the details. -/
def getSubscriptionInfo (data : SubscriptionData) (id : SubscriptionId) :
    Option SubscriptionDetails :=
  SortedMap.find id data.subscriptionData

/-- An ID is in use. -/
def inUse (data : SubscriptionData) (id : SubscriptionId) : Bool :=
  (data.getSubscriptionInfo id).isSome

/-- `get_next_subscription_id`: an ID, and the next one.  If there is none left, the one that
is returned is in use. -/
def getNextSubscriptionId (data : SubscriptionData) : Option (SubscriptionId × SubscriptionId) :=
  let next := data.nextUniqueSubscriptionId
  if data.inUse next = false then
    some (next, if maxSubscriptionId ≤ next + 1 then 1 else next + 1)
  else if maxSubscriptionId ≤ data.subscriptionData.length then some (next, next)
  else findFree data.inUse maxSubscriptionId maxSubscriptionId next

/-- `add_subscription`, with 0 if the callback is not valid.  `none` is that the search for
an ID never ends. -/
def addSubscription (data : SubscriptionData) (params : SubscriptionParams)
    (subscriptionType : EventType) (callback : SubscriptionCallback) :
    Option (SubscriptionId × SubscriptionData) :=
  if callback.valid then
    data.getNextSubscriptionId.map fun (id, next) =>
      (id, { subscriptionData :=
               (id, ⟨callback.pid, subscriptionType, params, callback⟩) ::
                 SortedMap.erase id data.subscriptionData
             pidSubscriptions :=
               if callback.pid ≠ 0 then data.pidSubscriptions.push callback.pid id
               else data.pidSubscriptions
             nextUniqueSubscriptionId := next })
  else some (0, data)

def removeSubscription (data : SubscriptionData) (id : SubscriptionId) :
    Bool × SubscriptionData :=
  match data.getSubscriptionInfo id with
  | none => (false, data)
  | some details =>
    (true, { data with
      subscriptionData := SortedMap.erase id data.subscriptionData
      pidSubscriptions :=
        if details.pid ≠ 0 then data.pidSubscriptions.update details.pid (·.erase id)
        else data.pidSubscriptions })

/-- How often a subscription is listed for a process: once if its callback goes there. -/
def expected (data : SubscriptionData) (pid : PID) (id : SubscriptionId) : ℕ :=
  match data.getSubscriptionInfo id with
  | none => 0
  | some details => if pid ≠ 0 ∧ details.pid = pid then 1 else 0

/-- IDs are used once, and the subscriptions of processes are those whose callbacks go to
them. -/
structure WellFormed (data : SubscriptionData) : Prop where
  nodup : (data.subscriptionData.map Prod.fst).Nodup
  range : ∀ id ∈ data.subscriptionData.map Prod.fst, 0 < id ∧ id < maxSubscriptionId
  next : 0 < data.nextUniqueSubscriptionId ∧ data.nextUniqueSubscriptionId < maxSubscriptionId
  valid : ∀ id details, data.getSubscriptionInfo id = some details →
    details.callback.valid = true ∧ details.pid = details.callback.pid
  listed : ∀ pid id, (data.pidSubscriptions.listAt pid).count id = data.expected pid id

/-! ### IDs -/

/-- There are fewer subscriptions than IDs. -/
theorem WellFormed.length_lt {data : SubscriptionData} (h : data.WellFormed) :
    data.subscriptionData.length < maxSubscriptionId := by
  have hsubset : (data.subscriptionData.map Prod.fst).toFinset ⊆
      Finset.Ico 1 maxSubscriptionId := by
    intro id hid
    have hrange := h.range id (List.mem_toFinset.mp hid)
    exact Finset.mem_Ico.mpr ⟨hrange.1, hrange.2⟩
  have hcard := Finset.card_le_card hsubset
  rw [List.toFinset_card_of_nodup h.nodup, List.length_map, Nat.card_Ico] at hcard
  have hpos : 0 < maxSubscriptionId := by decide
  omega

/-- The ID that is chosen is not in use. -/
theorem WellFormed.getNextSubscriptionId {data : SubscriptionData} (h : data.WellFormed)
    {id next : SubscriptionId} (hnext : data.getNextSubscriptionId = some (id, next)) :
    data.inUse id = false ∧ (0 < id ∧ id < maxSubscriptionId) ∧
      0 < next ∧ next < maxSubscriptionId := by
  have hmax : 1 < maxSubscriptionId := by decide
  have hrange := h.next
  rw [SubscriptionData.getNextSubscriptionId] at hnext
  split at hnext
  · next hfree =>
    cases hnext
    exact ⟨hfree, hrange, wrapNext_range hmax⟩
  split_ifs at hnext with hfull
  · exact absurd h.length_lt (Nat.not_lt.mpr hfull)
  · exact ⟨(findFree_spec hnext).2, range_of_findFree hrange hnext⟩

/-! ### The operations -/

theorem wellFormed_init : init.WellFormed where
  nodup := List.nodup_nil
  range _ hid := by cases hid
  next := by decide
  valid _ _ hfind := by cases hfind
  listed _ _ := rfl

/-- The details of a new subscription. -/
def newDetails (params : SubscriptionParams) (subscriptionType : EventType)
    (callback : SubscriptionCallback) : SubscriptionDetails :=
  ⟨callback.pid, subscriptionType, params, callback⟩

variable {data' : SubscriptionData} {params : SubscriptionParams} {subscriptionType : EventType}

/-- What `add_subscription` does, with a valid callback. -/
theorem addSubscription_cases {data : SubscriptionData} {callback : SubscriptionCallback}
    {id : SubscriptionId} (hvalid : callback.valid = true)
    (h : data.addSubscription params subscriptionType callback = some (id, data')) :
    ∃ next, data.getNextSubscriptionId = some (id, next) ∧
      data' = ⟨(id, newDetails params subscriptionType callback) ::
          SortedMap.erase id data.subscriptionData,
        if callback.pid ≠ 0 then data.pidSubscriptions.push callback.pid id
          else data.pidSubscriptions, next⟩ := by
  rw [addSubscription, if_pos hvalid, Option.map_eq_some_iff] at h
  obtain ⟨⟨id', next⟩, hnext, h⟩ := h
  cases h
  exact ⟨next, hnext, rfl⟩

theorem find_addSubscription {data : SubscriptionData} {callback : SubscriptionCallback}
    {id : SubscriptionId} (hvalid : callback.valid = true)
    (h : data.addSubscription params subscriptionType callback = some (id, data'))
    (id' : SubscriptionId) :
    data'.getSubscriptionInfo id' =
      if id' = id then some (newDetails params subscriptionType callback)
      else data.getSubscriptionInfo id' := by
  obtain ⟨next, -, rfl⟩ := addSubscription_cases hvalid h
  rw [getSubscriptionInfo, SortedMap.find, find_erase]
  split <;> rfl

theorem find_removeSubscription (data : SubscriptionData) (id id' : SubscriptionId) :
    (data.removeSubscription id).2.getSubscriptionInfo id' =
      if id' = id then none else data.getSubscriptionInfo id' := by
  rw [removeSubscription]
  split
  · next hnone =>
    split
    · next heq => rw [heq, hnone]
    · rfl
  · rw [getSubscriptionInfo, find_erase]
    rfl

theorem WellFormed.addSubscription {data : SubscriptionData} (hdata : data.WellFormed)
    {callback : SubscriptionCallback} {id : SubscriptionId} (hvalid : callback.valid = true)
    (h : data.addSubscription params subscriptionType callback = some (id, data')) :
    data'.WellFormed ∧ 0 < id ∧ data.getSubscriptionInfo id = none := by
  have hfind := find_addSubscription hvalid h
  obtain ⟨next, hnext, rfl⟩ := addSubscription_cases hvalid h
  obtain ⟨hfree, hid, hnextRange⟩ := hdata.getNextSubscriptionId hnext
  have hnone : data.getSubscriptionInfo id = none := by
    rw [inUse, Option.isSome_eq_false_iff, Option.isNone_iff_eq_none] at hfree
    exact hfree
  refine ⟨⟨?_, ?_, hnextRange, ?_, ?_⟩, hid.1, hnone⟩
  · rw [List.map_cons, List.nodup_cons]
    refine ⟨fun hmem => ((mem_keys_erase _ _ _).mp hmem).1 rfl, ?_⟩
    exact hdata.nodup.sublist ((erase_sublist id _).map Prod.fst)
  · intro id' hmem
    rcases List.mem_cons.mp hmem with rfl | hmem
    · exact hid
    · exact hdata.range id' ((mem_keys_erase _ _ _).mp hmem).2
  · intro id' details hdetails
    rw [hfind] at hdetails
    split at hdetails
    · cases hdetails
      exact ⟨hvalid, rfl⟩
    · exact hdata.valid id' details hdetails
  · intro pid id'
    rw [expected, hfind]
    have hlisted := hdata.listed pid id'
    rw [expected] at hlisted
    by_cases hid' : id' = id
    · subst hid'
      rw [hnone] at hlisted
      rw [if_pos rfl]
      dsimp only [newDetails] at hlisted ⊢
      by_cases hpid : callback.pid = 0
      · have hne : ¬(pid ≠ 0 ∧ callback.pid = pid) := fun ⟨hne, heq⟩ => hne (heq ▸ hpid)
        rw [if_neg (not_not.mpr hpid), if_neg hne]
        exact hlisted
      · rw [if_pos hpid, ListIndex.count_push, hlisted, zero_add]
        by_cases hsame : pid = callback.pid
        · simp [hsame, hpid]
        · simp [hsame, Ne.symm hsame]
    · rw [if_neg hid']
      dsimp only
      split
      · rw [ListIndex.count_push, hlisted]
        simp [hid']
      · exact hlisted

theorem WellFormed.removeSubscription {data : SubscriptionData} (hdata : data.WellFormed)
    (id : SubscriptionId) : (data.removeSubscription id).2.WellFormed := by
  have hfind := find_removeSubscription data id
  cases hinfo : data.getSubscriptionInfo id with
  | none =>
    rw [SubscriptionData.removeSubscription, hinfo]
    exact hdata
  | some details =>
    have hkeys : (data.removeSubscription id).2.subscriptionData =
        SortedMap.erase id data.subscriptionData := by
      rw [SubscriptionData.removeSubscription, hinfo]
    have hpids : (data.removeSubscription id).2.pidSubscriptions =
        if details.pid ≠ 0 then data.pidSubscriptions.update details.pid (·.erase id)
        else data.pidSubscriptions := by
      rw [SubscriptionData.removeSubscription, hinfo]
    have hnext : (data.removeSubscription id).2.nextUniqueSubscriptionId =
        data.nextUniqueSubscriptionId := by
      rw [SubscriptionData.removeSubscription, hinfo]
    refine ⟨?_, ?_, hnext ▸ hdata.next, ?_, ?_⟩
    · rw [hkeys]
      exact hdata.nodup.sublist ((erase_sublist id _).map Prod.fst)
    · intro id' hmem
      rw [hkeys] at hmem
      exact hdata.range id' ((mem_keys_erase _ _ _).mp hmem).2
    · intro id' details' hdetails
      rw [hfind] at hdetails
      split at hdetails
      · cases hdetails
      · exact hdata.valid id' details' hdetails
    · intro pid id'
      have hlisted := hdata.listed pid id'
      rw [expected] at hlisted
      rw [expected, hfind, hpids]
      by_cases hid' : id' = id
      · subst hid'
        rw [hinfo] at hlisted
        rw [if_pos rfl]
        dsimp only at hlisted ⊢
        split
        · rw [ListIndex.listAt_update (by simp)]
          split
          · next hsame =>
            subst hsame
            rw [List.count_erase_self, hlisted]
            split <;> rfl
          · next hdiff =>
            rw [hlisted, if_neg fun h => hdiff h.2.symm]
        · next hzero =>
          rw [hlisted, if_neg]
          rintro ⟨hne, rfl⟩
          exact hzero hne
      · rw [if_neg hid', ← hlisted]
        split
        · rw [ListIndex.listAt_update (by simp)]
          split
          · next hsame =>
            subst hsame
            rw [List.count_erase_of_ne hid']
          · rfl
        · rfl

end SubscriptionData

end Mutgos.Events
