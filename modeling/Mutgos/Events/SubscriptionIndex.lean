import Mutgos.Events.EventSystem

/-!
# What is in the lists of the processors

The lists of a processor are an index of the table of subscriptions: each subscription is
in the lists that its parameters call for, and nothing else is in any list.

## Main results

* `EventSystem.subscribe_cases`, `EventSystem.internalRemove_cases`,
  `EventSystem.unsubscribe_cases` — what the operations do, as a whole.
-/

namespace Mutgos.Events

open DbTypes Function
open Executor (PID)

/-! ### The processors -/

/-- A processor has lists for the parameters that it manages. -/
theorem addKeys_eq_nil {p : EventType} {params : SubscriptionParams}
    (h : params.getType ≠ (processor p).manages) : (processor p).addKeys params = [] := by
  cases p <;> cases params <;> first | rfl | exact absurd rfl h

/-- A subscription is removed from all the lists it has been put in. -/
theorem count_addKeys_le (p : EventType) (params : SubscriptionParams) (k : ListKey) :
    ((processor p).addKeys params).count k ≤ ((processor p).removeKeys params).count k := by
  cases p with
  | emit =>
    cases params with
    | emit params =>
      refine List.Sublist.count_le k ?_
      change List.Sublist (_ ++ _) ([ListKey.entity .source params.source] ++
        [ListKey.entity .target params.target])
      refine List.Sublist.append ?_ ?_ <;> split <;> simp
    | _ => exact Nat.le_refl _
  | _ => exact Nat.le_refl _

namespace EventSystem

@[simp] theorem manages_processorFor (t : SubscriptionType) :
    (processor (processorFor t)).manages = t := by
  cases t <;> rfl

@[simp] theorem processorFor_manages (p : EventType) :
    processorFor (processor p).manages = p := by
  cases p <;> rfl

variable {p : EventType} {s s' : EventSystem} {k : ListKey}

/-- A processor removes what it manages, unless it is the one of executions of processes. -/
theorem removes_eq_manages (hp : p ≠ .processExecution) :
    (processor p).removes = (processor p).manages := by
  cases p <;> first | rfl | exact absurd rfl hp

/-! ### The invariant -/

/-- How often a subscription should be in a list. -/
def expected (s : EventSystem) (p : EventType) (k : ListKey) (id : SubscriptionId) : ℕ :=
  match s.data.getSubscriptionInfo id with
  | none => 0
  | some details => ((processor p).addKeys details.params).count k

/-- The lists are an index of the table. -/
structure Indexed (s : EventSystem) : Prop where
  data : s.data.WellFormed
  valid : ∀ id details, s.data.getSubscriptionInfo id = some details →
    details.params.validate = true
  registered : ∀ id details, s.data.getSubscriptionInfo id = some details →
    details.eventType = (processor (processorFor details.params.getType)).registersAs
  listed : ∀ p k id, ((s.lists p).listAt k).count id = s.expected p k id

/-- A processor is the one that manages a subscription. -/
def Manages (s : EventSystem) (p : EventType) (id : SubscriptionId) : Prop :=
  ∃ details, s.data.getSubscriptionInfo id = some details ∧
    details.params.getType = (processor p).manages

/-- What is listed is a subscription, and its processor lists it. -/
theorem Indexed.mem_listAt (hs : s.Indexed) {id : SubscriptionId} :
    id ∈ (s.lists p).listAt k ↔
      ∃ details, s.data.getSubscriptionInfo id = some details ∧
        k ∈ (processor p).addKeys details.params := by
  rw [← List.count_pos_iff, hs.listed, expected]
  cases hinfo : s.data.getSubscriptionInfo id with
  | none => simp
  | some details => simp [List.count_pos_iff]

theorem Indexed.manages (hs : s.Indexed) {id : SubscriptionId} (h : id ∈ (s.lists p).listAt k) :
    s.Manages p id := by
  obtain ⟨details, hinfo, hk⟩ := hs.mem_listAt.mp h
  refine ⟨details, hinfo, ?_⟩
  by_contra hne
  rw [addKeys_eq_nil hne] at hk
  cases hk

/-- A subscription is listed once in each list that its parameters call for once. -/
theorem Indexed.nodup (hs : s.Indexed)
    (hkeys : ∀ params, ((processor p).addKeys params).count k ≤ 1) :
    ((s.lists p).listAt k).Nodup := by
  rw [List.nodup_iff_count_le_one]
  intro id
  rw [hs.listed, expected]
  split
  · exact Nat.zero_le 1
  · exact hkeys _

/-- A subscription is where it was before. -/
structure Untouched (s s' : EventSystem) (id : SubscriptionId) : Prop where
  info : s'.data.getSubscriptionInfo id = s.data.getSubscriptionInfo id
  lists : ∀ p k, ((s'.lists p).listAt k).count id = ((s.lists p).listAt k).count id
  pids : ∀ pid, (s'.data.pidSubscriptions.listAt pid).count id =
    (s.data.pidSubscriptions.listAt pid).count id

/-- The table knows nothing of a subscription. -/
def Unknown (s : EventSystem) (id : SubscriptionId) : Prop :=
  s.data.getSubscriptionInfo id = none ∧ ∀ pid, id ∉ s.data.pidSubscriptions.listAt pid

/-- The table says where a subscription is. -/
theorem Indexed.untouched (hs : s.Indexed) (hs' : s'.Indexed) {id : SubscriptionId}
    (hinfo : s'.data.getSubscriptionInfo id = s.data.getSubscriptionInfo id) :
    s.Untouched s' id where
  info := hinfo
  lists p k := by
    rw [hs'.listed, hs.listed, expected, hinfo, expected]
  pids pid := by
    rw [hs'.data.listed, hs.data.listed, SubscriptionData.expected, hinfo,
      SubscriptionData.expected]

theorem Indexed.unknown (hs : s.Indexed) {id : SubscriptionId}
    (hinfo : s.data.getSubscriptionInfo id = none) : s.Unknown id := by
  refine ⟨hinfo, fun pid => ?_⟩
  rw [← List.count_eq_zero, hs.data.listed, SubscriptionData.expected, hinfo]

/-- What is not known is not listed. -/
theorem Indexed.not_mem_listAt (hs : s.Indexed) {id : SubscriptionId}
    (hinfo : s.data.getSubscriptionInfo id = none) (p : EventType) (k : ListKey) :
    id ∉ (s.lists p).listAt k := by
  intro hid
  obtain ⟨details, hsome, -⟩ := hs.mem_listAt.mp hid
  rw [hinfo] at hsome
  cases hsome

/-- Only one processor manages a subscription. -/
theorem Manages.unique {q : EventType} {id : SubscriptionId} (hp : s.Manages p id)
    (hq : s.Manages q id) : p = q := by
  obtain ⟨details, hinfo, hmanages⟩ := hp
  obtain ⟨details', hinfo', hmanages'⟩ := hq
  rw [hinfo] at hinfo'
  cases hinfo'
  rw [← processorFor_manages p, ← hmanages, hmanages', processorFor_manages]

theorem indexed_init : init.Indexed where
  data := SubscriptionData.wellFormed_init
  valid _ _ hinfo := by cases hinfo
  registered _ _ hinfo := by cases hinfo
  listed _ _ _ := rfl

/-- The notices do not matter. -/
theorem Indexed.of_notices (hs : s.Indexed) (hdata : s'.data = s.data)
    (hlists : s'.lists = s.lists) : s'.Indexed where
  data := hdata ▸ hs.data
  valid := hdata ▸ hs.valid
  registered := hdata ▸ hs.registered
  listed p k id := by
    rw [hlists, hs.listed, expected, expected, hdata]

/-! ### Subscribing -/

/-- What `subscribe` does: nothing, or there is a new subscription. -/
theorem subscribe_cases (hs : s.Indexed) {params : SubscriptionParams}
    {callback : SubscriptionCallback} {id : SubscriptionId}
    (h : s.subscribe params callback = some (id, s')) :
    id = 0 ∧ s' = s ∨
      id ≠ 0 ∧ s.data.getSubscriptionInfo id = none ∧ s'.Indexed ∧ s'.notices = s.notices ∧
        ∀ id', s'.data.getSubscriptionInfo id' =
          if id' = id then
            some (SubscriptionData.newDetails params
              (processor (processorFor params.getType)).registersAs callback)
          else s.data.getSubscriptionInfo id' := by
  rw [subscribe, addSubscription, manages_processorFor, if_neg (not_not.mpr rfl)] at h
  split at h
  · cases h
    exact .inl ⟨rfl, rfl⟩
  next hvalidate =>
    rw [Bool.not_eq_true', Bool.not_eq_false] at hvalidate
    rw [Option.map_eq_some_iff] at h
    obtain ⟨⟨id', data⟩, hadd, h⟩ := h
    dsimp only at h
    cases hvalid : callback.valid with
    | false =>
      -- a callback that is not valid gets the ID 0
      rw [SubscriptionData.addSubscription, if_neg (hvalid ▸ Bool.false_ne_true)] at hadd
      cases hadd
      rw [if_neg (not_not.mpr rfl)] at h
      cases h
      exact .inl ⟨rfl, rfl⟩
    | true =>
      obtain ⟨hdata, hpos, hnone⟩ := hs.data.addSubscription hvalid hadd
      have hfind := SubscriptionData.find_addSubscription hvalid hadd
      have hne : id' ≠ 0 := Nat.pos_iff_ne_zero.mp hpos
      rw [if_pos hne] at h
      cases h
      refine .inr ⟨hne, hnone, ⟨hdata, ?_, ?_, ?_⟩, rfl, hfind⟩
      · intro x details hinfo
        rw [hfind] at hinfo
        split at hinfo
        · cases hinfo
          exact hvalidate
        · exact hs.valid x details hinfo
      · intro x details hinfo
        rw [hfind] at hinfo
        split at hinfo
        · cases hinfo
          rfl
        · exact hs.registered x details hinfo
      · intro p k x
        have hlisted := hs.listed p k x
        rw [expected] at hlisted ⊢
        dsimp only
        rw [hfind]
        by_cases hp : p = processorFor params.getType
        · subst hp
          rw [update_self, ListIndex.count_pushAll, hlisted]
          by_cases hx : x = id
          · subst hx
            rw [hnone, if_pos rfl, if_pos rfl, zero_add]
            rfl
          · rw [if_neg hx, if_neg hx, add_zero]
        · rw [update_of_ne hp, hlisted]
          by_cases hx : x = id
          · subst hx
            have hmanages : params.getType ≠ (processor p).manages := by
              intro heq
              exact hp (by rw [heq, processorFor_manages])
            rw [hnone, if_pos rfl]
            dsimp only [SubscriptionData.newDetails]
            rw [addKeys_eq_nil hmanages, List.count_nil]
          · rw [if_neg hx]

/-! ### Removing -/

theorem lists_internalRemove (s : EventSystem) {q : EventType} (hq : q ≠ p) (id : SubscriptionId) :
    (s.internalRemove p id).2.lists q = s.lists q := by
  rw [internalRemove]
  split
  · rfl
  · split
    · rfl
    · exact update_of_ne hq _ _

/-- What `internal_remove_subscription` does for a subscription that its processor manages,
or for one that the processor does not remove: nothing, or the subscription is gone. -/
theorem internalRemove_cases (hs : s.Indexed) (p : EventType) (id : SubscriptionId)
    (hp : ∀ details, s.data.getSubscriptionInfo id = some details →
      details.params.getType = (processor p).removes →
        details.params.getType = (processor p).manages) :
    (s.internalRemove p id = (false, s) ∧
        ∀ details, s.data.getSubscriptionInfo id = some details →
          details.params.getType ≠ (processor p).removes) ∨
      (s.internalRemove p id).1 = true ∧ s.Manages p id ∧ p ≠ .processExecution ∧
        (s.internalRemove p id).2.Indexed ∧
        (s.internalRemove p id).2.notices = s.notices ∧
        ∀ id', (s.internalRemove p id).2.data.getSubscriptionInfo id' =
          if id' = id then none else s.data.getSubscriptionInfo id' := by
  cases hinfo : s.data.getSubscriptionInfo id with
  | none =>
    refine .inl ⟨?_, fun _ h => by cases h⟩
    rw [internalRemove, hinfo]
  | some details =>
    by_cases htype : details.params.getType = (processor p).removes
    · have hmanages := hp details hinfo htype
      have hremove : s.internalRemove p id =
          (true, { s with
            data := (s.data.removeSubscription id).2
            lists := update s.lists p
              ((s.lists p).removeAll ((processor p).removeKeys details.params) id) }) := by
        have hfirst : (s.data.removeSubscription id).1 = true := by
          rw [SubscriptionData.removeSubscription, hinfo]
        rw [internalRemove, hinfo]
        dsimp only
        rw [if_neg (not_not.mpr htype), hfirst]
      have hfind := SubscriptionData.find_removeSubscription s.data id
      rw [hremove]
      refine .inr ⟨rfl, ⟨details, hinfo, hmanages⟩, ?_, ⟨?_, ?_, ?_, ?_⟩, rfl, hfind⟩
      · rintro rfl
        rw [hmanages] at htype
        cases htype
      · exact hs.data.removeSubscription id
      · intro x details' hinfo'
        rw [hfind] at hinfo'
        split at hinfo'
        · cases hinfo'
        · exact hs.valid x details' hinfo'
      · intro x details' hinfo'
        rw [hfind] at hinfo'
        split at hinfo'
        · cases hinfo'
        · exact hs.registered x details' hinfo'
      · intro q k x
        have hlisted := hs.listed q k x
        rw [expected] at hlisted ⊢
        dsimp only
        rw [hfind]
        by_cases hq : q = p
        · subst hq
          rw [update_self, ListIndex.count_removeAll, hlisted]
          by_cases hx : x = id
          · subst hx
            rw [hinfo, if_pos rfl, if_pos rfl]
            exact Nat.sub_eq_zero_of_le (count_addKeys_le q details.params k)
          · rw [if_neg hx, if_neg hx, Nat.sub_zero]
        · rw [update_of_ne hq, hlisted]
          by_cases hx : x = id
          · subst hx
            have hne : details.params.getType ≠ (processor q).manages := by
              intro heq
              refine hq ?_
              rw [← processorFor_manages q, ← heq, hmanages, processorFor_manages]
            rw [hinfo, if_pos rfl]
            dsimp only
            rw [addKeys_eq_nil hne, List.count_nil]
          · rw [if_neg hx]
    · refine .inl ⟨?_, fun _ h => by cases h; exact htype⟩
      rw [internalRemove, hinfo]
      dsimp only
      rw [if_pos htype]

/-- The processor that a subscription is registered for manages what it removes. -/
theorem removes_registersAs (p : EventType) :
    (processor (processor p).registersAs).removes =
      (processor (processor p).registersAs).manages := by
  cases p <;> rfl

/-- What `unsubscribe` does for a subscription: it is gone, if it is registered for the
processor that manages it, or else nothing. -/
theorem unsubscribe_cases (hs : s.Indexed) {id : SubscriptionId} {details : SubscriptionDetails}
    (hinfo : s.data.getSubscriptionInfo id = some details) :
    (s.unsubscribe id = (false, s) ∧
        (processor details.eventType).manages ≠ details.params.getType) ∨
      (s.unsubscribe id).1 = true ∧
        (processor details.eventType).manages = details.params.getType ∧
        (s.unsubscribe id).2.Indexed ∧ (s.unsubscribe id).2.notices = s.notices ∧
        ∀ id', (s.unsubscribe id).2.data.getSubscriptionInfo id' =
          if id' = id then none else s.data.getSubscriptionInfo id' := by
  have hregistered := hs.registered id details hinfo
  have hremoves : (processor details.eventType).removes =
      (processor details.eventType).manages := by
    rw [hregistered, removes_registersAs]
  have heq : s.unsubscribe id = s.internalRemove details.eventType id := by
    rw [unsubscribe, hinfo]
  rw [heq]
  rcases internalRemove_cases hs details.eventType id fun details' _ htype => htype.trans hremoves with
    ⟨hsame, hno⟩ | ⟨hok, hmanages, -, hindexed, hnotices, hfind⟩
  · exact .inl ⟨hsame, fun h => hno details hinfo (by rw [hremoves, h])⟩
  · obtain ⟨details', hinfo', htype⟩ := hmanages
    rw [hinfo] at hinfo'
    cases hinfo'
    exact .inr ⟨hok, htype.symm, hindexed, hnotices, hfind⟩

theorem Indexed.unsubscribe (hs : s.Indexed) (id : SubscriptionId) :
    (s.unsubscribe id).2.Indexed := by
  cases hinfo : s.data.getSubscriptionInfo id with
  | none =>
    rw [EventSystem.unsubscribe, hinfo]
    exact hs
  | some details =>
    rcases unsubscribe_cases hs hinfo with ⟨hsame, -⟩ | ⟨-, -, hindexed, -⟩
    · rw [hsame]
      exact hs
    · exact hindexed

end EventSystem

end Mutgos.Events
