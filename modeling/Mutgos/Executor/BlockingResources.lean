import Mutgos.Executor.Scheduling

/-!
# What a blocked process waits for

A process that goes `BLOCKED` waits for one message from each of its blocking resources.
`default_blocked_resources` holds their RIDs, `blocked_resources` those that have not sent a
message yet, and `reset_blocked_resources` makes the second a copy of the first.  The two are
meant to stay among the RIDs of the resources that the process owns.  All operations see to
that but the removal of a resource by its pointer, which leaves the RID in
`default_blocked_resources`: the next reset has the process wait for a resource that is gone.

## Main results

* `Watched.Valid.call` — **what one operation preserves.**
* `holds_iff` — **after any operations a process waits for what it owns, exactly if no
  blocking resource is removed by its pointer.**
-/

namespace Mutgos.Executor

open DbTypes Finset

/-- The operations of `ProcessInfo` on resources, and the message that one of them sends. -/
inductive ResourceCall
  | addResource (rid : RID) (resource : Option ResourcePtr)
  | addBlockingResource (rid : RID) (resource : Option ResourcePtr)
  | removeResource (rid : RID)
  | removeResourcePtr (resource : Option ResourcePtr)
  | addMessage (message : Option MessagePtr) (rid : RID)
  | resetBlockedResources
  deriving DecidableEq, Repr

namespace ProcessInfo

/-- The process after an operation.  A null pointer is only complained about. -/
def call (info : ProcessInfo) : ResourceCall → ProcessInfo
  | .addResource rid resource => (info.addResource rid resource).2
  | .addBlockingResource rid resource => (info.addBlockingResource rid resource).2
  | .removeResource rid => (info.removeResource rid).2
  | .removeResourcePtr none => info
  | .removeResourcePtr (some resource) => (info.removeResourcePtr resource).2
  | .addMessage message rid => (info.addMessage message rid).2
  | .resetBlockedResources => info.resetBlockedResources

/-- The RID that the removal of a resource by its pointer comes upon: the first under which it
stands in `resources`. -/
def ridOf (info : ProcessInfo) (resource : ResourcePtr) : Option RID :=
  (info.resources.toList.find? fun entry => entry.2 == resource).map Prod.fst

/-- The resource that a removal by pointer takes away is not a blocking one. -/
def KeepsBlocking (info : ProcessInfo) (resource : ResourcePtr) : Prop :=
  ∀ rid, info.ridOf resource = some rid → rid ∉ info.defaultBlockedResources

theorem removeResourcePtr_eq (info : ProcessInfo) (resource : ResourcePtr) :
    info.ridOf resource = none ∧ (info.removeResourcePtr resource).2 = info ∨
    ∃ rid, info.ridOf resource = some rid ∧ (info.removeResourcePtr resource).2 = { info with
      resources := info.resources.erase rid
      blockedResources := info.blockedResources.erase rid } := by
  rw [ridOf, removeResourcePtr]
  cases info.resources.toList.find? fun entry => entry.2 == resource with
  | none => exact Or.inl ⟨rfl, rfl⟩
  | some entry => exact Or.inr ⟨entry.1, rfl, rfl⟩

instance (info : ProcessInfo) (resource : ResourcePtr) : Decidable (info.KeepsBlocking resource) :=
  match h : info.ridOf resource with
  | none => isTrue fun rid hrid => by rw [h] at hrid; cases hrid
  | some rid =>
    if hmem : rid ∈ info.defaultBlockedResources then isFalse fun hkeeps => hkeeps rid h hmem
    else isTrue fun rid' hrid => by rw [h] at hrid; cases hrid; exact hmem

end ProcessInfo

/-- A process, and the RIDs that have sent a message since the last reset. -/
structure Watched where
  info : ProcessInfo
  reported : Finset RID

namespace Watched

/-- The RIDs that have sent a message, after an operation.  A blocking resource that is added,
also under a RID that was known, has not sent one yet. -/
def reports (w : Watched) : ResourceCall → Finset RID
  | .addBlockingResource rid resource =>
    if (w.info.addBlockingResource rid resource).1 then w.reported.erase rid else w.reported
  | .addMessage none _ => w.reported
  | .addMessage (some _) rid =>
    if rid ≠ 0 ∧ rid ∈ w.info.resources then insert rid w.reported else w.reported
  | .resetBlockedResources => ∅
  | .addResource _ _ | .removeResource _ | .removeResourcePtr _ => w.reported

/-- An operation on a process that is watched. -/
def call (w : Watched) (c : ResourceCall) : Watched := ⟨w.info.call c, w.reports c⟩

/-- A process that has just been created. -/
def new (pid : PID) (process : ProcessPtr) (executableId ownerId : Id) : Watched :=
  ⟨.new pid process executableId ownerId, ∅⟩

/-- **What a process that goes `BLOCKED` may rely on.** -/
structure Holds (w : Watched) : Prop where
  blocked : w.info.blockedResources ⊆ w.info.defaultBlockedResources
  owned : ∀ rid ∈ w.info.defaultBlockedResources, rid ∈ w.info.resources
  /-- Where it goes `BLOCKED`, it waits for RIDs it owns. -/
  waits : ∀ now sleepMs info, w.info.afterExecute .blocked now sleepMs = (false, info) →
    info.processState = .blocked → ∀ rid ∈ info.blockedResources, rid ∈ info.resources
  /-- When every blocking resource it owns has sent a message, it waits for nothing. -/
  empty : (∀ rid ∈ w.info.defaultBlockedResources, rid ∈ w.info.resources → rid ∈ w.reported) →
    w.info.blockedResourcesEmpty = true

/-- The invariant: it waits for the blocking resources that have not sent a message. -/
structure Valid (w : Watched) : Prop where
  owned : ∀ rid ∈ w.info.defaultBlockedResources, rid ∈ w.info.resources
  awaited : ∀ rid, rid ∈ w.info.blockedResources ↔
    rid ∈ w.info.defaultBlockedResources ∧ rid ∉ w.reported

variable {w : Watched} {resource : ResourcePtr}

theorem valid_new (pid : PID) (process : ProcessPtr) (executableId ownerId : Id) :
    (new pid process executableId ownerId).Valid where
  owned := fun rid h => absurd h (notMem_empty rid)
  awaited := fun rid => by simp [new, ProcessInfo.new]

/-- There are no resources under the RID 0. -/
example : w.call (.addResource 0 resource) = w ∧ w.call (.addBlockingResource 0 resource) = w ∧
    w.call (.addMessage none 0) = w := by
  simp [call, ProcessInfo.call, reports, ProcessInfo.addResource, ProcessInfo.addBlockingResource,
    ProcessInfo.addMessage]

/-! ### One operation -/

/-- A resource that is not blocking: only the resources change. -/
theorem Valid.addResource (h : w.Valid) (rid : RID) (resource : Option ResourcePtr) :
    (w.call (.addResource rid resource)).Valid := by
  cases resource with
  | none => exact h
  | some resource =>
    by_cases hrid : rid = 0
    · subst hrid
      exact h
    · have hinfo : (w.info.addResource rid (some resource)).2 =
          { w.info with resources := w.info.resources.insert rid resource } := by
        simp [ProcessInfo.addResource, hrid]
      rw [call, ProcessInfo.call, hinfo]
      refine ⟨fun rid' hmem => ?_, h.awaited⟩
      exact Std.TreeMap.mem_insert.mpr (Or.inr (h.owned rid' hmem))

/-- A blocking resource is awaited from now on. -/
theorem Valid.addBlockingResource (h : w.Valid) (rid : RID) (resource : Option ResourcePtr) :
    (w.call (.addBlockingResource rid resource)).Valid := by
  cases resource with
  | none => exact h
  | some resource =>
    by_cases hrid : rid = 0
    · subst hrid
      exact h
    · have hadd : w.info.addBlockingResource rid (some resource) = (true, { w.info with
          resources := w.info.resources.insert rid resource
          blockedResources := insert rid w.info.blockedResources
          defaultBlockedResources := insert rid w.info.defaultBlockedResources }) := by
        simp [ProcessInfo.addBlockingResource, ProcessInfo.addResource, hrid]
      rw [call, ProcessInfo.call, reports, hadd, if_pos rfl]
      refine ⟨fun rid' hmem => ?_, fun rid' => ?_⟩
      · rw [Std.TreeMap.mem_insert, Std.compare_eq_iff_eq]
        rcases mem_insert.mp hmem with rfl | hold
        · exact Or.inl rfl
        · exact Or.inr (h.owned rid' hold)
      · simp only [mem_insert, mem_erase, h.awaited rid']
        tauto

/-- A resource that is removed by its RID is forgotten everywhere. -/
theorem Valid.removeResource (h : w.Valid) (rid : RID) : (w.call (.removeResource rid)).Valid := by
  cases hfind : w.info.resources[rid]? with
  | none =>
    have hinfo : (w.info.removeResource rid).2 = w.info := by
      simp [ProcessInfo.removeResource, hfind]
    rw [call, ProcessInfo.call, hinfo]
    exact h
  | some resource =>
    have hinfo : (w.info.removeResource rid).2 = { w.info with
        resources := w.info.resources.erase rid
        blockedResources := w.info.blockedResources.erase rid
        defaultBlockedResources := w.info.defaultBlockedResources.erase rid } := by
      simp [ProcessInfo.removeResource, hfind]
    rw [call, ProcessInfo.call, hinfo]
    refine ⟨fun rid' hmem => ?_, fun rid' => ?_⟩
    · obtain ⟨hne, hold⟩ := mem_erase.mp hmem
      rw [Std.TreeMap.mem_erase, Ne, Std.compare_eq_iff_eq]
      exact ⟨fun heq => hne heq.symm, h.owned rid' hold⟩
    · simp only [mem_erase, h.awaited rid']
      tauto

/-- A resource that is removed by its pointer is forgotten, where it is not a blocking one. -/
theorem Valid.removeResourcePtr (h : w.Valid) {resource : ResourcePtr}
    (hkeeps : w.info.KeepsBlocking resource) :
    (w.call (.removeResourcePtr (some resource))).Valid := by
  rcases ProcessInfo.removeResourcePtr_eq w.info resource with ⟨-, hinfo⟩ | ⟨rid, hrid, hinfo⟩
  · rw [call, ProcessInfo.call, hinfo]
    exact h
  · have hnot : rid ∉ w.info.defaultBlockedResources := hkeeps rid hrid
    have hfree : rid ∉ w.info.blockedResources := fun hmem => hnot ((h.awaited rid).mp hmem).1
    rw [call, ProcessInfo.call, hinfo, erase_eq_of_notMem hfree]
    refine ⟨fun rid' hmem => ?_, h.awaited⟩
    rw [Std.TreeMap.mem_erase, Ne, Std.compare_eq_iff_eq]
    exact ⟨fun heq => hnot (heq ▸ hmem), h.owned rid' hmem⟩

/-- A message from a resource that is owned ends the wait for it. -/
theorem Valid.addMessage (h : w.Valid) (message : Option MessagePtr) (rid : RID) :
    (w.call (.addMessage message rid)).Valid := by
  cases message with
  | none => exact h
  | some message =>
    by_cases hrid : rid = 0
    · subst hrid
      exact ⟨h.owned, h.awaited⟩
    by_cases hmem : rid ∈ w.info.resources
    · have hinfo : (w.info.addMessage (some message) rid).2 = { w.info with
          waitingMessages := w.info.waitingMessages ++ [(rid, message)]
          blockedResources := w.info.blockedResources.erase rid } := by
        simp [ProcessInfo.addMessage, hrid, hmem, ProcessInfo.removeBlockedResource]
      rw [call, ProcessInfo.call, reports, hinfo, if_pos ⟨hrid, hmem⟩]
      refine ⟨h.owned, fun rid' => ?_⟩
      simp only [mem_insert, mem_erase, h.awaited rid']
      tauto
    · have hinfo : (w.info.addMessage (some message) rid).2 = w.info := by
        simp [ProcessInfo.addMessage, hrid, hmem]
      rw [call, ProcessInfo.call, reports, hinfo, if_neg fun hboth => hmem hboth.2]
      exact h

/-- The guard of an operation: a removal by pointer keeps blocking resources. -/
def Keeps (w : Watched) (c : ResourceCall) : Prop :=
  ∀ resource, c = .removeResourcePtr (some resource) → w.info.KeepsBlocking resource

/-- **What one operation preserves.** -/
theorem Valid.call (h : w.Valid) {c : ResourceCall} (hkeeps : w.Keeps c) : (w.call c).Valid := by
  cases c with
  | addResource rid resource => exact h.addResource rid resource
  | addBlockingResource rid resource => exact h.addBlockingResource rid resource
  | removeResource rid => exact h.removeResource rid
  | removeResourcePtr resource =>
    cases resource with
    | none => exact h
    | some resource => exact h.removeResourcePtr (hkeeps resource rfl)
  | addMessage message rid => exact h.addMessage message rid
  | resetBlockedResources =>
    refine ⟨h.owned, fun rid => ?_⟩
    exact (and_iff_left (notMem_empty rid)).symm

/-- What the invariant is for. -/
theorem Valid.holds (h : w.Valid) : w.Holds where
  blocked := fun rid hrid => ((h.awaited rid).mp hrid).1
  owned := h.owned
  waits := by
    intro now sleepMs info heq hstate rid hrid
    have hreturns : w.info.Returns now sleepMs (w.info.afterExecute .blocked now sleepMs) :=
      w.info.returns_afterExecute now sleepMs nofun nofun
    rw [heq] at hreturns
    cases hreturns with
    | suspend | sleep | wait => cases hstate
    | block => exact h.owned rid hrid
  empty := by
    intro hall
    rw [ProcessInfo.blockedResourcesEmpty, decide_eq_true_eq, eq_empty_iff_forall_notMem]
    intro rid hrid
    obtain ⟨hdefault, hsilent⟩ := (h.awaited rid).mp hrid
    exact hsilent (hall rid hdefault (h.owned rid hdefault))

/-! ### Runs -/

theorem Valid.calls {cs : List ResourceCall} (h : w.Valid)
    (hkeeps : ∀ before c after, cs = before ++ c :: after → (before.foldl Watched.call w).Keeps c) :
    (cs.foldl Watched.call w).Valid := by
  induction cs generalizing w with
  | nil => exact h
  | cons c cs ih =>
    refine ih (h.call (hkeeps [] c cs rfl)) fun before c' after heq => ?_
    exact hkeeps (c :: before) c' after (by rw [heq, List.cons_append])

/-- A removal by pointer that takes a blocking resource away leaves its RID behind. -/
theorem Holds.keeps (h : (w.call (.removeResourcePtr (some resource))).Holds) :
    w.info.KeepsBlocking resource := by
  intro rid hrid hmem
  rcases ProcessInfo.removeResourcePtr_eq w.info resource with ⟨hnone, -⟩ | ⟨rid', hrid', hinfo⟩
  · rw [hnone] at hrid
    cases hrid
  · obtain rfl := Option.some.inj (hrid.symm.trans hrid')
    have howned := h.owned rid (by rw [call, ProcessInfo.call, hinfo]; exact hmem)
    rw [call, ProcessInfo.call, hinfo, Std.TreeMap.mem_erase] at howned
    exact howned.1 Std.compare_self

/-- **After any operations a process waits for what it owns, exactly if no blocking resource is
removed by its pointer.** -/
theorem holds_iff (pid : PID) (process : ProcessPtr) (executableId ownerId : Id)
    (cs : List ResourceCall) :
    (∀ before after, cs = before ++ after →
      (before.foldl call (new pid process executableId ownerId)).Holds) ↔
    ∀ before resource after, cs = before ++ .removeResourcePtr (some resource) :: after →
      (before.foldl call (new pid process executableId ownerId)).info.KeepsBlocking resource := by
  constructor
  · intro h before resource after heq
    have hafter := h (before ++ [.removeResourcePtr (some resource)]) after (by simp [heq])
    rw [List.foldl_append] at hafter
    exact hafter.keeps
  · rintro h before after rfl
    refine ((valid_new pid process executableId ownerId).calls fun first c rest heq => ?_).holds
    rintro resource rfl
    exact h first resource (rest ++ after) (by rw [heq, List.append_assoc, List.cons_append])

/-- A process whose blocking resource was removed by its pointer before it goes `BLOCKED`. -/
def stranded : Watched :=
  [.addBlockingResource 1 (some 5), .removeResourcePtr (some 5), .resetBlockedResources].foldl
    call (new 1 0 ⟨1, 1⟩ ⟨1, 2⟩)

/-- **A process that waits for ever**: it owns nothing, waits for RID 1, and no message ends
that. -/
theorem stranded_not_holds : ¬ stranded.Holds ∧ ∀ message rid,
    (stranded.info.addMessage message rid).2.blockedResourcesEmpty = false := by
  have hblocked : stranded.info.blockedResources = {1} := by decide +kernel
  have hresources : ∀ rid, rid ∉ stranded.info.resources :=
    Std.TreeMap.isEmpty_iff_forall_not_mem.mp (by decide +kernel)
  refine ⟨fun h => ?_, fun message rid => ?_⟩
  · have hdefault := h.blocked (hblocked ▸ Finset.mem_singleton_self 1)
    exact hresources 1 (h.owned 1 hdefault)
  · have hkept : (stranded.info.addMessage message rid).2.blockedResources = {1} := by
      unfold ProcessInfo.addMessage
      split
      · exact hblocked
      · rw [if_neg (hresources rid)]
        split <;> exact hblocked
    rw [ProcessInfo.blockedResourcesEmpty, hkept]
    rfl

end Watched

end Mutgos.Executor
