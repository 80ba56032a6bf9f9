import Mutgos.Executor.Reachable

/-!
# The process tables

The PID table and the index by owner describe the processes on the heap: each
process that exists stands in the PID table under its PID and in one bucket of
the index, that of its owner, and nothing else does.  This holds whatever is
called, as only the creation of a process and the last section of a cleanup write
to the tables, and nothing changes the PID or the owner of a process.

## Main results

* `System.tablesAgree_of_reachable` — **the tables agree in every reachable state.**
-/

namespace Mutgos.Executor

open DbTypes Function BucketIndex

/-- What the tables and the resource IDs know of a process. -/
def ProcessInfo.registration (info : ProcessInfo) : PID × Id × Std.TreeMap RID ResourcePtr :=
  (info.myPid, info.dbOwnerId, info.resources)

namespace ProcessScheduler

/-- The tables are as they were, and so is what they know of each process. -/
structure Retains (s s' : ProcessScheduler) : Prop where
  allProcesses : s'.allProcesses = s.allProcesses
  allProcessesEntity : s'.allProcessesEntity = s.allProcessesEntity
  ridToPid : s'.ridToPid = s.ridToPid
  nextPtr : s'.nextPtr = s.nextPtr
  registration : ∀ p, (s'.heap p).map ProcessInfo.registration
    = (s.heap p).map ProcessInfo.registration

variable {s s' : ProcessScheduler} {p : InfoPtr} {info : ProcessInfo}

theorem Retains.rfl : Retains s s :=
  ⟨Eq.refl _, Eq.refl _, Eq.refl _, Eq.refl _, fun _ => Eq.refl _⟩

theorem Retains.trans {s₁ s₂ s₃ : ProcessScheduler} (h : Retains s₁ s₂) (h' : Retains s₂ s₃) :
    Retains s₁ s₃ where
  allProcesses := h'.allProcesses.trans h.allProcesses
  allProcessesEntity := h'.allProcessesEntity.trans h.allProcessesEntity
  ridToPid := h'.ridToPid.trans h.ridToPid
  nextPtr := h'.nextPtr.trans h.nextPtr
  registration := fun p => (h'.registration p).trans (h.registration p)

variable {info' : ProcessInfo} {pid : PID} {result : Bool} {now : TimePoint}

/-- Writing back a process of which the tables know nothing new. -/
theorem retains_of_update (hinfo : s.heap p = some info)
    (hsame : info'.registration = info.registration) (htables : SameTables s s')
    (hheap : s'.heap = update s.heap p (some info')) : Retains s s' where
  allProcesses := htables.allProcesses
  allProcessesEntity := htables.allProcessesEntity
  ridToPid := htables.ridToPid
  nextPtr := htables.nextPtr
  registration := by
    intro q
    rw [hheap]
    by_cases hq : q = p
    · subst hq
      rw [update_self, hinfo]
      exact congrArg some hsame
    · rw [update_of_ne hq]

theorem retains_setInfo (hinfo : s.heap p = some info)
    (hsame : info'.registration = info.registration) : Retains s (s.setInfo p info') :=
  retains_of_update hinfo hsame
    ⟨Eq.refl _, Eq.refl _, Eq.refl _, Eq.refl _, Eq.refl _, Eq.refl _, Eq.refl _⟩ (Eq.refl _)

theorem registration_scheduled (info : ProcessInfo) :
    info.scheduled.registration = info.registration := by
  rw [ProcessInfo.scheduled_eq]
  rfl

theorem retains_scheduleProcess (h : s.scheduleProcess p = some s') : Retains s s' := by
  obtain ⟨info, hinfo⟩ := heap_of_scheduleProcess h
  obtain ⟨t, ht, htables, hheap, -⟩ := scheduleProcess_spec hinfo
  obtain rfl := Option.some.inj (h.symm.trans ht)
  exact retains_of_update hinfo (registration_scheduled info) htables hheap

theorem retains_killProcess (h : s.killProcess pid = some (result, s')) : Retains s s' := by
  rcases killProcess_cases h with ⟨-, -, rfl⟩ | ⟨-, p, info, -, hinfo, hcase⟩
  · exact .rfl
  · rcases hcase with ⟨-, rfl⟩ | ⟨-, -, hsched⟩
    · exact .rfl
    · have hset : Retains s (s.setInfo p { info with pendingKilled := true }) :=
        retains_setInfo hinfo (Eq.refl _)
      exact hset.trans (retains_scheduleProcess hsched)

theorem retains_suspendProcess (h : s.suspendProcess pid = some (result, s')) : Retains s s' := by
  rcases suspendProcess_cases h with ⟨-, rfl⟩ | ⟨-, -, p, info, -, hinfo, hcase⟩
  · exact .rfl
  · rcases hcase with ⟨-, rfl⟩ | ⟨-, rfl⟩ <;> exact retains_setInfo hinfo (Eq.refl _)

theorem retains_startProcess (h : s.startProcess pid = some (result, s')) : Retains s s' := by
  rcases startProcess_cases h with rfl | ⟨p, info, -, -, -, hsched⟩
  · exact .rfl
  · exact retains_scheduleProcess hsched

theorem registration_addMessage (info : ProcessInfo) (message : Option MessagePtr) (rid : RID) :
    (info.addMessage message rid).2.registration = info.registration := by
  unfold ProcessInfo.addMessage
  split
  · rfl
  · split
    · rfl
    · split <;> rfl

theorem retains_sendMessage {rid : RID} {message : Option MessagePtr} {outcome : SendOutcome}
    (h : s.sendMessage pid rid message = some (outcome, s')) : Retains s s' := by
  rcases sendMessage_cases h with ⟨-, rfl, -⟩ | ⟨-, -, p, info, -, hinfo, -, -, hcase⟩
  · exact .rfl
  · have hset := retains_setInfo hinfo (registration_addMessage info message rid)
    rcases hcase with ⟨-, rfl⟩ | ⟨-, hsched⟩
    · exact hset
    · exact hset.trans (retains_scheduleProcess hsched)

theorem retains_shutdown (h : s.shutdown = some s') : Retains s s' := by
  unfold shutdown at h
  split at h
  · cases h; exact .rfl
  · refine foldlM_invariant (I := Retains s) ?_ _ { s with shuttingDown := true } s'
      ⟨Eq.refl _, Eq.refl _, Eq.refl _, Eq.refl _, fun _ => Eq.refl _⟩ h
    intro t pid t' ht hkill
    obtain ⟨⟨result, t''⟩, hkilled, rfl⟩ := Option.map_eq_some_iff.mp hkill
    exact ht.trans (retains_killProcess hkilled)

theorem retains_wakeLoop : ∀ (fuel : ℕ) (s s' : ProcessScheduler),
    s.wakeLoop fuel now = some s' → Retains s s' := by
  intro fuel
  induction fuel with
  | zero => intro s s' h; cases h
  | succ fuel ih =>
    intro s s' h
    rw [wakeLoop] at h
    split at h
    · cases h; exact .rfl
    · split at h
      · cases h; exact .rfl
      · obtain ⟨t, hsched, hrest⟩ := Option.bind_eq_some_iff.mp h
        exact (retains_scheduleProcess hsched).trans (ih t s' hrest)

theorem registration_of_returns {sleepMs : ℕ} {b : Bool} (h : info.Returns now sleepMs (b, info')) :
    info'.registration = info.registration := by
  cases h <;> rfl

theorem retains_returnedFromExecute {status : ProcessStatus} {sleepMs : ℕ}
    (h : s.returnedFromExecute p status now sleepMs = some s') : Retains s s' := by
  obtain ⟨info, hinfo, ⟨-, htables, hheap, -⟩ | ⟨-, -, info', hcase⟩⟩ :=
    returnedFromExecute_cases h
  · have hsame : ({ info with processState := .completed } : ProcessInfo).registration
        = info.registration := rfl
    exact retains_of_update hinfo hsame htables hheap
  · rcases hcase with ⟨hreturns, hsched⟩ | ⟨hreturns, rfl⟩
    · exact (retains_setInfo hinfo (registration_of_returns hreturns)).trans
        (retains_scheduleProcess hsched)
    · have hset := retains_setInfo hinfo (registration_of_returns hreturns)
      split
      · exact ⟨hset.allProcesses, hset.allProcessesEntity, hset.ridToPid, hset.nextPtr,
          hset.registration⟩
      · exact hset

/-! ### Agreement -/

/-- The tables describe the processes on the heap. -/
structure TablesAgree (s : ProcessScheduler) : Prop where
  fresh : ∀ p, s.nextPtr ≤ p → s.heap p = none
  pid : ∀ (pid : PID) (p : InfoPtr), s.allProcesses[pid]? = some p ↔
    ∃ info, s.heap p = some info ∧ info.myPid = pid
  owner : ∀ (siteId : SiteIdType) (entityId : EntityIdType) (p : InfoPtr),
    p ∈ bucket s.allProcessesEntity siteId entityId ↔
      ∃ info, s.heap p = some info ∧ info.dbOwnerId = ⟨siteId, entityId⟩
  nodup : ∀ (siteId : SiteIdType) (entityId : EntityIdType),
    (bucket s.allProcessesEntity siteId entityId).Nodup
  noEmpty : BucketIndex.NoEmpty s.allProcessesEntity

theorem tablesAgree_new : TablesAgree new where
  fresh := fun _ _ => rfl
  pid := by simp [new]
  owner := by simp [new, bucket]
  nodup := by simp [new, bucket]
  noEmpty := noEmpty_empty

section

variable (h : TablesAgree s)
include h

/-- No PID but its own leads to a process, and none to an address that is free. -/
theorem TablesAgree.allProcesses_ne (hp : ∀ info, s.heap p = some info → info.myPid ≠ pid) :
    s.allProcesses[pid]? ≠ some p := by
  intro hentry
  obtain ⟨info, hinfo, hpid⟩ := (h.pid pid p).mp hentry
  exact hp info hinfo hpid

/-- Nor is it in the bucket of anybody but its owner. -/
theorem TablesAgree.notMem_bucket {siteId : SiteIdType} {entityId : EntityIdType}
    (hp : ∀ info, s.heap p = some info → info.dbOwnerId ≠ ⟨siteId, entityId⟩) :
    p ∉ bucket s.allProcessesEntity siteId entityId := by
  intro hentry
  obtain ⟨info, hinfo, howner⟩ := (h.owner siteId entityId p).mp hentry
  exact hp info hinfo howner

/-- The heap may change in ways the PIDs and owners do not. -/
theorem TablesAgree.of_heap
    (hheap : ∀ q, (s'.heap q).map (fun info => (info.myPid, info.dbOwnerId))
      = (s.heap q).map fun info => (info.myPid, info.dbOwnerId))
    (hall : s'.allProcesses = s.allProcesses)
    (hentity : s'.allProcessesEntity = s.allProcessesEntity) (hnext : s'.nextPtr = s.nextPtr) :
    TablesAgree s' := by
  -- what the heap says of a process, in terms of its PID and owner
  have hiff : ∀ (P : PID → Id → Prop) q,
      (∃ info, s'.heap q = some info ∧ P info.myPid info.dbOwnerId) ↔
        ∃ info, s.heap q = some info ∧ P info.myPid info.dbOwnerId := by
    intro P q
    constructor
    · rintro ⟨info', hinfo', hP⟩
      have hq := hheap q
      rw [hinfo'] at hq
      obtain ⟨info, hinfo, heq⟩ := Option.map_eq_some_iff.mp hq.symm
      obtain ⟨hpid, howner⟩ := Prod.mk.inj heq
      exact ⟨info, hinfo, by rw [hpid, howner]; exact hP⟩
    · rintro ⟨info, hinfo, hP⟩
      have hq := hheap q
      rw [hinfo] at hq
      obtain ⟨info', hinfo', heq⟩ := Option.map_eq_some_iff.mp hq
      obtain ⟨hpid, howner⟩ := Prod.mk.inj heq
      exact ⟨info', hinfo', by rw [hpid, howner]; exact hP⟩
  constructor
  · intro q hq
    have hnone := h.fresh q (hnext ▸ hq)
    have hmap := hheap q
    rw [hnone] at hmap
    exact Option.map_eq_none_iff.mp hmap
  · intro pid q
    rw [hall, h.pid]
    exact (hiff (fun a _ => a = pid) q).symm
  · intro siteId entityId q
    rw [hentity, h.owner]
    exact (hiff (fun _ b => b = ⟨siteId, entityId⟩) q).symm
  · rw [hentity]; exact h.nodup
  · rw [hentity]; exact h.noEmpty

theorem TablesAgree.of_retains (hr : Retains s s') : TablesAgree s' := by
  refine h.of_heap ?_ hr.allProcesses hr.allProcessesEntity hr.nextPtr
  intro q
  have hq := congrArg (Option.map fun r : PID × Id × Std.TreeMap RID ResourcePtr => (r.1, r.2.1))
    (hr.registration q)
  simpa [Option.map_map, Function.comp_def, ProcessInfo.registration] using hq

/-- A process that keeps its PID and owner. -/
theorem TablesAgree.setInfo (hinfo : s.heap p = some info) (hpid : info'.myPid = info.myPid)
    (howner : info'.dbOwnerId = info.dbOwnerId) : TablesAgree (s.setInfo p info') := by
  refine h.of_heap ?_ rfl rfl rfl
  intro q
  show (update s.heap p (some info') q).map _ = _
  by_cases hq : q = p
  · subst hq
    rw [update_self, hinfo]
    simp [hpid, howner]
  · rw [update_of_ne hq]

/-- A process is created. -/
theorem TablesAgree.addProcess {executableId ownerId : Id} {process : Option ProcessPtr}
    (hadd : s.addProcess executableId ownerId process = some ((pid, some p), s')) :
    TablesAgree s' := by
  obtain ⟨process', nextPid, -, -, -, hfree, rfl, rfl⟩ := addProcess_cases hadd
  -- the new address stands in no old entry
  have hnew : s.heap s.nextPtr = none := h.fresh _ le_rfl
  have hpids : ∀ pid' : PID, s.allProcesses[pid']? ≠ some s.nextPtr := by
    intro pid'
    apply h.allProcesses_ne
    simp [hnew]
  have hbuckets : ∀ siteId entityId,
      s.nextPtr ∉ bucket s.allProcessesEntity siteId entityId := by
    intro siteId entityId
    apply h.notMem_bucket
    simp [hnew]
  constructor
  · intro q hq
    have hne : q ≠ s.nextPtr := by rintro rfl; exact absurd hq (Nat.not_succ_le_self _)
    show update s.heap s.nextPtr _ q = none
    rw [update_of_ne hne]
    exact h.fresh q (Nat.le_of_succ_le hq)
  · intro pid' q
    show (s.allProcesses.insert pid s.nextPtr)[pid']? = some q ↔
      ∃ info, update s.heap s.nextPtr _ q = some info ∧ _
    rw [Std.TreeMap.getElem?_insert]
    by_cases hq : q = s.nextPtr
    · subst hq
      simp [hpids, ProcessInfo.new]
    · rw [update_of_ne hq, ← h.pid]
      by_cases hpid : pid = pid'
      · subst hpid
        simp [hfree, Ne.symm hq]
      · simp [hpid]
  · intro siteId entityId q
    show q ∈ bucket (add s.allProcessesEntity _ _ _) siteId entityId ↔
      ∃ info, update s.heap s.nextPtr _ q = some info ∧ _
    rw [bucket_add]
    by_cases hq : q = s.nextPtr
    · subst hq
      rw [update_self]
      by_cases hid : ownerId.siteId = siteId ∧ ownerId.entityId = entityId
      · rw [if_pos hid]
        obtain ⟨rfl, rfl⟩ := hid
        simp [ProcessInfo.new]
      · rw [if_neg hid]
        have hne : ownerId ≠ ⟨siteId, entityId⟩ := by rintro rfl; exact hid ⟨rfl, rfl⟩
        simp [hbuckets, ProcessInfo.new, hne]
    · rw [update_of_ne hq, ← h.owner]
      split
      · next hid => rw [hid.1, hid.2]; simp [hq]
      · rfl
  · intro siteId entityId
    show (bucket (add s.allProcessesEntity _ _ _) siteId entityId).Nodup
    rw [bucket_add]
    split
    · refine List.nodup_append.mpr ⟨h.nodup _ _, List.nodup_singleton _, ?_⟩
      rintro q hq _ hq' rfl
      rw [List.mem_singleton.mp hq'] at hq
      exact hbuckets _ _ hq
    · exact h.nodup _ _
  · exact BucketIndex.NoEmpty.add h.noEmpty _ _ _

/-- A process is freed. -/
theorem TablesAgree.finishCleanup {rids : List RID} (hfin : s.finishCleanup p rids = some s') :
    TablesAgree s' := by
  obtain ⟨info, ridToPid, hinfo, rfl, -⟩ := finishCleanup_cases hfin
  have hentry := (h.pid info.myPid p).mpr ⟨info, hinfo, rfl⟩
  constructor
  · intro q hq
    show update s.heap p none q = none
    rw [update_apply]
    split
    · rfl
    · exact h.fresh q hq
  · intro pid' q
    show (s.allProcesses.erase info.myPid)[pid']? = some q ↔
      ∃ info, update s.heap p none q = some info ∧ _
    rw [Std.TreeMap.getElem?_erase]
    by_cases hq : q = p
    · subst hq
      rw [update_self]
      by_cases hpid : info.myPid = pid'
      · simp [hpid]
      · have hold : s.allProcesses[pid']? ≠ some q := by
          apply h.allProcesses_ne
          simpa [hinfo] using hpid
        simp [hpid, hold]
    · rw [update_of_ne hq, ← h.pid]
      by_cases hpid : info.myPid = pid'
      · subst hpid
        simp [hentry, Ne.symm hq]
      · simp [hpid]
  · intro siteId entityId q
    show q ∈ bucket (remove s.allProcessesEntity _ _ _) siteId entityId ↔
      ∃ info, update s.heap p none q = some info ∧ _
    rw [bucket_remove]
    by_cases hq : q = p
    · subst hq
      rw [update_self]
      by_cases hid : info.dbOwnerId.siteId = siteId ∧ info.dbOwnerId.entityId = entityId
      · rw [if_pos hid]
        simp [(h.nodup _ _).mem_erase_iff]
      · rw [if_neg hid]
        have hold : q ∉ bucket s.allProcessesEntity siteId entityId := by
          apply h.notMem_bucket
          intro info' hinfo' howner
          obtain rfl := Option.some.inj (hinfo.symm.trans hinfo')
          exact hid (by rw [howner]; exact ⟨rfl, rfl⟩)
        simp [hold]
    · rw [update_of_ne hq, ← h.owner]
      split
      · next hid => rw [← hid.1, ← hid.2, (h.nodup _ _).mem_erase_iff]; simp [hq]
      · rfl
  · intro siteId entityId
    show (bucket (remove s.allProcessesEntity _ _ _)
      siteId entityId).Nodup
    rw [bucket_remove]
    split
    · exact (h.nodup _ _).erase _
    · exact h.nodup _ _
  · exact BucketIndex.NoEmpty.remove h.noEmpty _ _ _

end

/-! ### The queries -/

/-- A loop that reads the PIDs of processes that exist. -/
theorem mapM_myPid (ps : List InfoPtr) (h : ∀ p ∈ ps, ∃ info, s.heap p = some info) :
    ∃ pids, (ps.mapM fun p => (s.heap p).map ProcessInfo.myPid) = some pids ∧
      pids = ps.filterMap fun p => (s.heap p).map ProcessInfo.myPid := by
  induction ps with
  | nil => exact ⟨[], rfl, rfl⟩
  | cons p ps ih =>
    obtain ⟨info, hinfo⟩ := h p List.mem_cons_self
    obtain ⟨pids, hpids, heq⟩ := ih fun q hq => h q (List.mem_cons_of_mem p hq)
    refine ⟨info.myPid :: pids, ?_, ?_⟩
    · simp [List.mapM_cons, hinfo, hpids]
    · simp [hinfo, heq]

/-- What a query over a list of processes answers: their PIDs, each once. -/
theorem TablesAgree.mapM_myPid (h : TablesAgree s) {ps : List InfoPtr} (hnodup : ps.Nodup)
    {P : ProcessInfo → Prop}
    (hps : ∀ p, p ∈ ps ↔ ∃ info, s.heap p = some info ∧ P info) :
    ∃ pids, (ps.mapM fun p => (s.heap p).map ProcessInfo.myPid) = some pids ∧ pids.Nodup ∧
      ∀ pid, pid ∈ pids ↔
        ∃ p info, s.allProcesses[pid]? = some p ∧ s.heap p = some info ∧ P info := by
  obtain ⟨pids, hpids, rfl⟩ := ProcessScheduler.mapM_myPid ps fun p hp =>
    let ⟨info, hinfo, _⟩ := (hps p).mp hp
    ⟨info, hinfo⟩
  refine ⟨_, hpids, ?_, ?_⟩
  · -- two processes with one PID are one process
    refine List.Nodup.filterMap ?_ hnodup
    intro p q pid hp hq
    obtain ⟨info, hinfo, hpid⟩ := Option.map_eq_some_iff.mp hp
    obtain ⟨info', hinfo', hpid'⟩ := Option.map_eq_some_iff.mp hq
    have hp' := (h.pid pid p).mpr ⟨info, hinfo, hpid⟩
    have hq' := (h.pid pid q).mpr ⟨info', hinfo', hpid'⟩
    exact Option.some.inj (hp'.symm.trans hq')
  · intro pid
    rw [List.mem_filterMap]
    constructor
    · rintro ⟨p, hp, hpid⟩
      obtain ⟨info, hinfo, hP⟩ := (hps p).mp hp
      rw [hinfo] at hpid
      exact ⟨p, info, (h.pid pid p).mpr ⟨info, hinfo, Option.some.inj hpid⟩, hinfo, hP⟩
    · rintro ⟨p, info, hall, hinfo, hP⟩
      obtain ⟨info', hinfo', hpid⟩ := (h.pid pid p).mp hall
      obtain rfl := Option.some.inj (hinfo.symm.trans hinfo')
      exact ⟨p, (hps p).mpr ⟨info, hinfo, hP⟩, by rw [hinfo, ← hpid]; rfl⟩

/-- **`get_pids_for_id`** answers the PIDs of the processes of the owner, each once. -/
theorem TablesAgree.getPidsForId (h : TablesAgree s) (id : Id) :
    ∃ pids, s.getPidsForId id = some pids ∧ pids.Nodup ∧ ∀ pid, pid ∈ pids ↔
      ∃ p info, s.allProcesses[pid]? = some p ∧ s.heap p = some info ∧ info.dbOwnerId = id :=
  h.mapM_myPid (h.nodup _ _) (h.owner id.siteId id.entityId)

/-- **`get_pids_for_site`** answers the PIDs of the processes of the site's owners,
each once. -/
theorem TablesAgree.getPidsForSite (h : TablesAgree s) (siteId : SiteIdType) :
    ∃ pids, s.getPidsForSite siteId = some pids ∧ pids.Nodup ∧ ∀ pid, pid ∈ pids ↔
      ∃ p info, s.allProcesses[pid]? = some p ∧ s.heap p = some info ∧
        info.dbOwnerId.siteId = siteId := by
  refine h.mapM_myPid ?_ ?_
  · refine nodup_slice (h.nodup siteId) ?_
    intro b b' p hp hp'
    obtain ⟨info, hinfo, howner⟩ := (h.owner _ _ _).mp hp
    obtain ⟨info', hinfo', howner'⟩ := (h.owner _ _ _).mp hp'
    obtain rfl := Option.some.inj (hinfo.symm.trans hinfo')
    exact congrArg Id.entityId (howner.symm.trans howner')
  · intro p
    rw [mem_slice]
    constructor
    · rintro ⟨b, hp⟩
      obtain ⟨info, hinfo, howner⟩ := (h.owner _ _ _).mp hp
      exact ⟨info, hinfo, by rw [howner]⟩
    · rintro ⟨info, hinfo, rfl⟩
      exact ⟨info.dbOwnerId.entityId, (h.owner _ _ _).mpr ⟨info, hinfo, rfl⟩⟩

end ProcessScheduler

/-! ### Runs -/

namespace System

open ProcessScheduler

variable {s s' : System} {a : Action}

/-- **Every step keeps the tables in agreement.** -/
theorem tablesAgree_step (h : s.scheduler.TablesAgree) (hstep : step s a = some s') :
    s'.scheduler.TablesAgree := by
  cases happens_of_step hstep with
  | refused => exact h
  | adds ht hadd => exact h.addProcess hadd
  | added ht => exact h.of_heap (fun _ => rfl) rfl rfl rfl
  | kills hop => exact h.of_retains (retains_killProcess hop)
  | suspends hop => exact h.of_retains (retains_suspendProcess hop)
  | starts hop => exact h.of_retains (retains_startProcess hop)
  | sends hop => exact h.of_retains (retains_sendMessage hop)
  | shutsDown hop => exact h.of_retains (retains_shutdown hop)
  | jumps backwards => cases backwards <;> exact h.of_heap (fun _ => rfl) rfl rfl rfl
  | wakes ht hnow hloop => exact h.of_retains (retains_wakeLoop _ _ _ hloop)
  | popsNothing ht hq => exact h.of_heap (fun _ => rfl) rfl rfl rfl
  | pops ht hq => exact h.of_heap (fun _ => rfl) rfl rfl rfl
  | timesOut ht => exact h
  | dispatches ht hinfo => exact h.setInfo hinfo rfl rfl
  | handsKilled | handsPlain | messagesDone | callReturns => exact h
  | @handsMessage _ t p isKilled stage call rid message info info' ht hstage hinfo hnext =>
    unfold ProcessInfo.getNextMessage at hnext
    split at hnext
    · cases hnext
    · cases hnext
      exact h.setInfo hinfo rfl rfl
  | returns ht hnow hret => exact h.of_retains (retains_returnedFromExecute hret)
  | @takesAll t p rids scheduler ht htake =>
    unfold ProcessScheduler.takeResources at htake
    split at htake
    · cases htake
    · next info hinfo =>
      cases htake
      obtain ⟨r, d, b, htaken⟩ := takeResources_eq info.getResourceIds info
      exact h.setInfo hinfo (by rw [htaken]) (by rw [htaken])
  | finishes ht hfin => exact h.finishCleanup hfin
  | getsRid ht hinfo hrid hne =>
    obtain ⟨nextRid, ridToPid, rfl⟩ := getNextRid_eq hrid
    exact h.of_heap (fun _ => rfl) rfl rfl rfl
  | @stores t p pid rid resource blocking info ht hinfo hne =>
    refine h.setInfo hinfo ?_ ?_ <;>
      cases blocking <;> simp [ProcessInfo.addBlockingResource, ProcessInfo.addResource, hne]
  | storesNot => exact h
  | notAdded ht | removed ht =>
    show ((s.scheduler.releaseRid _ _)).TablesAgree
    rw [releaseRid_eq]
    exact h.of_heap (fun _ => rfl) rfl rfl rfl
  | @takes t p rid resource info info' ht hinfo hremove =>
    obtain ⟨r, d, b, heq⟩ := removeResource_eq info rid
    rw [hremove] at heq
    have hkept : info' = { info with
      resources := r, defaultBlockedResources := d, blockedResources := b } := heq
    exact h.setInfo hinfo (by rw [hkept]) (by rw [hkept])
  | @takesPtr t p rid resource info info' ht hinfo hremove hne =>
    unfold ProcessInfo.removeResourcePtr at hremove
    split at hremove <;> cases hremove <;> exact h.setInfo hinfo rfl rfl

/-- **The tables agree in every reachable state.** -/
theorem tablesAgree_of_reachable {ok : System → Action → Prop}
    (h : Reachable step ok initial s) : s.scheduler.TablesAgree :=
  h.invariant tablesAgree_new fun _ _ _ hs _ hstep => tablesAgree_step hs hstep

end System

end Mutgos.Executor
