import Mutgos.Executor.ProcessTables
import Mutgos.Lib.Ledger

/-!
# Resource IDs

The fourth table maps a RID to the process that it was given to.  A RID is given
out before the resource is stored and taken back after it is removed, so in
between it lies with the call, and during a cleanup with the thread that cleans
up.  The table and these sites balance as long as the last section of a cleanup
finds no call unfinished and no resource stored since all have been taken.  A
call made by `process_added` may be late: nothing keeps a process from being
killed, cleaned up and freed while `process_added` is still running, and the RID
that is stored then is never released.

## Main results

* `processTables` — **the tables agree in every such run.**
-/

namespace Mutgos.Executor

open DbTypes Function ProcessScheduler Option

/-! ### What lies with a thread -/

/-- What a thread has to do about RIDs. -/
inductive Duty
  | none
  /-- A `ProcessServices` call for the process is in progress. -/
  | call (p : InfoPtr) (pid : PID) (rid : RID)
  /-- The cleanup of the process has taken its resources. -/
  | release (p : InfoPtr) (rids : List RID)

/-- The duty of a call. -/
def ServicesCall.duty (p : InfoPtr) : ServicesCall → Duty
  | none => .none
  | adding pid rid _ _ => .call p pid rid
  | removing pid rid => .call p pid rid

namespace Phase

/-- The duty of a thread. -/
def duty : Phase → Duty
  | adding p _ call => call.duty p
  | executing p _ (.inCall _) call => call.duty p
  | releasing p rids => .release p rids
  | _ => .none

variable {phase : Phase} {p : InfoPtr} {call : ServicesCall}

theorem duty_of_services (h : phase.services = some (p, call)) : phase.duty = call.duty p := by
  cases phase with
  | adding q event call' => cases h; rfl
  | executing q isKilled stage call' =>
    cases stage with
    | inCall handing => cases h; rfl
    | _ => cases h
  | _ => cases h

theorem services_withCall (h : phase.services = some (p, call)) (call' : ServicesCall) :
    (phase.withCall call').services = some (p, call') := by
  cases phase with
  | adding q event call => cases h; rfl
  | executing q isKilled stage call =>
    cases stage with
    | inCall handing => cases h; rfl
    | _ => cases h
  | _ => cases h

theorem duty_withCall (h : phase.services = some (p, call)) (call' : ServicesCall) :
    (phase.withCall call').duty = call'.duty p :=
  duty_of_services (services_withCall h call')

theorem services_of_duty {pid : PID} {rid : RID} (h : phase.duty = .call p pid rid) :
    ∃ call, phase.services = some (p, call) ∧ call ≠ .none := by
  cases phase with
  | adding q event call =>
    cases call with
    | none => cases h
    | _ => cases h; exact ⟨_, rfl, nofun⟩
  | executing q isKilled stage call =>
    cases stage with
    | inCall handing =>
      cases call with
      | none => cases h
      | _ => cases h; exact ⟨_, rfl, nofun⟩
    | _ => cases h
  | releasing => cases h
  | _ => cases h

theorem eq_releasing_of_duty {rids : List RID} (h : phase.duty = .release p rids) :
    phase = .releasing p rids := by
  cases phase with
  | adding q event call => cases call <;> cases h
  | executing q isKilled stage call =>
    cases stage with
    | inCall handing => cases call <;> cases h
    | _ => cases h
  | releasing => cases h; rfl
  | _ => cases h

end Phase

/-! ### The sites -/

/-- What lies with a process. -/
def ProcessScheduler.owned (s : ProcessScheduler) (p : InfoPtr) : Set (PID × RID) :=
  {x | ∃ info, s.heap p = some info ∧ info.myPid = x.1 ∧ x.2 ∈ info.resources}

/-- What lies with a thread of the duty. -/
def Duty.holds (s : ProcessScheduler) : Duty → Set (PID × RID)
  | none => ∅
  | call _ pid rid => {(pid, rid)}
  | release p rids => {x | (s.heap p).map ProcessInfo.myPid = some x.1 ∧ x.2 ∈ rids}

namespace System

/-- What lies with a process, or with a thread. -/
def holds (s : System) : InfoPtr ⊕ ℕ → Set (PID × RID)
  | .inl p => s.scheduler.owned p
  | .inr t => (s.threads t).duty.holds s.scheduler

/-- RIDs are accounted for. -/
structure Accounted (s : System) : Prop where
  ledger : Ledger (fun rid => s.scheduler.ridToPid[rid]?) s.holds
  /-- RID 0 is never given out. -/
  zero : s.scheduler.ridToPid[0]? = none
  /-- A call in progress is for a process that exists. -/
  called : ∀ t p pid rid, (s.threads t).duty = .call p pid rid →
    (s.scheduler.heap p).map ProcessInfo.myPid = some pid
  /-- A process whose resources have been taken has none. -/
  emptied : ∀ t p rids, s.threads t = .releasing p rids →
    ∃ info, s.scheduler.heap p = some info ∧ ∀ rid, rid ∉ info.resources

variable {s s' : System}

theorem accounted_initial : initial.Accounted where
  ledger := by
    refine Ledger.empty.congr (fun rid => Std.TreeMap.getElem?_emptyc) ?_
    rintro (p | t)
    · ext x
      simp [holds, owned, initial, ProcessScheduler.new]
    · rfl
  zero := rfl
  called := nofun
  emptied := nofun

end System

namespace ProcessScheduler

variable {s s' : ProcessScheduler} {p : InfoPtr} {d : Duty}

theorem myPid_of_registration
    (h : (s'.heap p).map ProcessInfo.registration = (s.heap p).map ProcessInfo.registration) :
    (s'.heap p).map ProcessInfo.myPid = (s.heap p).map ProcessInfo.myPid := by
  have hfst := congrArg (Option.map Prod.fst) h
  rwa [map_map, map_map] at hfst

theorem mem_owned {x : PID × RID} : x ∈ s.owned p ↔
    ∃ r, (s.heap p).map ProcessInfo.registration = some r ∧ r.1 = x.1 ∧ x.2 ∈ r.2.2 := by
  constructor
  · rintro ⟨info, hinfo, hpid, hrid⟩
    exact ⟨info.registration, by rw [hinfo]; rfl, hpid, hrid⟩
  · rintro ⟨r, hr, hpid, hrid⟩
    obtain ⟨info, hinfo, rfl⟩ := map_eq_some_iff.mp hr
    exact ⟨info, hinfo, hpid, hrid⟩

theorem owned_of_registration
    (h : (s'.heap p).map ProcessInfo.registration = (s.heap p).map ProcessInfo.registration) :
    s'.owned p = s.owned p := by
  ext x
  rw [mem_owned, mem_owned, h]

/-- What lies with a thread depends on the PID of a process it cleans up only. -/
theorem holds_of_released
    (h : ∀ p rids, d = .release p rids →
    (s'.heap p).map ProcessInfo.myPid = (s.heap p).map ProcessInfo.myPid) :
    d.holds s' = d.holds s := by
  cases d with
  | none => rfl
  | call p pid rid => rfl
  | release p rids =>
    ext x
    simp only [Duty.holds, h p rids rfl]

theorem holds_of_myPid
    (h : ∀ p, (s'.heap p).map ProcessInfo.myPid = (s.heap p).map ProcessInfo.myPid) :
    d.holds s' = d.holds s :=
  holds_of_released fun p _ _ => h p

theorem owned_of_heap {info : ProcessInfo} (h : s.heap p = some info) :
    s.owned p = {x | x.1 = info.myPid ∧ x.2 ∈ info.resources} := by
  ext x
  constructor
  · rintro ⟨info', hinfo', hpid, hrid⟩
    obtain rfl := Option.some.inj (h.symm.trans hinfo')
    exact ⟨hpid.symm, hrid⟩
  · rintro ⟨hpid, hrid⟩
    exact ⟨info, h, hpid.symm, hrid⟩

end ProcessScheduler

/-! ### Steps that leave the RIDs alone -/

namespace System

variable {s s' : System}

/-- A step after which tables, processes and threads have the RIDs they had. -/
theorem Accounted.quiet (h : s.Accounted) (hridToPid : s'.scheduler.ridToPid = s.scheduler.ridToPid)
    (hreg : ∀ p, (s'.scheduler.heap p).map ProcessInfo.registration
      = (s.scheduler.heap p).map ProcessInfo.registration)
    (hduty : ∀ t, (s'.threads t).duty = (s.threads t).duty) : s'.Accounted where
  ledger := by
    refine h.ledger.congr (fun rid => by rw [hridToPid]) ?_
    rintro (p | t)
    · exact owned_of_registration (hreg p)
    · show (s'.threads t).duty.holds s'.scheduler = _
      rw [hduty, holds_of_myPid fun p => myPid_of_registration (hreg p)]
      rfl
  zero := by rw [hridToPid]; exact h.zero
  called := by
    intro t p pid rid ht
    rw [hduty] at ht
    rw [myPid_of_registration (hreg p)]
    exact h.called t p pid rid ht
  emptied := by
    intro t p rids ht
    have hold : (s.threads t).duty = .release p rids := by rw [← hduty, ht]; rfl
    obtain ⟨info, hinfo, hnone⟩ := h.emptied t p rids (Phase.eq_releasing_of_duty hold)
    have hp := hreg p
    rw [hinfo] at hp
    obtain ⟨info', hinfo', heq⟩ := map_eq_some_iff.mp hp
    have hsame : info'.resources = info.resources := congrArg (·.2.2) heq
    exact ⟨info', hinfo', by rw [hsame]; exact hnone⟩

/-- The phases after one thread has moved on. -/
theorem threads_setPhase (scheduler : ProcessScheduler) (t : ℕ) (phase : Phase) (t' : ℕ) :
    ((s.withScheduler scheduler).setPhase t phase).threads t'
      = if t' = t then phase else s.threads t' :=
  update_apply ..

theorem duty_setPhase (scheduler : ProcessScheduler) (t : ℕ) (phase : Phase) (t' : ℕ) :
    (((s.withScheduler scheduler).setPhase t phase).threads t').duty
      = if t' = t then phase.duty else (s.threads t').duty := by
  rw [threads_setPhase]
  split <;> rfl

/-- An operation that keeps the tables, by a thread whose duty it does not touch. -/
theorem Accounted.retains (h : s.Accounted) {scheduler : ProcessScheduler}
    (hretains : Retains s.scheduler scheduler) : (s.withScheduler scheduler).Accounted :=
  h.quiet hretains.ridToPid hretains.registration fun _ => rfl

variable {t : ℕ} {p : InfoPtr}

/-- A step of one thread after which all have the RIDs they had. -/
theorem Accounted.goesOn (h : s.Accounted) {phase : Phase}
    (hridToPid : s'.scheduler.ridToPid = s.scheduler.ridToPid)
    (hreg : ∀ p, (s'.scheduler.heap p).map ProcessInfo.registration
      = (s.scheduler.heap p).map ProcessInfo.registration)
    (hthreads : s'.threads = update s.threads t phase) (hphase : phase.duty = (s.threads t).duty) :
    s'.Accounted := by
  refine h.quiet hridToPid hreg ?_
  intro t'
  rw [hthreads, update_apply]
  split
  · next ht => rw [ht, hphase]
  · rfl

/-- RID 0 is not given out where no RID is. -/
theorem Accounted.zero_of_released (h : s.Accounted) {ridToPid : Std.TreeMap RID PID}
    (hle : ∀ (rid : RID) (pid : PID), ridToPid[rid]? = some pid →
      s.scheduler.ridToPid[rid]? = some pid) :
    ridToPid[(0 : RID)]? = none := by
  cases hzero : ridToPid[(0 : RID)]? with
  | none => rfl
  | some pid =>
    have hold := hle 0 pid hzero
    rw [h.zero] at hold
    cases hold

/-! ### Calls -/

/-- What lies with a thread that may call. -/
theorem holds_of_services {call : ServicesCall} (ht : (s.threads t).services = some (p, call)) :
    s.holds (.inr t) = (call.duty p).holds s.scheduler := by
  rw [holds, Phase.duty_of_services ht]

section CallMoves

variable {scheduler : ProcessScheduler} {t : ℕ} {p : InfoPtr} {call : ServicesCall}

/-- The duties after a thread has moved its call on. -/
theorem duty_withCall (scheduler : ProcessScheduler)
    (ht : (s.threads t).services = some (p, call)) (call' : ServicesCall) (t' : ℕ) :
    (((s.withScheduler scheduler).setPhase t ((s.threads t).withCall call')).threads t').duty
      = if t' = t then call'.duty p else (s.threads t').duty := by
  rw [duty_setPhase, Phase.duty_withCall ht]

variable {q : InfoPtr} {call' : ServicesCall} {info info' : ProcessInfo}

/-- A thread inside a call does not clean up. -/
theorem threads_withCall {t' : ℕ} {rids : List RID} (ht : (s.threads t).services = some (p, call))
    (h : ((s.withScheduler scheduler).setPhase t ((s.threads t).withCall call')).threads t'
      = .releasing q rids) : s.threads t' = .releasing q rids := by
  rw [threads_setPhase] at h
  split at h
  · have hservices := Phase.services_withCall ht call'
    rw [h] at hservices
    cases hservices
  · exact h

/-- What lies with the threads after one of them has moved on. -/
theorem holds_setPhase (t : ℕ) (phase : Phase)
    (hpid : ∀ q, (scheduler.heap q).map ProcessInfo.myPid
      = (s.scheduler.heap q).map ProcessInfo.myPid) (t' : ℕ) :
    ((s.withScheduler scheduler).setPhase t phase).holds (.inr t')
      = if t' = t then phase.duty.holds s.scheduler else s.holds (.inr t') := by
  rw [holds, duty_setPhase]
  show Duty.holds scheduler _ = _
  rw [holds_of_myPid hpid]
  split <;> rfl

theorem holds_withCall (ht : (s.threads t).services = some (p, call))
    (hpid : ∀ q, (scheduler.heap q).map ProcessInfo.myPid
      = (s.scheduler.heap q).map ProcessInfo.myPid) (call' : ServicesCall) (t' : ℕ) :
    ((s.withScheduler scheduler).setPhase t ((s.threads t).withCall call')).holds (.inr t')
      = if t' = t then (call'.duty p).holds s.scheduler else s.holds (.inr t') := by
  rw [holds_setPhase t _ hpid, Phase.duty_withCall ht]

/-- Where no process has changed, none has got a resource. -/
theorem resources_of_heap_eq (hheap : scheduler.heap = s.scheduler.heap)
    (hold : s.scheduler.heap q = some info) (hnew : scheduler.heap q = some info') :
    ∀ rid, rid ∈ info'.resources → rid ∈ info.resources := by
  intro rid hrid
  rw [hheap] at hnew
  obtain rfl := Option.some.inj (hold.symm.trans hnew)
  exact hrid

/-- A call moves on: what is left to show. -/
theorem Accounted.callMoves (h : s.Accounted) (ht : (s.threads t).services = some (p, call))
    (hpid : ∀ q, (scheduler.heap q).map ProcessInfo.myPid
      = (s.scheduler.heap q).map ProcessInfo.myPid)
    (hledger : Ledger (fun rid => scheduler.ridToPid[rid]?)
      ((s.withScheduler scheduler).setPhase t ((s.threads t).withCall call')).holds)
    (hzero : scheduler.ridToPid[(0 : RID)]? = none)
    (hcall : ∀ q pid rid, call'.duty p = .call q pid rid →
      (s.scheduler.heap q).map ProcessInfo.myPid = some pid)
    (hkept : ∀ t' q rids info info', s.threads t' = .releasing q rids →
      s.scheduler.heap q = some info → scheduler.heap q = some info' →
      ∀ rid, rid ∈ info'.resources → rid ∈ info.resources) :
    ((s.withScheduler scheduler).setPhase t ((s.threads t).withCall call')).Accounted where
  ledger := hledger
  zero := hzero
  called := by
    intro t' q pid rid hduty
    rw [duty_withCall scheduler ht] at hduty
    show (scheduler.heap q).map _ = _
    rw [hpid]
    split at hduty
    · exact hcall q pid rid hduty
    · exact h.called t' q pid rid hduty
  emptied := by
    intro t' q rids hrel
    have hold := threads_withCall ht hrel
    obtain ⟨info, hinfo, hnone⟩ := h.emptied t' q rids hold
    have hq := hpid q
    rw [hinfo] at hq
    obtain ⟨info', hinfo', -⟩ := map_eq_some_iff.mp hq
    refine ⟨info', hinfo', ?_⟩
    intro rid hrid
    exact hnone rid (hkept t' q rids info info' hold hinfo hinfo' rid hrid)

/-- **A call gets its RID.** -/
theorem Accounted.getsRid (h : s.Accounted) {info : ProcessInfo} {resource : ResourcePtr}
    {blocking : Bool} {rid : RID} (ht : (s.threads t).services = some (p, .none))
    (hinfo : s.scheduler.heap p = some info)
    (hget : s.scheduler.getNextRid info.myPid = some (rid, scheduler)) (hrid : rid ≠ 0) :
    ((s.withScheduler scheduler).setPhase t
      ((s.threads t).withCall (.adding info.myPid rid resource blocking))).Accounted := by
  obtain ⟨nextRid, hfree, hscheduler⟩ := getNextRid_cases hget hrid
  have hheap : scheduler.heap = s.scheduler.heap := by rw [hscheduler]
  have htable : scheduler.ridToPid = s.scheduler.ridToPid.insert rid info.myPid := by
    rw [hscheduler]
  have hpid : ∀ q, (scheduler.heap q).map ProcessInfo.myPid
      = (s.scheduler.heap q).map ProcessInfo.myPid := fun q => by rw [hheap]
  have hnothing : s.holds (.inr t) = ∅ := holds_of_services ht
  refine h.callMoves ht hpid ?_ ?_ ?_ ?_
  · refine h.ledger.grant (.inr t) info.myPid hfree ?_ ?_
    · intro rid' pid'
      rw [htable, Std.TreeMap.getElem?_insert]
      by_cases hr : rid = rid'
      · subst hr
        simp [hfree, eq_comm]
      · simp [hr, Ne.symm hr]
    · rintro (q | t') x
      · show x ∈ scheduler.owned q ↔ x ∈ s.scheduler.owned q ∨ _
        rw [owned_of_registration (s := s.scheduler) (by rw [hheap])]
        simp
      · rw [holds_withCall ht hpid, Sum.inr.injEq]
        split
        · next heq =>
          subst heq
          simp [hnothing, ServicesCall.duty, Duty.holds]
        · next hne => simp [hne]
  · rw [htable, Std.TreeMap.getElem?_insert, if_neg (by simpa using hrid)]
    exact h.zero
  · intro q pid' rid' hcall
    cases hcall
    rw [hinfo]
    rfl
  · intro t' q rids info info' _ hold hnew
    exact resources_of_heap_eq hheap hold hnew

/-- **A call gives its RID back.** -/
theorem Accounted.givesBack (h : s.Accounted) {pid : PID} {rid : RID}
    (ht : (s.threads t).services = some (p, call)) (hcall : call.duty p = .call p pid rid) :
    ((s.withScheduler (s.scheduler.releaseRid pid rid)).setPhase t
      ((s.threads t).withCall .none)).Accounted := by
  have hmine : s.holds (.inr t) = {(pid, rid)} := by
    rw [holds_of_services ht, hcall]
    rfl
  have hheap : (s.scheduler.releaseRid pid rid).heap = s.scheduler.heap := by rw [releaseRid_eq]
  refine h.callMoves ht (fun _ => by rw [hheap]) ?_ ?_ nofun ?_
  · refine h.ledger.release (s := .inr t) hmine.ge ?_ ?_
    · intro rid' pid'
      rw [ridToPid_releaseRid, Set.mem_singleton_iff, Prod.mk.injEq, and_comm (a := pid' = pid)]
    · rintro (q | t') x
      · show x ∈ (s.scheduler.releaseRid pid rid).owned q ↔ x ∈ s.scheduler.owned q ∧ _
        rw [owned_of_registration (s := s.scheduler) (by rw [hheap])]
        simp
      · rw [holds_withCall ht (fun _ => by rw [hheap]), Sum.inr.injEq]
        split
        · next heq =>
          subst heq
          simp [hmine, ServicesCall.duty, Duty.holds]
        · next hne => simp [hne]
  · apply h.zero_of_released
    intro rid' pid' hheld
    exact ((ridToPid_releaseRid _ _ _ _ _).mp hheld).1
  · intro t' q rids info info' _ hold hnew
    exact resources_of_heap_eq hheap hold hnew

/-- Writing back a process with its PID. -/
theorem myPid_setInfo (hinfo : s.scheduler.heap p = some info) (hpid : info'.myPid = info.myPid)
    (q : InfoPtr) :
    ((s.scheduler.setInfo p info').heap q).map ProcessInfo.myPid
      = (s.scheduler.heap q).map ProcessInfo.myPid := by
  show (update s.scheduler.heap p _ q).map _ = _
  rw [update_apply]
  split
  · next hq => rw [hq, hinfo, map_some, map_some, hpid]
  · rfl

theorem owned_setInfo (info' : ProcessInfo) (q : InfoPtr) : (s.scheduler.setInfo p info').owned q
    = if q = p then {x | x.1 = info'.myPid ∧ x.2 ∈ info'.resources} else s.scheduler.owned q := by
  split
  · next hq =>
    subst hq
    exact owned_of_heap (update_self ..)
  · next hq =>
    refine owned_of_registration ?_
    show (update s.scheduler.heap p _ q).map _ = _
    rw [update_of_ne hq]

/-- **A call stores its resource**, which nobody has begun to clean up. -/
theorem Accounted.stores (h : s.Accounted) {info info' : ProcessInfo} {pid : PID} {rid : RID}
    (ht : (s.threads t).services = some (p, call)) (hcall : call.duty p = .call p pid rid)
    (hinfo : s.scheduler.heap p = some info) (hpid : info'.myPid = info.myPid)
    (hresources : ∀ rid', rid' ∈ info'.resources ↔ rid' ∈ info.resources ∨ rid' = rid)
    (hstored : ∀ t' rids, s.threads t' ≠ .releasing p rids) :
    ((s.withScheduler (s.scheduler.setInfo p info')).setPhase t
      ((s.threads t).withCall .none)).Accounted := by
  have hmine : s.holds (.inr t) = {(pid, rid)} := by
    rw [holds_of_services ht, hcall]
    rfl
  have hsame : info.myPid = pid := by
    have hlive := h.called t p pid rid ((Phase.duty_of_services ht).trans hcall)
    rw [hinfo] at hlive
    exact Option.some.inj hlive
  refine h.callMoves ht (myPid_setInfo hinfo hpid) ?_ h.zero nofun ?_
  · refine h.ledger.transfer (s := .inr t) (t := .inl p) hmine.ge ?_
    rintro (q | t') ⟨pid', rid'⟩
    · show _ ∈ (s.scheduler.setInfo p info').owned q ↔ _ ∈ s.scheduler.owned q ∧ _ ∨ _
      rw [owned_setInfo]
      by_cases hq : q = p
      · subst hq
        rw [if_pos rfl, owned_of_heap hinfo]
        simp only [Set.mem_ofPred_eq, hresources, hpid, hsame, Set.mem_singleton_iff,
          Prod.mk.injEq, reduceCtorEq, false_and, not_false_iff, and_true, true_and]
        tauto
      · simp [hq]
    · rw [holds_withCall ht (myPid_setInfo hinfo hpid)]
      by_cases hteq : t' = t
      · subst hteq
        simp [hmine, ServicesCall.duty, Duty.holds]
      · simp [hteq]
  · intro t' q rids info₁ info₂ hrel hold hnew rid' hrid'
    have hne : q ≠ p := by rintro rfl; exact hstored t' rids hrel
    have hback : s.scheduler.heap q = some info₂ := by
      rw [← hnew]
      exact (update_of_ne hne _ _).symm
    obtain rfl := Option.some.inj (hold.symm.trans hback)
    exact hrid'

/-- **A call takes a resource** out of its process. -/
theorem Accounted.takes (h : s.Accounted) {info info' : ProcessInfo} {rid : RID}
    (ht : (s.threads t).services = some (p, .none)) (hinfo : s.scheduler.heap p = some info)
    (hpid : info'.myPid = info.myPid) (howned : rid ∈ info.resources)
    (hresources : ∀ rid', rid' ∈ info'.resources ↔ rid' ∈ info.resources ∧ rid' ≠ rid) :
    ((s.withScheduler (s.scheduler.setInfo p info')).setPhase t
      ((s.threads t).withCall (.removing info.myPid rid))).Accounted := by
  have hnothing : s.holds (.inr t) = ∅ := holds_of_services ht
  refine h.callMoves ht (myPid_setInfo hinfo hpid) ?_ h.zero ?_ ?_
  · refine h.ledger.transfer (s := .inl p) (t := .inr t) (S := {(info.myPid, rid)}) ?_ ?_
    · rintro _ rfl
      exact ⟨info, hinfo, rfl, howned⟩
    · rintro (q | t') ⟨pid', rid'⟩
      · show _ ∈ (s.scheduler.setInfo p info').owned q ↔ _ ∈ s.scheduler.owned q ∧ _ ∨ _
        rw [owned_setInfo]
        by_cases hq : q = p
        · subst hq
          rw [if_pos rfl, owned_of_heap hinfo]
          simp only [Set.mem_ofPred_eq, hresources, hpid, Set.mem_singleton_iff, Prod.mk.injEq,
            reduceCtorEq, false_and, or_false, true_and]
          tauto
        · simp [hq]
      · rw [holds_withCall ht (myPid_setInfo hinfo hpid)]
        by_cases hteq : t' = t
        · subst hteq
          simp [hnothing, ServicesCall.duty, Duty.holds]
        · simp [hteq]
  · intro q pid' rid' hcall
    cases hcall
    rw [hinfo]
    rfl
  · intro t' q rids info₁ info₂ _ hold hnew rid' hrid'
    by_cases hq : q = p
    · subst hq
      obtain rfl := Option.some.inj (hinfo.symm.trans hold)
      have hself : (s.scheduler.setInfo q info').heap q = some info' := update_self ..
      obtain rfl := Option.some.inj (hself.symm.trans hnew)
      exact ((hresources rid').mp hrid').1
    · have hback : s.scheduler.heap q = some info₂ := by
        rw [← hnew]
        exact (update_of_ne hq _ _).symm
      obtain rfl := Option.some.inj (hold.symm.trans hback)
      exact hrid'

end CallMoves

/-! ### Cleaning up -/

section Cleanup

variable {scheduler : ProcessScheduler} {t : ℕ} {p : InfoPtr} {rids : List RID}

/-- **The cleanup takes all resources.** -/
theorem Accounted.takesAll (h : s.Accounted) (ht : s.threads t = .cleaning p)
    (htake : s.scheduler.takeResources p = some (rids, scheduler)) :
    ((s.withScheduler scheduler).setPhase t (.releasing p rids)).Accounted := by
  unfold ProcessScheduler.takeResources at htake
  split at htake
  · cases htake
  · next info hinfo =>
    cases htake
    have hsame : (ProcessInfo.takeResources info.getResourceIds info).2.myPid = info.myPid := by
      obtain ⟨r, d, b, heq⟩ := takeResources_eq info.getResourceIds info
      rw [heq]
    have hpid := myPid_setInfo (p := p) hinfo hsame
    have hgone : ∀ rid,
        rid ∉ (ProcessInfo.takeResources info.getResourceIds info).2.resources := by
      intro rid hrid
      obtain ⟨hmem, htaken⟩ := (mem_resources_takeResources _ _ _).mp hrid
      exact htaken (Std.TreeMap.mem_keys.mpr hmem)
    have hnothing : s.holds (.inr t) = ∅ := by rw [holds, ht]; rfl
    constructor
    · refine h.ledger.transfer (s := .inl p) (t := .inr t) subset_rfl ?_
      rintro (q | t') ⟨pid', rid'⟩
      · show _ ∈ (s.scheduler.setInfo p _).owned q ↔ _ ∈ s.scheduler.owned q ∧ _ ∨ _
        rw [owned_setInfo]
        by_cases hq : q = p
        · subst hq
          simp [hgone, holds]
        · simp [hq]
      · rw [holds_setPhase t _ hpid]
        by_cases hteq : t' = t
        · subst hteq
          rw [if_pos rfl, hnothing]
          simp [holds, owned_of_heap hinfo, Phase.duty, Duty.holds, hinfo,
            ProcessInfo.getResourceIds, eq_comm]
        · simp [hteq]
    · exact h.zero
    · intro t' q pid rid hduty
      show ((s.scheduler.setInfo p _).heap q).map _ = _
      rw [hpid]
      rw [duty_setPhase] at hduty
      split at hduty
      · cases hduty
      · exact h.called t' q pid rid hduty
    · intro t' q rids hrel
      show ∃ info', update s.scheduler.heap p _ q = some info' ∧ _
      by_cases hq : q = p
      · subst hq
        rw [update_self]
        exact ⟨_, rfl, hgone⟩
      · rw [update_of_ne hq]
        rw [threads_setPhase] at hrel
        split at hrel
        · cases hrel
          exact absurd rfl hq
        · exact h.emptied t' q rids hrel

/-- **The cleanup releases what it has taken and frees the process**, if no call
and no other cleanup is left. -/
theorem Accounted.finishes (h : s.Accounted) (ht : s.threads t = .releasing p rids)
    (hfin : s.scheduler.finishCleanup p rids = some scheduler)
    (hcalls : ∀ t' pid rid, (s.threads t').duty ≠ .call p pid rid)
    (halone : ∀ t' rids', s.threads t' = .releasing p rids' → t' = t) :
    ((s.withScheduler scheduler).setPhase t .idle).Accounted := by
  obtain ⟨info, ridToPid, hinfo, hscheduler, htable⟩ := finishCleanup_cases hfin
  obtain ⟨info', hinfo', hnone⟩ := h.emptied t p rids ht
  obtain rfl := Option.some.inj (hinfo.symm.trans hinfo')
  have hridToPid : scheduler.ridToPid = ridToPid := by rw [hscheduler]
  have hself : scheduler.heap p = none := by rw [hscheduler]; exact update_self ..
  have hother : ∀ q, q ≠ p → scheduler.heap q = s.scheduler.heap q := by
    intro q hq
    rw [hscheduler]
    exact update_of_ne hq _ _
  have hmine : s.holds (.inr t) = {x | x.1 = info.myPid ∧ x.2 ∈ rids} := by
    rw [holds, ht]
    simp [Phase.duty, Duty.holds, hinfo, eq_comm]
  constructor
  · refine h.ledger.release (s := .inr t) (S := {x | x.1 = info.myPid ∧ x.2 ∈ rids}) hmine.ge ?_ ?_
    · intro rid' pid'
      show scheduler.ridToPid[rid']? = some pid' ↔ _
      rw [hridToPid, htable]
      simp [and_comm]
    · rintro (q | t') x
      · show x ∈ scheduler.owned q ↔ x ∈ s.scheduler.owned q ∧ _
        by_cases hq : q = p
        · -- it has nothing, and then it is not there
          subst hq
          rw [owned_of_heap hinfo]
          simp [owned, hself, hnone]
        · rw [owned_of_registration (s := s.scheduler) (by rw [hother q hq])]
          simp [Sum.inl_ne_inr]
      · rw [holds, duty_setPhase]
        show x ∈ Duty.holds scheduler _ ↔ _
        by_cases hteq : t' = t
        · subst hteq
          rw [if_pos rfl, hmine]
          simp [Phase.duty, Duty.holds]
        · have hsame : (s.threads t').duty.holds scheduler = s.holds (.inr t') := by
            refine holds_of_released ?_
            intro q rids' hduty
            have hrel := Phase.eq_releasing_of_duty hduty
            have hq : q ≠ p := by rintro rfl; exact hteq (halone t' rids' hrel)
            rw [hother q hq]
          rw [if_neg hteq, hsame]
          simp [hteq]
  · show scheduler.ridToPid[(0 : RID)]? = none
    rw [hridToPid]
    apply h.zero_of_released
    intro rid pid hheld
    exact ((htable rid pid).mp hheld).1
  · intro t' q pid rid hduty
    rw [duty_setPhase] at hduty
    split at hduty
    · cases hduty
    · have hq : q ≠ p := by rintro rfl; exact hcalls t' pid rid hduty
      show (scheduler.heap q).map _ = _
      rw [hother q hq]
      exact h.called t' q pid rid hduty
  · intro t' q rids' hrel
    rw [threads_setPhase] at hrel
    split at hrel
    · cases hrel
    · next hne =>
      have hq : q ≠ p := by rintro rfl; exact hne (halone t' rids' hrel)
      show ∃ info', scheduler.heap q = some info' ∧ _
      rw [hother q hq]
      exact h.emptied t' q rids' hrel

end Cleanup

/-! ### Runs -/

/-- A process that is added has no RIDs. -/
theorem Accounted.adds (h : s.Accounted) (htables : s.scheduler.TablesAgree) {t : ℕ}
    {executableId ownerId : Id} {process : Option ProcessPtr} {pid : PID} {p : InfoPtr}
    {scheduler : ProcessScheduler} {event : ProcessExecutionEvent} (ht : s.threads t = .idle)
    (hadd : s.scheduler.addProcess executableId ownerId process = some ((pid, some p), scheduler)) :
    ((s.withScheduler scheduler).setPhase t (.adding p event .none)).Accounted := by
  obtain ⟨process', nextPid, -, -, -, -, hptr, hscheduler⟩ := addProcess_cases hadd
  have hfree : s.scheduler.heap p = none := htables.fresh p hptr.ge
  have hridToPid : scheduler.ridToPid = s.scheduler.ridToPid := by rw [hscheduler]; rfl
  have hself : scheduler.heap p = some (.new pid process' executableId ownerId) := by
    rw [hscheduler]
    exact update_self ..
  have hother : ∀ q, s.scheduler.heap q ≠ none → scheduler.heap q = s.scheduler.heap q := by
    intro q hq
    have hne : q ≠ p := by rintro rfl; exact hq hfree
    rw [hscheduler]
    exact update_of_ne hne _ _
  have hduty : ∀ t', (((s.withScheduler scheduler).setPhase t (.adding p event .none)).threads
      t').duty = (s.threads t').duty := by
    intro t'
    rw [duty_setPhase]
    split
    · next heq => rw [heq, ht]; rfl
    · rfl
  constructor
  · refine h.ledger.congr (fun rid => by rw [← hridToPid]; rfl) ?_
    rintro (q | t')
    · ext x
      show x ∈ scheduler.owned q ↔ x ∈ s.scheduler.owned q
      by_cases hq : q = p
      · subst hq
        rw [owned_of_heap hself]
        simp [owned, hfree, ProcessInfo.new]
      · have hsame : scheduler.heap q = s.scheduler.heap q := by
          rw [hscheduler]
          exact update_of_ne hq _ _
        rw [owned_of_registration (s := s.scheduler) (by rw [hsame])]
    · rw [holds, hduty]
      refine holds_of_released ?_
      intro q rids hrel
      obtain ⟨info, hinfo, -⟩ := h.emptied t' q rids (Phase.eq_releasing_of_duty hrel)
      show (scheduler.heap q).map _ = _
      rw [hother q (ne_none_iff_exists'.mpr ⟨info, hinfo⟩)]
  · rw [← h.zero, ← hridToPid]
    rfl
  · intro t' q pid' rid' hcall
    rw [hduty] at hcall
    have hlive := h.called t' q pid' rid' hcall
    show (scheduler.heap q).map _ = _
    rw [hother q (by intro hnone; rw [hnone] at hlive; cases hlive)]
    exact hlive
  · intro t' q rids hrel
    rw [threads_setPhase] at hrel
    split at hrel
    · cases hrel
    · obtain ⟨info, hinfo, hnone⟩ := h.emptied t' q rids hrel
      exact ⟨info, (hother q (ne_none_iff_exists'.mpr ⟨info, hinfo⟩)).trans hinfo, hnone⟩

/-- The guard for runs in which no call is late: no completed process is suspended,
no resource is stored once a cleanup has taken all of its process, and no process
is freed with a call in progress. -/
structure Orderly (s : System) (a : Action) : Prop where
  suspends : SuspendsOnly unfinished s a
  stores : ∀ t, a = .resourceAdded t true → ∀ p call, (s.threads t).services = some (p, call) →
    ∀ t' rids, s.threads t' ≠ .releasing p rids
  finishes : ∀ t p rids, a = .finishCleanup t → s.threads t = .releasing p rids →
    ∀ t' call, (s.threads t').services = some (p, call) → call = .none

/-- **Every such step keeps the RIDs accounted for.** -/
theorem Accounted.step {a : Action} (h : s.Accounted) (htables : s.scheduler.TablesAgree)
    (hex : s.dispatch.Exclusive) (hok : Orderly s a) (hstep : step s a = some s') :
    s'.Accounted := by
  cases happens_of_step hstep with
  | refused => exact h
  | adds ht hadd => exact h.adds htables ht hadd
  | added ht => exact h.goesOn rfl (fun _ => rfl) rfl (by rw [ht]; rfl)
  | kills hop => exact h.retains (retains_killProcess hop)
  | suspends hop => exact h.retains (retains_suspendProcess hop)
  | starts hop => exact h.retains (retains_startProcess hop)
  | sends hop => exact h.retains (retains_sendMessage hop)
  | shutsDown hop => exact h.retains (retains_shutdown hop)
  | jumps backwards => cases backwards <;> exact h.quiet rfl (fun _ => rfl) fun _ => rfl
  | wakes ht hnow hloop =>
    have hkept := retains_wakeLoop _ _ _ hloop
    exact h.goesOn hkept.ridToPid hkept.registration rfl (by rw [ht]; rfl)
  | @popsNothing t shutdownCaller ht hq | @timesOut t shutdownCaller ht =>
    refine h.goesOn rfl (fun _ => rfl) rfl ?_
    rw [ht]
    cases shutdownCaller <;> rfl
  | pops ht hq => exact h.goesOn rfl (fun _ => rfl) rfl (by rw [ht]; rfl)
  | @dispatches t p info ht hinfo =>
    have hkept : Retains s.scheduler
        (s.scheduler.setInfo p { info with processState := .executing }) :=
      retains_setInfo hinfo (Eq.refl _)
    exact h.goesOn hkept.ridToPid hkept.registration rfl (by rw [ht]; rfl)
  | handsKilled ht | handsPlain ht | messagesDone ht =>
    exact h.goesOn rfl (fun _ => rfl) rfl (by rw [ht]; rfl)
  | @handsMessage _ t p isKilled stage call rid message info info' ht hstage hinfo hnext =>
    have hsame : info'.registration = info.registration := by
      unfold ProcessInfo.getNextMessage at hnext
      split at hnext <;> cases hnext
      rfl
    have hkept := retains_setInfo hinfo hsame
    refine h.goesOn hkept.ridToPid hkept.registration rfl ?_
    rw [ht]
    rcases hstage with ⟨rfl, -⟩ | ⟨status, rfl⟩ <;> rfl
  | @callReturns t p isKilled handing status ht =>
    refine h.goesOn rfl (fun _ => rfl) rfl ?_
    rw [ht]
    cases handing <;> cases status <;> rfl
  | @returns t p isKilled status call now sleepMs scheduler ht hnow hret =>
    have hkept := retains_returnedFromExecute hret
    refine h.goesOn hkept.ridToPid hkept.registration rfl ?_
    rw [ht]
    cases status <;> rfl
  | takesAll ht htake => exact h.takesAll ht htake
  | @finishes t p rids scheduler ht hfin =>
    refine h.finishes ht hfin ?_ ?_
    · intro t' pid rid hduty
      obtain ⟨call, hcall, hne⟩ := Phase.services_of_duty hduty
      exact hne (hok.finishes t p rids rfl ht t' call hcall)
    · intro t' rids' ht'
      -- both threads have the process in their hands
      have hhold : ∀ u rids, s.threads u = .releasing p rids →
          s.dispatch.hold u = some (.cleaning p) := by
        intro u rids hu
        show (s.threads u).hold = _
        rw [hu]
        rfl
      have hgrip := Dispatch.grip_of_hold (hhold t rids ht)
      have hgrip' := Dispatch.grip_of_hold (hhold t' rids' ht')
      exact hex.custody.unique t' t p _ _ hgrip' hgrip
  | getsRid ht hinfo hget hrid => exact h.getsRid ht hinfo hget hrid
  | @stores t p pid rid resource blocking info ht hinfo hrid =>
    refine h.stores ht rfl hinfo ?_ ?_ (hok.stores t rfl p _ ht)
    · cases blocking <;> simp [ProcessInfo.addBlockingResource, ProcessInfo.addResource, hrid]
    · intro rid'
      have hinsert : rid' ∈ info.resources.insert rid resource ↔
          rid' ∈ info.resources ∨ rid' = rid := by
        rw [Std.TreeMap.mem_insert, Std.compare_eq_iff_eq, or_comm, eq_comm (a := rid)]
      cases blocking <;>
        simpa [ProcessInfo.addBlockingResource, ProcessInfo.addResource, hrid] using hinsert
  | @storesNot t p pid resource blocking ht =>
    -- the RID is in the table, where 0 is not
    have hmine : (pid, 0) ∈ s.holds (.inr t) := by
      rw [holds_of_services ht]
      exact Set.mem_singleton _
    have hentry := h.ledger.entry _ _ _ hmine
    rw [h.zero] at hentry
    cases hentry
  | notAdded ht => exact h.givesBack ht rfl
  | removed ht => exact h.givesBack ht rfl
  | @takes t p rid resource info info' ht hinfo hremove =>
    obtain ⟨r, d, b, heq⟩ := removeResource_eq info rid
    have hmem := mem_resources_removeResource info rid
    have howned : rid ∈ info.resources := by
      unfold ProcessInfo.removeResource at hremove
      split at hremove
      · cases hremove
      · next hsome =>
        rw [Std.TreeMap.mem_iff_isSome_getElem?, hsome]
        rfl
    rw [hremove] at heq hmem
    exact h.takes ht hinfo (by rw [show info' = _ from heq]) howned hmem
  | @takesPtr t p rid resource info info' ht hinfo hremove hrid =>
    obtain ⟨howned, rfl⟩ := removeResourcePtr_cases hremove hrid
    refine h.takes ht hinfo rfl howned ?_
    intro rid'
    rw [Std.TreeMap.mem_erase, and_comm, Ne, Std.compare_eq_iff_eq, eq_comm]

/-- **RIDs are accounted for** in every run in which no call is late. -/
theorem accounted_of_reachable (h : Reachable System.step Orderly initial s) : s.Accounted := by
  have hboth : s.ReachesBy unfinished ∧ s.Accounted := by
    refine h.invariant (I := fun s => s.ReachesBy unfinished ∧ s.Accounted)
      ⟨.init, accounted_initial⟩ ?_
    rintro s a s' ⟨hreach, hs⟩ hok hstep
    have hex := exclusive_of_reachable hreach fun hne => hne rfl
    exact ⟨hreach.step hok.suspends hstep,
      hs.step (tablesAgree_of_reachable hreach) hex hok hstep⟩
  exact hboth.2

/-- A process is in the PID table under its PID. -/
theorem allProcesses_of_myPid (h : s.scheduler.TablesAgree) {pid : PID}
    (hpid : (s.scheduler.heap p).map ProcessInfo.myPid = some pid) :
    ∃ info, s.scheduler.allProcesses[pid]? = some p ∧ s.scheduler.heap p = some info := by
  obtain ⟨info, hinfo, rfl⟩ := map_eq_some_iff.mp hpid
  exact ⟨info, (h.pid _ p).mpr ⟨info, hinfo, rfl⟩, hinfo⟩

/-- Where a RID can lie: with a process, with a call for it or with its cleanup. -/
theorem exists_holds_iff (htables : s.scheduler.TablesAgree) (hrids : s.Accounted) (pid : PID)
    (rid : RID) : (∃ i, (pid, rid) ∈ s.holds i) ↔
    ∃ p info, s.scheduler.allProcesses[pid]? = some p ∧ s.scheduler.heap p = some info ∧
      (rid ∈ info.resources ∨ (∃ t, (s.threads t).duty = .call p pid rid) ∨
        ∃ t rids, (s.threads t).duty = .release p rids ∧ rid ∈ rids) := by
  constructor
  · rintro ⟨p | t, hx⟩
    · obtain ⟨info, hinfo, rfl, hmem⟩ := hx
      exact ⟨p, info, (htables.pid _ p).mpr ⟨info, hinfo, rfl⟩, hinfo, .inl hmem⟩
    · cases hduty : (s.threads t).duty with
      | none =>
        rw [holds, hduty] at hx
        cases hx
      | call p pid' rid' =>
        rw [holds, hduty] at hx
        obtain ⟨rfl, rfl⟩ := Prod.mk.inj hx
        obtain ⟨info, hall, hinfo⟩ := allProcesses_of_myPid htables (hrids.called t p pid rid hduty)
        exact ⟨p, info, hall, hinfo, .inr (.inl ⟨t, hduty⟩)⟩
      | release p rids =>
        rw [holds, hduty] at hx
        obtain ⟨info, hall, hinfo⟩ := allProcesses_of_myPid htables hx.1
        exact ⟨p, info, hall, hinfo, .inr (.inr ⟨t, rids, hduty, hx.2⟩)⟩
  · rintro ⟨p, info, hall, hinfo, hcase⟩
    have hpid : info.myPid = pid := by
      obtain ⟨info', hinfo', hpid'⟩ := (htables.pid pid p).mp hall
      obtain rfl := Option.some.inj (hinfo.symm.trans hinfo')
      exact hpid'
    rcases hcase with hmem | ⟨t, hduty⟩ | ⟨t, rids, hduty, hmem⟩
    · exact ⟨.inl p, info, hinfo, hpid, hmem⟩
    · refine ⟨.inr t, ?_⟩
      rw [holds, hduty]
      exact Set.mem_singleton _
    · refine ⟨.inr t, ?_⟩
      rw [holds, hduty]
      exact ⟨by rw [hinfo, ← hpid]; rfl, hmem⟩

end System

/-- The tables of the scheduler agree. -/
structure ProcessTables (s : System) : Prop where
  pidsForId : ∀ id, ∃ pids, s.scheduler.getPidsForId id = some pids ∧ pids.Nodup ∧
    ∀ pid, pid ∈ pids ↔ ∃ p info, s.scheduler.allProcesses[pid]? = some p ∧
      s.scheduler.heap p = some info ∧ info.dbOwnerId = id
  pidsForSite : ∀ siteId, ∃ pids, s.scheduler.getPidsForSite siteId = some pids ∧ pids.Nodup ∧
    ∀ pid, pid ∈ pids ↔ ∃ p info, s.scheduler.allProcesses[pid]? = some p ∧
      s.scheduler.heap p = some info ∧ info.dbOwnerId.siteId = siteId
  noEmpty : BucketIndex.NoEmpty s.scheduler.allProcessesEntity
  /-- A RID is mapped to a process that exists and owns it, calls for it, or is
  cleaned up of it; nothing is left of a process that is gone. -/
  ridToPid : ∀ (rid : RID) (pid : PID), s.scheduler.ridToPid[rid]? = some pid ↔
    ∃ p info, s.scheduler.allProcesses[pid]? = some p ∧ s.scheduler.heap p = some info ∧
      (rid ∈ info.resources ∨ (∃ t, (s.threads t).duty = .call p pid rid) ∨
        ∃ t rids, (s.threads t).duty = .release p rids ∧ rid ∈ rids)
  owner : ∀ p q info info' rid, s.scheduler.heap p = some info → s.scheduler.heap q = some info' →
    rid ∈ info.resources → rid ∈ info'.resources → p = q

/-- **The process tables agree** in every run in which no call is late. -/
theorem processTables {s : System} (h : Reachable System.step System.Orderly .initial s) :
    ProcessTables s := by
  have htables := System.tablesAgree_of_reachable h
  have hrids := System.accounted_of_reachable h
  constructor
  · exact htables.getPidsForId
  · exact htables.getPidsForSite
  · exact htables.noEmpty
  · intro rid pid
    rw [hrids.ledger.table_eq_iff]
    exact System.exists_holds_iff htables hrids pid rid
  · intro p q info info' rid hinfo hinfo' hmem hmem'
    have hx : (info.myPid, rid) ∈ s.holds (.inl p) := ⟨info, hinfo, rfl, hmem⟩
    have hx' : (info'.myPid, rid) ∈ s.holds (.inl q) := ⟨info', hinfo', rfl, hmem'⟩
    exact Sum.inl.inj (hrids.ledger.owner_unique hx hx').2

/-- Whether the guard has anything to say about a label. -/
def System.isGuarded : Action → Bool
  | .suspendProcess _ | .resourceAdded _ true | .finishCleanup _ => true
  | _ => false

theorem System.orderly_of_not_isGuarded (s : System) {a : Action} (ha : isGuarded a = false) :
    Orderly s a where
  suspends := by
    rintro pid p info rfl
    cases ha
  stores := by
    rintro t rfl
    cases ha
  finishes := by
    rintro t p rids rfl
    cases ha

/-- A process that executes and gets a RID, while another one of the same owner has
been added. -/
def getsResource : List Action :=
  [.addProcess 0 ⟨1, 5⟩ ⟨1, 7⟩ (some 100), .processAdded 0, .addProcess 0 ⟨1, 5⟩ ⟨1, 7⟩ (some 101),
    .processAdded 0, .startProcess 1, .getNextExecute 0 0 1, .pop 0, .dispatch 0, .hand 0,
    .addResource 0 (some 200) false]

theorem processTables_getsResource : ∃ s, run System.step .initial getsResource = some s ∧
    s.scheduler.getPidsForId ⟨1, 7⟩ = some [1, 2] ∧ s.scheduler.ridToPid[(1 : RID)]? = some 1 ∧
    ProcessTables s := by
  have hrun : (run System.step .initial getsResource).map
      (fun s => (s.scheduler.getPidsForId ⟨1, 7⟩, s.scheduler.ridToPid[(1 : RID)]?))
      = some (some [1, 2], some 1) := by decide +kernel
  obtain ⟨s, hs, heq⟩ := Option.map_eq_some_iff.mp hrun
  obtain ⟨hpids, hrid⟩ := Prod.mk.inj heq
  refine ⟨s, hs, hpids, hrid, processTables (.steps .init (steps_of_run hs ?_))⟩
  have hguarded : ∀ a ∈ getsResource, System.isGuarded a = false := by decide
  intro s a ha
  exact System.orderly_of_not_isGuarded s (hguarded a ha)

/-- A process that is killed, and cleaned up, while its `process_added` adds a
resource: the resource is stored once the cleanup has taken all there are. -/
def addsResourceLate : List Action :=
  [.addProcess 0 ⟨1, 5⟩ ⟨1, 7⟩ (some 100), .addResource 0 (some 200) false, .killProcess 1,
    .getNextExecute 1 0 1, .pop 1, .dispatch 1, .hand 1, .processReturns 1 .finished,
    .returnedFromExecute 1 0 0, .takeResources 1, .resourceAdded 0 true, .finishCleanup 1]

/-- The process is gone, and its RID is not. -/
theorem processTables_leak : ∃ s, System.Reaches s ∧ s.scheduler.allProcesses[(1 : PID)]? = none ∧
    s.scheduler.ridToPid[(1 : RID)]? = some 1 ∧ ¬ ProcessTables s := by
  have hrun : (run System.step .initial addsResourceLate).map
      (fun s => (s.scheduler.allProcesses[(1 : PID)]?, s.scheduler.ridToPid[(1 : RID)]?))
      = some (none, some 1) := by decide +kernel
  obtain ⟨s, hs, heq⟩ := Option.map_eq_some_iff.mp hrun
  obtain ⟨hgone, hrid⟩ := Prod.mk.inj heq
  refine ⟨s, System.reaches_of_run hs, hgone, hrid, ?_⟩
  intro htables
  obtain ⟨p, info, hall, -⟩ := (htables.ridToPid 1 1).mp hrid
  rw [hgone] at hall
  cases hall

end Mutgos.Executor
