import Mutgos.Executor.Reachable

/-!
# Kills are delivered

A request to kill a process is carried by its flag while it executes and by its
state while it is in the run queue, until `get_next_execute` hands it out as
killed.  Nothing takes the request back, but that `suspend_process` makes a
completed process suspended: a process that has been told of its death and is
being cleaned up can be started again and is then executed as a live one.

## Main results

* `killProcess_delivered` — **after a kill this holds**, in every run that
  suspends no completed process.
-/

namespace Mutgos.Executor

open Relation

/-- The thread is inside `process_execute` of the process. -/
def Phase.ExecutesProcess (p : InfoPtr) : Phase → Prop
  | executing q _ (.inCall .execute) _ => q = p
  | executing q _ (.inCall (.message _ _)) _ => q = p
  | _ => False

namespace ProcessScheduler

variable {s s' : ProcessScheduler}

/-- What a kill makes of a process. -/
theorem killKept_killProcess {hold : ℕ → Option Hold} {pid : PID} {p : InfoPtr}
    {info : ProcessInfo} (he : (s.dispatch hold).Exclusive) (hp : s.allProcesses[pid]? = some p)
    (hinfo : s.heap p = some info) (h : s.killProcess pid = some (true, s')) :
    (s'.dispatch hold).KillKept p := by
  have halloc : p < s.nextPtr := he.lt_next (standing_of_heap hold hinfo)
  rcases killProcess_cases h with ⟨hfalse, -⟩ | ⟨-, q, info', hq, hinfo', hcase⟩
  · cases hfalse
  obtain rfl := Option.some.inj (hp.symm.trans hq)
  obtain rfl := Option.some.inj (hinfo.symm.trans hinfo')
  rcases hcase with ⟨hdone, rfl⟩ | ⟨hk, hc, hsched⟩
  · refine ⟨halloc, ?_⟩
    intro i hi
    obtain rfl := Option.some.inj ((standing_of_heap hold hinfo).symm.trans hi)
    rcases hdone with hdone | hdone
    · exact .inl hdone
    · exact .inr (.inl hdone)
  · have hheap : (s.setInfo p { info with pendingKilled := true }).heap p
        = some { info with pendingKilled := true } := Function.update_self ..
    obtain ⟨t, ht, htables, hheap', -⟩ := scheduleProcess_spec hheap
    obtain rfl := Option.some.inj (hsched.symm.trans ht)
    refine ⟨by show p < s'.nextPtr; rw [htables.nextPtr]; exact halloc, ?_⟩
    intro i hi
    have hstand : (s'.dispatch hold).standing p
        = some ({ info with pendingKilled := true } : ProcessInfo).scheduled.standing :=
      standing_of_heap hold (by rw [hheap', Function.update_self])
    obtain rfl := Option.some.inj (hstand.symm.trans hi)
    rw [standing_scheduled]
    split
    · next hexec => exact .inr (.inr ⟨hexec, .inl rfl⟩)
    · exact .inl rfl

end ProcessScheduler

namespace System

variable {may : ProcessState → Prop} {s s' : System} {p : InfoPtr}

/-- What keeps a kill, in a state between two steps. -/
structure Doomed (s : System) (p : InfoPtr) : Prop where
  informed : s.Informed
  exclusive : s.dispatch.Exclusive
  killKept : s.dispatch.KillKept p

section

variable (h : s.Doomed p) (hmay : ¬ may .completed)
include h hmay

theorem Doomed.of_step {a : Action} (hok : SuspendsOnly may s a) (hstep : step s a = some s') :
    s'.Doomed p := by
  have hboth : s'.dispatch.Exclusive ∧ s'.dispatch.KillKept p := by
    refine invariant_of_moves (I := fun c => c.Exclusive ∧ c.KillKept p) ?_ h.informed
      ⟨h.exclusive, h.killKept⟩ hok hstep
    rintro c c' ⟨he, hk⟩ hm
    exact ⟨hm.exclusive he hmay, hm.killKept hk he hmay⟩
  exact ⟨h.informed.step hstep, hboth.1, hboth.2⟩

/-- A thread that executes the process as a live one did so before the step. -/
theorem Doomed.unkilled {a : Action} (hok : SuspendsOnly may s a) (hstep : step s a = some s')
    {t : ℕ} (ht : (s'.threads t).hold = some (.executing p false)) :
    (s.threads t).hold = some (.executing p false) := by
  have hback : ∀ c', ReflTransGen (Move may) s.dispatch c' →
      (c'.Exclusive ∧ c'.KillKept p) ∧
      (c'.hold t = some (.executing p false) → s.dispatch.hold t = some (.executing p false)) := by
    intro c' hmoves
    induction hmoves with
    | refl => exact ⟨⟨h.exclusive, h.killKept⟩, id⟩
    | tail _ hm ih =>
      obtain ⟨⟨he, hk⟩, hhold⟩ := ih
      exact ⟨⟨hm.exclusive he hmay, hm.killKept hk he hmay⟩,
        fun ht' => hhold (hm.unkilled hk he ht')⟩
  exact (hback _ (moves_of_step h.informed hok hstep)).2 ht

theorem Doomed.of_steps {as : List Action} (hrun : Steps step (SuspendsOnly may) s as s') :
    s'.Doomed p := by
  refine hrun.invariant (I := fun s => s.Doomed p) h ?_
  intro s a s' hs hok hstep
  exact hs.of_step hmay hok hstep

theorem Doomed.unkilled_steps {as : List Action} (hrun : Steps step (SuspendsOnly may) s as s')
    {t : ℕ} (ht : (s'.threads t).hold = some (.executing p false)) :
    (s.threads t).hold = some (.executing p false) := by
  induction hrun with
  | nil => exact ht
  | cons hok hstep _ ih =>
    have hmid := ih (h.of_step hmay hok hstep) ht
    exact h.unkilled hmay hok hstep hmid

end

/-- Who is inside `process_execute` executes a live process. -/
theorem Informed.hold_of_executesProcess (h : s.Informed) {t : ℕ}
    (ht : (s.threads t).ExecutesProcess p) : (s.threads t).hold = some (.executing p false) := by
  have hthread := h t
  revert ht hthread
  cases s.threads t with
  | executing q isKilled stage call =>
    intro ht hthread
    cases stage with
    | inCall handing =>
      cases isKilled with
      | false => cases handing <;> cases ht <;> rfl
      | true =>
        rcases hthread with hthread | hthread | hthread <;> cases hthread
        cases ht
    | _ => cases ht
  | _ => intro ht; cases ht

/-- From this state on, whatever happens that the guard allows, the process is
handed out as killed only: who is inside `process_execute` of it has had it since,
and who takes it off the run queue is told. -/
def KillDelivered (may : ProcessState → Prop) (s : System) (p : InfoPtr) : Prop :=
  ∀ as₁ as₂ s₁ s₂, Steps step (SuspendsOnly may) s as₁ s₁ →
    Steps step (SuspendsOnly may) s₁ as₂ s₂ → ∀ t,
      ((s₂.threads t).ExecutesProcess p →
        (s.threads t).hold = some (.executing p false) ∧
        (s₁.threads t).hold = some (.executing p false)) ∧
      (s₁.threads t = .popped p → ∀ s', step s₁ (.dispatch t) = some s' →
        s'.threads t = .executing p true .dispatched .none)

theorem Doomed.killDelivered (h : s.Doomed p) (hmay : ¬ may .completed) :
    KillDelivered may s p := by
  intro as₁ as₂ s₁ s₂ hrun₁ hrun₂ t
  have h₁ := h.of_steps hmay hrun₁
  have h₂ := h₁.of_steps hmay hrun₂
  constructor
  · intro ht
    have hlive := h₁.unkilled_steps hmay hrun₂ (h₂.informed.hold_of_executesProcess ht)
    exact ⟨h.unkilled_steps hmay hrun₁ hlive, hlive⟩
  · intro ht s' hstep
    simp only [System.step, ht] at hstep
    obtain ⟨info, hinfo, rfl⟩ := Option.map_eq_some_iff.mp hstep
    -- it was taken off the run queue, so it is killed
    have hpl := (h₁.exclusive.custody.gripped t p .queued
      (by show (s₁.threads t).hold.map _ = _; rw [ht]; rfl)).1
    rw [place_of_heap hinfo] at hpl
    have hplace : info.standing.state.place = .queued := Option.some.inj hpl
    have hkilled : info.processState = .killed := by
      rcases h₁.killKept.doomed _ (ProcessScheduler.standing_of_heap _ hinfo) with hs | hs | ⟨hs, -⟩
      · exact hs
      · rw [hs] at hplace; cases hplace
      · rw [hs] at hplace; cases hplace
    show Function.update s₁.threads t _ t = _
    rw [Function.update_self, hkilled]
    rfl

end System

/-- **A kill is delivered**, in every run that suspends no completed process. -/
theorem killProcess_delivered {s : System} (h : s.ReachesBy unfinished) {pid : PID} {p : InfoPtr}
    {info : ProcessInfo} {scheduler : ProcessScheduler}
    (hp : s.scheduler.allProcesses[pid]? = some p) (hinfo : s.scheduler.heap p = some info)
    (hkill : s.scheduler.killProcess pid = some (true, scheduler)) :
    System.KillDelivered unfinished (s.withScheduler scheduler) p := by
  have hmay : ¬ unfinished .completed := fun hne => hne rfl
  have hinformed := System.informed_of_reachable h
  have hexclusive := System.exclusive_of_reachable h hmay
  refine System.Doomed.killDelivered ⟨hinformed, ?_, ?_⟩ hmay
  · have hmoves : ReflTransGen (Move unfinished) s.dispatch (s.withScheduler scheduler).dispatch :=
      ProcessScheduler.killProcess_moves _ hkill
    have hkeep : ∀ c', ReflTransGen (Move unfinished) s.dispatch c' → c'.Exclusive := by
      intro c' hc
      induction hc with
      | refl => exact hexclusive
      | tail _ hm ih => exact hm.exclusive ih hmay
    exact hkeep _ hmoves
  · exact ProcessScheduler.killKept_killProcess hexclusive hp hinfo hkill

/-- A process that is executing and then killed. -/
def executes : List Action :=
  [.addProcess 0 ⟨1, 5⟩ ⟨1, 7⟩ (some 100), .processAdded 0, .startProcess 1,
    .getNextExecute 0 0 1, .pop 0, .dispatch 0, .hand 0]

theorem killProcess_delivered_executing : ∃ s scheduler, run System.step System.initial executes
      = some s ∧ s.threads 0 = .executing 0 false (.inCall .execute) .none ∧
    s.scheduler.killProcess 1 = some (true, scheduler) ∧
    System.KillDelivered unfinished (s.withScheduler scheduler) 0 := by
  have hrun : (run System.step System.initial executes).map
      (fun s => (s.threads 0, s.scheduler.allProcesses[1]?, (s.scheduler.heap 0).isSome,
        (s.scheduler.killProcess 1).map Prod.fst))
      = some (.executing 0 false (.inCall .execute) .none, some 0, true, some true) := by
    decide +kernel
  obtain ⟨s, hs, heq⟩ := Option.map_eq_some_iff.mp hrun
  obtain ⟨hthread, hp, hsome, hkilled⟩ : _ ∧ _ ∧ _ ∧ _ := by simpa only [Prod.mk.injEq] using heq
  obtain ⟨info, hinfo⟩ := Option.isSome_iff_exists.mp hsome
  obtain ⟨⟨result, scheduler⟩, hkill, rfl⟩ := Option.map_eq_some_iff.mp hkilled
  refine ⟨s, scheduler, hs, hthread, hkill, ?_⟩
  exact killProcess_delivered (System.reachesBy_of_run hs (by decide)) hp hinfo hkill

/-- A process that is killed before it ever executes is told of its death, ends,
and is suspended and started while it is cleaned up. -/
def startedAfterDeath : List Action :=
  [.getNextExecute 0 0 1, .pop 0, .dispatch 0, .hand 0, .processReturns 0 .finished,
    .returnedFromExecute 0 0 0, .suspendProcess 1, .startProcess 1, .getNextExecute 1 0 1, .pop 1,
    .dispatch 1, .hand 1]

/-- Then it is executed as a live one, by a thread that did not have it when it was
killed. -/
theorem killProcess_lost : ∃ s scheduler, System.Reaches s ∧
    s.scheduler.allProcesses[1]? = some 0 ∧
    (s.scheduler.heap 0).map ProcessInfo.processState = some .created ∧
    s.scheduler.killProcess 1 = some (true, scheduler) ∧
    ¬ System.KillDelivered (fun _ => True) (s.withScheduler scheduler) 0 := by
  have hrun : (run System.step System.initial
      [.addProcess 0 ⟨1, 5⟩ ⟨1, 7⟩ (some 100), .processAdded 0]).bind (fun s =>
        (s.scheduler.killProcess 1).bind fun r =>
          (run System.step (s.withScheduler r.2) startedAfterDeath).map fun s' =>
            (s.scheduler.allProcesses[1]?, (s.scheduler.heap 0).map ProcessInfo.processState, r.1,
              s.threads 1, s'.threads 1))
      = some (some 0, some .created, true, .idle,
          .executing 0 false (.inCall .execute) .none) := by
    decide +kernel
  obtain ⟨s, hs, hrun⟩ := Option.bind_eq_some_iff.mp hrun
  obtain ⟨⟨result, scheduler⟩, hkill, hrun⟩ := Option.bind_eq_some_iff.mp hrun
  obtain ⟨s', hs', heq⟩ := Option.map_eq_some_iff.mp hrun
  obtain ⟨hp, hstate, rfl, hidle, hthread⟩ : _ ∧ _ ∧ _ ∧ _ ∧ _ := by
    simpa only [Prod.mk.injEq] using heq
  refine ⟨s, scheduler, System.reaches_of_run hs, hp, hstate, hkill, ?_⟩
  intro hdelivered
  have hsteps : Steps System.step (System.SuspendsOnly fun _ => True) (s.withScheduler scheduler)
      startedAfterDeath s' := steps_of_run hs' fun _ _ _ _ _ _ _ _ _ _ _ => trivial
  have hsince := ((hdelivered _ _ _ _ (.nil _) hsteps 1).1 (by rw [hthread]; rfl)).1
  have hbefore : (s.threads 1).hold = some (.executing 0 false) := hsince
  rw [hidle] at hbefore
  cases hbefore

end Mutgos.Executor
