import Mutgos.Executor.Reachable

/-!
# The timer queue

Which processes the timer queue holds, and when the loop of `get_next_execute`
that wakes the expired ones ends.  The loop looks at the first entry until that
has not expired, and only the removal inside `schedule_process`, for a process
that is sleeping, takes entries out.  `suspend_process` changes the state of a
sleeping process and leaves its entry in place: when that entry expires, the loop
goes round for ever, holding the lock of the scheduler.

## Main results

* `timerQueue_exact` — **in every run that suspends no sleeping or completed
  process** the timer queue is exact and the loop ends, whatever the time is.
-/

namespace Mutgos.Executor

open List

namespace ProcessScheduler

/-- A process that sleeps has one entry, under its wakeup time; any other process
has none. -/
def TimerQueueExact (s : ProcessScheduler) : Prop :=
  ∀ p, s.processTimerQueue.filter (fun e => e.2 == p) =
    match s.heap p with
    | none => []
    | some info => if info.processState = .sleeping then [(info.wakeupTime, p)] else []

/-- At any time the loop ends, each of its iterations having removed the entry it
looked at, and leaves no entry that has expired. -/
def WakesExpired (s : ProcessScheduler) : Prop :=
  ∀ now, ∃ s', s.wakeLoop (s.processTimerQueue.length + 1) now = some s' ∧
    s'.processTimerQueue = s.processTimerQueue.dropWhile (fun e => decide (e.1 ≤ now)) ∧
    ∀ e ∈ s'.processTimerQueue, now < e.1

variable {s : ProcessScheduler} {hold : ℕ → Option Hold} {p : InfoPtr} {w : TimePoint}

theorem sleepsUntil_iff : (s.dispatch hold).SleepsUntil p w ↔
    ∃ info, s.heap p = some info ∧ info.processState = .sleeping ∧ info.wakeupTime = w := by
  constructor
  · rintro ⟨i, hi, hs, hw⟩
    obtain ⟨info, hinfo, rfl⟩ := Option.map_eq_some_iff.mp hi
    exact ⟨info, hinfo, hs, hw⟩
  · rintro ⟨info, hinfo, hs, hw⟩
    exact ⟨info.standing, standing_of_heap hold hinfo, hs, hw⟩

/-- A list without repetition of second components filters to one entry at most. -/
theorem filter_snd_of_nodup {m : MultiMap TimePoint InfoPtr} (h : (m.map Prod.snd).Nodup)
    (hmem : (w, p) ∈ m) : m.filter (fun e => e.2 == p) = [(w, p)] := by
  induction m with
  | nil => cases hmem
  | cons e m ih =>
    rw [map_cons, nodup_cons] at h
    rcases mem_cons.mp hmem with rfl | hin
    · have hrest : m.filter (fun e => e.2 == p) = [] := by
        rw [filter_eq_nil_iff]
        intro e he hp
        exact h.1 (mem_map.mpr ⟨e, he, by simpa using hp⟩)
      rw [filter_cons_of_pos (by simp), hrest]
    · have hne : e.2 ≠ p := by
        rintro rfl
        exact h.1 (mem_map.mpr ⟨_, hin, rfl⟩)
      rw [filter_cons_of_neg (by simpa using hne)]
      exact ih h.2 hin

/-- The abstract statement about the timer queue is the concrete one. -/
theorem timerQueueExact_of_dispatch (h : (s.dispatch hold).TimerExact) : s.TimerQueueExact := by
  intro p
  have hnone : (∀ w, ¬ (s.dispatch hold).SleepsUntil p w) →
      s.processTimerQueue.filter (fun e => e.2 == p) = [] := by
    intro hawake
    rw [filter_eq_nil_iff]
    rintro ⟨w, q⟩ hmem hq
    obtain rfl : q = p := by simpa using hq
    exact hawake w ((h.mem_iff w q).mp hmem)
  cases hp : s.heap p with
  | none =>
    refine hnone fun w hsleep => ?_
    obtain ⟨info, hinfo, -⟩ := sleepsUntil_iff.mp hsleep
    rw [hp] at hinfo
    cases hinfo
  | some info =>
    simp only
    split
    · next hs =>
      have hmem : (info.wakeupTime, p) ∈ s.processTimerQueue :=
        (h.mem_iff _ _).mpr (sleepsUntil_iff.mpr ⟨info, hp, hs, rfl⟩)
      exact filter_snd_of_nodup h.nodup hmem
    · next hs =>
      refine hnone fun w hsleep => ?_
      obtain ⟨info', hinfo', hs', -⟩ := sleepsUntil_iff.mp hsleep
      exact hs (Option.some.inj (hp.symm.trans hinfo') ▸ hs')

/-- One iteration of the loop on an exact queue: the process of the first entry is
scheduled, its entry is gone, and the queue is exact again. -/
theorem scheduleProcess_first (h : (s.dispatch hold).TimerExact) {rest : MultiMap TimePoint InfoPtr}
    (htimer : s.processTimerQueue = (w, p) :: rest) :
    ∃ s', s.scheduleProcess p = some s' ∧ s'.processTimerQueue = rest ∧
      (s'.dispatch hold).TimerExact := by
  have hmem : (w, p) ∈ s.processTimerQueue := by rw [htimer]; exact mem_cons_self
  obtain ⟨info, hinfo, hs, rfl⟩ := sleepsUntil_iff.mp ((h.mem_iff _ _).mp hmem)
  obtain ⟨s', hsched, -, -, -, htimer'⟩ := scheduleProcess_spec hinfo
  have hrest : s'.processTimerQueue = rest := by
    rw [htimer', if_pos hs, htimer, eraseTimer, if_pos rfl, eraseFrom, if_pos rfl]
  refine ⟨s', hsched, hrest, ?_⟩
  have hdisp : s'.dispatch hold = _ := dispatch_scheduleProcess_of_idle hinfo (by rw [hs]; decide)
    (by rw [hs]; decide) hsched
  have hstate : (if info.pendingKilled then .killed else .ready : ProcessState) ≠ .sleeping := by
    cases info.pendingKilled <;> decide
  refine h.wake (j := { info.standing with
    state := if info.pendingKilled then .killed else .ready
    pendingKilled := false }) (standing_of_heap hold hinfo) hs hstate ?_ ?_
  · rw [hdisp]
    simp [ProcessInfo.standing, hs]
  · rw [hdisp]
    simp

/-- **The loop ends on an exact queue.** -/
theorem wakesExpired_of_dispatch (h : (s.dispatch hold).TimerExact) : s.WakesExpired := by
  intro now
  generalize hm : s.processTimerQueue = m
  induction m generalizing s with
  | nil =>
    refine ⟨s, ?_, hm, ?_⟩
    · rw [wakeLoop, hm]
    · rw [hm]; intro e he; cases he
  | cons e m ih =>
    obtain ⟨w, p⟩ := e
    rw [wakeLoop, hm]
    by_cases hw : now < w
    · refine ⟨s, by simp [hw], ?_, ?_⟩
      · rw [hm, dropWhile_cons_of_neg (by simpa using hw)]
      · -- the rest of the queue is later still
        have hsorted : MultiMap.Sorted ((w, p) :: m) := hm ▸ h.sorted
        rw [hm]
        intro e he
        rcases mem_cons.mp he with rfl | he
        · exact hw
        · exact lt_of_lt_of_le hw ((pairwise_cons.mp hsorted).1 e he)
    · obtain ⟨t, hsched, hrest, ht⟩ := scheduleProcess_first h hm
      obtain ⟨s', hloop, hdrop, hlate⟩ := ih ht hrest
      refine ⟨s', ?_, ?_, hlate⟩
      · simpa [hw, hsched] using hloop
      · rw [hdrop, dropWhile_cons_of_pos (by simpa using hw)]

end ProcessScheduler

/-- Neither sleeping nor completed. -/
def attentive (state : ProcessState) : Prop := state ≠ .sleeping ∧ state ≠ .completed

theorem System.timerExact_of_attentive {s : System} (h : s.ReachesBy attentive) :
    s.dispatch.TimerExact :=
  System.timerExact_of_reachable h (fun hc => hc.2 rfl) (fun hs => hs.1 rfl)

/-- **In every run that suspends no sleeping or completed process** the timer queue
is exact, and the loop of `get_next_execute` ends whatever the time is. -/
theorem timerQueue_exact {s : System} (h : s.ReachesBy attentive) :
    s.scheduler.TimerQueueExact ∧ s.scheduler.WakesExpired := by
  have hexact := System.timerExact_of_attentive h
  exact ⟨ProcessScheduler.timerQueueExact_of_dispatch hexact,
    ProcessScheduler.wakesExpired_of_dispatch hexact⟩

/-- A process that is started and goes to sleep for 5 ms. -/
def goesToSleep : List Action :=
  [.addProcess 0 ⟨1, 5⟩ ⟨1, 7⟩ (some 100), .processAdded 0, .startProcess 1,
    .getNextExecute 0 0 1, .pop 0, .dispatch 0, .hand 0, .processReturns 0 .sleep,
    .returnedFromExecute 0 0 5]

/-- While it sleeps, its entry is the timer queue. -/
theorem timerQueue_exact_sleeping : ∃ s, run System.step System.initial goesToSleep = some s ∧
    s.scheduler.processTimerQueue = [(5000000, 0)] ∧
    s.scheduler.TimerQueueExact ∧ s.scheduler.WakesExpired := by
  have htimer : (run System.step System.initial goesToSleep).map
      (·.scheduler.processTimerQueue) = some [(5000000, 0)] := by decide +kernel
  obtain ⟨s, hs, htimer⟩ := Option.map_eq_some_iff.mp htimer
  refine ⟨s, hs, htimer, timerQueue_exact ?_⟩
  exact System.reachesBy_of_run hs (by decide)

/-- Suspended in its sleep, it keeps its entry: the timer queue is not exact, and
once the entry has expired the loop does not end. -/
theorem timerQueue_broken : ∃ s : System, s.Reaches ∧ ¬ s.scheduler.TimerQueueExact ∧
    ∀ fuel, s.scheduler.wakeLoop fuel 5000000 = none := by
  have hrun : (run System.step System.initial (goesToSleep ++ [.suspendProcess 1])).map
      (fun s => (s.scheduler.processTimerQueue,
        (s.scheduler.heap 0).map ProcessInfo.processState))
      = some ([(5000000, 0)], some .suspended) := by decide +kernel
  obtain ⟨s, hs, heq⟩ := Option.map_eq_some_iff.mp hrun
  obtain ⟨htimer, hstate⟩ := Prod.mk.inj heq
  obtain ⟨info, hinfo, hsus⟩ := Option.map_eq_some_iff.mp hstate
  have hawake : info.processState ≠ .sleeping := by rw [hsus]; decide
  refine ⟨s, System.reaches_of_run hs, ?_, ?_⟩
  · intro hexact
    have h0 := hexact 0
    rw [htimer, hinfo] at h0
    simp [hsus] at h0
  · exact ProcessScheduler.wakeLoop_stale le_rfl htimer hinfo hawake

end Mutgos.Executor
