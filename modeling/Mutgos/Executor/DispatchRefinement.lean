import Mutgos.Executor.Dispatch
import Mutgos.Executor.Scheduling

/-!
# The scheduler dispatches

Every step of the threads and the scheduler is a sequence of moves of
`Mutgos.Executor.Dispatch`, seen through a projection that forgets the tables,
the messages, the resources and how far each call has got.  Most steps are no
move or one; waking the sleepers and shutting down are as many as there are
processes to schedule.

## Main results

* `System.moves_of_step` — **every step is a sequence of moves.**
-/

namespace Mutgos.Executor

open Function Relation ProcessState

/-- What the scheduler's decisions about a process rest on. -/
def ProcessInfo.standing (info : ProcessInfo) : Standing :=
  ⟨info.processState, info.wakeupTime, info.pendingKilled⟩

/-- What a thread in a phase has a process for. -/
def Phase.hold : Phase → Option Hold
  | popped p => some (.popped p)
  | executing p isKilled _ _ => some (.executing p isKilled)
  | cleaning p | releasing p _ => some (.cleaning p)
  | _ => none

@[simp] theorem Phase.hold_withCall (call : ServicesCall) (phase : Phase) :
    (phase.withCall call).hold = phase.hold := by
  cases phase <;> rfl

namespace ProcessScheduler

/-- The projection, with what the threads hold. -/
def dispatch (s : ProcessScheduler) (hold : ℕ → Option Hold) : Dispatch where
  standing := fun p => (s.heap p).map ProcessInfo.standing
  queue := s.processRunQueue
  timer := s.processTimerQueue
  hold := hold
  next := s.nextPtr

variable {s s' : ProcessScheduler} {p : InfoPtr} {info : ProcessInfo} {hold : ℕ → Option Hold}
variable {may : ProcessState → Prop}

theorem standing_of_heap (hold : ℕ → Option Hold) (h : s.heap p = some info) :
    (s.dispatch hold).standing p = some info.standing := by
  show (s.heap p).map _ = _
  rw [h]; rfl

/-- One process has changed, and neither queue has. -/
theorem dispatch_of_update (hold : ℕ → Option Hold)
    (hheap : s'.heap = update s.heap p (some info))
    (hqueue : s'.processRunQueue = s.processRunQueue)
    (htimer : s'.processTimerQueue = s.processTimerQueue) (hnext : s'.nextPtr = s.nextPtr) :
    s'.dispatch hold = (s.dispatch hold).put p info.standing := by
  have hmap : (fun q => (update s.heap p (some info) q).map ProcessInfo.standing)
      = update (fun q => (s.heap q).map ProcessInfo.standing) p (some info.standing) := by
    funext q
    by_cases hq : q = p
    · subst hq; simp
    · simp [hq]
  simp [dispatch, Dispatch.put, hheap, hqueue, htimer, hnext, hmap]

@[simp] theorem dispatch_setInfo (s : ProcessScheduler) (p : InfoPtr) (info : ProcessInfo) :
    (s.setInfo p info).dispatch hold = (s.dispatch hold).put p info.standing :=
  dispatch_of_update hold rfl rfl rfl rfl

/-- Writing a process back with the standing it had is no move. -/
theorem dispatch_setInfo_same {info' : ProcessInfo} (h : s.heap p = some info)
    (hsame : info'.standing = info.standing) :
    (s.setInfo p info').dispatch hold = s.dispatch hold := by
  rw [dispatch_setInfo, hsame, Dispatch.put, ← standing_of_heap hold h,
    update_eq_self]

/-! ### Scheduling -/

theorem scheduleProcess_of_executing (h : s.heap p = some info)
    (hs : info.processState = .executing) : s.scheduleProcess p = some s := by
  simp [scheduleProcess, h, ProcessInfo.scheduled, hs, setInfo_self h]

/-- What scheduling makes of a standing. -/
theorem standing_scheduled (info : ProcessInfo) : info.scheduled.standing =
    if info.processState = .executing then info.standing
    else if info.pendingKilled then ⟨.killed, info.wakeupTime, false⟩
    else if info.processState.inQueue then info.standing
    else ⟨.ready, info.wakeupTime, false⟩ := by
  unfold ProcessInfo.scheduled
  split
  · rfl
  · split
    · rfl
    · next hk =>
      split
      · rfl
      · simp [ProcessInfo.standing, hk]

/-- A process in the run queue stays there, and a pending kill is made official. -/
theorem dispatch_scheduleProcess_of_queued (h : s.heap p = some info)
    (hs : info.processState.place = .queued) (hsched : s.scheduleProcess p = some s') :
    s'.dispatch hold = if info.pendingKilled then
      (s.dispatch hold).put p ⟨.killed, info.wakeupTime, false⟩ else s.dispatch hold := by
  obtain ⟨t, ht, htables, hheap, hqueue, htimer⟩ := scheduleProcess_spec h
  obtain rfl := Option.some.inj (hsched.symm.trans ht)
  have hin : info.processState.inQueue = true :=
    inQueue_iff.mpr (place_eq_queued.mp hs)
  have hne : info.processState ≠ .executing := by intro he; rw [he] at hs; cases hs
  have hawake : info.processState ≠ .sleeping := by intro he; rw [he] at hs; cases hs
  rw [hin, Bool.true_or, if_pos rfl] at hqueue
  rw [if_neg hawake] at htimer
  have hfields : s'.dispatch hold = (s.setInfo p info.scheduled).dispatch hold := by
    simp [dispatch, setInfo, hheap, hqueue, htimer, htables.nextPtr]
  rw [hfields]
  cases hk : info.pendingKilled with
  | true => simp [standing_scheduled, hne, hk]
  | false => exact dispatch_setInfo_same h (by simp [standing_scheduled, hne, hk, hin])

/-- Any other process goes to the run queue, and out of the timer queue. -/
theorem dispatch_scheduleProcess_of_idle (h : s.heap p = some info)
    (hq : info.processState.place ≠ .queued) (hne : info.processState ≠ .executing)
    (hsched : s.scheduleProcess p = some s') :
    s'.dispatch hold = (((s.dispatch hold).put p { info.standing with
      state := if info.pendingKilled then .killed else .ready
      pendingKilled := false }).unsleep p info.standing).push p := by
  obtain ⟨t, ht, htables, hheap, hqueue, htimer⟩ := scheduleProcess_spec h
  obtain rfl := Option.some.inj (hsched.symm.trans ht)
  have hout : info.processState.inQueue = false := by
    rw [← Bool.not_eq_true, inQueue_iff]
    exact fun hin => hq (place_eq_queued.mpr hin)
  have hexec : (info.processState == .executing) = false := by simpa using hne
  rw [hout, hexec, Bool.or_false, if_neg (by decide)] at hqueue
  have hstand : info.scheduled.standing = { info.standing with
      state := if info.pendingKilled then .killed else .ready
      pendingKilled := false } := by
    rw [standing_scheduled, if_neg hne, hout]
    cases info.pendingKilled <;> rfl
  rw [← hstand, ← dispatch_setInfo]
  apply Dispatch.ext
  · simp [dispatch, setInfo, hheap]
  · simp [dispatch, setInfo, hqueue]
  · simp [dispatch, setInfo, htimer, ProcessInfo.standing]
  · simp [dispatch]
  · simp [dispatch, setInfo, htables.nextPtr]

/-- **Scheduling is at most one move**, but for a process that is completed. -/
theorem scheduleProcess_moves (hold : ℕ → Option Hold) (h : s.heap p = some info)
    (hne : info.processState ≠ .completed) (hsched : s.scheduleProcess p = some s') :
    ReflTransGen (Move may) (s.dispatch hold) (s'.dispatch hold) := by
  have hi := standing_of_heap hold h
  cases hpl : info.processState.place with
  | running =>
    have hs := scheduleProcess_of_executing h (place_eq_running.mp hpl)
    obtain rfl := Option.some.inj (hsched.symm.trans hs)
    exact .refl
  | finishing => exact absurd (place_eq_finishing.mp hpl) hne
  | queued =>
    rw [dispatch_scheduleProcess_of_queued h hpl hsched]
    split
    · exact .single (.killQueued hi hpl)
    · exact .refl
  | parked =>
    have hexec : info.processState ≠ .executing := by intro he; rw [he] at hpl; cases hpl
    rw [dispatch_scheduleProcess_of_idle h (by simp [hpl]) hexec hsched]
    exact .single (.unpark info.pendingKilled hi hpl id)

/-! ### Operations -/

variable {pid : PID} {result : Bool} {now : TimePoint}

theorem killProcess_moves (hold : ℕ → Option Hold) (h : s.killProcess pid = some (result, s')) :
    ReflTransGen (Move may) (s.dispatch hold) (s'.dispatch hold) := by
  rcases killProcess_cases h with ⟨-, -, rfl⟩ | ⟨-, p, info, -, hinfo, hcase⟩
  · exact .refl
  · rcases hcase with ⟨-, rfl⟩ | ⟨hk, hc, hsched⟩
    · exact .refl
    · have hi := standing_of_heap hold hinfo
      have hheap : (s.setInfo p { info with pendingKilled := true }).heap p
          = some { info with pendingKilled := true } := update_self ..
      have hput : ∀ i j : Standing,
          ((s.dispatch hold).put p i).put p j = (s.dispatch hold).put p j := by
        intro i j
        simp [Dispatch.put]
      cases hpl : info.processState.place with
      | running =>
        have hexec := place_eq_running.mp hpl
        have hs := scheduleProcess_of_executing hheap hexec
        obtain rfl := Option.some.inj (hsched.symm.trans hs)
        rw [dispatch_setInfo]
        exact .single (.killExecuting hi hexec)
      | finishing => exact absurd (place_eq_finishing.mp hpl) hc
      | queued =>
        rw [dispatch_scheduleProcess_of_queued hheap hpl hsched, if_pos rfl, dispatch_setInfo, hput]
        exact .single (.killQueued hi hpl)
      | parked =>
        have hexec : info.processState ≠ .executing := by intro he; rw [he] at hpl; cases hpl
        rw [dispatch_scheduleProcess_of_idle hheap (by simp [hpl]) hexec hsched, dispatch_setInfo,
          hput]
        exact .single (Move.unpark true hi hpl fun _ => rfl : Move may (s.dispatch hold) _)

theorem startProcess_moves (hold : ℕ → Option Hold) (h : s.startProcess pid = some (result, s')) :
    ReflTransGen (Move may) (s.dispatch hold) (s'.dispatch hold) := by
  rcases startProcess_cases h with rfl | ⟨p, info, -, hinfo, hs, hsched⟩
  · exact .refl
  · refine scheduleProcess_moves hold hinfo ?_ hsched
    rcases hs with hs | hs <;> rw [hs] <;> decide

/-- The state a process is suspended in decides whether it is a move. -/
theorem suspendProcess_moves (hold : ℕ → Option Hold) (h : s.suspendProcess pid = some (result, s'))
    (hmay : ∀ p info, s.shuttingDown = false → s.allProcesses[pid]? = some p →
      s.heap p = some info → suspendsLater info.processState = false → may info.processState) :
    ReflTransGen (Move may) (s.dispatch hold) (s'.dispatch hold) := by
  rcases suspendProcess_cases h with ⟨-, rfl⟩ | ⟨-, hdown, p, info, hp, hinfo, hcase⟩
  · exact .refl
  · rcases hcase with ⟨-, rfl⟩ | ⟨hnow, rfl⟩
    · have hsame : ({ info with pendingSuspended := true } : ProcessInfo).standing
          = info.standing := rfl
      rw [dispatch_setInfo_same hinfo hsame]
    · rw [dispatch_setInfo]
      have hidle : info.processState.place = .parked ∨ info.processState = .completed := by
        revert hnow
        cases info.processState <;> simp [suspendsLater, place]
      exact .single (.suspend (standing_of_heap hold hinfo) hidle (hmay p info hdown hp hinfo hnow))

/-- Adding a message changes no standing. -/
theorem standing_addMessage (info : ProcessInfo) (message : Option MessagePtr) (rid : RID) :
    (info.addMessage message rid).2.standing = info.standing := by
  unfold ProcessInfo.addMessage
  split
  · rfl
  · split
    · rfl
    · split <;> rfl

theorem sendMessage_moves (hold : ℕ → Option Hold) {rid : RID} {message : Option MessagePtr}
    {outcome : SendOutcome} (h : s.sendMessage pid rid message = some (outcome, s')) :
    ReflTransGen (Move may) (s.dispatch hold) (s'.dispatch hold) := by
  rcases sendMessage_cases h with ⟨-, rfl, -⟩ | ⟨-, -, p, info, -, hinfo, hcan, -, hcase⟩
  · exact .refl
  · have hsame := standing_addMessage info message rid
    rcases hcase with ⟨-, rfl⟩ | ⟨-, hsched⟩
    · rw [dispatch_setInfo_same hinfo hsame]
    · rw [← dispatch_setInfo_same hinfo hsame]
      refine scheduleProcess_moves hold (update_self ..) ?_ hsched
      have hstate : (info.addMessage message rid).2.processState = info.processState :=
        congrArg Standing.state hsame
      rw [hstate]
      intro hdone
      rw [hdone] at hcan
      cases hcan

theorem shutdown_moves (hold : ℕ → Option Hold) (h : s.shutdown = some s') :
    ReflTransGen (Move may) (s.dispatch hold) (s'.dispatch hold) := by
  unfold shutdown at h
  split at h
  · cases h; exact .refl
  · refine foldlM_invariant (I := fun t => ReflTransGen (Move may) (s.dispatch hold)
      (t.dispatch hold)) ?_ _ { s with shuttingDown := true } s' .refl h
    intro t pid t' ht hkill
    rw [Option.map_eq_some_iff] at hkill
    obtain ⟨⟨result, t''⟩, hkill, rfl⟩ := hkill
    exact ht.trans (killProcess_moves hold hkill)

/-! ### The wake-up loop -/

/-- The loop does not get past an expired entry whose process is in the run queue
or executing: scheduling it again leaves the entry where it is. -/
theorem wakeLoop_stuck {w : TimePoint} {rest : MultiMap TimePoint InfoPtr} (hw : w ≤ now) :
    ∀ (fuel : ℕ) (s : ProcessScheduler) (info : ProcessInfo),
      s.processTimerQueue = (w, p) :: rest → s.heap p = some info →
      info.processState.place = .queued ∨ info.processState = .executing →
      s.wakeLoop fuel now = none := by
  intro fuel
  induction fuel with
  | zero => intros; rfl
  | succ fuel ih =>
    intro s info htimer hinfo hs
    rw [wakeLoop, htimer]
    simp only [if_neg (not_lt.mpr hw)]
    obtain ⟨s', hsched, -, hheap, -, htimer'⟩ := scheduleProcess_spec hinfo
    have hawake : info.processState ≠ .sleeping := by
      rintro he
      rw [he] at hs
      rcases hs with hs | hs <;> cases hs
    rw [if_neg hawake, htimer] at htimer'
    rw [hsched, Option.bind_some]
    refine ih s' info.scheduled htimer' (by rw [hheap, update_self]) ?_
    -- it is as it was, or killed
    have hstand := congrArg Standing.state (standing_scheduled info)
    rcases hs with hs | hs
    · left
      have hne : info.processState ≠ .executing := by intro he; rw [he] at hs; cases hs
      have hin := inQueue_iff.mpr (place_eq_queued.mp hs)
      rw [if_neg hne, hin, if_pos rfl] at hstand
      have hstate : info.scheduled.processState
          = (if info.pendingKilled then (⟨.killed, info.wakeupTime, false⟩ : Standing)
            else info.standing).state := hstand
      rw [hstate]
      split
      · rfl
      · exact hs
    · right
      rw [if_pos hs] at hstand
      exact hstand.trans hs

/-- Nor past any expired entry whose process is not sleeping: that process is in
the run queue or executing afterwards, if it was not before. -/
theorem wakeLoop_stale {w : TimePoint} {rest : MultiMap TimePoint InfoPtr} (hw : w ≤ now)
    (htimer : s.processTimerQueue = (w, p) :: rest) (hinfo : s.heap p = some info)
    (hs : info.processState ≠ .sleeping) (fuel : ℕ) : s.wakeLoop fuel now = none := by
  cases fuel with
  | zero => rfl
  | succ fuel =>
    obtain ⟨t, hsched, -, hheap, -, htimer'⟩ := scheduleProcess_spec hinfo
    rw [if_neg hs, htimer] at htimer'
    have hplace : info.scheduled.processState.place = .queued ∨
        info.scheduled.processState = .executing := by
      unfold ProcessInfo.scheduled
      split
      · next he => exact .inr he
      · split
        · exact .inl rfl
        · split
          · next hin =>
            exact .inl (place_eq_queued.mpr (inQueue_iff.mp hin))
          · exact .inl rfl
    rw [wakeLoop, htimer]
    simp only [if_neg (not_lt.mpr hw), hsched, Option.bind_some]
    exact wakeLoop_stuck hw fuel t info.scheduled htimer' (by rw [hheap, update_self])
      hplace

/-- **A loop that ends has only woken sleepers.** -/
theorem wakeLoop_moves (hold : ℕ → Option Hold) :
    ∀ (fuel : ℕ) (s s' : ProcessScheduler), s.wakeLoop fuel now = some s' →
      ReflTransGen (Move may) (s.dispatch hold) (s'.dispatch hold) := by
  intro fuel
  induction fuel with
  | zero => intro s s' h; cases h
  | succ fuel ih =>
    intro s s' h
    have hloop := h
    rw [wakeLoop] at h
    split at h
    · cases h; exact .refl
    · next w p rest htimer =>
      split at h
      · cases h; exact .refl
      · next hw =>
        rw [Option.bind_eq_some_iff] at h
        obtain ⟨t, hsched, hrest⟩ := h
        obtain ⟨info, hinfo⟩ := heap_of_scheduleProcess hsched
        by_cases hs : info.processState = .sleeping
        · refine (scheduleProcess_moves hold hinfo ?_ hsched).trans (ih t s' hrest)
          rw [hs]; decide
        · rw [wakeLoop_stale (not_lt.mp hw) htimer hinfo hs] at hloop
          cases hloop

end ProcessScheduler

/-! ### Threads -/

/-- A thread that has been told to kill a process does nothing else with it. -/
def Phase.Informed : Phase → Prop
  | executing _ true stage _ =>
    stage = .dispatched ∨ stage = .inCall .killed ∨ stage = .returning .finished
  | _ => True

theorem Phase.informed_withCall (call : ServicesCall) (phase : Phase) :
    (phase.withCall call).Informed ↔ phase.Informed := by
  cases phase with
  | executing p isKilled stage _ => cases isKilled <;> rfl
  | _ => rfl

namespace System

/-- The projection. -/
def dispatch (s : System) : Dispatch := s.scheduler.dispatch fun t => (s.threads t).hold

/-- Every thread that has a process to kill does nothing else with it. -/
def Informed (s : System) : Prop := ∀ t, (s.threads t).Informed

variable {s s' : System}

theorem dispatch_withScheduler (s : System) (scheduler : ProcessScheduler) :
    (s.withScheduler scheduler).dispatch = scheduler.dispatch fun t => (s.threads t).hold := rfl

theorem dispatch_setPhase (s : System) (t : ℕ) (phase : Phase) :
    (s.setPhase t phase).dispatch = s.dispatch.take t phase.hold := by
  have hhold : (fun t' => (update s.threads t phase t').hold)
      = update (fun t' => (s.threads t').hold) t phase.hold := by
    funext t'
    by_cases ht : t' = t
    · subst ht; simp
    · simp [ht]
  simp [dispatch, setPhase, ProcessScheduler.dispatch, Dispatch.take, hhold]

variable {t sleepMs : ℕ} {phase : Phase} {info info' : ProcessInfo} {now : TimePoint}

/-- A thread that goes on with what it has is no move. -/
theorem dispatch_setPhase_same (s : System) (hsame : phase.hold = (s.threads t).hold) :
    (s.setPhase t phase).dispatch = s.dispatch := by
  rw [dispatch_setPhase, hsame, Dispatch.take]
  have hself : update s.dispatch.hold t (s.threads t).hold = s.dispatch.hold :=
    update_eq_self t s.dispatch.hold
  rw [hself]

theorem dispatch_goOn (s : System) (scheduler : ProcessScheduler)
    (hsame : phase.hold = (s.threads t).hold) :
    ((s.withScheduler scheduler).setPhase t phase).dispatch
      = scheduler.dispatch fun t => (s.threads t).hold :=
  dispatch_setPhase_same (s.withScheduler scheduler) hsame

theorem Informed.setPhase (h : s.Informed) (hphase : phase.Informed) :
    (s.setPhase t phase).Informed := by
  intro t'
  show (update s.threads t phase t').Informed
  rw [update_apply]
  split
  · exact hphase
  · exact h t'

theorem Informed.withScheduler (h : s.Informed) (scheduler : ProcessScheduler) :
    (s.withScheduler scheduler).Informed := h

theorem Informed.withCall (h : s.Informed) (t : ℕ) (call : ServicesCall)
    (scheduler : ProcessScheduler) :
    ((s.withScheduler scheduler).setPhase t ((s.threads t).withCall call)).Informed :=
  (h.withScheduler scheduler).setPhase ((Phase.informed_withCall call _).mpr (h t))

theorem Informed.nothingToExecute (h : s.Informed) (t : ℕ) (shutdownCaller : Bool) :
    (s.nothingToExecute t shutdownCaller).Informed := by
  refine h.setPhase ?_
  cases shutdownCaller <;> trivial

/-- **Threads stay informed.** -/
theorem Informed.step {a : Action} (h : s.Informed) (hstep : step s a = some s') :
    s'.Informed := by
  cases happens_of_step hstep with
  | refused => exact h
  | adds | added | wakes | pops | takesAll | finishes => exact h.setPhase trivial
  | kills | suspends | starts | sends | shutsDown | jumps => exact h
  | popsNothing | timesOut => exact h.nothingToExecute _ _
  | @dispatches t p info ht hinfo =>
    refine (h.withScheduler _).setPhase ?_
    cases (info.processState == .killed) with
    | true => exact .inl rfl
    | false => trivial
  | handsKilled ht => exact h.setPhase (.inr (.inl rfl))
  | handsPlain ht => exact h.setPhase trivial
  | @handsMessage _ t p isKilled stage call rid message info info' ht hstage hinfo hnext =>
    have hthread := h t
    rw [ht] at hthread
    refine (h.withScheduler _).setPhase ?_
    cases isKilled with
    | false => trivial
    | true =>
      -- a thread that is to kill does not come here
      rcases hstage with ⟨-, hlive⟩ | ⟨status, rfl⟩
      · cases hlive
      · rcases hthread with h | h | h <;> cases h
  | @messagesDone t p isKilled status call ht =>
    have hthread := h t
    rw [ht] at hthread
    refine h.setPhase ?_
    cases isKilled with
    | false => trivial
    | true => rcases hthread with h | h | h <;> cases h
  | @callReturns t p isKilled handing status ht =>
    have hthread := h t
    rw [ht] at hthread
    refine h.setPhase ?_
    cases isKilled with
    | false => trivial
    | true => rcases hthread with h | h | h <;> cases h; exact .inr (.inr rfl)
  | @returns t p isKilled status call now sleepMs scheduler ht hnow hret =>
    refine (h.withScheduler scheduler).setPhase ?_
    cases status <;> trivial
  | storesNot => exact h.withCall _ _ s.scheduler
  | getsRid | stores | notAdded | takes | takesPtr | removed => exact h.withCall _ _ _

/-- The guard for runs in which `suspend_process` takes effect at once only on
processes in a state that `may` allows. -/
def SuspendsOnly (may : ProcessState → Prop) (s : System) (a : Action) : Prop :=
  ∀ pid p info, a = .suspendProcess pid → s.scheduler.shuttingDown = false →
    s.scheduler.allProcesses[pid]? = some p → s.scheduler.heap p = some info →
    ProcessScheduler.suspendsLater info.processState = false → may info.processState

variable {may : ProcessState → Prop}

/-- A process that is rescheduled is about to be scheduled. -/
theorem standing_of_returns_true (h : info.Returns now sleepMs (true, info')) :
    info'.standing = { info.standing with state := .scheduling } := by
  cases h
  rfl

/-- A process that is not rescheduled is not to be killed, and waits. -/
theorem standing_of_returns_false (h : info.Returns now sleepMs (false, info')) :
    info.pendingKilled = false ∧ info'.processState.place = .parked ∧
      info'.standing = { info.standing with
        state := info'.processState
        wakeup := if info'.processState = .sleeping then info'.wakeupTime
          else info.wakeupTime } := by
  cases h with
  | suspend blocked hblocked halive => exact ⟨halive, rfl, rfl⟩
  | sleep wakeup hwakeup halive hempty => exact ⟨halive, rfl, rfl⟩
  | wait halive hempty => exact ⟨halive, rfl, rfl⟩
  | block halive hempty => exact ⟨halive, rfl, rfl⟩

/-- **The end of an execution** is the move that lets go of the process. -/
theorem moves_of_returns {p : InfoPtr} {isKilled : Bool} {status : ProcessStatus}
    {call : ServicesCall} {scheduler : ProcessScheduler} (hs : s.Informed)
    (ht : s.threads t = .executing p isKilled (.returning status) call)
    (h : s.scheduler.returnedFromExecute p status now sleepMs = some scheduler) :
    ReflTransGen (Move may) s.dispatch
      (((s.withScheduler scheduler).setPhase t (afterReturn p status)).dispatch) := by
  have hhold : s.dispatch.hold t = some (.executing p isKilled) := congrArg Phase.hold ht
  rw [dispatch_setPhase, dispatch_withScheduler]
  obtain ⟨info, hinfo, ⟨hdone, htables, hheap, hqueue, htimer⟩ | ⟨hfinished, herror, hcase⟩⟩ :=
    ProcessScheduler.returnedFromExecute_cases h
  · have hi : s.dispatch.standing p = some info.standing :=
      ProcessScheduler.standing_of_heap _ hinfo
    have hphase : (afterReturn p status).hold = some (.cleaning p) := by
      rcases hdone with rfl | rfl <;> rfl
    rw [hphase, ProcessScheduler.dispatch_of_update _ hheap hqueue htimer htables.nextPtr]
    exact .single (Move.complete hhold hi)
  · have hi : s.dispatch.standing p = some info.standing :=
      ProcessScheduler.standing_of_heap _ hinfo
    have hphase : (afterReturn p status).hold = none := by
      cases status with
      | finished => exact absurd rfl hfinished
      | error => exact absurd rfl herror
      | _ => rfl
    -- who has been told to kill the process finishes it
    have hlive : isKilled = false := by
      cases isKilled with
      | false => rfl
      | true =>
        have hthread := hs t
        rw [ht] at hthread
        rcases hthread with h | h | h <;> cases h
        exact absurd rfl hfinished
    subst hlive
    rw [hphase]
    obtain ⟨info', ⟨hreturns, hsched⟩ | ⟨hreturns, rfl⟩⟩ := hcase
    · have hstand := standing_of_returns_true hreturns
      have hstate : info'.processState = .scheduling := congrArg Standing.state hstand
      have hkill : info'.pendingKilled = info.pendingKilled :=
        congrArg Standing.pendingKilled hstand
      rw [ProcessScheduler.dispatch_scheduleProcess_of_idle (update_self ..)
        (by rw [hstate]; decide) (by rw [hstate]; decide) hsched,
        ProcessScheduler.dispatch_setInfo, hstand, hkill]
      have hmove : Move may s.dispatch _ := .requeue hhold hi
      have hput : ∀ i j : Standing, (s.dispatch.put p i).put p j = s.dispatch.put p j := by
        intro i j
        simp [Dispatch.put]
      refine .single ?_
      show Move may s.dispatch ((((s.dispatch.put p _).put p _).push p).take t none)
      rw [hput]
      exact hmove
    · obtain ⟨halive, hparked, hstand⟩ := standing_of_returns_false hreturns
      by_cases hsleep : info'.processState = .sleeping
      · rw [if_pos hsleep]
        have hmove : Move may s.dispatch _ := .sleep info'.wakeupTime hhold hi halive
        have hput : (s.scheduler.setInfo p info').dispatch (fun t => (s.threads t).hold)
            = s.dispatch.put p info'.standing := ProcessScheduler.dispatch_setInfo _ _ _
        rw [hstand, hsleep, if_pos rfl] at hput
        refine .single ?_
        show Move may s.dispatch { ((s.scheduler.setInfo p info').dispatch _).take t none with
          timer := MultiMap.insert info'.wakeupTime p s.scheduler.processTimerQueue }
        rw [hput]
        exact hmove
      · rw [if_neg hsleep, ProcessScheduler.dispatch_setInfo, hstand, if_neg hsleep]
        exact .single (Move.park hhold hi halive hparked hsleep)

/-- A step that writes a process back with the standing it had, on a thread that
goes on with what it has. -/
theorem dispatch_setInfo_setPhase {p : InfoPtr} (hinfo : s.scheduler.heap p = some info)
    (hsame : info'.standing = info.standing) (hphase : phase.hold = (s.threads t).hold) :
    ((s.withScheduler (s.scheduler.setInfo p info')).setPhase t phase).dispatch = s.dispatch := by
  rw [dispatch_goOn _ _ hphase, ProcessScheduler.dispatch_setInfo_same hinfo hsame]
  rfl

theorem dispatch_releaseRid (s : System) (t : ℕ) (pid : PID) (rid : RID) (call : ServicesCall) :
    ((s.withScheduler (s.scheduler.releaseRid pid rid)).setPhase t
      ((s.threads t).withCall call)).dispatch = s.dispatch := by
  rw [dispatch_goOn _ _ (Phase.hold_withCall call _), ProcessScheduler.releaseRid_eq]
  rfl

theorem dispatch_nothingToExecute (s : System) (shutdownCaller : Bool)
    (ht : (s.threads t).hold = none) :
    (s.nothingToExecute t shutdownCaller).dispatch = s.dispatch := by
  refine dispatch_setPhase_same _ ?_
  rw [ht]
  cases shutdownCaller <;> rfl

/-- A RID that is given out changes the table of RIDs only. -/
theorem getNextRid_eq {scheduler scheduler' : ProcessScheduler} {pid : PID} {rid : RID}
    (h : scheduler.getNextRid pid = some (rid, scheduler')) : ∃ nextRid ridToPid,
    scheduler' = { scheduler with nextRid := nextRid, ridToPid := ridToPid } := by
  unfold ProcessScheduler.getNextRid at h
  split at h
  · cases h; exact ⟨_, _, rfl⟩
  · split at h
    · cases h; exact ⟨_, _, rfl⟩
    · rw [Option.map_eq_some_iff] at h
      obtain ⟨found, -, heq⟩ := h
      cases heq
      exact ⟨_, _, rfl⟩

/-- **Every step is a sequence of moves.** -/
theorem moves_of_step {a : Action} (hs : s.Informed) (hok : SuspendsOnly may s a)
    (h : step s a = some s') : ReflTransGen (Move may) s.dispatch s'.dispatch := by
  cases happens_of_step h with
  | refused => exact .refl
  | @adds t executableId ownerId process pid p scheduler ht hadd =>
    obtain ⟨process', nextPid, -, -, -, -, rfl, rfl⟩ := ProcessScheduler.addProcess_cases hadd
    rw [dispatch_setPhase_same _ (by show none = (s.threads t).hold; rw [ht]; rfl)]
    have hput : (s.scheduler.setInfo s.scheduler.nextPtr
        (.new pid process' executableId ownerId)).dispatch (fun t => (s.threads t).hold)
        = s.dispatch.put s.dispatch.next ⟨.created, 0, false⟩ :=
      ProcessScheduler.dispatch_setInfo _ _ _
    have hmove : Move may s.dispatch _ := .create
    rw [← hput] at hmove
    exact .single hmove
  | @added t p event ht =>
    rw [dispatch_setPhase_same _ (by show none = (s.threads t).hold; rw [ht]; rfl)]
    exact .refl
  | kills hop => exact ProcessScheduler.killProcess_moves _ hop
  | @suspends pid result scheduler hop =>
    exact ProcessScheduler.suspendProcess_moves _ hop
      fun p info hdown hp hinfo hnow => hok pid p info rfl hdown hp hinfo hnow
  | starts hop => exact ProcessScheduler.startProcess_moves _ hop
  | sends hop => exact ProcessScheduler.sendMessage_moves _ hop
  | shutsDown hop => exact ProcessScheduler.shutdown_moves _ hop
  | jumps backwards =>
    rw [dispatch_withScheduler]
    cases backwards <;> exact .refl
  | @wakes t now fuel scheduler ht hnow hloop =>
    show ReflTransGen (Move may) s.dispatch ((s.withScheduler scheduler).setPhase t _).dispatch
    rw [dispatch_setPhase_same _ (by show none = (s.threads t).hold; rw [ht]; rfl)]
    exact ProcessScheduler.wakeLoop_moves _ fuel _ _ hloop
  | @popsNothing t shutdownCaller ht hq =>
    rw [dispatch_nothingToExecute _ _ (by show (s.threads t).hold = none; rw [ht]; rfl)]
    exact .refl
  | @pops t shutdownCaller p rest ht hq =>
    have hfree : s.dispatch.hold t = none := by
      show (s.threads t).hold = none
      rw [ht]; rfl
    have hmove : Move may s.dispatch _ := .pop hq hfree
    rw [dispatch_setPhase]
    exact .single hmove
  | @timesOut t shutdownCaller ht =>
    rw [dispatch_nothingToExecute _ _ (by rw [ht]; rfl)]
  | @dispatches t p info ht hinfo =>
    have hhold : s.dispatch.hold t = some (.popped p) := congrArg Phase.hold ht
    have hi : s.dispatch.standing p = some info.standing :=
      ProcessScheduler.standing_of_heap _ hinfo
    have hmove : Move may s.dispatch _ := .dispatch hhold hi
    rw [dispatch_setPhase, dispatch_withScheduler, ProcessScheduler.dispatch_setInfo]
    exact .single hmove
  | handsKilled ht | handsPlain ht | messagesDone ht | callReturns status ht =>
    rw [dispatch_setPhase_same _ (by rw [ht]; rfl)]
  | @handsMessage _ t p isKilled stage call rid message info info' ht hstage hinfo hnext =>
    have hsame : info'.standing = info.standing := by
      unfold ProcessInfo.getNextMessage at hnext
      split at hnext
      · cases hnext
      · cases hnext; rfl
    rw [dispatch_setInfo_setPhase hinfo hsame (by rw [ht]; rfl)]
  | @returns t p isKilled status call now sleepMs scheduler ht hnow hret =>
    exact moves_of_returns hs ht hret
  | @takesAll t p rids scheduler ht htake =>
    unfold ProcessScheduler.takeResources at htake
    split at htake
    · cases htake
    · next info hinfo =>
      cases htake
      obtain ⟨r, d, b, htaken⟩ := ProcessScheduler.takeResources_eq info.getResourceIds info
      rw [dispatch_setInfo_setPhase hinfo (by rw [htaken]; rfl) (by rw [ht]; rfl)]
  | @finishes t p rids scheduler ht hfin =>
    obtain ⟨info, ridToPid, hinfo, rfl, -⟩ := ProcessScheduler.finishCleanup_cases hfin
    have hhold : s.dispatch.hold t = some (.cleaning p) := congrArg Phase.hold ht
    have hmove : Move may s.dispatch _ := .finish hhold
    have hmap : (fun q => (update s.scheduler.heap p none q).map ProcessInfo.standing)
        = update s.dispatch.standing p none := by
      funext q
      by_cases hq : q = p
      · subst hq; simp
      · simp [hq, dispatch, ProcessScheduler.dispatch]
    rw [← hmap] at hmove
    rw [dispatch_setPhase]
    exact .single hmove
  | @getsRid t p info resource blocking rid scheduler ht hinfo hrid hne =>
    obtain ⟨nextRid, ridToPid, rfl⟩ := getNextRid_eq hrid
    rw [dispatch_goOn _ _ (Phase.hold_withCall _ _)]
    exact .refl
  | @stores t p pid rid resource blocking info ht hinfo hne =>
    have hsame : (if blocking then info.addBlockingResource rid (some resource)
        else info.addResource rid (some resource)).2.standing = info.standing := by
      cases blocking <;>
        simp [ProcessInfo.addBlockingResource, ProcessInfo.addResource, hne, ProcessInfo.standing]
    rw [dispatch_setInfo_setPhase hinfo hsame (Phase.hold_withCall _ _)]
  | storesNot ht => rw [dispatch_setPhase_same _ (Phase.hold_withCall _ _)]
  | notAdded ht | removed ht => rw [dispatch_releaseRid]
  | @takes t p rid resource info info' ht hinfo hremove =>
    have hsame : info'.standing = info.standing := by
      obtain ⟨r, d, b, heq⟩ := ProcessScheduler.removeResource_eq info rid
      rw [hremove] at heq
      rw [show info' = _ from heq]; rfl
    rw [dispatch_setInfo_setPhase hinfo hsame (Phase.hold_withCall _ _)]
  | @takesPtr t p rid resource info info' ht hinfo hremove hne =>
    have hsame : info'.standing = info.standing := by
      unfold ProcessInfo.removeResourcePtr at hremove
      split at hremove <;> cases hremove <;> rfl
    rw [dispatch_setInfo_setPhase hinfo hsame (Phase.hold_withCall _ _)]

end System

end Mutgos.Executor
