import Mutgos.Executor.ProcessTables

/-!
# Message delivery

What `send_message` promises: it owns the message, answers true if the process
and the resource were found and the message was queued, and false, with the
message deleted and nothing changed, if not.  A message sent in the name of a
resource that the process does not own breaks the promise: `add_message` notices
it and answers true all the same, so the message is neither queued nor deleted,
and the process is scheduled.

## Main results

* `sendMessage_contract_iff` — **in every reachable state the call keeps the
  promise if and only if it is not one of those.**
-/

namespace Mutgos.Executor

/-- What a message can do to a process. -/
def ProcessInfo.reception (info : ProcessInfo) :
    List (RID × MessagePtr) × Finset RID × ProcessState :=
  (info.waitingMessages, info.blockedResources, info.processState)

namespace ProcessScheduler

/-- The message has been appended to the queue of the process. -/
def Appended (s s' : ProcessScheduler) (pid : PID) (rid : RID) (message : Option MessagePtr) :
    Prop :=
  ∃ message' p info info', message = some message' ∧ s.allProcesses[pid]? = some p ∧
    s.heap p = some info ∧ s'.heap p = some info' ∧
    info'.waitingMessages = info.waitingMessages ++ [(rid, message')]

/-- The promise of `send_message`. -/
structure SendContract (s s' : ProcessScheduler) (pid : PID) (rid : RID)
    (message : Option MessagePtr) (outcome : SendOutcome) : Prop where
  queued : outcome.result = true ↔ Appended s s' pid rid message
  unchanged : outcome.result = false → ∀ p,
    (s'.heap p).map ProcessInfo.reception = (s.heap p).map ProcessInfo.reception
  deleted : outcome.result = false → message ≠ none → outcome.deleted = true
  kept : outcome.result = true → outcome.deleted = false
  unknown : ∀ p info, s.allProcesses[pid]? = some p → s.heap p = some info → message ≠ none →
    rid ≠ 0 → rid ∉ info.resources → outcome = ⟨false, true⟩ ∧
      s'.processRunQueue = s.processRunQueue

/-- A message to a process that takes messages, in the name of a resource that it
does not own. -/
def FromUnknownResource (s : ProcessScheduler) (pid : PID) (rid : RID)
    (message : Option MessagePtr) : Prop :=
  message ≠ none ∧ pid ≠ 0 ∧ rid ≠ 0 ∧ ∃ p info, s.allProcesses[pid]? = some p ∧
    s.heap p = some info ∧ info.processState.canReceiveMessages s.shuttingDown = true ∧
    rid ∉ info.resources

variable {s s' : ProcessScheduler} {pid : PID} {rid : RID} {message : Option MessagePtr}
  {outcome : SendOutcome}

/-- Where nothing is refused to exist, the call comes to an end. -/
theorem sendMessage_isSome (h : s.TablesAgree) (pid : PID) (rid : RID)
    (message : Option MessagePtr) :
    ∃ outcome s', s.sendMessage pid rid message = some (outcome, s') := by
  unfold sendMessage
  split
  · exact ⟨_, _, rfl⟩
  · split
    · exact ⟨_, _, rfl⟩
    · cases hp : s.allProcesses[pid]? with
      | none => exact ⟨_, _, rfl⟩
      | some p =>
        obtain ⟨info, hinfo, -⟩ := (h.pid pid p).mp hp
        simp only [hinfo]
        have hself : (s.setInfo p (info.addMessage message rid).2).heap p
            = some (info.addMessage message rid).2 := Function.update_self ..
        split
        · split
          · obtain ⟨t, hsched, -⟩ := scheduleProcess_spec hself
            exact ⟨_, t, by rw [hsched]; rfl⟩
          · exact ⟨_, _, rfl⟩
        · exact ⟨_, _, rfl⟩

/-- Nothing is appended where nothing happens. -/
theorem not_appended_self : ¬ Appended s s pid rid message := by
  rintro ⟨message', p, info, info', -, -, hinfo, hinfo', hqueue⟩
  obtain rfl := Option.some.inj (hinfo.symm.trans hinfo')
  simp at hqueue

/-- A refusal keeps the promise. -/
theorem sendContract_refused : SendContract s s pid rid message ⟨false, message.isSome⟩ where
  queued := ⟨nofun, fun h => absurd h not_appended_self⟩
  unchanged := fun _ _ => rfl
  deleted := fun _ hm => Option.isSome_iff_ne_none.mpr hm
  kept := nofun
  unknown := by
    intro p info hp hinfo hm hrid howned
    rw [Option.isSome_iff_ne_none.mpr hm]
    exact ⟨rfl, rfl⟩

theorem waitingMessages_scheduled (info : ProcessInfo) :
    info.scheduled.waitingMessages = info.waitingMessages := by
  rw [ProcessInfo.scheduled_eq]

/-- The queue of the receiver after the call: what adding the message made of it. -/
theorem waitingMessages_of_send {p : InfoPtr} {info : ProcessInfo}
    (hcase : s' = s.setInfo p info ∨ (s.setInfo p info).scheduleProcess p = some s') :
    ∃ info', s'.heap p = some info' ∧ info'.waitingMessages = info.waitingMessages := by
  have hself : (s.setInfo p info).heap p = some info := Function.update_self ..
  rcases hcase with rfl | hsched
  · exact ⟨info, hself, rfl⟩
  · obtain ⟨t, ht, -, hheap, -⟩ := scheduleProcess_spec hself
    obtain rfl := Option.some.inj (hsched.symm.trans ht)
    exact ⟨info.scheduled, by rw [hheap, Function.update_self], waitingMessages_scheduled info⟩

/-- **The promise of `send_message` is kept exactly by the calls** that do not come
from a resource the receiver does not own. -/
theorem sendContract_iff (h : s.sendMessage pid rid message = some (outcome, s')) :
    SendContract s s' pid rid message outcome ↔ ¬ FromUnknownResource s pid rid message := by
  rcases sendMessage_cases h with
    ⟨rfl, rfl, hwhy⟩ | ⟨hm, hpid, p, info, hp, hinfo, hcan, hout, hcase⟩
  · refine iff_of_true sendContract_refused ?_
    rintro ⟨hm, hpid, -, p, info, hp, hinfo, hcan, -⟩
    rcases hwhy with hnone | hzero | hunknown | ⟨q, info', hq, hinfo', hcannot⟩
    · exact hm hnone
    · exact hpid hzero
    · rw [hp] at hunknown; cases hunknown
    · obtain rfl := Option.some.inj (hp.symm.trans hq)
      obtain rfl := Option.some.inj (hinfo.symm.trans hinfo')
      rw [hcan] at hcannot
      cases hcannot
  · obtain ⟨message', rfl⟩ := Option.ne_none_iff_exists'.mp hm
    have hset : s' = s.setInfo p (info.addMessage (some message') rid).2 ∨
        (s.setInfo p (info.addMessage (some message') rid).2).scheduleProcess p = some s' :=
      hcase.imp And.right And.right
    obtain ⟨info', hinfo', hqueue⟩ := waitingMessages_of_send hset
    by_cases hknown : rid = 0 ∨ rid ∈ info.resources
    · -- the message is queued, and the answer is true
      have hadd : (info.addMessage (some message') rid).1 = true ∧
          (info.addMessage (some message') rid).2.waitingMessages
            = info.waitingMessages ++ [(rid, message')] := by
        unfold ProcessInfo.addMessage
        simp only
        split
        · exact ⟨rfl, rfl⟩
        · next hrid => rw [if_pos (hknown.resolve_left hrid)]; exact ⟨rfl, rfl⟩
      rw [hadd.1] at hout
      subst hout
      rw [hadd.2] at hqueue
      refine iff_of_true ?_ ?_
      · exact ⟨⟨fun _ => ⟨message', p, info, info', rfl, hp, hinfo, hinfo', hqueue⟩, fun _ => rfl⟩,
          nofun, nofun, fun _ => rfl, by
            intro q info'' hq hinfo'' _ hrid howned
            obtain rfl := Option.some.inj (hp.symm.trans hq)
            obtain rfl := Option.some.inj (hinfo.symm.trans hinfo'')
            exact absurd hknown (not_or.mpr ⟨hrid, howned⟩)⟩
      · rintro ⟨-, -, hrid, q, info'', hq, hinfo'', -, howned⟩
        obtain rfl := Option.some.inj (hp.symm.trans hq)
        obtain rfl := Option.some.inj (hinfo.symm.trans hinfo'')
        exact absurd hknown (not_or.mpr ⟨hrid, howned⟩)
    · -- the message is not queued, and the answer is true
      obtain ⟨hrid, howned⟩ := not_or.mp hknown
      have hadd : info.addMessage (some message') rid = (true, info) := by
        simp [ProcessInfo.addMessage, hrid, howned]
      rw [hadd] at hout
      subst hout
      refine iff_of_false ?_ (not_not_intro ⟨hm, hpid, hrid, p, info, hp, hinfo, hcan, howned⟩)
      intro hcontract
      cases (hcontract.unknown p info hp hinfo hm hrid howned).1

end ProcessScheduler

/-- **In every reachable state `send_message` keeps its promise if and only if** the
message does not come from a resource that the receiver does not own. -/
theorem sendMessage_contract_iff {s : System} (h : s.Reaches) (pid : PID) (rid : RID)
    (message : Option MessagePtr) : ∃ outcome scheduler,
      s.scheduler.sendMessage pid rid message = some (outcome, scheduler) ∧
      (ProcessScheduler.SendContract s.scheduler scheduler pid rid message outcome ↔
        ¬ ProcessScheduler.FromUnknownResource s.scheduler pid rid message) := by
  obtain ⟨outcome, scheduler, hsend⟩ := ProcessScheduler.sendMessage_isSome
    (System.tablesAgree_of_reachable h) pid rid message
  exact ⟨outcome, scheduler, hsend, ProcessScheduler.sendContract_iff hsend⟩

/-- A process that waits for a message. -/
def waitsForMessage : List Action :=
  [.addProcess 0 ⟨1, 5⟩ ⟨1, 7⟩ (some 100), .processAdded 0, .startProcess 1,
    .getNextExecute 0 0 1, .pop 0, .dispatch 0, .hand 0, .processReturns 0 .waitMessage,
    .returnedFromExecute 0 0 0]

theorem sendMessage_contract_waiting : ∃ s outcome scheduler,
    run System.step System.initial waitsForMessage = some s ∧
    s.scheduler.sendMessage 1 0 (some 42) = some (outcome, scheduler) ∧
    (ProcessScheduler.SendContract s.scheduler scheduler 1 0 (some 42) outcome ↔
      ¬ ProcessScheduler.FromUnknownResource s.scheduler 1 0 (some 42)) := by
  have hrun : (run System.step System.initial waitsForMessage).isSome = true := by decide +kernel
  obtain ⟨s, hs⟩ := Option.isSome_iff_exists.mp hrun
  obtain ⟨outcome, scheduler, hsend⟩ :=
    sendMessage_contract_iff (System.reaches_of_run hs) 1 0 (some 42)
  exact ⟨s, outcome, scheduler, hs, hsend⟩

/-- A message in the name of resource 9, which the process does not own: the answer
is true and the message is not deleted, but it is in no queue, and the process is
in the run queue. -/
theorem sendMessage_lost : ∃ s outcome scheduler, System.Reaches s ∧
    s.scheduler.sendMessage 1 9 (some 42) = some (outcome, scheduler) ∧
    outcome = ⟨true, false⟩ ∧
    (scheduler.heap 0).map ProcessInfo.waitingMessages = some [] ∧
    s.scheduler.processRunQueue = [] ∧ scheduler.processRunQueue = [0] ∧
    ¬ ProcessScheduler.SendContract s.scheduler scheduler 1 9 (some 42) outcome := by
  have hrun : (run System.step System.initial waitsForMessage).bind (fun s =>
      (s.scheduler.sendMessage 1 9 (some 42)).map fun r =>
        (r.1, s.scheduler.processRunQueue, r.2.processRunQueue))
      = some (⟨true, false⟩, [], [0]) := by decide +kernel
  have hlost : (run System.step System.initial waitsForMessage).bind (fun s =>
      (s.scheduler.sendMessage 1 9 (some 42)).map fun r =>
        (s.scheduler.allProcesses[1]?, (r.2.heap 0).map ProcessInfo.waitingMessages))
      = some (some 0, some []) := by decide +kernel
  obtain ⟨s, hs, hrun⟩ := Option.bind_eq_some_iff.mp hrun
  obtain ⟨⟨outcome, scheduler⟩, hsend, heq⟩ := Option.map_eq_some_iff.mp hrun
  obtain ⟨rfl, hbefore, hafter⟩ : _ ∧ _ ∧ _ := by simpa only [Prod.mk.injEq] using heq
  rw [hs, Option.bind_some, hsend, Option.map_some, Option.some.injEq, Prod.mk.injEq] at hlost
  obtain ⟨hp, hmessages⟩ := hlost
  refine ⟨s, _, scheduler, System.reaches_of_run hs, hsend, rfl, hmessages, hbefore, hafter, ?_⟩
  intro hcontract
  obtain ⟨message', p, info, info', -, hp', -, hinfo', hqueue⟩ := hcontract.queued.mp rfl
  obtain rfl := Option.some.inj (hp.symm.trans hp')
  rw [hinfo', Option.map_some, Option.some.injEq, hqueue] at hmessages
  simp at hmessages

end Mutgos.Executor
