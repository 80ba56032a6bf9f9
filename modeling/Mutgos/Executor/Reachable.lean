import Mutgos.Executor.DispatchRefinement

/-!
# Reachable states

The invariants of `Mutgos.Executor.Dispatch` along runs of the scheduler and its
threads.

## Main results

* `System.informed_of_reachable`, `System.exclusive_of_reachable`,
  `System.timerExact_of_reachable` — **the invariants hold in every state such a
  run leads to.**
-/

namespace Mutgos.Executor

open Relation

/-- Not completed. -/
def unfinished (state : ProcessState) : Prop := state ≠ .completed

namespace System

/-- Reachable, whatever is called. -/
def Reaches (s : System) : Prop := Reachable step (fun _ _ => True) initial s

/-- Reachable by a run that suspends at once only what `may` allows. -/
def ReachesBy (may : ProcessState → Prop) (s : System) : Prop :=
  Reachable step (SuspendsOnly may) initial s

variable {may : ProcessState → Prop} {s s' : System} {a : Action}

theorem reaches_of_run {as : List Action} (h : run step initial as = some s) : s.Reaches :=
  .steps .init (steps_of_run h fun _ _ _ => trivial)

/-- Whether a label is a call of `suspend_process`. -/
def isSuspend : Action → Bool
  | .suspendProcess _ => true
  | _ => false

/-- Any other label is always allowed. -/
theorem suspendsOnly_of_not_isSuspend (may : ProcessState → Prop) (s : System) {a : Action}
    (ha : isSuspend a = false) : SuspendsOnly may s a := by
  rintro pid _ _ rfl
  cases ha

/-- A run without calls of `suspend_process` keeps to any discipline. -/
theorem reachesBy_of_run {as : List Action} (h : run step initial as = some s)
    (has : ∀ a ∈ as, isSuspend a = false) : s.ReachesBy may :=
  .steps .init (steps_of_run h fun s a ha => suspendsOnly_of_not_isSuspend may s (has a ha))

/-! ### Invariants -/

theorem place_of_heap {p : InfoPtr} {info : ProcessInfo} (h : s.scheduler.heap p = some info) :
    s.dispatch.place p = some info.processState.place :=
  Dispatch.place_of_standing (ProcessScheduler.standing_of_heap _ h)

theorem place_of_heap_none {p : InfoPtr} (h : s.scheduler.heap p = none) :
    s.dispatch.place p = none := by
  show ((s.scheduler.heap p).map _).map _ = none
  rw [h]
  rfl

theorem informed_initial : initial.Informed := fun _ => trivial

theorem exclusive_initial : initial.dispatch.Exclusive :=
  ⟨Custody.empty, fun _ _ => rfl⟩

theorem timerExact_initial : initial.dispatch.TimerExact where
  sorted := List.Pairwise.nil
  nodup := List.nodup_nil
  mem_iff := by
    intro w p
    constructor
    · intro h; cases h
    · rintro ⟨i, hi, -⟩; cases hi

/-- What a guarded step keeps, if informed threads make it moves and moves keep
it. -/
theorem invariant_of_moves {I : Dispatch → Prop} (hI : ∀ c c', I c → Move may c c' → I c')
    (hs : s.Informed) (hi : I s.dispatch) (hok : SuspendsOnly may s a)
    (h : step s a = some s') : I s'.dispatch := by
  have hrun : ∀ c', ReflTransGen (Move may) s.dispatch c' → I c' := by
    intro c' hmoves
    induction hmoves with
    | refl => exact hi
    | tail _ hmove ih => exact hI _ _ ih hmove
  exact hrun _ (moves_of_step hs hok h)

theorem informed_of_reachable (h : s.ReachesBy may) : s.Informed :=
  h.invariant informed_initial fun _ _ _ hs _ hstep => hs.step hstep

/-- **Processes are in custody** in every run in which no completed process is
suspended. -/
theorem exclusive_of_reachable (h : s.ReachesBy may) (hmay : ¬ may .completed) :
    s.dispatch.Exclusive := by
  have hboth : s.Informed ∧ s.dispatch.Exclusive := by
    refine h.invariant (I := fun s => s.Informed ∧ s.dispatch.Exclusive)
      ⟨informed_initial, exclusive_initial⟩ ?_
    rintro s a s' ⟨hs, he⟩ hok hstep
    exact ⟨hs.step hstep, invariant_of_moves (fun c c' hc hm => hm.exclusive hc hmay) hs he hok
      hstep⟩
  exact hboth.2

/-- **The timer queue is exact** in every run in which no sleeping or completed
process is suspended. -/
theorem timerExact_of_reachable (h : s.ReachesBy may) (hmay : ¬ may .completed)
    (hsleep : ¬ may .sleeping) : s.dispatch.TimerExact := by
  have hall : s.Informed ∧ s.dispatch.Exclusive ∧ s.dispatch.TimerExact := by
    refine h.invariant (I := fun s => s.Informed ∧ s.dispatch.Exclusive ∧ s.dispatch.TimerExact)
      ⟨informed_initial, exclusive_initial, timerExact_initial⟩ ?_
    rintro s a s' ⟨hs, hi⟩ hok hstep
    refine ⟨hs.step hstep, invariant_of_moves (I := fun c => c.Exclusive ∧ c.TimerExact) ?_ hs hi
      hok hstep⟩
    rintro c c' ⟨he, ht⟩ hm
    exact ⟨hm.exclusive he hmay, hm.timerExact ht he hsleep⟩
  exact hall.2.2

end System

end Mutgos.Executor
