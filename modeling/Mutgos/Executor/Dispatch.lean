import Mutgos.Executor.ProcessScheduler
import Mutgos.Lib.Custody

/-!
# Dispatching

What the scheduler and the executor threads do to a process, without the tables,
the messages, the resources and the calls in progress: a process changes its
state, enters and leaves the two queues, and comes into the hands of threads.

## Main results

* `Move.exclusive` — **moves keep the processes in custody**, if none is
  suspended when it is completed.
* `Move.timerExact` — **moves keep the timer queue exact**, if besides none is
  suspended when it is sleeping.
* `Move.killKept`, `Move.unkilled` — **a killed process stays killed**, and no
  thread begins to execute it as a live one.
-/

namespace Mutgos.Executor

open List

/-- What the scheduler's decisions about a process rest on. -/
structure Standing where
  state : ProcessState
  wakeup : TimePoint
  pendingKilled : Bool

/-- What a thread has a process for. -/
inductive Hold
  | popped (p : InfoPtr)
  | executing (p : InfoPtr) (isKilled : Bool)
  | cleaning (p : InfoPtr)

/-- A hold as a grip on a task. -/
def Hold.grip : Hold → InfoPtr × Place
  | popped p => (p, .queued)
  | executing p _ => (p, .running)
  | cleaning p => (p, .finishing)

/-- Where a process in a state is. -/
def ProcessState.place : ProcessState → Place
  | ready | killed => .queued
  | executing => .running
  | completed => .finishing
  | _ => .parked

theorem ProcessState.place_eq_queued {state : ProcessState} :
    state.place = .queued ↔ state = .ready ∨ state = .killed := by
  cases state <;> simp [place]

theorem ProcessState.place_eq_running {state : ProcessState} :
    state.place = .running ↔ state = .executing := by
  cases state <;> simp [place]

theorem ProcessState.place_eq_finishing {state : ProcessState} :
    state.place = .finishing ↔ state = .completed := by
  cases state <;> simp [place]

/-- All standings, both queues and all holds. -/
@[ext]
structure Dispatch where
  standing : InfoPtr → Option Standing
  queue : List InfoPtr
  timer : MultiMap TimePoint InfoPtr
  hold : ℕ → Option Hold
  next : InfoPtr

namespace Dispatch

/-- Where the processes are. -/
def place (c : Dispatch) (p : InfoPtr) : Option Place :=
  (c.standing p).map fun i => i.state.place

/-- What the threads grip. -/
def grip (c : Dispatch) (t : ℕ) : Option (InfoPtr × Place) := (c.hold t).map Hold.grip

/-- A process gets a standing. -/
def put (c : Dispatch) (p : InfoPtr) (i : Standing) : Dispatch :=
  { c with standing := Function.update c.standing p (some i) }

/-- A thread gets a hold, or loses it. -/
def take (c : Dispatch) (t : ℕ) (h : Option Hold) : Dispatch :=
  { c with hold := Function.update c.hold t h }

/-- A process goes to the end of the run queue. -/
def push (c : Dispatch) (p : InfoPtr) : Dispatch := { c with queue := c.queue ++ [p] }

/-- A sleeping process leaves the timer queue. -/
def unsleep (c : Dispatch) (p : InfoPtr) (i : Standing) : Dispatch :=
  if i.state = .sleeping then { c with timer := eraseTimer i.wakeup p c.timer } else c

/-! ### Frames -/

section Frames

variable (c : Dispatch) (p : InfoPtr) (i : Standing) (t : ℕ) (h : Option Hold)

@[simp] theorem put_standing : (c.put p i).standing = Function.update c.standing p (some i) := rfl
@[simp] theorem put_queue : (c.put p i).queue = c.queue := rfl
@[simp] theorem put_timer : (c.put p i).timer = c.timer := rfl
@[simp] theorem put_hold : (c.put p i).hold = c.hold := rfl
@[simp] theorem put_next : (c.put p i).next = c.next := rfl
@[simp] theorem take_standing : (c.take t h).standing = c.standing := rfl
@[simp] theorem take_queue : (c.take t h).queue = c.queue := rfl
@[simp] theorem take_timer : (c.take t h).timer = c.timer := rfl
@[simp] theorem take_hold : (c.take t h).hold = Function.update c.hold t h := rfl
@[simp] theorem take_next : (c.take t h).next = c.next := rfl
@[simp] theorem push_standing : (c.push p).standing = c.standing := rfl
@[simp] theorem push_queue : (c.push p).queue = c.queue ++ [p] := rfl
@[simp] theorem push_timer : (c.push p).timer = c.timer := rfl
@[simp] theorem push_hold : (c.push p).hold = c.hold := rfl
@[simp] theorem push_next : (c.push p).next = c.next := rfl

@[simp] theorem unsleep_standing : (c.unsleep p i).standing = c.standing := by
  unfold unsleep; split <;> rfl
@[simp] theorem unsleep_queue : (c.unsleep p i).queue = c.queue := by
  unfold unsleep; split <;> rfl
@[simp] theorem unsleep_timer : (c.unsleep p i).timer =
    if i.state = .sleeping then eraseTimer i.wakeup p c.timer else c.timer := by
  unfold unsleep; split <;> rfl
@[simp] theorem unsleep_hold : (c.unsleep p i).hold = c.hold := by
  unfold unsleep; split <;> rfl
@[simp] theorem unsleep_next : (c.unsleep p i).next = c.next := by
  unfold unsleep; split <;> rfl

@[simp] theorem put_place :
    (c.put p i).place = Function.update c.place p (some i.state.place) := by
  funext q
  by_cases hq : q = p
  · subst hq; simp [place]
  · simp [place, hq]

@[simp] theorem take_place : (c.take t h).place = c.place := rfl
@[simp] theorem push_place : (c.push p).place = c.place := rfl
@[simp] theorem put_grip : (c.put p i).grip = c.grip := rfl
@[simp] theorem push_grip : (c.push p).grip = c.grip := rfl

@[simp] theorem take_grip :
    (c.take t h).grip = Function.update c.grip t (h.map Hold.grip) := by
  funext t'
  by_cases ht : t' = t
  · subst ht; simp [grip]
  · simp [grip, ht]

@[simp] theorem unsleep_place : (c.unsleep p i).place = c.place := by
  unfold unsleep; split <;> rfl
@[simp] theorem unsleep_grip : (c.unsleep p i).grip = c.grip := by
  unfold unsleep; split <;> rfl

end Frames

theorem place_of_standing {c : Dispatch} {p : InfoPtr} {i : Standing}
    (hi : c.standing p = some i) : c.place p = some i.state.place := by
  rw [place, hi]; rfl

theorem grip_of_hold {c : Dispatch} {t : ℕ} {h : Hold} (ht : c.hold t = some h) :
    c.grip t = some h.grip := by
  rw [grip, ht]; rfl

end Dispatch

/-! ### Moves -/

open Dispatch

/-- What can happen to the processes.  Each move but the first is about one
process that exists; `may` says which states a process can be suspended in. -/
inductive Move (may : ProcessState → Prop) (c : Dispatch) : Dispatch → Prop
  /-- A process is created. -/
  | create : Move may c { c.put c.next ⟨.created, 0, false⟩ with next := c.next + 1 }
  /-- A parked process is scheduled, for its execution or for its death. -/
  | unpark {p : InfoPtr} {i : Standing} (killing : Bool) (hi : c.standing p = some i)
      (hparked : i.state.place = .parked) (hkill : i.pendingKilled → killing) :
      Move may c (((c.put p { i with
        state := if killing then .killed else .ready
        pendingKilled := false }).unsleep p i).push p)
  /-- A process in the run queue is killed there. -/
  | killQueued {p : InfoPtr} {i : Standing} (hi : c.standing p = some i)
      (hqueued : i.state.place = .queued) :
      Move may c (c.put p { i with state := .killed, pendingKilled := false })
  /-- A process is killed while it executes. -/
  | killExecuting {p : InfoPtr} {i : Standing} (hi : c.standing p = some i)
      (hexec : i.state = .executing) : Move may c (c.put p { i with pendingKilled := true })
  /-- A process that is in neither queue nor executing is suspended. -/
  | suspend {p : InfoPtr} {i : Standing} (hi : c.standing p = some i)
      (hidle : i.state.place = .parked ∨ i.state = .completed) (hmay : may i.state) :
      Move may c (c.put p { i with state := .suspended })
  /-- A thread takes a process off the run queue. -/
  | pop {p : InfoPtr} {rest : List InfoPtr} {t : ℕ} (hq : c.queue = p :: rest)
      (ht : c.hold t = none) :
      Move may c { c.take t (some (.popped p)) with queue := rest }
  /-- And begins to execute it. -/
  | dispatch {p : InfoPtr} {i : Standing} {t : ℕ} (ht : c.hold t = some (.popped p))
      (hi : c.standing p = some i) :
      Move may c ((c.put p { i with state := .executing }).take t
        (some (.executing p (i.state == .killed))))
  /-- A process returns and waits for something. -/
  | park {p : InfoPtr} {i : Standing} {t : ℕ} {state : ProcessState}
      (ht : c.hold t = some (.executing p false)) (hi : c.standing p = some i)
      (halive : i.pendingKilled = false) (hparked : state.place = .parked)
      (hawake : state ≠ .sleeping) :
      Move may c ((c.put p { i with state := state }).take t none)
  /-- A process returns and sleeps. -/
  | sleep {p : InfoPtr} {i : Standing} {t : ℕ} (wakeup : TimePoint)
      (ht : c.hold t = some (.executing p false)) (hi : c.standing p = some i)
      (halive : i.pendingKilled = false) :
      Move may c { (c.put p { i with state := .sleeping, wakeup := wakeup }).take t none with
        timer := MultiMap.insert wakeup p c.timer }
  /-- A process returns and is scheduled again. -/
  | requeue {p : InfoPtr} {i : Standing} {t : ℕ} (ht : c.hold t = some (.executing p false))
      (hi : c.standing p = some i) :
      Move may c (((c.put p { i with
        state := if i.pendingKilled then .killed else .ready
        pendingKilled := false }).push p).take t none)
  /-- A process returns and is done. -/
  | complete {p : InfoPtr} {i : Standing} {t : ℕ} {isKilled : Bool}
      (ht : c.hold t = some (.executing p isKilled)) (hi : c.standing p = some i) :
      Move may c ((c.put p { i with state := .completed }).take t (some (.cleaning p)))
  /-- A process is freed. -/
  | finish {p : InfoPtr} {t : ℕ} (ht : c.hold t = some (.cleaning p)) :
      Move may c { c.take t none with standing := Function.update c.standing p none }

namespace Dispatch

variable {may : ProcessState → Prop} {c c' : Dispatch}

/-! ### Custody -/

/-- The processes are in custody, and addresses not given out are empty. -/
structure Exclusive (c : Dispatch) : Prop where
  custody : Custody c.place c.queue c.grip
  fresh : ∀ p, c.next ≤ p → c.standing p = none

variable {p : InfoPtr} {i : Standing}

theorem Exclusive.lt_next (h : Exclusive c) (hi : c.standing p = some i) : p < c.next := by
  by_contra hge
  rw [h.fresh p (Nat.le_of_not_lt hge)] at hi
  cases hi

/-- A thread that executes or cleans up a process has it in that state. -/
theorem Exclusive.standing_of_hold (h : Exclusive c) {t : ℕ} {g : Hold}
    (ht : c.hold t = some g) :
    ∃ i, c.standing g.grip.1 = some i ∧ i.state.place = g.grip.2 := by
  have hpl := (h.custody.gripped t g.grip.1 g.grip.2 (grip_of_hold ht)).1
  rw [place, Option.map_eq_some_iff] at hpl
  exact hpl

/-- Standings that come and go below `next` leave the rest empty. -/
theorem Exclusive.fresh_update (h : Exclusive c) (hi : c.standing p = some i)
    (o : Option Standing) : ∀ q, c.next ≤ q → Function.update c.standing p o q = none := by
  intro q hq
  have hne : q ≠ p := (lt_of_lt_of_le (h.lt_next hi) hq).ne'
  rw [Function.update_of_ne hne]
  exact h.fresh q hq

end Dispatch

variable {may : ProcessState → Prop} {c c' : Dispatch}

/-- **Moves keep the processes in custody**, if none is suspended when it is
completed. -/
theorem Move.exclusive (hm : Move may c c') (h : Exclusive c) (hmay : ¬ may .completed) :
    Exclusive c' := by
  have hc := h.custody
  cases hm with
  | create =>
    have hnone : c.place c.next = none := by rw [place, h.fresh _ le_rfl]; rfl
    refine ⟨?_, ?_⟩
    · show Custody (c.put c.next _).place c.queue c.grip
      rw [put_place]
      exact hc.settle (.inl hnone)
    · intro q hq
      have hne : q ≠ c.next := by rintro rfl; exact absurd hq (Nat.not_succ_le_self _)
      show Function.update c.standing c.next _ q = none
      rw [Function.update_of_ne hne]
      exact h.fresh q (Nat.le_of_succ_le hq)
  | @unpark p i killing hi hparked hkill =>
    refine ⟨?_, by simpa using h.fresh_update hi _⟩
    have hpl : ProcessState.place (if killing then .killed else .ready) = .queued := by
      cases killing <;> rfl
    simp only [push_place, unsleep_place, put_place, push_queue, unsleep_queue, put_queue,
      push_grip, unsleep_grip, put_grip, hpl]
    exact hc.enqueue (hparked ▸ place_of_standing hi)
  | @killQueued p i hi hqueued =>
    refine ⟨?_, by simpa using h.fresh_update hi _⟩
    have hsame : Function.update c.place p (some .queued) = c.place := by
      rw [← hqueued, ← place_of_standing hi, Function.update_eq_self]
    simpa only [put_place, put_queue, put_grip, ProcessState.place, hsame] using hc
  | @killExecuting p i hi hexec =>
    refine ⟨?_, by simpa using h.fresh_update hi _⟩
    simpa only [put_place, put_queue, put_grip, ← place_of_standing hi,
      Function.update_eq_self] using hc
  | @suspend p i hi hidle hok =>
    refine ⟨?_, by simpa using h.fresh_update hi _⟩
    have hparked : c.place p = some .parked := by
      rcases hidle with hparked | hdone
      · exact hparked ▸ place_of_standing hi
      · exact absurd (hdone ▸ hok) hmay
    simpa only [put_place, put_queue, put_grip, ProcessState.place] using hc.settle (.inr hparked)
  | @pop p rest t hq ht =>
    refine ⟨?_, h.fresh⟩
    have hgrip : c.grip t = none := by rw [grip, ht]; rfl
    show Custody c.place rest (c.take t _).grip
    rw [take_grip]
    exact (hq ▸ hc).pop hgrip
  | @dispatch p i t ht hi =>
    refine ⟨?_, by simpa using h.fresh_update hi _⟩
    simpa [Hold.grip, ProcessState.place] using hc.advance (grip_of_hold ht) (.inl rfl)
  | @park p i t state ht hi halive hparked hawake =>
    refine ⟨?_, by simpa using h.fresh_update hi _⟩
    simpa [Hold.grip, hparked] using hc.release (grip_of_hold ht) (.inr rfl)
  | @sleep p i t wakeup ht hi halive =>
    refine ⟨?_, by simpa using h.fresh_update hi _⟩
    show Custody ((c.put p _).take t none).place c.queue ((c.put p _).take t none).grip
    simpa [Hold.grip, ProcessState.place] using hc.release (grip_of_hold ht) (.inr rfl)
  | @requeue p i t ht hi =>
    refine ⟨?_, by simpa using h.fresh_update hi _⟩
    have hpl : ProcessState.place (if i.pendingKilled then .killed else .ready) = .queued := by
      cases i.pendingKilled <;> rfl
    simpa [Hold.grip, hpl] using hc.requeue (grip_of_hold ht)
  | @complete p i t isKilled ht hi =>
    refine ⟨?_, by simpa using h.fresh_update hi _⟩
    simpa [Hold.grip, ProcessState.place] using hc.advance (grip_of_hold ht) (.inr rfl)
  | @finish p t ht =>
    obtain ⟨i, hi, -⟩ := h.standing_of_hold ht
    refine ⟨?_, h.fresh_update hi none⟩
    have hpl : Dispatch.place { c.take t none with
        standing := Function.update c.standing p none } = Function.update c.place p none := by
      funext q
      by_cases hq : q = p
      · subst hq; simp [place]
      · simp [place, hq]
    rw [hpl]
    show Custody _ c.queue (c.take t none).grip
    rw [take_grip]
    exact hc.release (grip_of_hold ht) (.inl rfl)

/-! ### The timer queue -/

variable {m : MultiMap TimePoint InfoPtr} {p : InfoPtr}

/-- From the first entry of its wakeup time on, the loop finds a process that is
there. -/
theorem eraseFrom_eq_erase (w : TimePoint) (p : InfoPtr) (hs : MultiMap.Sorted m)
    (hge : ∀ e ∈ m, w ≤ e.1) (hmem : (w, p) ∈ m) : eraseFrom w p m = m.erase (w, p) := by
  induction m with
  | nil => cases hmem
  | cons e rest ih =>
    obtain ⟨he, hrest⟩ := pairwise_cons.mp hs
    -- what stands before the entry has the same key
    have hkey : e.1 = w := by
      rcases mem_cons.mp hmem with rfl | hmem
      · rfl
      · exact le_antisymm (he _ hmem) (hge e mem_cons_self)
    rw [eraseFrom]
    by_cases hp : e.2 = p
    · have heq : e = (w, p) := Prod.ext hkey hp
      rw [if_pos hp, heq, erase_cons_head]
    · have hne : e ≠ (w, p) := fun heq => hp (congrArg Prod.snd heq)
      have hin : (w, p) ∈ rest := (mem_cons.mp hmem).resolve_left hne.symm
      rw [if_neg hp, if_neg (not_not_intro hkey), erase_cons_tail (by simpa using hne),
        ih hrest (fun e' he' => hge e' (mem_cons_of_mem e he')) hin]

theorem eraseTimer_eq_erase (w : TimePoint) (p : InfoPtr) (hs : MultiMap.Sorted m)
    (hmem : (w, p) ∈ m) : eraseTimer w p m = m.erase (w, p) := by
  induction m with
  | nil => cases hmem
  | cons e rest ih =>
    obtain ⟨he, hrest⟩ := pairwise_cons.mp hs
    rw [eraseTimer]
    by_cases hkey : e.1 = w
    · rw [if_pos hkey]
      refine eraseFrom_eq_erase w p hs ?_ hmem
      intro e' he'
      rcases mem_cons.mp he' with rfl | he'
      · exact hkey.ge
      · exact hkey ▸ he e' he'
    · have hne : e ≠ (w, p) := fun heq => hkey (congrArg Prod.fst heq)
      have hin : (w, p) ∈ rest := (mem_cons.mp hmem).resolve_left hne.symm
      rw [if_neg hkey, erase_cons_tail (by simpa using hne), ih hrest hin]

namespace Dispatch

/-- A process sleeps until a time. -/
def SleepsUntil (c : Dispatch) (p : InfoPtr) (w : TimePoint) : Prop :=
  ∃ i, c.standing p = some i ∧ i.state = .sleeping ∧ i.wakeup = w

/-- The timer queue holds every sleeping process once, under its wakeup time, and
nothing else. -/
structure TimerExact (c : Dispatch) : Prop where
  sorted : MultiMap.Sorted c.timer
  nodup : (c.timer.map Prod.snd).Nodup
  mem_iff : ∀ w p, (w, p) ∈ c.timer ↔ c.SleepsUntil p w

variable {c : Dispatch} {p : InfoPtr} {i : Standing}

theorem SleepsUntil.state {w : TimePoint} (h : c.SleepsUntil p w) (hi : c.standing p = some i) :
    i.state = .sleeping ∧ i.wakeup = w := by
  obtain ⟨j, hj, hstate, hw⟩ := h
  obtain rfl := Option.some.inj (hi.symm.trans hj)
  exact ⟨hstate, hw⟩

/-- A standing that changes from one that does not sleep to one that does not. -/
theorem TimerExact.update (h : TimerExact c) {o : Option Standing}
    (hbefore : ∀ i, c.standing p = some i → i.state ≠ .sleeping)
    (hafter : ∀ i, o = some i → i.state ≠ .sleeping) (htimer : c'.timer = c.timer)
    (hstanding : c'.standing = Function.update c.standing p o) : TimerExact c' where
  sorted := htimer ▸ h.sorted
  nodup := htimer ▸ h.nodup
  mem_iff := by
    intro w q
    rw [htimer, h.mem_iff, SleepsUntil, SleepsUntil, hstanding]
    by_cases hq : q = p
    · subst hq
      rw [Function.update_self]
      constructor
      · rintro ⟨i, hi, hs, -⟩; exact absurd hs (hbefore i hi)
      · rintro ⟨i, hi, hs, -⟩; exact absurd hs (hafter i hi)
    · rw [Function.update_of_ne hq]

/-- The first entry of its wakeup time that a sleeping process has goes with its
sleep. -/
theorem TimerExact.wake (h : TimerExact c) {j : Standing} (hi : c.standing p = some i)
    (hs : i.state = .sleeping) (hj : j.state ≠ .sleeping)
    (htimer : c'.timer = eraseTimer i.wakeup p c.timer)
    (hstanding : c'.standing = Function.update c.standing p (some j)) : TimerExact c' := by
  have hmem : (i.wakeup, p) ∈ c.timer := (h.mem_iff _ _).mpr ⟨i, hi, hs, rfl⟩
  rw [eraseTimer_eq_erase _ _ h.sorted hmem] at htimer
  have hperm : (c.timer.map Prod.snd).Perm (p :: c'.timer.map Prod.snd) := by
    rw [htimer]
    exact (perm_cons_erase hmem).map Prod.snd
  have hnodup := hperm.nodup_iff.mp h.nodup
  refine ⟨?_, (nodup_cons.mp hnodup).2, ?_⟩
  · rw [htimer]
    exact List.Pairwise.sublist erase_sublist h.sorted
  · intro w q
    have hnodup' : c.timer.Nodup := List.Nodup.of_map Prod.snd h.nodup
    rw [htimer, hnodup'.mem_erase_iff, h.mem_iff, SleepsUntil, SleepsUntil, hstanding]
    by_cases hq : q = p
    · subst hq
      rw [Function.update_self]
      constructor
      · rintro ⟨hne, hsleep⟩
        exact absurd (by rw [(SleepsUntil.state hsleep hi).2]) hne
      · rintro ⟨k, hk, hks, -⟩
        exact absurd (Option.some.inj hk ▸ hks) hj
    · rw [Function.update_of_ne hq]
      exact and_iff_right (fun e => hq (congrArg Prod.snd e))

/-- A process that goes to sleep gets its entry. -/
theorem TimerExact.sleep (h : TimerExact c) {p : InfoPtr} {i : Standing} (w : TimePoint)
    (hbefore : ∀ j, c.standing p = some j → j.state ≠ .sleeping) (hs : i.state = .sleeping)
    (hw : i.wakeup = w) {c' : Dispatch} (htimer : c'.timer = MultiMap.insert w p c.timer)
    (hstanding : c'.standing = Function.update c.standing p (some i)) : TimerExact c' := by
  have hperm := MultiMap.insert_perm w p c.timer
  have hnew : p ∉ c.timer.map Prod.snd := by
    intro hp
    obtain ⟨⟨w', q⟩, hmem, rfl⟩ := mem_map.mp hp
    obtain ⟨j, hj, hjs, -⟩ := (h.mem_iff _ _).mp hmem
    exact hbefore j hj hjs
  refine ⟨htimer ▸ h.sorted.insert w p, ?_, ?_⟩
  · rw [htimer, (hperm.map Prod.snd).nodup_iff]
    exact nodup_cons.mpr ⟨hnew, h.nodup⟩
  · intro w' q
    rw [htimer, hperm.mem_iff, mem_cons, h.mem_iff, SleepsUntil, SleepsUntil, hstanding]
    by_cases hq : q = p
    · subst hq
      rw [Function.update_self]
      constructor
      · rintro (he | ⟨j, hj, hjs, -⟩)
        · exact ⟨i, rfl, hs, hw.trans (congrArg Prod.fst he).symm⟩
        · exact absurd hjs (hbefore j hj)
      · rintro ⟨j, hj, -, hjw⟩
        obtain rfl := Option.some.inj hj
        exact .inl (by rw [← hjw, hw])
    · rw [Function.update_of_ne hq]
      constructor
      · rintro (he | hsleep)
        · exact absurd (congrArg Prod.snd he) hq
        · exact hsleep
      · exact .inr

end Dispatch

/-- **Moves keep the timer queue exact**, if no process is suspended when it is
sleeping or completed. -/
theorem Move.timerExact (hm : Move may c c') (h : TimerExact c) (he : Exclusive c)
    (hmay : ¬ may .sleeping) : TimerExact c' := by
  -- a process that is not parked does not sleep
  have hplace : ∀ {p pl}, c.place p = some pl → pl ≠ .parked →
      ∀ i, c.standing p = some i → i.state ≠ .sleeping := by
    intro p pl hpl hne i hi hs
    rw [place_of_standing hi, hs] at hpl
    exact hne (Option.some.inj hpl).symm
  have hheld : ∀ {t g}, c.hold t = some g →
      ∀ i, c.standing g.grip.1 = some i → i.state ≠ .sleeping := by
    intro t g ht
    obtain ⟨hpl, hne⟩ := he.custody.gripped t g.grip.1 g.grip.2 (grip_of_hold ht)
    exact hplace hpl hne
  cases hm with
  | create =>
    refine h.update (p := c.next) (o := some ⟨.created, 0, false⟩) ?_ (by simp) rfl rfl
    intro i hi
    rw [he.fresh _ le_rfl] at hi
    cases hi
  | @unpark p i killing hi hparked hkill =>
    have hj : (if killing then .killed else .ready : ProcessState) ≠ .sleeping := by
      cases killing <;> decide
    by_cases hs : i.state = .sleeping
    · refine h.wake (j := { i with
        state := if killing then .killed else .ready
        pendingKilled := false }) hi hs hj ?_ ?_
      · simp [unsleep, hs]
      · simp
    · refine h.update (p := p) (o := some { i with
        state := if killing then .killed else .ready
        pendingKilled := false }) ?_ ?_ ?_ ?_
      · intro k hk
        exact Option.some.inj (hi.symm.trans hk) ▸ hs
      · intro k hk
        rw [← Option.some.inj hk]
        exact hj
      · simp [unsleep, hs]
      · simp
  | @killQueued p i hi hqueued =>
    have hpl : c.place p = some .queued := hqueued ▸ place_of_standing hi
    exact h.update (hplace hpl (by decide)) (by simp) rfl (put_standing c p _)
  | @killExecuting p i hi hexec =>
    have hpl : c.place p = some .running := by rw [place_of_standing hi, hexec]; rfl
    exact h.update (hplace hpl (by decide)) (by simp [hexec]) rfl (put_standing c p _)
  | @suspend p i hi hidle hok =>
    refine h.update ?_ (by simp) rfl (put_standing c p _)
    intro j hj hs
    obtain rfl := Option.some.inj (hi.symm.trans hj)
    exact hmay (hs ▸ hok)
  | @pop p rest t hq ht => exact ⟨h.sorted, h.nodup, h.mem_iff⟩
  | @dispatch p i t ht hi => exact h.update (hheld ht) (by simp) rfl (put_standing c p _)
  | @park p i t state ht hi halive hparked hawake =>
    exact h.update (hheld ht) (by simpa using hawake) rfl (put_standing c p _)
  | @sleep p i t wakeup ht hi halive =>
    exact h.sleep wakeup (hheld ht) rfl rfl rfl (put_standing c p _)
  | @requeue p i t ht hi =>
    refine h.update (hheld ht) ?_ rfl (put_standing c p _)
    cases i.pendingKilled <;> simp
  | @complete p i t isKilled ht hi =>
    exact h.update (hheld ht) (by simp) rfl (put_standing c p _)
  | @finish p t ht => exact h.update (o := none) (hheld ht) (by simp) rfl rfl

/-! ### Killed processes -/

namespace Dispatch

/-- A process that is to die has been freed, is done, is queued for its death, or
is executing and known to be killed: by its flag or by the thread. -/
structure KillKept (c : Dispatch) (p : InfoPtr) : Prop where
  allocated : p < c.next
  doomed : ∀ i, c.standing p = some i → i.state = .killed ∨ i.state = .completed ∨
    i.state = .executing ∧ (i.pendingKilled = true ∨ ∃ t, c.hold t = some (.executing p true))

variable {c : Dispatch} {p : InfoPtr} {i : Standing} {c' : Dispatch} {t : ℕ}

section

variable (h : KillKept c p)
include h

/-- Such a process is not parked. -/
theorem KillKept.place_ne_parked (hi : c.standing p = some i) : i.state.place ≠ .parked := by
  rcases h.doomed i hi with hs | hs | ⟨hs, -⟩ <;> rw [hs] <;> decide

/-- What happens to other processes does not save it. -/
theorem KillKept.frame (hnext : c.next ≤ c'.next) (hstanding : c'.standing p = c.standing p)
    (hhold : ∀ t, c.hold t = some (.executing p true) → c'.hold t = some (.executing p true)) :
    KillKept c' p where
  allocated := lt_of_lt_of_le h.allocated hnext
  doomed := by
    intro i hi
    rcases h.doomed i (hstanding ▸ hi) with hs | hs | ⟨hs, hf | ⟨t, ht⟩⟩
    · exact .inl hs
    · exact .inr (.inl hs)
    · exact .inr (.inr ⟨hs, .inl hf⟩)
    · exact .inr (.inr ⟨hs, .inr ⟨t, hhold t ht⟩⟩)

variable {q : InfoPtr} {o : Option Standing}

/-- A new standing of another process does not. -/
theorem KillKept.other (hq : q ≠ p) (hnext : c'.next = c.next)
    (hstanding : c'.standing = Function.update c.standing q o)
    (hhold : ∀ t, c.hold t = some (.executing p true) → c'.hold t = some (.executing p true)) :
    KillKept c' p := by
  refine h.frame hnext.ge ?_ hhold
  rw [hstanding, Function.update_of_ne hq.symm]

/-- A new standing of the process, if it has one, is that of a doomed one. -/
theorem KillKept.of_update (hnext : c'.next = c.next)
    (hstanding : c'.standing = Function.update c.standing p o)
    (ho : ∀ i, o = some i → i.state = .killed ∨ i.state = .completed ∨ i.state = .executing ∧
      (i.pendingKilled = true ∨ ∃ t, c'.hold t = some (.executing p true))) : KillKept c' p where
  allocated := hnext ▸ h.allocated
  doomed := by
    intro i hi
    rw [hstanding, Function.update_self] at hi
    exact ho i hi

/-- A thread that holds the process as a live one is the only one that does. -/
theorem KillKept.pending_of_hold (he : Exclusive c) (hi : c.standing p = some i)
    (ht : c.hold t = some (.executing p false)) : i.pendingKilled = true := by
  obtain ⟨j, hj, hpl⟩ := he.standing_of_hold ht
  obtain rfl := Option.some.inj (hi.symm.trans hj)
  have hexec := ProcessState.place_eq_running.mp hpl
  rcases h.doomed i hi with hs | hs | ⟨-, hf | ⟨t', ht'⟩⟩
  · rw [hexec] at hs; cases hs
  · rw [hexec] at hs; cases hs
  · exact hf
  · obtain rfl := he.custody.unique t t' _ _ _ (grip_of_hold ht) (grip_of_hold ht')
    rw [ht] at ht'
    cases ht'

/-- A process that a thread holds as a live one, and nobody has killed since, is not
this one. -/
theorem KillKept.ne_of_hold (he : Exclusive c) (hi : c.standing q = some i)
    (ht : c.hold t = some (.executing q false)) (halive : i.pendingKilled = false) : q ≠ p := by
  rintro rfl
  rw [h.pending_of_hold he hi ht] at halive
  cases halive

/-- A thread that has taken it off the queue has taken it off for its death. -/
theorem KillKept.killed_of_popped (he : Exclusive c) (hi : c.standing p = some i)
    (ht : c.hold t = some (.popped p)) : i.state = .killed := by
  obtain ⟨j, hj, hpl⟩ := he.standing_of_hold ht
  obtain rfl := Option.some.inj (hi.symm.trans hj)
  rcases h.doomed i hi with hs | hs | ⟨hs, -⟩
  · exact hs
  · rw [hs] at hpl; cases hpl
  · rw [hs] at hpl; cases hpl

end

/-- A thread that takes over or lets go of another process still holds this one. -/
theorem hold_frame {t' : ℕ} {g : Option Hold} {h h' : Hold} (ht : c.hold t = some h) (hne : h ≠ h')
    (ht' : c.hold t' = some h') : Function.update c.hold t g t' = some h' := by
  have hdiff : t' ≠ t := by
    rintro rfl
    exact hne (Option.some.inj (ht.symm.trans ht'))
  rw [Function.update_of_ne hdiff]
  exact ht'

end Dispatch

/-- **A killed process stays killed**, if none is suspended when it is completed. -/
theorem Move.killKept (hm : Move may c c') (h : KillKept c p) (he : Exclusive c)
    (hmay : ¬ may .completed) : KillKept c' p := by
  cases hm with
  | create =>
    refine h.frame (Nat.le_succ _) ?_ (fun _ ht => ht)
    exact Function.update_of_ne h.allocated.ne _ _
  | @unpark q i killing hi hparked hkill =>
    have hne : p ≠ q := by rintro rfl; exact h.place_ne_parked hi hparked
    refine h.frame (by simp) ?_ (fun t ht => by simpa using ht)
    simp [hne]
  | @killQueued q i hi hqueued =>
    by_cases hq : q = p
    · subst hq
      exact h.of_update rfl (put_standing c q _) (by simp)
    · exact h.other hq rfl rfl (fun _ ht => ht)
  | @killExecuting q i hi hexec =>
    by_cases hq : q = p
    · subst hq
      exact h.of_update rfl (put_standing c q _) (by simp [hexec])
    · exact h.other hq rfl rfl (fun _ ht => ht)
  | @suspend q i hi hidle hok =>
    have hne : q ≠ p := by
      rintro rfl
      rcases hidle with hparked | hdone
      · exact h.place_ne_parked hi hparked
      · exact hmay (hdone ▸ hok)
    exact h.other hne rfl rfl (fun _ ht => ht)
  | @pop q rest t hq ht =>
    refine h.frame le_rfl rfl ?_
    intro t' ht'
    have hdiff : t' ≠ t := by rintro rfl; rw [ht] at ht'; cases ht'
    exact (Function.update_of_ne hdiff _ _).trans ht'
  | @dispatch q i t ht hi =>
    by_cases hq : q = p
    · subst hq
      have hkilled := h.killed_of_popped he hi ht
      refine h.of_update rfl (put_standing c q _) ?_
      rintro _ ⟨⟩
      exact .inr (.inr ⟨rfl, .inr ⟨t, by simp [hkilled]⟩⟩)
    · exact h.other hq rfl rfl (fun t' ht' => hold_frame ht (by simp) ht')
  | @park q i t state ht hi halive hparked hawake =>
    exact h.other (h.ne_of_hold he hi ht halive) rfl rfl
      (fun t' ht' => hold_frame ht (by simp) ht')
  | @sleep q i t wakeup ht hi halive =>
    exact h.other (h.ne_of_hold he hi ht halive) rfl rfl
      (fun t' ht' => hold_frame ht (by simp) ht')
  | @requeue q i t ht hi =>
    by_cases hq : q = p
    · subst hq
      refine h.of_update rfl (put_standing c q _) ?_
      rintro _ ⟨⟩
      exact .inl (by simp [h.pending_of_hold he hi ht])
    · exact h.other hq rfl rfl (fun t' ht' => hold_frame ht (by simp) ht')
  | @complete q i t isKilled ht hi =>
    by_cases hq : q = p
    · subst hq
      exact h.of_update rfl (put_standing c q _) (by simp)
    · exact h.other hq rfl rfl (fun t' ht' => hold_frame ht (by simp [hq]) ht')
  | @finish q t ht =>
    by_cases hq : q = p
    · subst hq
      exact h.of_update (o := none) rfl rfl (by simp)
    · exact h.other hq rfl rfl (fun t' ht' => hold_frame ht (by simp) ht')

/-- **No thread begins to execute a killed process as a live one.** -/
theorem Move.unkilled (hm : Move may c c') (h : KillKept c p) (he : Exclusive c) {t : ℕ}
    (ht : c'.hold t = some (.executing p false)) : c.hold t = some (.executing p false) := by
  -- a hold that a move gives to a thread is never this one
  have hkeep : ∀ {t' : ℕ} {g : Option Hold}, g ≠ some (.executing p false) →
      Function.update c.hold t' g t = some (.executing p false) →
      c.hold t = some (.executing p false) := by
    intro t' g hg hupd
    rw [Function.update_apply] at hupd
    split at hupd
    · exact absurd hupd hg
    · exact hupd
  cases hm with
  | create | killQueued | killExecuting | suspend => exact ht
  | unpark => simpa using ht
  | pop hq hfree => exact hkeep (by simp) ht
  | @dispatch q i t' hpop hi =>
    refine hkeep ?_ ht
    intro heq
    have hq : q = p := by injections
    have hlive : (i.state == .killed) = false := by injections
    subst hq
    rw [h.killed_of_popped he hi hpop] at hlive
    cases hlive
  | park | requeue | finish => exact hkeep (by simp) ht
  | sleep => exact hkeep (by simp) ht
  | complete => exact hkeep (by simp) ht

end Mutgos.Executor
