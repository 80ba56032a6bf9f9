import Mathlib.Data.List.Nodup
import Mathlib.Logic.Function.Basic

/-!
# Custody of tasks

Tasks that workers take off one queue.  A task that exists is in one place:
parked, where it waits for some event; queued; running; or finishing.  A worker
grips at most one task at a time, in a place of its own: `queued` while it has
taken the task off the queue and not begun to run it, then `running` and
`finishing`.

Custody is the discipline that makes such a scheme safe: what is queued is in the
queue once or in the grip of the one worker that has just taken it, and what runs
or finishes is in the grip of that one worker only.

## Main results

* `Custody.settle`, `Custody.enqueue`, `Custody.pop`, `Custody.advance`,
  `Custody.release`, `Custody.requeue` — the operations that keep it.
-/

namespace Mutgos

open Function List

/-- Where a task is. -/
inductive Place
  | parked
  | queued
  | running
  | finishing
  deriving DecidableEq, Repr

variable {ι τ : Type*}

/-- What is queued is in the queue once or in the grip of the worker that has
taken it, and what runs or finishes is in the grip of one worker. -/
structure Custody (place : ι → Option Place) (queue : List ι) (grip : τ → Option (ι × Place)) :
    Prop where
  nodup : queue.Nodup
  queued : ∀ i ∈ queue, place i = some .queued
  gripped : ∀ t i pl, grip t = some (i, pl) → place i = some pl ∧ pl ≠ .parked
  taken : ∀ t i, grip t = some (i, .queued) → i ∉ queue
  unique : ∀ t t' i pl pl', grip t = some (i, pl) → grip t' = some (i, pl') → t = t'
  waiting : ∀ i, place i = some .queued → i ∈ queue ∨ ∃ t, grip t = some (i, .queued)

namespace Custody

variable {place : ι → Option Place} {queue : List ι} {grip : τ → Option (ι × Place)}

/-- No tasks, no grips. -/
theorem empty : Custody (fun _ : ι => none) [] (fun _ : τ => none) where
  nodup := nodup_nil
  queued := by simp
  gripped := by simp
  taken := by simp
  unique := by simp
  waiting := by simp

/-! ### What custody says about the queue -/

theorem count_le_one [DecidableEq ι] (h : Custody place queue grip) (i : ι) :
    queue.count i ≤ 1 :=
  nodup_iff_count_le_one.mp h.nodup i

variable {i : ι}

section

variable (h : Custody place queue grip)
include h

/-- A task in a grip is not in the queue. -/
theorem notMem_queue {t : τ} {pl : Place} (ht : grip t = some (i, pl)) : i ∉ queue := by
  intro hi
  have hpl : pl = .queued :=
    Option.some.inj ((h.gripped t i pl ht).1.symm.trans (h.queued i hi))
  subst hpl
  exact h.taken t i ht hi

/-- The queue holds what is queued and has not been taken. -/
theorem mem_queue_iff (i : ι) :
    i ∈ queue ↔ place i = some .queued ∧ ∀ t, grip t ≠ some (i, .queued) := by
  constructor
  · intro hi
    exact ⟨h.queued i hi, fun t ht => h.taken t i ht hi⟩
  · rintro ⟨hpl, hno⟩
    rcases h.waiting i hpl with hi | ⟨t, ht⟩
    · exact hi
    · exact absurd ht (hno t)

/-- Nobody grips a task that is parked or does not exist. -/
theorem not_gripped (hi : place i = none ∨ place i = some .parked) (t : τ) (pl : Place) :
    grip t ≠ some (i, pl) := by
  intro ht
  obtain ⟨hpl, hne⟩ := h.gripped t i pl ht
  rcases hi with hi | hi
  · rw [hi] at hpl; cases hpl
  · rw [hi] at hpl; exact hne (Option.some.inj hpl).symm

/-- Nor is it queued. -/
theorem not_queued (hi : place i = none ∨ place i = some .parked) : i ∉ queue := by
  intro hq
  have := h.queued i hq
  rcases hi with hi | hi <;> rw [hi] at this <;> cases this

end

/-! ### The operations -/

section Operations

variable [DecidableEq ι] [DecidableEq τ] {i : ι} {t : τ} {pl : Place}

omit [DecidableEq τ] in
/-- A task appears, or waits for something else. -/
theorem settle (h : Custody place queue grip) (hi : place i = none ∨ place i = some .parked) :
    Custody (update place i (some .parked)) queue grip where
  nodup := h.nodup
  queued := by
    intro j hj
    have hne : j ≠ i := fun e => h.not_queued hi (e ▸ hj)
    rw [update_of_ne hne]
    exact h.queued j hj
  gripped := by
    intro t j pl ht
    have hne : j ≠ i := fun e => h.not_gripped hi t pl (e ▸ ht)
    rw [update_of_ne hne]
    exact h.gripped t j pl ht
  taken := h.taken
  unique := h.unique
  waiting := by
    intro j hj
    by_cases hne : j = i
    · subst hne; rw [update_self] at hj; cases hj
    · rw [update_of_ne hne] at hj
      exact h.waiting j hj

omit [DecidableEq τ] in
/-- A parked task goes to the end of the queue. -/
theorem enqueue (h : Custody place queue grip) (hi : place i = some .parked) :
    Custody (update place i (some .queued)) (queue ++ [i]) grip where
  nodup := by
    refine nodup_append.mpr ⟨h.nodup, nodup_singleton i, ?_⟩
    rintro j hj _ hk rfl
    exact h.not_queued (.inr hi) (mem_singleton.mp hk ▸ hj)
  queued := by
    intro j hj
    by_cases hne : j = i
    · subst hne; rw [update_self]
    · rw [update_of_ne hne]
      exact h.queued j (by simpa [hne] using hj)
  gripped := by
    intro t j pl ht
    have hne : j ≠ i := fun e => h.not_gripped (.inr hi) t pl (e ▸ ht)
    rw [update_of_ne hne]
    exact h.gripped t j pl ht
  taken := by
    intro t j ht hj
    have hne : j ≠ i := fun e => h.not_gripped (.inr hi) t .queued (e ▸ ht)
    exact h.taken t j ht (by simpa [hne] using hj)
  unique := h.unique
  waiting := by
    intro j hj
    by_cases hne : j = i
    · exact .inl (by simp [hne])
    · rw [update_of_ne hne] at hj
      exact (h.waiting j hj).imp_left (mem_append_left _)

omit [DecidableEq ι] in
/-- A worker with free hands takes the first task off the queue. -/
theorem pop {i : ι} {rest : List ι} (h : Custody place (i :: rest) grip) {t : τ}
    (ht : grip t = none) :
    Custody place rest (update grip t (some (i, .queued))) where
  nodup := (nodup_cons.mp h.nodup).2
  queued := fun j hj => h.queued j (mem_cons_of_mem i hj)
  gripped := by
    intro t' j pl ht'
    rw [update_apply] at ht'
    split at ht'
    · cases ht'
      exact ⟨h.queued i mem_cons_self, by simp⟩
    · exact h.gripped t' j pl ht'
  taken := by
    intro t' j ht' hj
    rw [update_apply] at ht'
    split at ht'
    · cases ht'
      exact (nodup_cons.mp h.nodup).1 hj
    · exact h.taken t' j ht' (mem_cons_of_mem i hj)
  unique := by
    -- whoever grips the first task of the queue cannot have gripped it before
    have hfree : ∀ t' pl, grip t' ≠ some (i, pl) :=
      fun t' pl ht' => h.notMem_queue ht' mem_cons_self
    intro t₁ t₂ j pl pl' h₁ h₂
    rw [update_apply] at h₁ h₂
    split at h₁ <;> split at h₂
    · next e₁ e₂ => rw [e₁, e₂]
    · cases h₁; exact absurd h₂ (hfree t₂ pl')
    · cases h₂; exact absurd h₁ (hfree t₁ pl)
    · exact h.unique t₁ t₂ j pl pl' h₁ h₂
  waiting := by
    intro j hj
    rcases h.waiting j hj with hq | ⟨t', ht'⟩
    · rcases mem_cons.mp hq with rfl | hq
      · exact .inr ⟨t, update_self ..⟩
      · exact .inl hq
    · have hne : t' ≠ t := by rintro rfl; rw [ht] at ht'; cases ht'
      exact .inr ⟨t', by rw [update_of_ne hne]; exact ht'⟩

/-! #### A task that is gripped

The queue and the other workers have nothing to do with it, whatever becomes of it. -/

omit [DecidableEq τ] in
theorem queued_of_gripped (h : Custody place queue grip) (ht : grip t = some (i, pl))
    (new : Option Place) : ∀ j ∈ queue, update place i new j = some .queued := by
  intro j hj
  have hne : j ≠ i := fun e => h.notMem_queue ht (e ▸ hj)
  rw [update_of_ne hne]
  exact h.queued j hj

omit [DecidableEq τ] in
theorem gripped_of_ne (h : Custody place queue grip) {t' : τ} {j : ι} {pl' : Place}
    (ht : grip t = some (i, pl)) (hne : t' ≠ t) (new : Option Place)
    (ht' : grip t' = some (j, pl')) : update place i new j = some pl' ∧ pl' ≠ .parked := by
  have hj : j ≠ i := fun e => hne (h.unique t' t i pl' pl (e ▸ ht') ht)
  rw [update_of_ne hj]
  exact h.gripped t' j pl' ht'

section

variable (h : Custody place queue grip) (ht : grip t = some (i, pl))
include h ht

theorem waiting_of_gripped {new : Option Place} (hnew : new ≠ some .queued)
    (g : Option (ι × Place)) :
    ∀ j, update place i new j = some .queued →
      j ∈ queue ∨ ∃ t', update grip t g t' = some (j, .queued) := by
  intro j hj
  by_cases hne : j = i
  · subst hne
    rw [update_self] at hj
    exact absurd hj hnew
  · rw [update_of_ne hne] at hj
    rcases h.waiting j hj with hq | ⟨t', ht'⟩
    · exact .inl hq
    · have htt : t' ≠ t := by rintro rfl; rw [ht] at ht'; cases ht'; exact hne rfl
      exact .inr ⟨t', by rw [update_of_ne htt]; exact ht'⟩

/-- A worker takes the task it grips to a later place. -/
theorem advance {pl' : Place} (hpl' : pl' = .running ∨ pl' = .finishing) :
    Custody (update place i (some pl')) queue
      (update grip t (some (i, pl'))) where
  nodup := h.nodup
  queued := h.queued_of_gripped ht (some pl')
  gripped := by
    intro t' j pl'' ht'
    rw [update_apply] at ht'
    split at ht'
    · cases ht'
      rw [update_self]
      rcases hpl' with rfl | rfl <;> simp
    · next hne => exact h.gripped_of_ne ht hne (some pl') ht'
  taken := by
    intro t' j ht'
    rw [update_apply] at ht'
    split at ht'
    · cases ht'; rcases hpl' with hpl' | hpl' <;> cases hpl'
    · exact h.taken t' j ht'
  unique := by
    have hother : ∀ t' pl'', grip t' = some (i, pl'') → t' = t :=
      fun t' pl'' ht' => h.unique t' t i pl'' pl ht' ht
    intro t₁ t₂ j p₁ p₂ h₁ h₂
    rw [update_apply] at h₁ h₂
    split at h₁ <;> split at h₂
    · next e₁ e₂ => rw [e₁, e₂]
    · next e₁ _ => cases h₁; rw [e₁, hother t₂ p₂ h₂]
    · next _ e₂ => cases h₂; rw [e₂, hother t₁ p₁ h₁]
    · exact h.unique t₁ t₂ j p₁ p₂ h₁ h₂
  waiting := by
    apply h.waiting_of_gripped ht
    rcases hpl' with rfl | rfl <;> simp

/-- A worker lets go of a task it has run: the task is parked, or is gone. -/
theorem release {new : Option Place} (hnew : new = none ∨ new = some .parked) :
    Custody (update place i new) queue (update grip t none) where
  nodup := h.nodup
  queued := h.queued_of_gripped ht new
  gripped := by
    intro t' j pl' ht'
    rw [update_apply] at ht'
    split at ht'
    · cases ht'
    · next hne => exact h.gripped_of_ne ht hne new ht'
  taken := by
    intro t' j ht'
    rw [update_apply] at ht'
    split at ht'
    · cases ht'
    · exact h.taken t' j ht'
  unique := by
    intro t₁ t₂ j p₁ p₂ h₁ h₂
    rw [update_apply] at h₁ h₂
    split at h₁ <;> split at h₂
    · cases h₁
    · cases h₁
    · cases h₂
    · exact h.unique t₁ t₂ j p₁ p₂ h₁ h₂
  waiting := by
    apply h.waiting_of_gripped ht
    rcases hnew with rfl | rfl <;> simp

end

/-- A worker puts a task it has run back into the queue. -/
theorem requeue (h : Custody place queue grip) {t : τ} {i : ι} {pl : Place}
    (ht : grip t = some (i, pl)) :
    Custody (update place i (some .queued)) (queue ++ [i])
      (update grip t none) := by
  have hparked := h.release ht (.inr rfl)
  have hback := hparked.enqueue (update_self i _ place)
  rwa [update_idem] at hback

end Operations

end Custody

end Mutgos
