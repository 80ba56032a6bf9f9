import Mathlib.Data.Fintype.Basic
import Mathlib.Logic.Function.Basic
import Mutgos.Lib.TransitionSystem
import Mutgos.Lib.WaitsFor

/-!
# Programs that take recursive locks

Threads run programs that lock and unlock.  A lock is recursive: the thread that has it can
take it again, and any other has to wait until it is given back as often as it was taken.

## Main results

* `not_transGen_of_apart` — **a lock that is out of order leaves no cycle, where nobody is to
  take it under what another is to take under it.**
-/

namespace Mutgos

open Function

/-- What a program does with locks. -/
inductive LockCode (ι : Type*) where
  | lock (l : ι)
  | unlock (l : ι)
  deriving DecidableEq

/-- Something is done under a lock. -/
def LockCode.locked {ι : Type*} (l : ι) (body : List (LockCode ι)) : List (LockCode ι) :=
  [lock l] ++ body ++ [unlock l]

/-- What a thread has, and what it has yet to do. -/
structure LockThread (ι : Type*) where
  held : List ι
  todo : List (LockCode ι)

/-- What can happen: a thread starts something, or goes on. -/
inductive LockMove (τ β : Type*) where
  | start (t : τ) (b : β)
  | go (t : τ)

variable {τ ι β : Type*} [DecidableEq ι]

section System

variable (s : τ → LockThread ι)

/-- A lock that a thread can get. -/
def Available (t : τ) (l : ι) : Prop := ∀ t', l ∈ (s t').held → t' = t

instance [Fintype τ] [DecidableEq τ] (t : τ) (l : ι) : Decidable (Available s t l) :=
  inferInstanceAs (Decidable (∀ _, _))

/-- A thread has a lock. -/
def Holds (t : τ) (l : ι) : Prop := l ∈ (s t).held

/-- A thread is kept waiting for a lock. -/
def Waits (t : τ) (l : ι) : Prop := ∃ todo, (s t).todo = .lock l :: todo ∧ ¬ Available s t l

/-- Nothing is held, and there is nothing to do. -/
def idleThreads : τ → LockThread ι := fun _ => ⟨[], []⟩

/-- One step. -/
def lockStep [Fintype τ] [DecidableEq τ] (program : β → List (LockCode ι))
    (s : τ → LockThread ι) : LockMove τ β → Option (τ → LockThread ι)
  | .start t b =>
    if (s t).todo.isEmpty then some (update s t ⟨(s t).held, program b⟩) else none
  | .go t =>
    match (s t).todo with
    | [] => none
    | .lock l :: todo =>
      if Available s t l then some (update s t ⟨l :: (s t).held, todo⟩) else none
    | .unlock l :: todo => some (update s t ⟨(s t).held.erase l, todo⟩)

end System

/-! ### Orderly programs -/

section Orderly

variable {allows : ι → ι → Prop}

/-- What is locked is allowed under all that is held, or held itself; and it goes on from what
is held at first to what is held at last. -/
def Orderly (allows : ι → ι → Prop) : List ι → List (LockCode ι) → List ι → Prop
  | held, [], last => held = last
  | held, .lock l :: todo, last =>
    (l ∉ held → ∀ l' ∈ held, allows l' l) ∧ Orderly allows (l :: held) todo last
  | held, .unlock l :: todo, last => l ∈ held ∧ Orderly allows (held.erase l) todo last

theorem orderly_nil (held : List ι) : Orderly allows held [] held := rfl

variable {held : List ι} {l : ι}

/-- One thing after the other. -/
theorem Orderly.append {middle last : List ι} {todo todo' : List (LockCode ι)}
    (h : Orderly allows held todo middle) (h' : Orderly allows middle todo' last) :
    Orderly allows held (todo ++ todo') last := by
  induction todo generalizing held with
  | nil =>
    cases h
    exact h'
  | cons a todo ih =>
    cases a with
    | lock l => exact ⟨h.1, ih h.2⟩
    | unlock l => exact ⟨h.1, ih h.2⟩

/-- The same for each of some things. -/
theorem Orderly.flatMap {α : Type*} {f : α → List (LockCode ι)} (xs : List α)
    (h : ∀ x ∈ xs, Orderly allows held (f x) held) : Orderly allows held (xs.flatMap f) held := by
  induction xs with
  | nil => exact rfl
  | cons x xs ih =>
    rw [List.flatMap_cons]
    exact (h x List.mem_cons_self).append (ih fun y hy => h y (List.mem_cons_of_mem _ hy))

/-- What is done under a lock that is allowed. -/
theorem Orderly.locked {body : List (LockCode ι)} (hallows : l ∉ held → ∀ l' ∈ held, allows l' l)
    (h : Orderly allows (l :: held) body (l :: held)) :
    Orderly allows held (LockCode.locked l body) held := by
  refine ⟨hallows, h.append ⟨List.mem_cons_self, ?_⟩⟩
  rw [List.erase_cons_head]
  exact rfl

/-- A lock is taken again, by who has it. -/
theorem Orderly.relocked {body : List (LockCode ι)} (hmem : l ∈ held)
    (h : Orderly allows (l :: held) body (l :: held)) :
    Orderly allows held (LockCode.locked l body) held :=
  .locked (absurd hmem) h

/-- What is locked before a lock is given back, and not held by then. -/
def lockedUnder (l : ι) : List ι → List (LockCode ι) → List ι
  | _, [] => []
  | held, .lock l' :: todo =>
    if l ∈ held then
      if l' ∈ held then lockedUnder l (l' :: held) todo
      else l' :: lockedUnder l (l' :: held) todo
    else []
  | held, .unlock l' :: todo => if l ∈ held then lockedUnder l (held.erase l') todo else []

/-- Orderly programs take what is allowed. -/
theorem Orderly.allows_of_mem {last : List ι} {todo : List (LockCode ι)}
    (h : Orderly allows held todo last) {l' : ι} (hmem : l' ∈ lockedUnder l held todo) :
    allows l l' := by
  induction todo generalizing held with
  | nil => cases hmem
  | cons a todo ih =>
    cases a with
    | lock l₀ =>
      rw [lockedUnder] at hmem
      split at hmem
      · next hheld =>
        split at hmem
        · exact ih h.2 hmem
        · next hnew =>
          rcases List.mem_cons.mp hmem with rfl | hmem
          · exact h.1 hnew l hheld
          · exact ih h.2 hmem
      · cases hmem
    | unlock l₀ =>
      rw [lockedUnder] at hmem
      split at hmem
      · exact ih h.2 hmem
      · cases hmem

end Orderly

/-! ### The discipline -/

/-- A thread has a lock, and is to take another before it gives that back. -/
def IsToTake (s : τ → LockThread ι) (t : τ) (l l' : ι) : Prop :=
  l' ∈ lockedUnder l (s t).held (s t).todo

theorem IsToTake.mem_held {s : τ → LockThread ι} {t : τ} {l l' : ι} (h : IsToTake s t l l') :
    l ∈ (s t).held := by
  rw [IsToTake] at h
  by_contra hnot
  cases htodo : (s t).todo with
  | nil =>
    rw [htodo] at h
    cases h
  | cons a todo =>
    rw [htodo] at h
    cases a <;> rw [lockedUnder, if_neg hnot] at h <;> cases h

/-- Programs are orderly, and no two threads have one lock. -/
structure Disciplined (allows : ι → ι → Prop) (s : τ → LockThread ι) : Prop where
  orderly : ∀ t, Orderly allows (s t).held (s t).todo []
  exclusive : ∀ t t' l, l ∈ (s t).held → l ∈ (s t').held → t = t'

section Discipline

variable {allows : ι → ι → Prop} {s : τ → LockThread ι}

theorem disciplined_idleThreads : Disciplined allows (idleThreads : τ → LockThread ι) :=
  ⟨fun _ => rfl, fun _ _ _ hmem => absurd hmem List.not_mem_nil⟩

/-- One thread goes on. -/
theorem Disciplined.update [DecidableEq τ] (h : Disciplined allows s) {t : τ}
    {thread : LockThread ι} (horderly : Orderly allows thread.held thread.todo [])
    (hexclusive : ∀ l ∈ thread.held, ∀ t', l ∈ (s t').held → t' = t) :
    Disciplined allows (update s t thread) := by
  constructor
  · intro t'
    by_cases heq : t' = t
    · subst heq
      rw [update_self]
      exact horderly
    · rw [update_of_ne heq]
      exact h.orderly t'
  · intro t₁ t₂ l h₁ h₂
    by_cases heq₁ : t₁ = t
    · by_cases heq₂ : t₂ = t
      · exact heq₁.trans heq₂.symm
      · subst heq₁
        rw [update_self] at h₁
        rw [update_of_ne heq₂] at h₂
        exact (hexclusive l h₁ t₂ h₂).symm
    · rw [update_of_ne heq₁] at h₁
      by_cases heq₂ : t₂ = t
      · subst heq₂
        rw [update_self] at h₂
        exact hexclusive l h₂ t₁ h₁
      · rw [update_of_ne heq₂] at h₂
        exact h.exclusive t₁ t₂ l h₁ h₂

/-- **Orderly programs keep the discipline.** -/
theorem Disciplined.step [Fintype τ] [DecidableEq τ] {program : β → List (LockCode ι)}
    (hprogram : ∀ b, Orderly allows [] (program b) []) (h : Disciplined allows s)
    {a : LockMove τ β} {s' : τ → LockThread ι} (hstep : lockStep program s a = some s') :
    Disciplined allows s' := by
  cases a with
  | start t b =>
    rw [lockStep, Option.ite_none_right_eq_some] at hstep
    obtain ⟨hidle, ⟨⟩⟩ := hstep
    have horderly := h.orderly t
    rw [List.isEmpty_iff.mp hidle] at horderly
    have hnone : (s t).held = [] := horderly
    refine h.update ?_ fun l hl => ?_
    · rw [hnone]
      exact hprogram b
    · rw [hnone] at hl
      cases hl
  | go t =>
    have horderly := h.orderly t
    rw [lockStep] at hstep
    split at hstep
    · cases hstep
    · next l todo htodo =>
      rw [htodo] at horderly
      rw [Option.ite_none_right_eq_some] at hstep
      obtain ⟨havailable, ⟨⟩⟩ := hstep
      refine h.update horderly.2 fun l' hl' t' ht' => ?_
      rcases List.mem_cons.mp hl' with rfl | hl'
      · exact havailable t' ht'
      · exact h.exclusive t' t l' ht' hl'
    · next l todo htodo =>
      rw [htodo] at horderly
      cases hstep
      exact h.update horderly.2 fun l' hl' t' ht' =>
        h.exclusive t' t l' ht' (List.mem_of_mem_erase hl')

variable {t : τ} {l l' : ι}

/-- Nobody waits for what it has. -/
theorem Disciplined.not_holds_of_waits (h : Disciplined allows s) (hwaits : Waits s t l) :
    ¬ Holds s t l := by
  obtain ⟨todo, -, havailable⟩ := hwaits
  intro hholds
  exact havailable fun t' ht' => h.exclusive t' t l ht' hholds

/-- What a thread waits for it is to take under all that it has. -/
theorem Disciplined.isToTake_of_waits (h : Disciplined allows s) (hholds : Holds s t l)
    (hwaits : Waits s t l') : IsToTake s t l l' := by
  have hnot : l' ∉ (s t).held := h.not_holds_of_waits hwaits
  obtain ⟨todo, htodo, -⟩ := hwaits
  have hmem : l ∈ (s t).held := hholds
  rw [IsToTake, htodo, lockedUnder, if_pos hmem, if_neg hnot]
  exact List.mem_cons_self

theorem Disciplined.allows_of_isToTake (h : Disciplined allows s) (htake : IsToTake s t l l') :
    allows l l' :=
  (h.orderly t).allows_of_mem htake

/-- A thread waits for one lock at a time. -/
theorem waits_unique (h : Waits s t l) (h' : Waits s t l') : l = l' := by
  obtain ⟨todo, htodo, -⟩ := h
  obtain ⟨todo', htodo', -⟩ := h'
  rw [htodo, List.cons.injEq] at htodo'
  exact LockCode.lock.inj htodo'.1

omit [DecidableEq ι] in
/-- Who waits for whom can be told from what they are about to do. -/
theorem waitsFor_iff_head {t' : τ} : WaitsFor (Holds s) (Waits s) t t' ↔
    ∃ l ∈ (s t').held, (s t).todo.head? = some (.lock l) ∧ ¬ Available s t l := by
  constructor
  · rintro ⟨l, ⟨todo, htodo, havailable⟩, hholds⟩
    exact ⟨l, hholds, by rw [htodo]; rfl, havailable⟩
  · rintro ⟨l, hholds, htodo, havailable⟩
    obtain ⟨todo, htodo⟩ := List.head?_eq_some_iff.mp htodo
    exact ⟨l, ⟨todo, htodo, havailable⟩, hholds⟩

instance [Fintype τ] [DecidableEq τ] (t t' : τ) :
    Decidable (WaitsFor (Holds s) (Waits s) t t') :=
  decidable_of_iff _ waitsFor_iff_head.symm

/-! ### A lock that is out of order -/

/-- A lock comes after another, or is the same. -/
def NotBefore (rank : ι → ℕ) (l l' : ι) : Prop := l = l' ∨ rank l < rank l'

/-- **A lock that is out of order leaves no cycle.**  All others are taken in the order of their
ranks, and it comes last; but some threads take others under it, and nobody then is to take it
under one of these or what comes after them. -/
theorem not_transGen_of_apart (h : Disciplined allows s) (rank : ι → ℕ) (top : ι)
    (hrank : ∀ t l l', IsToTake s t l l' → l ≠ top → rank l < rank l')
    (hlast : ∀ l, rank l ≤ rank top)
    (hapart : ∀ t u l l', t ≠ u → IsToTake s t top l → IsToTake s u l' top →
      ¬ NotBefore rank l l') (t : τ) :
    ¬ Relation.TransGen (WaitsFor (Holds s) (Waits s)) t t := by
  by_cases hdown : ∃ t₀ l₀, Holds s t₀ top ∧ Waits s t₀ l₀
  · -- `t₀` waits for `l₀`: that and all after it are put after `top`
    obtain ⟨t₀, l₀, hholds₀, hwaits₀⟩ := hdown
    classical
    refine not_transGen_waitsFor (fun l =>
      if l = top then rank top + 1
      else if NotBefore rank l₀ l then rank top + 2 + rank l else rank l) ?_ t
    intro u l l' hholds _ hwaits
    have htake := h.isToTake_of_waits hholds hwaits
    have hne : l ≠ l' := by
      rintro rfl
      exact h.not_holds_of_waits hwaits hholds
    by_cases hl : l = top
    · -- only `t₀` has `top`
      subst hl
      obtain rfl := h.exclusive u t₀ l hholds hholds₀
      obtain rfl := waits_unique hwaits hwaits₀
      have hafter : NotBefore rank l' l' := .inl rfl
      rw [if_pos rfl, if_neg (Ne.symm hne), if_pos hafter]
      omega
    · have hlt := hrank u l l' htake hl
      rw [if_neg hl]
      by_cases hl' : l' = top
      · subst hl'
        have hother : t₀ ≠ u := by
          rintro rfl
          exact h.not_holds_of_waits hwaits hholds₀
        have hbefore := hapart t₀ u l₀ l hother (h.isToTake_of_waits hholds₀ hwaits₀) htake
        rw [if_neg hbefore, if_pos rfl]
        omega
      · rw [if_neg hl']
        by_cases hafter : NotBefore rank l₀ l
        · have hafter' : NotBefore rank l₀ l' := by
            rcases hafter with rfl | hafter
            · exact .inr hlt
            · exact .inr (hafter.trans hlt)
          rw [if_pos hafter, if_pos hafter']
          omega
        · have hle := hlast l
          rw [if_neg hafter]
          split <;> omega
  · -- who has `top` does not wait
    refine not_transGen_waitsFor rank (fun u l l' hholds _ hwaits => ?_) t
    refine hrank u l l' (h.isToTake_of_waits hholds hwaits) ?_
    rintro rfl
    exact hdown ⟨u, l', hholds, hwaits⟩

end Discipline

end Mutgos
