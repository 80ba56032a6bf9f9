import Mathlib.Data.List.Basic
import Mathlib.Data.List.Induction
import Mathlib.Logic.Relation

/-!
# Partial transition systems

A system is a partial step function `step : σ → α → Option σ`: a state, a label,
and the state afterwards, or `none` where the label is not enabled.  Runs are
lists of labels.  A *guard* `ok : σ → α → Prop` says which labels a run may use
in which state, so that one invariant rule serves both unrestricted runs (a
guard that is always true) and runs that keep to a discipline.

## Main results

* `Reachable.invariant` — **the invariant rule**: what holds initially and is
  preserved by every allowed step holds in every reachable state.
-/

namespace Mutgos

variable {σ α : Type*}

/-- The state after the labels `as`, if every one of them is enabled in turn. -/
def run (step : σ → α → Option σ) : σ → List α → Option σ
  | s, [] => some s
  | s, a :: as => (step s a).bind fun s' => run step s' as

/-- `Steps step ok s as s'`: the labels `as` lead from `s` to `s'`, and the guard
`ok` allows each of them in the state where it is used. -/
inductive Steps (step : σ → α → Option σ) (ok : σ → α → Prop) : σ → List α → σ → Prop
  | nil (s : σ) : Steps step ok s [] s
  | cons {s s' s'' : σ} {a : α} {as : List α} (hok : ok s a) (hstep : step s a = some s')
      (hrest : Steps step ok s' as s'') : Steps step ok s (a :: as) s''

/-- The states some guarded run leads to from `s₀`. -/
inductive Reachable (step : σ → α → Option σ) (ok : σ → α → Prop) (s₀ : σ) : σ → Prop
  | init : Reachable step ok s₀ s₀
  | step {s s' : σ} {a : α} (hs : Reachable step ok s₀ s) (hok : ok s a)
      (hstep : step s a = some s') : Reachable step ok s₀ s'

section Rules

variable {step : σ → α → Option σ} {ok : σ → α → Prop} {s₀ s s' : σ} {I : σ → Prop} {as : List α}

/-- **The invariant rule.** -/
theorem Reachable.invariant (h : Reachable step ok s₀ s) (hinit : I s₀)
    (hpres : ∀ s a s', I s → ok s a → step s a = some s' → I s') : I s := by
  induction h with
  | init => exact hinit
  | step _ hok hstep ih => exact hpres _ _ _ ih hok hstep

/-- The invariant rule along one run. -/
theorem Steps.invariant (h : Steps step ok s as s') (hs : I s)
    (hpres : ∀ s a s', I s → ok s a → step s a = some s' → I s') : I s' := by
  induction h with
  | nil => exact hs
  | cons hok hstep _ ih => exact ih (hpres _ _ _ hs hok hstep)

/-- A run from a reachable state ends in a reachable state. -/
theorem Reachable.steps (h : Reachable step ok s₀ s) (hrun : Steps step ok s as s') :
    Reachable step ok s₀ s' := by
  induction hrun with
  | nil => exact h
  | cons hok hstep _ ih => exact ih (.step h hok hstep)

/-- A run over `as ++ bs` passes through a state after `as`. -/
theorem Steps.split {s'' : σ} : ∀ {as bs : List α}, Steps step ok s (as ++ bs) s'' →
    ∃ s', Steps step ok s as s' ∧ Steps step ok s' bs s'' := by
  intro as
  induction as generalizing s with
  | nil => intro bs h; exact ⟨s, .nil s, h⟩
  | cons a as ih =>
    intro bs h
    cases h with
    | cons hok hstep hrest =>
      obtain ⟨s', h₁, h₂⟩ := ih hrest
      exact ⟨s', .cons hok hstep h₁, h₂⟩

/-- What `run` computes is a run that keeps to any guard that allows its labels. -/
theorem steps_of_run (h : run step s as = some s') (hok : ∀ s, ∀ a ∈ as, ok s a) :
    Steps step ok s as s' := by
  induction as generalizing s with
  | nil =>
    rw [run, Option.some.injEq] at h
    exact h ▸ .nil s
  | cons a as ih =>
    rw [run, Option.bind_eq_some_iff] at h
    obtain ⟨t, ht, hrest⟩ := h
    refine .cons (hok s a List.mem_cons_self) ht (ih hrest ?_)
    intro u b hb
    exact hok u b (List.mem_cons_of_mem a hb)

/-- A run that keeps to a guard is what `run` computes. -/
theorem Steps.run_eq (h : Steps step ok s as s') : run step s as = some s' := by
  induction h with
  | nil => rfl
  | cons _ hstep _ ih => rw [run, hstep, Option.bind_some, ih]

/-- Where a step beside the guard leads out of `I`, a run that stays in `I` keeps to
the guard. -/
theorem steps_of_forall_prefix (hok : ∀ s a s', step s a = some s' → I s' → ok s a)
    (h : run step s as = some s') (hI : ∀ bs cs u, as = bs ++ cs → run step s bs = some u → I u) :
    Steps step ok s as s' := by
  induction as generalizing s with
  | nil =>
    rw [run, Option.some.injEq] at h
    exact h ▸ .nil s
  | cons a as ih =>
    rw [run, Option.bind_eq_some_iff] at h
    obtain ⟨t, ht, hrest⟩ := h
    refine .cons (hok s a t ht (hI [a] as t rfl (by simp [run, ht]))) ht (ih hrest ?_)
    intro bs cs u has hrun
    exact hI (a :: bs) cs u (by rw [has, List.cons_append]) (by simp [run, ht, hrun])

/-- A run that keeps to a guard has kept to it at each of its steps. -/
theorem Steps.middle {bs : List α} {a : α} (h : Steps step ok s (as ++ a :: bs) s') :
    ∃ t t', Steps step ok s as t ∧ ok t a ∧ step t a = some t' := by
  obtain ⟨t, hfirst, hrest⟩ := h.split
  cases hrest with
  | cons hok hstep _ => exact ⟨t, _, hfirst, hok, hstep⟩

/-- **Exactly the runs that keep to a guard.**  `I` holds at the start and along the guard,
a step that the guard allows has the property `P`, and one that it does not allow has not. -/
theorem steps_iff_forall_step {P : σ → α → σ → Prop}
    (hpres : ∀ s a s', I s → ok s a → step s a = some s' → I s' ∧ P s a s')
    (hbreak : ∀ s a s', I s → step s a = some s' → P s a s' → ok s a) (hs : I s)
    (h : run step s as = some s') :
    (∀ bs a cs t t', as = bs ++ a :: cs → run step s bs = some t → step t a = some t' →
      P t a t') ↔ Steps step ok s as s' := by
  constructor
  · intro hP
    induction as generalizing s with
    | nil =>
      rw [run, Option.some.injEq] at h
      exact h ▸ .nil s
    | cons a as ih =>
      rw [run, Option.bind_eq_some_iff] at h
      obtain ⟨t, ht, hrest⟩ := h
      have hok : ok s a := hbreak s a t hs ht (hP [] a as s t rfl rfl ht)
      refine .cons hok ht (ih (hpres s a t hs hok ht).1 hrest ?_)
      intro bs b cs u u' has hrun hu
      exact hP (a :: bs) b cs u u' (by rw [has, List.cons_append]) (by simp [run, ht, hrun]) hu
  · rintro hsteps bs a cs t t' rfl hrun ht
    obtain ⟨u, u', hfirst, hok, hu⟩ := hsteps.middle
    have hut : u = t := Option.some.inj (hfirst.run_eq.symm.trans hrun)
    have hut' : u' = t' := Option.some.inj (hu.symm.trans (hut ▸ ht))
    subst hut hut'
    have hI : I u := hfirst.invariant hs fun c b c' hc hok hc' => (hpres c b c' hc hok hc').1
    exact (hpres u a u' hI hok hu).2

/-- The steps that the guard allows. -/
def guarded (step : σ → α → Option σ) (ok : σ → α → Prop) [∀ s a, Decidable (ok s a)] (s : σ)
    (a : α) : Option σ :=
  if ok s a then step s a else none

/-- A run can be computed together with its guard. -/
theorem steps_of_run_guarded [∀ s a, Decidable (ok s a)]
    (h : run (guarded step ok) s as = some s') : Steps step ok s as s' := by
  induction as generalizing s with
  | nil =>
    rw [run, Option.some.injEq] at h
    exact h ▸ .nil s
  | cons a as ih =>
    rw [run, Option.bind_eq_some_iff] at h
    obtain ⟨t, ht, hrest⟩ := h
    rw [guarded, Option.ite_none_right_eq_some] at ht
    exact .cons ht.1 ht.2 (ih hrest)

theorem reachable_of_run_guarded [∀ s a, Decidable (ok s a)] (hs : Reachable step ok s₀ s)
    (h : run (guarded step ok) s as = some s') :
    Reachable step ok s₀ s' := hs.steps (steps_of_run_guarded h)

end Rules

/-- **Exactly the runs whose steps all meet a condition** stay in `I`, where every label is
enabled and the condition says which steps do not lead out of `I`. -/
theorem forall_foldl_iff {step : σ → α → σ} {I : σ → Prop} {ok : σ → α → Prop}
    (hstep : ∀ s a, I s → (I (step s a) ↔ ok s a)) {s : σ} (hs : I s) (as : List α) :
    (∀ bs cs, as = bs ++ cs → I (bs.foldl step s)) ↔
      ∀ bs a cs, as = bs ++ a :: cs → ok (bs.foldl step s) a := by
  constructor
  · rintro h bs a cs rfl
    have hafter := h (bs ++ [a]) cs (by simp)
    rw [List.foldl_append] at hafter
    exact (hstep _ a (h bs (a :: cs) rfl)).mp hafter
  · intro h bs
    induction bs using List.reverseRecOn with
    | nil =>
      intro cs _
      exact hs
    | append_singleton bs a ih =>
      rintro cs rfl
      have hbefore := ih (a :: cs) (by simp)
      rw [List.foldl_append]
      exact (hstep _ a hbefore).mpr (h bs a cs (by simp))

/-- A loop of operations, each of which may have no result, keeps what each of
them keeps. -/
theorem foldlM_invariant {f : σ → α → Option σ} {I : σ → Prop}
    (hf : ∀ s a s', I s → f s a = some s' → I s') :
    ∀ (as : List α) (s s' : σ), I s → as.foldlM f s = some s' → I s' := by
  intro as
  induction as with
  | nil => rintro s s' hs ⟨⟩; exact hs
  | cons a as ih =>
    intro s s' hs h
    rw [List.foldlM_cons, Option.bind_eq_bind, Option.bind_eq_some_iff] at h
    obtain ⟨t, ht, hrest⟩ := h
    exact ih t s' (hf s a t hs ht) hrest

end Mutgos
