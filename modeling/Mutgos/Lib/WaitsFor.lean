import Mathlib.Logic.Relation
import Mathlib.Order.Basic

/-!
# Threads that wait for each other

A thread waits for another when it waits for a lock that the other holds.  Where every
thread waits only for locks above those that others wait for it to give back, nobody waits
for itself, not even by way of others.

## Main results

* `not_transGen_waitsFor` — **a lock order leaves no cycle.**
-/

namespace Mutgos

variable {τ ι ρ : Type*}

/-- A thread waits for a lock that the other holds. -/
def WaitsFor (holds waits : τ → ι → Prop) (t t' : τ) : Prop := ∃ l, waits t l ∧ holds t' l

variable {holds waits : τ → ι → Prop}

/-- Along a chain of threads the locks they wait for rise. -/
theorem exists_of_transGen_waitsFor [Preorder ρ] {rank : ι → ρ}
    (hrank : ∀ t l l', holds t l → (∃ t', waits t' l) → waits t l' → rank l < rank l')
    {t t' : τ} (h : Relation.TransGen (WaitsFor holds waits) t t') :
    ∃ l l', waits t l ∧ holds t' l' ∧ (∃ u, waits u l') ∧ rank l ≤ rank l' := by
  induction h with
  | single hfirst =>
    obtain ⟨l, hwaits, hholds⟩ := hfirst
    exact ⟨l, l, hwaits, hholds, ⟨t, hwaits⟩, le_rfl⟩
  | tail _ hlast ih =>
    obtain ⟨l, l', hwaits, hholds, hcontended, hle⟩ := ih
    obtain ⟨m, hwaits', hholds'⟩ := hlast
    have hlt := hrank _ l' m hholds hcontended hwaits'
    exact ⟨l, m, hwaits, hholds', ⟨_, hwaits'⟩, hle.trans hlt.le⟩

/-- **A lock order leaves no cycle.** -/
theorem not_transGen_waitsFor [Preorder ρ] (rank : ι → ρ)
    (hrank : ∀ t l l', holds t l → (∃ t', waits t' l) → waits t l' → rank l < rank l') (t : τ) :
    ¬ Relation.TransGen (WaitsFor holds waits) t t := by
  intro h
  obtain ⟨l, l', hwaits, hholds, hcontended, hle⟩ := exists_of_transGen_waitsFor hrank h
  exact lt_irrefl _ ((hrank t l' l hholds hcontended hwaits).trans_le hle)

end Mutgos
