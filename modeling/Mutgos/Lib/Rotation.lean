import Mathlib.Algebra.Order.Group.Nat
import Mathlib.Logic.Function.Iterate
import Mathlib.Order.Interval.Finset.Nat

/-!
# Counters that wrap around

A counter that hands out numbers from 1 on and goes back to 1 before it reaches `max` walks
round the numbers below `max`: from wherever it stands it comes to each of them, within
`max - 1` steps, and to no other.

## Main results

* `exists_iterate_wrapNext` — **it comes to every number in its range.**
-/

namespace Mutgos

/-- The number after `n`, going back to 1 at `max`. -/
def wrapNext (max n : ℕ) : ℕ := if max ≤ n + 1 then 1 else n + 1

variable {max n : ℕ}

theorem wrapNext_range (hmax : 1 < max) : 0 < wrapNext max n ∧ wrapNext max n < max := by
  unfold wrapNext
  split <;> omega

/-- **After `k` steps.**  By induction on `k`: the last step either stays below `max` or comes
back to 1, and so does the remainder. -/
theorem wrapNext_iterate (hn : 0 < n ∧ n < max) (k : ℕ) :
    (wrapNext max)^[k] n = (n - 1 + k) % (max - 1) + 1 := by
  obtain ⟨hpos, hlt⟩ := hn
  induction k with
  | zero =>
    have hsmall : n - 1 < max - 1 := by omega
    show n = (n - 1) % (max - 1) + 1
    rw [Nat.mod_eq_of_lt hsmall]
    omega
  | succ k ih =>
    have hbound : (n - 1 + k) % (max - 1) < max - 1 := Nat.mod_lt _ (by omega)
    have hmod : (n - 1 + (k + 1)) % (max - 1) = ((n - 1 + k) % (max - 1) + 1) % (max - 1) :=
      (Nat.mod_add_mod (n - 1 + k) (max - 1) 1).symm
    rw [Function.iterate_succ_apply', ih, hmod, wrapNext]
    split
    · next hlast =>
      have heq : (n - 1 + k) % (max - 1) + 1 = max - 1 := by omega
      rw [heq, Nat.mod_self]
    · next hinside =>
      have hnext : (n - 1 + k) % (max - 1) + 1 < max - 1 := by omega
      rw [Nat.mod_eq_of_lt hnext]

theorem iterate_wrapNext_range (hn : 0 < n ∧ n < max) (k : ℕ) :
    0 < (wrapNext max)^[k] n ∧ (wrapNext max)^[k] n < max := by
  have hbound : (n - 1 + k) % (max - 1) < max - 1 := Nat.mod_lt _ (by omega)
  rw [wrapNext_iterate hn]
  omega

/-- **The counter comes to every number in its range**: forwards to it, or past the end and
then to it. -/
theorem exists_iterate_wrapNext (hn : 0 < n ∧ n < max) {m : ℕ} (hm : 0 < m ∧ m < max) :
    ∃ k < max - 1, (wrapNext max)^[k] n = m := by
  rcases Nat.lt_or_ge m n with hbehind | hahead
  · refine ⟨max - 1 - (n - m), by omega, ?_⟩
    have hsum : n - 1 + (max - 1 - (n - m)) = m - 1 + (max - 1) := by omega
    rw [wrapNext_iterate hn, hsum, Nat.add_mod_right, Nat.mod_eq_of_lt (by omega)]
    omega
  · refine ⟨m - n, by omega, ?_⟩
    have hsum : n - 1 + (m - n) = m - 1 := by omega
    rw [wrapNext_iterate hn, hsum, Nat.mod_eq_of_lt (by omega)]
    omega

/-- Numbers in the range take up all of it exactly if there are `max - 1` of them. -/
theorem forall_mem_iff_card {used : Finset ℕ} (h : ∀ m ∈ used, 0 < m ∧ m < max) :
    (∀ m, 0 < m → m < max → m ∈ used) ↔ used.card = max - 1 := by
  have hsubset : used ⊆ Finset.Ico 1 max := by
    intro m hm
    rw [Finset.mem_Ico]
    exact h m hm
  constructor
  · intro hall
    have heq : used = Finset.Ico 1 max := by
      refine Finset.Subset.antisymm hsubset fun m hm => ?_
      rw [Finset.mem_Ico] at hm
      exact hall m hm.1 hm.2
    rw [heq, Nat.card_Ico]
  · intro hcard m hpos hlt
    have heq : used = Finset.Ico 1 max :=
      Finset.eq_of_subset_of_card_le hsubset (by rw [Nat.card_Ico, hcard])
    rw [heq, Finset.mem_Ico]
    exact ⟨hpos, hlt⟩

end Mutgos
