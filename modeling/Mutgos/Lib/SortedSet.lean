import Mathlib.Data.List.Nodup
import Mathlib.Order.RelClasses

/-!
# Ordered sets as lists

A set whose elements are gone through in order, as the list of them.

## Main results

* `mem_insert`, `Sorted.mem_erase` — what is in the set afterwards.
-/

namespace Mutgos.SortedSet

variable {κ : Type*} [LT κ]

/-- The elements are in order, and so each of them is there once. -/
def Sorted (s : List κ) : Prop := s.Pairwise (· < ·)

/-- An element is put where it belongs. -/
def insert [DecidableEq κ] [DecidableLT κ] (k : κ) : List κ → List κ
  | [] => [k]
  | k₀ :: s => if k = k₀ then k₀ :: s else if k < k₀ then k :: k₀ :: s else k₀ :: insert k s

/-- An element is taken out. -/
def erase [DecidableEq κ] (k : κ) (s : List κ) : List κ := s.erase k

variable {s : List κ} {k k' : κ}

theorem sorted_nil : Sorted ([] : List κ) := .nil

theorem mem_insert [DecidableEq κ] [DecidableLT κ] : k' ∈ insert k s ↔ k' = k ∨ k' ∈ s := by
  induction s with
  | nil => simp [insert]
  | cons k₀ s ih =>
    rw [insert]
    split
    · next heq =>
      subst heq
      simp
    · split
      · exact List.mem_cons
      · rw [List.mem_cons, ih, List.mem_cons]
        exact or_left_comm

theorem insert_ne_nil [DecidableEq κ] [DecidableLT κ] : insert k s ≠ [] :=
  List.ne_nil_of_mem (mem_insert.mpr (Or.inl rfl))

theorem Sorted.erase [DecidableEq κ] (h : Sorted s) (k : κ) : Sorted (erase k s) :=
  h.sublist List.erase_sublist

variable [IsStrictTotalOrder κ (· < ·)]

theorem Sorted.nodup (h : Sorted s) : s.Nodup := by
  refine List.Pairwise.imp ?_ h
  rintro k k' hlt rfl
  exact irrefl_of (· < ·) k hlt

theorem Sorted.mem_erase [DecidableEq κ] (h : Sorted s) :
    k' ∈ SortedSet.erase k s ↔ k' ≠ k ∧ k' ∈ s :=
  h.nodup.mem_erase_iff

theorem Sorted.insert [DecidableEq κ] [DecidableLT κ] (h : Sorted s) (k : κ) :
    Sorted (insert k s) := by
  induction s with
  | nil => exact List.pairwise_singleton _ _
  | cons k₀ s ih =>
    have hcons := List.pairwise_cons.mp h
    rw [SortedSet.insert]
    split
    · exact h
    · next hne =>
      split
      · next hlt =>
        refine List.pairwise_cons.mpr ⟨fun k' hk' => ?_, h⟩
        rcases List.mem_cons.mp hk' with rfl | hk'
        · exact hlt
        · exact trans_of (· < ·) hlt (hcons.1 k' hk')
      · next hnlt =>
        refine List.pairwise_cons.mpr ⟨fun k' hk' => ?_, ih hcons.2⟩
        rcases mem_insert.mp hk' with rfl | hk'
        · exact (trichotomous_of (· < ·) k' k₀).resolve_left hnlt |>.resolve_left hne
        · exact hcons.1 k' hk'

end Mutgos.SortedSet
