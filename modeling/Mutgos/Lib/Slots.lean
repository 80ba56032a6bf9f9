import Mathlib.Data.List.Nodup
import Mutgos.Lib.SortedMap

/-!
# Named slots

A list of slots with a name each, whose contents are replaced in place, and how many of
them have contents of some kind.

## Main results

* `Slots.mem_set_iff`, `Slots.count_set` — the slots afterwards.
-/

namespace Mutgos

open List

namespace Slots

variable {ρ ν : Type*}

/-- How many slots have contents of a kind. -/
def count (p : ν → Bool) (m : List (ρ × ν)) : ℕ := m.countP fun slot => p slot.2

@[simp] theorem count_cons (p : ν → Bool) (slot : ρ × ν) (m : List (ρ × ν)) :
    count p (slot :: m) = count p m + if p slot.2 then 1 else 0 := countP_cons ..

theorem count_eq_zero {p : ν → Bool} {m : List (ρ × ν)} :
    count p m = 0 ↔ ∀ r v, (r, v) ∈ m → p v = false := by
  rw [count, countP_eq_zero]
  constructor
  · intro h r v hv
    simpa using h _ hv
  · intro h slot hslot
    simpa using h slot.1 slot.2 hslot

section Set

variable [DecidableEq ρ]

/-- The slot gets new contents. -/
def set (r : ρ) (v : ν) (m : List (ρ × ν)) : List (ρ × ν) :=
  m.map fun slot => if slot.1 = r then (r, v) else slot

/-- The names stay. -/
@[simp] theorem map_fst_set (r : ρ) (v : ν) (m : List (ρ × ν)) :
    (set r v m).map Prod.fst = m.map Prod.fst := by
  rw [set, map_map]
  refine map_congr_left fun slot _ => ?_
  rw [Function.comp_apply]
  split
  · rename_i h
    exact h.symm
  · rfl

variable {r : ρ} {m : List (ρ × ν)}

theorem mem_set_iff {r' : ρ} {v v' : ν} :
    (r', v') ∈ set r v m ↔ r' = r ∧ v' = v ∧ r ∈ m.map Prod.fst ∨ r' ≠ r ∧ (r', v') ∈ m := by
  rw [set, mem_map]
  constructor
  · rintro ⟨slot, hslot, heq⟩
    split at heq
    · rename_i h
      cases heq
      exact .inl ⟨rfl, rfl, mem_map.mpr ⟨slot, hslot, h⟩⟩
    · rename_i h
      subst heq
      exact .inr ⟨h, hslot⟩
  · rintro (⟨rfl, rfl, hr⟩ | ⟨hne, hslot⟩)
    · obtain ⟨slot, hslot, h⟩ := mem_map.mp hr
      exact ⟨slot, hslot, if_pos h⟩
    · exact ⟨(r', v'), hslot, if_neg hne⟩

/-- Slots of other names. -/
theorem set_of_notMem {v : ν} (h : r ∉ m.map Prod.fst) : set r v m = m := by
  refine (map_congr_left fun slot hslot => if_neg fun heq => ?_).trans (map_id m)
  exact h (mem_map.mpr ⟨slot, hslot, heq⟩)

/-- A slot with new contents: it counts as what it has, and no longer as what it had. -/
theorem count_set (p : ν → Bool) {old : ν} (v : ν) (hnodup : (m.map Prod.fst).Nodup)
    (hold : (r, old) ∈ m) :
    count p (set r v m) + (if p old then 1 else 0) = count p m + if p v then 1 else 0 := by
  induction m with
  | nil => cases hold
  | cons slot m ih =>
    obtain ⟨hslot, hnodup⟩ := nodup_cons.mp hnodup
    rcases mem_cons.mp hold with rfl | hold
    · have hset : set r v ((r, old) :: m) = (r, v) :: m := by
        rw [set, map_cons, if_pos rfl]
        exact congrArg _ (set_of_notMem hslot)
      rw [hset, count_cons, count_cons]
      dsimp only
      omega
    · have hne : slot.1 ≠ r := fun heq => hslot (heq ▸ mem_map.mpr ⟨_, hold, rfl⟩)
      have hset : set r v (slot :: m) = slot :: set r v m := by
        rw [set, map_cons, if_neg hne]
        rfl
      have hrest := ih hnodup hold
      rw [hset, count_cons, count_cons]
      omega

/-- A slot that does not count is taken away. -/
theorem count_erase (p : ν → Bool) (h : ∀ v, (r, v) ∈ m → p v = false) :
    count p (SortedMap.erase r m) = count p m := by
  induction m with
  | nil => rfl
  | cons slot m ih =>
    obtain ⟨r', v'⟩ := slot
    have hrest := ih fun v hv => h v (mem_cons_of_mem _ hv)
    rw [SortedMap.erase, count_cons]
    split
    · rename_i heq
      have hout := h v' (heq ▸ mem_cons_self)
      simp [hrest, hout]
    · rw [count_cons, hrest]

end Set

end Slots

end Mutgos
