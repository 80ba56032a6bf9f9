import Mathlib.Data.List.Perm.Basic
import Mathlib.Order.Lattice

/-!
# Ordered multimaps

A multimap as the list of its entries in key order.  Inserting puts an entry
behind the entries of the same key, where an ordered multimap of the C++ library
puts it.

## Main results

* `MultiMap.insert_perm` — inserting adds exactly the one entry.
-/

namespace Mutgos

/-- The entries of an ordered multimap, first to last. -/
abbrev MultiMap (κ ν : Type*) := List (κ × ν)

namespace MultiMap

variable {κ ν : Type*} [LinearOrder κ]

/-- Insert at the upper bound of the key. -/
def insert (k : κ) (v : ν) : MultiMap κ ν → MultiMap κ ν
  | [] => [(k, v)]
  | e :: m => if k < e.1 then (k, v) :: e :: m else e :: insert k v m

/-- The entries stand in key order. -/
def Sorted (m : MultiMap κ ν) : Prop := m.Pairwise fun a b => a.1 ≤ b.1

theorem insert_perm (k : κ) (v : ν) (m : MultiMap κ ν) : (insert k v m).Perm ((k, v) :: m) := by
  induction m with
  | nil => rfl
  | cons e m ih =>
    rw [insert]
    split
    · rfl
    · exact (ih.cons e).trans (List.Perm.swap _ _ _)

theorem Sorted.insert {m : MultiMap κ ν} (h : Sorted m) (k : κ) (v : ν) :
    Sorted (MultiMap.insert k v m) := by
  induction m with
  | nil => exact List.pairwise_singleton _ _
  | cons e m ih =>
    obtain ⟨he, hm⟩ := List.pairwise_cons.mp h
    rw [MultiMap.insert]
    split
    · next hlt =>
      refine List.pairwise_cons.mpr ⟨?_, h⟩
      intro x hx
      rcases List.mem_cons.mp hx with rfl | hx
      · exact hlt.le
      · exact hlt.le.trans (he x hx)
    · next hge =>
      refine List.pairwise_cons.mpr ⟨?_, ih hm⟩
      intro x hx
      rcases List.mem_cons.mp ((insert_perm k v m).mem_iff.mp hx) with rfl | hx
      · exact not_lt.mp hge
      · exact he x hx

end MultiMap

end Mutgos
