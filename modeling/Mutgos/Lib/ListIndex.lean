import Mutgos.Lib.SortedMap
import Mutgos.Lib.VectorSet

/-!
# Indexes with lists

A map from keys to lists, in which an element may be listed under several keys, and
several times under one.  A list is made when something is put into it, and removed when
the last element goes.

## Main results

* `count_pushAll`, `count_removeAll` — **how often an element is listed** afterwards.
-/

namespace Mutgos

/-- A map from keys to lists. -/
abbrev ListIndex (κ α : Type*) := List (κ × List α)

namespace ListIndex

variable {κ α : Type*} [DecidableEq κ]

/-- The list of a key, which is empty if there is none. -/
def listAt (index : ListIndex κ α) (k : κ) : List α := (SortedMap.find k index).getD []

/-- An element is put at the end of a list. -/
def push (index : ListIndex κ α) (k : κ) (x : α) : ListIndex κ α :=
  (k, index.listAt k ++ [x]) :: SortedMap.erase k index

/-- A list is changed, and removed if it becomes empty. -/
def update (index : ListIndex κ α) (k : κ) (f : List α → List α) : ListIndex κ α :=
  match SortedMap.find k index with
  | none => index
  | some l =>
    if (f l).isEmpty then SortedMap.erase k index else (k, f l) :: SortedMap.erase k index

/-- An element is put at the end of the lists of several keys. -/
def pushAll (index : ListIndex κ α) (ks : List κ) (x : α) : ListIndex κ α :=
  ks.foldl (fun index k => index.push k x) index

@[simp] theorem listAt_nil (k : κ) : listAt ([] : ListIndex κ α) k = [] := rfl

theorem listAt_cons_erase (index : ListIndex κ α) (k k' : κ) (l : List α) :
    listAt ((k, l) :: SortedMap.erase k index) k' = if k' = k then l else index.listAt k' := by
  rw [listAt, SortedMap.find, SortedMap.find_erase]
  split <;> rfl

theorem listAt_erase (index : ListIndex κ α) (k k' : κ) :
    listAt (SortedMap.erase k index) k' = if k' = k then [] else index.listAt k' := by
  rw [listAt, SortedMap.find_erase]
  split <;> rfl

theorem listAt_push (index : ListIndex κ α) (k k' : κ) (x : α) :
    (index.push k x).listAt k' =
      if k' = k then index.listAt k ++ [x] else index.listAt k' :=
  listAt_cons_erase index k k' _

/-- Nothing becomes of a list that there is not. -/
theorem listAt_update {f : List α → List α} (hf : f [] = []) (index : ListIndex κ α) (k k' : κ) :
    (index.update k f).listAt k' = if k' = k then f (index.listAt k) else index.listAt k' := by
  rw [update]
  cases hfind : SortedMap.find k index with
  | none =>
    have hnone : index.listAt k = [] := by simp [listAt, hfind]
    dsimp only
    by_cases hk : k' = k
    · rw [if_pos hk, hk, hnone, hf]
    · rw [if_neg hk]
  | some l =>
    have hsome : index.listAt k = l := by simp [listAt, hfind]
    rw [hsome]
    dsimp only
    split
    · next hempty => rw [listAt_erase, List.isEmpty_iff.mp hempty]
    · exact listAt_cons_erase index k k' _

section Counts

variable [DecidableEq α]

/-- An element is removed from a list. -/
def remove (index : ListIndex κ α) (k : κ) (x : α) : ListIndex κ α :=
  index.update k (VectorSet.swapRemove x)

/-- An element is removed from the lists of several keys. -/
def removeAll (index : ListIndex κ α) (ks : List κ) (x : α) : ListIndex κ α :=
  ks.foldl (fun index k => index.remove k x) index

theorem count_push (index : ListIndex κ α) (k k' : κ) (x y : α) :
    ((index.push k x).listAt k').count y =
      (index.listAt k').count y + if k' = k ∧ y = x then 1 else 0 := by
  rw [listAt_push]
  by_cases hk : k' = k
  · subst hk
    by_cases hy : y = x
    · simp [hy]
    · simp [hy, Ne.symm hy]
  · simp [hk]

theorem count_remove (index : ListIndex κ α) (k k' : κ) (x y : α) :
    ((index.remove k x).listAt k').count y =
      (index.listAt k').count y - if k' = k ∧ y = x then 1 else 0 := by
  rw [remove, listAt_update (by simp [VectorSet.swapRemove])]
  by_cases hk : k' = k
  · subst hk
    rw [if_pos rfl, (VectorSet.swapRemove_perm x _).count_eq, List.count_erase]
    by_cases hy : y = x
    · simp [hy]
    · simp [hy, Ne.symm hy]
  · simp [hk]

/-- **How often an element is listed** after it has been put into lists. -/
theorem count_pushAll (index : ListIndex κ α) (ks : List κ) (k : κ) (x y : α) :
    ((index.pushAll ks x).listAt k).count y =
      (index.listAt k).count y + if y = x then ks.count k else 0 := by
  induction ks generalizing index with
  | nil => simp [pushAll]
  | cons k₀ ks ih =>
    rw [pushAll, List.foldl_cons, ← pushAll, ih, count_push, List.count_cons]
    by_cases hy : y = x
    · by_cases hk : k = k₀
      · subst hk
        simp [hy]
        omega
      · simp [hy, hk, Ne.symm hk]
    · simp [hy]

/-- **How often an element is listed** after it has been removed from lists. -/
theorem count_removeAll (index : ListIndex κ α) (ks : List κ) (k : κ) (x y : α) :
    ((index.removeAll ks x).listAt k).count y =
      (index.listAt k).count y - if y = x then ks.count k else 0 := by
  induction ks generalizing index with
  | nil => simp [removeAll]
  | cons k₀ ks ih =>
    rw [removeAll, List.foldl_cons, ← removeAll, ih, count_remove, List.count_cons]
    by_cases hy : y = x
    · by_cases hk : k = k₀
      · subst hk
        simp [hy]
        omega
      · simp [hy, hk, Ne.symm hk]
    · simp [hy]

end Counts

end ListIndex

end Mutgos
