import Mathlib.Data.List.Nodup
import Mathlib.Data.List.Perm.Basic

/-!
# Vectors as sets

A vector that holds each element once serves as a set: an element is appended
unless it is there, and removed by putting the last one in its place.

Two vectors are compared by taking out of both, one by one, what they have in
common.  What is left over on either side is counted here, whether or not the
vectors hold each element once.

## Main results

* `swapRemove_perm` — up to order, removal is removal.
-/

namespace Mutgos

open List

namespace VectorSet

variable {α : Type*} [DecidableEq α]

/-- Append an element unless it is there. -/
def pushNew (x : α) (l : List α) : List α := if x ∈ l then l else l ++ [x]

/-- Remove an element: there is no other, or it is the last one, or the last one
takes its place. -/
def swapRemove (x : α) (l : List α) : List α :=
  if x ∈ l then
    if l.length = 1 then []
    else if x = l.getLastD x then l.dropLast
    else (l.set (l.idxOf x) (l.getLastD x)).dropLast
  else l

/-- Go through the first vector, and take each element that the second one holds
out of both. -/
def cancel : List α → List α → List α × List α
  | [], second => ([], second)
  | x :: first, second =>
    if x ∈ second then cancel first (second.erase x)
    else (x :: (cancel first second).1, (cancel first second).2)

@[simp] theorem cancel_nil_left (second : List α) : cancel [] second = ([], second) := rfl

@[simp] theorem cancel_nil_right (first : List α) : cancel first [] = (first, []) := by
  induction first with
  | nil => rfl
  | cons x first ih => simp [cancel, ih]

/-- Where one of the vectors is empty, going through them changes nothing. -/
theorem ite_cancel (first second : List α) :
    (if first ≠ [] ∧ second ≠ [] then cancel first second else (first, second))
      = cancel first second := by
  split
  · rfl
  · next hnil =>
    rcases not_and_or.mp hnil with hfirst | hsecond
    · rw [not_not.mp hfirst, cancel_nil_left]
    · rw [not_not.mp hsecond, cancel_nil_right]

variable {x y : α} {l : List α}

theorem mem_pushNew : y ∈ pushNew x l ↔ y = x ∨ y ∈ l := by
  unfold pushNew
  split
  · next hx =>
    constructor
    · exact .inr
    · rintro (rfl | hy)
      · exact hx
      · exact hy
  · rw [mem_append, mem_singleton, or_comm]

theorem nodup_pushNew (h : l.Nodup) (x : α) : (pushNew x l).Nodup := by
  unfold pushNew
  split
  · exact h
  · next hx =>
    refine nodup_append.mpr ⟨h, nodup_singleton x, ?_⟩
    rintro y hy _ hz rfl
    exact hx (mem_singleton.mp hz ▸ hy)

/-- The last element put in the place of the first occurrence, and dropped. -/
theorem set_idxOf_dropLast {front : List α} (hx : x ∉ front) (m : List α) (y : α) :
    (((front ++ x :: m) ++ [y]).set (((front ++ x :: m) ++ [y]).idxOf x) y).dropLast
      = front ++ y :: m := by
  have hidx : ((front ++ x :: m) ++ [y]).idxOf x = front.length := by
    rw [append_assoc, idxOf_append_of_notMem hx, cons_append, idxOf_cons_self,
      Nat.add_zero]
  rw [hidx, append_assoc, set_append_right _ _ (Nat.le_refl _), Nat.sub_self,
    cons_append, set_cons_zero, ← cons_append, ← append_assoc,
    dropLast_concat]

/-- **Removal is removal**, up to order. -/
theorem swapRemove_perm (x : α) (l : List α) : (swapRemove x l).Perm (l.erase x) := by
  by_cases hx : x ∈ l
  · obtain ⟨front, back, rfl, hfront⟩ := eq_append_cons_of_mem hx
    rw [swapRemove, if_pos hx, erase_append_right _ hfront, erase_cons_head]
    rcases eq_nil_or_concat' back with rfl | ⟨m, y, rfl⟩
    · split
      · next hlen =>
        have hnil : front = [] := by simpa using hlen
        rw [hnil]
        exact .refl _
      · rw [getLastD_concat, if_pos rfl, dropLast_concat, append_nil]
    · have hshape : front ++ x :: (m ++ [y]) = (front ++ x :: m) ++ [y] := by simp
      have hlen : ((front ++ x :: m) ++ [y]).length ≠ 1 := by
        rw [length_append, length_append, length_cons, length_singleton]
        omega
      have hback : (front ++ y :: m).Perm (front ++ (m ++ [y])) :=
        (perm_append_singleton y m).symm.append_left front
      rw [hshape, if_neg hlen, getLastD_concat]
      split
      · next hxy =>
        -- `x` is there twice, and it is the last one that goes
        rw [dropLast_concat, hxy]
        exact hback
      · rw [set_idxOf_dropLast hfront]
        exact hback
  · rw [swapRemove, if_neg hx, erase_of_not_mem hx]

theorem mem_swapRemove (h : l.Nodup) : y ∈ swapRemove x l ↔ y ≠ x ∧ y ∈ l := by
  rw [(swapRemove_perm x l).mem_iff, h.mem_erase_iff]

theorem nodup_swapRemove (h : l.Nodup) (x : α) : (swapRemove x l).Nodup :=
  (swapRemove_perm x l).nodup_iff.mpr (h.erase x)

/-- What is left over in the first vector. -/
theorem count_cancel_fst (x : α) (first second : List α) :
    (cancel first second).1.count x = first.count x - second.count x := by
  induction first generalizing second with
  | nil => rw [cancel, count_nil, Nat.zero_sub]
  | cons y first ih =>
    rw [cancel]
    split
    · next hy =>
      have hpos : 0 < second.count y := count_pos_iff.mpr hy
      rw [ih, count_erase, count_cons]
      by_cases hxy : y = x
      · subst hxy
        simp only [beq_self_eq_true, if_true]
        omega
      · simp [hxy]
    · next hy =>
      rw [count_cons, ih, count_cons]
      by_cases hxy : y = x
      · subst hxy
        rw [count_eq_zero.mpr hy]
        omega
      · simp [hxy]

/-- What is left over in the second vector. -/
theorem count_cancel_snd (x : α) (first second : List α) :
    (cancel first second).2.count x = second.count x - first.count x := by
  induction first generalizing second with
  | nil => rw [cancel, count_nil, Nat.sub_zero]
  | cons y first ih =>
    rw [cancel]
    split
    · rw [ih, count_erase, count_cons]
      omega
    · next hy =>
      rw [ih, count_cons]
      by_cases hxy : y = x
      · subst hxy
        rw [count_eq_zero.mpr hy]
        omega
      · simp [hxy]

end VectorSet

end Mutgos
