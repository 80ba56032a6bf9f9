import Mathlib.Data.List.Induction
import Mathlib.Data.List.Nodup
import Mathlib.Data.List.Perm.Basic

/-!
# Vectors with keys

A vector whose elements have keys, in no order.  An element is removed by putting the last
one in its place.  Many are removed in one pass from the back, which ends when as many have
been removed as there were keys: that is right as long as each key is there once.

## Main results

* `mem_removeFirst`, `mem_removeFromBack`, `mem_modifyFirst` — which elements there are
  afterwards.
-/

namespace Mutgos

open List

namespace KeyedVector

variable {κ α : Type*}

/-- Each key is there once. -/
def Distinct (key : α → κ) (l : List α) : Prop := (l.map key).Nodup

/-- Remove an element: it is the last one, or the last one takes its place. -/
def swapRemoveAt (l : List α) (i : ℕ) : List α :=
  if i + 1 = l.length then l.dropLast
  else match l.getLast? with
    | none => l
    | some last => (l.set i last).dropLast

/-- Remove the first element with a key. -/
def removeFirst [DecidableEq κ] (key : α → κ) (k : κ) (l : List α) : List α :=
  match l.findIdx? fun x => key x = k with
  | none => l
  | some i => swapRemoveAt l i

/-- Go through the first `i` elements from the back, and remove those that are asked for,
until so many have been removed. -/
def removeFromBack (asked : α → Bool) : (i remaining : ℕ) → List α → List α
  | 0, _, l => l
  | i + 1, remaining, l =>
    match l[i]? with
    | none => l
    | some x =>
      if asked x then
        if remaining = 1 then swapRemoveAt l i
        else removeFromBack asked i (remaining - 1) (swapRemoveAt l i)
      else removeFromBack asked i remaining l

/-- Change the first element with a key. -/
def modifyFirst [DecidableEq κ] (key : α → κ) (k : κ) (f : α → α) : List α → List α
  | [] => []
  | x :: l => if key x = k then f x :: l else x :: modifyFirst key k f l

/-! ### The last element in the place of another -/

/-- The last element comes first. -/
def lastFirst (l : List α) : List α := l.getLast?.toList ++ l.dropLast

theorem lastFirst_perm (l : List α) : (lastFirst l).Perm l := by
  rcases eq_nil_or_concat' l with rfl | ⟨m, y, rfl⟩
  · exact .refl _
  · rw [lastFirst, getLast?_concat, dropLast_concat]
    exact (perm_append_singleton y m).symm

/-- What is in front of the element stays where it is. -/
theorem swapRemoveAt_append (front : List α) (x : α) (back : List α) :
    swapRemoveAt (front ++ x :: back) front.length = front ++ lastFirst back := by
  rcases eq_nil_or_concat' back with rfl | ⟨m, y, rfl⟩
  · have hlen : front.length + 1 = (front ++ [x]).length := by simp
    rw [swapRemoveAt, if_pos hlen, dropLast_concat]
    exact (append_nil front).symm
  · have hshape : front ++ x :: (m ++ [y]) = (front ++ x :: m) ++ [y] := by simp
    have hlen : front.length + 1 ≠ ((front ++ x :: m) ++ [y]).length := by
      rw [length_append, length_append, length_cons, length_singleton]
      omega
    have hset : ((front ++ x :: m) ++ [y]).set front.length y = (front ++ y :: m) ++ [y] := by
      rw [append_assoc, set_append_right _ _ (Nat.le_refl _), Nat.sub_self]
      simp
    rw [hshape, swapRemoveAt, if_neg hlen, getLast?_concat]
    dsimp only
    rw [hset, dropLast_concat, lastFirst, getLast?_concat, dropLast_concat]
    rfl

/-- Up to order, removal is removal. -/
theorem swapRemoveAt_perm (front : List α) (x : α) (back : List α) :
    (swapRemoveAt (front ++ x :: back) front.length).Perm (front ++ back) := by
  rw [swapRemoveAt_append]
  exact (lastFirst_perm back).append_left front

/-! ### One element -/

section Remove

variable {key : α → κ} {front back l : List α} {x y : α}

/-- One element has gone, and the others are there in some order. -/
theorem mem_of_perm_remove (h : Distinct key (front ++ x :: back))
    (hperm : l.Perm (front ++ back)) :
    y ∈ l ↔ y ∈ front ++ x :: back ∧ key y ≠ key x := by
  have hothers : ∀ z ∈ front ++ back, key z ≠ key x := by
    intro z hz heq
    rw [Distinct, map_append, map_cons] at h
    have hout := (nodup_middle.mp h).notMem
    rw [← map_append] at hout
    exact hout (heq ▸ mem_map_of_mem hz)
  rw [hperm.mem_iff, mem_append, mem_append, mem_cons]
  constructor
  · intro hy
    refine ⟨hy.imp_right .inr, hothers y (mem_append.mpr hy)⟩
  · rintro ⟨hy | rfl | hy, hne⟩
    · exact .inl hy
    · exact absurd rfl hne
    · exact .inr hy

theorem Distinct.of_perm_remove (h : Distinct key (front ++ x :: back))
    (hperm : l.Perm (front ++ back)) : Distinct key l := by
  refine (hperm.map key).nodup_iff.mpr (h.sublist ?_)
  exact ((sublist_cons_self x back).append_left front).map key

end Remove

section RemoveFirst

variable [DecidableEq κ] {key : α → κ}

/-- Either no element has the key, or the first one that has it goes. -/
theorem removeFirst_cases (key : α → κ) (k : κ) (l : List α) :
    (∀ x ∈ l, key x ≠ k) ∧ removeFirst key k l = l ∨
      ∃ front x back, l = front ++ x :: back ∧ key x = k ∧
        (removeFirst key k l).Perm (front ++ back) := by
  cases hfind : l.findIdx? fun x => decide (key x = k) with
  | none =>
    left
    have hnone := findIdx?_eq_none_iff.mp hfind
    refine ⟨fun x hx => ?_, ?_⟩
    · exact of_decide_eq_false (hnone x hx)
    · rw [removeFirst, hfind]
  | some i =>
    right
    obtain ⟨hi, hkey, -⟩ := findIdx?_eq_some_iff_getElem.mp hfind
    have hsplit : l = l.take i ++ l[i] :: l.drop (i + 1) := by
      rw [← drop_eq_getElem_cons hi, take_append_drop]
    have hlen : (l.take i).length = i := length_take_of_le (Nat.le_of_lt hi)
    refine ⟨l.take i, l[i], l.drop (i + 1), hsplit, of_decide_eq_true hkey, ?_⟩
    have hperm := swapRemoveAt_perm (l.take i) l[i] (l.drop (i + 1))
    rw [← hsplit, hlen] at hperm
    rw [removeFirst, hfind]
    exact hperm

theorem mem_removeFirst {l : List α} (h : Distinct key l) (k : κ) {x : α} :
    x ∈ removeFirst key k l ↔ x ∈ l ∧ key x ≠ k := by
  obtain ⟨hnone, heq⟩ | ⟨front, y, back, rfl, rfl, hperm⟩ := removeFirst_cases key k l
  · rw [heq]
    exact ⟨fun hx => ⟨hx, hnone x hx⟩, fun hx => hx.1⟩
  · exact mem_of_perm_remove h hperm

theorem Distinct.removeFirst {l : List α} (h : Distinct key l) (k : κ) :
    Distinct key (removeFirst key k l) := by
  obtain ⟨-, heq⟩ | ⟨front, y, back, rfl, -, hperm⟩ := removeFirst_cases key k l
  · rw [heq]
    exact h
  · exact h.of_perm_remove hperm

end RemoveFirst

/-! ### Many elements -/

/-- Where no more are asked for than may be removed, all of them go. -/
theorem removeFromBack_perm (asked : α → Bool) (front back : List α) {remaining : ℕ}
    (hback : ∀ x ∈ back, asked x = false) (hpos : 0 < remaining)
    (hcount : front.countP asked ≤ remaining) :
    (removeFromBack asked front.length remaining (front ++ back)).Perm
      ((front ++ back).filter fun x => !asked x) := by
  induction front using List.reverseRecOn generalizing back remaining with
  | nil =>
    have hall : back.filter (fun x => !asked x) = back := by
      rw [filter_eq_self]
      intro x hx
      rw [hback x hx]
      rfl
    rw [nil_append, hall]
    exact .refl _
  | append_singleton front x ih =>
    have hget : (front ++ x :: back)[front.length]? = some x := by simp
    rw [length_append, length_singleton, append_assoc, singleton_append,
      removeFromBack, hget]
    dsimp only
    rw [countP_append, countP_singleton] at hcount
    split
    · next hasked =>
      rw [if_pos hasked] at hcount
      have hlast : ∀ y ∈ lastFirst back, asked y = false :=
        fun y hy => hback y ((lastFirst_perm back).mem_iff.mp hy)
      have hfilter : ((front ++ lastFirst back).filter fun y => !asked y).Perm
          ((front ++ x :: back).filter fun y => !asked y) := by
        rw [filter_append, filter_append, filter_cons_of_neg (by simp [hasked])]
        exact ((lastFirst_perm back).filter _).append_left _
      rw [swapRemoveAt_append]
      split
      · next hone =>
        -- the loop ends here, for none of those in front is asked for
        have hnone : front.countP asked = 0 := by omega
        have hall : (front ++ lastFirst back).filter (fun y => !asked y) =
            front ++ lastFirst back := by
          rw [filter_eq_self]
          intro y hy
          rcases mem_append.mp hy with hy | hy
          · simp [countP_eq_zero.mp hnone y hy]
          · simp [hlast y hy]
        rw [← hall]
        exact hfilter
      · next hone => exact (ih _ hlast (by omega) (by omega)).trans hfilter
    · next hasked =>
      have hnot : asked x = false := Bool.not_eq_true _ ▸ hasked
      have hcons : ∀ y ∈ x :: back, asked y = false := by
        intro y hy
        rcases mem_cons.mp hy with rfl | hy
        · exact hnot
        · exact hback y hy
      rw [if_neg hasked] at hcount
      exact ih (x :: back) hcons hpos hcount

section RemoveFromBack

variable [DecidableEq κ] {key : α → κ}

/-- The elements with some keys are removed by one pass over the vector. -/
theorem removeFromBack_keys_perm {l : List α} (h : Distinct key l) {ks : List κ} (hks : ks ≠ []) :
    (removeFromBack (fun x => decide (key x ∈ ks)) l.length ks.length l).Perm
      (l.filter fun x => !decide (key x ∈ ks)) := by
  have hcount : l.countP (fun x => decide (key x ∈ ks)) ≤ ks.length := by
    rw [countP_eq_length_filter, ← length_map (f := key)]
    refine (subperm_of_subset (h.sublist (filter_sublist.map key)) ?_).length_le
    intro k hk
    obtain ⟨x, hx, rfl⟩ := mem_map.mp hk
    exact of_decide_eq_true (mem_filter.mp hx).2
  have hperm := removeFromBack_perm (fun x => decide (key x ∈ ks)) l [] nofun
    (length_pos_iff.mpr hks) hcount
  rwa [append_nil] at hperm

theorem mem_removeFromBack {l : List α} (h : Distinct key l) {ks : List κ} (hks : ks ≠ []) {x : α} :
    x ∈ removeFromBack (fun x => decide (key x ∈ ks)) l.length ks.length l ↔
      x ∈ l ∧ key x ∉ ks := by
  rw [(removeFromBack_keys_perm h hks).mem_iff, mem_filter]
  simp

theorem Distinct.removeFromBack {l : List α} (h : Distinct key l) {ks : List κ} (hks : ks ≠ []) :
    Distinct key (removeFromBack (fun x => decide (key x ∈ ks)) l.length ks.length l) :=
  ((removeFromBack_keys_perm h hks).map key).nodup_iff.mpr
    (h.sublist (filter_sublist.map key))

end RemoveFromBack

/-! ### Changing and adding -/

section ModifyFirst

variable [DecidableEq κ] {key : α → κ} {f : α → α}

/-- The keys stay, if the element keeps its own. -/
theorem map_modifyFirst (hf : ∀ x, key (f x) = key x) (k : κ) (l : List α) :
    (modifyFirst key k f l).map key = l.map key := by
  induction l with
  | nil => rfl
  | cons x l ih =>
    rw [modifyFirst]
    split
    · rw [map_cons, map_cons, hf]
    · rw [map_cons, map_cons, ih]

theorem Distinct.modifyFirst {l : List α} (h : Distinct key l) (hf : ∀ x, key (f x) = key x)
    (k : κ) : Distinct key (modifyFirst key k f l) := by
  rw [Distinct, map_modifyFirst hf]
  exact h

theorem mem_modifyFirst {l : List α} (h : Distinct key l) (k : κ) {x : α} :
    x ∈ modifyFirst key k f l ↔ x ∈ l ∧ key x ≠ k ∨ ∃ y ∈ l, key y = k ∧ x = f y := by
  induction l with
  | nil => simp [modifyFirst]
  | cons y l ih =>
    obtain ⟨hout, hrest⟩ := nodup_cons.mp h
    rw [modifyFirst]
    split
    · next heq =>
      have hothers : ∀ z ∈ l, key z ≠ k := by
        rintro z hz rfl
        exact hout (heq ▸ mem_map_of_mem hz)
      rw [mem_cons]
      constructor
      · rintro (rfl | hx)
        · exact .inr ⟨y, mem_cons_self, heq, rfl⟩
        · exact .inl ⟨mem_cons_of_mem y hx, hothers x hx⟩
      · rintro (⟨hx, hne⟩ | ⟨z, hz, hkey, rfl⟩)
        · rcases mem_cons.mp hx with rfl | hx
          · exact absurd heq hne
          · exact .inr hx
        · rcases mem_cons.mp hz with rfl | hz
          · exact .inl rfl
          · exact absurd hkey (hothers z hz)
    · next hne =>
      rw [mem_cons, ih hrest]
      constructor
      · rintro (rfl | ⟨hx, hkey⟩ | ⟨z, hz, hkey, rfl⟩)
        · exact .inl ⟨mem_cons_self, hne⟩
        · exact .inl ⟨mem_cons_of_mem y hx, hkey⟩
        · exact .inr ⟨z, mem_cons_of_mem y hz, hkey, rfl⟩
      · rintro (⟨hx, hkey⟩ | ⟨z, hz, hkey, rfl⟩)
        · rcases mem_cons.mp hx with rfl | hx
          · exact .inl rfl
          · exact .inr (.inl ⟨hx, hkey⟩)
        · rcases mem_cons.mp hz with rfl | hz
          · exact absurd hkey hne
          · exact .inr (.inr ⟨z, hz, hkey, rfl⟩)

end ModifyFirst

variable {key : α → κ}

/-- An element is found by its key. -/
theorem Distinct.find? [DecidableEq κ] {l : List α} (h : Distinct key l) {x : α} (hx : x ∈ l) :
    (l.find? fun y => key y = key x) = some x := by
  induction l with
  | nil => cases hx
  | cons y l ih =>
    obtain ⟨hout, hrest⟩ := nodup_cons.mp h
    by_cases heq : key y = key x
    · obtain rfl | hx := mem_cons.mp hx
      · exact find?_cons_of_pos (decide_eq_true rfl)
      · exact absurd (heq ▸ mem_map_of_mem hx) hout
    · obtain rfl | hx := mem_cons.mp hx
      · exact absurd rfl heq
      · rw [find?_cons_of_neg (by simpa using heq)]
        exact ih hrest hx

/-- Elements with other keys are added. -/
theorem distinct_append {l new : List α} (h : Distinct key l) (hnew : Distinct key new)
    (hout : ∀ x ∈ l, ∀ y ∈ new, key x ≠ key y) : Distinct key (l ++ new) := by
  rw [Distinct, map_append]
  refine nodup_append.mpr ⟨h, hnew, ?_⟩
  intro k hk k' hk' heq
  obtain ⟨x, hx, rfl⟩ := mem_map.mp hk
  obtain ⟨y, hy, rfl⟩ := mem_map.mp hk'
  exact hout x hx y hy heq

end KeyedVector

end Mutgos
