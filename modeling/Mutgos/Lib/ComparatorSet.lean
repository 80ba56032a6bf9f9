import Mathlib.Data.List.Basic

/-!
# Sets ordered by a comparator

A set that is ordered by a comparator of its own, as a list that is gone through from the
front.  The comparator is the negation of a preorder, but neither need that be linear nor
the comparator be an order: of two elements that are not comparable, each is less than the
other.  The set is in order as long as every element that is put in is comparable with
those that are there.  Looking for an element and taking it out are safe in any case.

## Main results

* `Ascending.insert`, `Ascending.erase` — **the order is kept.**
-/

namespace Mutgos.ComparatorSet

open List

variable {α : Type*} (lt : α → α → Bool)

/-- The element that is equivalent to the given one. -/
def find (x : α) : List α → Option α
  | [] => none
  | a :: s => if lt x a then none else if lt a x then find x s else some a

/-- What is equivalent to an element is not put in. -/
def insert (x : α) : List α → List α
  | [] => [x]
  | a :: s => if lt x a then x :: a :: s else if lt a x then a :: insert x s else a :: s

/-- What is equivalent to the element is taken out. -/
def erase (x : α) : List α → List α
  | [] => []
  | a :: s => if lt x a then a :: s else if lt a x then a :: erase x s else s

/-- Neither element is less than the other. -/
def Equivalent (a b : α) : Prop := lt a b = false ∧ lt b a = false

/-- At most one of the elements is less than the other. -/
def Comparable (a b : α) : Prop := lt a b = false ∨ lt b a = false

/-- The elements are in order. -/
def Ascending (s : List α) : Prop := s.Pairwise fun a b => lt a b = true ∧ lt b a = false

/-- The comparator is the negation of a transitive relation, the elements in the middle being
of some kind. -/
def NotLtTrans (D : α → Prop) : Prop :=
  ∀ a b c, D b → lt b a = false → lt c b = false → lt c a = false

variable {lt} {x y : α} {s : List α}

theorem mem_insert : y ∈ insert lt x s ↔ y ∈ s ∨ y = x ∧ find lt x s = none := by
  induction s with
  | nil => simp [insert, find]
  | cons a s ih =>
    rw [insert, find]
    split_ifs
    · simp [or_comm]
    · rw [mem_cons, ih, mem_cons, or_assoc]
    · simp

theorem length_insert (x : α) (s : List α) :
    (insert lt x s).length = if (find lt x s).isSome then s.length else s.length + 1 := by
  induction s with
  | nil => rfl
  | cons a s ih =>
    rw [insert, find]
    by_cases hbefore : lt x a = true
    · simp [hbefore]
    · rw [if_neg hbefore, if_neg hbefore]
      by_cases hbehind : lt a x = true
      · rw [if_pos hbehind, if_pos hbehind, length_cons, ih]
        split <;> rfl
      · simp [hbehind]

theorem erase_sublist (x : α) (s : List α) : (erase lt x s).Sublist s := by
  induction s with
  | nil => exact .slnil
  | cons a s ih =>
    rw [erase]
    split_ifs
    · exact List.Sublist.refl _
    · exact ih.cons_cons a
    · exact sublist_cons_self a s

/-- What is found is in the set. -/
theorem equivalent_of_find {a : α} (h : find lt x s = some a) : a ∈ s ∧ Equivalent lt a x := by
  induction s with
  | nil => cases h
  | cons b s ih =>
    rw [find] at h
    split_ifs at h with hbefore hbehind
    · obtain ⟨hmem, hequivalent⟩ := ih h
      exact ⟨mem_cons_of_mem b hmem, hequivalent⟩
    · obtain rfl := Option.some.inj h
      exact ⟨mem_cons_self, by simpa using hbehind, by simpa using hbefore⟩

theorem Ascending.erase (h : Ascending lt s) (x : α) : Ascending lt (erase lt x s) :=
  h.sublist (erase_sublist x s)

section Trans

variable {D : α → Prop} (htrans : NotLtTrans lt D)

include htrans

/-- What is equivalent to an element of the set is not before what comes before that. -/
theorem Ascending.not_before {a b : α} (h : Ascending lt (b :: s)) (ha : a ∈ s) (hD : D a)
    (hequivalent : Equivalent lt a x) : lt x b = false :=
  htrans b a x hD ((pairwise_cons.mp h).1 a ha).2 hequivalent.2

/-- **What is equivalent to an element is found.** -/
theorem Ascending.find_isSome_iff (h : Ascending lt s) (hD : ∀ a ∈ s, D a) :
    (find lt x s).isSome = true ↔ ∃ a ∈ s, Equivalent lt a x := by
  constructor
  · intro hfind
    obtain ⟨a, ha⟩ := Option.isSome_iff_exists.mp hfind
    exact ⟨a, equivalent_of_find ha⟩
  · rintro ⟨a, ha, hequivalent⟩
    induction s with
    | nil => exact absurd ha not_mem_nil
    | cons b s ih =>
      obtain ⟨hDb, hDs⟩ := forall_mem_cons.mp hD
      rw [find]
      obtain rfl | ha := mem_cons.mp ha
      · simp [hequivalent.1, hequivalent.2]
      · rw [if_neg (by simp [h.not_before htrans ha (hDs a ha) hequivalent])]
        by_cases hbehind : lt b x = true
        · rw [if_pos hbehind]
          exact ih (pairwise_cons.mp h).2 hDs ha
        · rw [if_neg hbehind, Option.isSome_some]

/-- **An element that is comparable with those in the set is put in its place.** -/
theorem Ascending.insert (h : Ascending lt s) (hD : ∀ a ∈ s, D a)
    (hx : ∀ a ∈ s, Comparable lt x a) : Ascending lt (insert lt x s) := by
  induction s with
  | nil => exact pairwise_singleton _ x
  | cons a s ih =>
    obtain ⟨hfirst, hrest⟩ := pairwise_cons.mp h
    obtain ⟨hDa, hDs⟩ := forall_mem_cons.mp hD
    obtain ⟨hxa, hxs⟩ := forall_mem_cons.mp hx
    rw [ComparatorSet.insert]
    split_ifs with hbefore hbehind
    · have hax : lt a x = false := by
        obtain hno | hax := hxa
        · rw [hbefore] at hno
          cases hno
        · exact hax
      refine pairwise_cons.mpr ⟨?_, h⟩
      intro b hb
      obtain rfl | hb := mem_cons.mp hb
      · exact ⟨hbefore, hax⟩
      · refine ⟨?_, htrans x a b hDa hax (hfirst b hb).2⟩
        -- If the element were not before `b`, it would not be before `a`.
        by_contra hno
        rw [htrans a b x (hDs b hb) (hfirst b hb).2 (by simpa using hno)] at hbefore
        cases hbefore
    · refine pairwise_cons.mpr ⟨?_, ih hrest hDs hxs⟩
      intro b hb
      obtain hb | ⟨rfl, -⟩ := mem_insert.mp hb
      · exact hfirst b hb
      · exact ⟨hbehind, by simpa using hbefore⟩
    · exact h

/-- **What is taken out.** -/
theorem Ascending.mem_erase (h : Ascending lt s) (hD : ∀ a ∈ s, D a) (hx : D x) :
    y ∈ ComparatorSet.erase lt x s ↔ y ∈ s ∧ ¬ Equivalent lt y x := by
  induction s with
  | nil => simp [ComparatorSet.erase]
  | cons a s ih =>
    obtain ⟨hfirst, hrest⟩ := pairwise_cons.mp h
    obtain ⟨-, hDs⟩ := forall_mem_cons.mp hD
    rw [ComparatorSet.erase]
    split_ifs with hbefore hbehind
    · refine (and_iff_left_of_imp ?_).symm
      rintro hy ⟨hyx, hxy⟩
      obtain rfl | hy := mem_cons.mp hy
      · rw [hbefore] at hxy
        cases hxy
      · rw [h.not_before htrans hy (hDs y hy) ⟨hyx, hxy⟩] at hbefore
        cases hbefore
    · rw [mem_cons, mem_cons, ih hrest hDs, or_and_right]
      refine or_congr_left (and_iff_left_of_imp ?_).symm
      rintro rfl ⟨hno, -⟩
      rw [hbehind] at hno
      cases hno
    · have hequivalent : Equivalent lt a x := ⟨by simpa using hbehind, by simpa using hbefore⟩
      constructor
      · intro hy
        refine ⟨mem_cons_of_mem a hy, ?_⟩
        rintro ⟨hyx, hxy⟩
        have hay := (hfirst y hy).1
        rw [htrans y x a hx hxy hequivalent.1] at hay
        cases hay
      · rintro ⟨hy, hno⟩
        obtain rfl | hy := mem_cons.mp hy
        · exact absurd hequivalent hno
        · exact hy

end Trans

end Mutgos.ComparatorSet
