import Mathlib.Data.List.Nodup
import Mathlib.Logic.Function.Iterate

/-!
# Walking along a list

A container that is walked by its elements: given an element, where does the walk go on?  An
ordered map answers with the key after it, a vector with what stands behind its first
occurrence.  As long as no element is there twice, such a walk comes to each of them, in order,
and then finds nothing more.

## Main results

* `walks_nextIn` — **the walk visits the list.**
-/

namespace Mutgos

open List

variable {α : Type*} [DecidableEq α]

/-- What stands behind the first `a` of a list. -/
def nextIn (a : α) : List α → Option α
  | [] => none
  | b :: l => if b = a then l.head? else nextIn a l

/-- What stands before the first `a` of a list. -/
def prevIn (a : α) : List α → Option α
  | b :: c :: l => if c = a then some b else prevIn a (c :: l)
  | _ => none

variable {a b : α} {l : List α}

theorem mem_of_nextIn (h : nextIn a l = some b) : b ∈ l := by
  induction l with
  | nil => cases h
  | cons c l ih =>
    rw [nextIn] at h
    split at h
    · exact mem_cons_of_mem _ (mem_of_head? h)
    · exact mem_cons_of_mem _ (ih h)

theorem mem_of_prevIn (h : prevIn a l = some b) : b ∈ l := by
  induction l with
  | nil => cases h
  | cons c l ih =>
    cases l with
    | nil => cases h
    | cons d l =>
      rw [prevIn] at h
      split at h
      · cases h
        exact mem_cons_self
      · exact mem_cons_of_mem _ (ih h)

/-- **One step**, from a position to the next. -/
theorem nextIn_eq_getElem? (h : l.Nodup) {n : ℕ} (ha : l[n]? = some a) :
    nextIn a l = l[n + 1]? := by
  induction l generalizing n with
  | nil => cases ha
  | cons c l ih =>
    obtain ⟨hc, hl⟩ := nodup_cons.mp h
    rw [nextIn]
    cases n with
    | zero =>
      rw [getElem?_cons_zero, Option.some.injEq] at ha
      rw [if_pos ha, getElem?_cons_succ, head?_eq_getElem?]
    | succ n =>
      rw [getElem?_cons_succ] at ha
      have hne : c ≠ a := by
        rintro rfl
        exact hc (mem_of_getElem? ha)
      rw [if_neg hne, getElem?_cons_succ, ih hl ha]

/-- The walk from `first` on visits a list, one element at a time, and then comes to the
default; `last` is its last element. -/
structure Walks [Inhabited α] (first : α) (next : α → α) (last : α) (l : List α) : Prop where
  visits : ∀ n ≤ l.length, next^[n] first = l[n]?.getD default
  last : last = l.getLast?.getD default

/-- **The walk visits the list.**  By induction on the number of steps. -/
theorem walks_nextIn [Inhabited α] (h : l.Nodup) :
    Walks (l.head?.getD default) (fun a => (nextIn a l).getD default) (l.getLast?.getD default)
      l where
  visits := by
    intro n hn
    induction n with
    | zero => rw [Function.iterate_zero, id, head?_eq_getElem?]
    | succ n ih =>
      have hlt : n < l.length := hn
      have hget : l[n]? = some l[n] := getElem?_eq_getElem hlt
      rw [Function.iterate_succ_apply', ih (Nat.le_of_lt hlt), hget, Option.getD_some,
        nextIn_eq_getElem? h hget]
  last := rfl

end Mutgos
