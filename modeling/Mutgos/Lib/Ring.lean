import Mathlib.Data.List.Basic

/-!
# Rings

A vector that grows up to a size, and whose oldest element is overwritten from then
on.

## Main results

* `Ring.map_push` — pushing and mapping commute.
-/

namespace Mutgos

/-- A vector, and the place that is overwritten next when it is full. -/
structure Ring (α : Type*) where
  items : List α
  next : ℕ

namespace Ring

variable {α β : Type*}

/-- A ring without elements. -/
def empty : Ring α := ⟨[], 0⟩

/-- Insert at the end of a ring that is not full, overwrite in one that is. -/
def push (size : ℕ) (r : Ring α) (a : α) : Ring α :=
  if r.items.length < size then { r with items := r.items ++ [a] }
  else ⟨r.items.set r.next a, if size ≤ r.next + 1 then 0 else r.next + 1⟩

/-- Change each element. -/
def map (f : α → β) (r : Ring α) : Ring β := ⟨r.items.map f, r.next⟩

@[simp] theorem items_empty : (empty : Ring α).items = [] := rfl

@[simp] theorem map_empty (f : α → β) : (empty : Ring α).map f = empty := rfl

@[simp] theorem items_map (f : α → β) (r : Ring α) : (r.map f).items = r.items.map f := rfl

theorem map_push (f : α → β) (size : ℕ) (r : Ring α) (a : α) :
    (r.push size a).map f = (r.map f).push size (f a) := by
  rw [push, push, items_map, List.length_map]
  split
  · rw [map, List.map_append]
    rfl
  · rw [map, List.map_set]
    rfl

/-- Nothing else gets into a ring. -/
theorem mem_push {size : ℕ} {r : Ring α} {a b : α} (h : b ∈ (r.push size a).items) :
    b = a ∨ b ∈ r.items := by
  rw [push] at h
  split at h
  · rcases List.mem_append.mp h with h | h
    · exact .inr h
    · exact .inl (List.mem_singleton.mp h)
  · rcases List.mem_or_eq_of_mem_set h with h | h
    · exact .inr h
    · exact .inl h

end Ring

end Mutgos
