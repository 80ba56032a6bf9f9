import Mathlib.Data.Nat.Notation
import Mathlib.Logic.Relation

/-!
# Forests

A relation that says what is in what, and what becomes of it when one thing is put
somewhere else.

## Main results

* `acyclic_relink_iff` — **a move keeps a relation acyclic** exactly if `x` is not put
  into itself, or into what is in it.
-/

namespace Mutgos

variable {α : Type*} {r : α → α → Prop} {x y : α}

/-- Nothing is in itself, directly or through others. -/
def Acyclic (r : α → α → Prop) : Prop := ∀ a, ¬Relation.TransGen r a a

/-- `x` is in `y`, and everything else is where it was. -/
def relink (r : α → α → Prop) (x y a b : α) : Prop := (a = x ∧ b = y) ∨ (a ≠ x ∧ r a b)

/-- A relation that goes up in some order is acyclic. -/
theorem acyclic_of_rank (rank : α → ℕ) (h : ∀ a b, r a b → rank a < rank b) : Acyclic r := by
  have hlt : ∀ {a b}, Relation.TransGen r a b → rank a < rank b := by
    intro a b hab
    induction hab with
    | single hab => exact h _ _ hab
    | tail _ hbc ih =>
      have := h _ _ hbc
      omega
  intro a ha
  exact Nat.lt_irrefl _ (hlt ha)

/-- Being acyclic only depends on what is in what. -/
theorem acyclic_congr {r' : α → α → Prop} (h : ∀ a b, r' a b ↔ r a b) :
    Acyclic r' ↔ Acyclic r := by
  have hr : r' = r := funext fun a => funext fun b => propext (h a b)
  rw [hr]

theorem relink_self : relink r x y x y := .inl ⟨rfl, rfl⟩

theorem relink_of_ne {a b : α} (ha : a ≠ x) (h : r a b) : relink r x y a b := .inr ⟨ha, h⟩

/-- The way to `x` does not lead out of it. -/
theorem reflTransGen_relink_iff {a : α} :
    Relation.ReflTransGen (relink r x y) a x ↔ Relation.ReflTransGen r a x := by
  constructor
  · intro h
    induction h using Relation.ReflTransGen.head_induction_on with
    | refl => exact .refl
    | head hab _ ih =>
      rcases hab with ⟨rfl, _⟩ | ⟨_, hab⟩
      · exact .refl
      · exact .head hab ih
  · intro h
    induction h using Relation.ReflTransGen.head_induction_on with
    | refl => exact .refl
    | @head a b hab _ ih =>
      by_cases ha : a = x
      · subst ha
        exact .refl
      · exact .head (relink_of_ne ha hab) ih

/-- A way that does not lead through `x` was there before. -/
theorem transGen_of_relink {a b : α} (h : Relation.TransGen (relink r x y) a b) :
    Relation.TransGen r a b ∨ Relation.ReflTransGen r a x ∧
      Relation.ReflTransGen (relink r x y) y b := by
  induction h with
  | single hab =>
    rcases hab with ⟨rfl, rfl⟩ | ⟨_, hab⟩
    · exact .inr ⟨.refl, .refl⟩
    · exact .inl (.single hab)
  | tail _ hbc ih =>
    rcases ih with hab | ⟨hax, hyb⟩
    · rcases hbc with ⟨rfl, rfl⟩ | ⟨_, hbc⟩
      · exact .inr ⟨hab.to_reflTransGen, .refl⟩
      · exact .inl (hab.tail hbc)
    · exact .inr ⟨hax, hyb.tail hbc⟩

/-- **A move keeps a relation acyclic** exactly if nothing is put into itself. -/
theorem acyclic_relink_iff (h : Acyclic r) :
    Acyclic (relink r x y) ↔ ¬Relation.ReflTransGen r y x := by
  constructor
  · intro hacyclic hyx
    exact hacyclic x (.head' relink_self (reflTransGen_relink_iff.mpr hyx))
  · intro hyx a ha
    rcases transGen_of_relink ha with ha | ⟨hax, hya⟩
    · exact h a ha
    · -- the circle leads through `x`
      have hax' : Relation.ReflTransGen (relink r x y) a x := reflTransGen_relink_iff.mpr hax
      exact hyx (reflTransGen_relink_iff.mp (hya.trans hax'))

end Mutgos
