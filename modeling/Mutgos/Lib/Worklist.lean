import Mathlib.Data.Finset.Card
import Mathlib.Logic.Relation
import Mutgos.Lib.SortedSet

/-!
# Worklists

A search that takes places from the front of a list and puts behind it what they lead to, unless
they have been visited.  The list may grow with every step.

## Main results

* `mem_worklist` — **what has been visited in the end** is what can be reached.
-/

namespace Mutgos

open Relation

section Reached

variable {α : Type*} {next : α → Option (List α)} {todo visited : List α}

/-- One place leads to another, which is there. -/
def LeadsTo (next : α → Option (List α)) (a b : α) : Prop :=
  (next b).isSome ∧ ∃ more ∈ next a, b ∈ more

/-- A place can be reached from one of the list. -/
def ReachedFromAny (next : α → Option (List α)) (todo : List α) (b : α) : Prop :=
  ∃ a ∈ todo, (next a).isSome ∧ ReflTransGen (LeadsTo next) a b

/-- What the visited places lead to has been visited or is in the list. -/
def VisitsNext (next : α → Option (List α)) (todo visited : List α) : Prop :=
  ∀ a ∈ visited, ∀ b, LeadsTo next a b → b ∈ visited ∨ b ∈ todo

/-- Nothing new is reached from what has been visited but through the list. -/
theorem VisitsNext.reached {a b : α} (h : VisitsNext next todo visited) (ha : a ∈ visited)
    (hab : ReflTransGen (LeadsTo next) a b) : b ∈ visited ∨ ReachedFromAny next todo b := by
  induction hab with
  | refl => exact .inl ha
  | tail _ hbc ih =>
    obtain hb | ⟨c, hc, hsome, hcb⟩ := ih
    · exact (h _ hb _ hbc).imp_right fun hmem => ⟨_, hmem, hbc.1, .refl⟩
    · exact .inr ⟨c, hc, hsome, hcb.tail hbc⟩

theorem reachedFromAny_cons {a b : α} : ReachedFromAny next (a :: todo) b ↔
    (next a).isSome ∧ ReflTransGen (LeadsTo next) a b ∨ ReachedFromAny next todo b := by
  simp [ReachedFromAny]

theorem reachedFromAny_append {more : List α} {b : α} : ReachedFromAny next (todo ++ more) b ↔
    ReachedFromAny next todo b ∨ ReachedFromAny next more b := by
  simp [ReachedFromAny, or_and_right, exists_or]

/-- What is reached from a place is it, or reached from what it leads to. -/
theorem reached_iff {a b : α} {more : List α} (ha : next a = some more) :
    ReflTransGen (LeadsTo next) a b ↔ b = a ∨ ReachedFromAny next more b := by
  rw [ReflTransGen.cases_head_iff, eq_comm]
  simp only [LeadsTo, ReachedFromAny, ha, Option.mem_def, Option.some.injEq, exists_eq_left',
    and_assoc]
  exact or_congr_right (exists_congr fun c => and_left_comm)

end Reached

variable {α : Type*} [LT α] [DecidableEq α] [DecidableLT α]

/-- Visit places, of which there are finitely many, and what they lead to. -/
def worklist (next : α → Option (List α)) (places : Finset α)
    (hplaces : ∀ a, (next a).isSome → a ∈ places) : (todo visited : List α) → List α
  | [], visited => visited
  | a :: todo, visited =>
    if a ∈ visited then worklist next places hplaces todo visited
    else
      match _hnext : next a with
      | none => worklist next places hplaces todo visited
      | some more => worklist next places hplaces (todo ++ more) (SortedSet.insert a visited)
termination_by todo visited => ((places.filter (· ∉ visited)).card, todo.length)
decreasing_by
  · exact Prod.Lex.right _ (by simp)
  · exact Prod.Lex.right _ (by simp)
  · -- The list grows, but one place fewer has not been visited.
    refine Prod.Lex.left _ _ (Finset.card_lt_card ?_)
    rw [Finset.ssubset_iff_of_subset]
    · exact ⟨a, by simp_all [hplaces a (by simp [_hnext])], by simp [SortedSet.mem_insert]⟩
    · intro b hb
      simp_all [SortedSet.mem_insert]

variable {next : α → Option (List α)} {places : Finset α}
  {hplaces : ∀ a, (next a).isSome → a ∈ places} {todo visited : List α}

/-- **What has been visited in the end**: what had been, and what can be reached from the list. -/
theorem mem_worklist {b : α} (h : VisitsNext next todo visited) :
    b ∈ worklist next places hplaces todo visited ↔ b ∈ visited ∨ ReachedFromAny next todo b := by
  fun_induction worklist next places hplaces todo visited with
  | case1 => simp [ReachedFromAny]
  | case2 a todo visited ha ih =>
    have hclosed : VisitsNext next todo visited := by
      intro c hc d hd
      have hmem := h c hc d hd
      grind
    rw [ih hclosed, reachedFromAny_cons]
    have hreached := @VisitsNext.reached _ _ _ _ a b hclosed ha
    tauto
  | case3 a todo visited _ hnext ih =>
    have hclosed : VisitsNext next todo visited := by
      intro c hc d hd
      have hmem := h c hc d hd
      have hne : d ≠ a := by
        rintro rfl
        simp [LeadsTo, hnext] at hd
      grind
    simp [ih hclosed, reachedFromAny_cons, hnext]
  | case4 a todo visited _ more hnext ih =>
    have hclosed : VisitsNext next (todo ++ more) (SortedSet.insert a visited) := by
      intro c hc d hd
      rw [SortedSet.mem_insert, List.mem_append]
      obtain rfl | hc := SortedSet.mem_insert.mp hc
      · obtain ⟨-, more', hmore, hmem⟩ := hd
        cases hnext.symm.trans hmore
        exact .inr (.inr hmem)
      · have hmem := h c hc d hd
        grind
    rw [ih hclosed, SortedSet.mem_insert, reachedFromAny_append, reachedFromAny_cons,
      reached_iff hnext]
    simp only [hnext, Option.isSome_some, true_and]
    tauto

theorem sorted_worklist [IsStrictTotalOrder α (· < ·)] (h : SortedSet.Sorted visited) :
    SortedSet.Sorted (worklist next places hplaces todo visited) := by
  fun_induction worklist next places hplaces todo visited with
  | case1 => exact h
  | case2 _ _ _ _ ih => exact ih h
  | case3 _ _ _ _ _ ih => exact ih h
  | case4 a _ _ _ _ _ ih => exact ih (h.insert a)

end Mutgos
