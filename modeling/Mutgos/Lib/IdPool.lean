import Mathlib.Data.List.Nodup
import Mathlib.Data.List.Perm.Basic

/-!
# Pools of IDs

An allocator hands out IDs and takes them back: an ID is free to be used again,
taken by a request that has not used it yet, or in use.  New IDs are made only
when none is free, and `issued` says which have been made.

## Main results

* `Valid.reuse`, `Valid.fresh`, `Valid.use`, `Valid.release` — **what an
  allocator does keeps its pool valid**.
-/

namespace Mutgos

open List

variable {κ : Type*}

/-- The IDs of an allocator. -/
structure IdPool (κ : Type*) where
  /-- Free to be used again. -/
  free : List κ
  /-- In use. -/
  used : List κ
  /-- Handed out, but not in use yet. -/
  taken : List κ

namespace IdPool

/-- All IDs of a pool. -/
def ids (p : IdPool κ) : List κ := p.free ++ (p.used ++ p.taken)

/-- No ID is in two places, and every one has been made. -/
structure Valid (issued : κ → Prop) (p : IdPool κ) : Prop where
  nodup : p.ids.Nodup
  issued_of_mem : ∀ k ∈ p.ids, issued k

theorem mem_ids {p : IdPool κ} {k : κ} : k ∈ p.ids ↔ k ∈ p.free ∨ k ∈ p.used ∨ k ∈ p.taken := by
  rw [ids, mem_append, mem_append]

namespace Valid

variable {issued issued' : κ → Prop} {p q : IdPool κ} {k : κ}

/-! ### Where an ID is -/

section

variable (h : Valid issued p)
include h

/-- A free ID is not in use, nor has it been taken. -/
theorem notMem_of_free (hk : k ∈ p.free) : k ∉ p.used ∧ k ∉ p.taken := by
  have hdisjoint := disjoint_of_nodup_append h.nodup
  have hout : k ∉ p.used ++ p.taken := hdisjoint hk
  rw [mem_append, not_or] at hout
  exact hout

/-- An ID that has not been made is nowhere. -/
theorem notMem_of_not_issued (hk : ¬ issued k) : k ∉ p.ids :=
  fun hmem => hk (h.issued_of_mem k hmem)

/-- More IDs have been made. -/
theorem mono (hissued : ∀ k ∈ p.ids, issued k → issued' k) : Valid issued' p :=
  ⟨h.nodup, fun k hk => hissued k hk (h.issued_of_mem k hk)⟩

/-- The same IDs in other places. -/
theorem perm (hperm : p.ids.Perm q.ids) : Valid issued q :=
  ⟨hperm.nodup_iff.mp h.nodup, fun k hk => h.issued_of_mem k (hperm.mem_iff.mpr hk)⟩

/-- Some of the IDs, in their places. -/
theorem sublist (hfree : q.free.Sublist p.free) (hused : q.used.Sublist p.used)
    (htaken : q.taken.Sublist p.taken) : Valid issued q := by
  have hsub : q.ids.Sublist p.ids := hfree.append (hused.append htaken)
  exact ⟨h.nodup.sublist hsub, fun k hk => h.issued_of_mem k (hsub.subset hk)⟩

/-! ### What an allocator does -/

/-- A new ID is made and handed out. -/
theorem fresh (hk : ¬ issued k) (hissued : ∀ k' ∈ k :: p.ids, k' = k ∨ issued k' → issued' k') :
    Valid issued' ⟨p.free, p.used, k :: p.taken⟩ := by
  have hperm : (k :: p.ids).Perm (ids ⟨p.free, p.used, k :: p.taken⟩) := by
    rw [ids, ids, ← append_assoc, ← append_assoc]
    exact perm_middle.symm
  refine ⟨hperm.nodup_iff.mp (nodup_cons.mpr ⟨h.notMem_of_not_issued hk, h.nodup⟩), ?_⟩
  intro k' hk'
  have hmem := hperm.mem_iff.mpr hk'
  refine hissued k' hmem ?_
  rcases mem_cons.mp hmem with heq | hmem'
  · exact Or.inl heq
  · exact Or.inr (h.issued_of_mem k' hmem')

end

section Moves

variable [DecidableEq κ]

/-- A free ID is handed out. -/
theorem reuse (h : Valid issued p) (hk : k ∈ p.free) :
    Valid issued ⟨p.free.erase k, p.used, k :: p.taken⟩ := by
  refine h.perm ?_
  have hfree : p.free.Perm (k :: p.free.erase k) := perm_cons_erase hk
  have hmiddle : (k :: p.free.erase k ++ (p.used ++ p.taken)).Perm
      (p.free.erase k ++ (p.used ++ k :: p.taken)) := by
    rw [cons_append, ← append_assoc, ← append_assoc]
    exact perm_middle.symm
  exact (hfree.append_right _).trans hmiddle

/-- An ID that was handed out comes into use. -/
theorem use (h : Valid issued p) (hk : k ∈ p.taken) :
    Valid issued ⟨p.free, k :: p.used, p.taken.erase k⟩ := by
  refine h.perm (List.Perm.append_left _ ?_)
  have htaken : p.taken.Perm (k :: p.taken.erase k) := perm_cons_erase hk
  exact (htaken.append_left p.used).trans perm_middle

/-- An ID is used no longer. -/
theorem release (h : Valid issued p) (hk : k ∈ p.used) :
    Valid issued ⟨k :: p.free, p.used.erase k, p.taken⟩ := by
  refine h.perm ?_
  have hused : p.used.Perm (k :: p.used.erase k) := perm_cons_erase hk
  have hmiddle : (p.free ++ (k :: p.used.erase k ++ p.taken)).Perm
      (k :: p.free ++ (p.used.erase k ++ p.taken)) := perm_middle
  exact ((hused.append_right _).append_left _).trans hmiddle

end Moves

end Valid

end IdPool

end Mutgos
