import Mathlib.Data.List.Basic
import Mathlib.Logic.Function.Basic
import Mathlib.Order.RelClasses

/-!
# Sorted association lists

A map as the list of its entries in the order of their keys, for types that hold
maps of themselves.

## Main results

* `find_insert`, `find_erase`, `find_map` — what is found afterwards.
-/

namespace Mutgos

open List

namespace SortedMap

variable {κ ν : Type*}

section Find

variable [DecidableEq κ]

/-- The value of a key. -/
def find (k : κ) : List (κ × ν) → Option ν
  | [] => none
  | (k', v) :: m => if k = k' then some v else find k m

/-- Without a key. -/
def erase (k : κ) : List (κ × ν) → List (κ × ν)
  | [] => []
  | (k', v) :: m => if k = k' then erase k m else (k', v) :: erase k m

@[simp] theorem find_nil (k : κ) : find k ([] : List (κ × ν)) = none := rfl

theorem find_erase (k k' : κ) (m : List (κ × ν)) :
    find k' (erase k m) = if k' = k then none else find k' m := by
  induction m with
  | nil => simp [erase]
  | cons e m ih =>
    obtain ⟨k₀, v₀⟩ := e
    by_cases h₀ : k = k₀
    · subst h₀
      rw [erase, if_pos rfl, ih, find]
      split <;> rfl
    · rw [erase, if_neg h₀, find, find, ih]
      by_cases h : k' = k₀
      · have hne : k' ≠ k := fun heq => h₀ (heq.symm.trans h)
        rw [if_pos h, if_neg hne, if_pos h]
      · rw [if_neg h, if_neg h]

variable {k : κ} {v : ν} {m : List (κ × ν)}

/-- What is found is there. -/
theorem mem_of_find (h : find k m = some v) : (k, v) ∈ m := by
  induction m with
  | nil => cases h
  | cons e m ih =>
    obtain ⟨k₀, v₀⟩ := e
    rw [find] at h
    split at h
    · rename_i heq
      cases h
      exact heq ▸ mem_cons_self
    · exact mem_cons_of_mem _ (ih h)

/-- The key of what is found is there. -/
theorem mem_keys_of_find (h : find k m = some v) :
    k ∈ m.map Prod.fst := mem_map_of_mem (f := Prod.fst) (mem_of_find h)

/-- Where each key is there once, each entry is found. -/
theorem find_of_mem (h : (m.map Prod.fst).Nodup) (hmem : (k, v) ∈ m) : find k m = some v := by
  induction m with
  | nil => cases hmem
  | cons e m ih =>
    obtain ⟨k₀, v₀⟩ := e
    obtain ⟨hout, hrest⟩ := nodup_cons.mp h
    rw [find]
    rcases mem_cons.mp hmem with heq | hmem
    · obtain ⟨rfl, rfl⟩ := Prod.mk.injEq .. ▸ heq
      exact if_pos rfl
    · have hkey : k ∈ m.map Prod.fst := mem_map_of_mem (f := Prod.fst) hmem
      have hne : k ≠ k₀ := fun heq => hout (heq ▸ hkey)
      rw [if_neg hne]
      exact ih hrest hmem

/-- There is a value for a key that is there. -/
theorem find_ne_none (h : k ∈ m.map Prod.fst) : find k m ≠ none := by
  induction m with
  | nil => cases h
  | cons e m ih =>
    obtain ⟨k₀, v₀⟩ := e
    rw [find]
    split
    · exact nofun
    · rename_i hne
      exact ih ((mem_cons.mp h).resolve_left hne)

/-- Every value is replaced by one that depends on its key. -/
theorem find_map {ν' : Type*} (f : κ → ν → ν') (k : κ) (m : List (κ × ν)) :
    find k (m.map fun e => (e.1, f e.1 e.2)) = (find k m).map (f k) := by
  induction m with
  | nil => rfl
  | cons e m ih =>
    obtain ⟨k₀, v₀⟩ := e
    rw [map_cons, find, find, ih]
    split
    · rename_i heq
      rw [heq, Option.map_some]
    · rfl

/-- Only some keys are kept. -/
theorem find_filter (p : κ → Bool) (k : κ) (m : List (κ × ν)) :
    find k (m.filter fun e => p e.1) = if p k then find k m else none := by
  induction m with
  | nil => simp
  | cons e m ih =>
    obtain ⟨k₀, v₀⟩ := e
    by_cases hk₀ : p k₀ = true
    · have hcons : ((k₀, v₀) :: m).filter (fun e => p e.1) =
          (k₀, v₀) :: m.filter fun e => p e.1 := filter_cons_of_pos hk₀
      rw [hcons, find, find, ih]
      by_cases heq : k = k₀
      · rw [if_pos heq, if_pos heq, heq, if_pos hk₀]
      · rw [if_neg heq, if_neg heq]
    · have hcons : ((k₀, v₀) :: m).filter (fun e => p e.1) = m.filter fun e => p e.1 :=
        filter_cons_of_neg hk₀
      rw [hcons, ih, find]
      by_cases heq : k = k₀
      · rw [heq, if_neg hk₀, if_neg hk₀]
      · rw [if_neg heq]

theorem erase_map {ν' : Type*} (f : κ → ν → ν') (k : κ) (m : List (κ × ν)) :
    erase k (m.map fun e => (e.1, f e.1 e.2)) = (erase k m).map fun e => (e.1, f e.1 e.2) := by
  induction m with
  | nil => rfl
  | cons e m ih =>
    obtain ⟨k₀, v₀⟩ := e
    rw [map_cons, erase, erase, ih]
    split <;> rfl

/-- Several keys are erased. -/
theorem find_foldl_erase (ks : List κ) (k : κ) (m : List (κ × ν)) :
    find k (ks.foldl (fun m k' => erase k' m) m) = if k ∈ ks then none else find k m := by
  induction ks generalizing m with
  | nil => simp
  | cons k' ks ih =>
    rw [foldl_cons, ih, find_erase]
    by_cases heq : k = k'
    · simp [heq]
    · simp [heq]

/-- A key that is not there is erased. -/
theorem erase_of_find_eq_none (h : find k m = none) : erase k m = m := by
  induction m with
  | nil => rfl
  | cons e m ih =>
    obtain ⟨k₀, v₀⟩ := e
    rw [find] at h
    split at h
    · cases h
    · rename_i hne
      rw [erase, if_neg hne, ih h]

/-- The other entries stay, in their order. -/
theorem erase_sublist (k : κ) (m : List (κ × ν)) : (erase k m).Sublist m := by
  induction m with
  | nil => exact .slnil
  | cons e m ih =>
    obtain ⟨k₀, v₀⟩ := e
    rw [erase]
    split
    · exact ih.cons _
    · exact ih.cons_cons _

/-- What is there afterwards was there. -/
theorem erase_subset (k : κ) (m : List (κ × ν)) : erase k m ⊆ m := (erase_sublist k m).subset

theorem mem_erase {k' : κ} : (k', v) ∈ erase k m ↔ k' ≠ k ∧ (k', v) ∈ m := by
  induction m with
  | nil => simp [erase]
  | cons e m ih =>
    obtain ⟨k₀, v₀⟩ := e
    rw [erase, mem_cons]
    split
    · rename_i heq
      rw [ih]
      constructor
      · intro ⟨hne, hmem⟩
        exact ⟨hne, .inr hmem⟩
      · rintro ⟨hne, hmem | hmem⟩
        · exact absurd ((congrArg Prod.fst hmem).trans heq.symm) hne
        · exact ⟨hne, hmem⟩
    · rename_i hne₀
      rw [mem_cons, ih]
      constructor
      · rintro (heq | ⟨hne, hmem⟩)
        · exact ⟨fun hk => hne₀ (hk.symm.trans (congrArg Prod.fst heq)), .inl heq⟩
        · exact ⟨hne, .inr hmem⟩
      · intro ⟨hne, hmem⟩
        exact hmem.imp_right fun hmem => ⟨hne, hmem⟩

theorem mem_keys_erase (k k' : κ) (m : List (κ × ν)) :
    k' ∈ (erase k m).map Prod.fst ↔ k' ≠ k ∧ k' ∈ m.map Prod.fst := by
  induction m with
  | nil => simp [erase]
  | cons e m ih =>
    obtain ⟨k₀, v₀⟩ := e
    by_cases h₀ : k = k₀
    · subst h₀
      rw [erase, if_pos rfl, ih, map_cons, mem_cons]
      constructor
      · intro ⟨hne, hmem⟩
        exact ⟨hne, .inr hmem⟩
      · intro ⟨hne, hmem⟩
        exact ⟨hne, hmem.resolve_left hne⟩
    · rw [erase, if_neg h₀, map_cons, map_cons, mem_cons, mem_cons, ih]
      constructor
      · intro hmem
        obtain rfl | ⟨hne, hmem⟩ := hmem
        · exact ⟨fun heq => h₀ heq.symm, .inl rfl⟩
        · exact ⟨hne, .inr hmem⟩
      · intro ⟨hne, hmem⟩
        exact hmem.imp_right fun hmem => ⟨hne, hmem⟩

end Find

section Insert

variable [DecidableEq κ] [LT κ] [DecidableLT κ]

/-- The key gets the value, in its place. -/
def insert (k : κ) (v : ν) : List (κ × ν) → List (κ × ν)
  | [] => [(k, v)]
  | (k', v') :: m =>
    if k = k' then (k, v) :: m
    else if k < k' then (k, v) :: (k', v') :: m
    else (k', v') :: insert k v m

theorem find_insert (k k' : κ) (v : ν) (m : List (κ × ν)) :
    find k' (insert k v m) = if k' = k then some v else find k' m := by
  induction m with
  | nil => rfl
  | cons e m ih =>
    obtain ⟨k₀, v₀⟩ := e
    by_cases h₀ : k = k₀
    · subst h₀
      rw [insert, if_pos rfl, find, find]
      split <;> rfl
    · rw [insert, if_neg h₀]
      split
      · rw [find]
      · rw [find, find, ih]
        by_cases h : k' = k₀
        · have hne : k' ≠ k := fun heq => h₀ (heq.symm.trans h)
          rw [if_pos h, if_neg hne, if_pos h]
        · rw [if_neg h, if_neg h]

variable {m : List (κ × ν)} {k : κ} {v : ν}

/-- A function that says what is found says so afterwards. -/
theorem update_of_find_insert {f : κ → ν} (h : ∀ k v, find k m = some v → f k = v) (k' : κ) (v' : ν)
    (hfind : find k' (insert k v m) = some v') : Function.update f k v k' = v' := by
  rw [find_insert] at hfind
  split at hfind
  · next heq =>
    cases hfind
    rw [heq, Function.update_self]
  · next hne =>
    rw [Function.update_of_ne hne]
    exact h k' v' hfind

/-- What is there afterwards is what was inserted, or it was there. -/
theorem mem_of_mem_insert {e : κ × ν} (h : e ∈ insert k v m) : e = (k, v) ∨ e ∈ m := by
  induction m with
  | nil => exact .inl (mem_singleton.mp h)
  | cons e' m ih =>
    obtain ⟨k₀, v₀⟩ := e'
    rw [insert] at h
    split at h
    · exact (mem_cons.mp h).imp_right (mem_cons_of_mem _)
    · split at h
      · exact mem_cons.mp h
      · obtain rfl | h := mem_cons.mp h
        · exact .inr mem_cons_self
        · exact (ih h).imp_right (mem_cons_of_mem _)

theorem mem_keys_insert (k k' : κ) (v : ν) (m : List (κ × ν)) :
    k' ∈ (insert k v m).map Prod.fst ↔ k' = k ∨ k' ∈ m.map Prod.fst := by
  induction m with
  | nil => simp [insert]
  | cons e m ih =>
    obtain ⟨k₀, v₀⟩ := e
    by_cases h₀ : k = k₀
    · subst h₀
      rw [insert, if_pos rfl]
      simp
    · rw [insert, if_neg h₀]
      split
      · simp
      · rw [map_cons, map_cons, mem_cons, mem_cons, ih]
        exact or_left_comm

/-- A new key is one more entry. -/
theorem length_insert_of_find_eq_none (h : find k m = none) (v : ν) :
    (insert k v m).length = m.length + 1 := by
  induction m with
  | nil => rfl
  | cons e m ih =>
    obtain ⟨k₀, v₀⟩ := e
    rw [find] at h
    split at h
    · cases h
    · next hne =>
      rw [insert, if_neg hne]
      split
      · rfl
      · rw [length_cons, ih h, length_cons]

/-- What differs between the values still does, with a value that differs from them. -/
theorem nodup_insert {ι : Type*} (f : ν → ι) (h : (m.map fun e => f e.2).Nodup)
    (hv : ∀ e ∈ m, f e.2 ≠ f v) : ((insert k v m).map fun e => f e.2).Nodup := by
  have hnew : f v ∉ m.map fun e => f e.2 := by
    intro hmem
    obtain ⟨e, he, heq⟩ := mem_map.mp hmem
    exact hv e he heq
  induction m with
  | nil => exact pairwise_singleton _ _
  | cons e m ih =>
    obtain ⟨k₀, v₀⟩ := e
    obtain ⟨hout, hrest⟩ := nodup_cons.mp h
    rw [insert]
    split
    · exact nodup_cons.mpr ⟨fun hmem => hnew (mem_cons_of_mem _ hmem), hrest⟩
    · split
      · exact nodup_cons.mpr ⟨hnew, h⟩
      · refine nodup_cons.mpr ⟨?_, ih hrest (fun e he => hv e (mem_cons_of_mem _ he))
          (fun hmem => hnew (mem_cons_of_mem _ hmem))⟩
        intro hmem
        obtain ⟨e, he, heq⟩ := mem_map.mp hmem
        rcases mem_of_mem_insert he with rfl | he
        · exact hv (k₀, v₀) mem_cons_self heq.symm
        · exact hout (mem_map.mpr ⟨e, he, heq⟩)

/-- Every value is replaced by one that depends on its key, before or afterwards. -/
theorem insert_map {ν' : Type*} (f : κ → ν → ν') (k : κ) (v : ν) (m : List (κ × ν)) :
    insert k (f k v) (m.map fun e => (e.1, f e.1 e.2))
      = (insert k v m).map fun e => (e.1, f e.1 e.2) := by
  induction m with
  | nil => rfl
  | cons e m ih =>
    obtain ⟨k₀, v₀⟩ := e
    rw [map_cons, insert, insert, ih]
    split
    · rfl
    · split <;> rfl

/-! ### Keys in order -/

/-- The keys are in order, and so each of them is there once. -/
def Sorted (m : List (κ × ν)) : Prop := (m.map Prod.fst).Pairwise (· < ·)

theorem sorted_nil : Sorted ([] : List (κ × ν)) := .nil

theorem Sorted.erase {m : List (κ × ν)} (h : Sorted m) (k : κ) : Sorted (erase k m) :=
  h.sublist ((erase_sublist k m).map Prod.fst)

variable [IsStrictTotalOrder κ (· < ·)]

theorem Sorted.nodup (h : Sorted m) : (m.map Prod.fst).Nodup := by
  refine List.Pairwise.imp ?_ h
  rintro k k' hlt rfl
  exact irrefl_of (· < ·) k hlt

theorem Sorted.insert {m : List (κ × ν)} (h : Sorted m) (k : κ) (v : ν) :
    Sorted (insert k v m) := by
  induction m with
  | nil => exact pairwise_singleton _ _
  | cons e m ih =>
    obtain ⟨k₀, v₀⟩ := e
    have hcons := pairwise_cons.mp h
    rw [SortedMap.insert]
    split
    · next heq =>
      subst heq
      exact pairwise_cons.mpr hcons
    · next hne =>
      split
      · next hlt =>
        refine pairwise_cons.mpr ⟨fun k' hk' => ?_, h⟩
        rcases mem_cons.mp hk' with rfl | hk'
        · exact hlt
        · exact trans_of (· < ·) hlt (hcons.1 k' hk')
      · next hnlt =>
        refine pairwise_cons.mpr ⟨fun k' hk' => ?_, ih hcons.2⟩
        rcases (mem_keys_insert k k' v m).mp hk' with rfl | hk'
        · exact (trichotomous_of (· < ·) k' k₀).resolve_left hnlt |>.resolve_left hne
        · exact hcons.1 k' hk'

/-- A key that is there gets its value in place. -/
theorem Sorted.insert_eq_map (h : Sorted m) (hmem : (k, v) ∈ m) (v' : ν) :
    SortedMap.insert k v' m = m.map fun e => if e.1 = k then (e.1, v') else e := by
  induction m with
  | nil => cases hmem
  | cons e m ih =>
    obtain ⟨k₀, v₀⟩ := e
    have hcons := pairwise_cons.mp h
    rw [SortedMap.insert, map_cons]
    by_cases heq : k = k₀
    · subst heq
      have hrest : ∀ e ∈ m, (if e.1 = k then (e.1, v') else e) = id e := by
        intro e he
        refine if_neg fun heq => ?_
        exact irrefl_of (· < ·) k (heq ▸ hcons.1 e.1 (mem_map_of_mem he))
      rw [if_pos rfl, if_pos rfl, map_congr_left hrest, map_id]
    · have hin : (k, v) ∈ m := (mem_cons.mp hmem).resolve_left fun h =>
        heq (congrArg Prod.fst h)
      have hgreater : k₀ < k := hcons.1 k (mem_map_of_mem (f := Prod.fst) hin)
      have hnlt : ¬ k < k₀ := asymm_of (· < ·) hgreater
      rw [if_neg heq, if_neg hnlt, if_neg (Ne.symm heq), ih hcons.2 hin]

/-- Each entry is found. -/
theorem Sorted.mem_iff (h : Sorted m) : (k, v) ∈ m ↔ find k m = some v :=
  ⟨find_of_mem h.nodup, mem_of_find⟩

/-- A new key is one more. -/
theorem Sorted.keys_insert (h : Sorted m) (hk : k ∉ m.map Prod.fst) (v : ν) :
    ((SortedMap.insert k v m).map Prod.fst).Perm (k :: m.map Prod.fst) := by
  refine (perm_ext_iff_of_nodup (h.insert k v).nodup (nodup_cons.mpr ⟨hk, h.nodup⟩)).mpr
    fun k' => ?_
  rw [mem_keys_insert, mem_cons]

/-- A key that is there gets another value. -/
theorem Sorted.keys_insert_of_mem (h : Sorted m) (hk : k ∈ m.map Prod.fst) (v : ν) :
    ((SortedMap.insert k v m).map Prod.fst).Perm (m.map Prod.fst) := by
  refine (perm_ext_iff_of_nodup (h.insert k v).nodup h.nodup).mpr fun k' => ?_
  rw [mem_keys_insert]
  constructor
  · rintro (rfl | hk')
    · exact hk
    · exact hk'
  · exact .inr

/-- A key that was there is one fewer. -/
theorem Sorted.keys_erase (h : Sorted m) (hk : k ∈ m.map Prod.fst) :
    (m.map Prod.fst).Perm (k :: (SortedMap.erase k m).map Prod.fst) := by
  have hout : k ∉ (SortedMap.erase k m).map Prod.fst := by
    intro hmem
    exact ((mem_keys_erase k k m).mp hmem).1 rfl
  refine (perm_ext_iff_of_nodup h.nodup
    (nodup_cons.mpr ⟨hout, (h.erase k).nodup⟩)).mpr fun k' => ?_
  rw [mem_cons, mem_keys_erase]
  constructor
  · intro hk'
    by_cases heq : k' = k
    · exact .inl heq
    · exact .inr ⟨heq, hk'⟩
  · rintro (rfl | ⟨-, hk'⟩)
    · exact hk
    · exact hk'

end Insert

end SortedMap

end Mutgos
