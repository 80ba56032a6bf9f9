import Mathlib.Data.Finset.Basic
import Mathlib.Data.Finset.Lattice.Lemmas

/-!
# Journals of sets

What has happened to a set since it was last looked at, as the elements removed
since and the elements added since.  Applied to the set as it was, all removals
first and then all additions, the journal is to give the set as it is.

An element that comes and goes again leaves no trace: an addition takes back an
earlier removal, and a removal an earlier addition.  For a set of one element
there is a third operation, which replaces it.

## Main results

* `Tracks.add`, `Tracks.remove` — the first two operations keep track, and so do
  `Tracks.addAll`, `Tracks.removeAll` any number of them.
-/

namespace Mutgos

open List Finset

/-- The elements removed and the elements added. -/
structure SetJournal (α : Type*) where
  removed : Finset α
  added : Finset α
  deriving DecidableEq

namespace SetJournal

variable {α : Type*} [DecidableEq α]

/-- Nothing has happened. -/
def empty : SetJournal α := ⟨∅, ∅⟩

/-- All removals, then all additions. -/
def apply (j : SetJournal α) (base : Finset α) : Finset α := (base \ j.removed) ∪ j.added

/-- An element is added, or comes back. -/
def add (j : SetJournal α) (x : α) : SetJournal α :=
  if x ∈ j.removed then { j with removed := j.removed.erase x }
  else { j with added := insert x j.added }

/-- An element is removed, or goes again. -/
def remove (j : SetJournal α) (x : α) : SetJournal α :=
  if x ∈ j.added then { j with added := j.added.erase x }
  else { j with removed := insert x j.removed }

/-- One element is what has been added. -/
def replaceAdded (j : SetJournal α) (x : α) : SetJournal α := { j with added := {x} }

/-- An element is there now, whatever has happened to it. -/
def put (j : SetJournal α) (x : α) : SetJournal α := ⟨j.removed.erase x, insert x j.added⟩

/-- An element is not there now, whatever has happened to it. -/
def drop (j : SetJournal α) (x : α) : SetJournal α := ⟨insert x j.removed, j.added.erase x⟩

/-- The journal tells how a set came out of another one. -/
structure Tracks (base : Finset α) (j : SetJournal α) (current : Finset α) : Prop where
  removed : j.removed ⊆ base
  /-- What has been added was not there. -/
  fresh : ∀ x ∈ j.added, x ∈ base → x ∈ j.removed
  apply : j.apply base = current

variable {base current : Finset α} {j : SetJournal α} {x : α}

theorem mem_apply : x ∈ j.apply base ↔ x ∈ base ∧ x ∉ j.removed ∨ x ∈ j.added := by
  simp [SetJournal.apply]

@[simp] theorem apply_empty (base : Finset α) : SetJournal.empty.apply base = base := by
  ext x
  simp [mem_apply, SetJournal.empty]

theorem apply_put (j : SetJournal α) (base : Finset α) (x : α) :
    (j.put x).apply base = insert x (j.apply base) := by
  ext y
  simp only [mem_apply, put, mem_insert, mem_erase]
  tauto

theorem apply_drop (j : SetJournal α) (base : Finset α) (x : α) :
    (j.drop x).apply base = (j.apply base).erase x := by
  ext y
  simp only [mem_apply, drop, mem_insert, mem_erase]
  tauto

theorem removed_add_subset (h : j.removed ⊆ base) (x : α) : (j.add x).removed ⊆ base := by
  unfold SetJournal.add
  split
  · exact (Finset.erase_subset x _).trans h
  · exact h

/-- What comes of an element that is added, whether it was there or not. -/
theorem apply_add (h : j.removed ⊆ base) (x : α) :
    (j.add x).apply base = insert x (j.apply base) := by
  unfold SetJournal.add
  split
  · next hremoved =>
    have hwas := h hremoved
    ext y
    simp only [mem_apply, mem_erase, mem_insert]
    by_cases hy : y = x
    · subst hy
      simp [hwas]
    · simp [hy]
  · ext y
    simp only [mem_apply, mem_insert]
    tauto

theorem Tracks.mem_iff (h : Tracks base j current) :
    x ∈ current ↔ x ∈ base ∧ x ∉ j.removed ∨ x ∈ j.added := by
  rw [← h.apply, mem_apply]

theorem Tracks.empty (base : Finset α) : Tracks base .empty base where
  removed := empty_subset base
  fresh := nofun
  apply := apply_empty base

/-- Nothing has happened. -/
theorem Tracks.eq_of_empty (h : Tracks base .empty current) : base = current := by
  rw [← h.apply, apply_empty]

/-- **An element that was not there is added.** -/
theorem Tracks.add (h : Tracks base j current) (hx : x ∉ current) :
    Tracks base (j.add x) (insert x current) where
  removed := removed_add_subset h.removed x
  fresh := by
    rw [h.mem_iff, not_or, not_and_not_right] at hx
    obtain ⟨hbase, hadded⟩ := hx
    intro y hy hyb
    unfold SetJournal.add at hy ⊢
    split at hy
    · next hremoved =>
      -- it comes back
      rw [if_pos hremoved]
      have hne : y ≠ x := by rintro rfl; exact hadded hy
      exact mem_erase.mpr ⟨hne, h.fresh y hy hyb⟩
    · next hremoved =>
      rw [if_neg hremoved]
      rcases mem_insert.mp hy with rfl | hy
      · exact hbase hyb
      · exact h.fresh y hy hyb
  apply := by rw [apply_add h.removed, h.apply]

/-- **An element that is there is removed.** -/
theorem Tracks.remove (h : Tracks base j current) (hx : x ∈ current) :
    Tracks base (j.remove x) (current.erase x) := by
  rw [h.mem_iff] at hx
  unfold SetJournal.remove
  split
  · next hadded =>
    -- it goes again
    refine ⟨h.removed, ?_, ?_⟩
    · intro y hy hyb
      exact h.fresh y (Finset.mem_of_mem_erase hy) hyb
    · ext y
      simp only [mem_apply, mem_erase, h.mem_iff]
      by_cases hy : y = x
      · subst hy
        have hgone := h.fresh y hadded
        simp only [ne_eq, not_true_eq_false, false_and, or_false, iff_false, not_and, not_not]
        exact hgone
      · simp [hy]
  · next hadded =>
    have hwas : x ∈ base := (hx.resolve_right hadded).1
    refine ⟨insert_subset hwas h.removed, ?_, ?_⟩
    · intro y hy hyb
      exact Finset.mem_insert_of_mem (h.fresh y hy hyb)
    · ext y
      simp only [mem_apply, mem_erase, h.mem_iff, mem_insert]
      by_cases hy : y = x
      · subst hy; simp [hadded]
      · simp [hy]

/-- **The only element is replaced**, if it is one that has been added: nothing is
left of the set as it was. -/
theorem Tracks.replaceAdded {y : α} (h : Tracks base j {y}) (hy : y ∈ j.added) (x : α) :
    Tracks base (j.replaceAdded x) {x} := by
  have hgone : ∀ z ∈ base, z ∈ j.removed := by
    intro z hz
    by_contra hkept
    have hcurrent : z ∈ ({y} : Finset α) := h.mem_iff.mpr (.inl ⟨hz, hkept⟩)
    rw [Finset.mem_singleton] at hcurrent
    subst hcurrent
    exact hkept (h.fresh z hy hz)
  refine ⟨h.removed, ?_, ?_⟩
  · intro z _ hzb
    exact hgone z hzb
  · ext z
    rw [mem_apply]
    constructor
    · rintro (⟨hz, hkept⟩ | hz)
      · exact absurd (hgone z hz) hkept
      · exact hz
    · intro hz
      exact .inr hz

/-- A set of one element that has not changed is replaced. -/
theorem Tracks.replace (x y : α) : Tracks {x} ⟨{x}, {y}⟩ {y} where
  removed := subset_rfl
  fresh := fun _ _ hz => hz
  apply := by
    ext z
    simp [mem_apply]

/-! ### Many elements at once -/

theorem Tracks.removeAll (h : Tracks base j current) {l : List α} (hl : l.Nodup)
    (hin : ∀ x ∈ l, x ∈ current) :
    Tracks base (l.foldl SetJournal.remove j) (current \ l.toFinset) := by
  induction l generalizing j current with
  | nil => simpa using h
  | cons x l ih =>
    obtain ⟨hx, hl⟩ := nodup_cons.mp hl
    have hrest : ∀ y ∈ l, y ∈ current.erase x := by
      intro y hy
      have hne : y ≠ x := by rintro rfl; exact hx hy
      exact mem_erase.mpr ⟨hne, hin y (List.mem_cons_of_mem x hy)⟩
    have hall := ih (h.remove (hin x List.mem_cons_self)) hl hrest
    rw [erase_sdiff_comm, ← sdiff_insert, ← toFinset_cons] at hall
    exact hall

theorem Tracks.addAll (h : Tracks base j current) {l : List α} (hl : l.Nodup)
    (hout : ∀ x ∈ l, x ∉ current) :
    Tracks base (l.foldl SetJournal.add j) (current ∪ l.toFinset) := by
  induction l generalizing j current with
  | nil =>
    rw [toFinset_nil, union_empty]
    exact h
  | cons x l ih =>
    obtain ⟨hx, hl⟩ := nodup_cons.mp hl
    have hrest : ∀ y ∈ l, y ∉ insert x current := by
      intro y hy hmem
      rcases mem_insert.mp hmem with rfl | hmem
      · exact hx hy
      · exact hout y (List.mem_cons_of_mem x hy) hmem
    have hall := ih (h.add (hout x List.mem_cons_self)) hl hrest
    rw [insert_union, ← union_insert, ← toFinset_cons] at hall
    exact hall

theorem apply_addAll (h : j.removed ⊆ base) (l : List α) :
    (l.foldl SetJournal.add j).apply base = j.apply base ∪ l.toFinset := by
  induction l generalizing j with
  | nil => simp
  | cons x l ih =>
    rw [foldl_cons, ih (removed_add_subset h x), apply_add h, toFinset_cons,
      insert_union, union_insert]

theorem foldl_erase (l : List α) (s : Finset α) : l.foldl Finset.erase s = s \ l.toFinset := by
  induction l generalizing s with
  | nil => simp
  | cons x l ih =>
    rw [foldl_cons, ih, toFinset_cons, sdiff_insert, erase_sdiff_comm]

theorem foldl_insert (l : List α) (s : Finset α) :
    l.foldl (fun s x => insert x s) s = s ∪ l.toFinset := by
  induction l generalizing s with
  | nil => simp
  | cons x l ih =>
    rw [foldl_cons, ih, toFinset_cons, union_insert, insert_union]

/-- The removals in any order, and then the additions in any order. -/
theorem foldl_erase_insert {removals additions : List α} (hremovals : removals.toFinset = j.removed)
    (hadditions : additions.toFinset = j.added) (base : Finset α) :
    additions.foldl (fun s x => insert x s) (removals.foldl Finset.erase base) = j.apply base := by
  rw [foldl_erase, foldl_insert, hremovals, hadditions, SetJournal.apply]

/-! ### A bound on what the journal gives -/

/-- Nothing comes out of the set that is not in the list, now or after further
operations: every time that an element is in the list stands against its being in the
set or added. -/
structure Bounded (base : Finset α) (j : SetJournal α) (current : List α) : Prop where
  count : ∀ x, (if x ∈ base then 1 else 0) + (if x ∈ j.added then 1 else 0)
    ≤ current.count x + (if x ∈ j.removed then 1 else 0)
  disjoint : ∀ x ∈ j.added, x ∉ j.removed

section Bounded

variable {list list' : List α}

theorem Bounded.mem_of_mem_apply (h : Bounded base j list) (hx : x ∈ j.apply base) : x ∈ list := by
  have hcount := h.count x
  rw [← count_pos_iff]
  rcases mem_apply.mp hx with ⟨hbase, hremoved⟩ | hadded
  · rw [if_pos hbase, if_neg hremoved] at hcount
    omega
  · rw [if_pos hadded, if_neg (h.disjoint x hadded)] at hcount
    omega

theorem Bounded.empty (h : ∀ x ∈ base, x ∈ list) : Bounded base .empty list where
  count x := by
    by_cases hx : x ∈ base
    · have hpos := count_pos_iff.mpr (h x hx)
      simp only [SetJournal.empty, if_pos hx, notMem_empty, if_false]
      omega
    · simp [SetJournal.empty, hx]
  disjoint := nofun

theorem Bounded.perm (h : Bounded base j list) (hperm : list.Perm list') :
    Bounded base j list' where
  count x := hperm.count_eq x ▸ h.count x
  disjoint := h.disjoint

theorem Bounded.add (h : Bounded base j list) (x : α) : Bounded base (j.add x) (x :: list) := by
  unfold SetJournal.add
  split
  · next hremoved =>
    refine ⟨?_, ?_⟩
    · intro y
      have hcount := h.count y
      by_cases hy : y = x
      · subst hy
        rw [if_pos hremoved] at hcount
        simp only [mem_erase, ne_eq, not_true_eq_false, false_and, if_false,
          count_cons_self]
        omega
      · rw [count_cons_of_ne (Ne.symm hy)]
        simpa [hy] using hcount
    · intro y hy hmem
      exact h.disjoint y hy (Finset.mem_of_mem_erase hmem)
  · next hremoved =>
    refine ⟨?_, ?_⟩
    · intro y
      have hcount := h.count y
      by_cases hy : y = x
      · subst hy
        simp only [Finset.mem_insert_self, if_true, count_cons_self]
        have hnonneg : (0 : ℕ) ≤ if y ∈ j.added then 1 else 0 := Nat.zero_le _
        omega
      · rw [count_cons_of_ne (Ne.symm hy)]
        simpa [hy] using hcount
    · intro y hy
      rcases mem_insert.mp hy with rfl | hy
      · exact hremoved
      · exact h.disjoint y hy

theorem Bounded.remove (h : Bounded base j list) (hx : x ∈ list) :
    Bounded base (j.remove x) (list.erase x) := by
  have hpos := count_pos_iff.mpr hx
  unfold SetJournal.remove
  split
  · next hadded =>
    refine ⟨?_, ?_⟩
    · intro y
      have hcount := h.count y
      by_cases hy : y = x
      · subst hy
        rw [if_pos hadded] at hcount
        simp only [mem_erase, ne_eq, not_true_eq_false, false_and, if_false,
          count_erase_self]
        omega
      · rw [count_erase_of_ne hy]
        simpa [hy] using hcount
    · intro y hy
      exact h.disjoint y (Finset.mem_of_mem_erase hy)
  · next hadded =>
    refine ⟨?_, ?_⟩
    · intro y
      have hcount := h.count y
      by_cases hy : y = x
      · subst hy
        simp only [hadded, if_false, Finset.mem_insert_self, if_true, count_erase_self]
        by_cases hbase : y ∈ base
        · rw [if_pos hbase]
          omega
        · rw [if_neg hbase]
          omega
      · rw [count_erase_of_ne hy]
        simpa [hy] using hcount
    · intro y hy hmem
      rcases mem_insert.mp hmem with rfl | hmem
      · exact hadded hy
      · exact h.disjoint y hy hmem

end Bounded

/-! ### One journal after the other -/

/-- All journals, in order. -/
def applyAll (js : List (SetJournal α)) (base : Finset α) : Finset α :=
  js.foldl (fun s j => j.apply s) base

section ApplyAll

variable {base' : Finset α} {js : List (SetJournal α)}

@[simp] theorem applyAll_nil (base : Finset α) : applyAll [] base = base := rfl

@[simp] theorem applyAll_cons (j : SetJournal α) (js : List (SetJournal α)) (base : Finset α) :
    applyAll (j :: js) base = applyAll js (j.apply base) := rfl

theorem applyAll_concat (js : List (SetJournal α)) (j : SetJournal α) (base : Finset α) :
    applyAll (js ++ [j]) base = j.apply (applyAll js base) := by
  rw [applyAll, foldl_append]
  rfl

theorem apply_mono (h : base ⊆ base') : j.apply base ⊆ j.apply base' := by
  intro x hx
  rw [mem_apply] at hx ⊢
  exact hx.imp_left (And.imp_left fun hbase => h hbase)

theorem applyAll_mono (h : base ⊆ base') : applyAll js base ⊆ applyAll js base' := by
  induction js generalizing base base' with
  | nil => exact h
  | cons j js ih => exact ih (apply_mono h)

/-- What no journal adds has been there. -/
theorem mem_of_mem_applyAll (hx : x ∈ applyAll js base) (hadded : ∀ j ∈ js, x ∉ j.added) :
    x ∈ base := by
  induction js generalizing base with
  | nil => exact hx
  | cons j js ih =>
    have hfirst : x ∈ j.apply base := ih hx fun j' hj' => hadded j' (List.mem_cons_of_mem j hj')
    exact ((mem_apply.mp hfirst).resolve_right (hadded j List.mem_cons_self)).1

end ApplyAll

end SetJournal

end Mutgos
