import Mathlib.Data.List.Nodup
import Mathlib.Data.List.Flatten
import Std.Data.TreeMap
import Std.Data.TreeMap.Lemmas

/-!
# Two-level bucket indexes

A map from an outer key to a map from an inner key to a vector of values, as
programs keep it to find all values of one owner (both keys) or of one group
(the outer key).  A vector is created on first use and removed when its last
value goes, and so is an inner map.

## Main results

* `bucket_add`, `bucket_remove` — what the two operations do to every bucket.
-/

namespace Mutgos

/-- A map to maps to vectors. -/
abbrev BucketIndex (κ₁ κ₂ ν : Type*) [Ord κ₁] [Ord κ₂] :=
  Std.TreeMap κ₁ (Std.TreeMap κ₂ (List ν))

namespace BucketIndex

variable {κ₁ κ₂ ν : Type*} [Ord κ₁] [Ord κ₂]

/-- The vector under `a` and `b`. -/
def bucket (m : BucketIndex κ₁ κ₂ ν) (a : κ₁) (b : κ₂) : List ν :=
  ((m[a]?.bind fun sub => sub[b]?)).getD []

/-- Everything under `a`, inner keys in order. -/
def slice (m : BucketIndex κ₁ κ₂ ν) (a : κ₁) : List ν :=
  (m[a]?.getD ∅).toList.flatMap fun entry => entry.2

/-- Append a value under `a` and `b`, with the containers it needs. -/
def add (m : BucketIndex κ₁ κ₂ ν) (a : κ₁) (b : κ₂) (x : ν) : BucketIndex κ₁ κ₂ ν :=
  m.insert a ((m[a]?.getD ∅).insert b (m.bucket a b ++ [x]))

/-- Take the first `x` under `a` and `b` out, and with it a vector and an inner
map that it leaves empty. -/
def remove [DecidableEq ν] (m : BucketIndex κ₁ κ₂ ν) (a : κ₁) (b : κ₂) (x : ν) :
    BucketIndex κ₁ κ₂ ν :=
  match m[a]? with
  | none => m
  | some sub =>
    match sub[b]? with
    | none => m
    | some l =>
      if (l.erase x).isEmpty then
        if (sub.erase b).isEmpty then m.erase a else m.insert a (sub.erase b)
      else m.insert a (sub.insert b (l.erase x))

/-- No vector and no inner map is empty. -/
structure NoEmpty (m : BucketIndex κ₁ κ₂ ν) : Prop where
  inner : ∀ (a : κ₁) (sub : Std.TreeMap κ₂ (List ν)), m[a]? = some sub → sub.isEmpty = false
  vector : ∀ (a : κ₁) (sub : Std.TreeMap κ₂ (List ν)) (b : κ₂) (l : List ν),
    m[a]? = some sub → sub[b]? = some l → l ≠ []

variable [Std.TransOrd κ₁] [Std.LawfulEqOrd κ₁] [Std.TransOrd κ₂] [Std.LawfulEqOrd κ₂]
variable [DecidableEq κ₁] [DecidableEq κ₂]

/-! ### Buckets -/

omit [Std.TransOrd κ₁] [Std.LawfulEqOrd κ₁] [DecidableEq κ₁] [Std.LawfulEqOrd κ₂]
  [DecidableEq κ₂] in
/-- Looking an inner key up in the map under `a`, whether it exists or not. -/
theorem getElem?_getD_empty (m : BucketIndex κ₁ κ₂ ν) (a : κ₁) (b : κ₂) :
    (m[a]?.getD ∅)[b]? = m[a]?.bind fun sub => sub[b]? := by
  cases m[a]? <;> simp

theorem bucket_add (m : BucketIndex κ₁ κ₂ ν) (a a' : κ₁) (b b' : κ₂) (x : ν) :
    (m.add a b x).bucket a' b' =
      if a = a' ∧ b = b' then m.bucket a b ++ [x] else m.bucket a' b' := by
  unfold add
  rw [bucket, Std.TreeMap.getElem?_insert]
  by_cases ha : a = a'
  · subst ha
    simp only [Std.compare_self, if_true, Option.bind_some, Std.TreeMap.getElem?_insert,
      Std.compare_eq_iff_eq, true_and, getElem?_getD_empty]
    by_cases hb : b = b'
    · simp [hb]
    · simp [hb, bucket]
  · simp [ha, bucket]

theorem bucket_remove [DecidableEq ν] (m : BucketIndex κ₁ κ₂ ν) (a a' : κ₁) (b b' : κ₂) (x : ν) :
    (m.remove a b x).bucket a' b' =
      if a = a' ∧ b = b' then (m.bucket a b).erase x else m.bucket a' b' := by
  -- where nothing is found nothing changes, and there is nothing to erase
  have hkeep : m.bucket a b = [] → m.bucket a' b' =
      if a = a' ∧ b = b' then (m.bucket a b).erase x else m.bucket a' b' := by
    intro h
    split
    · next hab => rw [← hab.1, ← hab.2, h]; rfl
    · rfl
  unfold remove
  cases hm : m[a]? with
  | none => exact hkeep (by simp [bucket, hm])
  | some sub =>
    cases hs : sub[b]? with
    | none => simp only [hs]; exact hkeep (by simp [bucket, hm, hs])
    | some l =>
      simp only [hs]
      have hl : m.bucket a b = l := by simp [bucket, hm, hs]
      rw [hl]
      by_cases ha : a = a'
      · subst ha
        by_cases hb : b = b'
        · subst hb
          simp only [and_self, if_true]
          split
          · next he =>
            rw [List.isEmpty_iff] at he
            rw [he]
            split <;> simp [bucket]
          · simp [bucket]
        · simp only [hb, and_false, if_false]
          split
          · split
            · next he =>
              have hnone : sub[b']? = none := by
                have := Std.TreeMap.isEmpty_iff_forall_not_mem.mp he b'
                rw [Std.TreeMap.mem_erase] at this
                simpa [hb] using this
              simp [bucket, hm, hnone]
            · simp [bucket, hm, hb, Std.TreeMap.getElem?_erase]
          · simp [bucket, hm, hb, Std.TreeMap.getElem?_insert]
      · simp only [ha, false_and, if_false]
        split
        · split
          · simp [bucket, ha, Std.TreeMap.getElem?_erase]
          · simp [bucket, ha, Std.TreeMap.getElem?_insert]
        · simp [bucket, ha, Std.TreeMap.getElem?_insert]

/-! ### Empty containers -/

omit [Std.LawfulEqOrd κ₁] [Std.TransOrd κ₂] [Std.LawfulEqOrd κ₂] [DecidableEq κ₁]
  [DecidableEq κ₂] in
theorem noEmpty_empty : NoEmpty (∅ : BucketIndex κ₁ κ₂ ν) :=
  ⟨fun a sub h => by simp at h, fun a sub b l h _ => by simp at h⟩

variable {m : BucketIndex κ₁ κ₂ ν}

omit [Std.LawfulEqOrd κ₁] [Std.TransOrd κ₂] [Std.LawfulEqOrd κ₂] [DecidableEq κ₁]
  [DecidableEq κ₂] in
/-- Storing an inner map that is itself without empty containers. -/
theorem NoEmpty.insert (h : m.NoEmpty) (a : κ₁) {sub : Std.TreeMap κ₂ (List ν)}
    (hne : sub.isEmpty = false) (hvec : ∀ (b : κ₂) (l : List ν), sub[b]? = some l → l ≠ []) :
    NoEmpty (Std.TreeMap.insert m a sub) := by
  constructor
  · intro a' sub' hsub
    rw [Std.TreeMap.getElem?_insert] at hsub
    split at hsub
    · rw [← Option.some.inj hsub]; exact hne
    · exact h.inner a' sub' hsub
  · intro a' sub' b' l hsub hl
    rw [Std.TreeMap.getElem?_insert] at hsub
    split at hsub
    · rw [← Option.some.inj hsub] at hl; exact hvec b' l hl
    · exact h.vector a' sub' b' l hsub hl

omit [Std.LawfulEqOrd κ₁] [Std.TransOrd κ₂] [Std.LawfulEqOrd κ₂] [DecidableEq κ₁]
  [DecidableEq κ₂] in
theorem NoEmpty.erase (h : m.NoEmpty) (a : κ₁) : NoEmpty (Std.TreeMap.erase m a) := by
  constructor
  · intro a' sub hsub
    rw [Std.TreeMap.getElem?_erase] at hsub
    split at hsub
    · simp at hsub
    · exact h.inner a' sub hsub
  · intro a' sub b l hsub hl
    rw [Std.TreeMap.getElem?_erase] at hsub
    split at hsub
    · simp at hsub
    · exact h.vector a' sub b l hsub hl

omit [Std.LawfulEqOrd κ₁] [Std.LawfulEqOrd κ₂] [DecidableEq κ₁] [DecidableEq κ₂] in
theorem NoEmpty.add {m : BucketIndex κ₁ κ₂ ν} (h : m.NoEmpty) (a : κ₁) (b : κ₂) (x : ν) :
    (m.add a b x).NoEmpty := by
  refine h.insert a (by simp) ?_
  intro b' l hl
  rw [Std.TreeMap.getElem?_insert] at hl
  split at hl
  · simp [← Option.some.inj hl]
  · rw [getElem?_getD_empty, Option.bind_eq_some_iff] at hl
    obtain ⟨sub, hsub, hl⟩ := hl
    exact h.vector a sub b' l hsub hl

omit [Std.LawfulEqOrd κ₁] [Std.LawfulEqOrd κ₂] [DecidableEq κ₁] [DecidableEq κ₂] in
theorem NoEmpty.remove [DecidableEq ν] {m : BucketIndex κ₁ κ₂ ν} (h : m.NoEmpty) (a : κ₁)
    (b : κ₂) (x : ν) : (m.remove a b x).NoEmpty := by
  unfold BucketIndex.remove
  split
  · exact h
  · next sub hm =>
    split
    · exact h
    · next l hs =>
      split
      · split
        · exact h.erase a
        · next hne =>
          refine h.insert a (Bool.eq_false_iff.mpr hne) ?_
          intro b' l' hl
          rw [Std.TreeMap.getElem?_erase] at hl
          split at hl
          · simp at hl
          · exact h.vector a sub b' l' hm hl
      · next hne =>
        refine h.insert a (by simp) ?_
        intro b' l' hl
        rw [Std.TreeMap.getElem?_insert] at hl
        split at hl
        · rw [← Option.some.inj hl]; simpa using hne
        · exact h.vector a sub b' l' hm hl

/-! ### Slices -/

omit [Std.TransOrd κ₁] [Std.LawfulEqOrd κ₁] [DecidableEq κ₁] [DecidableEq κ₂] in
theorem mem_slice {a : κ₁} {x : ν} : x ∈ m.slice a ↔ ∃ b, x ∈ m.bucket a b := by
  unfold slice bucket
  rw [List.mem_flatMap]
  cases m[a]? with
  | none => simp
  | some sub =>
    simp only [Option.getD_some, Option.bind_some]
    constructor
    · rintro ⟨⟨b, l⟩, hbl, hx⟩
      rw [Std.TreeMap.mem_toList_iff_getElem?_eq_some] at hbl
      exact ⟨b, by simpa [hbl] using hx⟩
    · rintro ⟨b, hx⟩
      cases hb : sub[b]? with
      | none => simp [hb] at hx
      | some l =>
        exact ⟨(b, l), Std.TreeMap.mem_toList_iff_getElem?_eq_some.mpr hb, by simpa [hb] using hx⟩

omit [Std.TransOrd κ₁] [Std.LawfulEqOrd κ₁] [DecidableEq κ₁] [DecidableEq κ₂] in
/-- A slice repeats no value if no bucket does and no two buckets share one. -/
theorem nodup_slice {a : κ₁} (hnd : ∀ b, (m.bucket a b).Nodup)
    (hdisj : ∀ b b' x, x ∈ m.bucket a b → x ∈ m.bucket a b' → b = b') : (m.slice a).Nodup := by
  unfold slice
  unfold bucket at hnd hdisj
  cases hm : m[a]? with
  | none => exact List.nodup_nil
  | some sub =>
    simp only [hm, Option.getD_some, Option.bind_some] at hnd hdisj ⊢
    rw [List.nodup_flatMap]
    have hget : ∀ {b l}, (b, l) ∈ sub.toList → sub[b]? = some l := fun h =>
      Std.TreeMap.mem_toList_iff_getElem?_eq_some.mp h
    refine ⟨?_, ?_⟩
    · rintro ⟨b, l⟩ hbl
      simpa [hget hbl] using hnd b
    · refine List.Pairwise.imp_of_mem ?_ Std.TreeMap.distinct_keys_toList
      rintro ⟨b, l⟩ ⟨b', l'⟩ hbl hbl' hne x hx hx'
      have := hdisj b b' x (by simpa [hget hbl] using hx) (by simpa [hget hbl'] using hx')
      simp [this] at hne

end BucketIndex

end Mutgos
