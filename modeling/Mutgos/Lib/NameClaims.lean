import Mathlib.Data.Set.Basic

/-!
# Names held ahead of a store

Owners hold names, and a store, which lags behind, knows the names that the owners held
some time ago.  A name may be taken if the store does not know it and nobody holds it
who has a reservation, that is, who may hold a name that is not stored yet.

Who holds names, and what of the store counts, is for the user to say: an owner that is
given up holds nothing, although its name stays in the way for as long as it is stored.

## Main results

* `NameClaims.take`, `NameClaims.giveBack` — an owner gets a name that is free, or the
  one that is stored for it.
-/

namespace Mutgos

variable {ι κ : Type*}

/-- No two owners hold the same name or have it stored, a name that is held is stored
for nobody else, and where it is not stored it is reserved. -/
structure NameClaims (held stored : ι → κ → Prop) (reserved : ι → Prop) : Prop where
  stored_unique : ∀ a b k, stored a k → stored b k → a = b
  held_unique : ∀ a b k, held a k → held b k → a = b
  ahead : ∀ a b k, held a k → stored b k → a = b
  covered : ∀ a k, held a k → reserved a ∨ stored a k

namespace NameClaims

variable {reserved reserved' : ι → Prop} {held held' stored stored' : ι → κ → Prop}

/-- Nobody holds anything. -/
theorem empty (hheld : ∀ a k, ¬ held a k) (hstored : ∀ a k, ¬ stored a k) :
    NameClaims held stored reserved where
  stored_unique a _ k h := absurd h (hstored a k)
  held_unique a _ k h := absurd h (hheld a k)
  ahead a _ k h := absurd h (hheld a k)
  covered a k h := absurd h (hheld a k)

section

variable (h : NameClaims held stored reserved)
include h

/-- **A free name is taken**, and reserved. -/
theorem take {a : ι} {k : κ} (hstored : ∀ b, ¬ stored b k)
    (hheld : ∀ b, b ≠ a → reserved b → ¬ held b k) (htaken : ∀ k', held' a k' → k' = k)
    (hothers : ∀ b k', b ≠ a → held' b k' → held b k')
    (hreserved : ∀ b, b ≠ a → reserved b → reserved' b) (hreserved' : reserved' a) :
    NameClaims held' stored reserved' := by
  -- Nobody else holds the name.
  have hfree : ∀ b, b ≠ a → ¬ held b k := by
    intro b hne hk
    obtain hres | hst := h.covered b k hk
    · exact hheld b hne hres hk
    · exact hstored b hst
  refine ⟨h.stored_unique, ?_, ?_, ?_⟩
  · intro b c k' hkb hkc
    by_cases hba : b = a
    · by_cases hca : c = a
      · rw [hba, hca]
      · obtain rfl := htaken k' (hba ▸ hkb)
        exact absurd (hothers c k' hca hkc) (hfree c hca)
    · by_cases hca : c = a
      · obtain rfl := htaken k' (hca ▸ hkc)
        exact absurd (hothers b k' hba hkb) (hfree b hba)
      · exact h.held_unique b c k' (hothers b k' hba hkb) (hothers c k' hca hkc)
  · intro b c k' hkb hkc
    by_cases hba : b = a
    · obtain rfl := htaken k' (hba ▸ hkb)
      exact absurd hkc (hstored c)
    · exact h.ahead b c k' (hothers b k' hba hkb) hkc
  · intro b k' hkb
    by_cases hba : b = a
    · exact .inl (hba ▸ hreserved')
    · exact (h.covered b k' (hothers b k' hba hkb)).imp_left (hreserved b hba)

/-- **An owner goes back to the name that is stored for it**, and needs no reservation. -/
theorem giveBack {a : ι} {k : κ} (hstored : stored a k) (htaken : ∀ k', held' a k' → k' = k)
    (hothers : ∀ b k', b ≠ a → held' b k' → held b k')
    (hreserved : ∀ b, b ≠ a → reserved b → reserved' b) : NameClaims held' stored reserved' := by
  refine ⟨h.stored_unique, ?_, ?_, ?_⟩
  · intro b c k' hkb hkc
    by_cases hba : b = a
    · by_cases hca : c = a
      · rw [hba, hca]
      · obtain rfl := htaken k' (hba ▸ hkb)
        exact absurd (h.ahead c a k' (hothers c k' hca hkc) hstored) hca
    · by_cases hca : c = a
      · obtain rfl := htaken k' (hca ▸ hkc)
        exact absurd (h.ahead b a k' (hothers b k' hba hkb) hstored) hba
      · exact h.held_unique b c k' (hothers b k' hba hkb) (hothers c k' hca hkc)
  · intro b c k' hkb hkc
    by_cases hba : b = a
    · obtain rfl := htaken k' (hba ▸ hkb)
      rw [hba]
      exact h.stored_unique a c k' hstored hkc
    · exact h.ahead b c k' (hothers b k' hba hkb) hkc
  · intro b k' hkb
    by_cases hba : b = a
    · obtain rfl := htaken k' (hba ▸ hkb)
      exact .inr (hba ▸ hstored)
    · exact (h.covered b k' (hothers b k' hba hkb)).imp_left (hreserved b hba)

/-- **Less is held**, and less is stored, but what is held is covered. -/
theorem mono (hheld : ∀ a k, held' a k → held a k) (hstored : ∀ a k, stored' a k → stored a k)
    (hcovered : ∀ a k, held' a k → reserved a ∨ stored a k → reserved' a ∨ stored' a k) :
    NameClaims held' stored' reserved' where
  stored_unique a b k ha hb := h.stored_unique a b k (hstored a k ha) (hstored b k hb)
  held_unique a b k ha hb := h.held_unique a b k (hheld a k ha) (hheld b k hb)
  ahead a b k ha hb := h.ahead a b k (hheld a k ha) (hstored b k hb)
  covered a k ha := hcovered a k ha (h.covered a k (hheld a k ha))

/-- **The store catches up** with an owner. -/
theorem flush {a : ι} (hstored : ∀ b k, stored' b k → b = a ∧ held a k ∨ b ≠ a ∧ stored b k)
    (hkept : ∀ b k, held b k → stored b k → stored' b k) : NameClaims held stored' reserved := by
  refine ⟨?_, h.held_unique, ?_, ?_⟩
  · intro b c k hb hc
    obtain ⟨rfl, hkb⟩ | ⟨-, hkb⟩ := hstored b k hb
    · obtain ⟨rfl, -⟩ | ⟨-, hkc⟩ := hstored c k hc
      · rfl
      · exact h.ahead b c k hkb hkc
    · obtain ⟨rfl, hkc⟩ | ⟨-, hkc⟩ := hstored c k hc
      · exact (h.ahead c b k hkc hkb).symm
      · exact h.stored_unique b c k hkb hkc
  · intro b c k hkb hc
    obtain ⟨rfl, hkc⟩ | ⟨-, hkc⟩ := hstored c k hc
    · exact h.held_unique b c k hkb hkc
    · exact h.ahead b c k hkb hkc
  · intro b k hkb
    exact (h.covered b k hkb).imp_right (hkept b k hkb)

/-- **An owner gets a free name that is stored at once.** -/
theorem enroll {a : ι} {k : κ} (hfree : ∀ b, ¬ stored b k) (hheld : ∀ b, b ≠ a → ¬ held b k)
    (htaken : ∀ k', held' a k' → k' = k) (hothers : ∀ b k', b ≠ a → held' b k' → held b k')
    (hstored : ∀ b k', stored' b k' → b = a ∧ held' a k' ∨ b ≠ a ∧ stored b k')
    (hkept : ∀ b k', b ≠ a → stored b k' → stored' b k') (hnew : ∀ k', held' a k' → stored' a k') :
    NameClaims held' stored' reserved := by
  -- The name is reserved until it is stored.
  have htake : NameClaims held' stored fun b => b = a ∨ reserved b := by
    refine h.take hfree (fun b hne _ => hheld b hne) htaken hothers ?_ (.inl rfl)
    intro b _ hres
    exact .inr hres
  have hflush : NameClaims held' stored' fun b => b = a ∨ reserved b := by
    refine htake.flush hstored ?_
    intro b k' hkb hst
    by_cases hba : b = a
    · subst hba
      exact hnew k' hkb
    · exact hkept b k' hba hst
  refine hflush.mono (fun _ _ hk => hk) (fun _ _ hst => hst) ?_
  intro b k' hkb hcovered
  by_cases hba : b = a
  · subst hba
    exact .inr (hnew k' hkb)
  · exact hcovered.imp_left fun hres => hres.resolve_left hba

end

end NameClaims

end Mutgos
