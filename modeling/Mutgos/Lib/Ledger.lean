import Mathlib.Data.Set.Basic

/-!
# Ledgers

A table gives out tokens to owners, and the tokens that are out lie at sites: with
an owner who uses them, or with a worker who has just got one, or is about to
hand one back.  A site holds pairs of an owner and a token.  The ledger balances
if every pair that lies somewhere is in the table, every entry of the table lies
somewhere, and nothing lies at two sites.

## Main results

* `Ledger.grant`, `Ledger.transfer`, `Ledger.release` — the operations that keep
  the balance.
-/

namespace Mutgos

variable {ρ π σ : Type*}

/-- Table and sites balance. -/
structure Ledger (table : ρ → Option π) (holds : σ → Set (π × ρ)) : Prop where
  entry : ∀ s owner token, (owner, token) ∈ holds s → table token = some owner
  held : ∀ owner token, table token = some owner → ∃ s, (owner, token) ∈ holds s
  unique : ∀ s s' x, x ∈ holds s → x ∈ holds s' → s = s'

namespace Ledger

variable {table table' : ρ → Option π} {holds holds' : σ → Set (π × ρ)}

/-- Nothing is given out. -/
theorem empty : Ledger (fun _ : ρ => (none : Option π)) (fun _ : σ => ∅) where
  entry := nofun
  held := nofun
  unique := nofun

section

variable (h : Ledger table holds)
include h

/-- What is in the table is what lies somewhere. -/
theorem table_eq_iff (owner : π) (token : ρ) :
    table token = some owner ↔ ∃ s, (owner, token) ∈ holds s :=
  ⟨h.held owner token, fun ⟨s, hs⟩ => h.entry s owner token hs⟩

variable {s s' : σ} {token : ρ} {S : Set (π × ρ)}

/-- A token has one owner and lies at one site. -/
theorem owner_unique {owner owner' : π} (hs : (owner, token) ∈ holds s)
    (hs' : (owner', token) ∈ holds s') : owner = owner' ∧ s = s' := by
  have hentry := h.entry s owner token hs
  have hentry' := h.entry s' owner' token hs'
  obtain rfl := Option.some.inj (hentry.symm.trans hentry')
  exact ⟨rfl, h.unique s s' _ hs hs'⟩

/-- Only what the table answers and what lies where matters. -/
theorem congr (htable : ∀ token, table' token = table token) (hholds : ∀ s, holds' s = holds s) :
    Ledger table' holds' := by
  obtain rfl : table' = table := funext htable
  obtain rfl : holds' = holds := funext hholds
  exact h

/-- **A token that is not out is given out**, and lies at the site that asked. -/
theorem grant (s : σ) (owner : π) (hfree : table token = none)
    (htable : ∀ token' owner', table' token' = some owner' ↔
      table token' = some owner' ∨ (owner', token') = (owner, token))
    (hholds : ∀ s' x, x ∈ holds' s' ↔ x ∈ holds s' ∨ s' = s ∧ x = (owner, token)) :
    Ledger table' holds' where
  entry := by
    intro s' owner' token' hx
    apply (htable token' owner').mpr
    rcases (hholds s' _).mp hx with hold | ⟨-, hnew⟩
    · exact .inl (h.entry s' owner' token' hold)
    · exact .inr hnew
  held := by
    intro owner' token' ht
    rcases (htable token' owner').mp ht with hold | hnew
    · obtain ⟨s', hs'⟩ := h.held owner' token' hold
      exact ⟨s', (hholds s' _).mpr (.inl hs')⟩
    · exact ⟨s, (hholds s _).mpr (.inr ⟨rfl, hnew⟩)⟩
  unique := by
    -- the new pair lies nowhere else, as its token is not in the old table
    have hnowhere : ∀ s', (owner, token) ∉ holds s' := by
      intro s' hs'
      have hentry := h.entry s' owner token hs'
      rw [hfree] at hentry
      cases hentry
    intro s₁ s₂ x h₁ h₂
    rcases (hholds s₁ x).mp h₁ with hold₁ | ⟨rfl, rfl⟩
    · rcases (hholds s₂ x).mp h₂ with hold₂ | ⟨rfl, rfl⟩
      · exact h.unique s₁ s₂ x hold₁ hold₂
      · exact absurd hold₁ (hnowhere s₁)
    · rcases (hholds s₂ _).mp h₂ with hold₂ | ⟨rfl, -⟩
      · exact absurd hold₂ (hnowhere s₂)
      · rfl

/-- What lies at a site lies nowhere else, so what is left of the others is all
of them. -/
theorem notMem_of_moved {x : π × ρ} (hS : S ⊆ holds s) (hx : x ∈ holds s')
    (hstay : ¬ (s' = s ∧ x ∈ S)) : x ∉ S := by
  intro hmoved
  have hsame : s' = s := h.unique s' s x hx (hS hmoved)
  exact hstay ⟨hsame, hmoved⟩

/-- **Tokens move** from one site to another; the table does not change. -/
theorem transfer {t : σ} (hS : S ⊆ holds s)
    (hholds : ∀ s' x, x ∈ holds' s' ↔ x ∈ holds s' ∧ ¬ (s' = s ∧ x ∈ S) ∨ s' = t ∧ x ∈ S) :
    Ledger table holds' where
  entry := by
    intro s' owner token hx
    rcases (hholds s' _).mp hx with ⟨hold, -⟩ | ⟨-, hmoved⟩
    · exact h.entry s' owner token hold
    · exact h.entry s owner token (hS hmoved)
  held := by
    intro owner token ht
    obtain ⟨s', hs'⟩ := h.held owner token ht
    by_cases hmoved : s' = s ∧ (owner, token) ∈ S
    · exact ⟨t, (hholds t _).mpr (.inr ⟨rfl, hmoved.2⟩)⟩
    · exact ⟨s', (hholds s' _).mpr (.inl ⟨hs', hmoved⟩)⟩
  unique := by
    intro s₁ s₂ x h₁ h₂
    rcases (hholds s₁ x).mp h₁ with ⟨hold₁, hstay₁⟩ | ⟨rfl, hmoved₁⟩
    · rcases (hholds s₂ x).mp h₂ with ⟨hold₂, -⟩ | ⟨rfl, hmoved₂⟩
      · exact h.unique s₁ s₂ x hold₁ hold₂
      · exact absurd hmoved₂ (h.notMem_of_moved hS hold₁ hstay₁)
    · rcases (hholds s₂ x).mp h₂ with ⟨hold₂, hstay₂⟩ | ⟨rfl, -⟩
      · exact absurd hmoved₁ (h.notMem_of_moved hS hold₂ hstay₂)
      · rfl

/-- **Tokens are handed back** from a site. -/
theorem release (hS : S ⊆ holds s)
    (htable : ∀ token owner, table' token = some owner ↔
      table token = some owner ∧ (owner, token) ∉ S)
    (hholds : ∀ s' x, x ∈ holds' s' ↔ x ∈ holds s' ∧ ¬ (s' = s ∧ x ∈ S)) :
    Ledger table' holds' where
  entry := by
    intro s' owner token hx
    obtain ⟨hold, hstay⟩ := (hholds s' _).mp hx
    have hkept := h.notMem_of_moved hS hold hstay
    exact (htable token owner).mpr ⟨h.entry s' owner token hold, hkept⟩
  held := by
    intro owner token ht
    obtain ⟨hold, hkept⟩ := (htable token owner).mp ht
    obtain ⟨s', hs'⟩ := h.held owner token hold
    exact ⟨s', (hholds s' _).mpr ⟨hs', fun hmoved => hkept hmoved.2⟩⟩
  unique := by
    intro s₁ s₂ x h₁ h₂
    exact h.unique s₁ s₂ x ((hholds s₁ x).mp h₁).1 ((hholds s₂ x).mp h₂).1

end

end Ledger

end Mutgos
