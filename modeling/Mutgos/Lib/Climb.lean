import Mathlib.Data.Finset.Card
import Mathlib.Logic.Relation

/-!
# Climbing

A loop that follows a link from place to place, as to the parent of a node, until it
has what it looks for or there is no link.  The number of steps is bounded, and `none`
says that they did not suffice.

## Main results

* `climbFold_isSome` — **climbing ends** where no place is above itself: as many steps
  suffice as there are places.
-/

namespace Mutgos

variable {α σ : Type*}

/-- Follow `up`, changing the state at each place, until `stop` holds. -/
def climbFold (up : α → Option α) (body : α → σ → σ) (stop : σ → Bool) :
    ℕ → Option α → σ → Option σ
  | _, none, s => some s
  | 0, some _, _ => none
  | n + 1, some a, s =>
    if stop (body a s) then some (body a s) else climbFold up body stop n (up a) (body a s)

/-- Follow `up` until `found` holds. -/
def climb (up : α → Option α) (found : α → Bool) (n : ℕ) (start : Option α) : Option Bool :=
  climbFold up (fun a _ => found a) (fun result => result) n start false

/-- There is a link from one place to another. -/
def LinkedTo (up : α → Option α) (a b : α) : Prop := up a = some b

@[simp] theorem climbFold_none (up : α → Option α) (body : α → σ → σ) (stop : σ → Bool) (n : ℕ)
    (s : σ) : climbFold up body stop n none s = some s := by
  cases n <;> rfl

@[simp] theorem climb_none (up : α → Option α) (found : α → Bool) (n : ℕ) :
    climb up found n none = some false :=
  climbFold_none _ _ _ n false

@[simp] theorem climb_zero (up : α → Option α) (found : α → Bool) (a : α) :
    climb up found 0 (some a) = none := rfl

theorem climb_succ (up : α → Option α) (found : α → Bool) (n : ℕ) (a : α) :
    climb up found (n + 1) (some a) = if found a then some true else climb up found n (up a) := by
  cases hfound : found a <;> simp [climb, climbFold, hfound]

section Ends

variable {up : α → Option α} {n : ℕ} {places : Finset α} {a : α}

/-- What a climb that ends has found: whether there is such a place above. -/
theorem climb_eq_some {found : α → Bool} {start : Option α} {result : Bool}
    (h : climb up found n start = some result) : result = true ↔
      ∃ a b, start = some a ∧ Relation.ReflTransGen (LinkedTo up) a b ∧ found b = true := by
  induction n generalizing start with
  | zero => cases start <;> simp_all
  | succ n ih =>
    cases start with
    | none => simp_all
    | some a =>
      rw [climb_succ] at h
      split at h
      · next hfound =>
        cases h
        exact iff_of_true rfl ⟨a, a, rfl, .refl, hfound⟩
      · next hfound =>
        rw [ih h]
        constructor
        · rintro ⟨b, c, hab, hbc, hc⟩
          exact ⟨a, c, rfl, .head hab hbc, hc⟩
        · rintro ⟨_, c, ⟨⟩, hac, hc⟩
          rcases hac.cases_head with rfl | ⟨b, hab, hbc⟩
          · exact absurd hc hfound
          · exact ⟨b, c, hab, hbc, hc⟩

/-- **Climbing ends** where no place is above itself. -/
theorem climbFold_isSome {body : α → σ → σ} {stop : σ → Bool}
    (hacyclic : ∀ a, ¬Relation.TransGen (LinkedTo up) a a) (hn : places.card ≤ n)
    (hplaces : ∀ b, Relation.ReflTransGen (LinkedTo up) a b → b ∈ places) (s : σ) :
    (climbFold up body stop n (some a) s).isSome := by
  classical
  induction n generalizing places a s with
  | zero =>
    have ha : a ∈ places := hplaces a .refl
    have hpos : 0 < places.card := Finset.card_pos.mpr ⟨a, ha⟩
    omega
  | succ n ih =>
    have hcard : (places.erase a).card ≤ n := by
      rw [Finset.card_erase_of_mem (hplaces a .refl)]
      omega
    rw [climbFold]
    split
    · rfl
    · cases hup : up a with
      | none => simp
      | some b =>
        refine ih hcard ?_ _
        -- the place that was left is not come back to
        intro c hc
        refine Finset.mem_erase.mpr ⟨?_, hplaces c (.head hup hc)⟩
        rintro rfl
        exact hacyclic c (.head' hup hc)

/-- There is a link from a place where nothing is found. -/
def Climbs (up : α → Option α) (found : α → Bool) (a b : α) : Prop :=
  found a = false ∧ up a = some b

/-- What is found above is found with fewer steps from there. -/
theorem exists_lt_of_climbs {found : α → Bool} {b : α}
    (hab : Relation.TransGen (Climbs up found) a b) (hn : (climb up found n (some a)).isSome) :
    ∃ m < n, (climb up found m (some b)).isSome := by
  induction hab using Relation.TransGen.head_induction_on generalizing n with
  | single hab =>
    cases n with
    | zero => cases hn
    | succ n =>
      rw [climb_succ, hab.1, hab.2] at hn
      exact ⟨n, by omega, hn⟩
  | head hac _ ih =>
    cases n with
    | zero => cases hn
    | succ n =>
      rw [climb_succ, hac.1, hac.2] at hn
      obtain ⟨m, hm, hend⟩ := ih hn
      exact ⟨m, by omega, hend⟩

/-- A circle is never left. -/
theorem climb_eq_none_of_circle {found : α → Bool} (h : Relation.TransGen (Climbs up found) a a)
    (n : ℕ) : climb up found n (some a) = none := by
  refine Option.not_isSome_iff_eq_none.mp ?_
  induction n using Nat.strong_induction_on with
  | _ n ih =>
    intro hn
    obtain ⟨m, hm, hend⟩ := exists_lt_of_climbs h hn
    exact ih m hm hend

/-- A climb that ends does so in as many steps as there are places. -/
theorem climb_isSome_of_isSome {found : α → Bool} {m : ℕ} (hn : places.card ≤ n)
    (hplaces : ∀ b, Relation.ReflTransGen (Climbs up found) a b → b ∈ places)
    (hm : (climb up found m (some a)).isSome) : (climb up found n (some a)).isSome := by
  classical
  induction n generalizing places a m with
  | zero =>
    have ha : a ∈ places := hplaces a .refl
    have hpos : 0 < places.card := Finset.card_pos.mpr ⟨a, ha⟩
    omega
  | succ n ih =>
    have hcard : (places.erase a).card ≤ n := by
      rw [Finset.card_erase_of_mem (hplaces a .refl)]
      omega
    rw [climb_succ]
    cases hfound : found a with
    | true => rfl
    | false =>
      cases hup : up a with
      | none => simp
      | some b =>
        have hab : Climbs up found a b := ⟨hfound, hup⟩
        obtain ⟨k, _, hend⟩ := exists_lt_of_climbs (.single hab) hm
        refine ih hcard ?_ hend
        intro c hc
        refine Finset.mem_erase.mpr ⟨?_, hplaces c (.head hab hc)⟩
        rintro rfl
        rw [climb_eq_none_of_circle (.head' hab hc)] at hm
        cases hm

/-- If as many steps as there are places do not suffice, no number of steps does. -/
theorem climb_eq_none_iff {found : α → Bool} (hn : places.card ≤ n)
    (hplaces : ∀ b, Relation.ReflTransGen (LinkedTo up) a b → b ∈ places) :
    climb up found n (some a) = none ↔ ∀ m, climb up found m (some a) = none := by
  refine ⟨fun h m => ?_, fun h => h n⟩
  rw [← Option.not_isSome_iff_eq_none] at h ⊢
  exact fun hm => h (climb_isSome_of_isSome hn
    (fun b hb => hplaces b (hb.lift (fun c => c) fun _ _ hclimbs => hclimbs.2)) hm)

end Ends

end Mutgos
