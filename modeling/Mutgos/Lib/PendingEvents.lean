import Mathlib.Data.List.Basic
import Mathlib.Data.List.DropRight

/-!
# Pending events

A queue of events that tell of facts which change while the events wait.  One who handles
them later and reads the facts themselves is right about a fact for which no event waits;
and where events wait for it, the last of them has to agree with the fact.

## Main results

* `lastAbout_append_toList`, `lastAbout_cons` — an event is added, and one is taken.
-/

namespace Mutgos

open List

namespace PendingEvents

variable {ε : Type*}

/-- The last event of a kind that waits. -/
def lastAbout (about : ε → Bool) (queue : List ε) : Option ε := queue.reverse.find? about

/-- No event of a kind waits. -/
def Settled (about : ε → Bool) (queue : List ε) : Prop := ∀ e ∈ queue, about e = false

/-- The events after the last one of a kind. -/
def since (about : ε → Bool) (queue : List ε) : List ε := queue.rtakeWhile fun e => !about e

/-- The events up to the last one of a kind. -/
def upToLast (about : ε → Bool) (queue : List ε) : List ε := queue.rdropWhile fun e => !about e

instance (about : ε → Bool) (queue : List ε) : Decidable (Settled about queue) :=
  inferInstanceAs (Decidable (∀ e ∈ queue, about e = false))

variable {about : ε → Bool} {queue : List ε} {e : ε}

@[simp] theorem lastAbout_nil : lastAbout about [] = none := rfl

@[simp] theorem settled_nil : Settled about [] := nofun

theorem settled_iff : Settled about queue ↔ lastAbout about queue = none := by
  rw [lastAbout, find?_eq_none]
  simp [Settled]

theorem settled_cons : Settled about (e :: queue) ↔ about e = false ∧ Settled about queue :=
  forall_mem_cons

/-- An event may be added at the end. -/
theorem settled_append_toList (added : Option ε) : Settled about (queue ++ added.toList) ↔
    Settled about queue ∧ added.any about = false := by
  cases added <;> simp [Settled, or_imp, forall_and]

theorem lastAbout_append_toList (added : Option ε) : lastAbout about (queue ++ added.toList) =
    if added.any about then added else lastAbout about queue := by
  cases added with
  | none => simp
  | some e =>
    rw [lastAbout, Option.toList_some, reverse_append, reverse_singleton,
      singleton_append, find?_cons, Option.any_some]
    cases about e <;> rfl

/-- The first event is taken: others that wait are later. -/
theorem lastAbout_cons : lastAbout about (e :: queue) =
    (lastAbout about queue).or (if about e then some e else none) := by
  rw [lastAbout, reverse_cons, find?_append, find?_singleton]
  rfl

theorem lastAbout_cons_of_eq_some {e' : ε} (h : lastAbout about queue = some e') :
    lastAbout about (e :: queue) = some e' := by
  rw [lastAbout_cons, h]
  rfl

/-- It is the last one, if no other one waits. -/
theorem lastAbout_cons_of_settled (h : Settled about queue) (he : about e = true) :
    lastAbout about (e :: queue) = some e := by
  rw [lastAbout_cons, settled_iff.mp h, if_pos he]
  rfl

/-! ### Before and after the last one -/

@[simp] theorem since_nil (about : ε → Bool) : since about [] = [] := rfl

/-- One more event comes. -/
theorem since_concat (about : ε → Bool) (queue : List ε) (e : ε) :
    since about (queue ++ [e]) = if about e then [] else since about queue ++ [e] := by
  rw [since, rtakeWhile_concat]
  cases about e <;> rfl

theorem lastAbout_append (front back : List ε) : lastAbout about (front ++ back) =
    (lastAbout about back).or (lastAbout about front) := by
  rw [lastAbout, reverse_append, find?_append]
  rfl

theorem lastAbout_singleton (about : ε → Bool) (e : ε) :
    lastAbout about [e] = if about e then some e else none := find?_singleton

theorem lastAbout_concat (about : ε → Bool) (queue : List ε) (e : ε) :
    lastAbout about (queue ++ [e]) = if about e then some e else lastAbout about queue := by
  rw [lastAbout_append, lastAbout_singleton]
  cases about e <;> rfl

theorem lastAbout_eq_some_iff : lastAbout about queue = some e ↔
    ∃ front back, queue = front ++ e :: back ∧ about e = true ∧ Settled about back := by
  rw [lastAbout, find?_eq_some_iff_append]
  constructor
  · rintro ⟨habout, as, bs, heq, has⟩
    refine ⟨bs.reverse, as.reverse, ?_, habout, ?_⟩
    · rw [← reverse_reverse queue, heq]
      simp
    · intro x hx
      simpa using has x (mem_reverse.mp hx)
  · rintro ⟨front, back, rfl, habout, hback⟩
    refine ⟨habout, back.reverse, front.reverse, by simp, ?_⟩
    intro x hx
    simpa using hback x (mem_reverse.mp hx)

theorem mem_of_lastAbout (h : lastAbout about queue = some e) : e ∈ queue ∧ about e = true := by
  obtain ⟨front, back, rfl, habout, -⟩ := lastAbout_eq_some_iff.mp h
  exact ⟨mem_append_right front mem_cons_self, habout⟩

theorem lastAbout_isSome : (lastAbout about queue).isSome = true ↔ ∃ e ∈ queue, about e = true := by
  rw [lastAbout, find?_isSome]
  simp

theorem settled_since (about : ε → Bool) (queue : List ε) : Settled about (since about queue) := by
  intro x hx
  simpa using mem_rtakeWhile_imp hx

theorem since_of_settled (h : Settled about queue) : since about queue = queue := by
  rw [since, rtakeWhile_eq_self_iff]
  intro x hx
  simpa using h x hx

theorem since_append_cons (front back : List ε) (he : about e = true) (h : Settled about back) :
    since about (front ++ e :: back) = back := by
  induction back using List.reverseRecOn with
  | nil => exact rtakeWhile_concat_neg _ _ _ (by simp [he])
  | append_singleton back x ih =>
    have hx : about x = false := h x (mem_append_right back mem_cons_self)
    have hback : Settled about back := fun y hy => h y (mem_append_left [x] hy)
    have hassoc : front ++ e :: (back ++ [x]) = (front ++ e :: back) ++ [x] := by simp
    rw [hassoc, since, rtakeWhile_concat_pos _ _ _ (by simp [hx])]
    exact congrArg (· ++ [x]) (ih hback)

theorem eq_append_of_lastAbout (h : lastAbout about queue = some e) :
    ∃ front, queue = front ++ e :: since about queue := by
  obtain ⟨front, back, rfl, habout, hback⟩ := lastAbout_eq_some_iff.mp h
  exact ⟨front, by rw [since_append_cons front back habout hback]⟩

theorem upToLast_append_cons (front back : List ε) (he : about e = true) (h : Settled about back) :
    upToLast about (front ++ e :: back) = front ++ [e] := by
  induction back using List.reverseRecOn with
  | nil => exact rdropWhile_concat_neg _ _ _ (by simp [he])
  | append_singleton back x ih =>
    have hx : about x = false := h x (mem_append_right back mem_cons_self)
    have hback : Settled about back := fun y hy => h y (mem_append_left [x] hy)
    have hassoc : front ++ e :: (back ++ [x]) = (front ++ e :: back) ++ [x] := by simp
    rw [hassoc, upToLast, rdropWhile_concat_pos _ _ _ (by simp [hx])]
    exact ih hback

/-- What comes before one of a kind comes before the last one. -/
theorem mem_upToLast {front back : List ε} {x : ε} (he : about e = true) (hx : x ∈ front) :
    x ∈ upToLast about (front ++ e :: back) := by
  cases hlast : lastAbout about back with
  | none =>
    rw [upToLast_append_cons front back he (settled_iff.mpr hlast)]
    exact mem_append_left _ hx
  | some e' =>
    obtain ⟨before, after, rfl, habout, hafter⟩ := lastAbout_eq_some_iff.mp hlast
    have hassoc : front ++ e :: (before ++ e' :: after) =
        (front ++ e :: before) ++ e' :: after := by simp
    rw [hassoc, upToLast_append_cons _ _ habout hafter]
    simp [hx]

/-- More events come. -/
theorem since_append (front back : List ε) : since about (front ++ back) =
    if (lastAbout about back).isSome then since about back else since about front ++ back := by
  cases hback : lastAbout about back with
  | some e =>
    obtain ⟨before, after, rfl, habout, hafter⟩ := lastAbout_eq_some_iff.mp hback
    have hassoc : front ++ (before ++ e :: after) = (front ++ before) ++ e :: after := by simp
    rw [hassoc, since_append_cons _ _ habout hafter, since_append_cons _ _ habout hafter]
    rfl
  | none =>
    have hsettled := settled_iff.mpr hback
    rw [if_neg (by simp)]
    cases hfront : lastAbout about front with
    | some e =>
      obtain ⟨before, after, rfl, habout, hafter⟩ := lastAbout_eq_some_iff.mp hfront
      have hboth : Settled about (after ++ back) := fun x hx =>
        (mem_append.mp hx).elim (hafter x) (hsettled x)
      have hassoc : before ++ e :: after ++ back = before ++ e :: (after ++ back) := by simp
      rw [hassoc, since_append_cons _ _ habout hboth, since_append_cons _ _ habout hafter]
    | none =>
      have hnone := settled_iff.mpr hfront
      have hboth : Settled about (front ++ back) := fun x hx =>
        (mem_append.mp hx).elim (hnone x) (hsettled x)
      rw [since_of_settled hboth, since_of_settled hnone]

end PendingEvents

end Mutgos
