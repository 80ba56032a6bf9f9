import Mutgos.DbTypes.IdSections
import Mutgos.Lib.ListWalk

/-!
# The targets of an action

The targets are a vector, and the references to them a set that nobody sees but through the
journals.  Adding looks for the target first, removing takes away the first that it finds, and
a vector that is set as a whole is taken as it is.  As long as no such vector has an ID twice,
the references are those of the targets; the removal of an ID that is there twice takes the
reference away and leaves a target.

The targets can be gone through by their IDs.  The step from one to the next finds its own
argument again, and the last target is looked for behind the end.

## Main results

* `keeps_remove_iff` — **a removal is right exactly where the ID has been set once.**
* `targets_of_run` — **what is right after any run that sets no ID twice, and what is not.**
-/

namespace Mutgos.DbTypes

open Entity SetJournal List

/-- The calls that change the targets of an action. -/
inductive TargetCall
  | addActionTarget (target : Id)
  | removeActionTarget (target : Id)
  | clearActionTarget
  | setActionTarget (targets : List Id)

/-- No ID is set twice at once. -/
def TargetCall.Distinct : TargetCall → Prop
  | setActionTarget targets => targets.Nodup
  | _ => True

namespace IdFields

def targetCall (s : IdFields) : TargetCall → IdFields
  | .addActionTarget target => s.addActionTarget target
  | .removeActionTarget target => s.removeActionTarget target
  | .clearActionTarget => s.clearActionTarget
  | .setActionTarget targets => s.setActionTarget targets

def targetCalls (s : IdFields) (calls : List TargetCall) : IdFields := calls.foldl targetCall s

/-! ### The way through the targets -/

def getFirstActionTarget (s : IdFields) : Id := s.actionEntityTargets.head?.getD default

/-- `get_next_action_target`: what was found is what is returned. -/
def getNextActionTarget (s : IdFields) (id : Id) : Id :=
  (s.actionEntityTargets.find? fun target => target = id).getD default

/-- `get_last_action_target`: the iterator is moved after it has been read, and there is
nothing where it stood. -/
def getLastActionTarget (s : IdFields) : Option Id :=
  if s.actionEntityTargets = [] then some default
  else s.actionEntityTargets[s.actionEntityTargets.length]?

/-- Each target is visited once, then the default ID, and the last is the last. -/
def WalksTargets (s : IdFields) : Prop :=
  ∃ last, s.getLastActionTarget = some last ∧
    Mutgos.Walks s.getFirstActionTarget s.getNextActionTarget last s.actionEntityTargets

/-- A step does not go anywhere. -/
theorem getNextActionTarget_eq (s : IdFields) (id : Id) :
    s.getNextActionTarget id = if id ∈ s.actionEntityTargets then id else default := by
  unfold getNextActionTarget
  split
  · next hmem =>
    cases hfind : s.actionEntityTargets.find? fun target => target = id with
    | none =>
      rw [find?_eq_none] at hfind
      exact absurd (decide_eq_true rfl) (hfind id hmem)
    | some target =>
      have htarget := find?_some hfind
      exact of_decide_eq_true htarget
  · next hmem =>
    have hnone : (s.actionEntityTargets.find? fun target => target = id) = none := by
      rw [find?_eq_none]
      intro target htarget heq
      exact hmem (of_decide_eq_true heq ▸ htarget)
    rw [hnone, Option.getD_none]

/-- **Nobody gets past the first target**, however often the next one is asked for. -/
theorem iterate_getNextActionTarget (s : IdFields) (n : ℕ) :
    s.getNextActionTarget^[n] s.getFirstActionTarget = s.getFirstActionTarget := by
  apply Function.iterate_fixed
  rw [getNextActionTarget_eq, getFirstActionTarget]
  cases s.actionEntityTargets with
  | nil => rfl
  | cons target targets => exact if_pos mem_cons_self

theorem getLastActionTarget_of_ne_nil {s : IdFields} (h : s.actionEntityTargets ≠ []) :
    s.getLastActionTarget = none := by
  rw [getLastActionTarget, if_neg h]
  exact getElem?_eq_none (Nat.le_refl _)

/-- **The way is right exactly where there are no targets.** -/
theorem walksTargets_iff (s : IdFields) :
    s.WalksTargets ↔ s.actionEntityTargets = [] := by
  constructor
  · rintro ⟨last, hlast, -⟩
    by_contra hne
    rw [getLastActionTarget_of_ne_nil hne] at hlast
    cases hlast
  · intro hnil
    refine ⟨default, if_pos hnil, ?_, by rw [hnil]; rfl⟩
    intro n hn
    rw [iterate_getNextActionTarget, getFirstActionTarget, hnil]
    rfl

end IdFields

/-! ### One call -/

namespace IdFields

variable {s : IdFields} {base : Finset Id} {targets : List Id}

theorem actionEntityTargets_clearActionTarget (s : IdFields) :
    s.clearActionTarget.actionEntityTargets = [] := by
  unfold clearActionTarget
  split
  · next hnil => exact hnil
  · rfl

theorem actionEntityTargets_removeActionTarget (s : IdFields) (target : Id) :
    (s.removeActionTarget target).actionEntityTargets = s.actionEntityTargets.erase target := by
  unfold removeActionTarget
  split
  · rfl
  · next hmem => rw [erase_of_not_mem hmem]

/-- What is entered under the lock will be told. -/
structure Heard (s : IdFields) : Prop where
  listening : s.entity.Listening
  called : s.entity.needCallListener = true ∨ s.entity.diffIdsChanged .actionTargets = none

/-- The targets have changed, and are marked. -/
theorem Heard.changed (h : s.Heard) {e : Entity} (hsetup : e.setup = s.entity.setup)
    (targets : List Id) : (s.setTargets targets (e.notifyFieldChanged .actionTargets)).Heard where
  listening := (h.listening.of_setup hsetup).of_setup (setup_notifyFieldChanged e _)
  called := .inl ((h.listening.of_setup hsetup).needCallListener_notifyFieldChanged _)

theorem Heard.clearActionTarget (h : s.Heard) : s.clearActionTarget.Heard := by
  unfold IdFields.clearActionTarget
  split
  · exact h
  · exact h.changed (setup_foldl_removedId _ s.entity .actionTargets) []

theorem Heard.targetCall (h : s.Heard) (call : TargetCall) : (s.targetCall call).Heard := by
  cases call with
  | addActionTarget target =>
    rw [IdFields.targetCall, IdFields.addActionTarget]
    split
    · exact h
    · exact h.changed (setup_addedId s.entity _ target) _
  | removeActionTarget target =>
    rw [IdFields.targetCall, IdFields.removeActionTarget]
    split
    · exact h.changed (setup_removedId s.entity _ target) _
    · exact h
  | clearActionTarget => exact h.clearActionTarget
  | setActionTarget targets =>
    have hclear := h.clearActionTarget
    rw [IdFields.targetCall, IdFields.setActionTarget]
    by_cases hnil : targets = []
    · subst hnil
      exact ⟨hclear.listening, hclear.called⟩
    · rw [if_neg hnil]
      exact hclear.changed (setup_foldl_addedId targets _ _) targets

theorem Heard.targetCalls (h : s.Heard) (calls : List TargetCall) :
    (s.targetCalls calls).Heard := by
  induction calls generalizing s with
  | nil => exact h
  | cons call calls ih => exact ih (h.targetCall call)

/-- The journal of the targets. -/
def targetJournal (s : IdFields) : SetJournal Id := s.entity.journal .actionTargets

theorem targetJournal_setTargets (s : IdFields) (targets : List Id) (e : Entity) :
    (s.setTargets targets (e.notifyFieldChanged .actionTargets)).targetJournal
      = e.journal .actionTargets :=
  journal_notifyFieldChanged e .actionTargets .actionTargets

theorem targetJournal_clearActionTarget (s : IdFields) :
    s.clearActionTarget.targetJournal
      = s.actionEntityTargets.foldl remove s.targetJournal := by
  unfold clearActionTarget
  split
  · next hnil => rw [hnil, foldl_nil]
  · rw [targetJournal_setTargets, journal_foldl_removedId]
    rfl

theorem targetJournal_setActionTarget (s : IdFields) (targets : List Id) :
    (s.setActionTarget targets).targetJournal
      = targets.foldl add s.clearActionTarget.targetJournal := by
  rw [setActionTarget]
  split
  · next hnil =>
    subst hnil
    rfl
  · rw [targetJournal_setTargets, journal_foldl_addedId]
    rfl

/-- The journal says how the targets came out of the references. -/
structure Tracked (base : Finset Id) (s : IdFields) : Prop where
  nodup : s.actionEntityTargets.Nodup
  tracks : s.targetJournal.Tracks base s.actionEntityTargets.toFinset

theorem Tracked.addActionTarget (h : s.Tracked base) (target : Id) :
    (s.addActionTarget target).Tracked base := by
  unfold IdFields.addActionTarget
  split
  · exact h
  · next hmem =>
    refine ⟨List.Nodup.append h.nodup (nodup_singleton target) ?_, ?_⟩
    · exact disjoint_singleton.mpr hmem
    · have hadded := h.tracks.add (mt mem_toFinset.mp hmem)
      rw [targetJournal_setTargets, journal_addedId]
      have hset : (s.actionEntityTargets ++ [target]).toFinset
          = insert target s.actionEntityTargets.toFinset := by
        ext id
        simp
      exact hset ▸ hadded

theorem Tracked.removeActionTarget (h : s.Tracked base) (target : Id) :
    (s.removeActionTarget target).Tracked base := by
  unfold IdFields.removeActionTarget
  split
  · next hmem =>
    refine ⟨h.nodup.erase target, ?_⟩
    have hremoved := h.tracks.remove (mem_toFinset.mpr hmem)
    rw [targetJournal_setTargets, journal_removedId]
    have hset : (s.actionEntityTargets.erase target).toFinset
        = s.actionEntityTargets.toFinset.erase target := by
      ext id
      rw [mem_toFinset, h.nodup.mem_erase_iff, Finset.mem_erase, mem_toFinset]
    exact hset ▸ hremoved
  · exact h

theorem Tracked.clearActionTarget (h : s.Tracked base) : s.clearActionTarget.Tracked base where
  nodup := by rw [actionEntityTargets_clearActionTarget]; exact .nil
  tracks := by
    have hremoved := h.tracks.removeAll h.nodup fun id hid => mem_toFinset.mpr hid
    rw [sdiff_self] at hremoved
    rw [targetJournal_clearActionTarget, actionEntityTargets_clearActionTarget]
    exact hremoved

/-- **A call keeps track**, if it sets no ID twice. -/
theorem Tracked.targetCall (h : s.Tracked base) {call : TargetCall} (hcall : call.Distinct) :
    (s.targetCall call).Tracked base := by
  cases call with
  | addActionTarget target => exact h.addActionTarget target
  | removeActionTarget target => exact h.removeActionTarget target
  | clearActionTarget => exact h.clearActionTarget
  | setActionTarget targets =>
    refine ⟨hcall, ?_⟩
    have hclear := h.clearActionTarget.tracks
    rw [actionEntityTargets_clearActionTarget] at hclear
    have hadded := hclear.addAll hcall fun id _ => Finset.notMem_empty id
    rw [toFinset_nil, Finset.empty_union] at hadded
    rw [IdFields.targetCall, targetJournal_setActionTarget]
    exact hadded

theorem Tracked.targetCalls (h : s.Tracked base) {calls : List TargetCall}
    (hcalls : ∀ call ∈ calls, call.Distinct) : (s.targetCalls calls).Tracked base := by
  induction calls generalizing s with
  | nil => exact h
  | cons call calls ih =>
    refine ih (h.targetCall (hcalls call mem_cons_self)) ?_
    intro call' hcall'
    exact hcalls call' (mem_cons_of_mem call hcall')

end IdFields

/-! ### A run -/

/-- An action, and the journals of the targets that its listeners were given. -/
structure ActionRun where
  action : IdFields
  journals : List (SetJournal Id)

namespace ActionRun

variable {a : ActionRun}

/-- The action is new. -/
def new (entityId : Id) (now : TimeStamp) : ActionRun := ⟨.new entityId now, []⟩

/-- Some calls under one lock, and its release. -/
def underLock (a : ActionRun) (calls : List TargetCall) (now : TimeStamp) : ActionRun :=
  let result := a.action.underLock (fun s => s.targetCalls calls) now
  ⟨result.2, a.journals ++
    result.1.toList.map fun changes => (changes.ids .actionTargets).getD .empty⟩

/-- One lock after the other. -/
def run (a : ActionRun) (locks : List (List TargetCall × TimeStamp)) : ActionRun :=
  locks.foldl (fun a lock => a.underLock lock.1 lock.2) a

/-- What the action refers to, if one follows the journals. -/
def references (a : ActionRun) : Finset Id := applyAll a.journals ∅

/-- Nothing is left to be told. -/
structure Quiet (a : ActionRun) : Prop where
  heard : a.action.Heard
  told : a.action.entity.diffIdsChanged .actionTargets = none

/-- The references are those of the targets. -/
def Keeps (a : ActionRun) : Prop := a.references = a.action.actionEntityTargets.toFinset

theorem quiet_new (entityId : Id) (now : TimeStamp) : (new entityId now).Quiet := by
  have htold : (new entityId now).action.entity.diffIdsChanged .actionTargets = none := by
    rw [new, IdFields.entity_new]
    exact diffIdsChanged_new true now _
  have hlistening : (new entityId now).action.entity.Listening := by
    rw [new, IdFields.entity_new]
    exact listening_new now
  exact ⟨⟨hlistening, .inr htold⟩, htold⟩

/-- **What is told when a lock is released** is what was entered under it, and then nothing is
left. -/
theorem Quiet.underLock (h : a.Quiet) (calls : List TargetCall) (now : TimeStamp) :
    (a.underLock calls now).Quiet ∧
      (a.underLock calls now).action.actionEntityTargets
        = (a.action.targetCalls calls).actionEntityTargets ∧
      (a.underLock calls now).references
        = (a.action.targetCalls calls).targetJournal.apply a.references := by
  obtain ⟨hlistening, hcalled⟩ := h.heard.targetCalls calls
  have hlater : (a.underLock calls now).action.entity.Listening :=
    hlistening.of_setup (setup_notifyDbListener _ now)
  rw [ActionRun.underLock, IdFields.underLock, notifyDbListener] at hlater ⊢
  split at hlater
  · next hcall =>
    rw [if_pos hcall]
    refine ⟨⟨⟨hlater, .inr rfl⟩, rfl⟩, rfl, ?_⟩
    rw [references, Option.toList_some, map_singleton, applyAll_concat,
      (stampUpdate_eq _ now).2]
    rfl
  · next hcall =>
    rw [hlistening.1, Bool.and_true] at hcall
    have hnone := hcalled.resolve_left hcall
    have hempty : (a.action.targetCalls calls).targetJournal = .empty :=
      journal_of_none hnone
    rw [if_neg (by rwa [hlistening.1, Bool.and_true])]
    refine ⟨⟨⟨hlater, .inr hnone⟩, hnone⟩, rfl, ?_⟩
    rw [hempty, apply_empty, Option.toList_none, map_nil, append_nil]
    rfl

theorem Quiet.run (h : a.Quiet) (locks : List (List TargetCall × TimeStamp)) :
    (a.run locks).Quiet := by
  induction locks generalizing a with
  | nil => exact h
  | cons lock locks ih => exact ih (h.underLock lock.1 lock.2).1

section

variable (h : a.Quiet) (hkeeps : a.Keeps) (hnodup : a.action.actionEntityTargets.Nodup)
include h hkeeps hnodup

/-- Between two locks the journal is empty. -/
theorem Quiet.tracked : a.action.Tracked a.references where
  nodup := hnodup
  tracks := by
    have hempty : a.action.targetJournal = .empty := journal_of_none h.told
    rw [hempty, hkeeps]
    exact .empty _

/-- **What a run keeps**, if it sets no ID twice. -/
theorem Quiet.keeps_run {locks : List (List TargetCall × TimeStamp)}
    (hlocks : ∀ lock ∈ locks, ∀ call ∈ lock.1, call.Distinct) :
    (a.run locks).Keeps ∧ (a.run locks).action.actionEntityTargets.Nodup := by
  induction locks generalizing a with
  | nil => exact ⟨hkeeps, hnodup⟩
  | cons lock locks ih =>
    obtain ⟨hquiet, htargets, hreferences⟩ := h.underLock lock.1 lock.2
    have htracked := (h.tracked hkeeps hnodup).targetCalls (hlocks lock mem_cons_self)
    refine ih hquiet ?_ ?_ fun lock' hlock' => hlocks lock' (mem_cons_of_mem lock hlock')
    · rw [Keeps, hreferences, htargets]
      exact htracked.tracks.apply
    · rw [htargets]
      exact htracked.nodup

/-- A vector is set, of which nothing is asked. -/
theorem Quiet.keeps_set (targets : List Id) (now : TimeStamp) :
    (a.underLock [.setActionTarget targets] now).Keeps := by
  obtain ⟨-, htargets, hreferences⟩ := h.underLock [.setActionTarget targets] now
  have hclear := (h.tracked hkeeps hnodup).clearActionTarget.tracks
  rw [IdFields.actionEntityTargets_clearActionTarget] at hclear
  have hjournal := apply_addAll hclear.removed targets
  rw [hclear.apply, toFinset_nil, Finset.empty_union] at hjournal
  rw [Keeps, hreferences, htargets]
  exact (congrArg (apply · _)
    (IdFields.targetJournal_setActionTarget a.action targets)).trans hjournal

end

/-- A target is removed under a lock of its own: the reference goes, and one target. -/
theorem Quiet.references_remove (h : a.Quiet) (hkeeps : a.Keeps) (target : Id) (now : TimeStamp) :
    (a.underLock [.removeActionTarget target] now).references
      = a.action.actionEntityTargets.toFinset.erase target := by
  obtain ⟨-, -, hreferences⟩ := h.underLock [.removeActionTarget target] now
  have hempty : a.action.targetJournal = .empty := journal_of_none h.told
  rw [hreferences, hkeeps]
  change (a.action.removeActionTarget target).targetJournal.apply _ = _
  unfold IdFields.removeActionTarget
  split
  · rw [IdFields.targetJournal_setTargets, journal_removedId]
    change (a.action.targetJournal.remove target).apply _ = _
    rw [hempty]
    ext id
    simp [mem_apply, remove, empty, and_comm]
  · next hmem =>
    rw [hempty, apply_empty, Finset.erase_eq_of_notMem (mt mem_toFinset.mp hmem)]

/-- **A removal is right exactly where the ID has been set once**, or not at all. -/
theorem Quiet.keeps_remove_iff (h : a.Quiet) (hkeeps : a.Keeps)
    (hnodup : a.action.actionEntityTargets.Nodup) (targets : List Id) (target : Id)
    (t₁ t₂ : TimeStamp) :
    (target ∉ ((a.underLock [.setActionTarget targets] t₁).underLock
        [.removeActionTarget target] t₂).action.actionEntityTargets ∧
      ((a.underLock [.setActionTarget targets] t₁).underLock
        [.removeActionTarget target] t₂).Keeps) ↔ targets.count target ≤ 1 := by
  obtain ⟨hquiet, hset, -⟩ := h.underLock [.setActionTarget targets] t₁
  obtain ⟨-, hremoved, -⟩ := hquiet.underLock [.removeActionTarget target] t₂
  have hreferences := hquiet.references_remove (h.keeps_set hkeeps hnodup targets t₁) target t₂
  have htargets : (a.underLock [.setActionTarget targets] t₁).action.actionEntityTargets
      = targets := hset
  have hleft : ((a.underLock [.setActionTarget targets] t₁).underLock
      [.removeActionTarget target] t₂).action.actionEntityTargets = targets.erase target := by
    rw [hremoved, ← htargets]
    exact IdFields.actionEntityTargets_removeActionTarget _ target
  rw [Keeps, hreferences, hleft, htargets, ← count_eq_zero, count_erase_self]
  constructor
  · rintro ⟨hcount, -⟩
    omega
  · intro hcount
    refine ⟨by omega, ?_⟩
    ext id
    rw [Finset.mem_erase, mem_toFinset, mem_toFinset]
    by_cases hid : id = target
    · subst hid
      have hnone : id ∉ targets.erase id := by
        rw [← count_eq_zero, count_erase_self]
        omega
      simp [hnone]
    · rw [mem_erase_of_ne hid]
      exact and_iff_right hid

/-- **After any run that sets no ID twice** the references are those of the targets, and what
is removed is gone.  With the next vector, removals stay right for the IDs that it has once; the
way through the targets is right only where there are none. -/
theorem targets_of_run (entityId : Id) (now : TimeStamp)
    (locks : List (List TargetCall × TimeStamp))
    (hlocks : ∀ lock ∈ locks, ∀ call ∈ lock.1, call.Distinct) :
    ((new entityId now).run locks).Keeps ∧
      (∀ calls : List TargetCall, (∀ call ∈ calls, call.Distinct) → ∀ target,
        target ∉ ((((new entityId now).run locks).action.targetCalls calls).removeActionTarget
          target).actionEntityTargets) ∧
      (∀ (targets : List Id) (target : Id) (t₁ t₂ : TimeStamp),
        (target ∉ ((((new entityId now).run locks).underLock [.setActionTarget targets] t₁)
            |>.underLock [.removeActionTarget target] t₂).action.actionEntityTargets ∧
          ((((new entityId now).run locks).underLock [.setActionTarget targets] t₁)
            |>.underLock [.removeActionTarget target] t₂).Keeps) ↔ targets.count target ≤ 1) ∧
      ∀ calls : List TargetCall,
        (((new entityId now).run locks).action.targetCalls calls).WalksTargets ↔
          (((new entityId now).run locks).action.targetCalls calls).actionEntityTargets = [] := by
  have hquiet := (quiet_new entityId now).run locks
  obtain ⟨hkeeps, hnodup⟩ := (quiet_new entityId now).keeps_run rfl .nil hlocks
  refine ⟨hkeeps, ?_, hquiet.keeps_remove_iff hkeeps hnodup,
    fun calls => IdFields.walksTargets_iff _⟩
  intro calls hcalls target
  rw [IdFields.actionEntityTargets_removeActionTarget]
  exact ((hquiet.tracked hkeeps hnodup).targetCalls hcalls).nodup.not_mem_erase

/-- A target is added, another one removed, and two are set. -/
theorem targets_of_run_distinct :
    ((new ⟨1, 5⟩ 0).run [([.addActionTarget ⟨1, 2⟩], 1),
      ([.setActionTarget [⟨1, 3⟩, ⟨1, 4⟩], .removeActionTarget ⟨1, 3⟩], 2)]).Keeps :=
  (targets_of_run ⟨1, 5⟩ 0 _ (by simp [TargetCall.Distinct])).1

/-- One ID is set twice and removed once: the reference is gone and the target is not, and
whoever asks for the next target gets it again. -/
theorem targets_setTwice :
    ((new ⟨1, 5⟩ 0).run [([.setActionTarget [⟨1, 2⟩, ⟨1, 2⟩]], 1),
        ([.removeActionTarget ⟨1, 2⟩], 2)]).references = ∅ ∧
      ((new ⟨1, 5⟩ 0).run [([.setActionTarget [⟨1, 2⟩, ⟨1, 2⟩]], 1),
        ([.removeActionTarget ⟨1, 2⟩], 2)]).action.actionEntityTargets = [⟨1, 2⟩] ∧
      ((new ⟨1, 5⟩ 0).action.addActionTarget ⟨1, 2⟩).getNextActionTarget ⟨1, 2⟩ = ⟨1, 2⟩ ∧
      ((new ⟨1, 5⟩ 0).action.addActionTarget ⟨1, 2⟩).getLastActionTarget = none ∧
      ¬ ((new ⟨1, 5⟩ 0).action.addActionTarget ⟨1, 2⟩).WalksTargets := by
  refine ⟨by decide +kernel, by decide +kernel, by decide +kernel, by decide +kernel, ?_⟩
  rw [IdFields.walksTargets_iff]
  decide +kernel

end ActionRun

end Mutgos.DbTypes
