import Mutgos.DbTypes.Entity
import Mutgos.Text.StringParsing

/-!
# The flags of an Entity

Flags are a set of names.  `add_entity_flag` is to insert one, `remove_entity_flag` to erase one
and `check_entity_flag` to say whether one is there.  The test of the first is the wrong way
round, so that a flag can only be added where it is set already, and the last has the body of
the second, so that it takes away the flag that it is asked for and then finds it missing.  The
journal that the listeners are given follows the flags all the same.

## Main results

* `tracked_step` — **the journal follows the flags.**
* `behaves_iff` — **a history goes as promised exactly if it adds only what is set and checks
  only what is not.**
-/

namespace Mutgos.DbTypes

open Text

inductive EntityFlagReturnCode
  | success
  | invalid
  | set
  | notSet
  | lockError
  deriving DecidableEq, Repr

namespace Entity

def addedFlag (e : Entity) (flagAdded : FlagType) : Entity :=
  { e with dirtyFlag := true, diffFlagsChanged := e.diffFlagsChanged.put flagAdded }

def removedFlag (e : Entity) (flagRemoved : FlagType) : Entity :=
  { e with dirtyFlag := true, diffFlagsChanged := e.diffFlagsChanged.drop flagRemoved }

theorem diffFlagsChanged_notifyFieldChanged (e : Entity) (field : EntityField) :
    (e.notifyFieldChanged field).diffFlagsChanged = e.diffFlagsChanged := by
  unfold notifyFieldChanged
  split <;> rfl

end Entity

/-- An Entity with its flags. -/
structure FlaggedEntity extends Entity where
  entityFlags : Finset FlagType

namespace FlaggedEntity

variable (e : FlaggedEntity) (flag : FlagType)

def addEntityFlag : EntityFlagReturnCode × FlaggedEntity :=
  if flag ∈ e.entityFlags then
    (.success,
      { toEntity := (e.notifyFieldChanged .flags).addedFlag flag
        entityFlags := insert flag e.entityFlags })
  else (.success, e)

/-- A flag that is set is taken away. -/
def eraseFlag : FlaggedEntity :=
  if flag ∈ e.entityFlags then
    { toEntity := (e.notifyFieldChanged .flags).removedFlag flag
      entityFlags := e.entityFlags.erase flag }
  else e

def removeEntityFlag : EntityFlagReturnCode × FlaggedEntity := (.success, e.eraseFlag flag)

/-- `check_entity_flag`, which begins like the removal. -/
def checkEntityFlag : EntityFlagReturnCode × FlaggedEntity :=
  (if flag ∉ (e.eraseFlag flag).entityFlags then .notSet else .set, e.eraseFlag flag)

def getEntityFlags : Finset FlagType := e.entityFlags

/-- `unlock`, when it is the last: what the listeners are told, if they are called. -/
def unlock (now : TimeStamp) : Option EntityChanges × FlaggedEntity :=
  ((e.notifyDbListener now).1, { e with toEntity := (e.notifyDbListener now).2 })

variable {e flag}

/-- A flag that is set can be added, which enters it in the journal. -/
theorem addEntityFlag_of_mem (h : flag ∈ e.entityFlags) :
    (e.addEntityFlag flag).2.entityFlags = e.entityFlags ∧
      (e.addEntityFlag flag).2.diffFlagsChanged = e.diffFlagsChanged.put flag := by
  rw [addEntityFlag, if_pos h]
  refine ⟨Finset.insert_eq_of_mem h, ?_⟩
  exact congrArg (SetJournal.put · flag) (e.diffFlagsChanged_notifyFieldChanged .flags)

/-- **A flag that is not set is not added**, and that is called a success. -/
theorem addEntityFlag_of_notMem (h : flag ∉ e.entityFlags) :
    e.addEntityFlag flag = (.success, e) := by
  rw [addEntityFlag, if_neg h]

theorem eraseFlag_of_mem (h : flag ∈ e.entityFlags) :
    (e.eraseFlag flag).entityFlags = e.entityFlags.erase flag ∧
      (e.eraseFlag flag).diffFlagsChanged = e.diffFlagsChanged.drop flag := by
  rw [eraseFlag, if_pos h]
  refine ⟨rfl, ?_⟩
  exact congrArg (SetJournal.drop · flag) (e.diffFlagsChanged_notifyFieldChanged .flags)

theorem eraseFlag_of_notMem (h : flag ∉ e.entityFlags) : e.eraseFlag flag = e := by
  rw [eraseFlag, if_neg h]

theorem entityFlags_eraseFlag (e : FlaggedEntity) (flag : FlagType) :
    (e.eraseFlag flag).entityFlags = e.entityFlags.erase flag := by
  by_cases h : flag ∈ e.entityFlags
  · exact (eraseFlag_of_mem h).1
  · rw [eraseFlag_of_notMem h, Finset.erase_eq_of_notMem h]

/-- **A check never finds a flag.** -/
theorem checkEntityFlag_eq (e : FlaggedEntity) (flag : FlagType) :
    e.checkEntityFlag flag = (.notSet, e.eraseFlag flag) := by
  rw [checkEntityFlag, entityFlags_eraseFlag, if_pos (Finset.notMem_erase flag _)]

end FlaggedEntity

/-- The calls about flags, and the end of a session. -/
inductive FlagCall
  | addEntityFlag (flag : FlagType)
  | removeEntityFlag (flag : FlagType)
  | checkEntityFlag (flag : FlagType)
  | unlock (now : TimeStamp)

/-- What a call is to make of the flags. -/
def FlagCall.expected (flags : Finset FlagType) : FlagCall → Finset FlagType
  | addEntityFlag flag => insert flag flags
  | removeEntityFlag flag => flags.erase flag
  | checkEntityFlag _ => flags
  | unlock _ => flags

/-- An Entity, and its flags when the listeners were last called. -/
structure FlagHistory where
  entity : FlaggedEntity
  notified : Finset FlagType

namespace FlagHistory

/-- The listeners have just been called. -/
def start (e : FlaggedEntity) : FlagHistory :=
  ⟨{ e with diffFlagsChanged := .empty }, e.entityFlags⟩

/-- One call. -/
def step (s : FlagHistory) : FlagCall → FlagHistory
  | .addEntityFlag flag => { s with entity := (s.entity.addEntityFlag flag).2 }
  | .removeEntityFlag flag => { s with entity := (s.entity.removeEntityFlag flag).2 }
  | .checkEntityFlag flag => { s with entity := (s.entity.checkEntityFlag flag).2 }
  | .unlock now =>
    { entity := (s.entity.unlock now).2
      notified := if (s.entity.unlock now).1.isSome then s.entity.entityFlags else s.notified }

/-- **What is promised of a history**: the flags are the set that the calls make, a check
answers and changes nothing, and the journal that the listeners are given leads from the flags
they know to those that are set. -/
structure Behaves (e : FlaggedEntity) (calls : List FlagCall) : Prop where
  flags : ∀ before after, calls = before ++ after →
    (before.foldl step (start e)).entity.getEntityFlags =
      before.foldl FlagCall.expected e.entityFlags
  check : ∀ before flag after, calls = before ++ .checkEntityFlag flag :: after →
    (before.foldl step (start e)).entity.checkEntityFlag flag =
      (if flag ∈ (before.foldl step (start e)).entity.entityFlags then .set else .notSet,
        (before.foldl step (start e)).entity)
  journal : ∀ before now after, calls = before ++ .unlock now :: after →
    ∀ changes, ((before.foldl step (start e)).entity.unlock now).1 = some changes →
      changes.flags.apply (before.foldl step (start e)).notified =
        (before.foldl step (start e)).entity.entityFlags

/-- The calls that do what they are to do. -/
def Harmless (s : FlagHistory) : FlagCall → Prop
  | .addEntityFlag flag => flag ∈ s.entity.entityFlags
  | .checkEntityFlag flag => flag ∉ s.entity.entityFlags
  | .removeEntityFlag _ | .unlock _ => True

/-- The journal leads from the flags that the listeners know to those that are set. -/
def Tracked (s : FlagHistory) : Prop :=
  s.entity.diffFlagsChanged.apply s.notified = s.entity.entityFlags

variable {s : FlagHistory} {flag : FlagType}

/-! ### The journal -/

theorem tracked_start (e : FlaggedEntity) : (start e).Tracked :=
  SetJournal.apply_empty e.entityFlags

theorem Tracked.addEntityFlag (h : s.Tracked) (flag : FlagType) :
    (s.step (.addEntityFlag flag)).Tracked := by
  rw [step]
  by_cases hset : flag ∈ s.entity.entityFlags
  · obtain ⟨hflags, hjournal⟩ := FlaggedEntity.addEntityFlag_of_mem hset
    rw [Tracked, hjournal, hflags, SetJournal.apply_put, h, Finset.insert_eq_of_mem hset]
  · rw [FlaggedEntity.addEntityFlag_of_notMem hset]
    exact h

theorem Tracked.eraseFlag (h : s.Tracked) (flag : FlagType) :
    Tracked { s with entity := s.entity.eraseFlag flag } := by
  by_cases hset : flag ∈ s.entity.entityFlags
  · obtain ⟨hflags, hjournal⟩ := FlaggedEntity.eraseFlag_of_mem hset
    rw [Tracked, hjournal, hflags, SetJournal.apply_drop, h]
  · rw [FlaggedEntity.eraseFlag_of_notMem hset]
    exact h

/-- What the listeners are given is the journal, and it begins anew. -/
theorem unlock_cases (e : FlaggedEntity) (now : TimeStamp) :
    (e.unlock now).2.entityFlags = e.entityFlags ∧
      ((e.unlock now).1 = none ∧ (e.unlock now).2.diffFlagsChanged = e.diffFlagsChanged ∨
        (∃ changes, (e.unlock now).1 = some changes ∧ changes.flags = e.diffFlagsChanged) ∧
          (e.unlock now).2.diffFlagsChanged = .empty) := by
  unfold FlaggedEntity.unlock Entity.notifyDbListener
  split
  · refine ⟨rfl, Or.inr ⟨⟨_, rfl, ?_⟩, rfl⟩⟩
    unfold Entity.stampUpdate
    split <;> rfl
  · exact ⟨rfl, Or.inl ⟨rfl, rfl⟩⟩

theorem Tracked.unlock (h : s.Tracked) (now : TimeStamp) : (s.step (.unlock now)).Tracked := by
  obtain ⟨hflags, ⟨hnone, hsame⟩ | ⟨⟨changes, hsome, -⟩, hempty⟩⟩ := unlock_cases s.entity now
  · rw [Tracked, step, hnone]
    dsimp only
    rw [hsame, hflags]
    exact h
  · rw [Tracked, step, hsome]
    dsimp only
    rw [hempty, hflags]
    exact SetJournal.apply_empty _

/-- **The journal follows the flags**, through every call. -/
theorem tracked_step (h : s.Tracked) (c : FlagCall) : (s.step c).Tracked := by
  cases c with
  | addEntityFlag flag => exact h.addEntityFlag flag
  | removeEntityFlag flag => exact h.eraseFlag flag
  | checkEntityFlag flag => exact h.eraseFlag flag
  | unlock now => exact h.unlock now

theorem tracked_run (h : s.Tracked) (calls : List FlagCall) : (calls.foldl step s).Tracked := by
  induction calls generalizing s with
  | nil => exact h
  | cons c calls ih => exact ih (tracked_step h c)

/-! ### The flags -/

/-- What a call makes of the flags. -/
theorem getEntityFlags_step (s : FlagHistory) (c : FlagCall) :
    (s.step c).entity.getEntityFlags = match c with
      | .addEntityFlag _ | .unlock _ => s.entity.entityFlags
      | .removeEntityFlag flag | .checkEntityFlag flag => s.entity.entityFlags.erase flag := by
  cases c with
  | addEntityFlag flag =>
    by_cases hset : flag ∈ s.entity.entityFlags
    · exact (FlaggedEntity.addEntityFlag_of_mem hset).1
    · exact congrArg (·.2.entityFlags) (FlaggedEntity.addEntityFlag_of_notMem hset)
  | removeEntityFlag flag => exact s.entity.entityFlags_eraseFlag flag
  | checkEntityFlag flag => exact s.entity.entityFlags_eraseFlag flag
  | unlock now => exact (unlock_cases s.entity now).1

/-- A call does to the flags what it is to do exactly if it is harmless. -/
theorem getEntityFlags_step_iff (s : FlagHistory) (c : FlagCall) :
    (s.step c).entity.getEntityFlags = FlagCall.expected s.entity.entityFlags c ↔
      s.Harmless c := by
  rw [getEntityFlags_step]
  cases c with
  | addEntityFlag flag => exact eq_comm.trans Finset.insert_eq_self
  | removeEntityFlag flag => exact iff_of_true rfl trivial
  | checkEntityFlag flag => exact Finset.erase_eq_self
  | unlock now => exact iff_of_true rfl trivial

theorem flags_of_harmless {e : FlaggedEntity} {calls : List FlagCall}
    (h : ∀ before c after, calls = before ++ c :: after →
      (before.foldl step (start e)).Harmless c) :
    (calls.foldl step (start e)).entity.getEntityFlags =
      calls.foldl FlagCall.expected e.entityFlags := by
  induction calls using List.reverseRecOn with
  | nil => rfl
  | append_singleton calls c ih =>
    have hbefore := ih fun before c' after heq =>
      h before c' (after ++ [c]) (by rw [heq, List.append_assoc, List.cons_append])
    rw [List.foldl_concat, List.foldl_concat, ← hbefore]
    exact (getEntityFlags_step_iff _ c).mpr (h calls c [] rfl)

/-- **A history goes as promised exactly if it adds only what is set and checks only what is
not.** -/
theorem behaves_iff (e : FlaggedEntity) (calls : List FlagCall) :
    Behaves e calls ↔ ∀ before c after, calls = before ++ c :: after →
      (before.foldl step (start e)).Harmless c := by
  constructor
  · intro h before c after heq
    have hbefore := h.flags before (c :: after) heq
    have hafter := h.flags (before ++ [c]) after (by rw [heq, List.append_cons])
    rw [List.foldl_concat, List.foldl_concat, ← hbefore] at hafter
    exact (getEntityFlags_step_iff _ c).mp hafter
  · intro h
    refine ⟨fun before after heq => ?_, fun before flag after heq => ?_,
      fun before now after heq changes hchanges => ?_⟩
    · refine flags_of_harmless fun first c rest hsplit => ?_
      exact h first c (rest ++ after)
        (by rw [heq, hsplit, List.append_assoc, List.cons_append])
    · have hclear : flag ∉ (before.foldl step (start e)).entity.entityFlags :=
        h before (.checkEntityFlag flag) after heq
      rw [FlaggedEntity.checkEntityFlag_eq, FlaggedEntity.eraseFlag_of_notMem hclear,
        if_neg hclear]
    · have htracked := tracked_run (tracked_start e) before
      obtain ⟨-, ⟨hnone, -⟩ | ⟨⟨changes', hsome, hflags⟩, -⟩⟩ :=
        unlock_cases (before.foldl step (start e)).entity now
      · rw [hnone] at hchanges
        cases hchanges
      · obtain rfl := Option.some.inj (hsome.symm.trans hchanges)
        rw [hflags]
        exact htracked

/-- A flag is added to a new Entity, and one that is set is asked for. -/
theorem addEntityFlag_not_behaves :
    ((⟨.new true 0, ∅⟩ : FlaggedEntity).addEntityFlag (ascii "dark")).1 = .success ∧
      ¬ Behaves ⟨.new true 0, ∅⟩ [.addEntityFlag (ascii "dark")] ∧
      ¬ Behaves ⟨.new true 0, {ascii "dark"}⟩ [.checkEntityFlag (ascii "dark")] := by
  refine ⟨rfl, fun h => ?_, fun h => ?_⟩
  · have hflags := h.flags [.addEntityFlag (ascii "dark")] [] rfl
    revert hflags
    decide +kernel
  · have hcheck := h.check [] (ascii "dark") [] rfl
    have hanswer := congrArg Prod.fst hcheck
    revert hanswer
    decide +kernel

end FlagHistory

end Mutgos.DbTypes
