import Mutgos.DbTypes.EntityData
import Mutgos.DbTypes.PropertyData
import Mutgos.Lib.TransitionSystem

/-!
# What a lock reads as, and how it decides

A `dbtype::Lock` is built by locking it in one of three ways, by unlocking it and by
copying.  What it reads as follows from that: that it is unlocked, or locked by an
ID, by a group or by the value of a property, each of these possibly negated.
Evaluating the lock decides as it reads, if the token for the evaluation is that of
the Entity or Group, or the lock is not negated, and if the values in question are
equal to their copies.

## Main results

* `evaluate_iff_admits` — a lock decides as it reads.
-/

namespace Mutgos.DbTypes

open Text Lock List

/-- A lock with a value to compare properties with. -/
abbrev PropertyLock := Lock PropertyData

namespace Lock

def unlock (_ : PropertyLock) : PropertyLock := .unlocked

/-- The copy constructor, and `operator=` from another lock. -/
def copy (rhs : PropertyLock) : PropertyLock :=
  { rhs with lockPathData := rhs.lockPathData.map PropertyData.clone }

def lockByEntity (lock : PropertyLock) (entity : Option (EntityData PropertyData))
    (notResult : Bool) : Bool × PropertyLock :=
  match entity with
  | none => (false, lock)
  | some e =>
    (true,
      { lock.unlock with
        lockType := if e.entityType.isGroup then .byGroup else .byId
        lockId := some e.id
        operationNot := notResult })

def lockByProperty (lock : PropertyLock) (path : ByteString) (data : PropertyData)
    (notResult : Bool) : Bool × PropertyLock :=
  if path = [] then (false, lock)
  else
    (true,
      { lock.unlock with
        lockType := .byProperty
        lockPath := some path
        lockPathData := some data.clone
        operationNot := notResult })

/-- `PropertyEntity::get_property`, with a token that has the lock of the Entity or has not. -/
def getProperty (e : EntityData PropertyData) (path : ByteString) (hasLock : Bool) :
    Option PropertyData :=
  if hasLock then (e.applications.getProperty path).map PropertyData.clone else none

/-- `evaluate` of an Entity, with a token that has the lock of the Entity or has not. -/
def evaluateEntity (lock : PropertyLock) (entity : Option (EntityData PropertyData))
    (hasLock : Bool) : Bool :=
  if !lock.lockValid then true
  else
    match entity with
    | none => false
    | some e =>
      match lock.lockType, lock.lockId, lock.lockPath, lock.lockPathData with
      | .byId, some lockId, _, _ => xor (decide (e.id = lockId)) lock.operationNot
      | .byProperty, _, some path, some data =>
        if e.entityType.isPropertyEntity then
          xor ((getProperty e path hasLock).any fun value => value.eq data) lock.operationNot
        else false
      | _, _, _, _ => false

/-- `evaluate` of an Entity in a Group, with a token that has the lock of the Group or has not. -/
def evaluateInGroup (lock : PropertyLock) (entity group : Option (EntityData PropertyData))
    (hasLock : Bool) : Bool :=
  if !lock.lockValid then true
  else
    match entity, group with
    | some e, some g =>
      if lock.lockType = .byGroup then xor (hasLock && g.isInGroup e.id) lock.operationNot
      else false
    | _, _ => false

end Lock

/-- A call of one of the two `evaluate`. -/
inductive Evaluation where
  | ofEntity (entity : Option (EntityData PropertyData)) (hasLock : Bool)
  | inGroup (entity group : Option (EntityData PropertyData)) (hasLock : Bool)

/-- What the call returns. -/
def Lock.evaluates (lock : PropertyLock) : Evaluation → Bool
  | .ofEntity entity hasLock => lock.evaluateEntity entity hasLock
  | .inGroup entity group hasLock => lock.evaluateInGroup entity group hasLock

/-! ### Building locks -/

/-- The operations that build locks.  A lock is named by when it was made. -/
inductive LockOperation where
  | construct
  | copyConstruct (rhs : ℕ)
  | assign (lock rhs : ℕ)
  | unlock (lock : ℕ)
  | lockByEntity (lock : ℕ) (entity : Option (EntityData PropertyData)) (notResult : Bool)
  | lockByProperty (lock : ℕ) (path : ByteString) (data : PropertyData) (notResult : Bool)

/-- One operation on the locks. -/
def lockStep (locks : List PropertyLock) : LockOperation → Option (List PropertyLock)
  | .construct => some (locks ++ [.unlocked])
  | .copyConstruct j => (locks[j]?).map fun rhs => locks ++ [rhs.copy]
  | .assign i j =>
    if i = j then some locks else (locks[j]?).map fun rhs => locks.set i rhs.copy
  | .unlock i => (locks[i]?).map fun lock => locks.set i lock.unlock
  | .lockByEntity i entity notResult =>
    (locks[i]?).map fun lock => locks.set i (lock.lockByEntity entity notResult).2
  | .lockByProperty i path data notResult =>
    (locks[i]?).map fun lock => locks.set i (lock.lockByProperty path data notResult).2

/-! ### Readings -/

/-- What a lock reads as. -/
inductive Reading where
  | unlocked
  | byId (id : Id) (negated : Bool)
  | byGroup (group : Id) (negated : Bool)
  | byProperty (path : ByteString) (value : PropertyData) (negated : Bool)

/-- What the locks read as after an operation.  Locking by no Entity and by no path does not lock
anything. -/
def readOne (readings : List Reading) : LockOperation → List Reading
  | .construct => readings ++ [.unlocked]
  | .copyConstruct j => readings ++ [readings.getD j .unlocked]
  | .assign i j => readings.set i (readings.getD j .unlocked)
  | .unlock i => readings.set i .unlocked
  | .lockByEntity _ none _ => readings
  | .lockByEntity i (some e) notResult =>
    readings.set i (if e.entityType.isGroup then .byGroup e.id notResult else .byId e.id notResult)
  | .lockByProperty i path data notResult =>
    if path = [] then readings else readings.set i (.byProperty path data notResult)

/-- What the locks read as after operations. -/
def readAll (operations : List LockOperation) : List Reading := operations.foldl readOne []

namespace Reading

/-- The reading without negation, for an Entity and for the Group in question. -/
def Plain : Reading → EntityData PropertyData → Option (EntityData PropertyData) → Prop
  | unlocked, _, _ => True
  | byId id _, e, _ => e.id = id
  | byGroup _ _, e, some g =>
    e.id.isDefault = false ∧ e.id ∈ g.groupIds ∧ e.id ∉ g.disabledIds
  | byGroup _ _, _, none => False
  | byProperty path value _, e, _ =>
    ∃ v, e.applications.getProperty path = some v ∧ PropertyData.Same v value

def negated : Reading → Bool
  | unlocked => false
  | byId _ n | byGroup _ n | byProperty _ _ n => n

/-- What an evaluation is of, if it can be carried out: it is of an Entity, by the `evaluate` for
this kind of lock, and where something is looked up, with the token that is needed for that. -/
def subject : Reading → Evaluation →
    Option (EntityData PropertyData × Option (EntityData PropertyData))
  | byId _ _, .ofEntity (some e) _ => some (e, none)
  | byGroup _ _, .inGroup (some e) (some g) true => some (e, some g)
  | byProperty _ _ _, .ofEntity (some e) true =>
    if e.entityType.isPropertyEntity then some (e, none) else none
  | _, _ => none

/-- How a lock is to decide that reads as this.  An evaluation that cannot be carried out admits
nobody. -/
def Admits (reading : Reading) (evaluation : Evaluation) : Prop :=
  match reading with
  | unlocked => True
  | reading =>
    ∃ e group, reading.subject evaluation = some (e, group) ∧
      (reading.Plain e group ↔ reading.negated = false)

/-- The lock that reads as this. -/
def toLock : Reading → PropertyLock
  | unlocked => .unlocked
  | byId id n => ⟨.byId, some id, none, none, n⟩
  | byGroup id n => ⟨.byGroup, some id, none, none, n⟩
  | byProperty path value n => ⟨.byProperty, none, some path, some value, n⟩

/-- The value in the reading is settled. -/
def settled : Reading → Bool
  | byProperty _ value _ => value.settled
  | _ => true

/-- The evaluations that lead to no wrong decision: the token is the right one, or the lock is not
negated; the value of the property is settled.  The Group is the one that the lock is locked
against, as `evaluate` requires. -/
def Proper : Reading → Evaluation → Prop
  | unlocked, _ | byId _ _, _ => True
  | byGroup id n, .inGroup _ (some g) hasLock => g.id = id ∧ (hasLock = true ∨ n = false)
  | byGroup _ _, _ => True
  | byProperty path _ n, .ofEntity (some e) hasLock =>
    (hasLock = true ∨ n = false) ∧
      ∀ v, e.applications.getProperty path = some v → v.settled = true
  | byProperty _ _ _, _ => True

end Reading

/-! ### Decisions -/

theorem xor_eq_true_iff {b n : Bool} {P : Prop} (h : b = true ↔ P) :
    xor b n = true ↔ (P ↔ n = false) := by
  rw [← h]
  cases b <;> cases n <;> simp

theorem isInGroup_iff {g : EntityData PropertyData} {id : Id} :
    g.isInGroup id = true ↔ id.isDefault = false ∧ id ∈ g.groupIds ∧ id ∉ g.disabledIds := by
  simp only [EntityData.isInGroup, Bool.and_eq_true, Bool.not_eq_true', decide_eq_true_eq]
  tauto

/-- What is found for a settled value is compared with it. -/
theorem any_getProperty_iff {e : EntityData PropertyData} {path : ByteString}
    {value : PropertyData} (hvalue : value.settled = true)
    (hfound : ∀ v, e.applications.getProperty path = some v → v.settled = true) :
    ((getProperty e path true).any fun v => v.eq value) = true ↔
      ∃ v, e.applications.getProperty path = some v ∧ PropertyData.Same v value := by
  rw [getProperty, if_pos rfl]
  cases hget : e.applications.getProperty path with
  | none => simp
  | some v =>
    have hv := hfound v hget
    simp [PropertyData.clone_eq_self hv, PropertyData.eq_iff_same hv hvalue]

/-- **A lock decides as it reads.** -/
theorem evaluate_iff_admits {reading : Reading} {evaluation : Evaluation}
    (hsettled : reading.settled = true) (hproper : reading.Proper evaluation) :
    reading.toLock.evaluates evaluation = true ↔ reading.Admits evaluation := by
  cases reading with
  | unlocked => cases evaluation <;> exact iff_of_true rfl trivial
  | byId id n =>
    match evaluation with
    | .ofEntity none _ | .inGroup none _ _ | .inGroup (some _) none _
    | .inGroup (some _) (some _) _ =>
      refine iff_of_false ?_ ?_
      · simp [Reading.toLock, evaluates, evaluateEntity, evaluateInGroup,
          lockValid]
      · simp [Reading.Admits, Reading.subject]
    | .ofEntity (some e) hasLock =>
      have hplain : decide (e.id = id) = true ↔ (Reading.byId id n).Plain e none :=
        decide_eq_true_iff
      have hcode : (Reading.byId id n).toLock.evaluates (.ofEntity (some e) hasLock) =
          xor (decide (e.id = id)) n := rfl
      rw [hcode, xor_eq_true_iff hplain]
      simp [Reading.Admits, Reading.subject, Reading.negated]
  | byGroup id n =>
    match evaluation with
    | .ofEntity none _ | .ofEntity (some _) _ | .inGroup none _ _ | .inGroup (some _) none _ =>
      refine iff_of_false ?_ ?_
      · simp [Reading.toLock, evaluates, evaluateEntity, evaluateInGroup,
          lockValid]
      · simp [Reading.Admits, Reading.subject]
    | .inGroup (some e) (some g) true =>
      have hplain : g.isInGroup e.id = true ↔ (Reading.byGroup id n).Plain e (some g) :=
        isInGroup_iff
      have hcode : (Reading.byGroup id n).toLock.evaluates (.inGroup (some e) (some g) true) =
          xor (g.isInGroup e.id) n := by
        simp [Reading.toLock, evaluates, evaluateInGroup, lockValid]
      rw [hcode, xor_eq_true_iff hplain]
      simp [Reading.Admits, Reading.subject, Reading.negated]
    | .inGroup (some e) (some g) false =>
      -- With the wrong token nobody is in the Group, which is right as long as it is not negated.
      have hn : n = false := hproper.2.resolve_left (by simp)
      subst hn
      refine iff_of_false ?_ ?_
      · simp [Reading.toLock, evaluates, evaluateInGroup, lockValid]
      · simp [Reading.Admits, Reading.subject]
  | byProperty path value n =>
    match evaluation with
    | .ofEntity none _ | .inGroup none _ _ | .inGroup (some _) none _
    | .inGroup (some _) (some _) _ =>
      refine iff_of_false ?_ ?_
      · simp [Reading.toLock, evaluates, evaluateEntity, evaluateInGroup,
          lockValid]
      · simp [Reading.Admits, Reading.subject]
    | .ofEntity (some e) hasLock =>
      by_cases hproperties : e.entityType.isPropertyEntity = true
      · have hcode : (Reading.byProperty path value n).toLock.evaluates
            (.ofEntity (some e) hasLock) =
              xor ((getProperty e path hasLock).any fun v => v.eq value) n := by
          simp [Reading.toLock, evaluates, evaluateEntity, lockValid, hproperties]
        rw [hcode]
        cases hasLock with
        | true =>
          have hplain : ((getProperty e path true).any fun v => v.eq value) = true ↔
              (Reading.byProperty path value n).Plain e none :=
            any_getProperty_iff hsettled hproper.2
          rw [xor_eq_true_iff hplain]
          simp [Reading.Admits, Reading.subject, Reading.negated, hproperties]
        | false =>
          have hn : n = false := hproper.1.resolve_left (by simp)
          subst hn
          refine iff_of_false ?_ ?_
          · simp [getProperty]
          · simp [Reading.Admits, Reading.subject]
      · refine iff_of_false ?_ ?_
        · simp [Reading.toLock, evaluates, evaluateEntity, lockValid, hproperties]
        · cases hasLock <;> simp [Reading.Admits, Reading.subject, hproperties]

/-! ### Runs -/

/-- The operations that lead to no wrong decision: the value to compare properties with is
settled. -/
def LockOperation.Proper : LockOperation → Prop
  | .lockByProperty _ _ data _ => data.settled = true
  | _ => True

instance : ∀ operation : LockOperation, Decidable operation.Proper
  | .lockByProperty _ _ data _ => inferInstanceAs (Decidable (data.settled = true))
  | .construct | .copyConstruct _ | .assign _ _ | .unlock _ | .lockByEntity _ _ _ =>
    .isTrue trivial

/-- The locks are what the readings say, and all values are settled. -/
def Read (readings : List Reading) (locks : List PropertyLock) : Prop :=
  locks = readings.map Reading.toLock ∧ ∀ reading ∈ readings, reading.settled = true

/-- A settled lock is its own copy. -/
theorem copy_toLock {reading : Reading} (h : reading.settled = true) :
    reading.toLock.copy = reading.toLock := by
  cases reading with
  | byProperty path value n => simp [Reading.toLock, copy, PropertyData.clone_eq_self h]
  | _ => rfl

section Runs

variable {readings : List Reading} {locks locks' : List PropertyLock} {reading : Reading}
  {lock : PropertyLock} {i : ℕ}

section

variable (h : Read readings locks)
include h

theorem Read.exists_reading (hi : locks[i]? = some lock) :
    ∃ reading, readings[i]? = some reading ∧ lock = reading.toLock ∧ reading.settled = true := by
  rw [h.1, getElem?_map, Option.map_eq_some_iff] at hi
  obtain ⟨reading, hi, rfl⟩ := hi
  exact ⟨reading, hi, rfl, h.2 reading (mem_of_getElem? hi)⟩

theorem Read.set (reading : Reading) (hsettled : reading.settled = true) :
    Read (readings.set i reading) (locks.set i reading.toLock) := by
  refine ⟨by rw [h.1, map_set], ?_⟩
  intro other hother
  rcases mem_or_eq_of_mem_set hother with hother | rfl
  · exact h.2 other hother
  · exact hsettled

theorem Read.concat (reading : Reading) (hsettled : reading.settled = true) :
    Read (readings ++ [reading]) (locks ++ [reading.toLock]) := by
  refine ⟨by rw [h.1, map_append]; rfl, ?_⟩
  intro other hother
  rcases mem_append.mp hother with hother | hother
  · exact h.2 other hother
  · rwa [mem_singleton.mp hother]

/-- The locks are what they read as, operation by operation. -/
theorem read_readOne {operation : LockOperation} (hproper : operation.Proper)
    (hstep : lockStep locks operation = some locks') :
    Read (readOne readings operation) locks' := by
  cases operation with
  | construct =>
    rw [lockStep, Option.some.injEq] at hstep
    exact hstep ▸ h.concat .unlocked rfl
  | copyConstruct j =>
    rw [lockStep, Option.map_eq_some_iff] at hstep
    obtain ⟨rhs, hj, rfl⟩ := hstep
    obtain ⟨reading, hreading, rfl, hsettled⟩ := h.exists_reading hj
    rw [copy_toLock hsettled, readOne, getD_eq_getElem?_getD, hreading]
    exact h.concat reading hsettled
  | assign i j =>
    rw [lockStep] at hstep
    rw [readOne]
    split_ifs at hstep with hij
    · -- Assigning a lock to itself does nothing.
      cases hstep
      subst hij
      have hsame : readings.set i (readings.getD i .unlocked) = readings := by
        by_cases hi : i < readings.length
        · rw [getD_eq_getElem?_getD, getElem?_eq_getElem hi, Option.getD_some,
            set_getElem_self]
        · exact set_eq_of_length_le (Nat.le_of_not_lt hi)
      rw [hsame]
      exact h
    · rw [Option.map_eq_some_iff] at hstep
      obtain ⟨rhs, hj, rfl⟩ := hstep
      obtain ⟨reading, hreading, rfl, hsettled⟩ := h.exists_reading hj
      rw [copy_toLock hsettled, getD_eq_getElem?_getD, hreading]
      exact h.set reading hsettled
  | unlock i =>
    rw [lockStep, Option.map_eq_some_iff] at hstep
    obtain ⟨lock, -, rfl⟩ := hstep
    exact h.set .unlocked rfl
  | lockByEntity i entity notResult =>
    rw [lockStep, Option.map_eq_some_iff] at hstep
    obtain ⟨lock, hi, rfl⟩ := hstep
    cases entity with
    | none =>
      obtain ⟨hlt, rfl⟩ := List.getElem?_eq_some_iff.mp hi
      rw [readOne, lockByEntity, set_getElem_self]
      exact h
    | some e =>
      rw [readOne, lockByEntity]
      by_cases hgroup : e.entityType.isGroup = true
      · rw [if_pos hgroup, if_pos hgroup]
        exact h.set (.byGroup e.id notResult) rfl
      · rw [if_neg hgroup, if_neg hgroup]
        exact h.set (.byId e.id notResult) rfl
  | lockByProperty i path data notResult =>
    rw [lockStep, Option.map_eq_some_iff] at hstep
    obtain ⟨lock, hi, rfl⟩ := hstep
    rw [readOne, lockByProperty]
    by_cases hpath : path = []
    · obtain ⟨hlt, rfl⟩ := List.getElem?_eq_some_iff.mp hi
      rw [if_pos hpath, if_pos hpath, set_getElem_self]
      exact h
    · rw [if_neg hpath, if_neg hpath, PropertyData.clone_eq_self hproper]
      exact h.set (.byProperty path data notResult) hproper

theorem read_readAll {operations : List LockOperation}
    (hsteps : Steps lockStep (fun _ operation => operation.Proper) locks operations locks') :
    Read (operations.foldl readOne readings) locks' := by
  induction hsteps generalizing readings with
  | nil => exact h
  | cons hproper hstep _ ih => exact ih (read_readOne h hproper hstep)

end

/-- **Locks decide as they read**, after any number of operations, and those that read the same are
the same. -/
theorem evaluate_iff_admits_of_steps {operations : List LockOperation}
    (h : Steps lockStep (fun _ operation => operation.Proper) [] operations locks) :
    locks.length = (readAll operations).length ∧
      (∀ (i : ℕ) (lock : PropertyLock) (reading : Reading) (evaluation : Evaluation),
        locks[i]? = some lock → (readAll operations)[i]? = some reading →
          reading.Proper evaluation →
            (lock.evaluates evaluation = true ↔ reading.Admits evaluation)) ∧
      ∀ i j : ℕ, (readAll operations)[i]? = (readAll operations)[j]? → locks[i]? = locks[j]? := by
  have hread : Read (readAll operations) locks := by
    have hnone : Read [] [] := ⟨rfl, by simp⟩
    exact read_readAll hnone h
  refine ⟨by rw [hread.1, List.length_map], ?_, ?_⟩
  · intro i lock reading evaluation hi hreading hproper
    obtain ⟨reading', hreading', rfl, hsettled⟩ := hread.exists_reading hi
    cases hreading.symm.trans hreading'
    exact evaluate_iff_admits hsettled hproper
  · intro i j hij
    rw [hread.1, List.getElem?_map, List.getElem?_map, hij]

end Runs

/-- A player with this value at `a/p`. -/
def holder (value : PropertyData) : EntityData PropertyData :=
  { EntityData.ofType ⟨1, 2⟩ .player with
    applications := [([97],
      { applicationOwner := ⟨1, 2⟩
        security := Security.empty
        properties := ⟨[([112], some value, none)], none⟩ })] }

/-- The set of 1 and 2. -/
def oneTwo : PropertyData := .set (some .integer) [.integer 1, .integer 2]

theorem evaluate_iff_admits_of_steps_oneTwo :
    let operations : List LockOperation := [.construct,
      .lockByProperty 0 [97, 47, 112] oneTwo true, .copyConstruct 0,
      .lockByEntity 0 (some (holder oneTwo)) false]
    ∃ locks, Steps lockStep (fun _ operation => operation.Proper) [] operations locks ∧
      locks.length = (readAll operations).length ∧
      (∀ (i : ℕ) (lock : PropertyLock) (reading : Reading) (evaluation : Evaluation),
        locks[i]? = some lock → (readAll operations)[i]? = some reading →
          reading.Proper evaluation →
            (lock.evaluates evaluation = true ↔ reading.Admits evaluation)) ∧
      ∀ i j : ℕ, (readAll operations)[i]? = (readAll operations)[j]? → locks[i]? = locks[j]? := by
  intro operations
  have hrun : ∃ locks, run (guarded lockStep fun _ operation => operation.Proper) [] operations =
      some locks := ⟨_, rfl⟩
  obtain ⟨locks, hrun⟩ := hrun
  have hsteps := steps_of_run_guarded hrun
  exact ⟨locks, hsteps, evaluate_iff_admits_of_steps hsteps⟩

/-- A set of sets, made by adding 2 and 3 and then 1 and 4. -/
def twoSets : PropertyData :=
  let addTo := fun (set item : PropertyData) => (PropertyData.add 10 set item).2
  let first := addTo (addTo (.set none []) (.integer 2)) (.integer 3)
  let second := addTo (addTo (.set none []) (.integer 1)) (.integer 4)
  addTo (addTo (.set none []) first) second

/-- Each of the two sets is less than the other, and each copy has them the other way round: a lock
by the value of a property, on a player whose property has been set to that value, denies the
player, and its copy admits the player. -/
theorem copies_decide_differently :
    ∃ lock copy : PropertyLock,
      run lockStep [] [.construct, .lockByProperty 0 [97, 47, 112] twoSets false,
        .copyConstruct 0] = some [lock, copy] ∧
      lock.evaluates (.ofEntity (some (holder twoSets.clone)) true) = false ∧
      copy.evaluates (.ofEntity (some (holder twoSets.clone)) true) = true :=
  ⟨_, _, rfl, by decide +kernel, by decide +kernel⟩

/-- With the wrong token the value is not found, and a negated lock admits. -/
example : ((unlocked.lockByProperty [97, 47, 112] oneTwo true).2.evaluates
    (.ofEntity (some (holder oneTwo)) false)) = true := by decide +kernel

end Mutgos.DbTypes
