import Mathlib.Algebra.Group.Nat.Defs
import Mutgos.DbTypes.Entity

/-!
# When an Entity was updated

An Entity notes when it was last updated each time its listeners are called, and means to leave
the time alone when nothing has changed but the access fields.  It asks `dirty_fields` for
that, which holds what has changed since the last commit, and not what has changed since the
lock was taken: what earlier sessions have left there counts, and what a commit has taken out
during the session does not.

## Main results

* `stampsRightly_iff` — **the rule holds of a session exactly if `Counts` does**, after any
  history.
-/

namespace Mutgos.DbTypes

open EntityField List

namespace EntityField

/-- The two fields whose changes are no update. -/
def isAccess : EntityField → Bool
  | accessedTimestamp | accessCount => true
  | _ => false

end EntityField

/-- `Entity::AccessCountType` has 64 bits. -/
def maxAccessCount : ℕ := 2 ^ 64 - 1

/-- An Entity with the fields that an access sets. -/
structure AccessedEntity extends Entity where
  entityAccessedTimestamp : TimeStamp
  entityAccessCount : ℕ

/-- What happens to an Entity while it is locked. -/
inductive SessionCall
  | setEntityAccessedTimestamp (now : TimeStamp)
  /-- The method that sets another field. -/
  | change (field : EntityField) (h : field.isAccess = false)
  /-- A commit calls `clear_dirty`. -/
  | clearDirty
  deriving DecidableEq

namespace SessionCall

/-- The fields that a call reports as changed. -/
def fields : SessionCall → Finset EntityField
  | setEntityAccessedTimestamp _ => {.accessedTimestamp, .accessCount}
  | change field _ => {field}
  | clearDirty => ∅

/-- A call that sets another field than the access fields. -/
def isChange : SessionCall → Bool
  | change _ _ => true
  | _ => false

/-- An access. -/
def isAccess : SessionCall → Bool
  | setEntityAccessedTimestamp _ => true
  | _ => false

end SessionCall

/-- What happens from one unlocked state to the next. -/
inductive Session
  /-- The lock is taken, and given back at the time `now`. -/
  | exclusive (calls : List SessionCall) (now : TimeStamp)
  /-- With the lock shared nobody is notified; `check_entity_flag` reports a change there. -/
  | shared (field : EntityField) (h : field.isAccess = false)

namespace AccessedEntity

variable (e : AccessedEntity)

def setEntityAccessedTimestamp (now : TimeStamp) : AccessedEntity where
  toEntity := (e.notifyFieldChanged .accessedTimestamp).notifyFieldChanged .accessCount
  entityAccessedTimestamp := now
  entityAccessCount :=
    if e.entityAccessCount < maxAccessCount then e.entityAccessCount + 1 else e.entityAccessCount

/-- A field has been set. -/
def change (field : EntityField) : AccessedEntity :=
  { e with toEntity := e.notifyFieldChanged field }

def clearDirty : AccessedEntity := { e with dirtyFlag := false, dirtyFields := ∅ }

/-- One call. -/
def call : SessionCall → AccessedEntity
  | .setEntityAccessedTimestamp now => e.setEntityAccessedTimestamp now
  | .change field _ => e.change field
  | .clearDirty => e.clearDirty

/-- `unlock`, when it is the last: the listeners are called first. -/
def unlock (now : TimeStamp) : AccessedEntity :=
  { e with toEntity := (e.notifyDbListener now).2 }

/-- One session. -/
def session : Session → AccessedEntity
  | .exclusive calls now => (calls.foldl call e).unlock now
  | .shared field _ => e.change field

/-- **The rule**: the time of the update is the time of the unlock where the session has changed
another field, and what it was otherwise. -/
def StampsRightly (calls : List SessionCall) : Prop :=
  ∀ now, (e.session (.exclusive calls now)).entityUpdatedTimestamp =
    if calls.any SessionCall.isChange then now else e.entityUpdatedTimestamp

/-- Changes are reported. -/
def records : Bool := !e.ignoreChanges && e.hasDbListeners

/-- The listeners are called at the next unlock, whatever happens. -/
def pending : Bool := e.needCallListener && e.hasDbListeners

/-- What happens after the last `clear_dirty`. -/
def afterClear (calls : List SessionCall) : List SessionCall :=
  calls.rtakeWhile fun c => c ≠ .clearDirty

/-- The condition for the rule. -/
def Counts (calls : List SessionCall) : Prop :=
  if calls.any SessionCall.isChange then
    e.records = true ∧
      (.clearDirty ∈ calls → afterClear calls = [] ∨ (afterClear calls).any SessionCall.isChange)
  else if calls.any SessionCall.isAccess then
    e.records = true →
      if .clearDirty ∈ calls then (afterClear calls).any SessionCall.isAccess
      else ∀ field ∈ e.dirtyFields, field.isAccess
  else
    e.pending = true →
      .clearDirty ∉ calls ∧ accessedTimestamp ∈ e.dirtyFields ∧
        ∀ field ∈ e.dirtyFields, field.isAccess

/-- The access fields are dirty together. -/
def Paired : Prop := accessedTimestamp ∈ e.dirtyFields ↔ .accessCount ∈ e.dirtyFields

/-- What every history keeps: the access fields are reported together, and the listeners are
only called about changes that are reported. -/
structure Coherent : Prop where
  paired : e.Paired
  records_of_pending : e.pending = true → e.records = true

variable {e}

/-! ### What the calls of a session leave -/

/-- What one call leaves. -/
theorem call_spec (e : AccessedEntity) (c : SessionCall) :
    (e.call c).entityUpdatedTimestamp = e.entityUpdatedTimestamp ∧
      (e.call c).records = e.records ∧
      (e.call c).pending = (e.pending || e.records && c != .clearDirty) ∧
      (e.records = true → ∀ field, field ∈ (e.call c).dirtyFields ↔
        c ≠ .clearDirty ∧ (field ∈ e.dirtyFields ∨ field ∈ c.fields)) := by
  cases hignore : e.ignoreChanges <;> cases hlisteners : e.hasDbListeners <;> cases c <;>
    simp [call, setEntityAccessedTimestamp, change, clearDirty, Entity.notifyFieldChanged,
      records, pending, hignore, hlisteners, SessionCall.fields]
  all_goals
    intro field
    tauto

/-- What the calls of a session leave to the listeners. -/
theorem pending_calls (e : AccessedEntity) (calls : List SessionCall) :
    (calls.foldl call e).entityUpdatedTimestamp = e.entityUpdatedTimestamp ∧
      (calls.foldl call e).records = e.records ∧
      (calls.foldl call e).pending =
        (e.pending || e.records && calls.any fun c => c != .clearDirty) := by
  induction calls using List.reverseRecOn with
  | nil => exact ⟨rfl, rfl, by rw [any_nil, Bool.and_false, Bool.or_false]; rfl⟩
  | append_singleton calls c ih =>
    obtain ⟨hupdated, hrecords, hpending⟩ := ih
    obtain ⟨hupdated', hrecords', hpending', -⟩ := call_spec (calls.foldl call e) c
    rw [foldl_concat]
    refine ⟨hupdated'.trans hupdated, hrecords'.trans hrecords, ?_⟩
    rw [hpending', hpending, hrecords, any_append, any_cons, any_nil,
      Bool.or_false, Bool.and_or_distrib_left, Bool.or_assoc]

theorem afterClear_concat (calls : List SessionCall) (c : SessionCall) :
    afterClear (calls ++ [c]) = if c = .clearDirty then [] else afterClear calls ++ [c] := by
  rw [afterClear, rtakeWhile_concat, afterClear]
  by_cases hclear : c = .clearDirty
  · rw [if_neg (by simpa using hclear), if_pos hclear]
  · rw [if_pos (by simpa using hclear), if_neg hclear]

theorem afterClear_of_notMem {calls : List SessionCall} (h : .clearDirty ∉ calls) :
    afterClear calls = calls := by
  rw [afterClear, rtakeWhile_eq_self_iff]
  intro c hc
  exact decide_eq_true (ne_of_mem_of_not_mem hc h)

theorem clearDirty_notMem_afterClear (calls : List SessionCall) :
    .clearDirty ∉ afterClear calls := fun h => by
  simpa using mem_rtakeWhile_imp h

/-- The dirty fields after a session: what has been reported since the last `clear_dirty`, and,
where there was none, what was there before. -/
theorem mem_dirtyFields_calls (hrecords : e.records = true) (calls : List SessionCall)
    (field : EntityField) : field ∈ (calls.foldl call e).dirtyFields ↔
      (∃ c ∈ afterClear calls, field ∈ c.fields) ∨
        (.clearDirty ∉ calls ∧ field ∈ e.dirtyFields) := by
  induction calls using List.reverseRecOn with
  | nil => simp [afterClear]
  | append_singleton calls c ih =>
    have hkept := (pending_calls e calls).2.1.trans hrecords
    have hmem := (call_spec (calls.foldl call e) c).2.2.2 hkept field
    rw [foldl_concat, hmem, ih, afterClear_concat]
    by_cases hclear : c = .clearDirty
    · simp [hclear]
    · have hout : .clearDirty ∈ calls ++ [c] ↔ .clearDirty ∈ calls := by
        simp [Ne.symm hclear]
      rw [if_neg hclear, hout]
      simp only [mem_append, mem_singleton, or_and_right, exists_or, exists_eq_left]
      rw [and_iff_right hclear]
      exact or_right_comm

/-! ### What is no update -/

/-- Nothing but the two access fields, and both of them. -/
theorem isUpdate_eq_false_iff (h : e.Paired) : e.isUpdate = false ↔
    accessedTimestamp ∈ e.dirtyFields ∧ ∀ field ∈ e.dirtyFields, field.isAccess := by
  rw [Entity.isUpdate, Bool.not_eq_eq_eq_not, Bool.not_false, Bool.and_eq_true,
    decide_eq_true_eq, decide_eq_true_eq, and_comm]
  refine and_congr_right fun haccessed => ?_
  have hsubset : ({.accessedTimestamp, .accessCount} : Finset EntityField) ⊆ e.dirtyFields := by
    intro field hfield
    rw [Finset.mem_insert, Finset.mem_singleton] at hfield
    rcases hfield with rfl | rfl
    · exact haccessed
    · exact h.mp haccessed
  constructor
  · intro hcard field hfield
    rw [← Finset.eq_of_subset_of_card_le hsubset hcard, Finset.mem_insert,
      Finset.mem_singleton] at hfield
    rcases hfield with rfl | rfl <;> rfl
  · intro hall
    have hwithin : e.dirtyFields ⊆ {.accessedTimestamp, .accessCount} := by
      intro field hfield
      have haccess := hall field hfield
      cases field <;> first | decide | cases haccess
    exact Finset.card_le_card hwithin

/-- What the last unlock of a session does to the time of the update. -/
theorem entityUpdatedTimestamp_unlock (e : AccessedEntity) (now : TimeStamp) :
    (e.unlock now).entityUpdatedTimestamp =
      if e.pending && e.isUpdate then now else e.entityUpdatedTimestamp := by
  unfold unlock Entity.notifyDbListener pending
  cases e.needCallListener && e.hasDbListeners with
  | false => rfl
  | true =>
    dsimp only [Entity.stampUpdate]
    cases e.isUpdate <;> rfl

/-- The rule asks that the listeners are called about an update exactly where another field
has changed. -/
theorem stampsRightly_iff_isUpdate (calls : List SessionCall) : e.StampsRightly calls ↔
    ((calls.foldl call e).pending && (calls.foldl call e).isUpdate) =
      calls.any SessionCall.isChange := by
  have hkept := (pending_calls e calls).1
  unfold StampsRightly session
  simp only [entityUpdatedTimestamp_unlock, hkept]
  constructor
  · intro h
    -- at another time than that of the last update
    have hnow := h (e.entityUpdatedTimestamp + 1)
    cases hleft : (calls.foldl call e).pending && (calls.foldl call e).isUpdate <;>
      cases hright : calls.any SessionCall.isChange <;> simp [hleft, hright] at hnow ⊢
  · intro h now
    rw [h]

/-! ### Kinds of sessions -/

theorem fields_of_isChange {c : SessionCall} (h : c.isChange = true) :
    ∃ field ∈ c.fields, field.isAccess = false := by
  cases c with
  | change field hfield => exact ⟨field, Finset.mem_singleton_self field, hfield⟩
  | setEntityAccessedTimestamp | clearDirty => cases h

theorem isAccess_of_fields {c : SessionCall} (h : c.isChange = false) {field : EntityField}
    (hfield : field ∈ c.fields) : c.isAccess = true ∧ field.isAccess = true := by
  cases c with
  | setEntityAccessedTimestamp now =>
    rcases Finset.mem_insert.mp hfield with rfl | hcount
    · exact ⟨rfl, rfl⟩
    · rw [Finset.mem_singleton.mp hcount]
      exact ⟨rfl, rfl⟩
  | change => cases h
  | clearDirty => exact absurd hfield (Finset.notMem_empty field)

theorem accessedTimestamp_mem_fields (c : SessionCall) :
    accessedTimestamp ∈ c.fields ↔ c.isAccess = true := by
  cases c with
  | setEntityAccessedTimestamp => simp [SessionCall.fields, SessionCall.isAccess]
  | change field hfield =>
    have hne : accessedTimestamp ≠ field := by
      rintro rfl
      cases hfield
    simp [SessionCall.fields, SessionCall.isAccess, hne]
  | clearDirty => simp [SessionCall.fields, SessionCall.isAccess]

/-- What a session leaves is no update if there is an access in it, from before or since the
last `clear_dirty`, and nothing else. -/
theorem isUpdate_calls (hrecords : e.records = true) {calls : List SessionCall}
    (hpaired : (calls.foldl call e).Paired) : (calls.foldl call e).isUpdate = false ↔
      ((afterClear calls).any SessionCall.isAccess = true ∨
        .clearDirty ∉ calls ∧ accessedTimestamp ∈ e.dirtyFields) ∧
      (afterClear calls).any SessionCall.isChange = false ∧
      (.clearDirty ∉ calls → ∀ field ∈ e.dirtyFields, field.isAccess) := by
  rw [isUpdate_eq_false_iff hpaired]
  simp only [mem_dirtyFields_calls hrecords, accessedTimestamp_mem_fields, any_eq_true,
    any_eq_false, Bool.not_eq_true]
  refine and_congr_right fun _ => ⟨fun h => ⟨fun c hc => ?_, fun hclear field hfield => ?_⟩, ?_⟩
  · by_contra hchange
    obtain ⟨field, hfield, hother⟩ := fields_of_isChange (Bool.not_eq_false _ ▸ hchange)
    rw [h field (Or.inl ⟨c, hc, hfield⟩)] at hother
    cases hother
  · exact h field (Or.inr ⟨hclear, hfield⟩)
  · rintro ⟨hnone, hbefore⟩ field (⟨c, hc, hfield⟩ | ⟨hclear, hfield⟩)
    · exact (isAccess_of_fields (hnone c hc) hfield).2
    · exact hbefore hclear field hfield

/-! ### Histories -/

theorem dirtyFields_call_of_not_records (h : e.records = false) (c : SessionCall) :
    (e.call c).dirtyFields = if c = .clearDirty then ∅ else e.dirtyFields := by
  rw [records] at h
  cases c with
  | setEntityAccessedTimestamp =>
    simp [AccessedEntity.call, setEntityAccessedTimestamp, Entity.notifyFieldChanged, h]
  | change => simp [AccessedEntity.call, change, Entity.notifyFieldChanged, h]
  | clearDirty => rfl

theorem Paired.call (h : e.Paired) (c : SessionCall) : (e.call c).Paired := by
  rw [Paired]
  cases hrecords : e.records with
  | false =>
    rw [dirtyFields_call_of_not_records hrecords]
    split
    · simp
    · exact h
  | true =>
    have hmem := (call_spec e c).2.2.2 hrecords
    rw [hmem, hmem]
    refine and_congr_right fun _ => or_congr h ?_
    cases c with
    | setEntityAccessedTimestamp => simp [SessionCall.fields]
    | change field hfield =>
      rw [SessionCall.fields, Finset.mem_singleton, Finset.mem_singleton]
      constructor <;>
        · rintro rfl
          cases hfield
    | clearDirty => simp [SessionCall.fields]

theorem Paired.calls (h : e.Paired) (calls : List SessionCall) :
    (calls.foldl AccessedEntity.call e).Paired := by
  induction calls generalizing e with
  | nil => exact h
  | cons c calls ih => exact ih (h.call c)

theorem Paired.unlock (h : e.Paired) (now : TimeStamp) : (e.unlock now).Paired := by
  unfold AccessedEntity.unlock Entity.notifyDbListener Entity.stampUpdate
  split
  · dsimp only
    split
    · simpa [Paired] using h
    · exact h
  · exact h

theorem pending_unlock (e : AccessedEntity) (now : TimeStamp) : (e.unlock now).pending = false := by
  unfold unlock Entity.notifyDbListener pending
  split
  · rfl
  · next hcalled => exact Bool.not_eq_true _ ▸ hcalled

/-- After the last unlock nobody is waiting to be called. -/
theorem Paired.coherent_unlock (h : e.Paired) (now : TimeStamp) : (e.unlock now).Coherent := by
  refine ⟨h.unlock now, fun hpending => ?_⟩
  rw [pending_unlock] at hpending
  cases hpending

/-- **What one session keeps.** -/
theorem Coherent.session (h : e.Coherent) (s : Session) : (e.session s).Coherent := by
  cases s with
  | exclusive calls now => exact (h.paired.calls calls).coherent_unlock now
  | shared field hfield =>
    obtain ⟨-, hrecords, hpending, -⟩ := call_spec e (.change field hfield)
    refine ⟨h.paired.call (.change field hfield), fun hcalled => ?_⟩
    have hor := hpending.symm.trans hcalled
    rw [Bool.or_eq_true, Bool.and_eq_true] at hor
    exact hrecords.trans (hor.elim h.records_of_pending And.left)

/-- **What a history keeps.** -/
theorem Coherent.history (h : e.Coherent) (history : List Session) :
    (history.foldl AccessedEntity.session e).Coherent := by
  induction history generalizing e with
  | nil => exact h
  | cons s history ih => exact ih (h.session s)

/-! ### The rule -/

theorem any_afterClear {p : SessionCall → Bool} {calls : List SessionCall}
    (h : calls.any p = false) : (afterClear calls).any p = false := by
  rw [any_eq_false] at h ⊢
  exact fun c hc => h c ((rtakeWhile_suffix _ _).subset hc)

/-- Since the last `clear_dirty` there are accesses and changes. -/
theorem exists_access_afterClear {calls : List SessionCall}
    (h : (afterClear calls).any SessionCall.isChange = false) :
    (afterClear calls).any SessionCall.isAccess = true ↔ afterClear calls ≠ [] := by
  constructor
  · intro hany hnil
    rw [hnil] at hany
    cases hany
  · intro hne
    obtain ⟨c, hc⟩ := exists_mem_of_ne_nil _ hne
    have hchange := any_eq_false.mp h c hc
    cases c with
    | setEntityAccessedTimestamp now => exact any_eq_true.mpr ⟨_, hc, rfl⟩
    | change => exact absurd rfl hchange
    | clearDirty => exact absurd hc (clearDirty_notMem_afterClear calls)

theorem any_ne_clearDirty {calls : List SessionCall} : calls.any (fun c => c != .clearDirty) =
    (calls.any SessionCall.isChange || calls.any SessionCall.isAccess) := by
  induction calls with
  | nil => rfl
  | cons c calls ih =>
    rw [any_cons, any_cons, any_cons, ih]
    cases c with
    | setEntityAccessedTimestamp => exact (Bool.or_true _).symm
    | change | clearDirty => rfl

/-- Where the changes of a session are not reported, nobody is called. -/
theorem Coherent.pending_eq_false (h : e.Coherent) (hrecords : e.records = false) :
    e.pending = false := by
  rw [Bool.eq_false_iff] at hrecords ⊢
  exact fun hpending => hrecords (h.records_of_pending hpending)

/-- A session that changes another field. -/
theorem Coherent.stampsRightly_of_change (h : e.Coherent) {calls : List SessionCall}
    (hchange : calls.any SessionCall.isChange = true) : e.StampsRightly calls ↔
      e.records = true ∧ (.clearDirty ∈ calls →
        afterClear calls = [] ∨ (afterClear calls).any SessionCall.isChange) := by
  rw [stampsRightly_iff_isUpdate, (pending_calls e calls).2.2, any_ne_clearDirty, hchange]
  cases hrecords : e.records with
  | false => simp [h.pending_eq_false hrecords]
  | true =>
    have hupdate := isUpdate_calls hrecords (h.paired.calls calls)
    simp only [Bool.true_or, Bool.and_true, Bool.or_true, Bool.true_and, true_and]
    rw [← Bool.not_eq_false, hupdate]
    by_cases hclear : .clearDirty ∈ calls
    · cases hafter : (afterClear calls).any SessionCall.isChange with
      | true => simp
      | false => simp [hclear, exists_access_afterClear hafter]
    · rw [afterClear_of_notMem hclear, hchange]
      simp [hclear]

/-- A session of accesses. -/
theorem Coherent.stampsRightly_of_access (h : e.Coherent) {calls : List SessionCall}
    (hchange : calls.any SessionCall.isChange = false)
    (haccess : calls.any SessionCall.isAccess = true) : e.StampsRightly calls ↔
      (e.records = true →
        if .clearDirty ∈ calls then (afterClear calls).any SessionCall.isAccess
        else ∀ field ∈ e.dirtyFields, field.isAccess) := by
  rw [stampsRightly_iff_isUpdate, (pending_calls e calls).2.2, any_ne_clearDirty, hchange, haccess]
  cases hrecords : e.records with
  | false => simp [h.pending_eq_false hrecords]
  | true =>
    have hupdate := isUpdate_calls hrecords (h.paired.calls calls)
    simp only [Bool.or_true, Bool.and_true, Bool.true_and, true_imp_iff]
    rw [hupdate, any_afterClear hchange]
    by_cases hclear : .clearDirty ∈ calls
    · simp [hclear]
    · rw [afterClear_of_notMem hclear, haccess]
      simp [hclear]

/-- A session in which nothing is set. -/
theorem Coherent.stampsRightly_of_none (h : e.Coherent) {calls : List SessionCall}
    (hchange : calls.any SessionCall.isChange = false)
    (haccess : calls.any SessionCall.isAccess = false) : e.StampsRightly calls ↔
      (e.pending = true → .clearDirty ∉ calls ∧ accessedTimestamp ∈ e.dirtyFields ∧
        ∀ field ∈ e.dirtyFields, field.isAccess) := by
  rw [stampsRightly_iff_isUpdate, (pending_calls e calls).2.2, any_ne_clearDirty, hchange, haccess]
  cases hpending : e.pending with
  | false => simp
  | true =>
    have hupdate := isUpdate_calls (h.records_of_pending hpending) (h.paired.calls calls)
    simp only [Bool.or_false, Bool.true_or, Bool.true_and, true_imp_iff]
    rw [hupdate, any_afterClear hchange, any_afterClear haccess]
    by_cases hclear : .clearDirty ∈ calls
    · simp [hclear]
    · simp [hclear]

/-- **The rule holds of a session exactly if its changes count**, whatever sessions, commits and
shared locks there have been before. -/
theorem stampsRightly_iff (h : e.Coherent) (history : List Session) (calls : List SessionCall) :
    (history.foldl session e).StampsRightly calls ↔ (history.foldl session e).Counts calls := by
  have hkept := h.history history
  rw [Counts]
  split
  · next hchange => exact hkept.stampsRightly_of_change hchange
  · next hchange =>
    rw [Bool.not_eq_true] at hchange
    split
    · next haccess => exact hkept.stampsRightly_of_access hchange haccess
    · next haccess =>
      rw [Bool.not_eq_true] at haccess
      exact hkept.stampsRightly_of_none hchange haccess

/-- An Entity as it is made. -/
def new (hasDbListeners : Bool) (now : TimeStamp) : AccessedEntity where
  toEntity := .new hasDbListeners now
  entityAccessedTimestamp := now
  entityAccessCount := 1

theorem coherent_new (hasDbListeners : Bool) (now : TimeStamp) :
    (new hasDbListeners now).Coherent := by
  have hpaired : ∀ (e : Entity) (fields : List EntityField), e.dirtyFields = ∅ →
      (accessedTimestamp ∈ fields ↔ .accessCount ∈ fields) →
      Paired ⟨fields.foldl Entity.notifyFieldChanged e, now, 1⟩ := by
    intro e fields hempty hboth
    simp [Paired, Entity.mem_dirtyFields_foldl_notifyFieldChanged, hempty, hboth]
  -- the constructor reports both access fields, or none where nobody listens
  exact (hpaired _ _ rfl (by decide)).coherent_unlock now

/-- An access after a commit. -/
theorem stampsRightly_iff_committed :
    (([.exclusive [.clearDirty] 2].foldl session (new true 1)).StampsRightly
      [.setEntityAccessedTimestamp 3] ↔
    ([.exclusive [.clearDirty] 2].foldl session (new true 1)).Counts
      [.setEntityAccessedTimestamp 3]) ∧
    ([.exclusive [.clearDirty] 2].foldl session (new true 1)).Counts
      [.setEntityAccessedTimestamp 3] :=
  ⟨stampsRightly_iff (coherent_new true 1) _ _, by unfold Counts; decide +kernel⟩

/-- **An access moves the time of the update**, as long as the change of the name is not
committed. -/
theorem access_not_stampsRightly :
    ¬ ([.exclusive [.clearDirty] 2, .exclusive [.change .name rfl] 3].foldl session
      (new true 1)).StampsRightly [.setEntityAccessedTimestamp 4] := by
  intro h
  have hstamp := h 5
  revert hstamp
  decide +kernel

end AccessedEntity

end Mutgos.DbTypes
