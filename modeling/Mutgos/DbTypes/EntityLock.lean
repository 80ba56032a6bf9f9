import Mathlib.Logic.Function.Basic
import Mutgos.Lib.TransitionSystem

/-!
# The lock of an entity

An entity is locked recursively: the thread that has `entity_lock` exclusively may
lock it again, for reading or for writing, and only counts these inner locks.  Who
that thread is, is recorded in fields of the entity under a mutex of their own,
`exclusive_thread_lock`, in a section that follows the acquisition of `entity_lock`
in `lock`, and in one that follows its release in `unlock`.

A label is one section under `exclusive_thread_lock`, or one operation on
`entity_lock`.  A thread is between two such sections, or outside of all four
functions (`LockPhase.idle`), and the tokens it has are kept as a stack.

## Main results

* `ownerRecorded_iff` — **a run keeps both promises in all its states exactly when
  each of its steps meets the guard.**

## Implementation notes

A label is enabled where the caller nests its tokens: `lock` when the thread has no
token, or has the lock exclusively already, and each of the unlocking functions when
the last token is of its kind.  `inner_lock_count` is a natural number, as the stack
of tokens is not bounded by the width of a counter.
-/

namespace Mutgos.DbTypes

open Function List Option

/-- A `ReaderLockToken` or a `WriterLockToken`. -/
inductive LockToken
  | reader
  | writer
  deriving DecidableEq

/-- Between which two sections a thread is. -/
inductive LockPhase
  /-- Outside of the functions of the lock. -/
  | idle
  /-- The first section has not found this thread recorded, and `entity_lock` is
  next: `try_lock` and `try_lock_shared` do not wait for it. -/
  | acquiring (token : LockToken) (isTry : Bool)
  /-- `entity_lock` is acquired and the thread is not recorded yet. -/
  | recording
  /-- `unlock` has found the primary lock, and the listener is next. -/
  | notifying
  /-- `entity_lock` is released and the record is not cleared yet. -/
  | clearing
  /-- `unlock_shared` has not found this thread recorded. -/
  | releasingShared
  deriving DecidableEq

/-- The lock of an entity, as threads of type `τ` use it. -/
structure EntityLock (τ : Type*) where
  /-- Who has `entity_lock` exclusively. -/
  exclusive : Option τ
  /-- Who has `entity_lock` shared, as often as it has. -/
  shared : List τ
  lockedThreadIdValid : Bool
  lockedThreadId : τ
  innerLockCount : ℕ
  phase : τ → LockPhase
  /-- The tokens of each thread, the newest first. -/
  tokens : τ → List LockToken

/-- One section of one of the functions, by one thread. -/
inductive LockStep (τ : Type*)
  /-- The first section of `lock`, or of `try_lock`. -/
  | lock (t : τ) (isTry : Bool)
  /-- The first section of `lock_shared`, or of `try_lock_shared`. -/
  | lockShared (t : τ) (isTry : Bool)
  /-- `entity_lock.lock()` or `entity_lock.lock_shared()`, or one that is tried. -/
  | acquire (t : τ)
  /-- `entity_lock.try_lock()` or `entity_lock.try_lock_shared()` fails, as it also
  may while another thread waits for `entity_lock`. -/
  | giveUp (t : τ)
  /-- The second section of `lock`. -/
  | record (t : τ)
  /-- The first section of `unlock`. -/
  | unlock (t : τ)
  /-- The first section of `unlock_shared`. -/
  | unlockShared (t : τ)
  /-- `notify_db_listener()` and `entity_lock.unlock()`. -/
  | release (t : τ)
  /-- The second section of `unlock`. -/
  | clear (t : τ)
  /-- `entity_lock.unlock_shared()`. -/
  | releaseShared (t : τ)

namespace EntityLock

variable {τ : Type*} [DecidableEq τ]

/-- The lock of a new entity.  The constructor leaves `locked_thread_id` as it is. -/
def new (lockedThreadId : τ) : EntityLock τ where
  exclusive := none
  shared := []
  lockedThreadIdValid := false
  lockedThreadId := lockedThreadId
  innerLockCount := 0
  phase _ := .idle
  tokens _ := []

def setPhase (s : EntityLock τ) (t : τ) (phase : LockPhase) : EntityLock τ :=
  { s with phase := update s.phase t phase }

def setTokens (s : EntityLock τ) (t : τ) (tokens : List LockToken) : EntityLock τ :=
  { s with tokens := update s.tokens t tokens }

/-- `already_have_lock`, as each first section finds it. -/
def alreadyHaveLock (s : EntityLock τ) (t : τ) : Bool :=
  s.lockedThreadIdValid && s.lockedThreadId = t

/-- The first section of the functions that lock. -/
def enter (s : EntityLock τ) (t : τ) (token : LockToken) (isTry : Bool) : EntityLock τ :=
  if s.alreadyHaveLock t then
    { s with innerLockCount := s.innerLockCount + 1 }.setTokens t (token :: s.tokens t)
  else s.setPhase t (.acquiring token isTry)

/-- Whether `entity_lock` can be acquired. -/
def available (s : EntityLock τ) : LockToken → Bool
  | .writer => s.exclusive.isNone && s.shared.isEmpty
  | .reader => s.exclusive.isNone

/-- `entity_lock` is acquired: only `lock` and `try_lock` go on to a second section. -/
def acquire (s : EntityLock τ) (t : τ) : LockToken → EntityLock τ
  | .writer => ({ s with exclusive := some t }.setTokens t (.writer :: s.tokens t)).setPhase t .recording
  | .reader => ({ s with shared := t :: s.shared }.setTokens t (.reader :: s.tokens t)).setPhase t .idle

/-- The first section of `unlock`.  A thread that is not recorded is not told apart
from one that has the lock further out: the call ends. -/
def unlock (s : EntityLock τ) (t : τ) : EntityLock τ :=
  if s.alreadyHaveLock t then
    if s.innerLockCount = 0 then s.setPhase t .notifying
    else { s with innerLockCount := s.innerLockCount - 1 }.setTokens t (s.tokens t).tail
  else s.setTokens t (s.tokens t).tail

/-- The first section of `unlock_shared`. -/
def unlockShared (s : EntityLock τ) (t : τ) : EntityLock τ :=
  if s.alreadyHaveLock t then
    -- The code logs that a lock is undone too often where the counter is zero.
    { s with innerLockCount := s.innerLockCount - 1 }.setTokens t (s.tokens t).tail
  else s.setPhase t .releasingShared

/-- One section, where its thread has come to it. -/
def step (s : EntityLock τ) : LockStep τ → Option (EntityLock τ)
  | .lock t isTry =>
    -- A thread that has the lock shared only does not ask for it exclusively.
    if s.phase t = .idle ∧ (s.tokens t = [] ∨ .writer ∈ s.tokens t) then
      some (s.enter t .writer isTry)
    else none
  | .lockShared t isTry =>
    if s.phase t = .idle then some (s.enter t .reader isTry) else none
  | .acquire t =>
    match s.phase t with
    | .acquiring token _ => if s.available token then some (s.acquire t token) else none
    | _ => none
  | .giveUp t =>
    match s.phase t with
    | .acquiring _ true => some (s.setPhase t .idle)
    | _ => none
  | .record t =>
    if s.phase t = .recording then
      some ({ s with lockedThreadIdValid := true, lockedThreadId := t }.setPhase t .idle)
    else none
  | .unlock t =>
    if s.phase t = .idle ∧ (s.tokens t).head? = some .writer then some (s.unlock t) else none
  | .unlockShared t =>
    if s.phase t = .idle ∧ (s.tokens t).head? = some .reader then some (s.unlockShared t)
    else none
  | .release t =>
    if s.phase t = .notifying then
      some ({ s with exclusive := none }.setTokens t (s.tokens t).tail |>.setPhase t .clearing)
    else none
  | .clear t =>
    if s.phase t = .clearing then
      some ({ s with lockedThreadIdValid := false }.setPhase t .idle)
    else none
  | .releaseShared t =>
    if s.phase t = .releasingShared then
      some ({ s with shared := s.shared.erase t }.setTokens t (s.tokens t).tail |>.setPhase t .idle)
    else none

/-- Whoever has `entity_lock` exclusively and is in none of the functions is
recorded, with the number of its inner tokens. -/
def OwnerRecorded (s : EntityLock τ) : Prop :=
  ∀ t, s.exclusive = some t → s.phase t = .idle →
    s.lockedThreadIdValid = true ∧ s.lockedThreadId = t ∧
      s.innerLockCount + 1 = (s.tokens t).length

/-- `entity_lock` is free when no thread has a token. -/
def FreeWhenUnheld (s : EntityLock τ) : Prop :=
  (∀ t, s.tokens t = []) → s.exclusive = none ∧ s.shared = []

/-- **The guard.**  `unlock` does not come to clear the record while another thread
has `entity_lock` exclusively and has left `lock`. -/
def clearsNoOwner (s : EntityLock τ) : LockStep τ → Prop
  | .clear _ => ∀ t, s.exclusive = some t → s.phase t ≠ .idle
  | _ => True

/-! ### The invariant -/

/-- What holds of the lock when no owner's record is cleared. -/
structure Consistent (s : EntityLock τ) : Prop where
  writer : ∀ t, .writer ∈ s.tokens t → s.exclusive = some t
  primary : ∀ t, s.exclusive = some t → (s.tokens t).getLast? = some .writer
  alone : ∀ t, s.exclusive = some t → s.shared = []
  readers : ∀ t, s.exclusive ≠ some t → s.shared.count t = (s.tokens t).length
  unheld : s.exclusive = none → s.innerLockCount = 0
  owner : OwnerRecorded s
  asking : ∀ t isTry, s.phase t = .acquiring .writer isTry → s.tokens t = []
  askingShared : ∀ t isTry, s.phase t = .acquiring .reader isTry → s.exclusive ≠ some t
  inside : ∀ t, s.phase t = .recording ∨ s.phase t = .notifying →
    s.exclusive = some t ∧ s.tokens t = [.writer] ∧ s.innerLockCount = 0
  clearing : ∀ t, s.phase t = .clearing → s.tokens t = []
  releasing : ∀ t, s.phase t = .releasingShared → s.exclusive ≠ some t ∧ s.tokens t ≠ []
  /-- The record names the owner, or a thread that has yet to clear it. -/
  recorded : s.lockedThreadIdValid = true →
    s.exclusive = some s.lockedThreadId ∧ s.phase s.lockedThreadId ≠ .recording ∨
      s.phase s.lockedThreadId = .clearing

theorem consistent_new (id : τ) : Consistent (new id) := by
  constructor <;> simp [new, OwnerRecorded]

variable {s s' : EntityLock τ} {t : τ}

section

variable (h : Consistent s)
include h

theorem Consistent.tokens_ne_nil (ht : s.exclusive = some t) : s.tokens t ≠ [] := by
  intro hnil
  have hlast := h.primary t ht
  rw [hnil] at hlast
  cases hlast

/-- A thread outside of the functions is found by `alreadyHaveLock` where it is the
owner, and only there. -/
theorem Consistent.alreadyHaveLock_iff (hidle : s.phase t = .idle) :
    s.alreadyHaveLock t = true ↔ s.exclusive = some t := by
  simp only [alreadyHaveLock, Bool.and_eq_true, decide_eq_true_eq]
  constructor
  · intro ⟨hvalid, hid⟩
    subst hid
    obtain ⟨howner, -⟩ | hclearing := h.recorded hvalid
    · exact howner
    · rw [hidle] at hclearing
      cases hclearing
  · intro howner
    obtain ⟨hvalid, hid, -⟩ := h.owner t howner hidle
    exact ⟨hvalid, hid⟩

theorem Consistent.freeWhenUnheld : FreeWhenUnheld s := by
  intro hnil
  have hex : s.exclusive = none := by
    cases hex : s.exclusive with
    | none => rfl
    | some t => exact absurd (hnil t) (h.tokens_ne_nil hex)
  refine ⟨hex, eq_nil_iff_forall_not_mem.mpr ?_⟩
  intro t ht
  have hcount := h.readers t (by simp [hex])
  rw [hnil t, length_nil, count_eq_zero] at hcount
  exact hcount ht

/-- The owner locks or unlocks within the primary lock: the stack keeps its last
token, and the counter follows its length. -/
theorem Consistent.inner (hidle : s.phase t = .idle) (ht : s.exclusive = some t) {n : ℕ}
    {tokens : List LockToken} (hlast : tokens.getLast? = some .writer)
    (hn : n + 1 = tokens.length) :
    Consistent ({ s with innerLockCount := n }.setTokens t tokens) := by
  have hother : ∀ u, u ≠ t → s.exclusive ≠ some u := by
    intro u hu hex
    exact hu (Option.some.inj (hex.symm.trans ht))
  constructor <;> simp only [setTokens]
  · grind [h.writer]
  · grind [h.primary]
  · exact h.alone
  · grind [h.readers]
  · grind
  · grind [OwnerRecorded, h.owner]
  · grind [h.asking]
  · grind [h.askingShared]
  · grind [h.inside]
  · grind [h.clearing]
  · grind [h.releasing]
  · exact h.recorded

/-- A thread that is not recorded and has no part in the record moves on, where its
new phase asks for no more than it has. -/
theorem Consistent.setPhase {phase : LockPhase}
    (hrecord : s.lockedThreadIdValid = true → s.lockedThreadId ≠ t) (hne : s.exclusive ≠ some t)
    (hasking : ∀ isTry, phase = .acquiring .writer isTry → s.tokens t = [])
    (hphase : phase ≠ .recording ∧ phase ≠ .notifying ∧ phase ≠ .clearing)
    (hreleasing : phase = .releasingShared → s.tokens t ≠ []) :
    Consistent (s.setPhase t phase) := by
  constructor <;> simp only [EntityLock.setPhase]
  · exact h.writer
  · exact h.primary
  · exact h.alone
  · exact h.readers
  · exact h.unheld
  · grind [OwnerRecorded, h.owner]
  · grind [h.asking]
  · grind [h.askingShared]
  · grind [h.inside]
  · grind [h.clearing]
  · grind [h.releasing]
  · grind [h.recorded]

/-- Nobody is recorded who is not the owner and has nothing to clear. -/
theorem Consistent.lockedThreadId_ne (hne : s.exclusive ≠ some t) (hphase : s.phase t ≠ .clearing)
    (hvalid : s.lockedThreadIdValid = true) : s.lockedThreadId ≠ t := by
  intro hid
  subst hid
  obtain ⟨howner, -⟩ | hclearing := h.recorded hvalid
  · exact hne howner
  · exact hphase hclearing

theorem Consistent.getLast?_cons (ht : s.exclusive = some t) (token : LockToken) :
    (token :: s.tokens t).getLast? = some .writer := by
  rw [List.getLast?_cons, h.primary t ht, Option.getD_some]

variable {token : LockToken} {isTry : Bool}

theorem Consistent.enter (hidle : s.phase t = .idle)
    (hnest : token = .writer → s.tokens t = [] ∨ .writer ∈ s.tokens t) :
    Consistent (s.enter t token isTry) := by
  unfold EntityLock.enter
  split
  · rename_i hmine
    have ht := (h.alreadyHaveLock_iff hidle).mp hmine
    refine h.inner hidle ht (h.getLast?_cons ht token) ?_
    rw [length_cons, (h.owner t ht hidle).2.2]
  · rename_i hmine
    have hne : s.exclusive ≠ some t := mt (h.alreadyHaveLock_iff hidle).mpr hmine
    refine h.setPhase (h.lockedThreadId_ne hne (by simp [hidle])) hne ?_ (by simp) (by simp)
    intro _ hphase
    injection hphase with htoken
    obtain hnil | hmem := hnest htoken
    · exact hnil
    · exact absurd (h.writer t hmem) hne

theorem Consistent.giveUp (hphase : s.phase t = .acquiring token isTry) :
    Consistent (s.setPhase t .idle) := by
  have hne : s.exclusive ≠ some t := by
    cases token with
    | reader => exact h.askingShared t isTry hphase
    | writer =>
      intro ht
      exact h.tokens_ne_nil ht (h.asking t isTry hphase)
  exact h.setPhase (h.lockedThreadId_ne hne (by simp [hphase])) hne (by simp) (by simp) (by simp)

theorem Consistent.acquire_writer (hphase : s.phase t = .acquiring .writer isTry)
    (hfree : s.available .writer = true) : Consistent (s.acquire t .writer) := by
  obtain ⟨hex, hshared⟩ : s.exclusive = none ∧ s.shared = [] := by
    simpa [available] using hfree
  have hnil : ∀ u, s.tokens u = [] := by
    intro u
    have hcount := h.readers u (by simp [hex])
    rw [hshared, count_nil] at hcount
    exact eq_nil_of_length_eq_zero hcount.symm
  have hunheld := h.unheld hex
  constructor <;> simp only [EntityLock.acquire, EntityLock.setPhase, setTokens]
  · grind
  · grind
  · grind
  · grind
  · grind
  · grind [OwnerRecorded]
  · grind [h.asking]
  · grind [h.askingShared]
  · grind [h.inside]
  · grind [h.clearing]
  · grind [h.releasing]
  · grind [h.recorded]

theorem Consistent.acquire_reader (hphase : s.phase t = .acquiring .reader isTry)
    (hfree : s.available .reader = true) : Consistent (s.acquire t .reader) := by
  have hex : s.exclusive = none := by simpa [available] using hfree
  constructor <;> simp only [EntityLock.acquire, EntityLock.setPhase, setTokens]
  · grind [h.writer]
  · grind
  · grind
  · grind [h.readers]
  · exact h.unheld
  · grind [OwnerRecorded]
  · grind [h.asking]
  · grind [h.askingShared]
  · grind [h.inside]
  · grind [h.clearing]
  · grind [h.releasing]
  · grind [h.recorded]

theorem Consistent.record (hphase : s.phase t = .recording) :
    Consistent ({ s with lockedThreadIdValid := true, lockedThreadId := t }.setPhase t .idle) := by
  obtain ⟨hex, htokens, hinner⟩ := h.inside t (.inl hphase)
  constructor <;> simp only [EntityLock.setPhase]
  · exact h.writer
  · exact h.primary
  · exact h.alone
  · exact h.readers
  · exact h.unheld
  · grind [OwnerRecorded]
  · grind [h.asking]
  · grind [h.askingShared]
  · grind [h.inside]
  · grind [h.clearing]
  · grind [h.releasing]
  · grind

theorem Consistent.unlock (hidle : s.phase t = .idle) (htop : (s.tokens t).head? = some .writer) :
    Consistent (s.unlock t) := by
  obtain ⟨rest, hrest⟩ : ∃ rest, s.tokens t = .writer :: rest := head?_eq_some_iff.mp htop
  have hex : s.exclusive = some t := h.writer t (by rw [hrest]; exact mem_cons_self)
  have hmine : s.alreadyHaveLock t = true := (h.alreadyHaveLock_iff hidle).mpr hex
  have hlen := (h.owner t hex hidle).2.2
  rw [hrest, length_cons] at hlen
  simp only [EntityLock.unlock, hmine, if_true, hrest, tail_cons]
  split
  · rename_i hzero
    have hnil : rest = [] := eq_nil_of_length_eq_zero (by omega)
    subst hnil
    constructor <;> simp only [EntityLock.setPhase]
    · exact h.writer
    · exact h.primary
    · exact h.alone
    · exact h.readers
    · exact h.unheld
    · grind [OwnerRecorded]
    · grind [h.asking]
    · grind [h.askingShared]
    · grind [h.inside]
    · grind [h.clearing]
    · grind [h.releasing]
    · grind [h.recorded]
  · rename_i hzero
    have hlast := h.primary t hex
    have hne : rest ≠ [] := by
      intro hnil
      rw [hnil, length_nil] at hlen
      omega
    rw [hrest, getLast?_cons_of_ne_nil hne] at hlast
    exact h.inner hidle hex hlast (by omega)

theorem Consistent.unlockShared (hidle : s.phase t = .idle)
    (htop : (s.tokens t).head? = some .reader) : Consistent (s.unlockShared t) := by
  obtain ⟨rest, hrest⟩ : ∃ rest, s.tokens t = .reader :: rest := head?_eq_some_iff.mp htop
  unfold EntityLock.unlockShared
  split
  · rename_i hmine
    have hex := (h.alreadyHaveLock_iff hidle).mp hmine
    have hlen := (h.owner t hex hidle).2.2
    have hlast := h.primary t hex
    rw [hrest, length_cons] at hlen
    have hne : rest ≠ [] := by
      intro hnil
      rw [hrest, hnil] at hlast
      cases hlast
    have hpos := length_pos_of_ne_nil hne
    rw [hrest, getLast?_cons_of_ne_nil hne] at hlast
    rw [hrest, tail_cons]
    exact h.inner hidle hex hlast (by omega)
  · rename_i hmine
    have hne : s.exclusive ≠ some t := mt (h.alreadyHaveLock_iff hidle).mpr hmine
    exact h.setPhase (h.lockedThreadId_ne hne (by simp [hidle])) hne (by simp) (by simp)
      (by simp [hrest])

theorem Consistent.release (hphase : s.phase t = .notifying) :
    Consistent ({ s with exclusive := none }.setTokens t (s.tokens t).tail
      |>.setPhase t .clearing) := by
  obtain ⟨hex, htokens, hinner⟩ := h.inside t (.inr hphase)
  have hshared := h.alone t hex
  have hother : ∀ u, u ≠ t → s.exclusive ≠ some u := by
    intro u hu hex'
    exact hu (Option.some.inj (hex'.symm.trans hex))
  constructor <;> simp only [EntityLock.setPhase, setTokens]
  · intro u hu
    by_cases hut : u = t
    · subst hut
      rw [update_self, htokens] at hu
      cases hu
    · rw [update_of_ne hut] at hu
      exact absurd (h.writer u hu) (hother u hut)
  · grind
  · grind
  · grind [h.readers]
  · grind
  · grind [OwnerRecorded]
  · grind [h.asking]
  · grind [h.askingShared]
  · intro u hu
    by_cases hut : u = t
    · subst hut
      simp only [update_self] at hu
      obtain hu | hu := hu <;> cases hu
    · simp only [update_of_ne hut] at hu
      exact absurd (h.inside u hu).1 (hother u hut)
  · grind [h.clearing]
  · intro u hu
    by_cases hut : u = t
    · subst hut
      rw [update_self] at hu
      cases hu
    · rw [update_of_ne hut] at hu ⊢
      exact ⟨by simp, (h.releasing u hu).2⟩
  · grind [h.recorded]

theorem Consistent.clear (hphase : s.phase t = .clearing)
    (hguard : ∀ u, s.exclusive = some u → s.phase u ≠ .idle) :
    Consistent ({ s with lockedThreadIdValid := false }.setPhase t .idle) := by
  have hnil := h.clearing t hphase
  have hne : s.exclusive ≠ some t := by
    intro hex
    exact h.tokens_ne_nil hex hnil
  constructor <;> simp only [EntityLock.setPhase]
  · exact h.writer
  · exact h.primary
  · exact h.alone
  · exact h.readers
  · exact h.unheld
  · grind [OwnerRecorded]
  · grind [h.asking]
  · grind [h.askingShared]
  · grind [h.inside]
  · grind [h.clearing]
  · grind [h.releasing]
  · grind

theorem Consistent.releaseShared (hphase : s.phase t = .releasingShared) :
    Consistent ({ s with shared := s.shared.erase t }.setTokens t (s.tokens t).tail
      |>.setPhase t .idle) := by
  obtain ⟨hne, hnil⟩ := h.releasing t hphase
  have hid := h.lockedThreadId_ne hne (by simp [hphase])
  constructor <;> simp only [EntityLock.setPhase, setTokens]
  · intro u hu
    by_cases hut : u = t
    · subst hut
      rw [update_self] at hu
      exact h.writer u (mem_of_mem_tail hu)
    · rw [update_of_ne hut] at hu
      exact h.writer u hu
  · grind [h.primary]
  · grind [h.alone]
  · grind [h.readers]
  · exact h.unheld
  · grind [OwnerRecorded, h.owner]
  · grind [h.asking]
  · grind [h.askingShared]
  · grind [h.inside]
  · grind [h.clearing]
  · grind [h.releasing]
  · grind [h.recorded]

theorem Consistent.step {a : LockStep τ} (hguard : s.clearsNoOwner a) (hstep : s.step a = some s') :
    Consistent s' := by
  cases a with
  | lock u isTry =>
    simp only [EntityLock.step, ite_none_right_eq_some, Option.some.injEq] at hstep
    obtain ⟨⟨hidle, hnest⟩, rfl⟩ := hstep
    exact h.enter hidle (fun _ => hnest)
  | lockShared u isTry =>
    simp only [EntityLock.step, ite_none_right_eq_some, Option.some.injEq] at hstep
    obtain ⟨hidle, rfl⟩ := hstep
    exact h.enter hidle (by simp)
  | acquire u =>
    simp only [EntityLock.step] at hstep
    split at hstep
    case h_1 token isTry hphase =>
      simp only [ite_none_right_eq_some, Option.some.injEq] at hstep
      obtain ⟨hfree, rfl⟩ := hstep
      cases token with
      | reader => exact h.acquire_reader hphase hfree
      | writer => exact h.acquire_writer hphase hfree
    case h_2 => cases hstep
  | giveUp u =>
    simp only [EntityLock.step] at hstep
    split at hstep
    case h_1 token hphase =>
      cases hstep
      exact h.giveUp hphase
    case h_2 => cases hstep
  | record u =>
    simp only [EntityLock.step, ite_none_right_eq_some, Option.some.injEq] at hstep
    obtain ⟨hphase, rfl⟩ := hstep
    exact h.record hphase
  | unlock u =>
    simp only [EntityLock.step, ite_none_right_eq_some, Option.some.injEq] at hstep
    obtain ⟨⟨hidle, htop⟩, rfl⟩ := hstep
    exact h.unlock hidle htop
  | unlockShared u =>
    simp only [EntityLock.step, ite_none_right_eq_some, Option.some.injEq] at hstep
    obtain ⟨⟨hidle, htop⟩, rfl⟩ := hstep
    exact h.unlockShared hidle htop
  | release u =>
    simp only [EntityLock.step, ite_none_right_eq_some, Option.some.injEq] at hstep
    obtain ⟨hphase, rfl⟩ := hstep
    exact h.release hphase
  | clear u =>
    simp only [EntityLock.step, ite_none_right_eq_some, Option.some.injEq] at hstep
    obtain ⟨hphase, rfl⟩ := hstep
    exact h.clear hphase hguard
  | releaseShared u =>
    simp only [EntityLock.step, ite_none_right_eq_some, Option.some.injEq] at hstep
    obtain ⟨hphase, rfl⟩ := hstep
    exact h.releaseShared hphase

end

/-- A step beside the guard leaves an owner without a record. -/
theorem clearsNoOwner_of_ownerRecorded {a : LockStep τ} (hstep : s.step a = some s')
    (howner : OwnerRecorded s') : s.clearsNoOwner a := by
  cases a with
  | clear u =>
    intro t hex hidle
    simp only [EntityLock.step, ite_none_right_eq_some, Option.some.injEq] at hstep
    obtain ⟨hphase, rfl⟩ := hstep
    obtain ⟨hvalid, -⟩ := howner t hex (by
      have hne : t ≠ u := by
        intro htu
        rw [htu, hphase] at hidle
        cases hidle
      simp only [EntityLock.setPhase, update_of_ne hne, hidle])
    cases hvalid
  | _ => trivial

/-! ### Main results -/

/-- **A run keeps the owner recorded, and `entity_lock` free when no thread has a
token, exactly when `unlock` never clears the record while another thread has
`entity_lock` and has recorded itself.** -/
theorem ownerRecorded_iff {id : τ} {as : List (LockStep τ)} {s : EntityLock τ}
    (hrun : run step (new id) as = some s) :
    (∀ bs cs u, as = bs ++ cs → run step (new id) bs = some u →
      OwnerRecorded u ∧ FreeWhenUnheld u) ↔ Steps step clearsNoOwner (new id) as s := by
  constructor
  · refine steps_of_forall_prefix ?_ hrun
    intro s a s' hstep hI
    exact clearsNoOwner_of_ownerRecorded hstep hI.1
  · intro hsteps bs cs u has hbs
    subst has
    obtain ⟨u', hu', -⟩ := hsteps.split
    rw [hu'.run_eq, Option.some.injEq] at hbs
    subst hbs
    have hu : Consistent u' :=
      hu'.invariant (consistent_new id) fun _ _ _ h hok hstep => h.step hok hstep
    exact ⟨hu.owner, hu.freeWhenUnheld⟩

/-- One thread locks for writing and within that for reading, and undoes both. -/
theorem ownerRecorded_nested :
    let as : List (LockStep Bool) := [.lock true false, .acquire true, .record true,
      .lockShared true false, .unlockShared true, .unlock true, .release true, .clear true]
    ∃ s, run step (new true) as = some s ∧
      ((∀ bs cs u, as = bs ++ cs → run step (new true) bs = some u →
        OwnerRecorded u ∧ FreeWhenUnheld u) ↔ Steps step clearsNoOwner (new true) as s) :=
  ⟨_, rfl, ownerRecorded_iff rfl⟩

/-- `true` releases `entity_lock`, `false` acquires it and records itself, and then
`true` clears the record.  When `false` has undone its only token, `entity_lock` is
left locked. -/
theorem ownerRecorded_broken :
    let as : List (LockStep Bool) := [.lock true false, .acquire true, .record true,
      .unlock true, .release true, .lock false false, .acquire false, .record false, .clear true]
    (∃ s, run step (new true) as = some s ∧ ¬ OwnerRecorded s) ∧
      ∃ s, run step (new true) (as ++ [.unlock false]) = some s ∧ ¬ FreeWhenUnheld s := by
  refine ⟨⟨_, rfl, ?_⟩, ⟨_, rfl, ?_⟩⟩
  · intro howner
    have hvalid := (howner false rfl rfl).1
    cases hvalid
  · intro hfree
    have hex := (hfree (by decide)).1
    cases hex

end EntityLock

end Mutgos.DbTypes
