import Mutgos.DbInterface.LockOrder
import Mutgos.Lib.TransitionSystem
import Mutgos.Lib.WaitsFor

/-!
# Deadlocks of the database layer

The database layer has two lock orders.  A cache miss, the making of a Player and a commit
lock the stores first (`DatabaseAccess`, `SiteCache`, `SqliteBackend`, in that order), and
then an Entity or the update manager.  The check of a name locks the Entity and the update
manager first, and then asks the stores.  Each order is respected by itself, so that no
thread waits for itself, not even by way of others, as long as at no time somebody is in the
middle of the one and somebody in the middle of the other.

`delete_site` is in no order: it asks for the mutex it holds.

## Main results

* `no_deadlock` — **no thread waits for itself, in every run that avoids these.**
-/

namespace Mutgos.DbInterface

open DbTypes Lock List

namespace Lock

/-- The stores come first. -/
def storeRank : Lock → ℕ
  | databaseAccess => 0
  | siteCache _ => 1
  | sqliteBackend => 2
  | entity _ => 3
  | updateManager => 4

/-- The stores come last. -/
def managerRank : Lock → ℕ
  | entity _ => 0
  | updateManager => 1
  | databaseAccess => 2
  | siteCache _ => 3
  | sqliteBackend => 4

/-- A lock may be taken under another, in one order or the other. -/
def Allows (l l' : Lock) : Prop :=
  l.storeRank < l'.storeRank ∨ l.managerRank < l'.managerRank ∨ l = l' ∧ l.entity?.isSome

/-- Where the stores do not come first, one is locked under what is none. -/
theorem Allows.storeRank_lt {l l' : Lock} (h : l.Allows l') (hne : l ≠ l')
    (hup : l.isStore = true ∨ l'.isStore = false) : l.storeRank < l'.storeRank := by
  rcases h with h | h | ⟨h, -⟩
  · exact h
  · cases l <;> cases l' <;> simp_all [storeRank, managerRank, isStore]
  · exact absurd h hne

/-- Where the stores do not come last, something else is locked under one. -/
theorem Allows.managerRank_lt {l l' : Lock} (h : l.Allows l') (hne : l ≠ l')
    (hdown : l.isStore = false ∨ l'.isStore = true) : l.managerRank < l'.managerRank := by
  rcases h with h | h | ⟨h, -⟩
  · cases l <;> cases l' <;> simp_all [storeRank, managerRank, isStore]
  · exact h
  · exact absurd h hne

end Lock

/-! ### Programs -/

/-- Locks are taken in one order or the other, and given back, from what is held at first to
what is held at last. -/
def Orderly : List Lock → List LockAction → List Lock → Prop
  | held, [], last => held = last
  | held, .lock l :: todo, last => (∀ l' ∈ held, l'.Allows l) ∧ Orderly (l :: held) todo last
  | held, .unlock l :: todo, last => l ∈ held ∧ Orderly (held.erase l) todo last
  | held, .publish _ :: todo, last => Orderly held todo last
  | held, .retire _ :: todo, last => Orderly held todo last

/-- A lock is taken and given back. -/
example (l : Lock) : Orderly [] [.lock l, .unlock l] [] := by simp [Orderly]

/-- One thing after the other. -/
theorem Orderly.append {held middle last : List Lock} {todo todo' : List LockAction}
    (h : Orderly held todo middle) (h' : Orderly middle todo' last) :
    Orderly held (todo ++ todo') last := by
  induction todo generalizing held with
  | nil =>
    cases h
    exact h'
  | cons a todo ih =>
    cases a with
    | lock l => exact ⟨h.1, ih h.2⟩
    | unlock l => exact ⟨h.1, ih h.2⟩
    | publish e => exact ih h
    | retire e => exact ih h

/-- The same for each of some things. -/
theorem Orderly.flatMap {α : Type*} {held : List Lock} {f : α → List LockAction} (xs : List α)
    (h : ∀ x ∈ xs, Orderly held (f x) held) : Orderly held (xs.flatMap f) held := by
  induction xs with
  | nil => exact rfl
  | cons x xs ih =>
    rw [flatMap_cons]
    exact (h x mem_cons_self).append (ih fun y hy => h y (mem_cons_of_mem _ hy))

/-- Everything is given back. -/
theorem orderly_unlock (held : List Lock) : Orderly held (held.map .unlock) [] := by
  induction held with
  | nil => exact rfl
  | cons l held ih =>
    refine ⟨mem_cons_self, ?_⟩
    rw [erase_cons_head]
    exact ih

section Programs

variable (site : SiteIdType) (e : EntityAddress)

theorem orderly_getSiteCache : Orderly [] (getSiteCache site) [] := by
  simp [getSiteCache, Orderly, Lock.Allows, storeRank]

theorem orderly_tellManager : Orderly [] tellManager [] := by
  simp [tellManager, Orderly]

theorem orderly_askBackend : Orderly [] askBackend [] := by
  simp [askBackend, Orderly]

theorem orderly_readEntity : Orderly [] (readEntity e) [] := by
  simp [readEntity, Orderly]

theorem orderly_getEntityRef (fetch : Fetch) : Orderly [] (getEntityRef site fetch) [] := by
  cases fetch <;>
    simp [getEntityRef, askBackend, tellManager, Orderly, Lock.Allows, storeRank]

theorem orderly_getEntityDeleted (fetch : Fetch) :
    Orderly [] (getEntityDeleted site fetch) [] := by
  cases fetch with
  | noSite => simp [getEntityDeleted, Orderly]
  | missing => exact (orderly_getSiteCache site).append (orderly_getEntityRef site _)
  | cached e => exact (orderly_getSiteCache site).append (orderly_getEntityRef site _)
  | loaded e => exact (orderly_getSiteCache site).append (orderly_getEntityRef site _)

theorem orderly_withEntity (fetch : Fetch) {f : EntityAddress → List LockAction}
    (hf : ∀ e, Orderly [] (f e) []) : Orderly [] (withEntity fetch f) [] := by
  cases fetch with
  | noSite => exact rfl
  | missing => exact rfl
  | cached e => exact hf e
  | loaded e => exact hf e

theorem orderly_getEntity (fetch : Fetch) : Orderly [] (getEntity site fetch) [] :=
  (orderly_getEntityDeleted site fetch).append (orderly_withEntity fetch orderly_readEntity)

/-- What is called with a token is called under the lock of the Entity. -/
theorem orderly_tokenCall (call : TokenCall) :
    Orderly [.entity e] (tokenCall site e call) [.entity e] := by
  cases call with
  | setProgramRegName check =>
    cases check <;> simp [tokenCall, checkName, tellManager, getSiteCache, askBackend, Orderly,
      Lock.Allows, storeRank, managerRank]
  | setEntityName check =>
    cases check <;> simp [tokenCall, checkName, tellManager, getSiteCache, askBackend, Orderly,
      Lock.Allows, storeRank, managerRank]
  | setTemporaryName =>
    simp [tokenCall, askBackend, Orderly, Lock.Allows, storeRank, managerRank]
  | nested => simp [tokenCall, readEntity, Orderly, Lock.Allows, entity?]

theorem orderly_writerToken (calls : List TokenCall) (changed : Bool) :
    Orderly [] (writerToken site e calls changed) [] := by
  have hlock : Orderly [] [.lock (.entity e)] [.entity e] := by simp [Orderly]
  have hcalls := Orderly.flatMap calls fun call _ => orderly_tokenCall site e call
  have htell : Orderly [.entity e] (if changed then tellManager else []) [.entity e] := by
    cases changed <;> simp [tellManager, Orderly, Lock.Allows, storeRank]
  have hunlock : Orderly [.entity e] [.unlock (.entity e)] [] := by simp [Orderly]
  exact ((hlock.append hcalls).append htell).append hunlock

theorem orderly_saveEntityDb : Orderly [] (saveEntityDb e) [] := by
  simp [saveEntityDb, readEntity, Orderly, Lock.Allows, storeRank]

theorem orderly_touch (t : Touch) : Orderly [] (touch t) [] :=
  (orderly_getEntityDeleted t.site t.fetch).append
    (orderly_withEntity t.fetch fun e => orderly_writerToken t.site e [] t.changed)

theorem orderly_internalDeleteEntity (outcome : CacheOutcome) :
    Orderly [] (internalDeleteEntity site e outcome) [] := by
  cases outcome <;> simp [internalDeleteEntity, getSiteCache, deleteEntityCache, readEntity,
    askBackend, tellManager, Orderly, Lock.Allows, storeRank]

/-- The operations are orderly, all but one. -/
theorem orderly_program (op : Operation) (hop : op.deletesSite = false) :
    Orderly [] op.program [] := by
  cases op with
  | newEntity site e fetch =>
    have hmade := ((orderly_askBackend).append (orderly_writerToken site e [] true)).append
      (orderly_saveEntityDb e)
    exact ((orderly_getSiteCache site).append hmade).append (orderly_getEntity site fetch)
  | newPlayer site e fetch check changed =>
    have hmade : Orderly [] ([.lock .databaseAccess] ++
        backendNewEntity site e [.setTemporaryName] ++ [.unlock .databaseAccess]) [] := by
      simp [backendNewEntity, writerToken, tokenCall, saveEntityDb, readEntity, askBackend,
        tellManager, Orderly, Lock.Allows, storeRank, managerRank]
    exact (((orderly_getSiteCache site).append hmade).append (orderly_getEntity site fetch)).append
      (orderly_withEntity fetch fun e' => orderly_writerToken site e' _ changed)
  | getEntity site fetch => exact orderly_getEntity site fetch
  | deleteEntity site contents =>
    have hsearch := Orderly.flatMap contents fun t _ =>
      (orderly_getEntityDeleted t.site t.fetch).append (orderly_withEntity t.fetch orderly_readEntity)
    have hmark := Orderly.flatMap contents fun t _ =>
      (orderly_getEntity t.site t.fetch).append
        (orderly_withEntity t.fetch fun e => orderly_writerToken t.site e [] t.changed)
    exact (((orderly_tellManager.append (orderly_getSiteCache site)).append hsearch).append
      hmark).append orderly_tellManager
  | newSite => simp [Operation.program, askBackend, Orderly, Lock.Allows, storeRank]
  | deleteSite site referenced => cases hop
  | writerToken site e calls changed => exact orderly_writerToken site e calls changed
  | takePending => exact orderly_tellManager
  | commitEntity site fetch =>
    exact (orderly_getEntity site fetch).append (orderly_withEntity fetch orderly_saveEntityDb)
  | removeEntity site fetch references outcome =>
    have htouch := Orderly.flatMap references fun t _ => orderly_touch t
    exact ((orderly_getEntityDeleted site fetch).append htouch).append
      (orderly_withEntity fetch fun e =>
        ((orderly_readEntity e).append orderly_tellManager).append
          (orderly_internalDeleteEntity site e outcome))
  | finishCommits sites =>
    have hlock : Orderly [] [.lock .updateManager] [.updateManager] := by simp [Orderly]
    have hsites := Orderly.flatMap sites fun site _ =>
      show Orderly [.updateManager] (getSiteCache site ++ askBackend) [.updateManager] by
        simp [getSiteCache, askBackend, Orderly, Lock.Allows, storeRank, managerRank]
    have hunlock : Orderly [.updateManager] [.unlock .updateManager] [] := by simp [Orderly]
    exact (hlock.append hsites).append hunlock

end Programs

/-! ### What a run has to avoid -/

/-- What is locked before a lock is given back. -/
def lockedUnder (l : Lock) : List Lock → List LockAction → List Lock
  | _, [] => []
  | held, a :: todo =>
    if l ∈ held then
      match a with
      | .lock l' => l' :: lockedUnder l (l' :: held) todo
      | .unlock l' => lockedUnder l (held.erase l') todo
      | .publish _ | .retire _ => lockedUnder l held todo
    else []

namespace LockSystem

variable {n : ℕ} (s : LockSystem n)

/-- A lock that is not that of an Entity that one thread has to itself. -/
def Shared (l : Lock) : Prop := ∀ e ∈ l.entity?, s.entities e = .shared

/-- What a thread is yet to lock under a lock that it holds. -/
def nested (t : Fin n) (l : Lock) : List Lock :=
  lockedUnder l (s.threads t).held (s.threads t).todo

/-- A thread has an Entity or the manager, and is yet to ask a store: a name is being
checked. -/
def LooksUp (t : Fin n) : Prop :=
  ∃ l ∈ (s.threads t).held, l.isStore = false ∧ s.Shared l ∧ ∃ l' ∈ s.nested t l, l'.isStore = true

/-- A thread has a store, and is yet to lock an Entity or the manager: an Entity is being
loaded, made, or saved. -/
def CallsBack (t : Fin n) : Prop :=
  ∃ l ∈ (s.threads t).held, l.isStore = true ∧
    ∃ l' ∈ s.nested t l, l'.isStore = false ∧ s.Shared l'

/-- The two do not meet. -/
def Apart : Prop := (∀ t, ¬ s.LooksUp t) ∨ ∀ t, ¬ s.CallsBack t

/-- What a run has to avoid. -/
def ok (s : LockSystem n) (a : LockStep n) : Prop :=
  a.deletesSite = false ∧ ∀ s' ∈ s.step a, s'.Apart

instance (l : Lock) : Decidable (s.Shared l) := inferInstanceAs (Decidable (∀ e ∈ l.entity?, _))

instance (t : Fin n) : Decidable (s.LooksUp t) :=
  inferInstanceAs (Decidable (∃ l ∈ (s.threads t).held, _))

instance (t : Fin n) : Decidable (s.CallsBack t) :=
  inferInstanceAs (Decidable (∃ l ∈ (s.threads t).held, _))

instance : Decidable s.Apart := inferInstanceAs (Decidable (_ ∨ _))

instance (a : LockStep n) : Decidable (s.ok a) := inferInstanceAs (Decidable (_ ∧ _))

/-! ### The invariant -/

/-- A thread knows an Entity: it is in the cache, or the thread has it to itself. -/
def Knows (t : Fin n) (e : EntityAddress) : Prop :=
  s.entities e = .shared ∨ s.entities e = .own t

/-- The invariant. -/
structure Inv : Prop where
  orderly : ∀ t, Orderly (s.threads t).held (s.threads t).todo []
  exclusive : ∀ t t' l, l ∈ (s.threads t).held → l ∈ (s.threads t').held → t = t'
  knows_held : ∀ t, ∀ l ∈ (s.threads t).held, ∀ e ∈ l.entity?, s.Knows t e
  knows_todo : ∀ t, ∀ a ∈ (s.threads t).todo, ∀ e ∈ a.entity?, s.Knows t e

variable {s}

theorem Inv.init (n : ℕ) : (LockSystem.init n).Inv where
  orderly _ := rfl
  exclusive _ _ _ h := absurd h not_mem_nil
  knows_held _ _ h := absurd h not_mem_nil
  knows_todo _ _ h := absurd h not_mem_nil

/-- Nothing is held, and there is nothing to be taken. -/
theorem apart_init (n : ℕ) : (LockSystem.init n).Apart := by
  refine .inl fun t h => ?_
  obtain ⟨l, hl, -⟩ := h
  exact absurd hl not_mem_nil

namespace Inv

variable {t : Fin n} {l l' : Lock}

/-- A thread goes on, and nothing else happens. -/
theorem update (h : s.Inv) (frame : Frame) (horderly : Orderly frame.held frame.todo [])
    (hexclusive : ∀ l ∈ frame.held, ∀ t', l ∈ (s.threads t').held → t' = t)
    (hheld : ∀ l ∈ frame.held, ∀ e ∈ l.entity?, s.Knows t e)
    (htodo : ∀ a ∈ frame.todo, ∀ e ∈ a.entity?, s.Knows t e) :
    Inv { s with threads := Function.update s.threads t frame } where
  orderly t' := by
    by_cases heq : t' = t
    · subst heq
      simpa using horderly
    · simpa [heq] using h.orderly t'
  exclusive t₁ t₂ l h₁ h₂ := by
    by_cases heq₁ : t₁ = t
    · by_cases heq₂ : t₂ = t
      · exact heq₁.trans heq₂.symm
      · subst heq₁
        simp only [Function.update_self, Function.update_of_ne heq₂] at h₁ h₂
        exact (hexclusive l h₁ t₂ h₂).symm
    · by_cases heq₂ : t₂ = t
      · subst heq₂
        simp only [Function.update_self, Function.update_of_ne heq₁] at h₁ h₂
        exact hexclusive l h₂ t₁ h₁
      · simp only [Function.update_of_ne heq₁, Function.update_of_ne heq₂] at h₁ h₂
        exact h.exclusive t₁ t₂ l h₁ h₂
  knows_held t' l hl := by
    by_cases heq : t' = t
    · subst heq
      simp only [Function.update_self] at hl
      exact hheld l hl
    · simp only [Function.update_of_ne heq] at hl
      exact h.knows_held t' l hl
  knows_todo t' a ha := by
    by_cases heq : t' = t
    · subst heq
      simp only [Function.update_self] at ha
      exact htodo a ha
    · simp only [Function.update_of_ne heq] at ha
      exact h.knows_todo t' a ha

/-- Somebody else gets to know an Entity, or nobody knew it. -/
theorem setEntities (h : s.Inv) (entities : EntityAddress → EntityState n)
    (hknows : ∀ t e, (∃ l ∈ (s.threads t).held, e ∈ l.entity?) ∨
      (∃ a ∈ (s.threads t).todo, e ∈ a.entity?) → s.Knows t e →
      entities e = .shared ∨ entities e = .own t) :
    Inv { s with entities := entities } where
  orderly := h.orderly
  exclusive := h.exclusive
  knows_held t l hl e he := hknows t e (.inl ⟨l, hl, he⟩) (h.knows_held t l hl e he)
  knows_todo t a ha e he := hknows t e (.inr ⟨a, ha, he⟩) (h.knows_todo t a ha e he)

/-- A step keeps the invariant. -/
theorem step (h : s.Inv) {a : LockStep n} {s' : LockSystem n}
    (hop : a.deletesSite = false) (hstep : s.step a = some s') : s'.Inv := by
  cases a with
  | start t op =>
    rw [LockSystem.step, Option.ite_none_right_eq_some] at hstep
    obtain ⟨⟨htodo, hown, hknown⟩, hstep⟩ := hstep
    cases hstep
    have hheld : (s.threads t).held = [] := by
      have horderly := h.orderly t
      rw [htodo] at horderly
      exact horderly
    -- nobody has known the Entities that are to be made
    have hentities := h.setEntities (fun e => if e ∈ op.own then .own t else s.entities e)
      fun t' e _ hknows => by
        by_cases he : e ∈ op.own
        · rw [Knows, hown e he] at hknows
          rcases hknows with hknows | hknows <;> cases hknows
        · simpa [Knows, he] using hknows
    refine hentities.update _ ?_ ?_ ?_ ?_
    · change Orderly (s.threads t).held op.program []
      rw [hheld]
      exact orderly_program op hop
    · intro l hl
      change l ∈ (s.threads t).held at hl
      rw [hheld] at hl
      exact absurd hl not_mem_nil
    · intro l hl
      change l ∈ (s.threads t).held at hl
      rw [hheld] at hl
      exact absurd hl not_mem_nil
    · intro a ha e he
      by_cases hin : e ∈ op.own
      · exact .inr (if_pos hin)
      · rcases hknown a ha e he with hmem | hshared
        · exact absurd hmem hin
        · exact .inl ((if_neg hin).trans hshared)
  | go t =>
    have horderly := h.orderly t
    have hheld := h.knows_held t
    have htodo := h.knows_todo t
    rw [LockSystem.step] at hstep
    split at hstep
    · cases hstep
    · rename_i a todo heq
      rw [heq] at horderly htodo
      have hrest : ∀ b ∈ todo, ∀ e ∈ b.entity?, s.Knows t e := fun b hb =>
        htodo b (mem_cons_of_mem _ hb)
      have hexclusive : ∀ l ∈ (s.threads t).held, ∀ t', l ∈ (s.threads t').held → t' = t :=
        fun l hl t' ht' => h.exclusive t' t l ht' hl
      cases a with
      | lock l =>
        rw [perform, Option.ite_none_right_eq_some] at hstep
        obtain ⟨havailable, hstep⟩ := hstep
        cases hstep
        refine h.update _ horderly.2 ?_ ?_ hrest
        · intro l' hl' t' ht'
          rcases mem_cons.mp hl' with rfl | hl'
          · exact (havailable t' ht').1
          · exact hexclusive l' hl' t' ht'
        · intro l' hl' e he
          rcases mem_cons.mp hl' with rfl | hl'
          · exact htodo _ mem_cons_self e he
          · exact hheld l' hl' e he
      | unlock l =>
        cases hstep
        refine h.update _ horderly.2 ?_ ?_ hrest
        · intro l' hl'
          exact hexclusive l' (mem_of_mem_erase hl')
        · intro l' hl'
          exact hheld l' (mem_of_mem_erase hl')
      | publish e =>
        cases hstep
        have hentities := (h.update ⟨(s.threads t).held, todo⟩ horderly hexclusive hheld
          hrest).setEntities (Function.update s.entities e .shared) fun t' e' _ hknows => by
            by_cases heq' : e' = e
            · subst heq'
              exact .inl (Function.update_self ..)
            · rw [Function.update_of_ne heq']
              exact hknows
        exact hentities
      | retire e =>
        rw [perform, Option.ite_none_right_eq_some] at hstep
        obtain ⟨hunused, hstep⟩ := hstep
        cases hstep
        have hentities := (h.update ⟨(s.threads t).held, todo⟩ horderly hexclusive hheld
          hrest).setEntities (Function.update s.entities e (.own t)) fun t' e' hmention hknows => by
            by_cases heq' : e' = e
            · subst heq'
              by_cases htt : t' = t
              · subst htt
                exact .inr (Function.update_self ..)
              · obtain ⟨hnotHeld, hnotTodo⟩ := hunused t' htt
                simp only [Function.update_of_ne htt] at hmention
                rcases hmention with ⟨l, hl, hle⟩ | ⟨a, ha, hae⟩
                · cases l <;> cases hle
                  exact absurd hl hnotHeld
                · exact absurd hae (hnotTodo a ha)
            · rw [Function.update_of_ne heq']
              exact hknows
        exact hentities
  | leave t =>
    rw [LockSystem.step, Option.ite_none_right_eq_some] at hstep
    obtain ⟨hnone, hstep⟩ := hstep
    cases hstep
    refine h.update _ (orderly_unlock _) ?_ (h.knows_held t) ?_
    · exact fun l hl t' ht' => h.exclusive t' t l ht' hl
    · intro a ha e he
      obtain ⟨l, hl, rfl⟩ := mem_map.mp ha
      exact h.knows_held t l hl e he

/-- A lock that one thread is kept waiting for is not that of an Entity which another has to
itself. -/
theorem shared_of_waits (h : s.Inv) (hwaits : s.Waits t l) : s.Shared l := by
  obtain ⟨todo, htodo, havailable⟩ := hwaits
  intro e he
  -- the lock is held by another thread, who knows the Entity as well
  obtain ⟨t', hheld, hother⟩ : ∃ t', l ∈ (s.threads t').held ∧ t' ≠ t := by
    by_contra hnone
    refine havailable fun t' ht' => ⟨?_, Option.isSome_of_mem he⟩
    by_contra hne
    exact hnone ⟨t', ht', hne⟩
  have hknows := h.knows_todo t (.lock l) (by rw [htodo]; exact mem_cons_self) e he
  rcases hknows with hshared | hown
  · exact hshared
  · rcases h.knows_held t' l hheld e he with hshared | hown'
    · exact hshared
    · rw [hown] at hown'
      exact absurd (EntityState.own.inj hown').symm hother

/-- What a thread waits for is locked next, under all that the thread holds. -/
theorem mem_nested_of_waits (hholds : s.Holds t l) (hwaits : s.Waits t l') : l' ∈ s.nested t l := by
  obtain ⟨todo, htodo, -⟩ := hwaits
  have hmem : l ∈ (s.threads t).held := hholds
  rw [nested, htodo, lockedUnder, if_pos hmem]
  exact mem_cons_self

/-- What a thread waits for it may take under all that it holds. -/
theorem allows_of_waits (h : s.Inv) (hholds : s.Holds t l) (hwaits : s.Waits t l') :
    l.Allows l' := by
  obtain ⟨todo, htodo, -⟩ := hwaits
  have horderly := h.orderly t
  rw [htodo] at horderly
  exact horderly.1 l hholds

/-- A thread does not wait for the lock of an Entity that it holds, and may take no other
lock twice. -/
theorem ne_of_waits (h : s.Inv) (hholds : s.Holds t l) (hwaits : s.Waits t l') : l ≠ l' := by
  rintro rfl
  rcases h.allows_of_waits hholds hwaits with hlt | hlt | ⟨-, hentity⟩
  · exact absurd hlt (Nat.lt_irrefl _)
  · exact absurd hlt (Nat.lt_irrefl _)
  · obtain ⟨todo, -, havailable⟩ := hwaits
    exact havailable fun t' ht' => ⟨h.exclusive t' t l ht' hholds, hentity⟩

/-- **Nobody waits for itself** where the two orders are apart. -/
theorem acyclic (h : s.Inv) (hapart : s.Apart) (t : Fin n) :
    ¬ Relation.TransGen (WaitsFor s.Holds s.Waits) t t := by
  rcases hapart with hlooks | hcalls
  · -- no name is being looked up: the stores come first
    refine not_transGen_waitsFor storeRank (fun t l l' hholds hcontended hwaits => ?_) t
    obtain ⟨t', hwaits'⟩ := hcontended
    refine (h.allows_of_waits hholds hwaits).storeRank_lt (h.ne_of_waits hholds hwaits) ?_
    by_contra hup
    obtain ⟨hstore, hstore'⟩ := not_or.mp hup
    exact hlooks t ⟨l, hholds, Bool.eq_false_iff.mpr hstore, h.shared_of_waits hwaits', l',
      mem_nested_of_waits hholds hwaits, by simpa using hstore'⟩
  · -- no store is waiting for the rest: the stores come last
    refine not_transGen_waitsFor managerRank (fun t l l' hholds _ hwaits => ?_) t
    refine (h.allows_of_waits hholds hwaits).managerRank_lt (h.ne_of_waits hholds hwaits) ?_
    by_contra hdown
    obtain ⟨hstore, hstore'⟩ := not_or.mp hdown
    exact hcalls t ⟨l, hholds, by simpa using hstore, l', mem_nested_of_waits hholds hwaits,
      Bool.eq_false_iff.mpr hstore', h.shared_of_waits hwaits⟩

end Inv

end LockSystem

open LockSystem

/-- **No thread waits for a lock that it holds itself, and no threads wait for each other in
a cycle**, in every state of a run of any number of threads in which no site is deleted and
at no time somebody is in the middle of the check of a name while somebody loads, makes or
saves an Entity. -/
theorem no_deadlock {n : ℕ} {s : LockSystem n} (h : Reachable step ok (LockSystem.init n) s) :
    (∀ t l, s.Waits t l → ¬ s.Holds t l) ∧
      ∀ t, ¬ Relation.TransGen (WaitsFor s.Holds s.Waits) t t := by
  have hinv : s.Inv ∧ s.Apart := h.invariant (I := fun s => s.Inv ∧ s.Apart)
    ⟨Inv.init n, apart_init n⟩ fun s a s' hs hok hstep => ⟨hs.1.step hok.1 hstep, hok.2 s' hstep⟩
  have hacyclic := hinv.1.acyclic hinv.2
  exact ⟨fun t l hwaits hholds => hacyclic t (.single ⟨l, hwaits, hholds⟩), hacyclic⟩

/-- An operation from its beginning to its end, in that many steps. -/
def whole {n : ℕ} (t : Fin n) (op : Operation) : List (LockStep n) :=
  .start t op :: List.replicate op.program.length (.go t)

theorem no_deadlock_newPlayer_alone :
    ∃ s : LockSystem 2, Reachable step ok (LockSystem.init 2) s ∧ s.entities 1 = .shared ∧
      ∀ t, ¬ Relation.TransGen (WaitsFor s.Holds s.Waits) t t := by
  obtain ⟨s, hs, hshared⟩ := Option.map_eq_some_iff.mp
    (show (run (guarded step ok) (LockSystem.init 2)
      (whole 0 (.newPlayer 1 0 (.loaded 1) .database true))).map (fun s => s.entities 1) =
        some .shared by decide +kernel)
  have hreach := reachable_of_run_guarded .init hs
  exact ⟨s, hreach, hshared, (no_deadlock hreach).2⟩

/-- Who waits for whom can be told from what they are about to do. -/
theorem waitsFor_iff {n : ℕ} {s : LockSystem n} {t t' : Fin n} :
    WaitsFor s.Holds s.Waits t t' ↔
      ∃ l ∈ (s.threads t').held, (s.threads t).todo.head? = some (.lock l) ∧ ¬ s.Available t l := by
  constructor
  · rintro ⟨l, ⟨todo, htodo, havailable⟩, hholds⟩
    exact ⟨l, hholds, by rw [htodo]; rfl, havailable⟩
  · rintro ⟨l, hholds, htodo, havailable⟩
    obtain ⟨todo, htodo⟩ := head?_eq_some_iff.mp htodo
    exact ⟨l, ⟨todo, htodo, havailable⟩, hholds⟩

instance {n : ℕ} (s : LockSystem n) (t t' : Fin n) : Decidable (WaitsFor s.Holds s.Waits t t') :=
  decidable_of_iff _ waitsFor_iff.symm

/-- `delete_site` waits for the mutex that it holds. -/
theorem no_deadlock_deleteSite :
    ¬ ∀ n (s : LockSystem n) as, run step (LockSystem.init n) as = some s →
      ∀ t, ¬ Relation.TransGen (WaitsFor s.Holds s.Waits) t t := by
  intro h
  obtain ⟨s, hs, hwaits⟩ := Option.map_eq_some_iff.mp
    (show (run step (LockSystem.init 1) [.start 0 (.deleteSite 1 false), .go 0]).map
      (fun s => decide (WaitsFor s.Holds s.Waits 0 0)) = some true by decide +kernel)
  exact h 1 s _ hs 0 (.single (of_decide_eq_true hwaits))

end Mutgos.DbInterface
