import Mutgos.DbInterface.EntityRefs
import Mutgos.Lib.TransitionSystem

/-!
# The lifetime of cached Entities

A cache entry counts the references that hold it, an Entity is freed only when none does,
and it is not read afterwards, in every run that avoids two things.

`delete_entity_cache` frees the Entity and then destroys its cache entry, whose destructor
names the Entity in what it logs: while debug messages are logged, which is the level the
logger starts at, the freed Entity is read.  (`~SiteCache` has the two in the right order.)
And a reference that is assigned to itself gives its count back before it takes it again,
so that another thread may find the Entity unused in between.

## Main results

* `entityLifetime` — **counts, lifetimes and reads are right in every run that avoids the
  two.**
-/

namespace Mutgos.DbInterface

open DbTypes Function Slots

namespace CacheSystem

/-! ### What is promised -/

/-- What is promised of a state. -/
structure Lifetime (s : CacheSystem) : Prop where
  /-- A cache entry has counted the references that hold it. -/
  refCount_eq : ∀ c entry, s.counters c = some entry → entry.refCount = s.holders c
  /-- What a reference holds is there. -/
  held_live : ∀ r e c, (r, .holds e c) ∈ s.refs → (s.counters c).isSome ∧ (s.heap e).isSome
  /-- Nothing has been read after it was freed. -/
  not_freedRead : s.freedRead = false

/-- An Entity that a step frees is not held by any reference. -/
def FreesUnheld (s s' : CacheSystem) : Prop :=
  ∀ e, (s.heap e).isSome → s'.heap e = none → ∀ r c, (r, Slot.holds e c) ∉ s.refs

/-- No reference to the Entity of a cache entry is in the middle of an assignment to itself. -/
def NotReleased (s : CacheSystem) (c : Address) : Prop :=
  ∀ slot ∈ s.refs, slot.2.released? ≠ some c

/-- `delete_entity_cache` finds that the Entity of a cache entry can be deleted. -/
def Deletable (s : CacheSystem) (c : Address) : Prop :=
  (s.counters c).any fun entry =>
    entry.refCount = 0 && !(s.heap entry.entityPtr).any (·.dirty)

/-- What a run has to avoid. -/
def ok (s : CacheSystem) : CacheStep → Prop
  | .deleteCheck _ id => ∀ entry ∈ s.cached, entry.1 = id → s.Deletable entry.2 →
      s.NotReleased entry.2
  | .destroySite site => ∀ entry ∈ s.cached, entry.1.siteId = site → s.NotReleased entry.2
  | .deleteEntry _ _ _ => s.debugLogging = false
  | _ => True

instance (s : CacheSystem) (c : Address) : Decidable (s.NotReleased c) :=
  inferInstanceAs (Decidable (∀ slot ∈ s.refs, _))

instance (s : CacheSystem) (c : Address) : Decidable (s.Deletable c) :=
  inferInstanceAs (Decidable (_ = true))

instance (s : CacheSystem) : ∀ a, Decidable (s.ok a)
  | .deleteCheck _ _ => inferInstanceAs (Decidable (∀ entry ∈ s.cached, _))
  | .destroySite _ => inferInstanceAs (Decidable (∀ entry ∈ s.cached, _))
  | .deleteEntry .. => inferInstanceAs (Decidable (_ = false))
  | .construct _ | .copy .. | .assign .. | .selfRelease .. | .selfHold .. | .clear _
  | .destruct _ | .use .. | .getClear .. | .getLookup .. | .deleteEntity .. | .setLevel _ =>
    inferInstanceAs (Decidable True)

/-! ### The invariant -/

/-- A thread is deleting the cache entry. -/
def Dying (s : CacheSystem) (c : Address) : Prop :=
  ∃ p ∈ s.active, ∃ id, p.2.dying? = some (id, c)

/-- The invariant. -/
structure Inv (s : CacheSystem) : Prop where
  names : (s.refs.map Prod.fst).Nodup
  threads : (s.active.map Prod.fst).Nodup
  counts : ∀ c entry, s.counters c = some entry → entry.refCount = s.holders c
  held : ∀ r slot e c, (r, slot) ∈ s.refs → slot = .holds e c ∨ slot = .released e c →
    s.ptr c = some e ∧ (s.heap e).isSome ∧ ¬ s.Dying c
  dying_lock : ∀ p ∈ s.active, ∀ q ∈ s.active, ∀ id c id' c', p.2.dying? = some (id, c) →
    q.2.dying? = some (id', c') → id.siteId = id'.siteId → p = q
  dying_cached : ∀ p ∈ s.active, ∀ entry, p.2.dying? = some entry → entry ∈ s.cached
  alive : ∀ id c, (id, c) ∈ s.cached → ∃ e, s.ptr c = some e ∧
    ((∀ t, (t, .deletingEntry id c) ∉ s.active) → ∃ x, s.heap e = some x ∧ x.id = id)
  cached_ids : (s.cached.map Prod.fst).Nodup
  cached_counters : (s.cached.map Prod.snd).Nodup
  ptr_cached : ∀ c e, s.ptr c = some e → c ∈ s.cached.map Prod.snd
  ptr_inj : ∀ c c' e, s.ptr c = some e → s.ptr c' = some e → c = c'
  fresh : ∀ a, s.nextAddress ≤ a → s.counters a = none ∧ s.heap a = none
  ptr_lt : ∀ c e, s.ptr c = some e → e < s.nextAddress
  owned_cached : ∀ id e, s.owned id = some e → id ∈ s.cached.map Prod.fst
  not_owned : ∀ t id c, (t, .deletingEntry id c) ∈ s.active → s.owned id = none
  not_freedRead : s.freedRead = false

variable {s s' : CacheSystem}

theorem ptr_eq_some {c e : Address} :
    s.ptr c = some e ↔ ∃ entry, s.counters c = some entry ∧ entry.entityPtr = e :=
  Option.map_eq_some_iff

/-- Everything but references and their counts is as it was, and the same cache entries are
being deleted. -/
structure SameCache (s s' : CacheSystem) : Prop where
  heap : s'.heap = s.heap
  ptr : ∀ c, s'.ptr c = s.ptr c
  nextAddress : s'.nextAddress = s.nextAddress
  owned : s'.owned = s.owned
  cached : s'.cached = s.cached
  freedRead : s'.freedRead = s.freedRead
  dying : ∀ p, p.2.dying?.isSome → (p ∈ s'.active ↔ p ∈ s.active)

theorem SameCache.trans {s'' : CacheSystem} (h : s.SameCache s') (h' : s'.SameCache s'') :
    s.SameCache s'' :=
  ⟨h'.heap.trans h.heap, fun c => (h'.ptr c).trans (h.ptr c), h'.nextAddress.trans h.nextAddress,
    h'.owned.trans h.owned, h'.cached.trans h.cached, h'.freedRead.trans h.freedRead,
    fun p hp => (h'.dying p hp).trans (h.dying p hp)⟩

/-- The same cache entries are being deleted. -/
theorem SameCache.dying_iff (h : s.SameCache s') (c : Address) : s'.Dying c ↔ s.Dying c := by
  constructor
  · rintro ⟨p, hp, id, hid⟩
    exact ⟨p, (h.dying p (by rw [hid]; rfl)).mp hp, id, hid⟩
  · rintro ⟨p, hp, id, hid⟩
    exact ⟨p, (h.dying p (by rw [hid]; rfl)).mpr hp, id, hid⟩

/-- Only references and their counts have changed. -/
theorem Inv.of_sameCache (h : s.Inv) (hsame : s.SameCache s') (names : (s'.refs.map Prod.fst).Nodup)
    (threads : (s'.active.map Prod.fst).Nodup)
    (counts : ∀ c entry, s'.counters c = some entry → entry.refCount = s'.holders c)
    (held : ∀ r slot e c, (r, slot) ∈ s'.refs → slot = .holds e c ∨ slot = .released e c →
      s.ptr c = some e ∧ (s.heap e).isSome ∧ ¬ s.Dying c) : s'.Inv where
  names := names
  threads := threads
  counts := counts
  held r slot e c hslot hpoints := by
    rw [hsame.ptr, hsame.heap, hsame.dying_iff]
    exact held r slot e c hslot hpoints
  dying_lock p hp q hq id c id' c' hid hid' := by
    have hp' := (hsame.dying p (by rw [hid]; rfl)).mp hp
    have hq' := (hsame.dying q (by rw [hid']; rfl)).mp hq
    exact h.dying_lock p hp' q hq' id c id' c' hid hid'
  dying_cached p hp entry hentry := by
    rw [hsame.cached]
    exact h.dying_cached p ((hsame.dying p (by rw [hentry]; rfl)).mp hp) entry hentry
  alive id c hid := by
    rw [hsame.cached] at hid
    obtain ⟨e, he, halive⟩ := h.alive id c hid
    refine ⟨e, (hsame.ptr c).trans he, fun hnot => ?_⟩
    rw [hsame.heap]
    exact halive fun t ht => hnot t ((hsame.dying (t, .deletingEntry id c) rfl).mpr ht)
  cached_ids := hsame.cached ▸ h.cached_ids
  cached_counters := hsame.cached ▸ h.cached_counters
  ptr_cached c e he := by
    rw [hsame.cached]
    exact h.ptr_cached c e ((hsame.ptr c).symm.trans he)
  ptr_inj c c' e he he' :=
    h.ptr_inj c c' e ((hsame.ptr c).symm.trans he) ((hsame.ptr c').symm.trans he')
  fresh a ha := by
    rw [hsame.nextAddress] at ha
    obtain ⟨hcounter, hheap⟩ := h.fresh a ha
    refine ⟨?_, by rw [hsame.heap]; exact hheap⟩
    have hptr : s'.ptr a = none := by rw [hsame.ptr, ptr, hcounter]; rfl
    exact Option.map_eq_none_iff.mp hptr
  ptr_lt c e he := by
    rw [hsame.nextAddress]
    exact h.ptr_lt c e ((hsame.ptr c).symm.trans he)
  owned_cached id e he := by
    rw [hsame.owned] at he
    rw [hsame.cached]
    exact h.owned_cached id e he
  not_owned t id c ht := by
    rw [hsame.owned]
    exact h.not_owned t id c ((hsame.dying (t, .deletingEntry id c) rfl).mp ht)
  not_freedRead := hsame.freedRead.trans h.not_freedRead

/-- What the invariant promises. -/
theorem Inv.lifetime (h : s.Inv) : s.Lifetime where
  refCount_eq := h.counts
  held_live r e c hslot := by
    obtain ⟨hptr, hheap, -⟩ := h.held r _ e c hslot (.inl rfl)
    obtain ⟨entry, hentry, -⟩ := ptr_eq_some.mp hptr
    exact ⟨hentry ▸ rfl, hheap⟩
  not_freedRead := h.not_freedRead

/-! ### Counts -/

section Counts

variable {s : CacheSystem} {r : RefName} {old new : Slot}

theorem ptr_changeCount (s : CacheSystem) (f : ℕ → ℕ) (c c' : Address) :
    (s.changeCount f c).ptr c' = s.ptr c' := by
  change (update s.counters c _ c').map CachedEntity.entityPtr = s.ptr c'
  by_cases h : c' = c
  · subst h
    rw [update_self, Option.map_map]
    rfl
  · rw [update_of_ne h]
    rfl

theorem sameCache_changeCount (s : CacheSystem) (f : ℕ → ℕ) (c : Address) :
    s.SameCache (s.changeCount f c) :=
  ⟨rfl, ptr_changeCount s f c, rfl, rfl, rfl, rfl, fun _ _ => Iff.rfl⟩

theorem sameCache_giveBack (s : CacheSystem) (r : RefName) (old new : Slot) :
    s.SameCache (s.giveBack r old new) := by
  have hrefs (t : CacheSystem) : t.SameCache { t with refs := set r new t.refs } :=
    ⟨rfl, fun _ => rfl, rfl, rfl, rfl, rfl, fun _ _ => Iff.rfl⟩
  cases old with
  | holds e c => exact (sameCache_changeCount s _ c).trans (hrefs _)
  | invalid => exact hrefs s
  | released e c => exact hrefs s

theorem sameCache_takeUp (s : CacheSystem) (r : RefName) (new : Slot) :
    s.SameCache (s.takeUp r new) := by
  have hrefs : s.SameCache { s with refs := set r new s.refs } :=
    ⟨rfl, fun _ => rfl, rfl, rfl, rfl, rfl, fun _ _ => Iff.rfl⟩
  cases new with
  | holds e c => exact hrefs.trans (sameCache_changeCount _ _ c)
  | invalid => exact hrefs
  | released e c => exact hrefs

theorem refs_giveBack (s : CacheSystem) (r : RefName) (old new : Slot) :
    (s.giveBack r old new).refs = set r new s.refs := by
  cases old <;> rfl

theorem refs_takeUp (s : CacheSystem) (r : RefName) (new : Slot) :
    (s.takeUp r new).refs = set r new s.refs := by
  cases new <;> rfl

theorem active_giveBack (s : CacheSystem) (r : RefName) (old new : Slot) :
    (s.giveBack r old new).active = s.active := by
  cases old <;> rfl

theorem active_takeUp (s : CacheSystem) (r : RefName) (new : Slot) :
    (s.takeUp r new).active = s.active := by
  cases new <;> rfl

/-- The count of a cache entry, after one has changed. -/
theorem exists_of_changeCount {f : ℕ → ℕ} {c c' : Address} {entry' : CachedEntity}
    (h : (s.changeCount f c).counters c' = some entry') :
    ∃ entry, s.counters c' = some entry ∧
      entry'.refCount = if c = c' then f entry.refCount else entry.refCount := by
  change update s.counters c _ c' = some entry' at h
  by_cases hc : c = c'
  · subst hc
    rw [update_self, Option.map_eq_some_iff] at h
    obtain ⟨entry, hentry, rfl⟩ := h
    exact ⟨entry, hentry, (if_pos rfl).symm⟩
  · rw [update_of_ne (Ne.symm hc)] at h
    exact ⟨entry', h, (if_neg hc).symm⟩

section

variable (hnames : (s.refs.map Prod.fst).Nodup)
  (hcounts : ∀ c entry, s.counters c = some entry → entry.refCount = s.holders c)
  (hold : (r, old) ∈ s.refs)
include hnames hcounts hold

/-- The counts stay right when a reference gets other pointers and the counts follow. -/
theorem counts_of_set {s' : CacheSystem} (hrefs : s'.refs = set r new s.refs)
    (hcounters : ∀ c entry', s'.counters c = some entry' → ∃ entry, s.counters c = some entry ∧
      entry'.refCount = entry.refCount + (if new.counted c then 1 else 0) -
        if old.counted c then 1 else 0) :
    ∀ c entry, s'.counters c = some entry → entry.refCount = s'.holders c := by
  intro c entry' hentry'
  obtain ⟨entry, hentry, heq⟩ := hcounters c entry' hentry'
  have hcount := count_set (Slot.counted c) new hnames hold
  have hbefore := hcounts c entry hentry
  rw [holders] at hbefore
  rw [heq, holders, hrefs]
  omega

/-- A reference that gives its count back counts no longer. -/
theorem counts_giveBack (hnew : new.counter? = none) :
    ∀ c entry, (s.giveBack r old new).counters c = some entry →
      entry.refCount = (s.giveBack r old new).holders c := by
  refine counts_of_set hnames hcounts hold (refs_giveBack s r old new) fun c entry' hentry' => ?_
  have hnone : new.counted c = false := by simp [Slot.counted, hnew]
  cases old with
  | holds e c₀ =>
    have hchanged : (s.changeCount (· - 1) c₀).counters c = some entry' := hentry'
    obtain ⟨entry, hentry, heq⟩ := exists_of_changeCount hchanged
    refine ⟨entry, hentry, ?_⟩
    rw [heq, hnone]
    by_cases hc : c₀ = c
    · simp [Slot.counted, Slot.counter?, hc]
    · simp [Slot.counted, Slot.counter?, hc]
  | invalid => exact ⟨entry', hentry', by rw [hnone]; rfl⟩
  | released e c₀ => exact ⟨entry', hentry', by rw [hnone]; rfl⟩

/-- A reference that takes up pointers counts. -/
theorem counts_takeUp (hnone : old.counter? = none) :
    ∀ c entry, (s.takeUp r new).counters c = some entry →
      entry.refCount = (s.takeUp r new).holders c := by
  refine counts_of_set hnames hcounts hold (refs_takeUp s r new) fun c entry' hentry' => ?_
  have hold : old.counted c = false := by simp [Slot.counted, hnone]
  cases new with
  | holds e c₀ =>
    have hchanged : (changeCount { s with refs := set r (.holds e c₀) s.refs } (· + 1)
        c₀).counters c = some entry' := hentry'
    obtain ⟨entry, hentry, heq⟩ := exists_of_changeCount hchanged
    refine ⟨entry, hentry, ?_⟩
    rw [heq, hold]
    by_cases hc : c₀ = c
    · simp [Slot.counted, Slot.counter?, hc]
    · simp [Slot.counted, Slot.counter?, hc]
  | invalid => exact ⟨entry', hentry', by rw [hold]; rfl⟩
  | released e c₀ => exact ⟨entry', hentry', by rw [hold]; rfl⟩

end

end Counts

/-! ### Steps of references -/

namespace Inv

variable {s : CacheSystem} {r : RefName} {slot old : Slot} {e c : Address} {t : CacheThread}
  {s' : CacheSystem}

/-- The pointers of a reference. -/
theorem mem_of_find (h : SortedMap.find r s.refs = some slot) :
    (r, slot) ∈ s.refs := SortedMap.mem_of_find h

/-- The name of a reference with pointers. -/
theorem mem_names (h : (r, slot) ∈ s.refs) : r ∈ s.refs.map Prod.fst :=
  List.mem_map.mpr ⟨_, h, rfl⟩

/-- A reference that can be used is not in the middle of an assignment to itself. -/
theorem usable_eq_some (h : s.usable r = some slot) :
    (r, slot) ∈ s.refs ∧ slot.isReleased = false := by
  rw [usable, Option.filter_eq_some_iff] at h
  exact ⟨SortedMap.mem_of_find h.1, by simpa using h.2⟩

/-- What a reference afterwards points to, it pointed to before, or it was given. -/
theorem held_set (h : s.Inv) {new : Slot}
    (hnew : ∀ e c, new = .holds e c ∨ new = .released e c →
      s.ptr c = some e ∧ (s.heap e).isSome ∧ ¬ s.Dying c) :
    ∀ r' slot e c, (r', slot) ∈ set r new s.refs →
      slot = .holds e c ∨ slot = .released e c →
      s.ptr c = some e ∧ (s.heap e).isSome ∧ ¬ s.Dying c := by
  intro r' slot e c hslot hpoints
  rcases mem_set_iff.mp hslot with ⟨-, rfl, -⟩ | ⟨-, hslot⟩
  · exact hnew e c hpoints
  · exact h.held r' slot e c hslot hpoints

/-- A reference gives its count back. -/
theorem giveBack (h : s.Inv) (new : Slot) (hold : (r, old) ∈ s.refs) (hnone : new.counter? = none)
    (hnew : ∀ e c, new = .holds e c ∨ new = .released e c →
      s.ptr c = some e ∧ (s.heap e).isSome ∧ ¬ s.Dying c) : (s.giveBack r old new).Inv := by
  refine h.of_sameCache (sameCache_giveBack s r old new) ?_ ?_
    (counts_giveBack h.names h.counts hold hnone) ?_
  · rw [refs_giveBack, map_fst_set]
    exact h.names
  · rw [active_giveBack]
    exact h.threads
  · rw [refs_giveBack]
    exact h.held_set hnew

/-- A reference takes up pointers. -/
theorem takeUp (h : s.Inv) (new : Slot) (hold : (r, old) ∈ s.refs) (hnone : old.counter? = none)
    (hnew : ∀ e c, new = .holds e c ∨ new = .released e c →
      s.ptr c = some e ∧ (s.heap e).isSome ∧ ¬ s.Dying c) : (s.takeUp r new).Inv := by
  refine h.of_sameCache (sameCache_takeUp s r new) ?_ ?_
    (counts_takeUp h.names h.counts hold hnone) ?_
  · rw [refs_takeUp, map_fst_set]
    exact h.names
  · rw [active_takeUp]
    exact h.threads
  · rw [refs_takeUp]
    exact h.held_set hnew

/-- A reference is cleared. -/
theorem clear (h : s.Inv) (hold : (r, old) ∈ s.refs) : (s.giveBack r old .invalid).Inv := by
  refine h.giveBack .invalid hold rfl fun e c hpoints => ?_
  rcases hpoints with heq | heq <;> cases heq

/-- A reference that has been cleared. -/
theorem mem_of_clear (hold : (r, old) ∈ s.refs) :
    (r, Slot.invalid) ∈ (s.giveBack r old .invalid).refs := by
  rw [refs_giveBack]
  exact mem_set_iff.mpr (.inl ⟨rfl, rfl, mem_names hold⟩)

/-- A reference is made. -/
theorem construct (h : s.Inv) (hr : r ∉ s.refs.map Prod.fst) :
    Inv { s with refs := (r, .invalid) :: s.refs } := by
  refine h.of_sameCache ⟨rfl, fun _ => rfl, rfl, rfl, rfl, rfl, fun _ _ => Iff.rfl⟩
    (List.nodup_cons.mpr ⟨hr, h.names⟩) h.threads ?_ ?_
  · intro c entry hentry
    rw [h.counts c entry hentry, holders, holders, count_cons]
    rfl
  · intro r' slot e c hslot hpoints
    rcases List.mem_cons.mp hslot with heq | hslot
    · cases heq
      rcases hpoints with heq | heq <;> cases heq
    · exact h.held r' slot e c hslot hpoints

/-- A reference that has been cleared goes away. -/
theorem erase (h : s.Inv) (hr : (r, Slot.invalid) ∈ s.refs) :
    Inv { s with refs := SortedMap.erase r s.refs } := by
  have hnames := SortedMap.erase_subset r s.refs
  have honly : ∀ slot, (r, slot) ∈ s.refs → slot = .invalid := fun slot hslot =>
    congrArg Prod.snd (List.inj_on_of_nodup_map h.names hslot hr rfl)
  refine h.of_sameCache ⟨rfl, fun _ => rfl, rfl, rfl, rfl, rfl, fun _ _ => Iff.rfl⟩
    ?_ h.threads ?_ fun r' slot e c hslot => h.held r' slot e c (hnames hslot)
  · exact h.names.sublist ((SortedMap.erase_sublist r s.refs).map Prod.fst)
  · intro c entry hentry
    rw [h.counts c entry hentry, holders, holders, count_erase]
    intro slot hslot
    rw [honly slot hslot]
    rfl

/-! ### Steps of the cache -/

/-- An Entity that is there may be read. -/
theorem readEntity_eq (he : (s.heap e).isSome) : s.readEntity e = s := by
  obtain ⟨x, hx⟩ := Option.isSome_iff_exists.mp he
  rw [readEntity, hx]
  simp

/-- A thread that is not deleting anything gets another phase that does not. -/
theorem of_active (h : s.Inv) {active : List (CacheThread × CachePhase)}
    (hthreads : (active.map Prod.fst).Nodup)
    (hdying : ∀ p, p.2.dying?.isSome → (p ∈ active ↔ p ∈ s.active)) :
    Inv { s with active := active } :=
  h.of_sameCache ⟨rfl, fun _ => rfl, rfl, rfl, rfl, rfl, hdying⟩ h.names hthreads h.counts h.held

/-- A thread begins an operation. -/
theorem begin (h : s.Inv) (phase : CachePhase) (ht : t ∉ s.active.map Prod.fst)
    (hphase : phase.dying? = none) : Inv { s with active := (t, phase) :: s.active } := by
  refine h.of_active (List.nodup_cons.mpr ⟨ht, h.threads⟩) fun p hp => ?_
  rw [List.mem_cons]
  refine or_iff_right fun heq => ?_
  rw [heq, hphase] at hp
  cases hp

/-- The phases of the other threads. -/
theorem mem_erase (h : s.Inv) {p q : CacheThread × CachePhase} :
    p ∈ s.active.erase q ↔ p ≠ q ∧ p ∈ s.active :=
  (h.threads.of_map).mem_erase_iff

/-- No reference points to the Entity of a cache entry. -/
def Unheld (s : CacheSystem) (c : Address) : Prop :=
  ∀ r slot e, (r, slot) ∈ s.refs → slot ≠ .holds e c ∧ slot ≠ .released e c

/-- A thread is about to free an Entity that nothing holds. -/
theorem beginDelete (h : s.Inv) {id : Id} (ht : t ∉ s.active.map Prod.fst)
    (hunlocked : s.Unlocked id.siteId) (hc : (id, c) ∈ s.cached) (hunheld : Unheld s c) :
    Inv { s with active := (t, .deletingEntity id c) :: s.active } := by
  have hlocked : ∀ p ∈ s.active, ∀ id' c', p.2.dying? = some (id', c') →
      id'.siteId ≠ id.siteId := by
    intro p hp id' c' hid' hsite
    have hlocks := hunlocked p hp
    rw [CachePhase.locks, hid', Option.any_some, hsite, decide_eq_false_iff_not] at hlocks
    exact hlocks rfl
  refine { h with
    threads := List.nodup_cons.mpr ⟨ht, h.threads⟩
    held := fun r slot e c' hslot hpoints => ?_
    dying_lock := fun p hp q hq id₁ c₁ id₂ c₂ hid₁ hid₂ hsite => ?_
    dying_cached := fun p hp entry hentry => ?_
    alive := fun id' c' hid' => ?_
    not_owned := fun t' id' c' ht' => ?_ }
  · obtain ⟨hptr, hsome, hnot⟩ := h.held r slot e c' hslot hpoints
    refine ⟨hptr, hsome, ?_⟩
    rintro ⟨p, hp, id', hid'⟩
    rcases List.mem_cons.mp hp with rfl | hp
    · cases hid'
      rcases hpoints with heq | heq
      · exact (hunheld r slot e hslot).1 heq
      · exact (hunheld r slot e hslot).2 heq
    · exact hnot ⟨p, hp, id', hid'⟩
  · rcases List.mem_cons.mp hp with rfl | hp
    · cases hid₁
      rcases List.mem_cons.mp hq with rfl | hq
      · rfl
      · exact absurd hsite.symm (hlocked q hq id₂ c₂ hid₂)
    · rcases List.mem_cons.mp hq with rfl | hq
      · cases hid₂
        exact absurd hsite (hlocked p hp id₁ c₁ hid₁)
      · exact h.dying_lock p hp q hq id₁ c₁ id₂ c₂ hid₁ hid₂ hsite
  · rcases List.mem_cons.mp hp with rfl | hp
    · cases hentry
      exact hc
    · exact h.dying_cached p hp entry hentry
  · obtain ⟨e, he, halive⟩ := h.alive id' c' hid'
    exact ⟨e, he, fun hnot => halive fun t' ht' => hnot t' (List.mem_cons_of_mem _ ht')⟩
  · rcases List.mem_cons.mp ht' with heq | ht'
    · cases heq
    · exact h.not_owned t' id' c' ht'

/-- A thread is at the end of an operation. -/
theorem finish (h : s.Inv) (t : CacheThread) (phase : CachePhase) (hphase : phase.dying? = none) :
    Inv { s with active := s.active.erase (t, phase) } := by
  refine h.of_active (h.threads.sublist (List.erase_sublist.map Prod.fst)) fun p hp => ?_
  rw [h.mem_erase]
  refine and_iff_right fun heq => ?_
  rw [heq, hphase] at hp
  cases hp

/-- An Entity is changed or saved. -/
theorem setDirty (h : s.Inv) (e : Address) (dirty : Bool) :
    Inv { s with
      heap := update s.heap e ((s.heap e).map fun x => { x with dirty := dirty }) } := by
  set heap := update s.heap e ((s.heap e).map fun x => { x with dirty := dirty })
  have hmap : ∀ a, (heap a).map EntityObject.id = (s.heap a).map EntityObject.id := by
    intro a
    change (update s.heap e _ a).map EntityObject.id = (s.heap a).map EntityObject.id
    by_cases ha : a = e
    · subst ha
      rw [update_self, Option.map_map]
      rfl
    · rw [update_of_ne ha]
  have hsome : ∀ a, (heap a).isSome = (s.heap a).isSome := fun a => by
    rw [← Option.isSome_map, hmap, Option.isSome_map]
  refine ⟨h.names, h.threads, h.counts, fun r slot e' c hslot hpoints => ?_, h.dying_lock,
    h.dying_cached, fun id c hid => ?_, h.cached_ids, h.cached_counters, h.ptr_cached, h.ptr_inj,
    fun a ha => ?_, h.ptr_lt, h.owned_cached, h.not_owned, h.not_freedRead⟩
  · obtain ⟨hptr, hheap, hdying⟩ := h.held r slot e' c hslot hpoints
    exact ⟨hptr, (hsome e').trans hheap, hdying⟩
  · obtain ⟨e', he', halive⟩ := h.alive id c hid
    refine ⟨e', he', fun hnot => ?_⟩
    obtain ⟨x, hx, hxid⟩ := halive hnot
    have hfound : (heap e').map EntityObject.id = some id := by
      rw [hmap, hx, Option.map_some, hxid]
    exact Option.map_eq_some_iff.mp hfound
  · obtain ⟨hcounter, hheap⟩ := h.fresh a ha
    have hnone : (heap a).map EntityObject.id = none := by rw [hmap, hheap, Option.map_none]
    exact ⟨hcounter, Option.map_eq_none_iff.mp hnone⟩

/-- A cache entry that is being deleted. -/
theorem unheld_of_dying (h : s.Inv) (hc : s.Dying c) : Unheld s c := by
  intro r slot e hslot
  constructor
  · exact fun heq => (h.held r slot e c hslot (.inl heq)).2.2 hc
  · exact fun heq => (h.held r slot e c hslot (.inr heq)).2.2 hc

/-- A cache entry that has counted no reference. -/
theorem unheld_of_refCount (h : s.Inv) {entry : CachedEntity} (hentry : s.counters c = some entry)
    (hzero : entry.refCount = 0) (hreleased : s.NotReleased c) : Unheld s c := by
  intro r slot e hslot
  constructor
  · rintro rfl
    have hholders : s.holders c = 0 := (h.counts c entry hentry).symm.trans hzero
    have hcounted := count_eq_zero.mp hholders r _ hslot
    rw [Slot.counted, Slot.counter?, decide_eq_false_iff_not] at hcounted
    exact hcounted rfl
  · rintro rfl
    exact hreleased _ hslot rfl

theorem counted_eq_false (h : slot.counter? ≠ some c) : slot.counted c = false := decide_eq_false h

/-- A cache entry without references has the count zero. -/
theorem refCount_eq_zero (h : s.Inv) {entry : CachedEntity} (hentry : s.counters c = some entry)
    (hunheld : Unheld s c) : entry.refCount = 0 := by
  rw [h.counts c entry hentry, holders, count_eq_zero]
  intro r slot hslot
  refine counted_eq_false fun heq => ?_
  cases slot with
  | holds e c' => exact (hunheld r _ e hslot).1 (congrArg _ (Option.some.inj heq))
  | invalid => cases heq
  | released e c' => cases heq

/-- The cache entry of an ID. -/
theorem cached_inj (h : s.Inv) {id : Id} {c' : Address} (hc : (id, c) ∈ s.cached)
    (hc' : (id, c') ∈ s.cached) : c = c' :=
  congrArg Prod.snd (List.inj_on_of_nodup_map h.cached_ids hc hc' rfl)

/-- The ID of a cache entry. -/
theorem cached_id_inj (h : s.Inv) {id id' : Id} (hc : (id, c) ∈ s.cached)
    (hc' : (id', c) ∈ s.cached) : id = id' :=
  congrArg Prod.fst (List.inj_on_of_nodup_map h.cached_counters hc hc' rfl)

/-- In a site whose mutex is free nothing is being deleted. -/
theorem not_dying (h : s.Inv) {id : Id} (hunlocked : s.Unlocked id.siteId)
    (hc : (id, c) ∈ s.cached) : ¬ s.Dying c := by
  rintro ⟨p, hp, id', hdying⟩
  obtain rfl := h.cached_id_inj hc (h.dying_cached p hp _ hdying)
  have hlocks : p.2.locks id.siteId = true := by
    rw [CachePhase.locks, hdying]
    exact decide_eq_true rfl
  exact absurd (hunlocked p hp) (by rw [hlocks]; exact nofun)

/-- An Entity of a site whose mutex is free has not been freed. -/
theorem alive_of_unlocked (h : s.Inv) {id : Id} (hunlocked : s.Unlocked id.siteId)
    (hc : (id, c) ∈ s.cached) : ∃ e x, s.ptr c = some e ∧ s.heap e = some x ∧ x.id = id := by
  obtain ⟨e, he, halive⟩ := h.alive id c hc
  obtain ⟨x, hx, hid⟩ := halive fun t ht => h.not_dying hunlocked hc ⟨_, ht, id, rfl⟩
  exact ⟨e, x, he, hx, hid⟩

/-- A cache entry that nothing holds goes away, and with it, or before it, its Entity. -/
theorem remove (h : s.Inv) {s' : CacheSystem} {id : Id} {c e : Address}
    (hc : (id, c) ∈ s.cached) (hptr : s.ptr c = some e) (hunheld : Unheld s c)
    (hrefs : s'.refs = s.refs) (hcounters : s'.counters = update s.counters c none)
    (hheap : ∀ a, a ≠ e → s'.heap a = s.heap a) (hheap' : s'.heap e = none ∨ s'.heap e = s.heap e)
    (hnext : s'.nextAddress = s.nextAddress)
    (howned : ∀ id', s'.owned id' = if id' = id then none else s.owned id')
    (hcached : s'.cached = SortedMap.erase id s.cached)
    (hactive : ∀ p, p ∈ s'.active ↔ p ∈ s.active ∧ p.2.dying? ≠ some (id, c))
    (hthreads : (s'.active.map Prod.fst).Nodup) (hfreedRead : s'.freedRead = false) : s'.Inv := by
  have hcounter : ∀ c' entry, s'.counters c' = some entry → c' ≠ c ∧ s.counters c' = some entry := by
    intro c' entry hentry
    rw [hcounters] at hentry
    by_cases heq : c' = c
    · rw [heq, update_self] at hentry
      cases hentry
    · exact ⟨heq, (update_of_ne heq ..).symm.trans hentry⟩
  have hptr' : ∀ c' e', s'.ptr c' = some e' ↔ c' ≠ c ∧ s.ptr c' = some e' := by
    intro c' e'
    rw [ptr_eq_some, ptr_eq_some]
    constructor
    · rintro ⟨entry, hentry, heq⟩
      obtain ⟨hne, hentry⟩ := hcounter c' entry hentry
      exact ⟨hne, entry, hentry, heq⟩
    · rintro ⟨hne, entry, hentry, heq⟩
      exact ⟨entry, by rw [hcounters, update_of_ne hne]; exact hentry, heq⟩
  have hmem : ∀ id' c', (id', c') ∈ s'.cached ↔ id' ≠ id ∧ (id', c') ∈ s.cached := by
    intro id' c'
    rw [hcached, SortedMap.mem_erase]
  have hother : ∀ id' c', (id', c') ∈ s.cached → id' ≠ id → c' ≠ c := by
    rintro id' c' hid' hne rfl
    exact hne (h.cached_id_inj hid' hc)
  constructor
  case names => exact hrefs ▸ h.names
  case threads => exact hthreads
  case counts =>
    intro c' entry hentry
    rw [h.counts c' entry (hcounter c' entry hentry).2, holders, holders, hrefs]
  case held =>
    intro r slot e' c' hslot hpoints
    rw [hrefs] at hslot
    obtain ⟨hp, hsome, hdying⟩ := h.held r slot e' c' hslot hpoints
    have hne : c' ≠ c := by
      rintro rfl
      obtain ⟨hholds, hreleased⟩ := hunheld r slot e' hslot
      rcases hpoints with heq | heq
      · exact hholds heq
      · exact hreleased heq
    have hne' : e' ≠ e := by
      rintro rfl
      exact hne (h.ptr_inj c' c e' hp hptr)
    refine ⟨(hptr' c' e').mpr ⟨hne, hp⟩, by rw [hheap e' hne']; exact hsome, ?_⟩
    rintro ⟨p, hp', id', hid'⟩
    exact hdying ⟨p, ((hactive p).mp hp').1, id', hid'⟩
  case dying_lock =>
    intro p hp q hq
    exact h.dying_lock p ((hactive p).mp hp).1 q ((hactive q).mp hq).1
  case dying_cached =>
    rintro p hp ⟨id', c'⟩ hentry
    obtain ⟨hp, hne⟩ := (hactive p).mp hp
    have hin := h.dying_cached p hp _ hentry
    refine (hmem id' c').mpr ⟨?_, hin⟩
    rintro rfl
    obtain rfl := h.cached_inj hin hc
    exact hne hentry
  case alive =>
    intro id' c' hid'
    obtain ⟨hne, hid'⟩ := (hmem id' c').mp hid'
    obtain ⟨e', he', halive⟩ := h.alive id' c' hid'
    have hc' := hother id' c' hid' hne
    have hne' : e' ≠ e := by
      rintro rfl
      exact hc' (h.ptr_inj c' c e' he' hptr)
    refine ⟨e', (hptr' c' e').mpr ⟨hc', he'⟩, fun hnot => ?_⟩
    rw [hheap e' hne']
    refine halive fun t ht => hnot t ((hactive _).mpr ⟨ht, fun heq => ?_⟩)
    exact hne (congrArg Prod.fst (Option.some.inj heq))
  case cached_ids =>
    rw [hcached]
    exact h.cached_ids.sublist ((SortedMap.erase_sublist id s.cached).map Prod.fst)
  case cached_counters =>
    rw [hcached]
    exact h.cached_counters.sublist ((SortedMap.erase_sublist id s.cached).map Prod.snd)
  case ptr_cached =>
    intro c' e' he'
    obtain ⟨hne, he'⟩ := (hptr' c' e').mp he'
    obtain ⟨⟨id', c''⟩, hid', rfl⟩ := List.mem_map.mp (h.ptr_cached c' e' he')
    refine List.mem_map.mpr ⟨(id', c''), (hmem id' c'').mpr ⟨?_, hid'⟩, rfl⟩
    rintro rfl
    exact hne (h.cached_inj hid' hc)
  case ptr_inj =>
    intro c₁ c₂ e' h₁ h₂
    exact h.ptr_inj c₁ c₂ e' ((hptr' c₁ e').mp h₁).2 ((hptr' c₂ e').mp h₂).2
  case fresh =>
    intro a ha
    rw [hnext] at ha
    obtain ⟨hnone, hnone'⟩ := h.fresh a ha
    constructor
    · rw [hcounters]
      by_cases heq : a = c
      · rw [heq, update_self]
      · rw [update_of_ne heq, hnone]
    · by_cases heq : a = e
      · subst heq
        exact hheap'.elim (fun heq => heq) fun heq => heq.trans hnone'
      · rw [hheap a heq, hnone']
  case ptr_lt =>
    intro c' e' he'
    rw [hnext]
    exact h.ptr_lt c' e' ((hptr' c' e').mp he').2
  case owned_cached =>
    intro id' e' he'
    rw [howned, Option.ite_none_left_eq_some] at he'
    rw [hcached, SortedMap.mem_keys_erase]
    exact ⟨he'.1, h.owned_cached id' e' he'.2⟩
  case not_owned =>
    intro t id' c' ht
    rw [howned, h.not_owned t id' c' ((hactive _).mp ht).1, ite_self]
  case not_freedRead => exact hfreedRead

/-! ### Entities that are freed -/

/-- `delete_entity_mem` frees the Entity, if the backend has it. -/
theorem deleteEntityMem_eq {x : EntityObject} (hx : s.heap e = some x) :
    ∃ heap owned, s.deleteEntityMem e = { s with heap := heap, owned := owned } ∧
      (∀ a, a ≠ e → heap a = s.heap a) ∧ (heap e = none ∨ heap e = s.heap e) ∧
      ∀ id, owned id = if id = x.id then none else s.owned id := by
  have hread : s.readEntity e = s := readEntity_eq (by rw [hx]; rfl)
  rw [deleteEntityMem, hread, hx]
  dsimp only
  cases howned : s.owned x.id with
  | none =>
    refine ⟨s.heap, s.owned, rfl, fun _ _ => rfl, .inr hx, fun id => ?_⟩
    split
    · rename_i heq
      rw [heq, howned]
    · rfl
  | some _ =>
    refine ⟨_, _, rfl, fun a ha => update_of_ne ha .., ?_, fun id => ?_⟩
    · exact .inl (update_self ..)
    · exact update_apply ..

/-- The Entity of a cache entry that is about to be freed. -/
theorem alive_of_deletingEntity (h : s.Inv) {id : Id} (ht : (t, .deletingEntity id c) ∈ s.active) :
    ∃ e x, s.ptr c = some e ∧ s.heap e = some x ∧ x.id = id := by
  obtain ⟨e, he, halive⟩ := h.alive id c (h.dying_cached _ ht _ rfl)
  obtain ⟨x, hx, hid⟩ := halive fun t' ht' => by
    have heq := h.dying_lock _ ht _ ht' id c id c rfl rfl rfl
    cases heq
  exact ⟨e, x, he, hx, hid⟩

/-- A thread goes on to another phase. -/
theorem nodup_replace (h : s.Inv) {phase : CachePhase} (phase' : CachePhase)
    (ht : (t, phase) ∈ s.active) :
    (((t, phase') :: s.active.erase (t, phase)).map Prod.fst).Nodup := by
  refine List.nodup_cons.mpr ⟨fun hmem => ?_, ?_⟩
  · obtain ⟨p, hp, heq⟩ := List.mem_map.mp hmem
    obtain ⟨hne, hp⟩ := h.mem_erase.mp hp
    exact hne (List.inj_on_of_nodup_map h.threads hp ht heq)
  · exact h.threads.sublist (List.erase_sublist.map Prod.fst)

/-- An Entity that nothing holds is freed, and its cache entry is still there. -/
theorem freeEntity (h : s.Inv) {id : Id} {entry : CachedEntity}
    (ht : (t, .deletingEntity id c) ∈ s.active) (hentry : s.counters c = some entry) :
    Inv { s.deleteEntityMem entry.entityPtr with
      active := (t, .deletingEntry id c) :: s.active.erase (t, .deletingEntity id c) } ∧
    s.FreesUnheld (s.deleteEntityMem entry.entityPtr) := by
  obtain ⟨e, x, he, hx, rfl⟩ := h.alive_of_deletingEntity ht
  obtain rfl : entry.entityPtr = e := by
    rw [ptr, hentry] at he
    exact Option.some.inj he
  obtain ⟨heap, owned, heq, hheap, hheap', howned⟩ := deleteEntityMem_eq hx
  have hunheld := h.unheld_of_dying ⟨_, ht, x.id, rfl⟩
  have hpoints : ∀ r slot e c', (r, slot) ∈ s.refs → slot = .holds e c' ∨ slot = .released e c' →
      e ≠ entry.entityPtr := by
    rintro r slot e c' hslot hpoints rfl
    have hptr := (h.held r slot _ c' hslot hpoints).1
    obtain rfl := h.ptr_inj c' c _ hptr he
    rcases hpoints with rfl | rfl
    · exact (hunheld r _ _ hslot).1 rfl
    · exact (hunheld r _ _ hslot).2 rfl
  have hphase : ∀ p ∈ (t, .deletingEntry x.id c) :: s.active.erase (t, .deletingEntity x.id c),
      ∃ q ∈ s.active, q.1 = p.1 ∧ q.2.dying? = p.2.dying? := by
    intro p hp
    rcases List.mem_cons.mp hp with rfl | hp
    · exact ⟨_, ht, rfl, rfl⟩
    · exact ⟨p, List.mem_of_mem_erase hp, rfl, rfl⟩
  have hthreads := h.nodup_replace (.deletingEntry x.id c) ht
  have hdying : ∀ c', Dying { s with heap := heap, owned := owned, active :=
      (t, .deletingEntry x.id c) :: s.active.erase (t, .deletingEntity x.id c) } c' →
      s.Dying c' := by
    rintro c' ⟨p, hp, id, hid⟩
    obtain ⟨q, hq, -, hsame⟩ := hphase p hp
    exact ⟨q, hq, id, hsame.trans hid⟩
  rw [heq]
  refine ⟨?_, fun a ha hnone r c' hslot => ?_⟩
  · refine { h with
      threads := hthreads
      held := fun r slot e c' hslot hpoint => ?_
      dying_lock := fun p hp q hq id c id' c' hid hid' hsite => ?_
      dying_cached := fun p hp entry hp' => ?_
      alive := fun id c' hid => ?_
      fresh := fun a ha => ?_
      owned_cached := fun id e' he' => ?_
      not_owned := fun t' id c' ht' => ?_ }
    · obtain ⟨hptr, hsome, hnot⟩ := h.held r slot e c' hslot hpoint
      refine ⟨hptr, ?_, fun hd => hnot (hdying c' hd)⟩
      change (heap e).isSome
      rw [hheap e (hpoints r slot e c' hslot hpoint)]
      exact hsome
    · obtain ⟨p', hp', hthread, hdyings⟩ := hphase p hp
      obtain ⟨q', hq', hthread', hdyings'⟩ := hphase q hq
      have hsame := h.dying_lock p' hp' q' hq' id c id' c' (hdyings.trans hid)
        (hdyings'.trans hid') hsite
      refine List.inj_on_of_nodup_map hthreads hp hq ?_
      rw [← hthread, ← hthread', hsame]
    · obtain ⟨q, hq, -, hsame⟩ := hphase p hp
      exact h.dying_cached q hq entry (hsame.trans hp')
    · by_cases hcc : c' = c
      · subst hcc
        refine ⟨_, he, fun hnot => ?_⟩
        rw [h.cached_id_inj hid (h.dying_cached _ ht _ rfl)] at hnot
        exact absurd List.mem_cons_self (hnot t)
      · obtain ⟨e', he', halive⟩ := h.alive id c' hid
        refine ⟨e', he', fun hnot => ?_⟩
        have hne : e' ≠ entry.entityPtr := by
          rintro rfl
          exact hcc (h.ptr_inj c' c _ he' he)
        change ∃ y, heap e' = some y ∧ y.id = id
        rw [hheap e' hne]
        refine halive fun t' ht' => hnot t' (List.mem_cons_of_mem _ ?_)
        exact h.mem_erase.mpr ⟨nofun, ht'⟩
    · obtain ⟨hcounter, hnone⟩ := h.fresh a ha
      refine ⟨hcounter, ?_⟩
      by_cases hae : a = entry.entityPtr
      · subst hae
        rw [hnone] at hx
        cases hx
      · exact (hheap a hae).trans hnone
    · change owned id = some e' at he'
      rw [howned, Option.ite_none_left_eq_some] at he'
      exact h.owned_cached id e' he'.2
    · change owned id = none
      rw [howned]
      rcases List.mem_cons.mp ht' with heq | ht'
      · cases heq
        exact if_pos rfl
      · rw [h.not_owned t' id c' (List.mem_of_mem_erase ht'), ite_self]
  · by_cases hae : a = entry.entityPtr
    · exact hpoints r _ a c' hslot (.inl rfl) hae
    · have hkept : heap a = none := hnone
      rw [hheap a hae] at hkept
      rw [hkept] at ha
      cases ha

/-- A cache entry whose Entity has been freed goes away. -/
theorem deleteEntry (h : s.Inv) {id : Id} {entry : CachedEntity}
    (ht : (t, .deletingEntry id c) ∈ s.active) (hentry : s.counters c = some entry)
    (hlog : s.debugLogging = false) :
    Inv { s.destroyEntry entry c with
      cached := SortedMap.erase id s.cached
      active := s.active.erase (t, .deletingEntry id c) } := by
  have hunheld := h.unheld_of_dying ⟨_, ht, id, rfl⟩
  have hzero := h.refCount_eq_zero hentry hunheld
  have hread : s.destroyEntry entry c =
      { s with counters := update s.counters c none } := by
    rw [destroyEntry, hzero]
    simp [hlog]
  rw [hread]
  refine h.remove (h.dying_cached _ ht _ rfl) (ptr_eq_some.mpr ⟨entry, hentry, rfl⟩) hunheld rfl
    rfl (fun _ _ => rfl) (.inr rfl) rfl (fun id' => ?_) rfl (fun p => ?_)
    (h.threads.sublist (List.erase_sublist.map Prod.fst)) h.not_freedRead
  · change s.owned id' = _
    split
    · rename_i heq
      rw [heq]
      exact h.not_owned t id c ht
    · rfl
  · change p ∈ s.active.erase _ ↔ _
    rw [h.mem_erase]
    constructor
    · rintro ⟨hne, hp⟩
      exact ⟨hp, fun hp' => hne (h.dying_lock p hp _ ht id c id c hp' rfl rfl)⟩
    · rintro ⟨hp, hne⟩
      exact ⟨fun heq => hne (heq ▸ rfl), hp⟩

/-- An entry of a cache that goes away: nothing holds it. -/
theorem destroyCached (h : s.Inv) {entry : Id × Address} (hc : entry ∈ s.cached)
    (hunlocked : s.Unlocked entry.1.siteId) (hunheld : Unheld s entry.2) :
    (s.destroyCached entry).Inv ∧ s.FreesUnheld (s.destroyCached entry) ∧
      (s.destroyCached entry).refs = s.refs ∧ (s.destroyCached entry).active = s.active ∧
      (s.destroyCached entry).cached = SortedMap.erase entry.1 s.cached := by
  obtain ⟨id, c⟩ := entry
  obtain ⟨e, x, he, hx, rfl⟩ := h.alive_of_unlocked hunlocked hc
  obtain ⟨counter, hcounter, rfl⟩ := ptr_eq_some.mp he
  have hread : s.readEntity counter.entityPtr = s := readEntity_eq (by rw [hx]; rfl)
  have hentry : s.destroyEntry counter c =
      { s with counters := update s.counters c none } := by
    rw [destroyEntry, hread, ite_self]
  have hx' : CacheSystem.heap { s with counters := update s.counters c none }
      counter.entityPtr = some x := hx
  obtain ⟨heap, owned, heq, hheap, hheap', howned⟩ := deleteEntityMem_eq hx'
  rw [CacheSystem.destroyCached, hcounter]
  dsimp only
  rw [hentry, heq]
  refine ⟨?_, fun a ha hnone r c' hslot => ?_, rfl, rfl, rfl⟩
  · refine h.remove hc he hunheld rfl rfl hheap hheap' rfl howned rfl (fun p => ?_) h.threads
      h.not_freedRead
    refine (and_iff_left_of_imp fun hp hdying => ?_).symm
    exact h.not_dying hunlocked hc ⟨p, hp, x.id, hdying⟩
  · by_cases hae : a = counter.entityPtr
    · subst hae
      obtain rfl := h.ptr_inj c' c _ (h.held r _ _ c' hslot (.inl rfl)).1 he
      exact (hunheld r _ _ hslot).1 rfl
    · have hkept : heap a = none := hnone
      rw [hheap a hae] at hkept
      change (s.heap a).isSome at ha
      have hkept' : s.heap a = none := hkept
      rw [hkept'] at ha
      cases ha

/-- A cache goes away, entry by entry. -/
theorem destroyAll {site : SiteIdType} : ∀ {entries : List (Id × Address)} {s : CacheSystem},
    s.Inv → s.Unlocked site → (entries.map Prod.fst).Nodup →
    (∀ entry ∈ entries, entry ∈ s.cached ∧ entry.1.siteId = site ∧ Unheld s entry.2) →
    (entries.foldl CacheSystem.destroyCached s).Inv ∧
      s.FreesUnheld (entries.foldl CacheSystem.destroyCached s) := by
  intro entries
  induction entries with
  | nil =>
    intro s h _ _ _
    refine ⟨h, fun a ha hnone => ?_⟩
    have hkept : s.heap a = none := hnone
    rw [hkept] at ha
    cases ha
  | cons entry entries ih =>
    intro s h hunlocked hnodup hentries
    obtain ⟨hc, rfl, hunheld⟩ := hentries entry List.mem_cons_self
    obtain ⟨hout, hnodup⟩ := List.nodup_cons.mp hnodup
    obtain ⟨h', hfrees, hrefs, hactive, hcached⟩ := h.destroyCached hc hunlocked hunheld
    have hunlocked' : (s.destroyCached entry).Unlocked entry.1.siteId := by
      intro p hp
      exact hunlocked p (hactive ▸ hp)
    obtain ⟨hinv, hfrees'⟩ := ih h' hunlocked' hnodup fun other hother => by
      obtain ⟨hc', hsite, hunheld'⟩ := hentries other (List.mem_cons_of_mem _ hother)
      refine ⟨?_, hsite, fun r slot e hslot => hunheld' r slot e (hrefs ▸ hslot)⟩
      rw [hcached]
      refine SortedMap.mem_erase.mpr ⟨fun heq => hout ?_, hc'⟩
      exact List.mem_map.mpr ⟨other, hother, heq⟩
    refine ⟨hinv, fun a ha hnone r c hslot => ?_⟩
    cases hmid : (s.destroyCached entry).heap a with
    | none => exact hfrees a ha hmid r c hslot
    | some x => exact hfrees' a (by rw [hmid]; rfl) hnone r c (hrefs ▸ hslot)

/-- `~SiteCache`, when nothing is referenced. -/
theorem destroySite (h : s.Inv) {site : SiteIdType} (hunlocked : s.Unlocked site)
    (hzero : ∀ entry ∈ s.cached, entry.1.siteId = site →
      (s.counters entry.2).any (·.refCount = 0) = true)
    (hreleased : ∀ entry ∈ s.cached, entry.1.siteId = site → s.NotReleased entry.2) :
    (s.destroySite site).Inv ∧ s.FreesUnheld (s.destroySite site) := by
  refine destroyAll h hunlocked (h.cached_ids.sublist (List.filter_sublist.map Prod.fst)) ?_
  intro entry hentry
  obtain ⟨hc, hsite⟩ := List.mem_filter.mp hentry
  have hsite := of_decide_eq_true hsite
  have hcount := hzero entry hc hsite
  cases hcounter : s.counters entry.2 with
  | none =>
    rw [hcounter] at hcount
    cases hcount
  | some counter =>
    rw [hcounter] at hcount
    exact ⟨hc, hsite, h.unheld_of_refCount hcounter (of_decide_eq_true hcount)
      (hreleased entry hc hsite)⟩

/-! ### Entities that are loaded -/

/-- An Entity is read from the database, and gets a cache entry. -/
theorem load (h : s.Inv) {id : Id} (hid : id ∉ s.cached.map Prod.fst) :
    Inv { s with
      heap := update s.heap s.nextAddress (some ⟨id, false⟩)
      counters := update s.counters (s.nextAddress + 1) (some ⟨0, s.nextAddress⟩)
      nextAddress := s.nextAddress + 2
      owned := update s.owned id (some s.nextAddress)
      cached := (id, s.nextAddress + 1) :: s.cached } := by
  set n := s.nextAddress with hn
  obtain ⟨-, hheap⟩ := h.fresh n (Nat.le_refl n)
  obtain ⟨hcounter, -⟩ := h.fresh (n + 1) (Nat.le_succ n)
  have hptr : s.ptr (n + 1) = none := by rw [ptr, hcounter]; rfl
  have hne : ∀ c e, s.ptr c = some e → c ≠ n + 1 ∧ e ≠ n := by
    intro c e he
    constructor
    · rintro rfl
      rw [hptr] at he
      cases he
    · rintro rfl
      exact absurd (h.ptr_lt c _ he) (Nat.lt_irrefl _)
  have hptr' : ∀ c e, (update s.counters (n + 1) (some ⟨0, n⟩) c).map
      CachedEntity.entityPtr = some e ↔ c = n + 1 ∧ e = n ∨ s.ptr c = some e := by
    intro c e
    by_cases hc : c = n + 1
    · subst hc
      rw [update_self, hptr]
      simp [eq_comm]
    · rw [update_of_ne hc]
      simp [hc, ptr]
  have hold : ∀ e, (s.heap e).isSome → e ≠ n := by
    rintro e he rfl
    rw [hheap] at he
    cases he
  constructor
  case names => exact h.names
  case threads => exact h.threads
  case counts =>
    intro c entry hentry
    change update s.counters (n + 1) _ c = some entry at hentry
    by_cases hc : c = n + 1
    · subst hc
      rw [update_self] at hentry
      cases hentry
      refine (count_eq_zero.mpr fun r slot hslot => counted_eq_false fun heq => ?_).symm
      cases slot with
      | holds e c =>
        cases heq
        have hheld := (h.held r _ e _ hslot (.inl rfl)).1
        rw [hptr] at hheld
        cases hheld
      | invalid => cases heq
      | released e c => cases heq
    · rw [update_of_ne hc] at hentry
      exact h.counts c entry hentry
  case held =>
    intro r slot e c hslot hpoints
    obtain ⟨he, hsome, hdying⟩ := h.held r slot e c hslot hpoints
    refine ⟨(hptr' c e).mpr (.inr he), ?_, hdying⟩
    change (update s.heap n _ e).isSome
    rw [update_of_ne (hold e hsome)]
    exact hsome
  case dying_lock => exact h.dying_lock
  case dying_cached =>
    intro p hp entry hentry
    exact List.mem_cons_of_mem _ (h.dying_cached p hp entry hentry)
  case alive =>
    intro id' c hid'
    rcases List.mem_cons.mp hid' with heq | hid'
    · cases heq
      refine ⟨n, (hptr' _ n).mpr (.inl ⟨rfl, rfl⟩), fun _ => ⟨⟨id, false⟩, ?_, rfl⟩⟩
      exact update_self ..
    · obtain ⟨e, he, halive⟩ := h.alive id' c hid'
      refine ⟨e, (hptr' c e).mpr (.inr he), fun hnot => ?_⟩
      change ∃ x, update s.heap n _ e = some x ∧ x.id = id'
      rw [update_of_ne (hne c e he).2]
      exact halive hnot
  case cached_ids => exact List.nodup_cons.mpr ⟨hid, h.cached_ids⟩
  case cached_counters =>
    refine List.nodup_cons.mpr ⟨fun hmem => ?_, h.cached_counters⟩
    obtain ⟨entry, hentry, heq⟩ := List.mem_map.mp hmem
    obtain ⟨e, he, -⟩ := h.alive entry.1 entry.2 hentry
    exact (hne _ e he).1 heq
  case ptr_cached =>
    intro c e he
    rcases (hptr' c e).mp he with ⟨rfl, -⟩ | he
    · exact List.mem_cons_self
    · exact List.mem_cons_of_mem _ (h.ptr_cached c e he)
  case ptr_inj =>
    intro c c' e he he'
    rcases (hptr' c e).mp he with ⟨rfl, rfl⟩ | he
    · rcases (hptr' c' n).mp he' with ⟨rfl, -⟩ | he'
      · rfl
      · exact absurd rfl (hne c' n he').2
    · rcases (hptr' c' e).mp he' with ⟨rfl, rfl⟩ | he'
      · exact absurd rfl (hne c n he).2
      · exact h.ptr_inj c c' e he he'
  case fresh =>
    intro a ha
    have hbeyond : ∀ m b : ℕ, m + 2 ≤ b → m ≤ b ∧ b ≠ m + 1 ∧ b ≠ m := by omega
    obtain ⟨hle, hne₁, hne₀⟩ := hbeyond n a ha
    obtain ⟨hcounter', hheap'⟩ := h.fresh a hle
    constructor
    · exact (update_of_ne hne₁ ..).trans hcounter'
    · exact (update_of_ne hne₀ ..).trans hheap'
  case ptr_lt =>
    intro c e he
    change e < n + 2
    rcases (hptr' c e).mp he with ⟨-, rfl⟩ | he
    · exact Nat.lt_add_of_pos_right (Nat.zero_lt_two)
    · exact Nat.lt_add_right 2 (h.ptr_lt c e he)
  case owned_cached =>
    intro id' e he
    by_cases heq : id' = id
    · exact heq ▸ List.mem_cons_self
    · refine List.mem_cons_of_mem _ (h.owned_cached id' e ?_)
      exact (update_of_ne heq ..).symm.trans he
  case not_owned =>
    intro t id' c ht
    have hin := h.dying_cached _ ht _ rfl
    have hne' : id' ≠ id := by
      rintro rfl
      exact hid (List.mem_map.mpr ⟨_, hin, rfl⟩)
    exact (update_of_ne hne' ..).trans (h.not_owned t id' c ht)
  case not_freedRead => exact h.not_freedRead

/-- A reference gets the Entity of a cache entry that is not being deleted. -/
theorem setReference (h : s.Inv) (hold : (r, old) ∈ s.refs) (hptr : s.ptr c = some e)
    (hheap : (s.heap e).isSome) (hdying : ¬ s.Dying c) : (s.setReference r old e c).Inv := by
  rw [CacheSystem.setReference]
  split
  · exact h
  · have hsame := sameCache_giveBack s r old .invalid
    refine (h.clear hold).takeUp _ (mem_of_clear hold) rfl fun e' c' hpoints => ?_
    rw [hsame.ptr, hsame.heap, hsame.dying_iff]
    rcases hpoints with heq | heq
    · cases heq
      exact ⟨hptr, hheap, hdying⟩
    · cases heq

/-- What a reference is set to leaves the Entities alone. -/
theorem heap_setReference (s : CacheSystem) (r : RefName) (old : Slot) (e c : Address) :
    (s.setReference r old e c).heap = s.heap := by
  rw [CacheSystem.setReference]
  split
  · rfl
  · exact (sameCache_takeUp _ r _).heap.trans (sameCache_giveBack s r old .invalid).heap

theorem active_setReference (s : CacheSystem) (r : RefName) (old : Slot) (e c : Address) :
    (s.setReference r old e c).active = s.active := by
  rw [CacheSystem.setReference]
  split
  · rfl
  · exact (active_takeUp _ r _).trans (active_giveBack s r old .invalid)

/-- Entities stay where they are when one of them is changed. -/
theorem isSome_update_map (heap : Address → Option EntityObject) (e a : Address)
    (f : EntityObject → EntityObject) :
    (update heap e ((heap e).map f) a).isSome = (heap a).isSome := by
  by_cases h : a = e
  · subst h
    rw [update_self, Option.isSome_map]
  · rw [update_of_ne h]

theorem isSome_setAccessedTimestamp (s : CacheSystem) (e a : Address) :
    ((s.setAccessedTimestamp e).heap a).isSome = (s.heap a).isSome := isSome_update_map ..

/-- An Entity is changed by what reads it. -/
theorem setAccessedTimestamp (h : s.Inv) (he : (s.heap e).isSome) :
    (s.setAccessedTimestamp e).Inv := by
  rw [CacheSystem.setAccessedTimestamp, readEntity_eq he]
  exact h.setDirty e true

/-- `get_entity_ref` -/
theorem lookup (h : s.Inv) {id : Id} (exists? : Bool) (hslot : s.usable r = some slot)
    (hunlocked : s.Unlocked id.siteId) : (s.lookup r id exists?).Inv ∧
      (s.lookup r id exists?).active = s.active ∧
      ∀ a, (s.heap a).isSome → ((s.lookup r id exists?).heap a).isSome := by
  have hfind : SortedMap.find r s.refs = some slot := (Option.filter_eq_some_iff.mp hslot).1
  have hmem := mem_of_find hfind
  rw [CacheSystem.lookup, hfind, Option.getD_some]
  cases hcached : SortedMap.find id s.cached with
  | some c =>
    have hc := SortedMap.mem_of_find hcached
    obtain ⟨e, x, he, hx, -⟩ := h.alive_of_unlocked hunlocked hc
    obtain ⟨entry, hentry, rfl⟩ := ptr_eq_some.mp he
    simp only [hentry]
    refine ⟨h.setReference hmem he (by rw [hx]; rfl) (h.not_dying hunlocked hc),
      active_setReference .., fun a ha => ?_⟩
    rw [heap_setReference]
    exact ha
  | none =>
    have hout : id ∉ s.cached.map Prod.fst := fun hin => SortedMap.find_ne_none hin hcached
    have howned : s.owned id = none := by
      cases howned : s.owned id with
      | none => rfl
      | some e => exact absurd (h.owned_cached id e howned) hout
    cases exists? with
    | false =>
      simp only [getEntityDb, howned]
      exact ⟨h, rfl, fun _ ha => ha⟩
    | true =>
      have hload := h.load hout
      set n := s.nextAddress with hn
      set loaded : CacheSystem := { s with
        heap := update s.heap n (some ⟨id, false⟩)
        counters := update s.counters (n + 1) (some ⟨0, n⟩)
        nextAddress := n + 2
        owned := update s.owned id (some n)
        cached := (id, n + 1) :: s.cached } with hloaded
      have hx : loaded.heap n = some ⟨id, false⟩ := update_self ..
      have hptr : loaded.ptr (n + 1) = some n := by
        change (update s.counters (n + 1) _ (n + 1)).map CachedEntity.entityPtr = some n
        rw [update_self]
        rfl
      have hdying : ¬ loaded.Dying (n + 1) := by
        rintro ⟨p, hp, id', hid'⟩
        obtain ⟨e, he, -⟩ := h.alive _ _ (h.dying_cached p hp _ hid')
        obtain ⟨entry, hentry, -⟩ := ptr_eq_some.mp he
        rw [(h.fresh (n + 1) (Nat.le_succ n)).1] at hentry
        cases hentry
      have hset := hload.setReference (r := r) hmem hptr (by rw [hx]; rfl) hdying
      have hadd : addCachedEntity { s with
          heap := loaded.heap
          nextAddress := n + 1
          owned := loaded.owned } id n = loaded := by
        rw [addCachedEntity, readEntity_eq (by change (loaded.heap n).isSome; rw [hx]; rfl)]
      have hfinal := hset.setAccessedTimestamp (e := n) (by rw [heap_setReference, hx]; rfl)
      simp only [getEntityDb, howned, if_true]
      have hactive : ((loaded.setReference r slot n (n + 1)).setAccessedTimestamp n).active =
          s.active := active_setReference loaded r slot n (n + 1)
      have hheap : ∀ a, (s.heap a).isSome →
          (((loaded.setReference r slot n (n + 1)).setAccessedTimestamp n).heap a).isSome := by
        intro a ha
        rw [isSome_setAccessedTimestamp, heap_setReference]
        change (update s.heap n _ a).isSome
        rw [update_apply]
        split
        · rfl
        · exact ha
      rw [← hadd] at hfinal hactive hheap
      exact ⟨hfinal, hactive, hheap⟩

/-! ### Every step -/

/-- A step that frees no Entity. -/
theorem freesUnheld_of_isSome (hheap : ∀ a, (s.heap a).isSome → (s'.heap a).isSome) :
    s.FreesUnheld s' := by
  intro a ha hnone
  have hkept := hheap a ha
  rw [hnone] at hkept
  cases hkept

/-- An operation on references frees no Entity. -/
theorem freesUnheld_of_heap_eq (hheap : s'.heap = s.heap) :
    s.FreesUnheld s' := freesUnheld_of_isSome fun a ha => by rw [hheap]; exact ha

/-- A step keeps the invariant, and frees what nothing holds. -/
theorem step (h : s.Inv) {a : CacheStep} (hok : s.ok a) (hstep : s.step a = some s') :
    s'.Inv ∧ s.FreesUnheld s' := by
  cases a with
  | construct r =>
    rw [CacheSystem.step, Option.ite_none_left_eq_some] at hstep
    obtain ⟨hr, hstep⟩ := hstep
    cases hstep
    exact ⟨h.construct hr, freesUnheld_of_heap_eq rfl⟩
  | copy r src =>
    rw [CacheSystem.step, Option.ite_none_left_eq_some, Option.map_eq_some_iff] at hstep
    obtain ⟨hr, slot, hslot, rfl⟩ := hstep
    obtain ⟨hsrc, hnot⟩ := usable_eq_some hslot
    have hnew := h.construct hr
    refine ⟨hnew.takeUp slot List.mem_cons_self rfl ?_,
      freesUnheld_of_heap_eq (sameCache_takeUp _ r slot).heap⟩
    intro e c hpoints
    exact hnew.held src slot e c (List.mem_cons_of_mem _ hsrc) hpoints
  | assign r src =>
    rw [CacheSystem.step, Option.ite_none_left_eq_some, Option.bind_eq_some_iff] at hstep
    obtain ⟨hne, old, hold, hstep⟩ := hstep
    obtain ⟨slot, hslot, rfl⟩ := Option.map_eq_some_iff.mp hstep
    obtain ⟨hmem, -⟩ := usable_eq_some hold
    obtain ⟨hsrc, -⟩ := usable_eq_some hslot
    have hcleared := h.clear hmem
    refine ⟨hcleared.takeUp slot (mem_of_clear hmem) rfl ?_, freesUnheld_of_heap_eq
      ((sameCache_takeUp _ r slot).heap.trans (sameCache_giveBack s r old _).heap)⟩
    intro e c hpoints
    refine hcleared.held src slot e c ?_ hpoints
    rw [refs_giveBack]
    exact mem_set_iff.mpr (.inr ⟨Ne.symm hne, hsrc⟩)
  | selfRelease t r =>
    rw [CacheSystem.step, Option.ite_none_left_eq_some, Option.map_eq_some_iff] at hstep
    obtain ⟨ht, old, hold, rfl⟩ := hstep
    obtain ⟨hmem, -⟩ := usable_eq_some hold
    cases old with
    | holds e c =>
      have hgiven := h.giveBack (.released e c) hmem rfl fun e' c' hpoints => by
        rcases hpoints with heq | heq
        · cases heq
        · cases heq
          exact h.held r _ e c hmem (.inl rfl)
      exact ⟨hgiven.begin (.selfAssign r) ht rfl, freesUnheld_of_heap_eq rfl⟩
    | invalid => exact ⟨h, freesUnheld_of_heap_eq rfl⟩
    | released e c => exact ⟨h, freesUnheld_of_heap_eq rfl⟩
  | selfHold t r =>
    rw [CacheSystem.step, Option.ite_none_right_eq_some] at hstep
    obtain ⟨ht, hstep⟩ := hstep
    split at hstep
    · rename_i e c hfind
      cases hstep
      have hmem := mem_of_find hfind
      have htaken := h.takeUp (.holds e c) hmem rfl fun e' c' hpoints => by
        rcases hpoints with heq | heq
        · cases heq
          exact h.held r _ e c hmem (.inr rfl)
        · cases heq
      exact ⟨htaken.finish t (.selfAssign r) rfl, freesUnheld_of_heap_eq rfl⟩
    · cases hstep
  | clear r =>
    obtain ⟨old, hold, rfl⟩ := Option.map_eq_some_iff.mp hstep
    exact ⟨h.clear (usable_eq_some hold).1,
      freesUnheld_of_heap_eq (sameCache_giveBack s r old _).heap⟩
  | destruct r =>
    obtain ⟨old, hold, rfl⟩ := Option.map_eq_some_iff.mp hstep
    obtain ⟨hmem, -⟩ := usable_eq_some hold
    exact ⟨(h.clear hmem).erase (mem_of_clear hmem),
      freesUnheld_of_heap_eq (sameCache_giveBack s r old .invalid).heap⟩
  | use r dirty =>
    obtain ⟨slot, hslot, hstep⟩ := Option.bind_eq_some_iff.mp hstep
    obtain ⟨hmem, -⟩ := usable_eq_some hslot
    cases slot with
    | holds e c =>
      have hheap := (h.held r _ e c hmem (.inl rfl)).2.1
      cases hstep
      rw [readEntity_eq hheap]
      refine ⟨h.setDirty e dirty, freesUnheld_of_isSome fun a ha => ?_⟩
      exact (isSome_update_map s.heap e a _).trans ha
    | invalid => cases hstep
    | released e c => cases hstep
  | getClear t r id =>
    rw [CacheSystem.step, Option.ite_none_left_eq_some, Option.map_eq_some_iff] at hstep
    obtain ⟨ht, old, hold, rfl⟩ := hstep
    have hcleared := h.clear (usable_eq_some hold).1
    have hactive := active_giveBack s r old .invalid
    refine ⟨?_, freesUnheld_of_heap_eq (sameCache_giveBack s r old .invalid).heap⟩
    have hbegun := hcleared.begin (.getting r id) (by rw [hactive]; exact ht) rfl
    rw [hactive] at hbegun
    exact hbegun
  | getLookup t r id exists? =>
    rw [CacheSystem.step, Option.ite_none_right_eq_some, Option.map_eq_some_iff] at hstep
    obtain ⟨⟨-, hunlocked⟩, slot, hslot, rfl⟩ := hstep
    obtain ⟨hfound, hactive, hheap⟩ := h.lookup exists? hslot hunlocked
    refine ⟨?_, freesUnheld_of_isSome hheap⟩
    have hfinished := hfound.finish t (.getting r id) rfl
    rw [hactive] at hfinished
    exact hfinished
  | deleteCheck t id =>
    rw [CacheSystem.step, Option.ite_none_left_eq_some] at hstep
    obtain ⟨hnot, hstep⟩ := hstep
    obtain ⟨ht, hunlocked⟩ := not_or.mp hnot
    have hunlocked := not_not.mp hunlocked
    split at hstep
    · cases hstep
      exact ⟨h, freesUnheld_of_heap_eq rfl⟩
    · rename_i c hfind
      split at hstep
      · cases hstep
      · rename_i entry hentry
        split at hstep
        · cases hstep
          exact ⟨h, freesUnheld_of_heap_eq rfl⟩
        · rename_i hcount
          have hzero : entry.refCount = 0 := not_not.mp hcount
          have hc := SortedMap.mem_of_find hfind
          obtain ⟨e, x, he, hx, -⟩ := h.alive_of_unlocked hunlocked hc
          obtain rfl : entry.entityPtr = e := by
            rw [ptr, hentry] at he
            exact Option.some.inj he
          rw [readEntity_eq (by rw [hx]; rfl)] at hstep
          dsimp only at hstep
          split at hstep
          · cases hstep
            exact ⟨h, freesUnheld_of_heap_eq rfl⟩
          · rename_i hdirty
            cases hstep
            have hdeletable : s.Deletable c := by
              rw [Deletable, hentry, Option.any_some, hzero, Bool.eq_false_iff.mpr hdirty]
              rfl
            have hreleased := hok (id, c) hc rfl hdeletable
            exact ⟨h.beginDelete ht hunlocked hc (h.unheld_of_refCount hentry hzero hreleased),
              freesUnheld_of_heap_eq rfl⟩
  | deleteEntity t id c =>
    rw [CacheSystem.step, Option.ite_none_right_eq_some, Option.map_eq_some_iff] at hstep
    obtain ⟨ht, entry, hentry, rfl⟩ := hstep
    obtain ⟨hinv, hfrees⟩ := h.freeEntity ht hentry
    exact ⟨hinv, hfrees⟩
  | deleteEntry t id c =>
    rw [CacheSystem.step, Option.ite_none_right_eq_some, Option.map_eq_some_iff] at hstep
    obtain ⟨ht, entry, hentry, rfl⟩ := hstep
    refine ⟨h.deleteEntry ht hentry hok, freesUnheld_of_heap_eq ?_⟩
    change (s.destroyEntry entry c).heap = s.heap
    rw [destroyEntry]
    split <;> rfl
  | destroySite site =>
    rw [CacheSystem.step, Option.ite_none_right_eq_some] at hstep
    obtain ⟨⟨hunlocked, hzero⟩, hstep⟩ := hstep
    cases hstep
    exact h.destroySite hunlocked hzero hok
  | setLevel debugLogging =>
    cases hstep
    exact ⟨{ h with }, freesUnheld_of_heap_eq rfl⟩

/-- Nothing has been loaded yet. -/
theorem init : CacheSystem.init.Inv := by
  constructor <;> simp [CacheSystem.init, ptr]

end Inv

end CacheSystem

open CacheSystem

/-- **Counts are right, an Entity is freed when nothing holds it, and none is read
afterwards**, in every state of a run in which no cache entry is destroyed while debug messages
are logged, and none is found unused in the middle of an assignment of a reference to
itself. -/
theorem entityLifetime {s : CacheSystem} (h : Reachable step ok CacheSystem.init s) :
    s.Lifetime ∧ ∀ a s', s.ok a → s.step a = some s' → s.FreesUnheld s' := by
  have hinv : s.Inv := h.invariant Inv.init fun s a s' hs hok hstep => (hs.step hok hstep).1
  exact ⟨hinv.lifetime, fun a s' hok hstep => (hinv.step hok hstep).2⟩

/-- An Entity is loaded, two references hold it one after the other, and it is deleted. -/
def loadAndDelete (id : Id) : List CacheStep :=
  [.construct 0, .getClear 1 0 id, .getLookup 1 0 id true, .copy 1 0, .clear 0, .use 1 false,
    .clear 1, .deleteCheck 2 id, .deleteEntity 2 id 1, .deleteEntry 2 id 1]

theorem entityLifetime_loadAndDelete :
    ∃ s, Reachable step ok CacheSystem.init s ∧ s.cached = [] ∧ s.Lifetime := by
  obtain ⟨s, hs, hcached⟩ := Option.map_eq_some_iff.mp
    (show (run (guarded step ok) CacheSystem.init
      (.setLevel false :: loadAndDelete ⟨1, 5⟩)).map (·.cached) = some [] by decide +kernel)
  have hreach := reachable_of_run_guarded .init hs
  exact ⟨s, hreach, hcached, (entityLifetime hreach).1⟩

/-- With the logger as it starts, the destructor of the cache entry reads the freed Entity. -/
theorem entityLifetime_debug :
    ¬ ∀ s as, run step CacheSystem.init as = some s → s.Lifetime := by
  intro h
  obtain ⟨s, hs, hread⟩ := Option.map_eq_some_iff.mp
    (show (run step CacheSystem.init (loadAndDelete ⟨1, 5⟩)).map (·.freedRead) = some true by
      decide +kernel)
  have hnot := (h s _ hs).not_freedRead
  rw [hread] at hnot
  cases hnot

end Mutgos.DbInterface
