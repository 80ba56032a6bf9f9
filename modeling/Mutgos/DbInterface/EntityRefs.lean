import Mutgos.DbTypes.Id
import Mutgos.Lib.Slots

/-!
# References to cached Entities

`EntityRef`, `CachedEntity` and the part of `SiteCache` that loads and frees Entities, as
one system of threads.  Addresses are numbers that are never used twice, so a pointer to
something that was freed can be told from one to something new.

A critical section of `SiteCache::mutex` is one step, but for `delete_entity_cache`, which
looks at the count, frees the Entity, and destroys its cache entry; references of other
threads may be copied and released in between.  An operation on an `EntityRef` is one
step, but for two: `get_entity_ref` clears the reference before it takes the mutex, and an
assignment of a reference to itself gives its count back before it takes it again.  An
assignment of another reference is the same as clearing and then copying, as far as
others can see.  A reference is used by one thread at a time.
-/

namespace Mutgos.DbInterface

open DbTypes Function

/-- Where something is in memory. -/
abbrev Address := ℕ

/-- The name of an `EntityRef` variable. -/
abbrev RefName := ℕ

/-- A thread. -/
abbrev CacheThread := ℕ

structure CachedEntity where
  refCount : ℕ
  entityPtr : Address
  deriving DecidableEq, Repr

/-- What the cache reads of an Entity. -/
structure EntityObject where
  /-- Its ID. -/
  id : Id
  /-- `dirty_flag` -/
  dirty : Bool
  deriving DecidableEq, Repr

/-- The two pointers of an `EntityRef`. -/
inductive Slot where
  /-- Both are null. -/
  | invalid
  /-- It holds an Entity, and the cache entry has counted it. -/
  | holds (entity counter : Address)
  /-- It has given the count back and is about to take it again. -/
  | released (entity counter : Address)
  deriving DecidableEq, Repr

namespace Slot

/-- The cache entry that has counted a reference. -/
def counter? : Slot → Option Address
  | holds _ c => some c
  | _ => none

/-- Whether a cache entry has counted a reference. -/
def counted (c : Address) (slot : Slot) : Bool := slot.counter? = some c

/-- The cache entry of a reference that is in the middle of an assignment to itself. -/
def released? : Slot → Option Address
  | released _ c => some c
  | _ => none

/-- A reference that is in the middle of an assignment to itself. -/
def isReleased (slot : Slot) : Bool := slot.released?.isSome

end Slot

/-- Where a thread is in an operation that takes more than one step. -/
inductive CachePhase where
  /-- `get_entity_ref` has cleared its result. -/
  | getting (r : RefName) (id : Id)
  /-- `operator=` of a reference to itself has given the count back. -/
  | selfAssign (r : RefName)
  /-- `delete_entity_cache` has found that the Entity can be deleted. -/
  | deletingEntity (id : Id) (counter : Address)
  /-- `delete_entity_cache` has freed the Entity. -/
  | deletingEntry (id : Id) (counter : Address)
  deriving DecidableEq, Repr

namespace CachePhase

/-- The cache entry that is being deleted. -/
def dying? : CachePhase → Option (Id × Address)
  | deletingEntity id c | deletingEntry id c => some (id, c)
  | _ => none

/-- Whether `SiteCache::mutex` of the site is held. -/
def locks (site : SiteIdType) (phase : CachePhase) : Bool :=
  phase.dying?.any fun entry => entry.1.siteId = site

end CachePhase

/-- Entities in memory, their cache entries, and the references to them. -/
structure CacheSystem where
  /-- The Entities that have not been freed. -/
  heap : Address → Option EntityObject
  /-- The cache entries that have not been freed. -/
  counters : Address → Option CachedEntity
  /-- The next address. -/
  nextAddress : Address
  /-- `owned_entity_mem_map` of the database backend. -/
  owned : Id → Option Address
  /-- `cached_entities` of the sites. -/
  cached : List (Id × Address)
  /-- The `EntityRef` variables. -/
  refs : List (RefName × Slot)
  /-- The threads in the middle of an operation. -/
  active : List (CacheThread × CachePhase)
  /-- `Logger::get_level() <= debug` -/
  debugLogging : Bool
  /-- Whether an Entity has been read after it was freed. -/
  freedRead : Bool

namespace CacheSystem

/-- Nothing has been loaded.  The logger starts at its default level. -/
def init : CacheSystem := ⟨fun _ => none, fun _ => none, 0, fun _ => none, [], [], [], true, false⟩

/-- The Entity of a cache entry. -/
def ptr (s : CacheSystem) (c : Address) : Option Address := (s.counters c).map (·.entityPtr)

/-- How many references a cache entry should have counted. -/
def holders (s : CacheSystem) (c : Address) : ℕ := Slots.count (Slot.counted c) s.refs

/-- `mem_reference_added`, `mem_reference_removed` -/
def changeCount (s : CacheSystem) (f : ℕ → ℕ) (c : Address) : CacheSystem :=
  { s with
    counters := update s.counters c
      ((s.counters c).map fun entry => { entry with refCount := f entry.refCount }) }

/-- An Entity is read. -/
def readEntity (s : CacheSystem) (e : Address) : CacheSystem :=
  { s with freedRead := s.freedRead || (s.heap e).isNone }

/-! ### References -/

def releaseRef (s : CacheSystem) : Slot → CacheSystem
  | .holds _ c => s.changeCount (· - 1) c
  | _ => s

def holdRef (s : CacheSystem) : Slot → CacheSystem
  | .holds _ c => s.changeCount (· + 1) c
  | _ => s

/-- A reference gives its count back and gets other pointers. -/
def giveBack (s : CacheSystem) (r : RefName) (old new : Slot) : CacheSystem :=
  let s := s.releaseRef old
  { s with refs := Slots.set r new s.refs }

/-- A reference gets pointers and counts. -/
def takeUp (s : CacheSystem) (r : RefName) (new : Slot) : CacheSystem :=
  holdRef { s with refs := Slots.set r new s.refs } new

/-- `EntityRef::set_reference` -/
def setReference (s : CacheSystem) (r : RefName) (old : Slot) (entity counter : Address) :
    CacheSystem :=
  if old = .holds entity counter then s
  else (s.giveBack r old .invalid).takeUp r (.holds entity counter)

/-! ### The cache -/

/-- `~CachedEntity` -/
def destroyEntry (s : CacheSystem) (entry : CachedEntity) (c : Address) : CacheSystem :=
  -- what it logs names the Entity, for which the Entity is read
  let s := if entry.refCount ≠ 0 || s.debugLogging then s.readEntity entry.entityPtr else s
  { s with counters := update s.counters c none }

def deleteEntityMem (s : CacheSystem) (e : Address) : CacheSystem :=
  let s := s.readEntity e
  match s.heap e with
  | none => s
  | some entity =>
    match s.owned entity.id with
    | none => s
    | some _ => { s with
        owned := update s.owned entity.id none
        heap := update s.heap e none }

/-- `get_entity_ref`, for what is not in the cache: a cache entry for the Entity. -/
def addCachedEntity (s : CacheSystem) (id : Id) (e : Address) : CacheSystem :=
  let s := s.readEntity e
  { s with
    counters := update s.counters s.nextAddress (some ⟨0, e⟩)
    nextAddress := s.nextAddress + 1
    cached := (id, s.nextAddress) :: s.cached }

/-- `get_entity_db`: what the backend has in memory, or an Entity read from the database. -/
def getEntityDb (s : CacheSystem) (id : Id) (exists? : Bool) : Option (CacheSystem × Address) :=
  match s.owned id with
  | some e => some (s, e)
  | none =>
    if exists? then
      some ({ s with
        heap := update s.heap s.nextAddress (some ⟨id, false⟩)
        nextAddress := s.nextAddress + 1
        owned := update s.owned id (some s.nextAddress) }, s.nextAddress)
    else none

/-- `set_entity_accessed_timestamp` -/
def setAccessedTimestamp (s : CacheSystem) (e : Address) : CacheSystem :=
  let s := s.readEntity e
  { s with heap := update s.heap e ((s.heap e).map fun x => { x with dirty := true }) }

/-- `get_entity_ref`, from where it has the mutex. -/
def lookup (s : CacheSystem) (r : RefName) (id : Id) (exists? : Bool) : CacheSystem :=
  let old := (SortedMap.find r s.refs).getD .invalid
  match SortedMap.find id s.cached with
  | some c =>
    match s.counters c with
    | some entry => s.setReference r old entry.entityPtr c
    | none => s
  | none =>
    match s.getEntityDb id exists? with
    | none => s
    | some (s, e) =>
      let c := s.nextAddress
      ((s.addCachedEntity id e).setReference r old e c).setAccessedTimestamp e

/-- One entry in the loop of `~SiteCache`. -/
def destroyCached (s : CacheSystem) (entry : Id × Address) : CacheSystem :=
  match s.counters entry.2 with
  | none => s
  | some counter =>
    let s := (s.destroyEntry counter entry.2).deleteEntityMem counter.entityPtr
    { s with cached := SortedMap.erase entry.1 s.cached }

/-- `~SiteCache` -/
def destroySite (s : CacheSystem) (site : SiteIdType) : CacheSystem :=
  (s.cached.filter fun entry => entry.1.siteId = site).foldl destroyCached s

/-! ### Steps -/

/-- No thread has `SiteCache::mutex` of the site. -/
def Unlocked (s : CacheSystem) (site : SiteIdType) : Prop :=
  ∀ p ∈ s.active, p.2.locks site = false

instance (s : CacheSystem) (site : SiteIdType) : Decidable (s.Unlocked site) :=
  inferInstanceAs (Decidable (∀ p ∈ s.active, _))

/-- The contents of a reference that can be used. -/
def usable (s : CacheSystem) (r : RefName) : Option Slot :=
  (SortedMap.find r s.refs).filter fun slot => !slot.isReleased

end CacheSystem

/-- What a thread does. -/
inductive CacheStep where
  /-- `EntityRef()` -/
  | construct (r : RefName)
  /-- `EntityRef(rhs)` -/
  | copy (r src : RefName)
  /-- `operator=` of another reference -/
  | assign (r src : RefName)
  /-- `operator=` of the reference itself: `release_ref` -/
  | selfRelease (t : CacheThread) (r : RefName)
  /-- `operator=` of the reference itself: `hold_ref` -/
  | selfHold (t : CacheThread) (r : RefName)
  | clear (r : RefName)
  /-- `~EntityRef` -/
  | destruct (r : RefName)
  /-- The Entity is used through a reference to it, and changed or saved. -/
  | use (r : RefName) (dirty : Bool)
  /-- `get_entity_ref`, before it takes the mutex -/
  | getClear (t : CacheThread) (r : RefName) (id : Id)
  /-- `get_entity_ref`, with the mutex -/
  | getLookup (t : CacheThread) (r : RefName) (id : Id) (exists? : Bool)
  /-- `delete_entity_cache`, up to whether the Entity can be deleted -/
  | deleteCheck (t : CacheThread) (id : Id)
  /-- `delete_entity_cache`: `delete_entity_mem` -/
  | deleteEntity (t : CacheThread) (id : Id) (c : Address)
  /-- `delete_entity_cache`: `delete` of the cache entry -/
  | deleteEntry (t : CacheThread) (id : Id) (c : Address)
  /-- `~SiteCache`, when nothing is referenced -/
  | destroySite (site : SiteIdType)
  /-- `Logger::set_level` -/
  | setLevel (debugLogging : Bool)
  deriving DecidableEq, Repr

namespace CacheSystem

/-- One step. -/
def step (s : CacheSystem) : CacheStep → Option CacheSystem
  | .construct r =>
    if r ∈ s.refs.map Prod.fst then none else some { s with refs := (r, .invalid) :: s.refs }
  | .copy r src =>
    if r ∈ s.refs.map Prod.fst then none
    else (s.usable src).map fun slot =>
      takeUp { s with refs := (r, .invalid) :: s.refs } r slot
  | .assign r src =>
    if r = src then none
    else (s.usable r).bind fun old => (s.usable src).map fun slot =>
      (s.giveBack r old .invalid).takeUp r slot
  | .selfRelease t r =>
    if t ∈ s.active.map Prod.fst then none
    else (s.usable r).map fun
      | .holds e c =>
        { s.giveBack r (.holds e c) (.released e c) with active := (t, .selfAssign r) :: s.active }
      | _ => s
  | .selfHold t r =>
    if (t, .selfAssign r) ∈ s.active then
      match SortedMap.find r s.refs with
      | some (.released e c) =>
        some { s.takeUp r (.holds e c) with active := s.active.erase (t, .selfAssign r) }
      | _ => none
    else none
  | .clear r => (s.usable r).map fun old => s.giveBack r old .invalid
  | .destruct r => (s.usable r).map fun old =>
      let s := s.giveBack r old .invalid
      { s with refs := SortedMap.erase r s.refs }
  | .use r dirty => (s.usable r).bind fun
      | .holds e _ =>
        let s := s.readEntity e
        some { s with
          heap := update s.heap e ((s.heap e).map fun x => { x with dirty := dirty }) }
      | _ => none
  | .getClear t r id =>
    if t ∈ s.active.map Prod.fst then none
    else (s.usable r).map fun old =>
      { s.giveBack r old .invalid with active := (t, .getting r id) :: s.active }
  | .getLookup t r id exists? =>
    if (t, .getting r id) ∈ s.active ∧ s.Unlocked id.siteId then
      (s.usable r).map fun _ =>
        { s.lookup r id exists? with active := s.active.erase (t, .getting r id) }
    else none
  | .deleteCheck t id =>
    if t ∈ s.active.map Prod.fst ∨ ¬ s.Unlocked id.siteId then none
    else
      match SortedMap.find id s.cached with
      | none => some s
      | some c =>
        match s.counters c with
        | none => none
        | some entry =>
          if entry.refCount ≠ 0 then some s
          else
            let s := s.readEntity entry.entityPtr
            if (s.heap entry.entityPtr).any (·.dirty) then some s
            else some { s with active := (t, .deletingEntity id c) :: s.active }
  | .deleteEntity t id c =>
    if (t, .deletingEntity id c) ∈ s.active then
      (s.counters c).map fun entry =>
        { s.deleteEntityMem entry.entityPtr with
          active := (t, .deletingEntry id c) :: s.active.erase (t, .deletingEntity id c) }
    else none
  | .deleteEntry t id c =>
    if (t, .deletingEntry id c) ∈ s.active then
      (s.counters c).map fun entry =>
        { s.destroyEntry entry c with
          cached := SortedMap.erase id s.cached
          active := s.active.erase (t, .deletingEntry id c) }
    else none
  | .destroySite site =>
    if s.Unlocked site ∧ ∀ entry ∈ s.cached, entry.1.siteId = site →
        (s.counters entry.2).any (·.refCount = 0) then
      some (s.destroySite site)
    else none
  | .setLevel debugLogging => some { s with debugLogging := debugLogging }

end CacheSystem

end Mutgos.DbInterface
