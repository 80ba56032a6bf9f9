import Mathlib
import Mutgos.Lib.TransitionSystem

/-!
# The virtual heap of a thread

Every block is allocated with a header that has its size, and counted with it.  Both the size
with the header and what is in use wrap around at 2 ^ 64: a block of nearly that many bytes is
allocated as a few bytes, and one that is not granted can clear what has been counted.

## Main results

* `accounts_iff` — **what is in use is what the blocks and their headers take exactly in the runs
  in which the sums fit.**
-/

namespace Mutgos.Utilities

@[ext] structure MemHeapState where
  memInUse : UInt64
  maxMem : UInt64

namespace MemHeapState

def freeMem (h : MemHeapState) (size : UInt64) : MemHeapState :=
  if h.memInUse ≠ 0 then
    if size ≥ h.memInUse then { h with memInUse := 0 }
    else { h with memInUse := h.memInUse - size }
  else h

def allocMem (h : MemHeapState) (size : UInt64) (overrideMax : Bool) : Bool × MemHeapState :=
  let memInUse := h.memInUse + size
  if h.maxMem ≠ 0 ∧ memInUse > h.maxMem then
    (false, { h with memInUse := if overrideMax then memInUse else memInUse - size })
  else (true, { h with memInUse := memInUse })

end MemHeapState

/-- A block: the size in its header, and the bytes that the system has granted. -/
structure HeapBlock where
  size : UInt64
  bytes : UInt64
  deriving DecidableEq

/-- The heap state of a thread, and the blocks that have not been freed. -/
structure ThreadHeap where
  state : MemHeapState
  live : List HeapBlock

/-- The calls of one thread, and whether the system grants what it is asked for. -/
inductive HeapCall
  | memAlloc (size : UInt64) (granted : Bool)
  | memAllocNofail (size : UInt64) (granted : Bool)
  | memFree (block : HeapBlock)

namespace ThreadHeap

variable {s s' : ThreadHeap} {call : HeapCall} {size : UInt64} {granted : Bool}

def new (maxMem : UInt64) : ThreadHeap := ⟨⟨0, maxMem⟩, []⟩

/-- `malloc`, once the heap state has counted the block. -/
def malloc (s : ThreadHeap) (state : MemHeapState) (size : UInt64) (granted : Bool) :
    Option HeapBlock × ThreadHeap :=
  if granted then
    let block : HeapBlock := ⟨size, size + 8⟩
    (some block, ⟨state, block :: s.live⟩)
  else (none, { s with state := state.freeMem (size + 8) })

def memAlloc (s : ThreadHeap) (size : UInt64) (granted : Bool) : Option HeapBlock × ThreadHeap :=
  if size = 0 then (none, s)
  else
    let result := s.state.allocMem (size + 8) false
    if result.1 then s.malloc result.2 size granted else (none, { s with state := result.2 })

def memAllocNofail (s : ThreadHeap) (size : UInt64) (granted : Bool) :
    Option HeapBlock × ThreadHeap :=
  if size = 0 then (none, s)
  else s.malloc (s.state.allocMem (size + 8) true).2 size granted

/-- One call.  Only a block that has not been freed can be. -/
def step (s : ThreadHeap) : HeapCall → Option ThreadHeap
  | .memAlloc size granted => some (s.memAlloc size granted).2
  | .memAllocNofail size granted => some (s.memAllocNofail size granted).2
  | .memFree block =>
    if block ∈ s.live then
      some ⟨s.state.freeMem (block.size + 8), s.live.erase block⟩
    else none

/-- What the blocks and their headers take. -/
def taken (s : ThreadHeap) : ℕ := (s.live.map fun block => block.size.toNat + 8).sum

/-- What an allocation gives: nothing, and then nothing changes, or a block that is as large as it
is to be. -/
structure Allocates (s : ThreadHeap) (size : UInt64) (result : Option HeapBlock × ThreadHeap) :
    Prop where
  failed : result.1 = none → result.2 = s
  block : ∀ block, result.1 = some block → result.2.live = block :: s.live ∧ block.size = size ∧
    size.toNat + 8 ≤ block.bytes.toNat

/-- The accounting is exact, and an allocation fails only if there is no room for it. -/
def Accounts (s : ThreadHeap) (call : HeapCall) (s' : ThreadHeap) : Prop :=
  s'.state.memInUse.toNat = s'.taken ∧
    match call with
    | .memAlloc size granted => s.Allocates size (s.memAlloc size granted) ∧
      (size ≠ 0 → ((s.memAlloc size granted).1.isSome ↔ (s.state.maxMem = 0 ∨
        s.state.memInUse.toNat + size.toNat + 8 ≤ s.state.maxMem.toNat) ∧ granted))
    | .memAllocNofail size granted => s.Allocates size (s.memAllocNofail size granted)
    | .memFree _ => True

/-- The sum of what is in use and a new block fits, if the block is granted.  If it is not, the
block may be one whose size with the header wraps around. -/
def SumFits (s : ThreadHeap) (size : UInt64) (granted : Bool) : Prop :=
  s.state.memInUse.toNat + (if granted then size.toNat + 8 else (size + 8).toNat) < 2 ^ 64

/-- The sum fits, unless there is nothing to allocate or the heap is full. -/
def Fits (s : ThreadHeap) : HeapCall → Prop
  | .memAlloc size granted =>
    size = 0 ∨ (s.state.maxMem ≠ 0 ∧ s.state.memInUse + (size + 8) > s.state.maxMem) ∨
      s.SumFits size granted
  | .memAllocNofail size granted => size = 0 ∨ s.SumFits size granted
  | .memFree _ => True

/-- What the steps keep. -/
structure Inv (s : ThreadHeap) : Prop where
  inUse : s.state.memInUse.toNat = s.taken
  room : ∀ block ∈ s.live, block.size.toNat + 8 ≤ block.bytes.toNat

theorem inv_new (maxMem : UInt64) : (new maxMem).Inv := ⟨rfl, nofun⟩

theorem toNat_size_add (size : UInt64) : (size + 8).toNat = (size.toNat + 8) % 2 ^ 64 :=
  UInt64.toNat_add size 8

theorem toNat_memInUse_freeMem (h : MemHeapState) (size : UInt64) :
    (h.freeMem size).memInUse.toNat = h.memInUse.toNat - size.toNat := by
  unfold MemHeapState.freeMem
  split
  · split
    · next hle => simp [Nat.sub_eq_zero_of_le (UInt64.le_iff_toNat_le.mp hle)]
    · next hlt =>
      rw [ge_iff_le, UInt64.not_le] at hlt
      exact UInt64.toNat_sub_of_le _ _ (UInt64.le_of_lt hlt)
  · next hzero => simp [not_not.mp hzero]

/-- What has been counted and is taken back, if the count has not wrapped around. -/
theorem freeMem_add {h : MemHeapState} {size : UInt64} :
    (MemHeapState.freeMem { h with memInUse := h.memInUse + size } size) = h ↔
      h.memInUse.toNat + size.toNat < 2 ^ 64 := by
  have hfree := toNat_memInUse_freeMem { h with memInUse := h.memInUse + size } size
  have hadd := UInt64.toNat_add h.memInUse size
  have hsize := size.toNat_lt
  have hmax : (MemHeapState.freeMem { h with memInUse := h.memInUse + size } size).maxMem
      = h.maxMem := by
    unfold MemHeapState.freeMem
    split_ifs <;> rfl
  rw [MemHeapState.ext_iff, and_iff_left hmax, ← UInt64.toNat_inj, hfree]
  have hinUse := h.memInUse.toNat_lt
  dsimp only
  omega

/-- **A block is counted and allocated as it should be exactly if the sum fits.** -/
theorem Inv.malloc_iff (h : s.Inv) {state : MemHeapState}
    (hstate : state = { s.state with memInUse := s.state.memInUse + (size + 8) }) :
    (s.Allocates size (s.malloc state size granted) ∧
      (s.malloc state size granted).2.state.memInUse.toNat
        = (s.malloc state size granted).2.taken) ↔ s.SumFits size granted := by
  have hsize := toNat_size_add size
  have hadd := UInt64.toNat_add s.state.memInUse (size + 8)
  have hlt := size.toNat_lt
  have hinUse := h.inUse
  subst hstate
  cases granted with
  | true =>
    constructor
    · rintro ⟨⟨-, hblock⟩, hcount⟩
      have hroom := (hblock _ rfl).2.2
      have hcount' : (s.state.memInUse + (size + 8)).toNat = size.toNat + 8 + s.taken := hcount
      rw [SumFits, if_pos rfl]
      omega
    · intro hfits
      rw [SumFits, if_pos rfl] at hfits
      refine ⟨⟨nofun, ?_⟩, ?_⟩
      · rintro _ ⟨⟩
        exact ⟨rfl, rfl, show size.toNat + 8 ≤ (size + 8).toNat by omega⟩
      · change (s.state.memInUse + (size + 8)).toNat = size.toNat + 8 + s.taken
        omega
  | false =>
    rw [SumFits, if_neg Bool.false_ne_true, ← freeMem_add]
    constructor
    · rintro ⟨⟨hfailed, -⟩, -⟩
      exact congrArg state (hfailed rfl)
    · intro hfree
      have hsame : (s.malloc { s.state with memInUse := s.state.memInUse + (size + 8) } size
          false).2 = s := by
        rw [malloc, if_neg Bool.false_ne_true, hfree]
      exact ⟨⟨fun _ => hsame, nofun⟩, hsame.symm ▸ h.inUse⟩

theorem memAlloc_of_ne_zero (hsize : size ≠ 0) : s.memAlloc size granted =
    if s.state.maxMem ≠ 0 ∧ s.state.memInUse + (size + 8) > s.state.maxMem then (none, s)
    else s.malloc { s.state with memInUse := s.state.memInUse + (size + 8) } size granted := by
  rw [memAlloc, if_neg hsize, MemHeapState.allocMem]
  split
  · simp only [Bool.false_eq_true, if_false, UInt64.add_sub_cancel]
  · rfl

theorem allocates_none (s : ThreadHeap) (size : UInt64) : s.Allocates size (none, s) :=
  ⟨fun _ => rfl, nofun⟩

/-- Whether a block is allocated, if the heap is not full. -/
theorem isSome_malloc (state : MemHeapState) (hfits : s.SumFits size granted)
    (hroom : ¬ (s.state.maxMem ≠ 0 ∧ s.state.memInUse + (size + 8) > s.state.maxMem)) :
    (s.malloc state size granted).1.isSome ↔ (s.state.maxMem = 0 ∨
      s.state.memInUse.toNat + size.toNat + 8 ≤ s.state.maxMem.toNat) ∧ granted := by
  have hsize := toNat_size_add size
  have hadd := UInt64.toNat_add s.state.memInUse (size + 8)
  cases granted with
  | true =>
    rw [SumFits, if_pos rfl] at hfits
    simp only [ne_eq, gt_iff_lt, UInt64.lt_iff_toNat_lt, not_and] at hroom
    refine iff_of_true rfl ⟨?_, rfl⟩
    by_cases hmax : s.state.maxMem = 0
    · exact .inl hmax
    · have hle := hroom hmax
      exact .inr (by omega)
  | false => simp [malloc]

/-- **A step counts exactly if the sum fits.** -/
theorem Inv.accounts_iff_fits (h : s.Inv) (hstep : s.step call = some s') :
    s.Accounts call s' ↔ s.Fits call := by
  cases call with
  | memAlloc size granted =>
    cases hstep
    unfold Accounts Fits
    by_cases hzero : size = 0
    · simp [memAlloc, hzero, h.inUse, allocates_none]
    · simp only [memAlloc_of_ne_zero hzero, hzero, false_or, ne_eq, not_false_eq_true,
        forall_const]
      split
      · next hfull =>
        refine iff_of_true ⟨h.inUse, allocates_none s size, ?_⟩ (.inl hfull)
        have hsize := toNat_size_add size
        have hadd := UInt64.toNat_add s.state.memInUse (size + 8)
        have hlt := UInt64.lt_iff_toNat_lt.mp hfull.2
        refine iff_of_false Bool.false_ne_true ?_
        rintro ⟨hmax | hle, -⟩
        · exact hfull.1 hmax
        · omega
      · next hroom =>
        rw [or_iff_right hroom, ← h.malloc_iff rfl]
        constructor
        · exact fun ⟨hcount, halloc, _⟩ => ⟨halloc, hcount⟩
        · intro hmalloc
          exact ⟨hmalloc.2, hmalloc.1, isSome_malloc _ ((h.malloc_iff rfl).mp hmalloc) hroom⟩
  | memAllocNofail size granted =>
    cases hstep
    unfold Accounts Fits
    by_cases hzero : size = 0
    · simp [memAllocNofail, hzero, h.inUse, allocates_none]
    · have hcounted : (s.state.allocMem (size + 8) true).2
          = { s.state with memInUse := s.state.memInUse + (size + 8) } := by
        unfold MemHeapState.allocMem
        dsimp only
        split <;> rfl
      simp only [memAllocNofail, hzero, if_false, false_or]
      rw [and_comm, h.malloc_iff hcounted]
  | memFree block =>
    simp only [step, Option.ite_none_right_eq_some] at hstep
    obtain ⟨hblock, hstep⟩ := hstep
    cases hstep
    refine iff_of_true ⟨?_, trivial⟩ trivial
    have hsize := toNat_size_add block.size
    have hroom := h.room block hblock
    have hbytes := block.bytes.toNat_lt
    have htaken : block.size.toNat + 8 + taken ⟨s.state, s.live.erase block⟩ = s.taken :=
      List.sum_map_erase (fun block : HeapBlock => block.size.toNat + 8) hblock
    have hinUse := h.inUse
    change (s.state.freeMem (block.size + 8)).memInUse.toNat
      = taken ⟨s.state, s.live.erase block⟩
    rw [toNat_memInUse_freeMem]
    omega

theorem Allocates.room {result : Option HeapBlock × ThreadHeap} (h : s.Allocates size result)
    (hroom : ∀ block ∈ s.live, block.size.toNat + 8 ≤ block.bytes.toNat) :
    ∀ block ∈ result.2.live, block.size.toNat + 8 ≤ block.bytes.toNat := by
  intro block hblock
  cases hresult : result.1 with
  | none =>
    rw [h.failed hresult] at hblock
    exact hroom block hblock
  | some new =>
    obtain ⟨hlive, hsize, hnew⟩ := h.block new hresult
    rw [hlive, List.mem_cons] at hblock
    rcases hblock with rfl | hblock
    · exact hsize ▸ hnew
    · exact hroom block hblock

theorem Inv.of_accounts (h : s.Inv) (hstep : s.step call = some s')
    (haccounts : s.Accounts call s') : s'.Inv := by
  refine ⟨haccounts.1, ?_⟩
  cases call with
  | memAlloc size granted =>
    cases hstep
    exact haccounts.2.1.room h.room
  | memAllocNofail size granted =>
    cases hstep
    exact haccounts.2.room h.room
  | memFree block =>
    simp only [step, Option.ite_none_right_eq_some] at hstep
    obtain ⟨-, hstep⟩ := hstep
    cases hstep
    exact fun other hother => h.room other (List.mem_of_mem_erase hother)

/-- **The accounting is exact all through a run exactly if the sums fit.** -/
theorem accounts_iff {maxMem : UInt64} {calls : List HeapCall}
    (h : run step (new maxMem) calls = some s) :
    (∀ as call bs t t', calls = as ++ call :: bs → run step (new maxMem) as = some t →
        t.step call = some t' → t.Accounts call t') ↔
      Steps step Fits (new maxMem) calls s :=
  steps_iff_forall_step (P := Accounts)
    (fun _ _ _ ht hfits hstep =>
      ⟨ht.of_accounts hstep ((ht.accounts_iff_fits hstep).mpr hfits),
        (ht.accounts_iff_fits hstep).mpr hfits⟩)
    (fun _ _ _ ht hstep => (ht.accounts_iff_fits hstep).mp) (inv_new maxMem) h

/-- A block that is allocated and freed, and one that is too large. -/
def threeCalls : List HeapCall :=
  [.memAlloc 100 true, .memAlloc 1000 true, .memFree ⟨100, 108⟩]

theorem accounts_iff_threeCalls : ∃ s, run step (new 512) threeCalls = some s ∧
    ((∀ as call bs t t', threeCalls = as ++ call :: bs → run step (new 512) as = some t →
        t.step call = some t' → t.Accounts call t') ↔
      Steps step Fits (new 512) threeCalls s) :=
  ⟨_, rfl, accounts_iff rfl⟩

/-- **A block of 2 ^ 64 - 1 bytes** is allocated as 7 bytes, header and all, and passes for 7 in a
heap of at most 512. -/
theorem wrapped_allocated : ∃ s, (new 512).step (.memAlloc (-1) true) = some s ∧
    s.live = [⟨-1, 7⟩] ∧ s.state.memInUse = 7 ∧ ¬ (new 512).Accounts (.memAlloc (-1) true) s := by
  refine ⟨_, rfl, rfl, rfl, fun h => ?_⟩
  have hroom := (h.2.1.block _ rfl).2.2
  revert hroom
  decide

end ThreadHeap

end Mutgos.Utilities
