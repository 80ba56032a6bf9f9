import Mutgos.Executor.Scheduling
import Mutgos.Lib.Rotation

/-!
# Fresh identifiers

PIDs and RIDs come from counters that go back to 1 before they reach `max_pid` and `max_rid`,
so there are `max_pid - 1` and `max_rid - 1` of them.  The tests that no identifier is left ask
for a table of `max_pid`, `max_rid` entries, one more than there can be.  With one entry less
every identifier is in use, the test lets the search begin, and it goes round for ever with the
scheduler locked.

## Main results

* `allocation_iff` — **a fresh identifier is found unless all but the last are in use.**
-/

namespace Mutgos.Executor

open DbTypes

/-! ### The search -/

section Search

variable {inUse : ℕ → Bool} {max rounds next n following : ℕ}

/-- What a search has looked at when it has found nothing. -/
theorem findFree_eq_none_of_rounds : ∀ {rounds next : ℕ}, findFree inUse max rounds next = none ↔
    ∀ k < rounds, (wrapNext max)^[k] next = 0 ∨ inUse ((wrapNext max)^[k] next) = true := by
  intro rounds
  induction rounds with
  | zero =>
    intro next
    simp [findFree]
  | succ rounds ih =>
    intro next
    rw [findFree]
    split
    · next hfree =>
      refine ⟨fun h => (by cases h), fun h => ?_⟩
      rcases h 0 (Nat.succ_pos rounds) with hzero | hused
      · exact absurd hzero hfree.1
      · exact absurd hused (by simp [hfree.2])
    · next htaken =>
      rw [show (if max ≤ next + 1 then 1 else next + 1) = wrapNext max next from rfl, ih]
      constructor
      · intro h k hk
        cases k with
        | zero =>
          rw [not_and_or, not_not, Bool.not_eq_false] at htaken
          exact htaken
        | succ k => exact h k (Nat.lt_of_succ_lt_succ hk)
      · intro h k hk
        exact h (k + 1) (Nat.succ_lt_succ hk)

/-- A search that has been all round without finding anything has found everything in use. -/
theorem findFree_eq_none_iff_inUse (hnext : 0 < next ∧ next < max) (hrounds : max - 1 ≤ rounds) :
    findFree inUse max rounds next = none ↔ ∀ m, 0 < m → m < max → inUse m = true := by
  rw [findFree_eq_none_of_rounds]
  constructor
  · intro h m hpos hlt
    obtain ⟨k, hk, rfl⟩ := exists_iterate_wrapNext hnext ⟨hpos, hlt⟩
    rcases h k (hk.trans_le hrounds) with hzero | hused
    · exact absurd hzero hpos.ne'
    · exact hused
  · intro h k _
    obtain ⟨hpos, hlt⟩ := iterate_wrapNext_range hnext k
    exact Or.inr (h _ hpos hlt)

/-- **The search of `max` rounds finds nothing exactly if no number of rounds would.** -/
theorem findFree_eq_none_iff (hnext : 0 < next ∧ next < max) :
    findFree inUse max max next = none ↔ ∀ rounds, findFree inUse max rounds next = none := by
  refine ⟨fun h rounds => ?_, fun h => h max⟩
  have hall := (findFree_eq_none_iff_inUse hnext (Nat.sub_le max 1)).mp h
  rw [findFree_eq_none_of_rounds]
  intro k _
  obtain ⟨hpos, hlt⟩ := iterate_wrapNext_range hnext k
  exact Or.inr (hall _ hpos hlt)

/-- What a search finds, and the counter after it, are in the range. -/
theorem range_of_findFree (hnext : 0 < next ∧ next < max)
    (h : findFree inUse max rounds next = some (n, following)) :
    (0 < n ∧ n < max) ∧ 0 < following ∧ following < max := by
  have hmax : 1 < max := by omega
  induction rounds generalizing next with
  | zero => cases h
  | succ rounds ih =>
    rw [findFree] at h
    split at h
    · cases h
      exact ⟨hnext, wrapNext_range hmax⟩
    · exact ih (wrapNext_range hmax) h

end Search

/-- A table whose keys are in the range has all of them exactly if it has one entry less than
`max`. -/
theorem forall_contains_iff_size {β : Type*} {table : Std.TreeMap ℕ β} {max : ℕ}
    (h : ∀ m ∈ table, 0 < m ∧ m < max) :
    (∀ m, 0 < m → m < max → table.contains m = true) ↔ table.size = max - 1 := by
  have hkeys : ∀ m, m ∈ table.keys.toFinset ↔ m ∈ table := fun m => by
    rw [List.mem_toFinset, Std.TreeMap.mem_keys]
  have hcard : table.keys.toFinset.card = table.size := by
    rw [List.toFinset_card_of_nodup Std.TreeMap.nodup_keys, Std.TreeMap.length_keys]
  rw [← hcard, ← forall_mem_iff_card fun m hm => h m ((hkeys m).mp hm)]
  simp only [hkeys, Std.TreeMap.contains_iff_mem]

theorem notMem_of_contains {β : Type*} {table : Std.TreeMap ℕ β} {m : ℕ}
    (h : table.contains m = false) : m ∉ table := by
  rw [← Std.TreeMap.contains_iff_mem, h]
  exact Bool.false_ne_true

/-- Then it has at most that many. -/
theorem size_lt_of_range {β : Type*} {table : Std.TreeMap ℕ β} {max : ℕ} (hmax : 0 < max)
    (h : ∀ m ∈ table, 0 < m ∧ m < max) : table.size < max := by
  have hsubset : table.keys.toFinset ⊆ Finset.Ico 1 max := by
    intro m hm
    rw [List.mem_toFinset, Std.TreeMap.mem_keys] at hm
    rw [Finset.mem_Ico]
    exact h m hm
  have hcard := Finset.card_le_card hsubset
  rw [List.toFinset_card_of_nodup Std.TreeMap.nodup_keys, Std.TreeMap.length_keys,
    Nat.card_Ico] at hcard
  omega

section Table

variable {β : Type*} {table : Std.TreeMap ℕ β} {max next : ℕ}

/-- A search among the keys of a table never ends exactly if it has one entry less than `max`. -/
theorem findFree_none_iff_size (h : ∀ m ∈ table, 0 < m ∧ m < max)
    (hnext : 0 < next ∧ next < max) :
    (∀ rounds, findFree (fun m => table.contains m) max rounds next = none) ↔
      table.size + 1 = max := by
  rw [← findFree_eq_none_iff hnext, findFree_eq_none_iff_inUse hnext (Nat.sub_le max 1),
    forall_contains_iff_size h]
  omega

theorem exists_findFree (h : ∀ m ∈ table, 0 < m ∧ m < max) (hnext : 0 < next ∧ next < max)
    (hsize : table.size + 1 ≠ max) :
    ∃ found, findFree (fun m => table.contains m) max max next = some found := by
  rw [← Option.ne_none_iff_exists']
  intro hnone
  rw [findFree_eq_none_iff hnext, findFree_none_iff_size h hnext] at hnone
  exact hsize hnone

end Table

namespace ProcessScheduler

/-! ### In range -/

/-- The identifiers in use, and the next ones to look at, are such as the allocators hand out. -/
structure InRange (s : ProcessScheduler) : Prop where
  pids : ∀ pid ∈ s.allProcesses, 0 < pid ∧ pid < maxPid
  nextPid : 0 < s.nextPid ∧ s.nextPid < maxPid
  rids : ∀ rid ∈ s.ridToPid, 0 < rid ∧ rid < maxRid
  nextRid : 0 < s.nextRid ∧ s.nextRid < maxRid

variable {s s' : ProcessScheduler}

theorem inRange_new : new.InRange where
  pids := by intro pid h; cases h
  nextPid := by decide
  rids := by intro rid h; cases h
  nextRid := by decide

/-- `add_process` hands out PIDs in range. -/
theorem InRange.addProcess (h : s.InRange) {executableId ownerId : Id}
    {process : Option ProcessPtr} {found : PID × Option InfoPtr}
    (hadd : s.addProcess executableId ownerId process = some (found, s')) : s'.InRange := by
  unfold ProcessScheduler.addProcess at hadd
  cases process with
  | none => cases hadd; exact h
  | some process =>
    dsimp only at hadd
    split_ifs at hadd with hdown hfull
    · cases hadd; exact h
    · cases hadd; exact h
    · split at hadd
      · cases hadd
      · next pid nextPid hfind =>
        cases hadd
        obtain ⟨hpid, hnext⟩ := range_of_findFree h.nextPid hfind
        refine ⟨fun pid' hmem => ?_, hnext, h.rids, h.nextRid⟩
        rw [Std.TreeMap.mem_insert, compare_eq_iff_eq] at hmem
        rcases hmem with rfl | hold
        · exact hpid
        · exact h.pids pid' hold

/-! ### Allocations that end -/

/-- The search of `add_process` ends with this PID, after some number of rounds. -/
def FindsPid (s : ProcessScheduler) (pid : PID) : Prop :=
  ∃ rounds nextPid,
    findFree (fun pid => s.allProcesses.contains pid) maxPid rounds s.nextPid = some (pid, nextPid)

/-- The search of `get_next_rid` ends with this RID, after some number of rounds. -/
def FindsRid (s : ProcessScheduler) (rid : RID) : Prop :=
  ∃ rounds nextRid,
    findFree (fun rid => s.ridToPid.contains rid) maxRid rounds s.nextRid = some (rid, nextRid)

/-- `add_process` has no reason to search, or says that no PID is left, or its search ends and
it adds the process under a PID that is not 0 and not in use. -/
def PidAllocated (s : ProcessScheduler) (executableId ownerId : Id)
    (process : Option ProcessPtr) : Prop :=
  process = none ∨ s.shuttingDown = true ∨
    (maxPid ≤ s.allProcesses.size ∧
      s.addProcess executableId ownerId process = some ((0, none), s)) ∨
    ∃ pid p s', s.FindsPid pid ∧ pid ≠ 0 ∧ pid ∉ s.allProcesses ∧
      s.addProcess executableId ownerId process = some ((pid, some p), s')

/-- `get_next_rid` does not know the process, or says that no RID is left, or its search ends
and it gives the process a RID that is not 0 and not in use. -/
def RidAllocated (s : ProcessScheduler) (pid : PID) : Prop :=
  s.allProcesses[pid]? = none ∨
    (maxRid ≤ s.ridToPid.size ∧ s.getNextRid pid = some (0, s)) ∨
    ∃ rid s', s.FindsRid rid ∧ rid ≠ 0 ∧ rid ∉ s.ridToPid ∧ s.getNextRid pid = some (rid, s')

/-- What `add_process` does with the PID that its search finds. -/
theorem addProcess_of_findFree {executableId ownerId : Id} {process : ProcessPtr}
    {pid nextPid : PID} (hdown : s.shuttingDown = false) (hroom : s.allProcesses.size < maxPid)
    (hfind : findFree (fun pid => s.allProcesses.contains pid) maxPid maxPid s.nextPid =
      some (pid, nextPid)) :
    ∃ s', s.addProcess executableId ownerId (some process) = some ((pid, some s.nextPtr), s') ∧
      s'.shuttingDown = false ∧ s'.allProcesses = s.allProcesses.insert pid s.nextPtr ∧
      s'.nextPid = nextPid := by
  rw [addProcess, hdown, hfind]
  exact ⟨_, (if_neg Bool.false_ne_true).trans (if_neg (Nat.not_le.mpr hroom)), hdown, rfl, rfl⟩

/-- **A process is added, or refused for a reason, unless all PIDs but the last are in use.** -/
theorem InRange.pidAllocated_iff (h : s.InRange) (executableId ownerId : Id)
    (process : Option ProcessPtr) :
    s.PidAllocated executableId ownerId process ↔
      process = none ∨ s.shuttingDown = true ∨ s.allProcesses.size + 1 ≠ maxPid := by
  have hlt := size_lt_of_range (by decide) h.pids
  constructor
  · rintro (hnone | hdown | ⟨hfull, -⟩ | ⟨pid, p, s', ⟨rounds, nextPid, hfind⟩, -, -, -⟩)
    · exact Or.inl hnone
    · exact Or.inr (Or.inl hdown)
    · exact absurd hlt (Nat.not_lt.mpr hfull)
    · refine Or.inr (Or.inr fun hsize => ?_)
      rw [(findFree_none_iff_size h.pids h.nextPid).mpr hsize rounds] at hfind
      cases hfind
  · rintro (hnone | hdown | hsize)
    · exact Or.inl hnone
    · exact Or.inr (Or.inl hdown)
    · obtain ⟨⟨pid, nextPid⟩, hfind⟩ := exists_findFree h.pids h.nextPid hsize
      rcases process with _ | process
      · exact Or.inl rfl
      rcases hdown : s.shuttingDown with _ | _
      · obtain ⟨hne, hfree⟩ := findFree_spec hfind
        obtain ⟨s', hadd, -⟩ := addProcess_of_findFree hdown hlt hfind
        exact Or.inr (Or.inr (Or.inr ⟨pid, s.nextPtr, s', ⟨maxPid, nextPid, hfind⟩, hne,
          notMem_of_contains hfree, hadd⟩))
      · exact Or.inr (Or.inl hdown)

/-- **A RID is given out, or refused for a reason, unless all RIDs but the last are in use.** -/
theorem InRange.ridAllocated_iff (h : s.InRange) (pid : PID) :
    s.RidAllocated pid ↔ s.allProcesses[pid]? = none ∨ s.ridToPid.size + 1 ≠ maxRid := by
  have hlt := size_lt_of_range (by decide) h.rids
  constructor
  · rintro (hnone | ⟨hfull, -⟩ | ⟨rid, s', ⟨rounds, nextRid, hfind⟩, -, -, -⟩)
    · exact Or.inl hnone
    · exact absurd hlt (Nat.not_lt.mpr hfull)
    · refine Or.inr fun hsize => ?_
      rw [(findFree_none_iff_size h.rids h.nextRid).mpr hsize rounds] at hfind
      cases hfind
  · intro hcase
    by_cases hknown : s.allProcesses[pid]? = none
    · exact Or.inl hknown
    have hsize := hcase.resolve_left hknown
    obtain ⟨⟨rid, nextRid⟩, hfind⟩ := exists_findFree h.rids h.nextRid hsize
    obtain ⟨hne, hfree⟩ := findFree_spec hfind
    refine Or.inr (Or.inr ⟨rid,
      { s with nextRid := nextRid, ridToPid := s.ridToPid.insert rid pid },
      ⟨maxRid, nextRid, hfind⟩, hne, notMem_of_contains hfree, ?_⟩)
    rw [ProcessScheduler.getNextRid, if_neg (Nat.not_le.mpr hlt), if_neg hknown, hfind]
    rfl

/-- **Allocation ends with a fresh identifier unless all identifiers are in use**: then there is
one entry less than the tests that none is left ask for. -/
theorem allocation_iff (h : s.InRange) (executableId ownerId : Id) (process : Option ProcessPtr)
    (pid : PID) :
    (s.PidAllocated executableId ownerId process ↔
      process = none ∨ s.shuttingDown = true ∨ s.allProcesses.size + 1 ≠ maxPid) ∧
    (s.RidAllocated pid ↔ s.allProcesses[pid]? = none ∨ s.ridToPid.size + 1 ≠ maxRid) :=
  ⟨h.pidAllocated_iff executableId ownerId process, h.ridAllocated_iff pid⟩

/-- The first process gets a PID. -/
theorem allocation_iff_new :
    (new.PidAllocated ⟨1, 1⟩ ⟨1, 2⟩ (some 0) ↔
      some 0 = none ∨ new.shuttingDown = true ∨ new.allProcesses.size + 1 ≠ maxPid) ∧
    (new.RidAllocated 1 ↔ new.allProcesses[1]? = none ∨ new.ridToPid.size + 1 ≠ maxRid) :=
  allocation_iff inRange_new ⟨1, 1⟩ ⟨1, 2⟩ (some 0) 1

/-! ### The last PID -/

/-- The given number of processes, added one after the other. -/
def addMany : ℕ → Option ProcessScheduler
  | 0 => some new
  | k + 1 => (addMany k).bind fun s => (s.addProcess ⟨1, 1⟩ ⟨1, 2⟩ (some k)).map Prod.snd

/-- They get the PIDs from 1 on.  By induction on their number: the counter stands at the next
PID, which is free, and goes back to 1 after the last. -/
theorem addMany_eq {k : ℕ} (hk : k < maxPid) : ∃ s, addMany k = some s ∧ s.InRange ∧
    s.shuttingDown = false ∧ (∀ pid, pid ∈ s.allProcesses ↔ 0 < pid ∧ pid ≤ k) ∧
    s.allProcesses.size = k ∧ (k + 1 < maxPid → s.nextPid = k + 1) := by
  induction k with
  | zero =>
    refine ⟨new, rfl, inRange_new, rfl, fun pid => ?_, rfl, fun _ => rfl⟩
    constructor
    · intro hmem
      cases hmem
    · rintro ⟨hpos, hle⟩
      exact absurd hpos (Nat.not_lt.mpr hle)
  | succ k ih =>
    obtain ⟨s, hs, hrange, hdown, hmem, hsize, hnext⟩ := ih (Nat.lt_of_succ_lt hk)
    have hout : k + 1 ∉ s.allProcesses := fun h => Nat.not_succ_le_self k ((hmem _).mp h).2
    have hfree : s.allProcesses.contains (k + 1) = false :=
      Bool.eq_false_iff.mpr fun h => hout (Std.TreeMap.contains_iff_mem.mp h)
    have hfind : findFree (fun pid => s.allProcesses.contains pid) maxPid maxPid s.nextPid =
        some (k + 1, wrapNext maxPid (k + 1)) := by
      rw [hnext hk, show maxPid = 29999 + 1 from rfl, findFree]
      exact if_pos ⟨Nat.succ_ne_zero k, hfree⟩
    have hroom : s.allProcesses.size < maxPid := hsize ▸ Nat.lt_of_succ_lt hk
    obtain ⟨s', hadd, hdown', htable, hnext'⟩ := 
      addProcess_of_findFree hdown hroom hfind
    refine ⟨s', ?_, hrange.addProcess hadd, hdown', fun pid => ?_, ?_, fun hlt => ?_⟩
    · rw [addMany, hs, Option.bind_some, hadd]
      rfl
    · rw [htable, Std.TreeMap.mem_insert, compare_eq_iff_eq, hmem]
      constructor
      · rintro (rfl | ⟨hpos, hle⟩)
        · exact ⟨Nat.succ_pos k, le_rfl⟩
        · exact ⟨hpos, Nat.le_succ_of_le hle⟩
      · rintro ⟨hpos, hle⟩
        exact (Nat.le_or_eq_of_le_succ hle).elim (fun h => Or.inr ⟨hpos, h⟩)
          fun h => Or.inl h.symm
    · rw [htable, Std.TreeMap.size_insert, hfree, hsize]
      rfl
    · rw [hnext', wrapNext, if_neg (Nat.not_le.mpr hlt)]

/-- **The process after the 29999th**: all PIDs are in use, and no number of rounds finds
another. -/
theorem addMany_not_pidAllocated : ∃ s, addMany 29999 = some s ∧ s.InRange ∧
    (∀ pid, ¬ s.FindsPid pid) ∧ s.addProcess ⟨1, 1⟩ ⟨1, 2⟩ (some 29999) = none ∧
    ¬ s.PidAllocated ⟨1, 1⟩ ⟨1, 2⟩ (some 29999) := by
  obtain ⟨s, hs, hrange, hdown, -, hsize, -⟩ := addMany_eq (k := 29999) (by decide)
  have hnone := (findFree_none_iff_size hrange.pids hrange.nextPid).mpr (by rw [hsize]; rfl)
  refine ⟨s, hs, hrange, fun pid => ?_, ?_, fun halloc => ?_⟩
  · rintro ⟨rounds, nextPid, hfind⟩
    rw [hnone rounds] at hfind
    cases hfind
  · rw [addProcess, hdown, hnone maxPid]
    refine (if_neg Bool.false_ne_true).trans (if_neg ?_)
    rw [hsize]
    decide
  · rw [hrange.pidAllocated_iff] at halloc
    rcases halloc with hprocess | hdown' | hfew
    · cases hprocess
    · rw [hdown] at hdown'
      cases hdown'
    · exact hfew (by rw [hsize]; rfl)

end ProcessScheduler

end Mutgos.Executor
