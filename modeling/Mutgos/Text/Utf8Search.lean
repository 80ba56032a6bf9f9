import Mathlib.Order.Bounds.Basic
import Mutgos.Text.Utf8Indices

/-!
# Searching code points

Both searches are to find an occurrence of code points, and `utf8_find` does.  It looks
for the first byte up to the end of the string, though, also where the string searched
for does not fit any more, and compares all of it there, behind the end.  The search
from the end misses the last occurrence where it does not get to it, and takes an
earlier one or none for it.

## Main results

* `findFromReading_inBounds_iff` — **what the loop looks at is in bounds, but for one
  comparison.**
-/

namespace Mutgos.Text

/-- The bytes of a string from one on that are looked at, up to one that is not. -/
structure ByteRange where
  first : ℕ
  past : ℕ
  deriving DecidableEq, Repr

/-- What the loop of `utf8_index_to_byte` looks at. -/
def indexToByteReads (str : ByteString) : (left byte : ℕ) → List ByteRange
  | 0, _ => []
  | left + 1, byte =>
    match str[byte]? with
    | none => []
    | some c =>
      ⟨byte, byte + 1⟩ ::
        if sequenceLength c = 0 then [] else indexToByteReads str left (byte + sequenceLength c)

/-- What the loop of `utf8_byte_to_index` looks at. -/
def byteToIndexReads (str : ByteString) (byte : ℕ) : (rounds currentByte : ℕ) → List ByteRange
  | 0, _ => []
  | rounds + 1, currentByte =>
    if currentByte < byte then
      match str[currentByte]? with
      | none => []
      | some c =>
        ⟨currentByte, currentByte + 1⟩ ::
          if sequenceLength c = 0 then []
          else byteToIndexReads str byte rounds (currentByte + sequenceLength c)
    else []

/-- The loop of `utf8_find`, with what it looks at: `memchr` is given the bytes up to the end, and
`memcmp` as many as there are to compare. -/
def findFromReading (str toFind : ByteString) :
    (rounds currentByteIndex : ℕ) → Option ℕ × List ByteRange
  | 0, _ => (none, [])
  | rounds + 1, currentByteIndex =>
    if currentByteIndex ≤ str.length - toFind.length then
      let searched : ByteRange := ⟨currentByteIndex, str.length⟩
      match memchr str (toFind.headD 0) currentByteIndex with
      | none => (none, [searched])
      | some i =>
        if toFind.length = 1 then (some i, [searched])
        else
          let compared : ByteRange := ⟨i + 1, i + toFind.length⟩
          if restMatches str toFind i then (some i, [searched, compared])
          else
            let next := findFromReading str toFind rounds (i + 1)
            (next.1, searched :: compared :: next.2)
    else (none, [])

/-- `utf8_find`, with what it looks at of the string that is searched. -/
def utf8FindReading (str toFind : ByteString) (start : ℕ) : Option ℕ × List ByteRange :=
  if str = [] ∨ toFind = [] ∨ str.length < toFind.length then (none, [])
  else
    let startByteIndex := utf8IndexToByte str start
    let startReads := indexToByteReads str start 0
    if start ≠ 0 ∧ startByteIndex = 0 then (none, startReads)
    else
      let found := findFromReading str toFind (str.length + 1) startByteIndex
      (found.1.map (utf8ByteToIndex str), startReads ++ found.2 ++
        found.1.elim [] fun byte => byteToIndexReads str byte byte 0)

section Reading

variable {str toFind : ByteString} {start i rounds byte : ℕ} {r : ByteRange}

theorem findFromReading_fst :
    (findFromReading str toFind rounds start).1 = findFrom str toFind rounds start := by
  induction rounds generalizing start with
  | zero => rfl
  | succ rounds ih =>
    rw [findFromReading, findFrom]
    by_cases hpast : start ≤ str.length - toFind.length
    · rw [if_pos hpast, if_pos hpast]
      cases memchr str (toFind.headD 0) start with
      | none => rfl
      | some i =>
        by_cases hone : toFind.length = 1
        · have hrest : restMatches str toFind i = true := by simp [restMatches, hone]
          simp only [if_pos hone, if_pos hrest]
        · simp only [if_neg hone]
          split_ifs
          · rfl
          · exact ih
    · rw [if_neg hpast, if_neg hpast]

/-- Looking does not change what is found. -/
theorem utf8FindReading_fst : (utf8FindReading str toFind start).1 = utf8Find str toFind start := by
  rw [utf8FindReading, utf8Find]
  split_ifs
  · rfl
  · dsimp only
    split_ifs
    · rfl
    · rw [findFromReading_fst]

theorem past_le_of_indexToByteReads {left : ℕ} (h : r ∈ indexToByteReads str left byte) :
    r.past ≤ str.length := by
  induction left generalizing byte with
  | zero => cases h
  | succ left ih =>
    rw [indexToByteReads] at h
    cases hc : str[byte]? with
    | none => rw [hc] at h; cases h
    | some c =>
      have hlt := (List.getElem?_eq_some_iff.mp hc).1
      rw [hc, List.mem_cons] at h
      rcases h with rfl | h
      · exact hlt
      · split_ifs at h
        · cases h
        · exact ih h

theorem past_le_of_byteToIndexReads {currentByte : ℕ}
    (h : r ∈ byteToIndexReads str byte rounds currentByte) : r.past ≤ str.length := by
  induction rounds generalizing currentByte with
  | zero => cases h
  | succ rounds ih =>
    rw [byteToIndexReads] at h
    split_ifs at h with hbefore
    · cases hc : str[currentByte]? with
      | none => rw [hc] at h; cases h
      | some c =>
        have hlt := (List.getElem?_eq_some_iff.mp hc).1
        rw [hc, List.mem_cons] at h
        rcases h with rfl | h
        · exact hlt
        · split_ifs at h
          · cases h
          · exact ih h
    · cases h

/-- Where `utf8_find` compares bytes behind the end.  The string searched for does not occur, and
its first byte is not where it fits for the last time and not behind that, but it is further
behind. -/
def ComparesPast (str toFind : ByteString) (start : ℕ) : Prop :=
  toFind.length ≤ str.length ∧ start ≤ str.length - toFind.length ∧
    (∀ j, start ≤ j → ¬ OccursAt toFind str j) ∧
    str[str.length - toFind.length]? ≠ some (toFind.headD 0) ∧
    str[str.length - toFind.length + 1]? ≠ some (toFind.headD 0) ∧
    ∃ j, str.length - toFind.length + 2 ≤ j ∧ str[j]? = some (toFind.headD 0)

/-- A place with the first byte and other bytes behind it is passed over. -/
theorem comparesPast_iff_of_memchr (hfind : toFind ≠ []) (hlength : toFind.length ≤ str.length)
    (hstart : start ≤ str.length - toFind.length)
    (hchr : memchr str (toFind.headD 0) start = some i)
    (hrest : ¬ restMatches str toFind i = true) :
    ComparesPast str toFind start ↔
      str.length + 1 < i + toFind.length ∨ ComparesPast str toFind (i + 1) := by
  obtain ⟨hle, hi, hbefore⟩ := memchr_eq_some_iff.mp hchr
  have hat : ∀ j, start ≤ j → OccursAt toFind str j → i + 1 ≤ j := by
    intro j hj hoccurs
    obtain ⟨hfirst, hothers⟩ := (occursAt_iff hfind).mp hoccurs
    by_contra hlt
    rcases Nat.lt_or_eq_of_le (Nat.le_of_lt_succ (Nat.lt_of_not_le hlt)) with hji | rfl
    · exact hbefore j hj hji hfirst
    · exact hrest hothers
  constructor
  · rintro ⟨-, -, hnone, hlast, hnext, hfurther⟩
    by_cases hfar : str.length + 1 < i + toFind.length
    · exact .inl hfar
    · have hnelast : i ≠ str.length - toFind.length := fun heq => hlast (heq ▸ hi)
      have hnenext : i ≠ str.length - toFind.length + 1 := fun heq => hnext (heq ▸ hi)
      exact .inr ⟨hlength, by omega, fun j hj => hnone j (by omega), hlast, hnext, hfurther⟩
  · rintro (hfar | ⟨-, hle', hnone, hlast, hnext, hfurther⟩)
    · refine ⟨hlength, hstart, ?_, hbefore _ hstart (by omega), hbefore _ (by omega) (by omega),
        i, by omega, hi⟩
      intro j hj hoccurs
      have hij := hat j hj hoccurs
      have hbound := hoccurs.add_length_le hfind
      omega
    · exact ⟨hlength, hstart, fun j hj hoccurs => hnone j (hat j hj hoccurs) hoccurs, hlast, hnext,
        hfurther⟩

/-- **What the loop looks at is in bounds**, the null character behind the string included, but for
one comparison. -/
theorem findFromReading_inBounds_iff (hfind : toFind ≠ []) (hlength : toFind.length ≤ str.length)
    (hrounds : str.length < start + rounds) :
    (∀ r ∈ (findFromReading str toFind rounds start).2, r.past ≤ str.length + 1) ↔
      ¬ ComparesPast str toFind start := by
  have hpos := List.length_pos_of_ne_nil hfind
  induction rounds generalizing start with
  | zero =>
    refine iff_of_true (by simp [findFromReading]) ?_
    rintro ⟨-, hstart, -⟩
    omega
  | succ rounds ih =>
    rw [findFromReading]
    by_cases hstart : start ≤ str.length - toFind.length
    · rw [if_pos hstart]
      cases hchr : memchr str (toFind.headD 0) start with
      | none =>
        refine iff_of_true (by simp) ?_
        rintro ⟨-, -, -, -, -, j, hj, hfirst⟩
        exact memchr_eq_none_iff.mp hchr j (by omega) hfirst
      | some i =>
        obtain ⟨hle, hi, -⟩ := memchr_eq_some_iff.mp hchr
        have hfound : restMatches str toFind i = true →
            i + toFind.length ≤ str.length ∧ ¬ ComparesPast str toFind start := by
          intro hrest
          have hoccurs := (occursAt_iff hfind).mpr ⟨hi, hrest⟩
          exact ⟨hoccurs.add_length_le hfind, fun hpast => hpast.2.2.1 i hle hoccurs⟩
        by_cases hone : toFind.length = 1
        · have hrest : restMatches str toFind i = true := by simp [restMatches, hone]
          simp only [if_pos hone]
          exact iff_of_true (by simp) (hfound hrest).2
        · simp only [if_neg hone]
          by_cases hrest : restMatches str toFind i = true
          · obtain ⟨hfits, hnot⟩ := hfound hrest
            simp only [if_pos hrest]
            refine iff_of_true ?_ hnot
            simp only [List.mem_cons, List.not_mem_nil, or_false, forall_eq_or_imp, forall_eq]
            omega
          · simp only [if_neg hrest, List.forall_mem_cons]
            have hnext := @ih (i + 1) (by omega)
            rw [comparesPast_iff_of_memchr hfind hlength hstart hchr hrest, not_or, Nat.not_lt]
            exact (and_iff_right (Nat.le_succ _)).trans (and_congr Iff.rfl hnext)
    · rw [if_neg hstart]
      exact iff_of_true (by simp) fun hpast => hstart hpast.2.1

/-- What `utf8_find` looks at is in bounds, but for one comparison. -/
theorem utf8FindReading_inBounds_iff (hs : utf8Valid str = true) (hfind : toFind ≠ []) :
    (∀ r ∈ (utf8FindReading str toFind start).2, r.past ≤ str.length + 1) ↔
      ¬ (start ≤ utf8Size str ∧ ComparesPast str toFind (utf8IndexToByte str start)) := by
  obtain ⟨cs, rfl⟩ := utf8Valid_iff.mp hs
  rw [utf8FindReading, utf8Size_encode]
  split_ifs with hshort
  · refine iff_of_true (by simp) ?_
    rintro ⟨-, hlength, hstart, -, -, -, j, hj, hfirst⟩
    have hlt := (List.getElem?_eq_some_iff.mp hfirst).1
    rcases hshort with hempty | hempty | hless
    · rw [hempty] at hlt
      simp at hlt
    · exact hfind hempty
    · omega
  · simp only [not_or] at hshort
    have hstartReads : ∀ r ∈ indexToByteReads (utf8.encode cs) start 0,
        r.past ≤ (utf8.encode cs).length + 1 := fun r hr =>
      (past_le_of_indexToByteReads hr).trans (Nat.le_succ _)
    have hend : ∀ found : Option ℕ, ∀ r ∈ found.elim [] fun byte =>
        byteToIndexReads (utf8.encode cs) byte byte 0, r.past ≤ (utf8.encode cs).length + 1 := by
      intro found r hr
      cases found with
      | none => cases hr
      | some byte => exact (past_le_of_byteToIndexReads hr).trans (Nat.le_succ _)
    have hrounds : (utf8.encode cs).length <
        utf8IndexToByte (utf8.encode cs) start + ((utf8.encode cs).length + 1) := by omega
    have hloop := findFromReading_inBounds_iff hfind (Nat.le_of_not_lt hshort.2.2) hrounds
    dsimp only
    by_cases hstart : start ≤ cs.length
    · have hfirst : ¬ (start ≠ 0 ∧ utf8IndexToByte (utf8.encode cs) start = 0) := by
        rintro ⟨hne, hzero⟩
        have hpast := (utf8IndexToByte_eq_zero_iff hne).mp hzero
        omega
      rw [if_neg hfirst]
      simp only [List.forall_mem_append]
      rw [and_iff_left (hend _), and_iff_right hstartReads, and_iff_right hstart]
      exact hloop
    · rw [if_pos ⟨by omega, utf8IndexToByte_past (by omega)⟩]
      exact iff_of_true hstartReads fun h => hstart h.1

end Reading

/-! ### What is found -/

/-- The indices of the code points at which a string occurs in another one. -/
def occurrences (str toFind : ByteString) : Set ℕ :=
  { i | i < utf8Size str ∧ OccursAt toFind str (utf8IndexToByte str i) }

section Occurrences

variable {cs pattern : List CodePoint} {i start : ℕ}

theorem mem_occurrences_encode (hpattern : pattern ≠ []) :
    i ∈ occurrences (utf8.encode cs) (utf8.encode pattern) ↔ OccursAt pattern cs i := by
  constructor
  · rintro ⟨hi, hoccurs⟩
    rw [utf8Size_encode] at hi
    rw [utf8IndexToByte_encode hi.le, Code.occursAt_encode_iff hpattern] at hoccurs
    obtain ⟨j, hj, heq, hoccurs⟩ := hoccurs
    have hij : i = j := le_antisymm ((Code.offset_le_offset_iff hi.le hj.le).mp heq.le)
      ((Code.offset_le_offset_iff hj.le hi.le).mp heq.ge)
    exact hij ▸ hoccurs
  · intro hoccurs
    have hi := hoccurs.lt_length hpattern
    refine ⟨by rwa [utf8Size_encode], ?_⟩
    rw [utf8IndexToByte_encode hi.le, Code.occursAt_encode_iff hpattern]
    exact ⟨i, hi, rfl, hoccurs⟩

theorem isFirst_iff_isLeast (hpattern : pattern ≠ []) :
    IsFirst pattern cs start i ↔
      IsLeast { j ∈ occurrences (utf8.encode cs) (utf8.encode pattern) | start ≤ j } i := by
  have hmem : ∀ j, j ∈ occurrences (utf8.encode cs) (utf8.encode pattern) ↔ OccursAt pattern cs j :=
    fun j => mem_occurrences_encode hpattern
  constructor
  · rintro ⟨hstart, hoccurs, hbefore⟩
    refine ⟨⟨(hmem i).mpr hoccurs, hstart⟩, ?_⟩
    rintro j ⟨hj, hle⟩
    by_contra hlt
    exact hbefore j hle (Nat.lt_of_not_le hlt) ((hmem j).mp hj)
  · rintro ⟨⟨hoccurs, hstart⟩, hleast⟩
    refine ⟨hstart, (hmem i).mp hoccurs, ?_⟩
    intro j hle hlt hj
    have hij : i ≤ j := hleast ⟨(hmem j).mpr hj, hle⟩
    omega

theorem isLast_iff_isGreatest (hpattern : pattern ≠ []) :
    IsLast pattern cs i ↔
      IsGreatest (occurrences (utf8.encode cs) (utf8.encode pattern)) i := by
  rw [IsLast, IsGreatest, mem_occurrences_encode hpattern]
  refine and_congr_right fun _ => ?_
  constructor
  · intro hlater j hj
    by_contra hlt
    exact hlater j (Nat.lt_of_not_le hlt) ((mem_occurrences_encode hpattern).mp hj)
  · intro hgreatest j hlt hj
    have hji : j ≤ i := hgreatest ((mem_occurrences_encode hpattern).mpr hj)
    omega

/-- There is nothing to be found from behind the end on. -/
theorem utf8Find_eq (cs pattern : List CodePoint) (start : ℕ) :
    utf8Find (utf8.encode cs) (utf8.encode pattern) start = firstOccurrence pattern cs start := by
  by_cases hstart : start ≤ cs.length
  · exact utf8Find_encode hstart
  · have hnone : firstOccurrence pattern cs start = none := by
      rw [firstOccurrence]
      split_ifs
      · rfl
      · rw [Nat.sub_eq_zero_of_le (by omega)]
        rfl
    rw [hnone, utf8Find]
    simp only [if_pos (show start ≠ 0 ∧ utf8IndexToByte (utf8.encode cs) start = 0 from
      ⟨by omega, utf8IndexToByte_past (by omega)⟩), ite_self]

end Occurrences

/-- `utf8_find` finds the first occurrence from an index on, and looks at no byte that is not of
the string or the null character behind it. -/
structure FindsFirst (str toFind : ByteString) (start : ℕ) : Prop where
  found : ∀ i, utf8Find str toFind start = some i ↔
    IsLeast { j ∈ occurrences str toFind | start ≤ j } i
  notFound : utf8Find str toFind start = none ↔ ∀ j ∈ occurrences str toFind, j < start
  inBounds : ∀ r ∈ (utf8FindReading str toFind start).2, r.past ≤ str.length + 1

/-- **`utf8_find` finds the first occurrence**, and stays in bounds but for one comparison. -/
theorem findsFirst_iff {str toFind : ByteString} {start : ℕ} (hs : utf8Valid str = true)
    (ht : utf8Valid toFind = true) (hfind : toFind ≠ []) :
    FindsFirst str toFind start ↔
      ¬ (start ≤ utf8Size str ∧ ComparesPast str toFind (utf8IndexToByte str start)) := by
  rw [← utf8FindReading_inBounds_iff hs hfind]
  refine ⟨FindsFirst.inBounds, fun hbounds => ?_⟩
  obtain ⟨cs, rfl⟩ := utf8Valid_iff.mp hs
  obtain ⟨pattern, rfl⟩ := utf8Valid_iff.mp ht
  have hpattern : pattern ≠ [] := by simpa using hfind
  refine ⟨fun i => ?_, ?_, hbounds⟩
  · rw [utf8Find_eq, firstOccurrence_eq_some_iff hpattern, isFirst_iff_isLeast hpattern]
  · rw [utf8Find_eq, firstOccurrence_eq_none_iff hpattern]
    refine forall_congr' fun j => ?_
    rw [mem_occurrences_encode hpattern]
    constructor
    · intro hnone hoccurs
      by_contra hle
      exact hnone (Nat.le_of_not_lt hle) hoccurs
    · intro hnone hle hoccurs
      have hlt := hnone hoccurs
      omega

/-- `abc` is looked for at the last byte of `xxa`, and compared up to the byte behind the null
character. -/
theorem not_findsFirst :
    ¬ ∀ str toFind : ByteString, utf8Valid str = true → utf8Valid toFind = true → toFind ≠ [] →
      ∀ start, FindsFirst str toFind start := by
  intro h
  have hbounds := (h [120, 120, 97] [97, 98, 99] (by decide) (by decide) (by decide) 0).inBounds
  revert hbounds
  decide

theorem findsFirst_second : FindsFirst [97, 98, 97, 98, 99] [97, 98, 99] 1 :=
  (findsFirst_iff (by decide) (by decide) (by decide)).mpr fun h =>
    h.2.2.2.1 2 (by decide) (by decide)

/-! ### The last occurrence -/

section FindLast

variable {str toFind : ByteString} {c : UInt8} {start p rounds current : ℕ}

theorem runLength_eq_zero {count : ℕ} (h : 0 < count → str[start]? ≠ some c) :
    runLength str c start count = 0 := by
  cases count with
  | zero => rfl
  | succ count => rw [runLength, if_neg (h (Nat.succ_pos count))]

/-- Where all of a range is a run, it goes on behind the range. -/
theorem runLength_add (m n : ℕ) :
    runLength str c start (m + n) =
      if runLength str c start m = m then m + runLength str c (start + m) n
      else runLength str c start m := by
  induction m generalizing start with
  | zero => simp [runLength]
  | succ m ih =>
    rw [show m + 1 + n = m + n + 1 by omega, runLength, runLength]
    by_cases hc : str[start]? = some c
    · rw [if_pos hc, if_pos hc, ih, show start + 1 + m = start + (m + 1) by omega]
      by_cases hfull : runLength str c (start + 1) m = m
      · rw [if_pos hfull, if_pos (by omega)]
        omega
      · rw [if_neg hfull, if_neg (by omega)]
    · rw [if_neg hc, if_neg hc, if_neg (by omega)]

/-- **What the loop gets to**, where it finds the last occurrence: a place before the one where it
began, with an even number of first bytes in a row behind it. -/
theorem even_runLength_of_findLastFrom
    (h : findLastFrom str toFind rounds current = some p) :
    p < current ∧ Even (runLength str (toFind.headD 0) (p + 1) (current - (p + 1))) := by
  induction rounds generalizing current with
  | zero => simp [findLastFrom] at h
  | succ rounds ih =>
    rw [findLastFrom] at h
    cases hchr : memrchr str (toFind.headD 0) current with
    | none =>
      rw [hchr] at h
      cases h
    | some i =>
      rw [hchr] at h
      obtain ⟨hi, hfirst, hlater⟩ := lastBelow_eq_some_iff.mp hchr
      simp only [decide_eq_true_eq, decide_eq_false_iff_not] at hfirst hlater
      have hat : i = p → p < current ∧
          Even (runLength str (toFind.headD 0) (p + 1) (current - (p + 1))) := by
        rintro rfl
        have hzero : runLength str (toFind.headD 0) (i + 1) (current - (i + 1)) = 0 :=
          runLength_eq_zero fun hpos => hlater (i + 1) (by omega) (by omega)
        rw [hzero]
        exact ⟨hi, Even.zero⟩
      cases i with
      | zero =>
        rw [Option.ite_none_right_eq_some, Option.some.injEq] at h
        exact hat h.2
      | succ k =>
        simp only at h
        split_ifs at h with hrest
        · exact hat (Option.some.inj h)
        · obtain ⟨hpk, heven⟩ := ih h
          refine ⟨by omega, ?_⟩
          -- behind the place `k` there is one more first byte, and no other
          have hsplit : current - (p + 1) = k - (p + 1) + (current - (k + 2) + 1 + 1) := by omega
          have hk : p + 1 + (k - (p + 1)) = k := by omega
          rw [hsplit, runLength_add]
          split_ifs with hfull
          · rw [hfull] at heven
            rw [hk, runLength]
            split_ifs
            · have hzero : runLength str (toFind.headD 0) (k + 1 + 1) (current - (k + 2)) = 0 :=
                runLength_eq_zero fun hpos => hlater (k + 2) (by omega) (by omega)
              rw [runLength, if_pos hfirst, hzero]
              exact heven.add even_two
            · exact heven
          · exact heven

end FindLast

/-- `utf8_find_last` finds the last occurrence. -/
structure FindsGreatest (str toFind : ByteString) : Prop where
  found : ∀ i, utf8FindLast str toFind = some i ↔ IsGreatest (occurrences str toFind) i
  notFound : utf8FindLast str toFind = none ↔ occurrences str toFind = ∅

theorem exists_findLastFrom {cs pattern : List CodePoint} {i : ℕ} (hpattern : pattern ≠ [])
    (h : utf8FindLast (utf8.encode cs) (utf8.encode pattern) = some i) :
    findLastFrom (utf8.encode cs) (utf8.encode pattern) ((utf8.encode cs).length + 1)
      ((utf8.encode cs).length - (utf8.encode pattern).length) = some (utf8.offset cs i) := by
  rw [utf8FindLast] at h
  split_ifs at h
  obtain ⟨p, hp, rfl⟩ := Option.map_eq_some_iff.mp h
  have hoccurs := occursAt_of_findLastFrom (by simpa using hpattern) hp
  obtain ⟨j, hj, rfl, -⟩ := (Code.occursAt_encode_iff hpattern).mp hoccurs
  rwa [utf8ByteToIndex_encode hj.le]

/-- **`utf8_find_last` finds the last occurrence** exactly where it gets to it. -/
theorem findsGreatest_iff {str toFind : ByteString} (hs : utf8Valid str = true)
    (ht : utf8Valid toFind = true) (hfind : toFind ≠ []) :
    FindsGreatest str toFind ↔
      ∀ i, IsGreatest (occurrences str toFind) i →
        FindsLast str toFind (utf8IndexToByte str i) := by
  obtain ⟨cs, rfl⟩ := utf8Valid_iff.mp hs
  obtain ⟨pattern, rfl⟩ := utf8Valid_iff.mp ht
  have hpattern : pattern ≠ [] := by simpa using hfind
  constructor
  · intro h i hi
    have hat : i < cs.length := by simpa using hi.1.1
    have hlast := (isLast_iff_isGreatest hpattern).mpr hi
    have hlast' := (Code.isLast_encode_iff (C := utf8) hpattern).mpr ⟨i, hat, rfl, hlast⟩
    have hbound := hlast'.1.add_length_le hfind
    obtain ⟨hlt, heven⟩ := even_runLength_of_findLastFrom
      (exists_findLastFrom hpattern ((h.found i).mpr hi))
    rw [utf8IndexToByte_encode hat.le]
    exact ⟨by omega, heven⟩
  · intro h
    have heq := @utf8FindLast_encode cs pattern fun i hi => by
      have hlast := (lastOccurrence_eq_some_iff hpattern).mp hi
      have hat := h i ((isLast_iff_isGreatest hpattern).mp hlast)
      rwa [utf8IndexToByte_encode (hlast.1.lt_length hpattern).le] at hat
    refine ⟨fun i => ?_, ?_⟩
    · rw [heq, lastOccurrence_eq_some_iff hpattern, isLast_iff_isGreatest hpattern]
    · rw [heq, lastOccurrence_eq_none_iff hpattern, Set.eq_empty_iff_forall_notMem]
      exact forall_congr' fun j => not_congr (mem_occurrences_encode hpattern).symm

/-- A string is not found in itself. -/
theorem not_findsGreatest :
    ¬ ∀ str toFind : ByteString, utf8Valid str = true → utf8Valid toFind = true → toFind ≠ [] →
      FindsGreatest str toFind := by
  intro h
  have hempty := (h [97] [97] (by decide) (by decide) (by decide)).notFound.mp (by decide)
  have hmem : 0 ∈ occurrences [97] [97] := ⟨by decide, by decide⟩
  rw [hempty] at hmem
  exact hmem

theorem findsGreatest_second : FindsGreatest [97, 98, 97, 98, 99] [97, 98] := by
  refine (findsGreatest_iff (by decide) (by decide) (by decide)).mpr ?_
  rintro i ⟨⟨hi, hoccurs⟩, hgreatest⟩
  have hle : 2 ≤ i := hgreatest ⟨by decide, by decide⟩
  obtain rfl | rfl | rfl : i = 2 ∨ i = 3 ∨ i = 4 := by
    have hlt : i < 5 := hi
    omega
  · decide
  · exact absurd hoccurs (by decide)
  · exact absurd hoccurs (by decide)

end Mutgos.Text
