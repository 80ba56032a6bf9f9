import Mathlib.Data.UInt
import Mutgos.Lib.Occurrences
import Mutgos.Text.ByteString

/-!
# Code points in byte strings

`utf8_valid` accepts the strings that are written with printable ASCII bytes and
with the byte sequences that a lead byte announces.  For these the functions of
`text_Utf8Tools` are functions of the list of code points: size, conversion between
the index of a code point and its byte, search, and the code point at an index.
The search from the end is not: it does not look at the last place where the
string searched for fits, and after a place that begins like it but is something
else it passes over the place before.

## Main results

* `utf8Valid_iff` — the strings accepted by `utf8_valid` are the written code points.
-/

namespace Mutgos.Text

open Code List

/-- How many bytes a byte announces: 1 for what is not above the printable ASCII bytes, and
0 where it is unknown what it is. -/
def sequenceLength (c : UInt8) : ℕ :=
  if 126 < c then
    if c &&& 0xE0 = 0xC0 then 2
    else if c &&& 0xF0 = 0xE0 then 3
    else if c &&& 0xF8 = 0xF0 then 4
    else 0
  else 1

/-- A byte in the middle of a code point. -/
def isContinue (c : UInt8) : Bool := c &&& 0xC0 = 0x80

/-- The sequences of bytes for one code point. -/
def isCodePoint : ByteString → Bool
  | [] => false
  | c :: s => 32 ≤ c && s.length + 1 = sequenceLength c && s.all isContinue

/-- A code point, as it is written. -/
abbrev CodePoint := { s : ByteString // isCodePoint s = true }

theorem CodePoint.exists_eq_cons (b : CodePoint) :
    ∃ c s, b.val = c :: s ∧ 32 ≤ c ∧ s.length + 1 = sequenceLength c ∧ s.all isContinue = true := by
  obtain ⟨s, hs⟩ := b
  cases s with
  | nil => simp [isCodePoint] at hs
  | cons c s =>
    simp only [isCodePoint, Bool.and_eq_true, decide_eq_true_eq] at hs
    exact ⟨c, s, rfl, hs.1.1, hs.1.2, hs.2⟩

/-- A byte that announces something is not in the middle of a code point. -/
theorem isContinue_eq_false_of_sequenceLength {c : UInt8} (h : 0 < sequenceLength c) :
    isContinue c = false := by
  have hall : ∀ n : Fin 256, 0 < sequenceLength (.ofFin n) → isContinue (.ofFin n) = false := by
    decide +kernel
  exact hall c.toFin h

/-- Code points are written one after the other. -/
def utf8 : Code CodePoint UInt8 where
  word := Subtype.val
  lead c := isContinue c = false
  word_ne_nil b := by
    obtain ⟨c, s, hb, -⟩ := b.exists_eq_cons
    rw [hb]
    exact cons_ne_nil c s
  lead_head b := by
    obtain ⟨c, s, hb, -, hlength, -⟩ := b.exists_eq_cons
    simp only [hb, head_cons]
    exact isContinue_eq_false_of_sequenceLength (by omega)
  not_lead_tail b := by
    obtain ⟨c, s, hb, -, -, hcontinue⟩ := b.exists_eq_cons
    intro x hx
    rw [hb, tail_cons] at hx
    simp [all_eq_true.mp hcontinue x hx]
  word_inj a b h := by
    obtain ⟨c, s, ha, -, hlength, -⟩ := a.exists_eq_cons
    obtain ⟨c', s', hb, -, hlength', -⟩ := b.exists_eq_cons
    rw [ha, hb, cons_prefix_cons] at h
    obtain ⟨rfl, h⟩ := h
    have heq : s = s' := h.eq_of_length (by omega)
    exact Subtype.ext (by rw [ha, hb, heq])

@[simp] theorem utf8_word (b : CodePoint) : utf8.word b = b.val := rfl

/-! ### Validity and size -/

theorem utf8ValidFrom_zero_cons (c : UInt8) (s : ByteString) :
    utf8ValidFrom 0 (c :: s) =
      (32 ≤ c && 0 < sequenceLength c && utf8ValidFrom (sequenceLength c - 1) s) := by
  rw [utf8ValidFrom, sequenceLength]
  by_cases hlow : c < 32
  · simp [hlow, UInt8.not_le.mpr hlow]
  · have hle : 32 ≤ c := UInt8.not_lt.mp hlow
    split_ifs <;> simp [hle]

theorem utf8SizeFrom_zero_cons (size : ℕ) (c : UInt8) (s : ByteString) :
    utf8SizeFrom 0 size (c :: s) =
      if 32 ≤ c ∧ 0 < sequenceLength c then utf8SizeFrom (sequenceLength c - 1) (size + 1) s
      else 0 := by
  rw [utf8SizeFrom, sequenceLength]
  by_cases hlow : c < 32
  · simp [hlow, UInt8.not_le.mpr hlow]
  · have hle : 32 ≤ c := UInt8.not_lt.mp hlow
    split_ifs <;> simp_all

/-- In the middle of a code point its other bytes follow, and then code points. -/
theorem utf8ValidFrom_iff {bytesLeft : ℕ} {s : ByteString} :
    utf8ValidFrom bytesLeft s = true ↔
      ∃ (rest : ByteString) (cs : List CodePoint), s = rest ++ utf8.encode cs ∧
        rest.length = bytesLeft ∧ rest.all isContinue = true := by
  induction s generalizing bytesLeft with
  | nil =>
    cases bytesLeft with
    | zero => exact iff_of_true rfl ⟨[], [], rfl, rfl, rfl⟩
    | succ bytesLeft =>
      refine iff_of_false (by simp [utf8ValidFrom]) ?_
      rintro ⟨rest, cs, hs, hlength, -⟩
      have hrest : rest = [] := (append_eq_nil_iff.mp hs.symm).1
      simp [hrest] at hlength
  | cons c s ih =>
    cases bytesLeft with
    | zero =>
      rw [utf8ValidFrom_zero_cons, Bool.and_eq_true, Bool.and_eq_true, ih]
      simp only [decide_eq_true_eq]
      constructor
      · rintro ⟨⟨hlow, hannounced⟩, rest, cs, rfl, hlength, hrest⟩
        have hb : isCodePoint (c :: rest) = true := by
          simp only [isCodePoint, Bool.and_eq_true, decide_eq_true_eq]
          exact ⟨⟨hlow, by omega⟩, hrest⟩
        exact ⟨[], ⟨c :: rest, hb⟩ :: cs, rfl, rfl, rfl⟩
      · rintro ⟨rest, cs, hs, hlength, -⟩
        rw [length_eq_zero_iff] at hlength
        subst hlength
        cases cs with
        | nil => simp at hs
        | cons b cs =>
          obtain ⟨c', s', hb, hlow, hlength, hrest⟩ := b.exists_eq_cons
          rw [nil_append, encode_cons, utf8_word, hb, cons_append,
            cons_eq_cons] at hs
          obtain ⟨rfl, rfl⟩ := hs
          exact ⟨⟨hlow, by omega⟩, s', cs, rfl, by omega, hrest⟩
    | succ bytesLeft =>
      have hstep : utf8ValidFrom (bytesLeft + 1) (c :: s) =
          (isContinue c && utf8ValidFrom bytesLeft s) := by
        rw [utf8ValidFrom, isContinue]
        split_ifs with hc <;> simp [hc]
      rw [hstep, Bool.and_eq_true, ih]
      constructor
      · rintro ⟨hc, rest, cs, rfl, rfl, hrest⟩
        exact ⟨c :: rest, cs, rfl, rfl, by simp [hc, hrest]⟩
      · rintro ⟨rest, cs, hs, hlength, hrest⟩
        cases rest with
        | nil => simp at hlength
        | cons c' rest =>
          rw [cons_append, cons_eq_cons] at hs
          obtain ⟨rfl, rfl⟩ := hs
          simp only [all_cons, Bool.and_eq_true] at hrest
          exact ⟨hrest.1, rest, cs, rfl, by simpa using hlength, hrest.2⟩

/-- **The valid strings are the written code points.** -/
theorem utf8Valid_iff {s : ByteString} : utf8Valid s = true ↔ ∃ cs, utf8.encode cs = s := by
  rw [utf8Valid, utf8ValidFrom_iff]
  constructor
  · rintro ⟨rest, cs, rfl, hlength, -⟩
    rw [length_eq_zero_iff] at hlength
    exact ⟨cs, by simp [hlength]⟩
  · rintro ⟨cs, rfl⟩
    exact ⟨[], cs, rfl, rfl, rfl⟩

theorem utf8SizeFrom_encode (rest : ByteString) (cs : List CodePoint) (size : ℕ)
    (hrest : rest.all isContinue = true) :
    utf8SizeFrom rest.length size (rest ++ utf8.encode cs) = size + cs.length := by
  induction cs generalizing rest size with
  | nil =>
    induction rest with
    | nil => rfl
    | cons c rest ih =>
      simp only [all_cons, Bool.and_eq_true, isContinue, decide_eq_true_eq] at hrest
      rw [cons_append, length_cons, utf8SizeFrom, if_pos hrest.1]
      exact ih hrest.2
  | cons b cs ihcs =>
    induction rest with
    | nil =>
      obtain ⟨c, s, hb, hlow, hlength, hcontinue⟩ := b.exists_eq_cons
      have hleft : sequenceLength c - 1 = s.length := by omega
      rw [nil_append, encode_cons, utf8_word, hb, cons_append, length_nil,
        utf8SizeFrom_zero_cons, if_pos ⟨hlow, by omega⟩, hleft, ihcs s (size + 1) hcontinue,
        length_cons]
      omega
    | cons c rest ih =>
      simp only [all_cons, Bool.and_eq_true, isContinue, decide_eq_true_eq] at hrest
      rw [cons_append, length_cons, utf8SizeFrom, if_pos hrest.1]
      exact ih hrest.2

/-- The size of what is written is the number of code points. -/
@[simp] theorem utf8Size_encode (cs : List CodePoint) : utf8Size (utf8.encode cs) = cs.length := by
  have h := utf8SizeFrom_encode [] cs 0 rfl
  simpa [utf8Size] using h

/-- What stands where a code point begins. -/
theorem exists_lead_at {cs : List CodePoint} {i : ℕ} (h : i < cs.length) :
    ∃ c, (utf8.encode cs)[utf8.offset cs i]? = some c ∧ 0 < sequenceLength c ∧
      utf8.offset cs (i + 1) = utf8.offset cs i + sequenceLength c ∧
      (126 < c → ((utf8.encode cs).drop (utf8.offset cs i)).take (sequenceLength c) = cs[i].val) ∧
      (¬ 126 < c → cs[i].val = [c]) := by
  obtain ⟨c, s, hb, hlow, hlength, hcontinue⟩ := cs[i].exists_eq_cons
  have hdrop := drop_offset (C := utf8) h
  rw [utf8_word, hb] at hdrop
  refine ⟨c, ?_, by omega, ?_, ?_, ?_⟩
  · have hfirst : ((utf8.encode cs).drop (utf8.offset cs i))[0]? = some c := by simp [hdrop]
    rwa [getElem?_drop, Nat.add_zero] at hfirst
  · rw [offset_succ h, utf8_word, hb, length_cons, hlength]
  · intro _
    rw [hdrop, hb, ← hlength, ← length_cons, take_left]
  · intro hascii
    rw [sequenceLength, if_neg hascii] at hlength
    have hs : s = [] := length_eq_zero_iff.mp (by omega)
    rw [hb, hs]

theorem sequenceLength_le (c : UInt8) : sequenceLength c ≤ 4 := by
  rw [sequenceLength]
  split_ifs <;> omega

/-- A code point has at most four bytes. -/
theorem length_encode_le (cs : List CodePoint) : (utf8.encode cs).length ≤ 4 * cs.length := by
  induction cs with
  | nil => simp
  | cons b cs ih =>
    obtain ⟨c, s, hb, -, hlength, -⟩ := b.exists_eq_cons
    have hle := sequenceLength_le c
    rw [encode_cons, length_append, utf8_word, hb, length_cons, length_cons]
    omega

/-! ### Indices and bytes -/

/-- The loop of `utf8_index_to_byte`, with `left` code points to pass over.  The end of the
string before the index and an unknown byte are errors. -/
def indexToByteFrom (str : ByteString) : (left byte : ℕ) → ℕ
  | 0, byte => byte
  | left + 1, byte =>
    match str[byte]? with
    | none => 0
    | some c =>
      if sequenceLength c = 0 then 0 else indexToByteFrom str left (byte + sequenceLength c)

/-- `utf8_index_to_byte`, which is 0 where there is an error -/
def utf8IndexToByte (str : ByteString) (utf8Index : ℕ) : ℕ :=
  if str = [] then 0 else indexToByteFrom str utf8Index 0

/-- The loop of `utf8_byte_to_index`; every round advances, so `byte` rounds are enough. -/
def byteToIndexFrom (str : ByteString) (byte : ℕ) : (rounds currentByte utf8Index : ℕ) → ℕ × ℕ
  | 0, currentByte, utf8Index => (currentByte, utf8Index)
  | rounds + 1, currentByte, utf8Index =>
    if currentByte < byte then
      match str[currentByte]? with
      | none => (currentByte, utf8Index)
      | some c =>
        if sequenceLength c = 0 then (currentByte, 0)
        else byteToIndexFrom str byte rounds (currentByte + sequenceLength c) (utf8Index + 1)
    else (currentByte, utf8Index)

/-- `utf8_byte_to_index`, which is 0 where there is an error -/
def utf8ByteToIndex (str : ByteString) (byte : ℕ) : ℕ :=
  if str = [] ∨ byte = 0 then byte
  else
    let (currentByte, utf8Index) := byteToIndexFrom str byte byte 0 0
    if currentByte < byte then 0
    else if byte < currentByte then utf8Index - 1
    else utf8Index

section Indices

variable {cs : List CodePoint} {i : ℕ}

theorem indexToByteFrom_offset (left : ℕ) (h : i + left ≤ cs.length) :
    indexToByteFrom (utf8.encode cs) left (utf8.offset cs i) = utf8.offset cs (i + left) := by
  induction left generalizing i with
  | zero => rfl
  | succ left ih =>
    obtain ⟨c, hc, hpos, hnext, -⟩ := exists_lead_at (show i < cs.length by omega)
    rw [indexToByteFrom, hc]
    simp only [if_neg (show sequenceLength c ≠ 0 by omega)]
    rw [← hnext, ih (by omega)]
    congr 1
    omega

/-- The index of a code point is converted to where it begins. -/
theorem utf8IndexToByte_encode (h : i ≤ cs.length) :
    utf8IndexToByte (utf8.encode cs) i = utf8.offset cs i := by
  rw [utf8IndexToByte]
  split_ifs with hempty
  · rw [encode_eq_nil_iff] at hempty
    simp [hempty, offset]
  · have hfrom := indexToByteFrom_offset i (show 0 + i ≤ cs.length by omega)
    rwa [offset_zero, Nat.zero_add] at hfrom

theorem byteToIndexFrom_offset {k : ℕ} (rounds : ℕ) (hk : k ≤ i) (hi : i ≤ cs.length)
    (hrounds : i ≤ k + rounds) :
    byteToIndexFrom (utf8.encode cs) (utf8.offset cs i) rounds (utf8.offset cs k) k =
      (utf8.offset cs i, i) := by
  induction rounds generalizing k with
  | zero =>
    have hki : k = i := by omega
    rw [byteToIndexFrom, hki]
  | succ rounds ih =>
    rw [byteToIndexFrom]
    rcases Nat.lt_or_eq_of_le hk with hlt | rfl
    · obtain ⟨c, hc, hpos, hnext, -⟩ := exists_lead_at (show k < cs.length by omega)
      rw [if_pos (offset_lt_offset hlt hi), hc]
      simp only [if_neg (show sequenceLength c ≠ 0 by omega)]
      rw [← hnext, ih (by omega) (by omega)]
    · rw [if_neg (Nat.lt_irrefl _)]

/-- Where a code point begins is converted to its index. -/
theorem utf8ByteToIndex_encode (h : i ≤ cs.length) :
    utf8ByteToIndex (utf8.encode cs) (utf8.offset cs i) = i := by
  rw [utf8ByteToIndex]
  split_ifs with hstart
  · have hzero : utf8.offset cs i = 0 := by
      rcases hstart with hempty | hzero
      · rw [encode_eq_nil_iff] at hempty
        simp [hempty, offset]
      · exact hzero
    have hle : utf8.offset cs i ≤ utf8.offset cs 0 := by rw [hzero, offset_zero]
    rw [offset_le_offset_iff h (by omega)] at hle
    omega
  · have hrounds := @le_offset _ _ utf8 _ _ h
    have hfrom := byteToIndexFrom_offset (utf8.offset cs i) (Nat.zero_le i) h (by omega)
    rw [offset_zero] at hfrom
    simp [hfrom]

end Indices

/-! ### Search -/

/-- `memchr`: the first place from `start` on where the byte is. -/
def memchr (str : ByteString) (c : UInt8) (start : ℕ) : Option ℕ :=
  (List.range' start (str.length - start)).find? fun i => str[i]? = some c

/-- `memrchr`: the last of the first `count` places where the byte is. -/
def memrchr (str : ByteString) (c : UInt8) (count : ℕ) : Option ℕ :=
  lastBelow (fun i => str[i]? = some c) count

/-- What is compared at a place that has the first byte: nothing if that is the only one, else
`memcmp` of the others. -/
def restMatches (str toFind : ByteString) (i : ℕ) : Bool :=
  toFind.length = 1 || (str.drop (i + 1)).take (toFind.length - 1) = toFind.drop 1

/-- The loop of `utf8_find`; every round advances. -/
def findFrom (str toFind : ByteString) : (rounds currentByteIndex : ℕ) → Option ℕ
  | 0, _ => none
  | rounds + 1, currentByteIndex =>
    if currentByteIndex ≤ str.length - toFind.length then
      match memchr str (toFind.headD 0) currentByteIndex with
      | none => none
      | some i => if restMatches str toFind i then some i else findFrom str toFind rounds (i + 1)
    else none

def utf8Find (str toFind : ByteString) (start : ℕ) : Option ℕ :=
  if str = [] ∨ toFind = [] ∨ str.length < toFind.length then none
  else
    let startByteIndex := utf8IndexToByte str start
    if start ≠ 0 ∧ startByteIndex = 0 then none
    else (findFrom str toFind (str.length + 1) startByteIndex).map (utf8ByteToIndex str)

/-- The loop of `utf8_find_last`, which ends when it would go back before the first byte.  Every
round goes back. -/
def findLastFrom (str toFind : ByteString) : (rounds currentByteIndex : ℕ) → Option ℕ
  | 0, _ => none
  | rounds + 1, currentByteIndex =>
    match memrchr str (toFind.headD 0) currentByteIndex with
    | none => none
    | some 0 => if restMatches str toFind 0 then some 0 else none
    | some (i + 1) =>
      if restMatches str toFind (i + 1) then some (i + 1) else findLastFrom str toFind rounds i

def utf8FindLast (str toFind : ByteString) : Option ℕ :=
  if str = [] ∨ toFind = [] ∨ str.length < toFind.length then none
  else
    (findLastFrom str toFind (str.length + 1) (str.length - toFind.length)).map
      (utf8ByteToIndex str)

/-- `utf8_char_at`; a `std::string` is followed by a null character. -/
def utf8CharAt (str : ByteString) (utf8Index : ℕ) : ByteString :=
  if str = [] then []
  else
    let byteIndex := utf8IndexToByte str utf8Index
    if utf8Index ≠ 0 ∧ byteIndex = 0 then []
    else
      let currentChar := str.getD byteIndex 0
      if 126 < currentChar then (str.drop byteIndex).take (sequenceLength currentChar)
      else [currentChar]

section Search

variable {str toFind : ByteString} {i start : ℕ} {c : UInt8} {rounds : ℕ} {cs : List CodePoint}

theorem memchr_eq_none_iff : memchr str c start = none ↔ ∀ j, start ≤ j → str[j]? ≠ some c := by
  rw [memchr, find?_eq_none]
  simp only [decide_eq_true_eq, mem_range'_1]
  constructor
  · intro hnone j hj hc
    have hlt := (List.getElem?_eq_some_iff.mp hc).1
    exact hnone j ⟨hj, by omega⟩ hc
  · intro hnone j hj
    exact hnone j hj.1

theorem memchr_eq_some_iff :
    memchr str c start = some i ↔
      start ≤ i ∧ str[i]? = some c ∧ ∀ j, start ≤ j → j < i → str[j]? ≠ some c := by
  rw [memchr, find?_range'_eq_some]
  simp only [decide_eq_true_eq, Bool.not_eq_true', decide_eq_false_iff_not, mem_range'_1]
  constructor
  · rintro ⟨hc, ⟨hstart, -⟩, hbefore⟩
    exact ⟨hstart, hc, hbefore⟩
  · rintro ⟨hstart, hc, hbefore⟩
    have hlt := (List.getElem?_eq_some_iff.mp hc).1
    exact ⟨hc, ⟨hstart, by omega⟩, hbefore⟩

/-- An occurrence is the first byte with the others behind it. -/
theorem occursAt_iff (hfind : toFind ≠ []) :
    OccursAt toFind str i ↔
      str[i]? = some (toFind.headD 0) ∧ restMatches str toFind i = true := by
  obtain ⟨c, s, rfl⟩ := exists_cons_of_ne_nil hfind
  have hrest : restMatches str (c :: s) i = true ↔ s <+: str.drop (i + 1) := by
    simp only [restMatches, length_cons, Nat.add_sub_cancel, drop_one, tail_cons,
      Bool.or_eq_true, decide_eq_true_eq, Nat.add_eq_right, length_eq_zero_iff]
    constructor
    · rintro (rfl | htake)
      · exact List.nil_prefix
      · exact htake ▸ List.take_prefix _ _
    · intro hprefix
      exact .inr (prefix_iff_eq_take.mp hprefix).symm
  rw [hrest, OccursAt, headD_cons]
  cases hi : str[i]? with
  | none =>
    have hend : str.drop i = [] := drop_eq_nil_of_le (List.getElem?_eq_none_iff.mp hi)
    simp [hend]
  | some c' =>
    obtain ⟨hlt, rfl⟩ := List.getElem?_eq_some_iff.mp hi
    rw [drop_eq_getElem_cons hlt, cons_prefix_cons, Option.some.injEq]
    exact and_congr_left' eq_comm

/-- The loop finds what is first from where it stands. -/
theorem findFrom_eq (hfind : toFind ≠ []) (hlength : toFind.length ≤ str.length)
    (hrounds : str.length < start + rounds) :
    findFrom str toFind rounds start = firstOccurrence toFind str start := by
  induction rounds generalizing start with
  | zero =>
    refine ((firstOccurrence_eq_none_iff hfind).mpr ?_).symm
    intro j hj hoccurs
    have hlt := hoccurs.lt_length hfind
    omega
  | succ rounds ih =>
    rw [findFrom]
    by_cases hpast : start ≤ str.length - toFind.length
    · rw [if_pos hpast]
      cases hchr : memchr str (toFind.headD 0) start with
      | none =>
        refine ((firstOccurrence_eq_none_iff hfind).mpr ?_).symm
        intro j hj hoccurs
        exact memchr_eq_none_iff.mp hchr j hj ((occursAt_iff hfind).mp hoccurs).1
      | some i =>
        obtain ⟨hstart, hi, hbefore⟩ := memchr_eq_some_iff.mp hchr
        have hnone : ∀ j, start ≤ j → j < i → ¬ OccursAt toFind str j := by
          intro j hj hji hoccurs
          exact hbefore j hj hji ((occursAt_iff hfind).mp hoccurs).1
        by_cases hrest : restMatches str toFind i = true
        · simp only [if_pos hrest]
          refine ((firstOccurrence_eq_some_iff hfind).mpr ⟨hstart, ?_, hnone⟩).symm
          exact (occursAt_iff hfind).mpr ⟨hi, hrest⟩
        · simp only [if_neg hrest]
          rw [ih (by omega)]
          -- There is nothing from `start` to `i`.
          refine firstOccurrence_congr hfind (by omega) ?_
          intro j hj hji hoccurs
          rcases Nat.lt_succ_iff_lt_or_eq.mp hji with hlt | rfl
          · exact hnone j hj hlt hoccurs
          · exact hrest ((occursAt_iff hfind).mp hoccurs).2
    · rw [if_neg hpast]
      refine ((firstOccurrence_eq_none_iff hfind).mpr ?_).symm
      intro j hj hoccurs
      have hbound := hoccurs.add_length_le hfind
      omega

/-- Where the functions do not search at all, there is nothing to find. -/
theorem not_occursAt_of_short {pattern : List CodePoint}
    (h : utf8.encode cs = [] ∨ utf8.encode pattern = [] ∨
      (utf8.encode cs).length < (utf8.encode pattern).length) :
    pattern = [] ∨ ∀ j, ¬ OccursAt pattern cs j := by
  by_cases hpattern : pattern = []
  · exact .inl hpattern
  refine .inr ?_
  intro j hj
  have hcoded : utf8.encode pattern ≠ [] := by simpa using hpattern
  have hlt := hj.lt_length hpattern
  have hbound := ((occursAt_encode_iff (C := utf8) hpattern).mpr
    ⟨j, hlt, rfl, hj⟩).add_length_le hcoded
  rcases h with hempty | hempty | hshort
  · rw [encode_eq_nil_iff] at hempty
    simp [hempty] at hlt
  · exact hcoded hempty
  · omega

/-- Converting where a code point begins and back. -/
theorem map_utf8ByteToIndex_offset {found : Option ℕ} (h : ∀ i, found = some i → i ≤ cs.length) :
    (found.map (utf8.offset cs)).map (utf8ByteToIndex (utf8.encode cs)) = found := by
  cases found with
  | none => rfl
  | some i => simp [utf8ByteToIndex_encode (h i rfl)]

/-- **`utf8_find` searches the list of code points.** -/
theorem utf8Find_encode {pattern : List CodePoint} (hi : i ≤ cs.length) :
    utf8Find (utf8.encode cs) (utf8.encode pattern) i = firstOccurrence pattern cs i := by
  rw [utf8Find]
  split_ifs with hshort
  · rcases not_occursAt_of_short hshort with hpattern | hnone
    · simp [hpattern, firstOccurrence]
    · by_cases hpattern : pattern = []
      · simp [hpattern, firstOccurrence]
      · exact ((firstOccurrence_eq_none_iff hpattern).mpr fun j _ => hnone j).symm
  · simp only [not_or] at hshort
    obtain ⟨-, hfind, hlength⟩ := hshort
    have hpattern : pattern ≠ [] := by simpa using hfind
    have hstart : ¬ (i ≠ 0 ∧ utf8.offset cs i = 0) := by
      rintro ⟨hi0, hzero⟩
      have hlt := offset_lt_offset (C := utf8) (Nat.pos_of_ne_zero hi0) hi
      omega
    have hbyte : utf8.offset cs i ≤ (utf8.encode cs).length := by
      rw [← offset_length, offset_le_offset_iff hi le_rfl]
      exact hi
    simp only [utf8IndexToByte_encode hi, if_neg hstart]
    rw [findFrom_eq hfind (by omega) (by omega), firstOccurrence_encode hi]
    refine map_utf8ByteToIndex_offset ?_
    intro j hj
    exact (((firstOccurrence_eq_some_iff hpattern).mp hj).2.1.lt_length hpattern).le

/-! ### Search from the end -/

/-- How many times in a row the byte stands from `start` on, counted up to `count`. -/
def runLength (str : ByteString) (c : UInt8) : (start count : ℕ) → ℕ
  | _, 0 => 0
  | start, count + 1 =>
    if str[start]? = some c then runLength str c (start + 1) count + 1 else 0

/-- Whether `utf8_find_last` gets to a place: it is before the last place where the string
searched for fits, and the bytes behind it that are equal to its first one can be passed over in
pairs. -/
def FindsLast (str toFind : ByteString) (i : ℕ) : Prop :=
  i + toFind.length < str.length ∧
    Even (runLength str (toFind.headD 0) (i + 1) (str.length - toFind.length - (i + 1)))

instance (str toFind : ByteString) (i : ℕ) : Decidable (FindsLast str toFind i) :=
  inferInstanceAs (Decidable (_ ∧ _))

theorem runLength_le (str : ByteString) (c : UInt8) (start count : ℕ) :
    runLength str c start count ≤ count := by
  induction count generalizing start with
  | zero => rfl
  | succ count ih =>
    rw [runLength]
    split_ifs
    · exact Nat.succ_le_succ (ih (start + 1))
    · exact Nat.zero_le _

theorem getElem?_of_lt_runLength (count : ℕ) {j : ℕ} (hj : j < runLength str c start count) :
    str[start + j]? = some c := by
  induction count generalizing start j with
  | zero => simp [runLength] at hj
  | succ count ih =>
    rw [runLength] at hj
    split_ifs at hj with hc
    · cases j with
      | zero => exact hc
      | succ j =>
        have hnext := ih (Nat.lt_of_succ_lt_succ hj)
        rwa [show start + 1 + j = start + (j + 1) by omega] at hnext
    · omega

theorem getElem?_runLength_ne (count : ℕ) (h : runLength str c start count < count) :
    str[start + runLength str c start count]? ≠ some c := by
  induction count generalizing start with
  | zero => omega
  | succ count ih =>
    rw [runLength] at h ⊢
    split_ifs at h ⊢ with hc
    · have hnext := ih (Nat.lt_of_succ_lt_succ h)
      rwa [show start + (runLength str c (start + 1) count + 1) =
        start + 1 + runLength str c (start + 1) count by omega]
    · exact hc

/-- What the loop finds is an occurrence. -/
theorem occursAt_of_findLastFrom (hfind : toFind ≠ [])
    (h : findLastFrom str toFind rounds start = some i) : OccursAt toFind str i := by
  induction rounds generalizing start with
  | zero => simp [findLastFrom] at h
  | succ rounds ih =>
    rw [findLastFrom] at h
    split at h
    · cases h
    · rename_i hchr
      have hfirst := (lastBelow_eq_some_iff.mp hchr).2.1
      rw [decide_eq_true_eq] at hfirst
      rw [Option.ite_none_right_eq_some, Option.some.injEq] at h
      obtain ⟨hrest, rfl⟩ := h
      exact (occursAt_iff hfind).mpr ⟨hfirst, hrest⟩
    · rename_i hchr
      have hfirst := (lastBelow_eq_some_iff.mp hchr).2.1
      rw [decide_eq_true_eq] at hfirst
      split_ifs at h with hrest
      · cases h
        exact (occursAt_iff hfind).mpr ⟨hfirst, hrest⟩
      · exact ih h

/-- The loop gets to the last occurrence when the bytes between that are equal to the first one
are, without a gap, an even number behind it. -/
theorem findLastFrom_eq (hfind : toFind ≠ []) {p : ℕ} (hlast : IsLast toFind str p)
    {run current : ℕ} (hrounds : current < p + rounds) (heven : Even run)
    (hrun : ∀ j < run, str[p + 1 + j]? = some (toFind.headD 0)) (hcurrent : p + 1 + run ≤ current)
    (hstop : p + 1 + run < current → str[p + 1 + run]? ≠ some (toFind.headD 0)) :
    findLastFrom str toFind rounds current = some p := by
  obtain ⟨hfirst, hrest⟩ := (occursAt_iff hfind).mp hlast.1
  induction rounds generalizing run current with
  | zero => omega
  | succ rounds ih =>
    rw [findLastFrom]
    cases hchr : memrchr str (toFind.headD 0) current with
    | none =>
      have hnone := lastBelow_eq_none_iff.mp hchr p (by omega)
      simp [hfirst] at hnone
    | some i =>
      obtain ⟨hi, htest, hlater⟩ := lastBelow_eq_some_iff.mp hchr
      simp only [decide_eq_true_eq, decide_eq_false_iff_not] at htest hlater
      have hpi : p ≤ i := by
        by_contra hlt
        exact hlater p (by omega) (by omega) hfirst
      rcases Nat.eq_or_lt_of_le hpi with rfl | hlt
      · cases p with
        | zero => simp only [if_pos hrest]
        | succ p => simp only [if_pos hrest]
      · obtain ⟨i, rfl⟩ : ∃ k, i = k + 1 := ⟨i - 1, by omega⟩
        have hmiss : ¬ restMatches str toFind (i + 1) = true := by
          intro hmatch
          exact hlast.2 (i + 1) hlt ((occursAt_iff hfind).mpr ⟨htest, hmatch⟩)
        have hne : i + 1 ≠ p + 1 + run := by
          intro heq
          exact hstop (by omega) (heq ▸ htest)
        simp only [if_neg hmiss]
        by_cases habove : p + 1 + run ≤ i
        · exact ih (by omega) heven hrun habove fun h => hstop (by omega)
        · -- The place is the end of the run, and the one before it is passed over.
          obtain ⟨half, rfl⟩ := heven
          cases half with
          | zero => omega
          | succ half =>
            have hend : i + 1 = p + (half + 1 + (half + 1)) := by
              by_contra hbelow
              refine hlater (p + (half + 1 + (half + 1))) (by omega) (by omega) ?_
              have hbyte := hrun (half + half + 1) (by omega)
              rwa [show p + 1 + (half + half + 1) = p + (half + 1 + (half + 1)) by omega] at hbyte
            exact ih (by omega) ⟨half, rfl⟩ (fun j hj => hrun j (by omega)) (by omega) (by omega)

/-- **`utf8_find_last` searches the list of code points**, where it gets to the last
occurrence. -/
theorem utf8FindLast_encode {cs pattern : List CodePoint}
    (h : ∀ i, lastOccurrence pattern cs = some i →
      FindsLast (utf8.encode cs) (utf8.encode pattern) (utf8.offset cs i)) :
    utf8FindLast (utf8.encode cs) (utf8.encode pattern) = lastOccurrence pattern cs := by
  rw [utf8FindLast]
  split_ifs with hshort
  · rcases not_occursAt_of_short hshort with hpattern | hnone
    · simp [hpattern, lastOccurrence]
    · by_cases hpattern : pattern = []
      · simp [hpattern, lastOccurrence]
      · exact ((lastOccurrence_eq_none_iff hpattern).mpr hnone).symm
  · simp only [not_or] at hshort
    obtain ⟨-, hfind, hlength⟩ := hshort
    have hpattern : pattern ≠ [] := by simpa using hfind
    have hfound : findLastFrom (utf8.encode cs) (utf8.encode pattern) ((utf8.encode cs).length + 1)
        ((utf8.encode cs).length - (utf8.encode pattern).length) =
          (lastOccurrence pattern cs).map (utf8.offset cs) := by
      rw [← lastOccurrence_encode]
      cases hlast : lastOccurrence (utf8.encode pattern) (utf8.encode cs) with
      | none =>
        rw [lastOccurrence_eq_none_iff hfind] at hlast
        rw [Option.eq_none_iff_forall_ne_some]
        intro i hi
        exact hlast i (occursAt_of_findLastFrom hfind hi)
      | some p =>
        have hp := (lastOccurrence_eq_some_iff hfind).mp hlast
        obtain ⟨i, -, rfl, hi⟩ := (isLast_encode_iff hpattern).mp hp
        obtain ⟨hbefore, heven⟩ := h i ((lastOccurrence_eq_some_iff hpattern).mpr hi)
        have hle := runLength_le (utf8.encode cs) ((utf8.encode pattern).headD 0)
          (utf8.offset cs i + 1)
          ((utf8.encode cs).length - (utf8.encode pattern).length - (utf8.offset cs i + 1))
        refine findLastFrom_eq hfind hp (by omega) heven
          (fun j hj => getElem?_of_lt_runLength _ hj) (by omega) ?_
        intro hgap
        exact getElem?_runLength_ne _ (by omega)
    rw [hfound]
    refine map_utf8ByteToIndex_offset ?_
    intro j hj
    exact (((lastOccurrence_eq_some_iff hpattern).mp hj).1.lt_length hpattern).le

/-! ### Single code points -/

/-- **`utf8_char_at` is the code point at the index.** -/
theorem utf8CharAt_encode (h : i < cs.length) : utf8CharAt (utf8.encode cs) i = cs[i].val := by
  obtain ⟨c, hc, -, -, hseveral, hone⟩ := exists_lead_at h
  have hempty : utf8.encode cs ≠ [] := by
    rw [Ne, encode_eq_nil_iff]
    rintro rfl
    simp at h
  have hstart : ¬ (i ≠ 0 ∧ utf8.offset cs i = 0) := by
    rintro ⟨hi0, hzero⟩
    have hlt := offset_lt_offset (C := utf8) (Nat.pos_of_ne_zero hi0) h.le
    omega
  have hget : (utf8.encode cs).getD (utf8.offset cs i) 0 = c := by
    rw [getD_eq_getElem?_getD, hc, Option.getD_some]
  simp only [utf8CharAt, if_neg hempty, utf8IndexToByte_encode h.le, if_neg hstart, hget]
  split_ifs with hascii
  · exact hseveral hascii
  · exact (hone hascii).symm

end Search

end Mutgos.Text
