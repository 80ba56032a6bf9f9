import Mathlib.Order.Monotone.Basic
import Mathlib.Order.Interval.Set.Defs
import Mutgos.Text.Utf8Tools

/-!
# Indices of code points

In a string that `utf8_valid` accepts, the index of a code point and the byte it begins
at determine each other, and what is inside of a code point belongs to its index.  0 is
also what an error is converted to: `utf8_split` and the two functions that chop take
it for an index behind the end, and `utf8_char_at` for one that is not the first.  The
index of the end is no error, though, and what `utf8_char_at` gets there is the null
character behind the string.

## Main results

* `indexed_of_utf8Valid` — strings that are accepted are indexed.
-/

namespace Mutgos.Text

open Code List

def utf8ChopAtLimit (str : ByteString) (utf8Size : ℕ) : ByteString :=
  if str = [] ∨ utf8Size = 0 then []
  else
    let byteIndex := utf8IndexToByte str utf8Size
    if utf8Size ≠ 0 ∧ byteIndex = 0 then str else str.take byteIndex

/-- `utf8_chop_modify_at_limit`: what becomes of the string. -/
def utf8ChopModifyAtLimit (str : ByteString) (utf8Size : ℕ) : ByteString :=
  let str := if utf8Size = 0 then [] else str
  let byteIndex := utf8IndexToByte str utf8Size
  if utf8Size ≠ 0 ∧ byteIndex = 0 then str else str.take byteIndex

/-- `utf8_split`: what becomes of `before_str` and `after_str`. -/
def utf8Split (str : ByteString) (utf8Index : ℕ) : ByteString × ByteString :=
  if str = [] then ([], [])
  else if utf8Index = 0 then ([], str)
  else
    let byteIndex := utf8IndexToByte str utf8Index
    if byteIndex = 0 then (str, []) else (str.take byteIndex, str.drop byteIndex)

variable {s : ByteString} {cs : List CodePoint} {i k n byte : ℕ}

/-! ### Indices and bytes -/

theorem indexToByteFrom_past (left : ℕ) (hi : i ≤ cs.length) (h : cs.length < i + left) :
    indexToByteFrom (utf8.encode cs) left (utf8.offset cs i) = 0 := by
  induction left generalizing i with
  | zero => omega
  | succ left ih =>
    rw [indexToByteFrom]
    rcases Nat.lt_or_eq_of_le hi with hlt | rfl
    · obtain ⟨c, hc, hpos, hnext, -⟩ := exists_lead_at hlt
      rw [hc]
      simp only [if_neg (show sequenceLength c ≠ 0 by omega)]
      rw [← hnext]
      exact ih hlt (by omega)
    · rw [offset_length, getElem?_eq_none (le_refl _)]

/-- An index behind the end is an error. -/
theorem utf8IndexToByte_past (h : cs.length < i) : utf8IndexToByte (utf8.encode cs) i = 0 := by
  rw [utf8IndexToByte]
  split_ifs
  · rfl
  · have hfrom := indexToByteFrom_past i (Nat.zero_le cs.length) (by omega)
    rwa [offset_zero] at hfrom

/-- Where the index is converted to 0, it is the first one or there was an error. -/
theorem utf8IndexToByte_eq_zero_iff (hi : i ≠ 0) :
    utf8IndexToByte (utf8.encode cs) i = 0 ↔ cs.length < i := by
  constructor
  · intro hzero
    by_contra hle
    rw [utf8IndexToByte_encode (Nat.le_of_not_lt hle)] at hzero
    have hlt := offset_lt_offset (C := utf8) (Nat.pos_of_ne_zero hi) (Nat.le_of_not_lt hle)
    omega
  · exact utf8IndexToByte_past

/-- Inside of a code point the loop overshoots. -/
theorem byteToIndexFrom_inside (rounds : ℕ) (hk : k ≤ i) (hi : i < cs.length)
    (hlow : utf8.offset cs i < byte) (hhigh : byte ≤ utf8.offset cs (i + 1))
    (hrounds : i + 1 ≤ k + rounds) :
    byteToIndexFrom (utf8.encode cs) byte rounds (utf8.offset cs k) k =
      (utf8.offset cs (i + 1), i + 1) := by
  induction rounds generalizing k with
  | zero => omega
  | succ rounds ih =>
    have hbefore : utf8.offset cs k ≤ utf8.offset cs i :=
      (offset_le_offset_iff (by omega) hi.le).mpr hk
    obtain ⟨c, hc, hpos, hnext, -⟩ := exists_lead_at (show k < cs.length by omega)
    rw [byteToIndexFrom, if_pos (by omega), hc]
    simp only [if_neg (show sequenceLength c ≠ 0 by omega)]
    rw [← hnext]
    rcases Nat.lt_or_eq_of_le hk with hlt | rfl
    · exact ih hlt (by omega)
    · cases rounds with
      | zero => rfl
      | succ rounds => rw [byteToIndexFrom, if_neg (by omega)]

/-- What is inside of a code point is converted to its index. -/
theorem utf8ByteToIndex_inside (hi : i < cs.length) (hlow : utf8.offset cs i ≤ byte)
    (hhigh : byte < utf8.offset cs (i + 1)) :
    utf8ByteToIndex (utf8.encode cs) byte = i := by
  rcases Nat.lt_or_eq_of_le hlow with hlt | rfl
  · have hrounds := @le_offset _ _ utf8 _ _ hi.le
    have hfrom := byteToIndexFrom_inside byte (Nat.zero_le i) hi hlt hhigh.le (by omega)
    rw [offset_zero] at hfrom
    have hstart : ¬ (utf8.encode cs = [] ∨ byte = 0) := by
      rw [encode_eq_nil_iff]
      rintro (rfl | rfl)
      · simp at hi
      · omega
    simp only [utf8ByteToIndex, if_neg hstart, hfrom]
    rw [if_neg (by omega), if_pos hhigh, Nat.add_sub_cancel]
  · exact utf8ByteToIndex_encode hi.le

/-- Indices and bytes of a string are the inverse of each other. -/
structure Indexed (s : ByteString) : Prop where
  strictMono : StrictMonoOn (utf8IndexToByte s) (Set.Iic (utf8Size s))
  first : utf8IndexToByte s 0 = 0
  last : utf8IndexToByte s (utf8Size s) = s.length
  le_length : ∀ i ≤ utf8Size s, utf8IndexToByte s i ≤ s.length
  codePoint : ∀ i < utf8Size s, isCodePoint ((s.drop (utf8IndexToByte s i)).take
    (utf8IndexToByte s (i + 1) - utf8IndexToByte s i)) = true
  inverse : ∀ i ≤ utf8Size s, utf8ByteToIndex s (utf8IndexToByte s i) = i
  inside : ∀ i < utf8Size s, ∀ byte, utf8IndexToByte s i ≤ byte →
    byte < utf8IndexToByte s (i + 1) → utf8ByteToIndex s byte = i
  past : ∀ i, utf8Size s < i → utf8IndexToByte s i = 0

/-- **A string that is accepted is indexed.** -/
theorem indexed_of_utf8Valid (hs : utf8Valid s = true) : Indexed s := by
  obtain ⟨cs, rfl⟩ := utf8Valid_iff.mp hs
  have hsize := utf8Size_encode cs
  refine ⟨?_, ?_, ?_, ?_, ?_, ?_, ?_, ?_⟩
  · intro i hi j hj hij
    rw [Set.mem_Iic, hsize] at hi hj
    rw [utf8IndexToByte_encode hi, utf8IndexToByte_encode hj]
    exact Code.offset_lt_offset hij hj
  · rw [utf8IndexToByte_encode (Nat.zero_le _), Code.offset_zero]
  · rw [hsize, utf8IndexToByte_encode le_rfl, Code.offset_length]
  · intro i hi
    rw [hsize] at hi
    rw [utf8IndexToByte_encode hi, ← Code.offset_length]
    exact (Code.offset_le_offset_iff hi le_rfl).mpr hi
  · intro i hi
    rw [hsize] at hi
    rw [utf8IndexToByte_encode hi.le, utf8IndexToByte_encode hi, Code.drop_offset hi,
      Code.offset_succ hi, Nat.add_sub_cancel_left, List.take_left]
    exact cs[i].property
  · intro i hi
    rw [hsize] at hi
    rw [utf8IndexToByte_encode hi, utf8ByteToIndex_encode hi]
  · intro i hi byte hlow hhigh
    rw [hsize] at hi
    rw [utf8IndexToByte_encode hi.le] at hlow
    rw [utf8IndexToByte_encode hi] at hhigh
    exact utf8ByteToIndex_inside hi hlow hhigh
  · intro i hi
    rw [hsize] at hi
    exact utf8IndexToByte_past hi

/-- Code points of one, two and three bytes. -/
theorem indexed_three : Indexed [0x61, 0xC3, 0xA9, 0xE2, 0x82, 0xAC] :=
  indexed_of_utf8Valid (by decide)

/-! ### Taking a string apart -/

/-- A string is split between code points. -/
theorem utf8Split_encode (n : ℕ) :
    utf8Split (utf8.encode cs) n = (utf8.encode (cs.take n), utf8.encode (cs.drop n)) := by
  rw [utf8Split]
  by_cases hempty : cs = []
  · simp [hempty]
  rw [if_neg (by simpa using hempty)]
  by_cases hn : n = 0
  · simp [hn]
  rw [if_neg hn]
  by_cases hpast : cs.length < n
  · simp only [if_pos (utf8IndexToByte_past hpast)]
    rw [take_of_length_le hpast.le, drop_eq_nil_of_le hpast.le, encode_nil]
  · have hbyte := mt (utf8IndexToByte_eq_zero_iff hn).mp hpast
    simp only [if_neg hbyte]
    rw [utf8IndexToByte_encode (Nat.le_of_not_lt hpast), ← encode_take, ← encode_drop]

/-- What is before the limit is left. -/
theorem utf8ChopAtLimit_encode (n : ℕ) :
    utf8ChopAtLimit (utf8.encode cs) n = utf8.encode (cs.take n) := by
  rw [utf8ChopAtLimit]
  by_cases hnone : cs = [] ∨ n = 0
  · rw [if_pos (by simpa using hnone)]
    rcases hnone with rfl | rfl <;> simp
  rw [if_neg (by simpa using hnone)]
  have hn : n ≠ 0 := fun hn => hnone (.inr hn)
  simp only [utf8IndexToByte_eq_zero_iff hn]
  split_ifs with hpast
  · rw [take_of_length_le hpast.2.le]
  · rw [not_and] at hpast
    rw [utf8IndexToByte_encode (Nat.le_of_not_lt (hpast hn)), ← encode_take]

/-- The string that is modified is chopped in the same way. -/
theorem utf8ChopModifyAtLimit_eq (s : ByteString) (n : ℕ) :
    utf8ChopModifyAtLimit s n = utf8ChopAtLimit s n := by
  rw [utf8ChopModifyAtLimit, utf8ChopAtLimit]
  by_cases hn : n = 0
  · simp [hn]
  by_cases hs : s = []
  · simp [hs]
  · simp [hn, hs]

/-! ### Code points at indices -/

/-- Behind the index of the end there is an error. -/
theorem utf8CharAt_past (h : cs.length < i) : utf8CharAt (utf8.encode cs) i = [] := by
  rw [utf8CharAt]
  split_ifs
  · rfl
  · simp only [utf8IndexToByte_past h]
    rw [if_pos ⟨by omega, trivial⟩]

/-- At the index of the end there is the null character. -/
theorem utf8CharAt_length (h : cs ≠ []) : utf8CharAt (utf8.encode cs) cs.length = [0] := by
  have hlength : cs.length ≠ 0 := by simpa using h
  have hbyte := mt (@utf8IndexToByte_eq_zero_iff cs cs.length hlength).mp (lt_irrefl _)
  rw [utf8CharAt, if_neg (by simpa using h)]
  simp only [hbyte, and_false, if_false]
  have hnull : (utf8.encode cs).getD (utf8.encode cs).length 0 = 0 := by
    rw [getD_eq_getElem?_getD, getElem?_eq_none le_rfl, Option.getD_none]
  rw [utf8IndexToByte_encode le_rfl, offset_length, hnull]
  rfl

/-- The code points at the indices are the string. -/
theorem flatMap_utf8CharAt (cs : List CodePoint) :
    (List.range cs.length).flatMap (utf8CharAt (utf8.encode cs)) = utf8.encode cs := by
  have hparts : ∀ n ≤ cs.length,
      (List.range n).flatMap (utf8CharAt (utf8.encode cs)) = utf8.encode (cs.take n) := by
    intro n
    induction n with
    | zero => intro _; rfl
    | succ n ih =>
      intro hn
      rw [range_succ, flatMap_append, ih (by omega), flatMap_singleton,
        utf8CharAt_encode (by omega), take_succ_eq_append_getElem (by omega),
        encode_append, encode_cons, encode_nil, append_nil, utf8_word]
  rw [hparts cs.length le_rfl, take_length]

/-- A string is made of the code points at its indices, of which there are none from the end on,
and it is taken apart between them. -/
structure Decomposes (s : ByteString) (i n : ℕ) : Prop where
  codePoints : (List.range (utf8Size s)).flatMap (utf8CharAt s) = s
  past : utf8Size s ≤ i → utf8CharAt s i = []
  split : (utf8Split s n).1 ++ (utf8Split s n).2 = s
  size_before : utf8Size (utf8Split s n).1 = min n (utf8Size s)
  chop : utf8ChopAtLimit s n = (utf8Split s n).1
  chopModify : utf8ChopModifyAtLimit s n = (utf8Split s n).1

/-- **A string that is accepted decomposes**, but not at the index of the end. -/
theorem decomposes_iff (hs : utf8Valid s = true) :
    Decomposes s i n ↔ s = [] ∨ i ≠ utf8Size s := by
  obtain ⟨cs, rfl⟩ := utf8Valid_iff.mp hs
  rw [utf8Size_encode, Code.encode_eq_nil_iff]
  constructor
  · intro h
    by_contra hend
    rw [not_or, not_not] at hend
    obtain ⟨hempty, rfl⟩ := hend
    have hpast := h.past (by rw [utf8Size_encode])
    rw [utf8CharAt_length hempty] at hpast
    cases hpast
  · intro h
    refine ⟨?_, ?_, ?_, ?_, ?_, ?_⟩
    · rw [utf8Size_encode]
      exact flatMap_utf8CharAt cs
    · intro hi
      rw [utf8Size_encode] at hi
      rcases h with rfl | hne
      · rfl
      · exact utf8CharAt_past (by omega)
    · rw [utf8Split_encode, ← Code.encode_append, List.take_append_drop]
    · rw [utf8Split_encode, utf8Size_encode, utf8Size_encode, List.length_take]
    · rw [utf8ChopAtLimit_encode, utf8Split_encode]
    · rw [utf8ChopModifyAtLimit_eq, utf8ChopAtLimit_encode, utf8Split_encode]

theorem decomposes_three : Decomposes [0x61, 0xC3, 0xA9, 0xE2, 0x82, 0xAC] 4 2 :=
  (decomposes_iff (by decide)).mpr (.inr (by decide))

/-- A string that is accepted does not decompose at every index. -/
theorem not_decomposes :
    ¬ ∀ s : ByteString, utf8Valid s = true → ∀ i n, Decomposes s i n := by
  intro h
  have hpast := (h [97] (by decide) 1 0).past (by decide)
  revert hpast
  decide

end Mutgos.Text
