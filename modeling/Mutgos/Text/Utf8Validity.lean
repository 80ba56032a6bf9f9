import Mutgos.Text.Utf8Tools

/-!
# Well-formed UTF-8

`utf8_valid` counts the bytes behind a lead byte and does not look at what they encode.
So it accepts, besides printable ASCII and the well-formed sequences of RFC 3629, those
that are longer than they have to be, surrogates, and what is beyond the last code point.

## Main results

* `isWellFormed_eq` — **what is accepted is well formed or ill formed.**
-/

namespace Mutgos.Text

/-- `UTF8-tail` -/
def isTail (c : UInt8) : Bool := 0x80 ≤ c && c ≤ 0xBF

/-- A printable ASCII byte, or `UTF8-2`, `UTF8-3` or `UTF8-4` of the grammar of RFC 3629. -/
def isWellFormed : ByteString → Bool
  | [a] => 32 ≤ a && a ≤ 126
  | [a, b] => (0xC2 ≤ a && a ≤ 0xDF) && isTail b
  | [a, b, c] =>
    ((a = 0xE0 && (0xA0 ≤ b && b ≤ 0xBF)) || ((0xE1 ≤ a && a ≤ 0xEC) && isTail b) ||
      (a = 0xED && (0x80 ≤ b && b ≤ 0x9F)) || ((0xEE ≤ a && a ≤ 0xEF) && isTail b)) && isTail c
  | [a, b, c, d] =>
    ((a = 0xF0 && (0x90 ≤ b && b ≤ 0xBF)) || ((0xF1 ≤ a && a ≤ 0xF3) && isTail b) ||
      (a = 0xF4 && (0x80 ≤ b && b ≤ 0x8F))) && isTail c && isTail d
  | _ => false

/-- A sequence that is longer than it has to be, a surrogate, or beyond the last code point. -/
def isIllFormed : ByteString → Bool
  | a :: b :: _ =>
    a = 0xC0 || a = 0xC1 || (a = 0xE0 && b < 0xA0) || (a = 0xED && 0x9F < b) ||
      (a = 0xF0 && b < 0x90) || (a = 0xF4 && 0x8F < b) || 0xF5 ≤ a
  | _ => false

theorem isContinue_eq_isTail (c : UInt8) : isContinue c = isTail c := by
  have hall : ∀ n : Fin 256, isContinue (.ofFin n) = isTail (.ofFin n) := by decide +kernel
  exact hall c.toFin

/-- What a byte announces, by its value. -/
theorem sequenceLength_eq (c : UInt8) :
    sequenceLength c =
      if c.toNat ≤ 126 then 1
      else if 0xC0 ≤ c.toNat ∧ c.toNat ≤ 0xDF then 2
      else if 0xE0 ≤ c.toNat ∧ c.toNat ≤ 0xEF then 3
      else if 0xF0 ≤ c.toNat ∧ c.toNat ≤ 0xF7 then 4
      else 0 := by
  have hall : ∀ n : Fin 256, sequenceLength (.ofFin n) =
      if n.val ≤ 126 then 1
      else if 0xC0 ≤ n.val ∧ n.val ≤ 0xDF then 2
      else if 0xE0 ≤ n.val ∧ n.val ≤ 0xEF then 3
      else if 0xF0 ≤ n.val ∧ n.val ≤ 0xF7 then 4
      else 0 := by decide +kernel
  exact hall c.toFin

/-- **What is accepted is well formed or ill formed.** -/
theorem isWellFormed_eq (s : ByteString) :
    isWellFormed s = (isCodePoint s && !isIllFormed s) := by
  rw [Bool.eq_iff_iff]
  rcases s with - | ⟨a, - | ⟨b, - | ⟨c, - | ⟨d, - | ⟨e, s⟩⟩⟩⟩⟩
  · simp [isWellFormed, isCodePoint]
  all_goals
    have hlength := sequenceLength_eq a
    simp only [isWellFormed, isCodePoint, isIllFormed, isContinue_eq_isTail, isTail,
      List.length_cons, List.length_nil, List.all_cons, List.all_nil, Bool.and_eq_true, Bool.or_eq_true,
      Bool.or_eq_false_iff, Bool.and_eq_false_iff, Bool.not_eq_true', decide_eq_true_eq,
      decide_eq_false_iff_not, ← UInt8.toNat_inj, UInt8.le_iff_toNat_le, UInt8.lt_iff_toNat_lt,
      UInt8.toNat_ofNat, Bool.false_eq_true, Bool.not_false, and_true, false_iff]
    split_ifs at hlength <;> omega

/-! ### Strings -/

/-- A string is made of well-formed elements. -/
def IsUtf8 (s : ByteString) : Prop :=
  ∃ elements : List ByteString, (∀ e ∈ elements, isWellFormed e = true) ∧ elements.flatten = s

theorem encode_eq_flatten (cs : List CodePoint) :
    utf8.encode cs = (cs.map Subtype.val).flatten := by
  rw [Code.encode, List.flatMap_def]
  rfl

/-- Well-formed elements are code points, and none of them is ill formed. -/
theorem exists_encode_of_isWellFormed {elements : List ByteString}
    (h : ∀ e ∈ elements, isWellFormed e = true) :
    ∃ cs : List CodePoint, utf8.encode cs = elements.flatten ∧ cs.length = elements.length ∧
      ∀ b ∈ cs, isIllFormed b.val = false := by
  induction elements with
  | nil => exact ⟨[], rfl, rfl, by simp⟩
  | cons e elements ih =>
    obtain ⟨he, helements⟩ := List.forall_mem_cons.mp h
    obtain ⟨cs, hencode, hlength, hwell⟩ := ih helements
    rw [isWellFormed_eq, Bool.and_eq_true, Bool.not_eq_true'] at he
    refine ⟨⟨e, he.1⟩ :: cs, ?_, ?_, ?_⟩
    · rw [Code.encode_cons, utf8_word, hencode, List.flatten_cons]
    · rw [List.length_cons, List.length_cons, hlength]
    · exact List.forall_mem_cons.mpr ⟨he.2, hwell⟩

/-- A string of code points is well formed if they all are. -/
theorem isUtf8_encode_iff {cs : List CodePoint} :
    IsUtf8 (utf8.encode cs) ↔ ∀ b ∈ cs, isIllFormed b.val = false := by
  constructor
  · rintro ⟨elements, helements, hflatten⟩
    obtain ⟨cs', hencode, -, hwell⟩ := exists_encode_of_isWellFormed helements
    rw [Code.encode_injective (hencode.trans hflatten)] at hwell
    exact hwell
  · intro hwell
    refine ⟨cs.map Subtype.val, ?_, (encode_eq_flatten cs).symm⟩
    intro e he
    obtain ⟨b, hb, rfl⟩ := List.mem_map.mp he
    rw [isWellFormed_eq, b.property, hwell b hb]
    rfl

theorem utf8SizeFrom_eq_zero {bytesLeft : ℕ} {s : ByteString} (size : ℕ)
    (h : utf8ValidFrom bytesLeft s = false) : utf8SizeFrom bytesLeft size s = 0 := by
  induction s generalizing bytesLeft size with
  | nil =>
    cases bytesLeft with
    | zero => cases h
    | succ bytesLeft => rfl
  | cons c s ih =>
    cases bytesLeft with
    | zero =>
      rw [utf8ValidFrom_zero_cons] at h
      rw [utf8SizeFrom_zero_cons]
      split_ifs with hc
      · refine ih _ ?_
        simpa [hc] using h
      · rfl
    | succ bytesLeft =>
      rw [utf8ValidFrom] at h
      rw [utf8SizeFrom]
      split_ifs at h ⊢
      · exact ih size h
      · rfl

/-- The size of a string that is not accepted is 0. -/
theorem utf8Size_eq_zero {s : ByteString} (h : utf8Valid s = false) : utf8Size s = 0 :=
  utf8SizeFrom_eq_zero 0 h

/-- A string is accepted if it is made of well-formed elements, and its size is how many there are,
or 0. -/
structure Validates (s : ByteString) : Prop where
  valid : utf8Valid s = true ↔ IsUtf8 s
  size : ∀ elements : List ByteString, (∀ e ∈ elements, isWellFormed e = true) →
    elements.flatten = s → utf8Size s = elements.length
  size_invalid : ¬ IsUtf8 s → utf8Size s = 0

/-- **A string is validated** unless it is accepted with an ill-formed sequence in it. -/
theorem validates_iff (s : ByteString) :
    Validates s ↔
      ∀ cs : List CodePoint, utf8.encode cs = s → ∀ b ∈ cs, isIllFormed b.val = false := by
  constructor
  · rintro h cs rfl
    exact isUtf8_encode_iff.mp (h.valid.mp (utf8Valid_iff.mpr ⟨cs, rfl⟩))
  · intro h
    have hvalid : utf8Valid s = true ↔ IsUtf8 s := by
      rw [utf8Valid_iff]
      constructor
      · rintro ⟨cs, rfl⟩
        exact isUtf8_encode_iff.mpr (h cs rfl)
      · rintro ⟨elements, helements, rfl⟩
        obtain ⟨cs, hencode, -⟩ := exists_encode_of_isWellFormed helements
        exact ⟨cs, hencode⟩
    refine ⟨hvalid, ?_, ?_⟩
    · rintro elements helements rfl
      obtain ⟨cs, hencode, hlength, -⟩ := exists_encode_of_isWellFormed helements
      rw [← hencode, utf8Size_encode, hlength]
    · intro hnot
      exact utf8Size_eq_zero (Bool.eq_false_iff.mpr (mt hvalid.mp hnot))

/-- A null character in two bytes is accepted. -/
theorem not_validates : ¬ ∀ s : ByteString, Validates s := by
  intro h
  have hwell := (h [0xC0, 0x80]).valid.mp (by decide)
  have hill := isUtf8_encode_iff.mp
    (show IsUtf8 (utf8.encode [⟨[0xC0, 0x80], by decide⟩]) from hwell)
  exact absurd (hill _ List.mem_cons_self) (by decide)

end Mutgos.Text
