import Mutgos.Text.Utf8Tools

/-!
# Extended ASCII

`convert_extended_to_utf8` and `convert_utf8_to_extended`.  What has been passed over and not been
copied yet, from `mark` to `index`, is carried along.  The last byte of extended ASCII is read, but
it is not written: 255 becomes the replacement character.

## Main results

* `converts_iff` — **strings are converted there and back** unless 255 is in them.
-/

namespace Mutgos.Text

/-- `convert_bits_to_utf8`, where `n` bytes with six bits each are left. -/
def continueBytes (data : UInt32) : ℕ → ByteString
  | 0 => []
  | n + 1 => (0x80 ||| ((data >>> (6 * n).toUInt32).toUInt8 &&& 0x3F)) :: continueBytes data n

def convertBitsToUtf8 (data : UInt32) (bits : ℕ) : ByteString :=
  if 16 < bits then ((0xF0 : UInt8) ||| (data >>> 18).toUInt8) :: continueBytes data 3
  else if 11 < bits then ((0xE0 : UInt8) ||| (data >>> 12).toUInt8) :: continueBytes data 2
  else if 7 < bits then ((0xC0 : UInt8) ||| (data >>> 6).toUInt8) :: continueBytes data 1
  else [data.toUInt8]

def convertBitsToExtended (first second : UInt8) : UInt8 :=
  if first &&& 0xE0 = 0xC0 ∧ second &&& 0xC0 = 0x80 then
    let data := ((first &&& 0x1F).toUInt32 <<< 6) ||| (second &&& 0x3F).toUInt32
    if data ≤ 255 ∧ 160 ≤ data then data.toUInt8 else 63
  else 63

/-- What a byte that is not printable ASCII is converted to. -/
def unprintableToUtf8 (c : UInt8) : ByteString :=
  if c < 32 then [63]
  else if 0xA0 ≤ c ∧ c ≤ 0xFE then convertBitsToUtf8 c.toUInt32 8
  else convertBitsToUtf8 0xFFFD 16

/-- The loop of `convert_extended_to_utf8`. -/
def toUtf8From (pending : ByteString) : ByteString → ByteString
  | [] => pending
  | c :: s =>
    if c < 32 ∨ 126 < c then pending ++ unprintableToUtf8 c ++ toUtf8From [] s
    else toUtf8From (pending ++ [c]) s

def convertExtendedToUtf8 (line : ByteString) : ByteString := toUtf8From [] line

/-- The loop of `convert_utf8_to_extended`, with so many bytes to skip if they are in the middle of
a code point. -/
def toExtendedFrom (toSkip : ℕ) (pending : ByteString) : ByteString → ByteString
  | [] => pending
  | c :: s =>
    if 0 < toSkip ∧ isContinue c then toExtendedFrom (toSkip - 1) [] s
    else if 126 < c then
      if sequenceLength c = 2 then
        match s with
        | [] => pending ++ [63]
        | d :: s =>
          if isContinue d then pending ++ convertBitsToExtended c d :: toExtendedFrom 0 [] s
          else pending ++ 63 :: toExtendedFrom 0 [] (d :: s)
      -- Nothing is skipped after a byte of which it is unknown what it is.
      else pending ++ 63 :: toExtendedFrom (sequenceLength c - 1) [] s
    else toExtendedFrom 0 (pending ++ [c]) s

def convertUtf8ToExtended (line : ByteString) : ByteString := toExtendedFrom 0 [] line

/-! ### Writing -/

/-- What a byte is converted to. -/
def toUtf8Byte (c : UInt8) : ByteString :=
  if c < 32 ∨ 126 < c then unprintableToUtf8 c else [c]

theorem isCodePoint_toUtf8Byte (c : UInt8) : isCodePoint (toUtf8Byte c) = true := by
  have hall : ∀ n : Fin 256, isCodePoint (toUtf8Byte (.ofFin n)) = true := by decide +kernel
  exact hall c.toFin

/-- The code point of a byte. -/
def pointOf (c : UInt8) : CodePoint := ⟨toUtf8Byte c, isCodePoint_toUtf8Byte c⟩

theorem toUtf8From_eq (pending s : ByteString) :
    toUtf8From pending s = pending ++ utf8.encode (s.map pointOf) := by
  induction s generalizing pending with
  | nil => simp [toUtf8From]
  | cons c s ih =>
    have hbyte : (pointOf c).val = if c < 32 ∨ 126 < c then unprintableToUtf8 c else [c] := rfl
    rw [toUtf8From, List.map_cons, Code.encode_cons, utf8_word, hbyte]
    split_ifs <;> simp [ih]

/-! ### Reading -/

/-- The byte of a code point: what its two bytes encode, if that is extended ASCII. -/
def extendedByte : ByteString → UInt8
  | [c] => c
  | [c, d] =>
    let n := 64 * (c.toNat % 32) + d.toNat % 64
    if 160 ≤ n ∧ n ≤ 255 then n.toUInt8 else 63
  | _ => 63

theorem convertBitsToExtended_eq {c d : UInt8} (hc : sequenceLength c = 2)
    (hd : isContinue d = true) : convertBitsToExtended c d = extendedByte [c, d] := by
  have hfirst : ∀ n : Fin 256, sequenceLength (.ofFin n) = 2 →
      UInt8.ofFin n = 0xC0 + (n.val % 32).toUInt8 := by decide +kernel
  have hsecond : ∀ n : Fin 256, isContinue (.ofFin n) = true →
      UInt8.ofFin n = 0x80 + (n.val % 64).toUInt8 := by decide +kernel
  have hall : ∀ (a : Fin 32) (b : Fin 64), convertBitsToExtended (0xC0 + a.val.toUInt8)
      (0x80 + b.val.toUInt8) = extendedByte [0xC0 + a.val.toUInt8, 0x80 + b.val.toUInt8] := by
    decide +kernel
  rw [show c = 0xC0 + (c.toNat % 32).toUInt8 from hfirst c.toFin hc,
    show d = 0x80 + (d.toNat % 64).toUInt8 from hsecond d.toFin hd]
  exact hall ⟨c.toNat % 32, Nat.mod_lt _ (by decide)⟩ ⟨d.toNat % 64, Nat.mod_lt _ (by decide)⟩

/-- The rest of a code point is skipped. -/
theorem toExtendedFrom_skip {s : ByteString} (h : s.all isContinue = true) (t : ByteString) :
    toExtendedFrom s.length [] (s ++ t) = toExtendedFrom 0 [] t := by
  induction s with
  | nil => rfl
  | cons c s ih =>
    rw [List.all_cons, Bool.and_eq_true] at h
    rw [List.cons_append, toExtendedFrom.eq_def]
    simpa [h.1] using ih h.2

/-- **One byte for each code point.** -/
theorem toExtendedFrom_encode (pending : ByteString) (cs : List CodePoint) :
    toExtendedFrom 0 pending (utf8.encode cs) = pending ++ cs.map fun b => extendedByte b.val := by
  induction cs generalizing pending with
  | nil => simp [toExtendedFrom]
  | cons b cs ih =>
    obtain ⟨c, s, hb, -, hlength, hcontinue⟩ := b.exists_eq_cons
    rw [Code.encode_cons, utf8_word, List.map_cons, hb, List.cons_append, toExtendedFrom.eq_def]
    by_cases hascii : 126 < c
    · by_cases htwo : sequenceLength c = 2
      · obtain ⟨d, rfl⟩ := List.length_eq_one_iff.mp (show s.length = 1 by omega)
        have hd : isContinue d = true := by simpa using hcontinue
        simp [hascii, htwo, hd, ih, convertBitsToExtended_eq]
      · have hmany : 1 < s.length := by
          rw [sequenceLength] at hlength htwo
          split_ifs at hlength htwo <;> omega
        have hbyte : extendedByte (c :: s) = 63 := by
          obtain ⟨d, d', rest, rfl⟩ : ∃ d d' rest, s = d :: d' :: rest := by
            cases s with
            | nil => simp at hmany
            | cons d rest =>
              cases rest with
              | nil => simp at hmany
              | cons d' rest => exact ⟨d, d', rest, rfl⟩
          rfl
        have hskip := (toExtendedFrom_skip hcontinue (utf8.encode cs)).trans (ih [])
        have hleft : sequenceLength c - 1 = s.length := by omega
        simp [hascii, htwo, hbyte, hleft, hskip]
    · have hs : s = [] := by
        rw [sequenceLength, if_neg hascii] at hlength
        exact List.length_eq_zero_iff.mp (by omega)
      simp [hs, hascii, ih, extendedByte]

/-! ### There and back -/

/-- Printable ASCII, or printable extended ASCII. -/
def IsPrintable (c : UInt8) : Prop := 32 ≤ c ∧ c ≤ 126 ∨ 160 ≤ c

/-- What is converted to UTF-8 is valid and, if it is printable, read as it was; and what is read is
one byte for each code point. -/
structure Converts (s : ByteString) : Prop where
  roundTrip : (∀ c ∈ s, IsPrintable c) → convertUtf8ToExtended (convertExtendedToUtf8 s) = s
  valid : utf8Valid (convertExtendedToUtf8 s) = true
  reads : ∀ cs, utf8.encode cs = s →
    convertUtf8ToExtended s = cs.map fun b => extendedByte b.val

/-- Which bytes are read as they were. -/
theorem extendedByte_toUtf8Byte {c : UInt8} (h : IsPrintable c) :
    extendedByte (toUtf8Byte c) = c ↔ c ≠ 255 := by
  have hall : ∀ n : Fin 256, (32 ≤ UInt8.ofFin n ∧ UInt8.ofFin n ≤ 126 ∨ 160 ≤ UInt8.ofFin n) →
      (extendedByte (toUtf8Byte (.ofFin n)) = .ofFin n ↔ UInt8.ofFin n ≠ 255) := by
    decide +kernel
  exact hall c.toFin h

/-- **Strings are converted there and back** unless they are printable and 255 is in them. -/
theorem converts_iff (s : ByteString) :
    Converts s ↔ ¬ ((∀ c ∈ s, IsPrintable c) ∧ 255 ∈ s) := by
  have hwritten : convertExtendedToUtf8 s = utf8.encode (s.map pointOf) := toUtf8From_eq [] s
  have hread : ∀ cs, convertUtf8ToExtended (utf8.encode cs) = cs.map fun b => extendedByte b.val :=
    toExtendedFrom_encode []
  have hback : (∀ c ∈ s, IsPrintable c) →
      (convertUtf8ToExtended (convertExtendedToUtf8 s) = s ↔ 255 ∉ s) := by
    intro hprintable
    have hsame : s.map (fun c => extendedByte (toUtf8Byte c)) = s ↔
        ∀ c ∈ s, extendedByte (toUtf8Byte c) = c := by
      simpa using List.map_inj_left (l := s) (g := id)
    rw [hwritten, hread, List.map_map]
    refine hsame.trans ⟨fun h hmem => ?_, fun h c hc => ?_⟩
    · exact (extendedByte_toUtf8Byte (hprintable 255 hmem)).mp (h 255 hmem) rfl
    · refine (extendedByte_toUtf8Byte (hprintable c hc)).mpr ?_
      rintro rfl
      exact h hc
  constructor
  · rintro hconverts ⟨hprintable, hmem⟩
    exact (hback hprintable).mp (hconverts.roundTrip hprintable) hmem
  · intro hnot
    refine ⟨fun hprintable => (hback hprintable).mpr fun hmem => hnot ⟨hprintable, hmem⟩,
      utf8Valid_iff.mpr ⟨_, hwritten.symm⟩, ?_⟩
    rintro cs rfl
    exact hread cs

/-- **255** is not converted back. -/
theorem not_converts : ¬ Converts [255] := by
  intro h
  have hback := h.roundTrip (by simp [IsPrintable])
  exact absurd hback (by decide +kernel)

end Mutgos.Text
