import Mathlib.Data.List.Basic
import Mathlib.Data.List.Infix

/-!
# Occurrences in coded texts

A pattern occurs in a text at every place where it is a prefix of what is left.
A text can be written over another alphabet, each letter by a word, and searched
there: this finds the same occurrences when a word is recognised by its first
symbol, which is in no other place of a word, and no word begins another one.

## Main results

* `Code.occursAt_encode_iff` — **a written pattern occurs where the pattern does.**
-/

namespace Mutgos

open List

variable {α β : Type*}

/-- The pattern stands in the text at the place `i`. -/
def OccursAt (pattern text : List α) (i : ℕ) : Prop := pattern <+: text.drop i

instance [DecidableEq α] (pattern text : List α) (i : ℕ) : Decidable (OccursAt pattern text i) :=
  inferInstanceAs (Decidable (pattern <+: text.drop i))

theorem OccursAt.add_length_le {pattern text : List α} {i : ℕ} (h : OccursAt pattern text i)
    (hpattern : pattern ≠ []) : i + pattern.length ≤ text.length := by
  have hlength := h.length_le
  have hpos := length_pos_of_ne_nil hpattern
  rw [length_drop] at hlength
  omega

theorem OccursAt.lt_length {pattern text : List α} {i : ℕ} (h : OccursAt pattern text i)
    (hpattern : pattern ≠ []) : i < text.length := by
  have hbound := h.add_length_le hpattern
  have hpos := length_pos_of_ne_nil hpattern
  omega

/-- The first occurrence that is not before `start`. -/
def IsFirst (pattern text : List α) (start i : ℕ) : Prop :=
  start ≤ i ∧ OccursAt pattern text i ∧ ∀ j, start ≤ j → j < i → ¬ OccursAt pattern text j

/-- The last occurrence. -/
def IsLast (pattern text : List α) (i : ℕ) : Prop :=
  OccursAt pattern text i ∧ ∀ j, i < j → ¬ OccursAt pattern text j

/-- The greatest number below `n` that passes a test. -/
def lastBelow (test : ℕ → Bool) : ℕ → Option ℕ
  | 0 => none
  | n + 1 => if test n then some n else lastBelow test n

theorem lastBelow_eq_some_iff {test : ℕ → Bool} {n i : ℕ} :
    lastBelow test n = some i ↔
      i < n ∧ test i = true ∧ ∀ j, i < j → j < n → test j = false := by
  induction n with
  | zero => simp [lastBelow]
  | succ n ih =>
    rw [lastBelow]
    by_cases htest : test n
    · rw [if_pos htest, Option.some.injEq]
      constructor
      · rintro rfl
        exact ⟨by omega, htest, fun j hj hjn => by omega⟩
      · rintro ⟨hi, -, hlater⟩
        by_contra hne
        exact absurd (hlater n (by omega) (by omega)) (by simp [htest])
    · rw [if_neg htest, ih]
      constructor
      · rintro ⟨hi, htesti, hlater⟩
        refine ⟨by omega, htesti, ?_⟩
        intro j hij hjn
        rcases Nat.lt_succ_iff_lt_or_eq.mp hjn with hlt | rfl
        · exact hlater j hij hlt
        · simpa using htest
      · rintro ⟨hi, htesti, hlater⟩
        have hne : i ≠ n := by
          rintro rfl
          exact htest htesti
        exact ⟨by omega, htesti, fun j hij hjn => hlater j hij (by omega)⟩

theorem lastBelow_eq_none_iff {test : ℕ → Bool} {n : ℕ} :
    lastBelow test n = none ↔ ∀ j < n, test j = false := by
  induction n with
  | zero => simp [lastBelow]
  | succ n ih =>
    rw [lastBelow]
    by_cases htest : test n
    · rw [if_pos htest]
      refine iff_of_false (by simp) ?_
      intro hall
      simp [hall n (by omega)] at htest
    · rw [if_neg htest, ih]
      constructor
      · intro hall j hj
        rcases Nat.lt_succ_iff_lt_or_eq.mp hj with hlt | rfl
        · exact hall j hlt
        · simpa using htest
      · intro hall j hj
        exact hall j (by omega)

section Search

variable [DecidableEq α] {pattern text : List α} {start i : ℕ}

/-- Where the pattern stands first, not before `start`; an empty pattern stands nowhere. -/
def firstOccurrence (pattern text : List α) (start : ℕ) : Option ℕ :=
  if pattern = [] then none
  else (List.range' start (text.length - start)).find? fun i => OccursAt pattern text i

/-- Where the pattern stands last; an empty pattern stands nowhere. -/
def lastOccurrence (pattern text : List α) : Option ℕ :=
  if pattern = [] then none
  else lastBelow (fun i => OccursAt pattern text i) text.length

section

variable (hpattern : pattern ≠ [])
include hpattern

theorem firstOccurrence_eq_some_iff :
    firstOccurrence pattern text start = some i ↔ IsFirst pattern text start i := by
  rw [firstOccurrence, if_neg hpattern, find?_range'_eq_some]
  simp only [decide_eq_true_eq, Bool.not_eq_true', decide_eq_false_iff_not, mem_range'_1,
    IsFirst]
  constructor
  · rintro ⟨hoccurs, ⟨hstart, -⟩, hbefore⟩
    exact ⟨hstart, hoccurs, hbefore⟩
  · rintro ⟨hstart, hoccurs, hbefore⟩
    have hlt := hoccurs.lt_length hpattern
    exact ⟨hoccurs, ⟨hstart, by omega⟩, hbefore⟩

theorem firstOccurrence_eq_none_iff :
    firstOccurrence pattern text start = none ↔ ∀ j, start ≤ j → ¬ OccursAt pattern text j := by
  rw [firstOccurrence, if_neg hpattern, find?_eq_none]
  simp only [decide_eq_true_eq, mem_range'_1]
  constructor
  · intro hnone j hj hoccurs
    have hlt := hoccurs.lt_length hpattern
    exact hnone j ⟨hj, by omega⟩ hoccurs
  · intro hnone j hj
    exact hnone j hj.1

/-- The search can start behind places where there is nothing. -/
theorem firstOccurrence_congr {start' : ℕ} (hstart : start ≤ start')
    (hnone : ∀ j, start ≤ j → j < start' → ¬ OccursAt pattern text j) :
    firstOccurrence pattern text start' = firstOccurrence pattern text start := by
  cases hfirst : firstOccurrence pattern text start' with
  | none =>
    rw [firstOccurrence_eq_none_iff hpattern] at hfirst
    refine ((firstOccurrence_eq_none_iff hpattern).mpr ?_).symm
    intro j hj
    by_cases hbefore : j < start'
    · exact hnone j hj hbefore
    · exact hfirst j (by omega)
  | some i =>
    rw [firstOccurrence_eq_some_iff hpattern] at hfirst
    refine ((firstOccurrence_eq_some_iff hpattern).mpr ?_).symm
    refine ⟨hstart.trans hfirst.1, hfirst.2.1, ?_⟩
    intro j hj hji
    by_cases hbefore : j < start'
    · exact hnone j hj hbefore
    · exact hfirst.2.2 j (by omega) hji

theorem lastOccurrence_eq_some_iff :
    lastOccurrence pattern text = some i ↔ IsLast pattern text i := by
  rw [lastOccurrence, if_neg hpattern, lastBelow_eq_some_iff]
  simp only [decide_eq_true_eq, decide_eq_false_iff_not, IsLast]
  constructor
  · rintro ⟨-, hoccurs, hlater⟩
    refine ⟨hoccurs, ?_⟩
    intro j hij hj
    exact hlater j hij (hj.lt_length hpattern) hj
  · rintro ⟨hoccurs, hlater⟩
    exact ⟨hoccurs.lt_length hpattern, hoccurs, fun j hij _ => hlater j hij⟩

theorem lastOccurrence_eq_none_iff :
    lastOccurrence pattern text = none ↔ ∀ j, ¬ OccursAt pattern text j := by
  rw [lastOccurrence, if_neg hpattern, lastBelow_eq_none_iff]
  simp only [decide_eq_false_iff_not]
  constructor
  · intro hnone j hoccurs
    exact hnone j (hoccurs.lt_length hpattern) hoccurs
  · intro hnone j _
    exact hnone j

end

end Search

/-! ### Codes -/

/-- Words for letters.  The first symbol of a word is in no other place of a word, and
no word begins another one. -/
structure Code (β α : Type*) where
  /-- The word for a letter. -/
  word : β → List α
  /-- The symbols that words begin with. -/
  lead : α → Prop
  word_ne_nil : ∀ b, word b ≠ []
  lead_head : ∀ b, lead ((word b).head (word_ne_nil b))
  not_lead_tail : ∀ b, ∀ x ∈ (word b).tail, ¬ lead x
  word_inj : ∀ a b, word a <+: word b → a = b

namespace Code

variable (C : Code β α)

/-- The text, written in words. -/
def encode (text : List β) : List α := text.flatMap C.word

/-- Where the letter `i` begins in the written text. -/
def offset (text : List β) (i : ℕ) : ℕ := (C.encode (text.take i)).length

variable {C} {text pattern : List β} {b : β} {i j p : ℕ}

@[simp] theorem encode_nil : C.encode [] = [] := rfl

@[simp] theorem encode_cons : C.encode (b :: text) = C.word b ++ C.encode text := rfl

@[simp] theorem encode_append (text₁ text₂ : List β) :
    C.encode (text₁ ++ text₂) = C.encode text₁ ++ C.encode text₂ :=
  flatMap_append

@[simp] theorem encode_eq_nil_iff : C.encode text = [] ↔ text = [] := by
  cases text with
  | nil => simp
  | cons b text => simp [C.word_ne_nil b]

theorem length_le_length_encode (text : List β) : text.length ≤ (C.encode text).length := by
  induction text with
  | nil => simp
  | cons b text ih =>
    have hpos := length_pos_of_ne_nil (C.word_ne_nil b)
    rw [encode_cons, length_append, length_cons]
    omega

@[simp] theorem offset_zero : C.offset text 0 = 0 := by simp [offset]

theorem offset_length : C.offset text text.length = (C.encode text).length := by
  rw [offset, take_length]

@[simp] theorem offset_cons_succ :
    C.offset (b :: text) (i + 1) = (C.word b).length + C.offset text i := by
  simp [offset]

theorem encode_take (i : ℕ) :
    C.encode (text.take i) = (C.encode text).take (C.offset text i) := by
  have hsplit := congrArg C.encode (take_append_drop i text)
  rw [encode_append] at hsplit
  rw [← hsplit, offset, take_left]

theorem encode_drop (i : ℕ) :
    C.encode (text.drop i) = (C.encode text).drop (C.offset text i) := by
  have hsplit := congrArg C.encode (take_append_drop i text)
  rw [encode_append] at hsplit
  rw [← hsplit, offset, drop_left]

/-- A part of the text is a part of what is written. -/
theorem encode_drop_take (hij : i ≤ j) :
    C.encode ((text.drop i).take (j - i)) =
      ((C.encode text).drop (C.offset text i)).take
        (C.offset text j - C.offset text i) := by
  have hsame : C.offset (text.take j) i = C.offset text i := by
    rw [offset, offset, take_take, Nat.min_eq_left hij]
  rw [← drop_take, ← drop_take, ← encode_take, encode_drop, hsame]

theorem offset_succ (h : i < text.length) :
    C.offset text (i + 1) = C.offset text i + (C.word text[i]).length := by
  rw [offset, take_add_one, getElem?_eq_getElem h, encode_append, length_append,
    offset]
  simp

theorem drop_offset (h : i < text.length) :
    (C.encode text).drop (C.offset text i) =
      C.word text[i] ++ C.encode (text.drop (i + 1)) := by
  rw [← encode_drop, drop_eq_getElem_cons h, encode_cons]

/-- Later letters begin later. -/
theorem offset_lt_offset (hij : i < j) (hj : j ≤ text.length) :
    C.offset text i < C.offset text j := by
  induction text generalizing i j with
  | nil => simp at hj; omega
  | cons b text ih =>
    obtain ⟨j, rfl⟩ : ∃ k, j = k + 1 := ⟨j - 1, by omega⟩
    have hpos := length_pos_of_ne_nil (C.word_ne_nil b)
    rw [offset_cons_succ]
    cases i with
    | zero => rw [offset_zero]; omega
    | succ i =>
      rw [length_cons] at hj
      have hlt := ih (i := i) (j := j) (by omega) (by omega)
      rw [offset_cons_succ]
      omega

theorem offset_lt_offset_iff (hi : i ≤ text.length) (hj : j ≤ text.length) :
    C.offset text i < C.offset text j ↔ i < j := by
  constructor
  · intro hlt
    by_contra hle
    rcases Nat.lt_or_eq_of_le (Nat.le_of_not_lt hle) with hji | rfl
    · have hback := offset_lt_offset (C := C) hji hi
      omega
    · omega
  · intro hij
    exact offset_lt_offset hij hj

theorem offset_le_offset_iff (hi : i ≤ text.length) (hj : j ≤ text.length) :
    C.offset text i ≤ C.offset text j ↔ i ≤ j := by
  rw [← Nat.not_lt, ← Nat.not_lt, offset_lt_offset_iff hj hi]

/-- There is something of every element that is passed. -/
theorem le_offset (hi : i ≤ text.length) : i ≤ C.offset text i := by
  have hlength := C.length_le_length_encode (text.take i)
  rwa [length_take, Nat.min_eq_left hi] at hlength

/-- **A written text begins with another one exactly if the texts do.** -/
theorem encode_prefix_iff : C.encode pattern <+: C.encode text ↔ pattern <+: text := by
  induction pattern generalizing text with
  | nil => simp
  | cons a pattern ih =>
    cases text with
    | nil => simp [C.word_ne_nil a]
    | cons b text =>
      rw [encode_cons, encode_cons, cons_prefix_cons]
      constructor
      · intro h
        -- Both words begin what is written, so one of them begins the other.
        have ha : C.word a <+: C.word b ++ C.encode text :=
          (prefix_append _ _).trans h
        have hab : a = b := by
          rcases List.prefix_or_prefix_of_prefix ha (prefix_append _ _) with hab | hba
          · exact C.word_inj a b hab
          · exact (C.word_inj b a hba).symm
        subst hab
        rw [prefix_append_right_inj, ih] at h
        exact ⟨rfl, h⟩
      · rintro ⟨rfl, h⟩
        rw [prefix_append_right_inj, ih]
        exact h

theorem encode_injective (h : C.encode pattern = C.encode text) : pattern = text := by
  have hforth : C.encode pattern <+: C.encode text := by rw [h]
  have hback : C.encode text <+: C.encode pattern := by rw [h]
  exact (encode_prefix_iff.mp hforth).eq_of_length_le (encode_prefix_iff.mp hback).length_le

/-- A symbol that words begin with stands only where a letter begins. -/
theorem exists_offset_eq {x : α} (hx : (C.encode text)[p]? = some x) (hlead : C.lead x) :
    ∃ i < text.length, p = C.offset text i := by
  induction text generalizing p with
  | nil => simp at hx
  | cons b text ih =>
    rw [encode_cons] at hx
    by_cases hzero : p = 0
    · exact ⟨0, by simp, by rw [hzero, offset_zero]⟩
    by_cases hp : p < (C.word b).length
    · rw [getElem?_append_left hp] at hx
      have htail : x ∈ (C.word b).tail := by
        rw [← drop_one, mem_iff_getElem?]
        exact ⟨p - 1, by rw [getElem?_drop, ← hx]; congr 1; omega⟩
      exact absurd hlead (C.not_lead_tail b x htail)
    · rw [getElem?_append_right (by omega)] at hx
      obtain ⟨i, hi, hpi⟩ := ih hx
      exact ⟨i + 1, by simpa using hi, by rw [offset_cons_succ]; omega⟩

/-- What is written begins with a symbol that words begin with. -/
theorem exists_lead (h : pattern ≠ []) :
    ∃ x, (C.encode pattern)[0]? = some x ∧ C.lead x := by
  cases pattern with
  | nil => exact absurd rfl h
  | cons b pattern =>
    refine ⟨_, ?_, C.lead_head b⟩
    rw [encode_cons, getElem?_append_left (length_pos_of_ne_nil (C.word_ne_nil b)),
      head_eq_getElem, getElem?_eq_getElem]

/-- **A written pattern occurs where the pattern does.** -/
theorem occursAt_encode_iff (hpattern : pattern ≠ []) :
    OccursAt (C.encode pattern) (C.encode text) p ↔
      ∃ i < text.length, p = C.offset text i ∧ OccursAt pattern text i := by
  constructor
  · intro h
    obtain ⟨x, hx, hlead⟩ := exists_lead (C := C) hpattern
    have hp : (C.encode text)[p]? = some x := by
      obtain ⟨rest, hrest⟩ := h
      have hfirst : ((C.encode text).drop p)[0]? = some x := by
        rw [← hrest, getElem?_append_left (List.getElem?_eq_some_iff.mp hx).1, hx]
      rwa [getElem?_drop, Nat.add_zero] at hfirst
    obtain ⟨i, hi, rfl⟩ := exists_offset_eq hp hlead
    rw [OccursAt, ← encode_drop, encode_prefix_iff] at h
    exact ⟨i, hi, rfl, h⟩
  · rintro ⟨i, -, rfl, h⟩
    rw [OccursAt, ← encode_drop, encode_prefix_iff]
    exact h

theorem isFirst_encode_iff (hpattern : pattern ≠ []) (hj : j ≤ text.length) :
    IsFirst (C.encode pattern) (C.encode text) (C.offset text j) p ↔
      ∃ i < text.length, p = C.offset text i ∧ IsFirst pattern text j i := by
  simp only [IsFirst, occursAt_encode_iff hpattern]
  constructor
  · rintro ⟨hstart, ⟨i, hi, rfl, hoccurs⟩, hbefore⟩
    refine ⟨i, hi, rfl, (offset_le_offset_iff hj hi.le).mp hstart, hoccurs, ?_⟩
    intro k hjk hki hk
    have hklt : k < text.length := hki.trans hi
    exact hbefore _ ((offset_le_offset_iff hj hklt.le).mpr hjk)
      ((offset_lt_offset_iff hklt.le hi.le).mpr hki) ⟨k, hklt, rfl, hk⟩
  · rintro ⟨i, hi, rfl, hji, hoccurs, hbefore⟩
    refine ⟨(offset_le_offset_iff hj hi.le).mpr hji, ⟨i, hi, rfl, hoccurs⟩, ?_⟩
    rintro _ hstart hlt ⟨k, hk, rfl, hkoccurs⟩
    exact hbefore k ((offset_le_offset_iff hj hk.le).mp hstart)
      ((offset_lt_offset_iff hk.le hi.le).mp hlt) hkoccurs

theorem isLast_encode_iff (hpattern : pattern ≠ []) :
    IsLast (C.encode pattern) (C.encode text) p ↔
      ∃ i < text.length, p = C.offset text i ∧ IsLast pattern text i := by
  simp only [IsLast, occursAt_encode_iff hpattern]
  constructor
  · rintro ⟨⟨i, hi, rfl, hoccurs⟩, hlater⟩
    refine ⟨i, hi, rfl, hoccurs, ?_⟩
    intro k hik hk
    have hklt := hk.lt_length hpattern
    exact hlater _ ((offset_lt_offset_iff hi.le hklt.le).mpr hik) ⟨k, hklt, rfl, hk⟩
  · rintro ⟨i, hi, rfl, hoccurs, hlater⟩
    refine ⟨⟨i, hi, rfl, hoccurs⟩, ?_⟩
    rintro _ hlt ⟨k, hk, rfl, hkoccurs⟩
    exact hlater k ((offset_lt_offset_iff hi.le hk.le).mp hlt) hkoccurs

variable [DecidableEq α] [DecidableEq β]

/-- Searching what is written finds what searching the text finds. -/
theorem firstOccurrence_encode (hj : j ≤ text.length) :
    firstOccurrence (C.encode pattern) (C.encode text) (C.offset text j) =
      (firstOccurrence pattern text j).map (C.offset text) := by
  by_cases hpattern : pattern = []
  · simp [hpattern, firstOccurrence]
  have hcoded : C.encode pattern ≠ [] := by simpa using hpattern
  cases hfirst : firstOccurrence pattern text j with
  | none =>
    rw [firstOccurrence_eq_none_iff hpattern] at hfirst
    rw [Option.map_none, firstOccurrence_eq_none_iff hcoded]
    intro p hp hoccurs
    obtain ⟨i, hi, rfl, hi'⟩ := (occursAt_encode_iff hpattern).mp hoccurs
    exact hfirst i ((offset_le_offset_iff hj hi.le).mp hp) hi'
  | some i =>
    rw [firstOccurrence_eq_some_iff hpattern] at hfirst
    rw [Option.map_some, firstOccurrence_eq_some_iff hcoded, isFirst_encode_iff hpattern hj]
    exact ⟨i, hfirst.2.1.lt_length hpattern, rfl, hfirst⟩

theorem lastOccurrence_encode :
    lastOccurrence (C.encode pattern) (C.encode text) =
      (lastOccurrence pattern text).map (C.offset text) := by
  by_cases hpattern : pattern = []
  · simp [hpattern, lastOccurrence]
  have hcoded : C.encode pattern ≠ [] := by simpa using hpattern
  cases hlast : lastOccurrence pattern text with
  | none =>
    rw [lastOccurrence_eq_none_iff hpattern] at hlast
    rw [Option.map_none, lastOccurrence_eq_none_iff hcoded]
    intro p hoccurs
    obtain ⟨i, -, rfl, hi⟩ := (occursAt_encode_iff hpattern).mp hoccurs
    exact hlast i hi
  | some i =>
    rw [lastOccurrence_eq_some_iff hpattern] at hlast
    rw [Option.map_some, lastOccurrence_eq_some_iff hcoded, isLast_encode_iff hpattern]
    exact ⟨i, hlast.1.lt_length hpattern, rfl, hlast⟩

end Code

end Mutgos
