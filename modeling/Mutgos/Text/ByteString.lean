import Mathlib.Data.List.Basic
import Mathlib.Data.List.DropRight
import Mathlib.Order.RelClasses

/-!
# Byte strings

A `std::string` is a list of bytes, and what the text functions make of it
depends on the bytes only: blanks are those of the "C" locale, which the program
never changes.

-/

namespace Mutgos.Text

open List

/-- `std::string` -/
abbrev ByteString := List UInt8

/-- `std::isspace` in the "C" locale. -/
def isSpace (c : UInt8) : Bool := c = 32 || (9 ≤ c && c ≤ 13)

/-- `boost::trim_copy`. -/
def trimCopy (s : ByteString) : ByteString :=
  ((s.dropWhile isSpace).reverse.dropWhile isSpace).reverse

/-- The tokens between separators. -/
def tokens (separator : UInt8) (s : ByteString) : List ByteString :=
  (s.splitOn separator).filter (· ≠ [])

/-- `utf8_size`, in the middle of a string: how many more bytes the current code
point needs, and how many code points have been counted.  A string that is not
valid has size 0. -/
def utf8SizeFrom : (bytesLeft size : ℕ) → ByteString → ℕ
  | 0, size, [] => size
  | _ + 1, _, [] => 0
  | bytesLeft + 1, size, c :: s =>
    if c &&& 0xC0 = 0x80 then utf8SizeFrom bytesLeft size s else 0
  | 0, size, c :: s =>
    if c < 32 then 0
    else if 126 < c then
      if c &&& 0xE0 = 0xC0 then utf8SizeFrom 1 (size + 1) s
      else if c &&& 0xF0 = 0xE0 then utf8SizeFrom 2 (size + 1) s
      else if c &&& 0xF8 = 0xF0 then utf8SizeFrom 3 (size + 1) s
      else 0
    else utf8SizeFrom 0 (size + 1) s

def utf8Size (s : ByteString) : ℕ := utf8SizeFrom 0 0 s

/-- `utf8_valid`, in the middle of a string: how many more bytes the current code point needs. -/
def utf8ValidFrom : (bytesLeft : ℕ) → ByteString → Bool
  | 0, [] => true
  | _ + 1, [] => false
  | bytesLeft + 1, c :: s => if c &&& 0xC0 = 0x80 then utf8ValidFrom bytesLeft s else false
  | 0, c :: s =>
    if c < 32 then false
    else if 126 < c then
      if c &&& 0xE0 = 0xC0 then utf8ValidFrom 1 s
      else if c &&& 0xF0 = 0xE0 then utf8ValidFrom 2 s
      else if c &&& 0xF8 = 0xF0 then utf8ValidFrom 3 s
      else false
    else utf8ValidFrom 0 s

def utf8Valid (s : ByteString) : Bool := utf8ValidFrom 0 s

/-- `boost::to_lower_copy`.  Names are the same to a column with `COLLATE NOCASE` when
this is the same. -/
def toLowerCopy (s : ByteString) : ByteString :=
  s.map fun c => if 65 ≤ c && c ≤ 90 then c + 32 else c

/-- `boost::to_upper_copy` -/
def toUpperCopy (s : ByteString) : ByteString :=
  s.map fun c => if 97 ≤ c && c ≤ 122 then c - 32 else c

/-- Strings are ordered as `std::string` is. -/
instance : IsStrictTotalOrder ByteString (· < ·) where
  irrefl := List.lt_irrefl
  trans _ _ _ := List.lt_trans
  trichotomous _ _ hst hts := List.le_antisymm (List.not_lt.mp hts) (List.not_lt.mp hst)

/-! ### Trimming -/

/-- Nothing is left to trim. -/
@[simp] theorem trimCopy_trimCopy (s : ByteString) : trimCopy (trimCopy s) = trimCopy s := by
  have htrim : ∀ s : ByteString, trimCopy s = (s.dropWhile isSpace).rdropWhile isSpace :=
    fun _ => rfl
  have hfront : (trimCopy s).dropWhile isSpace = trimCopy s := by
    rw [dropWhile_eq_self_iff]
    intro hlength
    have hstart : trimCopy s <+: s.dropWhile isSpace := List.rdropWhile_prefix _ _
    rw [hstart.getElem hlength]
    exact dropWhile_get_zero_not isSpace s (hlength.trans_le hstart.length_le)
  rw [htrim (trimCopy s), hfront, htrim s, rdropWhile_idempotent]

variable {s : ByteString} {separator : UInt8}

/-- Without blanks there is nothing to trim. -/
theorem trimCopy_eq_self (h : ∀ c ∈ s, isSpace c = false) : trimCopy s = s := by
  have hdrop : ∀ s : ByteString, (∀ c ∈ s, isSpace c = false) → s.dropWhile isSpace = s := by
    intro s h
    cases s with
    | nil => rfl
    | cons c s => exact dropWhile_cons_of_neg (by simp [h c mem_cons_self])
  rw [trimCopy, hdrop s h, hdrop s.reverse, reverse_reverse]
  intro c hc
  exact h c (mem_reverse.mp hc)

/-- A string begins and ends with what is trimmed. -/
theorem exists_trimCopy (s : ByteString) : ∃ front back : ByteString,
    s = front ++ trimCopy s ++ back ∧ (∀ c ∈ front, isSpace c = true) ∧
      ∀ c ∈ back, isSpace c = true := by
  refine ⟨s.takeWhile isSpace, (s.dropWhile isSpace).rtakeWhile isSpace, ?_, ?_, ?_⟩
  · have htrim : trimCopy s = (s.dropWhile isSpace).rdropWhile isSpace := rfl
    rw [htrim, append_assoc, rdropWhile_append_rtakeWhile,
      takeWhile_append_dropWhile]
  · intro c hc
    exact mem_takeWhile_imp hc
  · intro c hc
    exact mem_rtakeWhile_imp hc

/-- **A string is trimmed** where no blank is at its ends. -/
theorem trimCopy_eq_self_iff : trimCopy s = s ↔
    (∀ c ∈ s.head?, isSpace c = false) ∧ ∀ c ∈ s.getLast?, isSpace c = false := by
  have htrim : trimCopy s = (s.dropWhile isSpace).rdropWhile isSpace := rfl
  have hhead : s.dropWhile isSpace = s ↔ ∀ c ∈ s.head?, isSpace c = false := by
    cases s with
    | nil => simp
    | cons c s => simp [dropWhile_eq_self_iff]
  have hlast : s.rdropWhile isSpace = s ↔ ∀ c ∈ s.getLast?, isSpace c = false := by
    rw [rdropWhile_eq_self_iff]
    constructor
    · intro h c hc
      obtain ⟨front, rfl⟩ := getLast?_eq_some_iff.mp hc
      simpa using h (by simp)
    · intro h hne
      simpa using h _ (getLast?_eq_some_getLast hne)
  rw [← hhead, ← hlast]
  constructor
  · intro heq
    have hfront : s.dropWhile isSpace = s := by
      refine (dropWhile_suffix isSpace).eq_of_length_le ?_
      have hstart : trimCopy s <+: s.dropWhile isSpace := List.rdropWhile_prefix isSpace _
      have hle := hstart.length_le
      rwa [heq] at hle
    rw [hfront, heq] at htrim
    exact ⟨hfront, htrim.symm⟩
  · rintro ⟨hfront, hback⟩
    rw [htrim, hfront, hback]

/-! ### Tokens -/

/-- A separator at the front makes no difference. -/
theorem tokens_cons_separator (separator : UInt8) (s : ByteString) :
    tokens separator (separator :: s) = tokens separator s := by
  rw [tokens, splitOn_cons_eq_if_modifyHead]
  simp [tokens]

/-- Anything else begins a token. -/
theorem tokens_cons_ne_nil {c : UInt8} (h : c ≠ separator) (s : ByteString) :
    tokens separator (c :: s) ≠ [] := by
  rw [tokens, splitOn_cons_eq_if_modifyHead, if_neg (by simpa using h)]
  cases hsplit : s.splitOn separator with
  | nil => exact absurd hsplit (splitOn_ne_nil separator s)
  | cons piece pieces => simp

/-- There is nothing but separators where there are no tokens. -/
theorem tokens_eq_nil_iff : tokens separator s = [] ↔ ∀ c ∈ s, c = separator := by
  induction s with
  | nil => simp [tokens]
  | cons c s ih =>
    by_cases hc : c = separator
    · subst hc
      rw [tokens_cons_separator, ih]
      simp
    · refine iff_of_false (tokens_cons_ne_nil hc s) ?_
      intro hall
      exact hc (hall c mem_cons_self)

/-- A piece that ends with a separator is a token, unless there is nothing in it. -/
theorem tokens_append_cons {piece : ByteString} (h : separator ∉ piece) (s : ByteString) :
    tokens separator (piece ++ separator :: s) =
      (if piece = [] then [] else [piece]) ++ tokens separator s := by
  rw [tokens, splitOn_append_cons_self_of_not_mem h]
  by_cases hpiece : piece = []
  · subst hpiece
    simp [tokens]
  · simp [hpiece, tokens]

/-- Of pieces that all end with a separator, the tokens are those that are not empty. -/
theorem tokens_flatMap {pieces : List ByteString} (h : ∀ piece ∈ pieces, separator ∉ piece) :
    tokens separator (pieces.flatMap fun piece => piece ++ [separator]) =
      pieces.filter (· ≠ []) := by
  induction pieces with
  | nil => simp [tokens]
  | cons piece pieces ih =>
    obtain ⟨hpiece, hpieces⟩ := forall_mem_cons.mp h
    rw [flatMap_cons, append_assoc, singleton_append,
      tokens_append_cons hpiece, ih hpieces]
    by_cases hnil : piece = [] <;> simp [hnil]

/-- The tokens are what is not a separator. -/
theorem flatten_tokens (separator : UInt8) (s : ByteString) :
    (tokens separator s).flatten = s.filter (· ≠ separator) := by
  have hall : ∀ pieces : List ByteString, (pieces.filter (· ≠ [])).flatten = pieces.flatten := by
    intro pieces
    induction pieces with
    | nil => rfl
    | cons piece pieces ih =>
      by_cases hnil : piece = []
      · simpa [hnil] using ih
      · simpa [hnil] using ih
  rw [tokens, hall]
  induction s with
  | nil => rfl
  | cons c s ih =>
    rw [splitOn_cons_eq_if_modifyHead]
    by_cases hc : c = separator
    · subst hc
      simpa using ih
    · cases hsplit : s.splitOn separator with
      | nil => exact absurd hsplit (splitOn_ne_nil separator s)
      | cons piece pieces =>
        rw [hsplit] at ih
        simpa [hc] using ih

theorem tokens_append_separator (separator : UInt8) (s t : ByteString) :
    tokens separator (s ++ separator :: t) = tokens separator s ++ tokens separator t := by
  rw [tokens, splitOn_append_cons_self, filter_append]
  rfl

/-- Every token is one. -/
theorem tokens_of_mem {token : ByteString} (h : token ∈ tokens separator s) :
    token ≠ [] ∧ separator ∉ token := by
  have hpieces : ∀ piece ∈ s.splitOn separator, separator ∉ piece := by
    clear h
    induction s with
    | nil => simp
    | cons c s ih =>
      rw [splitOn_cons_eq_if_modifyHead]
      by_cases hc : c = separator
      · simpa [hc] using ih
      · cases hsplit : s.splitOn separator with
        | nil => simp [hc]
        | cons piece pieces =>
          rw [hsplit] at ih
          simpa [hc, Ne.symm hc] using ih
  obtain ⟨hmem, hne⟩ := mem_filter.mp h
  exact ⟨of_decide_eq_true hne, hpieces token hmem⟩

end Mutgos.Text
