import Mathlib.Algebra.Group.Nat.Defs
import Mutgos.Text.StringParsing

/-!
# Splitting a range of a string

`split_string` is given a range, but searches for separators in the whole string.  The
last piece of the range is dropped if a separator begins anywhere behind the range, cut
short if one begins in the range and ends behind it, and dropped, too, if it is empty.
A range that is given as reaching beyond the largest index gives nothing.

## Main results

* `splitsRange_iff` — **when a range is split as it should be.**
-/

namespace Mutgos.Text

open List

/-- `split_string` of a range.  Indices are of 64 bits, and their sum wraps around.  (Where there
is no separator the range has to begin in the string.) -/
def splitStringRange (str : ByteString) (startPos length : ℕ) (separator : ByteString)
    (maxStrings : ℕ) (clearIfMax : Bool) : List ByteString :=
  if h : separator = [] then [trimCopy ((str.drop startPos).take length)]
  else if str = [] ∨ length = 0 ∨ str.length ≤ startPos then [[]]
  else
    let maxIndex := (startPos + length) % 2 ^ 64
    let maxIndex := if str.length < maxIndex then str.length else maxIndex
    splitPieces separator h maxStrings clearIfMax [] (str.drop startPos) (maxIndex - startPos)

/-! ### Finding, in a part of a string -/

section Find

variable {token s t : ByteString} {i : ℕ}

theorem find_add_length_le (h : find token s = some i) : i + token.length ≤ s.length := by
  obtain ⟨w, t, rfl, rfl⟩ := exists_of_find h
  simp only [length_append]
  omega

/-- What is found in a part is found in the whole. -/
theorem find_append_left (h : find token s = some i) (t : ByteString) :
    find token (s ++ t) = some i := by
  induction s generalizing i with
  | nil =>
    rw [find, Option.ite_none_right_eq_some] at h
    obtain ⟨rfl, hi⟩ := h
    rw [← hi]
    cases t <;> rfl
  | cons c s ih =>
    rw [find] at h
    rw [cons_append, find]
    split_ifs at h with hstarts
    · have hstarts' : token.isPrefixOf (c :: (s ++ t)) = true := by
        rw [List.isPrefixOf_iff_prefix] at hstarts ⊢
        exact hstarts.trans (prefix_append (c :: s) t)
      rw [if_pos hstarts', h]
    · obtain ⟨j, hj, rfl⟩ := Option.map_eq_some_iff.mp h
      have hfits := find_add_length_le hj
      have hstarts' : ¬ token.isPrefixOf (c :: (s ++ t)) = true := by
        rw [List.isPrefixOf_iff_prefix] at hstarts ⊢
        intro hlonger
        refine hstarts (prefix_of_prefix_length_le hlonger (prefix_append (c :: s) t) ?_)
        rw [length_cons]
        omega
      rw [if_neg hstarts', ih hj, Option.map_some]

theorem find_ne_none (w token t : ByteString) : find token (w ++ (token ++ t)) ≠ none := by
  induction w with
  | nil => simp [find_append]
  | cons c w ih =>
    rw [cons_append, find]
    split_ifs
    · simp
    · rwa [Ne, Option.map_eq_none_iff]

/-- What is not found in a part does not end in it. -/
theorem length_lt_of_find (hnone : find token s = none) (h : find token (s ++ t) = some i) :
    s.length < i + token.length := by
  obtain ⟨w, rest, rfl, heq⟩ := exists_of_find h
  by_contra hle
  rw [← append_assoc] at heq
  have hbegins : w ++ token <+: s := by
    refine prefix_of_prefix_length_le (heq ▸ prefix_append (w ++ token) rest)
      (prefix_append s t) ?_
    rw [length_append]
    omega
  obtain ⟨rest', rfl⟩ := hbegins
  rw [append_assoc] at hnone
  exact find_ne_none w token rest' hnone

end Find

/-! ### The pieces of a string -/

/-- What is between the separators of a string. -/
def pieces (separator : ByteString) (hseparator : separator ≠ []) (s : ByteString) :
    List ByteString :=
  match hfind : find separator s with
  | none => [s]
  | some i => s.take i :: pieces separator hseparator (s.drop (i + separator.length))
termination_by s.length
decreasing_by
  have hfits := find_add_length_le hfind
  have hpos := length_pos_of_ne_nil hseparator
  rw [length_drop]
  omega

section Pieces

variable {separator s : ByteString} {hseparator : separator ≠ []} {i : ℕ}

theorem pieces_of_none (h : find separator s = none) : pieces separator hseparator s = [s] := by
  rw [pieces]
  split
  · rfl
  · rename_i hfind
    rw [h] at hfind
    cases hfind

theorem pieces_of_some (h : find separator s = some i) :
    pieces separator hseparator s =
      s.take i :: pieces separator hseparator (s.drop (i + separator.length)) := by
  rw [pieces]
  split
  · rename_i hfind
    rw [h] at hfind
    cases hfind
  · rename_i hfind
    rw [h] at hfind
    cases hfind
    rfl

theorem pieces_ne_nil : pieces separator hseparator s ≠ [] := by
  cases hfind : find separator s with
  | none => simp [pieces_of_none hfind]
  | some i => simp [pieces_of_some hfind]

/-- A string of pieces is its last one, or is the first one and the separator, and a string of the
others. -/
theorem pieces_induction {motive : ByteString → Prop} (hseparator : separator ≠ [])
    (last : ∀ s, find separator s = none → motive s)
    (next : ∀ s i, find separator s = some i → motive (s.drop (i + separator.length)) → motive s)
    (s : ByteString) : motive s := by
  induction hlength : s.length using Nat.strong_induction_on generalizing s with
  | _ n ih =>
    cases hfind : find separator s with
    | none => exact last s hfind
    | some i =>
      have hfits := find_add_length_le hfind
      have hpos := length_pos_of_ne_nil hseparator
      refine next s i hfind (ih _ ?_ _ rfl)
      rw [length_drop]
      omega

/-- What is behind the last separator. -/
def lastPiece (separator : ByteString) (hseparator : separator ≠ []) (s : ByteString) :
    ByteString :=
  (pieces separator hseparator s).getLast pieces_ne_nil

theorem lastPiece_of_none (h : find separator s = none) :
    lastPiece separator hseparator s = s := by
  simp only [lastPiece, pieces_of_none h, getLast_singleton]

theorem lastPiece_of_some (h : find separator s = some i) :
    lastPiece separator hseparator s =
      lastPiece separator hseparator (s.drop (i + separator.length)) := by
  simp only [lastPiece, pieces_of_some h, getLast_cons pieces_ne_nil]

end Pieces

/-! ### Trimming a part -/

/-- Trimming takes only blanks away. -/
theorem countP_trimCopy (s : ByteString) :
    (trimCopy s).countP (fun c => !isSpace c) = s.countP fun c => !isSpace c := by
  obtain ⟨front, back, hs, hfront, hback⟩ := exists_trimCopy s
  have hblank : ∀ blanks : ByteString, (∀ c ∈ blanks, isSpace c = true) →
      blanks.countP (fun c => !isSpace c) = 0 := by
    intro blanks h
    rw [countP_eq_zero]
    intro c hc
    simp [h c hc]
  conv_rhs => rw [hs]
  rw [countP_append, countP_append, hblank front hfront, hblank back hback]
  omega

/-- A string is trimmed like a longer one if only blanks follow. -/
theorem trimCopy_append_eq_iff {s t : ByteString} :
    trimCopy s = trimCopy (s ++ t) ↔ ∀ c ∈ t, isSpace c = true := by
  constructor
  · intro heq c hc
    have hcount := congrArg (List.countP fun c => !isSpace c) heq
    rw [countP_trimCopy, countP_trimCopy, countP_append] at hcount
    have hzero := countP_eq_zero.mp (show t.countP (fun c => !isSpace c) = 0 by omega) c hc
    simpa using hzero
  · intro hblank
    have hdrop : t.dropWhile isSpace = [] := dropWhile_eq_nil_iff.mpr hblank
    have hreverse : ∀ w : ByteString, (w ++ t).reverse.dropWhile isSpace =
        w.reverse.dropWhile isSpace := by
      intro w
      rw [reverse_append]
      exact dropWhile_append_of_pos fun c hc => hblank c (mem_reverse.mp hc)
    rw [trimCopy, trimCopy, dropWhile_append]
    split_ifs with hempty
    · rw [hdrop, List.isEmpty_iff.mp hempty]
    · rw [hreverse]

/-! ### The loop -/

/-- The last piece of a range is not lost, nor any of it, when there is something behind the
range. -/
def KeepsLast (separator piece after : ByteString) : Prop :=
  piece ≠ [] ∧ ∀ i, find separator (piece ++ after) = some i →
    i < piece.length ∧ ∀ c ∈ piece.drop i, isSpace c = true

section Loop

variable {separator r after : ByteString} {hseparator : separator ≠ []} {maxStrings : ℕ}
  {clearIfMax : Bool} {result : List ByteString} {i : ℕ}

theorem splitPieces_zero (rest : ByteString) :
    splitPieces separator hseparator maxStrings clearIfMax result rest 0 = result := by
  rw [splitPieces, if_neg (lt_irrefl 0)]

/-- A piece with a separator behind it in the range. -/
theorem splitPieces_of_find (h : find separator r = some i) :
    splitPieces separator hseparator maxStrings clearIfMax result (r ++ after) r.length =
      if maxStrings ≠ 0 ∧ maxStrings ≤ (result ++ [trimCopy (r.take i)]).length then
        splitPieces.atMaximum maxStrings clearIfMax (result ++ [trimCopy (r.take i)])
      else splitPieces separator hseparator maxStrings clearIfMax
        (result ++ [trimCopy (r.take i)]) (r.drop (i + separator.length) ++ after)
        (r.drop (i + separator.length)).length := by
  have hfits := find_add_length_le h
  have hpos := length_pos_of_ne_nil hseparator
  rw [splitPieces, if_pos (by omega), find_append_left h]
  simp only [if_neg (show ¬ r.length ≤ i by omega)]
  rw [take_append_of_le_length (by omega), drop_append_of_le_length (by omega),
    length_drop]

/-- The last piece, with a separator that begins in the range. -/
theorem splitPieces_of_cut (hnone : find separator r = none)
    (h : find separator (r ++ after) = some i) (hi : i < r.length) :
    splitPieces separator hseparator maxStrings clearIfMax result (r ++ after) r.length =
      splitPieces.atMaximum maxStrings clearIfMax (result ++ [trimCopy (r.take i)]) := by
  have hend := length_lt_of_find hnone h
  rw [splitPieces, if_pos (by omega), h]
  simp only [if_neg (show ¬ r.length ≤ i by omega)]
  rw [take_append_of_le_length (by omega)]
  split_ifs with hmax
  · rfl
  · rw [show r.length - (i + separator.length) = 0 by omega, splitPieces_zero,
      splitPieces.atMaximum, if_neg]
    rintro ⟨hne, hle, -⟩
    exact hmax ⟨hne, hle⟩

/-- The last piece, with no separator from it on. -/
theorem splitPieces_of_none (h : find separator (r ++ after) = none) (hr : r ≠ []) :
    splitPieces separator hseparator maxStrings clearIfMax result (r ++ after) r.length =
      splitPieces.atMaximum maxStrings clearIfMax (result ++ [trimCopy r]) := by
  rw [splitPieces, if_pos (length_pos_of_ne_nil hr), h]
  simp only [take_left]

@[simp] theorem atMaximum_zero (clearIfMax : Bool) (result : List ByteString) :
    splitPieces.atMaximum 0 clearIfMax result = result := if_neg fun h => h.1 rfl

/-- **The loop gives the pieces** if it keeps the last one. -/
theorem splitPieces_eq_iff :
    splitPieces separator hseparator 0 clearIfMax result (r ++ after) r.length =
        result ++ (pieces separator hseparator r).map trimCopy ↔
      KeepsLast separator (lastPiece separator hseparator r) after := by
  induction r using pieces_induction hseparator generalizing result with
  | next r i hfind ih =>
    rw [splitPieces_of_find hfind, pieces_of_some hfind, lastPiece_of_some hfind,
      if_neg (fun h => h.1 rfl), map_cons, ← @ih (result ++ [trimCopy (r.take i)]),
      append_assoc, singleton_append]
  | last r hnone =>
    rw [pieces_of_none hnone, lastPiece_of_none hnone, map_singleton, KeepsLast]
    by_cases hr : r = []
    · refine iff_of_false ?_ fun h => h.1 hr
      rw [hr, length_nil, splitPieces_zero]
      simp
    · rw [and_iff_right hr]
      cases hfind : find separator (r ++ after) with
      | none => simp [splitPieces_of_none hfind hr]
      | some i =>
        simp only [Option.some.injEq, forall_eq']
        by_cases hi : i < r.length
        · rw [splitPieces_of_cut hnone hfind hi, atMaximum_zero, and_iff_right hi,
            ← trimCopy_append_eq_iff, take_append_drop]
          simp
        · refine iff_of_false ?_ fun h => hi h.1
          rw [splitPieces, if_pos (length_pos_of_ne_nil hr), hfind]
          simp only [if_pos (Nat.le_of_not_lt hi), atMaximum_zero]
          simp

/-- If the last piece is kept, what is behind the range makes no difference. -/
theorem splitPieces_congr (h : KeepsLast separator (lastPiece separator hseparator r) after) :
    splitPieces separator hseparator maxStrings clearIfMax result (r ++ after) r.length =
      splitPieces separator hseparator maxStrings clearIfMax result r r.length := by
  have halone : r = r ++ [] := (append_nil r).symm
  induction r using pieces_induction hseparator generalizing result with
  | next r i hfind ih =>
    rw [lastPiece_of_some hfind] at h
    have hnext := @ih (result ++ [trimCopy (r.take i)]) h (append_nil _).symm
    have hrest := @splitPieces_of_find separator r [] hseparator maxStrings clearIfMax result i
      hfind
    rw [append_nil, append_nil] at hrest
    rw [splitPieces_of_find hfind, hrest, hnext]
  | last r hnone =>
    rw [lastPiece_of_none hnone] at h
    obtain ⟨hr, hcut⟩ := h
    have hrest := @splitPieces_of_none separator r [] hseparator maxStrings clearIfMax result
      (by rwa [append_nil]) hr
    rw [append_nil] at hrest
    rw [hrest]
    cases hfind : find separator (r ++ after) with
    | none => exact splitPieces_of_none hfind hr
    | some i =>
      obtain ⟨hi, hblank⟩ := hcut i hfind
      have htrim := (@trimCopy_append_eq_iff (r.take i) (r.drop i)).mpr hblank
      rw [take_append_drop] at htrim
      rw [splitPieces_of_cut hnone hfind hi, htrim]

end Loop

/-! ### Ranges -/

section Ranges

variable {str separator : ByteString} {start length maxStrings : ℕ} {clearIfMax : Bool}

/-- Where the indices do not wrap around, a range is a part of what is left of the string. -/
theorem splitStringRange_eq_splitString (h : start + length < 2 ^ 64) :
    splitStringRange str start length separator maxStrings clearIfMax =
      splitString (str.drop start) length separator maxStrings clearIfMax := by
  rw [splitStringRange, splitString]
  by_cases hseparator : separator = []
  · rw [dif_pos hseparator, dif_pos hseparator]
  rw [dif_neg hseparator, dif_neg hseparator]
  by_cases hnone : str.drop start = [] ∨ length = 0
  · have hnone' : str = [] ∨ length = 0 ∨ str.length ≤ start := by
      rw [drop_eq_nil_iff] at hnone
      exact .inr hnone.symm
    rw [if_pos hnone, if_pos hnone']
  · have hnone' : ¬ (str = [] ∨ length = 0 ∨ str.length ≤ start) := by
      rw [drop_eq_nil_iff, not_or] at hnone
      rintro (rfl | hlength | hstart)
      · exact hnone.1 (Nat.zero_le start)
      · exact hnone.2 hlength
      · exact hnone.1 hstart
    rw [if_neg hnone, if_neg hnone']
    simp only [Nat.mod_eq_of_lt h]
    congr 1
    rw [length_drop]
    split_ifs <;> omega

/-- Where they do, there is nothing. -/
theorem splitStringRange_of_overflow (hseparator : separator ≠ []) (hstart : start < str.length)
    (hstart' : start < 2 ^ 64) (hpos : length ≠ 0) (hlength : length < 2 ^ 64)
    (h : 2 ^ 64 ≤ start + length) :
    splitStringRange str start length separator maxStrings clearIfMax = [] := by
  have hnone : ¬ (str = [] ∨ length = 0 ∨ str.length ≤ start) := by
    rintro (rfl | hzero | hle)
    · exact Nat.not_lt_zero start hstart
    · exact hpos hzero
    · omega
  have hwraps : (start + length) % 2 ^ 64 = start + length - 2 ^ 64 := by omega
  rw [splitStringRange, dif_neg hseparator, if_neg hnone]
  simp only [hwraps]
  rw [if_neg (by omega), show start + length - 2 ^ 64 - start = 0 by omega, splitPieces_zero]

theorem splitString_range (hseparator : separator ≠ [])
    (hrange : (str.drop start).take length ≠ []) :
    splitString (str.drop start) length separator maxStrings clearIfMax =
      splitPieces separator hseparator maxStrings clearIfMax []
        ((str.drop start).take length ++ str.drop (start + length))
        ((str.drop start).take length).length := by
  have hnone : ¬ (str.drop start = [] ∨ length = 0) := by
    rintro (hnil | rfl)
    · exact hrange (by rw [hnil, take_nil])
    · exact hrange take_zero
  rw [splitString, dif_neg hseparator, if_neg hnone, ← drop_drop, take_append_drop,
    length_take]

/-- A range is split without looking at what is behind it, and into its pieces if there is no limit,
of which there is one at least. -/
structure SplitsRange (str : ByteString) (start length : ℕ) (separator : ByteString)
    (hseparator : separator ≠ []) (maxStrings : ℕ) (clearIfMax : Bool) : Prop where
  refines : splitStringRange str start length separator maxStrings clearIfMax =
    splitStringRange ((str.drop start).take length) 0 length separator maxStrings clearIfMax
  pieces : splitStringRange str start length separator 0 clearIfMax =
    (pieces separator hseparator ((str.drop start).take length)).map trimCopy
  ne_nil : splitStringRange str start length separator 0 clearIfMax ≠ []

/-- **When a range is split as it should be.** -/
theorem splitsRange_iff (hseparator : separator ≠ []) (hstart : start < 2 ^ 64)
    (hlength : length < 2 ^ 64) :
    SplitsRange str start length separator hseparator maxStrings clearIfMax ↔
      (str.drop start).take length = [] ∨
        start + length < 2 ^ 64 ∧
          KeepsLast separator (lastPiece separator hseparator ((str.drop start).take length))
            (str.drop (start + length)) := by
  have hpieces : (pieces separator hseparator ((str.drop start).take length)).map trimCopy ≠
      [] := by
    simp [pieces_ne_nil]
  by_cases hrange : (str.drop start).take length = []
  · -- the range is short cut, and so is the range of nothing
    have hnone : ∀ maxStrings, splitStringRange str start length separator maxStrings clearIfMax =
        [[]] := by
      intro maxStrings
      rw [splitStringRange, dif_neg hseparator, if_pos]
      rw [List.take_eq_nil_iff, List.drop_eq_nil_iff] at hrange
      exact .inr hrange
    have hempty : find separator [] = none := by rw [find, if_neg hseparator]
    refine iff_of_true ⟨?_, ?_, ?_⟩ (.inl hrange)
    · rw [hnone, hrange, splitStringRange, dif_neg hseparator, if_pos (.inl rfl)]
    · rw [hnone, hrange, pieces_of_none hempty]
      rfl
    · rw [hnone]
      simp
  · rw [or_iff_right hrange]
    by_cases hsum : start + length < 2 ^ 64
    · have hwhole : ∀ maxStrings, splitStringRange str start length separator maxStrings
          clearIfMax = splitPieces separator hseparator maxStrings clearIfMax []
            ((str.drop start).take length ++ str.drop (start + length))
            ((str.drop start).take length).length := fun maxStrings => by
        rw [splitStringRange_eq_splitString hsum, splitString_range hseparator hrange]
      rw [and_iff_right hsum]
      constructor
      · intro h
        have heq := h.pieces
        rw [hwhole] at heq
        exact splitPieces_eq_iff.mp (heq.trans (List.nil_append _).symm)
      · intro hkeeps
        have heq : splitStringRange str start length separator 0 clearIfMax =
            (pieces separator hseparator ((str.drop start).take length)).map trimCopy := by
          rw [hwhole, splitPieces_eq_iff.mpr hkeeps, List.nil_append]
        refine ⟨?_, heq, heq ▸ hpieces⟩
        have halone : splitStringRange ((str.drop start).take length) 0 length separator maxStrings
            clearIfMax = splitPieces separator hseparator maxStrings clearIfMax []
              ((str.drop start).take length) ((str.drop start).take length).length := by
          rw [splitStringRange_eq_splitString (by omega), splitString, dif_neg hseparator, if_neg]
          · rw [List.drop_zero, List.length_take, ← min_assoc, min_self]
          · rw [List.drop_zero, not_or]
            refine ⟨hrange, ?_⟩
            rintro rfl
            exact hrange List.take_zero
        rw [hwhole, splitPieces_congr hkeeps, halone]
    · refine iff_of_false ?_ fun h => hsum h.1
      intro h
      rw [List.take_eq_nil_iff, List.drop_eq_nil_iff, not_or, Nat.not_le] at hrange
      exact h.ne_nil (splitStringRange_of_overflow hseparator hrange.2 hstart hrange.1 hlength
        (Nat.le_of_not_lt hsum))

end Ranges

/-- The range `a` of `a,` is split into nothing. -/
theorem not_splitsRange :
    ¬ ∀ (str : ByteString) (start length : ℕ) (separator : ByteString) (h : separator ≠ [])
      (maxStrings : ℕ) (clearIfMax : Bool), start < 2 ^ 64 → length < 2 ^ 64 →
      SplitsRange str start length separator h maxStrings clearIfMax := by
  intro h
  have hsplit := h [97, 44] 0 1 [44] (by decide) 0 false (by decide) (by decide)
  refine hsplit.ne_nil ?_
  rw [splitStringRange_eq_splitString (by decide), splitString, dif_neg (by decide),
    if_neg (by decide)]
  have hlast := @splitPieces_last 44 [] 0 false [] [97] [44] (by decide) (by decide) (.inl rfl)
  exact hlast.trans (if_pos (by decide))

/-- The range `b,c` of `a,b,c d` is split: there is no separator behind it. -/
theorem splitsRange_end :
    SplitsRange [97, 44, 98, 44, 99, 32, 100] 2 3 [44] (by decide) 0 false := by
  refine (splitsRange_iff (by decide) (by decide) (by decide)).mpr (.inr ⟨by decide, ?_⟩)
  have hlast : lastPiece [44] (by decide) [98, 44, 99] = [99] := by
    rw [lastPiece_of_some (show find [44] [98, 44, 99] = some 1 by decide)]
    exact lastPiece_of_none (by decide)
  have hnone : find [44] [99, 32, 100] = none := by decide
  change KeepsLast [44] (lastPiece [44] _ [98, 44, 99]) [32, 100]
  rw [hlast]
  refine ⟨by decide, ?_⟩
  intro i hi
  rw [List.singleton_append, hnone] at hi
  cases hi

end Mutgos.Text
