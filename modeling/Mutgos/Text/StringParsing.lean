import Mutgos.Text.ByteString

/-!
# Splitting strings

`text::StringParsing::split_string` over a part of a string.  A position within a
string is the rest of the string from there on.

## Main results

* `find_append_of_not_mem` — what does not have the first byte of what is looked for
  is passed over.
-/

namespace Mutgos.Text

open List

/-- The bytes of a constant. -/
def ascii (s : String) : ByteString := s.toList.map fun c => UInt8.ofNat c.toNat

/-- `std::string::find`: how far on `token` first is. -/
def find (token : ByteString) : ByteString → Option ℕ
  | [] => if token = [] then some 0 else none
  | c :: s => if token.isPrefixOf (c :: s) then some 0 else (find token s).map (· + 1)

/-- The loop of `split_string`, at `rest`, with `maxIndex` bytes of it to go. -/
def splitPieces (separator : ByteString) (hseparator : separator ≠ []) (maxStrings : ℕ)
    (clearIfMax : Bool) (result : List ByteString) (rest : ByteString) (maxIndex : ℕ) :
    List ByteString :=
  if 0 < maxIndex then
    match find separator rest with
    | none =>
      -- No more separators.  The last part of the string is added.
      atMaximum (result ++ [trimCopy (rest.take maxIndex)])
    | some searchIndex =>
      -- The next separator is beyond what is to be processed.
      if maxIndex ≤ searchIndex then atMaximum result
      else
        let result := result ++ [trimCopy (rest.take searchIndex)]
        if maxStrings ≠ 0 ∧ maxStrings ≤ result.length then atMaximum result
        else splitPieces separator hseparator maxStrings clearIfMax result
          (rest.drop (searchIndex + separator.length))
          (maxIndex - (searchIndex + separator.length))
  else result
termination_by maxIndex
decreasing_by
  have hpos := length_pos_of_ne_nil hseparator
  omega
where
  /-- The end of the loop's body: when there are enough pieces, there may be none. -/
  atMaximum (result : List ByteString) : List ByteString :=
    if maxStrings ≠ 0 ∧ maxStrings ≤ result.length ∧ clearIfMax then [] else result

/-- `split_string`, of `length` bytes of what is left of a string. -/
def splitString (str : ByteString) (length : ℕ) (separator : ByteString) (maxStrings : ℕ)
    (clearIfMax : Bool) : List ByteString :=
  if h : separator = [] then [trimCopy (str.take length)]
  else if str = [] ∨ length = 0 then [[]]
  else splitPieces separator h maxStrings clearIfMax [] str (min length str.length)

/-! ### Finding -/

theorem find_append (token s : ByteString) : find token (token ++ s) = some 0 := by
  cases token with
  | nil => cases s <;> rfl
  | cons c token => simp [find]

/-- A token is not in what has not its first byte. -/
theorem find_append_of_not_mem {c : UInt8} {token w : ByteString} (h : c ∉ w) (s : ByteString) :
    find (c :: token) (w ++ s) = (find (c :: token) s).map (· + w.length) := by
  induction w with
  | nil => simp
  | cons d w ih =>
    obtain ⟨hd, hw⟩ : c ≠ d ∧ c ∉ w := by simpa using h
    rw [cons_append, find, if_neg (by simp [hd]), ih hw, Option.map_map]
    congr 1

theorem find_eq_none_of_not_mem {c : UInt8} {token s : ByteString} (h : c ∉ s) :
    find (c :: token) s = none := by
  have hfind : find (c :: token) (s ++ []) = _ := find_append_of_not_mem h []
  rw [append_nil] at hfind
  simpa [find] using hfind

/-- What is found is there. -/
theorem exists_of_find {token s : ByteString} {i : ℕ} (h : find token s = some i) :
    ∃ w t, w.length = i ∧ s = w ++ (token ++ t) := by
  induction s generalizing i with
  | nil =>
    rw [find] at h
    split at h
    · rename_i htoken
      exact ⟨[], [], by simpa using h, by simp [htoken]⟩
    · cases h
  | cons c s ih =>
    rw [find] at h
    split at h
    · rename_i hstarts
      obtain ⟨t, ht⟩ := List.isPrefixOf_iff_prefix.mp hstarts
      exact ⟨[], t, by simpa using h, ht.symm⟩
    · obtain ⟨j, hj, rfl⟩ := Option.map_eq_some_iff.mp h
      obtain ⟨w, t, hw, hs⟩ := ih hj
      exact ⟨c :: w, t, by simp [hw], by rw [hs, cons_append]⟩

/-! ### Splitting -/

section Splitting

variable {c : UInt8} {cs : ByteString} {maxStrings : ℕ} {clearIfMax : Bool}
  {result : List ByteString} {w s : ByteString} {n : ℕ}

/-- A piece with a separator after it. -/
theorem splitPieces_append (hw : c ∉ w) (hmax : maxStrings = 0 ∨ result.length + 1 < maxStrings) :
    splitPieces (c :: cs) (by simp) maxStrings clearIfMax result (w ++ (c :: cs ++ s))
        (w.length + ((c :: cs).length + n)) =
      splitPieces (c :: cs) (by simp) maxStrings clearIfMax (result ++ [trimCopy w]) s n := by
  have hfind : find (c :: cs) (w ++ (c :: cs ++ s)) = some w.length := by
    rw [find_append_of_not_mem hw, find_append, Option.map_some, Nat.zero_add]
  have hmaximum : ¬(maxStrings ≠ 0 ∧ maxStrings ≤ (result ++ [trimCopy w]).length) := by
    rw [length_append, length_singleton]
    omega
  have hdrop : (w ++ (c :: cs ++ s)).drop (w.length + (c :: cs).length) = s := by
    rw [← append_assoc]
    exact drop_left' (by rw [length_append])
  have hlen : (c :: cs).length = cs.length + 1 := length_cons
  rw [splitPieces, if_pos (by omega), hfind]
  simp only [take_left]
  rw [if_neg (by omega), if_neg hmaximum, hdrop]
  congr 1
  omega

/-- The last piece, which is lost if there is a separator in what follows. -/
theorem splitPieces_last (hw : c ∉ w) (hne : w ≠ [])
    (hmax : maxStrings = 0 ∨ result.length + 1 < maxStrings) :
    splitPieces (c :: cs) (by simp) maxStrings clearIfMax result (w ++ s) w.length =
      if (find (c :: cs) s).isSome then result else result ++ [trimCopy w] := by
  have hpos := length_pos_of_ne_nil hne
  rw [splitPieces, if_pos hpos, find_append_of_not_mem hw]
  cases hfind : find (c :: cs) s with
  | none =>
    simp only [Option.map_none, take_left, Option.isSome_none, Bool.false_eq_true, if_false]
    rw [splitPieces.atMaximum, if_neg]
    rw [length_append, length_singleton]
    omega
  | some i =>
    simp only [Option.map_some, Option.isSome_some, if_true]
    rw [if_pos (by omega), splitPieces.atMaximum, if_neg]
    omega

/-- One piece more makes as many as are too many. -/
theorem splitPieces_maximum (hw : c ∉ w ++ s) (hne : w ≠ [])
    (hmax : result.length + 1 = maxStrings) :
    splitPieces (c :: cs) (by simp) maxStrings true result (w ++ s) w.length = [] := by
  rw [splitPieces, if_pos (length_pos_of_ne_nil hne), find_eq_none_of_not_mem hw]
  simp only []
  refine if_pos ⟨by omega, ?_, rfl⟩
  rw [length_append, length_singleton]
  omega

end Splitting

end Mutgos.Text
