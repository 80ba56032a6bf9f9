import Mathlib.Algebra.Group.Nat.Defs
import Mutgos.DbTypes.FromString

/-!
# IDs as text

`IdProperty::set_from_string` is meant to read `#A-B` and nothing else.  Beyond the `#` at
the beginning it looks only at the tokens, and there are three characters that separate
them: it takes any run of separators for one, before, between and behind the numbers, and
`lexical_cast` takes a plus sign.

## Main results

* `readsIdText_iff` — **which texts are read as they are meant to be**, those of IDs among
  them.
-/

namespace Mutgos.DbTypes

open Text List

/-- An unsigned number, as it is put into a stream. -/
def toDecimal (n : ℕ) : ByteString := (Nat.toDigits 10 n).map fun c => c.toNat.toUInt8

/-- `Id::to_string` -/
def Id.toString (id : Id) (includeSite : Bool) : ByteString :=
  35 :: ((if includeSite then toDecimal id.siteId ++ [45] else []) ++ toDecimal id.entityId)

/-- `set_from_string`, of a property with the given data: whether it is read, and the data
afterwards. -/
def IdProperty.setFromString (idData : Id) (str : ByteString) : Bool × Id :=
  match idFromString str with
  | some id => (true, id)
  | none => (false, idData)

/-- The numbers fit into their types. -/
def Id.Fits (id : Id) : Prop := id.siteId < 2 ^ 32 ∧ id.entityId < 2 ^ 64

/-- The text is that of an ID, but for blanks around it. -/
def IsIdText (str : ByteString) (id : Id) : Prop :=
  ∃ site entity, trimCopy str = 35 :: (site ++ 45 :: entity) ∧
    digitsValue site = some id.siteId ∧ digitsValue entity = some id.entityId ∧ id.Fits

/-- A text is read exactly if it is that of an ID, and as that ID. -/
def ReadsIdText (str : ByteString) : Prop :=
  ∀ idData : Id,
    ((IdProperty.setFromString idData str).1 = true ↔ ∃ id, IsIdText str id) ∧
    (∀ id, IsIdText str id → (IdProperty.setFromString idData str).2 = id) ∧
    ((IdProperty.setFromString idData str).1 = false →
      (IdProperty.setFromString idData str).2 = idData)

/-- The characters that separate tokens. -/
def isIdSeparator (c : UInt8) : Bool := c = 32 || c = 35 || c = 45

/-- A token that is read as a number of a type with so many values: there may be a plus
sign before the digits. -/
def IsNumber (size : ℕ) (token : ByteString) (value : ℕ) : Prop :=
  ∃ digits, (token = digits ∨ token = 43 :: digits) ∧ digitsValue digits = some value ∧
    value < size

/-- Where there are two numbers with separators around them, these are no other than those
of `#A-B`, and there is no plus sign. -/
def IsExact (str : ByteString) : Prop :=
  ∀ front site between entity back : ByteString,
    trimCopy str = 35 :: (front ++ (site ++ (between ++ (entity ++ back)))) →
    (∀ c ∈ front ++ between ++ back, isIdSeparator c = true) → between ≠ [] →
    (∃ value, IsNumber (2 ^ 32) site value) → (∃ value, IsNumber (2 ^ 64) entity value) →
    front = [] ∧ between = [45] ∧ back = [] ∧ 43 ∉ site ∧ 43 ∉ entity

/-! ### Tokens -/

/-- The tokens that `set_from_string` looks at. -/
def idTokens (s : ByteString) : List ByteString :=
  tokens 32 (s.map fun c => if c = 35 ∨ c = 45 then 32 else c)

/-- A token: there is something in it, but no separator. -/
def IsToken (token : ByteString) : Prop := token ≠ [] ∧ ∀ c ∈ token, isIdSeparator c = false

section Tokens

variable {s token : ByteString} {c : UInt8}

theorem isIdSeparator_iff : isIdSeparator c = true ↔ (if c = 35 ∨ c = 45 then 32 else c) = 32 := by
  simp only [isIdSeparator, Bool.or_eq_true, decide_eq_true_eq]
  split
  · rename_i h
    simp only [iff_true]
    exact h.imp_left Or.inr
  · rename_i h
    rw [not_or] at h
    simp [h]

theorem idTokens_cons (hc : isIdSeparator c = true) (s : ByteString) :
    idTokens (c :: s) = idTokens s := by
  rw [idTokens, map_cons, isIdSeparator_iff.mp hc, tokens_cons_separator, idTokens]

/-- Separators at the front make no difference. -/
theorem idTokens_append {front : ByteString} (h : ∀ c ∈ front, isIdSeparator c = true)
    (s : ByteString) : idTokens (front ++ s) = idTokens s := by
  induction front with
  | nil => rfl
  | cons c front ih =>
    obtain ⟨hc, hfront⟩ := forall_mem_cons.mp h
    rw [cons_append, idTokens_cons hc, ih hfront]

theorem idTokens_eq_nil_iff : idTokens s = [] ↔ ∀ c ∈ s, isIdSeparator c = true := by
  rw [idTokens, tokens_eq_nil_iff]
  simp only [forall_mem_map, isIdSeparator_iff]

/-- A token ends where a separator comes, or where the string ends. -/
theorem idTokens_append_token (htoken : IsToken token) {rest : ByteString}
    (hrest : ∀ c ∈ rest.head?, isIdSeparator c = true) :
    idTokens (token ++ rest) = token :: idTokens rest := by
  obtain ⟨hne, hplain⟩ := htoken
  have hmap : (token.map fun c => if c = 35 ∨ c = 45 then 32 else c) = token := by
    refine (map_congr_left ?_).trans (map_id _)
    intro c hc
    have hc := hplain c hc
    simp only [isIdSeparator, Bool.or_eq_false_iff, decide_eq_false_iff_not] at hc
    exact if_neg (by tauto)
  have hmem : 32 ∉ token := by
    intro h32
    cases hplain 32 h32
  rw [idTokens, map_append, hmap]
  cases rest with
  | nil =>
    rw [map_nil, append_nil, tokens, splitOn_eq_singleton hmem]
    simp [hne, idTokens, tokens]
  | cons c rest =>
    have hc := hrest c rfl
    rw [idTokens_cons hc, map_cons, isIdSeparator_iff.mp hc, tokens_append_cons hmem,
      if_neg hne]
    rfl

/-- A string begins with as many characters of a kind as there are. -/
theorem exists_run (p : UInt8 → Bool) (s : ByteString) : ∃ run rest : ByteString,
    s = run ++ rest ∧ (∀ c ∈ run, p c = true) ∧ ∀ c ∈ rest.head?, p c = false := by
  refine ⟨s.takeWhile p, s.dropWhile p, takeWhile_append_dropWhile.symm, ?_, ?_⟩
  · intro c hc
    exact mem_takeWhile_imp hc
  · have hhead := head?_dropWhile_not p s
    intro c hc
    simpa [Option.mem_def.mp hc] using hhead

/-- Where the first token is. -/
theorem exists_of_idTokens {rest : List ByteString} (h : idTokens s = token :: rest) :
    ∃ front t, s = front ++ (token ++ t) ∧ (∀ c ∈ front, isIdSeparator c = true) ∧
      IsToken token ∧ (∀ c ∈ t.head?, isIdSeparator c = true) ∧ idTokens t = rest := by
  obtain ⟨front, s', rfl, hfront, hs'⟩ := exists_run isIdSeparator s
  obtain ⟨token', t, rfl, htoken', ht⟩ := exists_run (fun c => !isIdSeparator c) s'
  simp only [Bool.not_eq_true', Bool.not_eq_false'] at htoken' ht
  rw [idTokens_append hfront] at h
  have hne : token' ≠ [] := by
    rintro rfl
    -- What is left begins with no separator, and with one.
    cases t with
    | nil => cases h
    | cons c t =>
      have hno := hs' c rfl
      rw [ht c rfl] at hno
      cases hno
  rw [idTokens_append_token ⟨hne, htoken'⟩ ht, List.cons.injEq] at h
  obtain ⟨rfl, hrest⟩ := h
  exact ⟨front, t, rfl, hfront, ⟨hne, htoken'⟩, ht, hrest⟩

/-- **Where two tokens are.** -/
theorem idTokens_eq_pair_iff {token' : ByteString} : idTokens s = [token, token'] ↔
    IsToken token ∧ IsToken token' ∧ ∃ front between back : ByteString,
      s = front ++ (token ++ (between ++ (token' ++ back))) ∧ between ≠ [] ∧
        ∀ c ∈ front ++ between ++ back, isIdSeparator c = true := by
  constructor
  · intro h
    obtain ⟨front, t, rfl, hfront, htoken, ht, h⟩ := exists_of_idTokens h
    obtain ⟨between, back, rfl, hbetween, htoken', -, h⟩ := exists_of_idTokens h
    rw [idTokens_eq_nil_iff] at h
    refine ⟨htoken, htoken', front, between, back, rfl, ?_, ?_⟩
    · rintro rfl
      obtain ⟨c, rest, rfl⟩ := exists_cons_of_ne_nil htoken'.1
      have hno := htoken'.2 c mem_cons_self
      rw [ht c rfl] at hno
      cases hno
    · simp only [forall_mem_append]
      exact ⟨⟨hfront, hbetween⟩, h⟩
  · rintro ⟨htoken, htoken', front, between, back, rfl, hne, hall⟩
    simp only [forall_mem_append] at hall
    obtain ⟨⟨hfront, hbetween⟩, hback⟩ := hall
    rw [idTokens_append hfront, idTokens_append_token htoken, idTokens_append hbetween,
      idTokens_append_token htoken', idTokens_eq_nil_iff.mpr hback]
    · intro c hc
      exact hback c (mem_of_mem_head? hc)
    · obtain ⟨c, rest, rfl⟩ := exists_cons_of_ne_nil hne
      rintro d ⟨⟩
      exact hbetween c mem_cons_self

/-- The two tokens behind a `#`. -/
theorem idTokens_hash {token' front between back : ByteString} (htoken : IsToken token)
    (htoken' : IsToken token') (hne : between ≠ [])
    (hall : ∀ c ∈ front ++ between ++ back, isIdSeparator c = true) :
    idTokens (35 :: (front ++ (token ++ (between ++ (token' ++ back))))) = [token, token'] := by
  rw [idTokens_cons rfl]
  exact idTokens_eq_pair_iff.mpr ⟨htoken, htoken', front, between, back, rfl, hne, hall⟩

end Tokens

/-! ### Numbers -/

section Numbers

variable {digits token : ByteString} {size value : ℕ}

theorem digitsValue_eq_some (h : digitsValue digits = some value) :
    digits ≠ [] ∧ ∀ c ∈ digits, 48 ≤ c ∧ c ≤ 57 := by
  unfold digitsValue at h
  split at h
  · rename_i hdigits
    simpa using hdigits
  · cases h

/-- Digits have no sign and no separator among them. -/
theorem digitsValue_mem (h : digitsValue digits = some value) :
    IsToken digits ∧ 43 ∉ digits ∧ 45 ∉ digits := by
  obtain ⟨hne, hdigits⟩ := digitsValue_eq_some h
  refine ⟨⟨hne, ?_⟩, ?_, ?_⟩
  · intro c hc
    have hc := hdigits c hc
    simp only [isIdSeparator, Bool.or_eq_false_iff, decide_eq_false_iff_not]
    refine ⟨⟨?_, ?_⟩, ?_⟩ <;>
    · rintro rfl
      exact absurd hc (by decide)
  · intro hplus
    exact absurd (hdigits 43 hplus) (by decide)
  · intro hminus
    exact absurd (hdigits 45 hminus) (by decide)

theorem IsNumber.isToken (h : IsNumber size token value) : IsToken token := by
  obtain ⟨digits, rfl | rfl, hdigits, -⟩ := h
  · exact (digitsValue_mem hdigits).1
  · refine ⟨by simp, ?_⟩
    intro c hc
    obtain rfl | hc := mem_cons.mp hc
    · rfl
    · exact (digitsValue_mem hdigits).1.2 c hc

/-- **What is read as an unsigned number**, where there is no minus sign. -/
theorem fromStringUnsigned_eq_some_iff (hminus : 45 ∉ token) :
    fromStringUnsigned size token = some value ↔ IsNumber size token value := by
  have hwithin : ∀ digits : ByteString, (digitsValue digits).filter (· < size) = some value ↔
      digitsValue digits = some value ∧ value < size := by
    intro digits
    simp [Option.filter_eq_some_iff]
  unfold fromStringUnsigned IsNumber
  simp only []
  split
  · exact absurd mem_cons_self hminus
  · rename_i digits
    rw [hwithin]
    constructor
    · intro h
      exact ⟨digits, .inr rfl, h⟩
    · rintro ⟨digits', rfl | heq, h⟩
      · exact absurd mem_cons_self (digitsValue_mem h.1).2.1
      · rwa [(List.cons.inj heq).2]
  · rename_i hplus
    rw [hwithin]
    constructor
    · intro h
      exact ⟨token, .inl rfl, h⟩
    · rintro ⟨digits', rfl | heq, h⟩
      · exact h
      · exact absurd heq (hplus digits')

/-- **A number is read back from its digits.** -/
theorem digitsValue_toDecimal (n : ℕ) : digitsValue (toDecimal n) = some n := by
  have hdigit : ∀ c ∈ Nat.toDigits 10 n, 48 ≤ c.toNat ∧ c.toNat ≤ 57 := by
    intro c hc
    have hc := Nat.isDigit_of_mem_toDigits (by decide) (by decide) hc
    simpa [Char.isDigit, UInt32.le_iff_toNat_le] using hc
  have hbyte : ∀ c ∈ Nat.toDigits 10 n, c.toNat.toUInt8.toNat = c.toNat := by
    intro c hc
    have hc := (hdigit c hc).2
    rw [Nat.toUInt8, UInt8.toNat_ofNat']
    omega
  have hall : (toDecimal n).all (fun c => 48 ≤ c && c ≤ 57) = true := by
    simp only [toDecimal, all_map, all_eq_true, Function.comp_apply, Bool.and_eq_true,
      decide_eq_true_eq, UInt8.le_iff_toNat_le]
    intro c hc
    rw [hbyte c hc]
    exact hdigit c hc
  have hne : toDecimal n ≠ [] := by
    rw [toDecimal, Ne, map_eq_nil_iff]
    exact Nat.toDigits_ne_nil
  have hvalue : (toDecimal n).foldl (fun value c => 10 * value + (c.toNat - 48)) 0 = n := by
    refine Eq.trans ?_ (Nat.ofDigitChars_toDigits (n := n) (by decide : 1 < 10) (Nat.le_refl 10))
    rw [Nat.ofDigitChars_eq_foldl, toDecimal, foldl_map]
    refine foldl_ext _ _ 0 ?_
    intro value c hc
    rw [hbyte c hc]
    rfl
  rw [digitsValue, if_pos ⟨hne, hall⟩, hvalue]

end Numbers

/-! ### IDs -/

section Ids

variable {str : ByteString} {id : Id}

/-- **What is read as an ID.** -/
theorem idFromString_eq_some_iff : idFromString str = some id ↔
    ∃ front site between entity back : ByteString,
      trimCopy str = 35 :: (front ++ (site ++ (between ++ (entity ++ back)))) ∧
      (∀ c ∈ front ++ between ++ back, isIdSeparator c = true) ∧ between ≠ [] ∧
      IsNumber (2 ^ 32) site id.siteId ∧ IsNumber (2 ^ 64) entity id.entityId := by
  have hminus : ∀ {token : ByteString}, IsToken token → 45 ∉ token := by
    intro token htoken hmem
    cases htoken.2 45 hmem
  constructor
  · intro h
    unfold idFromString at h
    simp only [] at h
    split_ifs at h with hhead
    obtain ⟨t, ht⟩ := head?_eq_some_iff.mp hhead
    split at h
    · rename_i site entity htokens
      rw [ht] at htokens
      have hpair : idTokens t = [site, entity] := (idTokens_cons rfl t).symm.trans htokens
      obtain ⟨hsite, hentity, front, between, back, rfl, hne, hall⟩ := idTokens_eq_pair_iff.mp hpair
      simp only [Option.bind_eq_bind, Option.bind_eq_some_iff, Option.pure_def,
        Option.some.injEq] at h
      obtain ⟨siteId, hsiteId, entityId, hentityId, rfl⟩ := h
      exact ⟨front, site, between, entity, back, ht, hall, hne,
        (fromStringUnsigned_eq_some_iff (hminus hsite)).mp hsiteId,
        (fromStringUnsigned_eq_some_iff (hminus hentity)).mp hentityId⟩
    · cases h
  · rintro ⟨front, site, between, entity, back, ht, hall, hne, hsite, hentity⟩
    have hpair : idTokens (trimCopy str) = [site, entity] := by
      rw [ht]
      exact idTokens_hash hsite.isToken hentity.isToken hne hall
    have hsiteId := (fromStringUnsigned_eq_some_iff (hminus hsite.isToken)).mpr hsite
    have hentityId := (fromStringUnsigned_eq_some_iff (hminus hentity.isToken)).mpr hentity
    rw [idTokens] at hpair
    rw [idFromString]
    simp only [ht, head?_cons, if_true]
    rw [← ht, hpair]
    simp only [fromStringUnsignedInt, hsiteId, hentityId, Option.bind_eq_bind, Option.bind_some,
      Option.pure_def]

/-- The text of an ID is read as that. -/
theorem IsIdText.idFromString_eq (h : IsIdText str id) : idFromString str = some id := by
  obtain ⟨site, entity, htext, hsite, hentity, hfits⟩ := h
  refine idFromString_eq_some_iff.mpr ⟨[], site, [45], entity, [], ?_, ?_, by simp, ?_, ?_⟩
  · simpa using htext
  · simp [isIdSeparator]
  · exact ⟨site, .inl rfl, hsite, hfits.1⟩
  · exact ⟨entity, .inl rfl, hentity, hfits.2⟩

theorem isIdText_toString (hfits : id.Fits) : IsIdText (id.toString true) id := by
  have htext : id.toString true = 35 :: (toDecimal id.siteId ++ 45 :: toDecimal id.entityId) := by
    simp [Id.toString]
  refine ⟨toDecimal id.siteId, toDecimal id.entityId, ?_, digitsValue_toDecimal _,
    digitsValue_toDecimal _, hfits⟩
  -- There are no blanks in it.
  rw [← htext]
  apply trimCopy_eq_self
  have hdigits : ∀ n, ∀ c ∈ toDecimal n, isSpace c = false := by
    intro n c hc
    have hc := (digitsValue_eq_some (digitsValue_toDecimal n)).2 c hc
    rw [isSpace, Bool.or_eq_false_iff, decide_eq_false_iff_not]
    grind
  intro c hc
  rw [htext, mem_cons, mem_append, mem_cons] at hc
  obtain rfl | hc | rfl | hc := hc
  · rfl
  · exact hdigits _ c hc
  · rfl
  · exact hdigits _ c hc

/-- The texts of IDs and those in which there are not two numbers are the exact ones. -/
theorem isExact_iff : IsExact str ↔ ∀ id, idFromString str = some id → IsIdText str id := by
  constructor
  · intro h id hread
    obtain ⟨front, site, between, entity, back, ht, hall, hne, hsite, hentity⟩ :=
      idFromString_eq_some_iff.mp hread
    obtain ⟨rfl, rfl, rfl, hplus, hplus'⟩ :=
      h front site between entity back ht hall hne ⟨_, hsite⟩ ⟨_, hentity⟩
    obtain ⟨digits, rfl | rfl, hdigits, hfits⟩ := hsite
    · obtain ⟨digits', rfl | rfl, hdigits', hfits'⟩ := hentity
      · exact ⟨site, entity, by simpa using ht, hdigits, hdigits', hfits, hfits'⟩
      · exact absurd mem_cons_self hplus'
    · exact absurd mem_cons_self hplus
  · rintro h front site between entity back ht hall hne ⟨siteId, hsite⟩ ⟨entityId, hentity⟩
    have hread : idFromString str = some ⟨siteId, entityId⟩ := idFromString_eq_some_iff.mpr
      ⟨front, site, between, entity, back, ht, hall, hne, hsite, hentity⟩
    obtain ⟨site', entity', htext, hsite', hentity', -⟩ := h _ hread
    obtain ⟨htoken, hplus, -⟩ := digitsValue_mem hsite'
    obtain ⟨htoken', hplus', -⟩ := digitsValue_mem hentity'
    -- The numbers are the two tokens, in both texts.
    have hpair : idTokens (trimCopy str) = [site, entity] := by
      rw [ht]
      exact idTokens_hash hsite.isToken hentity.isToken hne hall
    have hpair' : idTokens (trimCopy str) = [site', entity'] := by
      have hone := @idTokens_hash _ _ [] [45] [] htoken htoken' (by simp) (by simp [isIdSeparator])
      simpa [htext] using hone
    rw [hpair, List.cons.injEq, List.cons.injEq] at hpair'
    obtain ⟨rfl, rfl, -⟩ := hpair'
    rw [ht, List.cons.injEq] at htext
    obtain ⟨-, htext⟩ := htext
    have hfront : front = [] := by
      cases front with
      | nil => rfl
      | cons c front =>
        obtain ⟨d, digits, rfl⟩ := exists_cons_of_ne_nil htoken.1
        obtain rfl : c = d := (List.cons.inj htext).1
        have hno := htoken.2 c mem_cons_self
        rw [hall c (by simp)] at hno
        cases hno
    subst hfront
    rw [nil_append, append_cancel_left_eq] at htext
    have hlength := congrArg List.length htext
    have hpos := length_pos_of_ne_nil hne
    simp only [length_append, length_cons] at hlength
    obtain rfl : back = [] := eq_nil_of_length_eq_zero (by omega)
    rw [append_nil, show 45 :: entity = [45] ++ entity from rfl,
      append_cancel_right_eq] at htext
    exact ⟨rfl, htext, rfl, hplus, hplus'⟩

/-- **Which texts are read as they are meant to be**: those that take no liberties.  Every
ID is read back from its own text. -/
theorem readsIdText_iff (str : ByteString) (idData : Id) {id : Id} (hfits : id.Fits) :
    (ReadsIdText str ↔ IsExact str) ∧
      IdProperty.setFromString idData (id.toString true) = (true, id) := by
  constructor
  · rw [isExact_iff]
    constructor
    · intro h id hread
      have hset : ∀ idData, IdProperty.setFromString idData str = (true, id) := by
        intro idData
        rw [IdProperty.setFromString, hread]
      obtain ⟨hiff, hstores, -⟩ := h id
      obtain ⟨id', htext⟩ := hiff.mp (by rw [hset])
      have hsame := hstores id' htext
      rw [hset] at hsame
      obtain rfl : id = id' := hsame
      exact htext
    · intro h idData
      cases hread : idFromString str with
      | none =>
        have hnot : ∀ id, ¬ IsIdText str id := by
          intro id htext
          rw [htext.idFromString_eq] at hread
          cases hread
        simp [IdProperty.setFromString, hread, hnot]
      | some id =>
        have htext := h id hread
        have hunique : ∀ id', IsIdText str id' → id = id' := by
          intro id' htext'
          exact Option.some.inj (hread.symm.trans htext'.idFromString_eq)
        simp only [IdProperty.setFromString, hread]
        refine ⟨?_, hunique, by simp⟩
        simp only [true_iff]
        exact ⟨id, htext⟩
  · rw [IdProperty.setFromString, (isIdText_toString hfits).idFromString_eq]

/-- An ID, as it is written and with blanks around it. -/
theorem readsIdText_door :
    ReadsIdText (ascii " #3-1729 ") ∧
      IdProperty.setFromString default (Id.toString ⟨3, 1729⟩ true) = (true, ⟨3, 1729⟩) := by
  have hread : idFromString (ascii " #3-1729 ") = some ⟨3, 1729⟩ := by decide +kernel
  obtain ⟨hiff, hback⟩ := @readsIdText_iff (ascii " #3-1729 ") default ⟨3, 1729⟩
    ⟨by decide, by decide⟩
  refine ⟨hiff.mpr (isExact_iff.mpr ?_), hback⟩
  intro id hid
  obtain rfl : ⟨3, 1729⟩ = id := Option.some.inj (hread.symm.trans hid)
  exact ⟨ascii "3", ascii "1729", by decide +kernel, by decide +kernel, by decide +kernel,
    by decide, by decide⟩

/-- Blanks, or a plus sign, make no difference. -/
theorem not_readsIdText :
    idFromString (ascii "# 1 +2#") = some ⟨1, 2⟩ ∧ ¬ ReadsIdText (ascii "# 1 +2#") := by
  have hread : idFromString (ascii "# 1 +2#") = some ⟨1, 2⟩ := by decide +kernel
  have htrim : trimCopy (ascii "# 1 +2#") = ascii "# 1 +2#" := by decide +kernel
  refine ⟨hread, ?_⟩
  intro h
  obtain ⟨id, site, entity, htext, hsite, -⟩ := (h default).1.mp (by
    rw [IdProperty.setFromString, hread])
  rw [htrim] at htext
  obtain ⟨hne, hdigits⟩ := digitsValue_eq_some hsite
  obtain ⟨c, digits, rfl⟩ := List.exists_cons_of_ne_nil hne
  obtain rfl : 32 = c := (List.cons.inj (List.cons.inj htext).2).1
  exact absurd (hdigits 32 List.mem_cons_self) (by decide)

end Ids

end Mutgos.DbTypes
