import Mutgos.Primitives.MovementPrims
import Mutgos.Text.SplitRanges

/-!
# Property assignments

`DatabasePrims::convert_string_to_prop_params` takes a string such as `entity=/path:value` apart.
What finds an Entity by its name is a parameter.  The path is two bytes too long when there is a
value, and so has the `:` in it.

## Main results

* `PropAssignment.yields_iff` — **the parts are found exactly where there is no value**, and a
  string without a `=` is refused.
-/

namespace Mutgos.Primitives

open DbTypes Security Text List

/-- What `convert_string_to_prop_params` fills in. -/
structure PropParams where
  entityId : Id
  property : ByteString
  hasPropertyValue : Bool
  propertyValue : ByteString
  ambiguous : Bool

/-- How Entities are found by what they are called: as an ID or a registration, or else by name,
which may throw. -/
structure EntityNames where
  convertStringToId : ByteString → Id
  matchNameToId : ByteString → Except SecurityException (Status × Id × Bool)

/-- First the ID is tried, then the name. -/
def EntityNames.resolve (names : EntityNames) (name : ByteString) :
    Except SecurityException (Status × Id × Bool) :=
  if names.convertStringToId name = default then names.matchNameToId name
  else .ok (.ok, names.convertStringToId name, false)

/-- What of the path and the value the bytes behind the `=` tell. -/
def propPart (params : PropParams) (rest : ByteString) : PropParams :=
  match find [58] rest with
  -- The entire remainder is the property.
  | none => { params with property := trimCopy rest }
  | some propSep =>
    { params with
      hasPropertyValue := true
      -- The length is that up to the separator, and 1 is added twice instead of taken away.
      property := trimCopy (rest.take (propSep + 2))
      propertyValue :=
        if propSep + 1 < rest.length then trimCopy (rest.drop (propSep + 1)) else [] }

def convertStringToPropParams (names : EntityNames) (inputString : ByteString)
    (params : PropParams) : Except SecurityException (Status × PropParams) :=
  let input := trimCopy inputString
  let params := { params with hasPropertyValue := false, ambiguous := false }
  if input = [] then .ok (.badArguments, params)
  else
    match find [61] input with
    | none => .ok (.badArguments, params)
    | some nameSep =>
      match names.resolve (trimCopy (input.take nameSep)) with
      | .error e => .error e
      | .ok (status, id, ambiguous) =>
        let params := { params with entityId := id, ambiguous := ambiguous }
        if status ≠ .ok then .ok (status, params)
        -- The property is missing.
        else if input.length ≤ nameSep + 1 then .ok (.badArguments, params)
        else .ok (.ok, propPart params (input.drop (nameSep + 1)))

/-! ### What is to be parsed -/

/-- There is something of it, and it is not padded. -/
def Unpadded (s : ByteString) : Prop := s ≠ [] ∧ trimCopy s = s

/-- The parts of an assignment. -/
structure PropAssignment where
  name : ByteString
  property : ByteString
  value : Option ByteString
  name_unpadded : Unpadded name
  property_unpadded : Unpadded property
  value_unpadded : ∀ v ∈ value, Unpadded v
  equals_notMem : 61 ∉ name
  colon_notMem : 58 ∉ property

/-- The white space around the separators. -/
structure SeparatorSpace where
  beforeEquals : ByteString
  afterEquals : ByteString
  beforeColon : ByteString
  afterColon : ByteString
  isSpace : ∀ c ∈ beforeEquals ++ afterEquals ++ beforeColon ++ afterColon, isSpace c = true

namespace PropAssignment

variable (a : PropAssignment) (space : SeparatorSpace)

/-- What follows the `=`. -/
def rest : ByteString :=
  match a.value with
  | none => space.afterEquals ++ a.property
  | some v => space.afterEquals ++ a.property ++ space.beforeColon ++
      58 :: (space.afterColon ++ v)

/-- The assignment as a string. -/
def text : ByteString := a.name ++ space.beforeEquals ++ 61 :: a.rest space

/-- The parts are what the assignment is made of. -/
def Yields (id : Id) (result : Except SecurityException (Status × PropParams)) : Prop :=
  ∃ params, result = .ok (.ok, params) ∧ params.entityId = id ∧ params.property = a.property ∧
    params.hasPropertyValue = a.value.isSome ∧ ∀ v ∈ a.value, params.propertyValue = v

end PropAssignment

/-! ### Trimming the parts -/

/-- What is around an unpadded string is trimmed off. -/
theorem Unpadded.trimCopy_append {s front back : ByteString} (h : Unpadded s)
    (hfront : ∀ c ∈ front, isSpace c = true) (hback : ∀ c ∈ back, isSpace c = true) :
    trimCopy (front ++ s ++ back) = s := by
  rw [← trimCopy_append_eq_iff.mpr hback, trimCopy, dropWhile_append_of_pos hfront]
  exact h.2

/-- Unpadded strings at both ends make an unpadded string. -/
theorem Unpadded.append {s t : ByteString} (hs : Unpadded s) (ht : Unpadded t)
    (between : ByteString) : Unpadded (s ++ between ++ t) := by
  obtain ⟨hhead, -⟩ := trimCopy_eq_self_iff.mp hs.2
  obtain ⟨-, hlast⟩ := trimCopy_eq_self_iff.mp ht.2
  refine ⟨by simp [hs.1], trimCopy_eq_self_iff.mpr ⟨?_, ?_⟩⟩
  · rwa [append_assoc, head?_append_of_ne_nil _ hs.1]
  · rwa [getLast?_append_of_ne_nil _ ht.1]

/-- Only white space is trimmed off. -/
theorem mem_trimCopy {c : UInt8} {s : ByteString} (h : c ∈ s) (hc : isSpace c = false) :
    c ∈ trimCopy s := by
  obtain ⟨front, back, heq, hfront, hback⟩ := exists_trimCopy s
  rw [heq, mem_append, mem_append] at h
  obtain (h | h) | h := h
  · simp [hfront c h] at hc
  · exact h
  · simp [hback c h] at hc

/-- The first separator is found. -/
theorem find_separator {c : UInt8} {w : ByteString} (h : c ∉ w) (s : ByteString) :
    find [c] (w ++ c :: s) = some w.length := by
  have hfirst : find [c] (c :: s) = some 0 := find_append [c] s
  rw [find_append_of_not_mem h, hfirst, Option.map_some, Nat.zero_add]

/-! ### The parts -/

/-- **What has no `=` is refused.** -/
theorem convertStringToPropParams_of_notMem {names : EntityNames} {s : ByteString}
    (h : 61 ∉ s) (params : PropParams) :
    ∃ params', convertStringToPropParams names s params = .ok (.badArguments, params') := by
  have hfind : find [61] (trimCopy s) = none := by
    refine find_eq_none_of_not_mem fun hmem => h ?_
    obtain ⟨front, back, heq, -, -⟩ := exists_trimCopy s
    rw [heq]
    simp [hmem]
  rw [convertStringToPropParams]
  simp only [hfind]
  split <;> exact ⟨_, rfl⟩

namespace PropAssignment

variable {a : PropAssignment} {space : SeparatorSpace}

/-- What ends the string is not padded. -/
theorem exists_rest (a : PropAssignment) (space : SeparatorSpace) :
    ∃ front last, a.rest space = front ++ last ∧ Unpadded last := by
  rw [rest]
  cases hvalue : a.value with
  | none => exact ⟨_, _, rfl, a.property_unpadded⟩
  | some v =>
    exact ⟨space.afterEquals ++ a.property ++ space.beforeColon ++ 58 :: space.afterColon, v,
      by simp, a.value_unpadded v hvalue⟩

/-- The name is found, and what is behind the `=` is taken apart. -/
theorem convertStringToPropParams_text {names : EntityNames} {id : Id} {ambiguous : Bool}
    (h : names.resolve a.name = .ok (.ok, id, ambiguous)) (params : PropParams) :
    convertStringToPropParams names (a.text space) params = .ok (.ok, propPart
      { params with entityId := id, hasPropertyValue := false, ambiguous := ambiguous }
      (a.rest space)) := by
  have hspace : ∀ c ∈ space.beforeEquals, isSpace c = true := fun c hc =>
    space.isSpace c (by simp [hc])
  obtain ⟨front, last, hrest, hlast⟩ := a.exists_rest space
  have htrim : trimCopy (a.text space) = a.name ++ space.beforeEquals ++ 61 :: a.rest space := by
    have happend := (a.name_unpadded.append hlast (space.beforeEquals ++ 61 :: front)).2
    simpa [text, hrest] using happend
  have hne : a.rest space ≠ [] := by simp [hrest, hlast.1]
  have hnotMem : 61 ∉ a.name ++ space.beforeEquals := by
    rw [mem_append, not_or]
    exact ⟨a.equals_notMem, fun hmem => absurd (hspace 61 hmem) (by decide)⟩
  have hfind : find [61] (a.name ++ space.beforeEquals ++ 61 :: a.rest space) =
      some (a.name ++ space.beforeEquals).length := find_separator hnotMem _
  have hname : trimCopy ([] ++ a.name ++ space.beforeEquals) = a.name :=
    a.name_unpadded.trimCopy_append (by simp) hspace
  have hpos := length_pos_of_ne_nil hne
  rw [convertStringToPropParams]
  rw [nil_append] at hname
  simp only [htrim, hfind, take_left, hname, h]
  rw [if_neg (by simp [a.name_unpadded.1])]
  have hlength : ¬ (a.name ++ space.beforeEquals ++ 61 :: a.rest space).length ≤
      (a.name ++ space.beforeEquals).length + 1 := by
    simp only [length_append, length_cons]
    omega
  have hdrop : (a.name ++ space.beforeEquals ++ 61 :: a.rest space).drop
      ((a.name ++ space.beforeEquals).length + 1) = a.rest space := by
    rw [← drop_drop, drop_left, drop_one, tail_cons]
  rw [if_neg (by simp), if_neg hlength, hdrop]

/-- **The parts are found exactly where there is no value**, and what has no `=` is refused. -/
theorem yields_iff (names : EntityNames) (s : ByteString) (a : PropAssignment)
    (space : SeparatorSpace) {id : Id} {ambiguous : Bool}
    (h : names.resolve a.name = .ok (.ok, id, ambiguous)) (params : PropParams) :
    (61 ∉ s → ∃ params', convertStringToPropParams names s params =
      .ok (.badArguments, params')) ∧
    (a.Yields id (convertStringToPropParams names (a.text space) params) ↔ a.value = none) := by
  refine ⟨fun hs => convertStringToPropParams_of_notMem hs params, ?_⟩
  rw [convertStringToPropParams_text h, Yields]
  simp only [Except.ok.injEq, Prod.mk.injEq, true_and, exists_eq_left', rest]
  have hafter : ∀ c ∈ space.afterEquals, isSpace c = true := fun c hc =>
    space.isSpace c (by simp [hc])
  have hcolon : 58 ∉ space.afterEquals ++ a.property := by
    rw [List.mem_append, not_or]
    exact ⟨fun hmem => absurd (hafter 58 hmem) (by decide), a.colon_notMem⟩
  cases hvalue : a.value with
  | none =>
    have htrim : trimCopy (space.afterEquals ++ a.property ++ []) = a.property :=
      a.property_unpadded.trimCopy_append hafter (by simp)
    rw [List.append_nil] at htrim
    simp [propPart, find_eq_none_of_not_mem hcolon, htrim]
  | some v =>
    -- The separator is not white space, so that trimming leaves it in the path.
    refine iff_of_false (fun hyields => a.colon_notMem ?_) (by simp)
    have hnotMem : 58 ∉ space.afterEquals ++ a.property ++ space.beforeColon := by
      rw [List.mem_append, not_or]
      exact ⟨hcolon, fun hmem => absurd (space.isSpace 58 (by simp [hmem])) (by decide)⟩
    have hfind : find [58] (space.afterEquals ++ a.property ++ space.beforeColon ++
        58 :: (space.afterColon ++ v)) =
        some (space.afterEquals ++ a.property ++ space.beforeColon).length :=
      find_separator hnotMem _
    simp only [propPart, hfind] at hyields
    rw [← hyields.2.1]
    refine mem_trimCopy ?_ (by decide)
    rw [List.take_length_add_append]
    simp

/-- The Entity with ID 1:2 is named `A`. -/
def namesOne : EntityNames where
  convertStringToId _ := default
  matchNameToId name := .ok (if name = [65] then (.ok, ⟨1, 2⟩, false)
    else (.badArguments, default, false))

/-- `A=/p:v` -/
def assignmentOne : PropAssignment where
  name := [65]
  property := [47, 112]
  value := some [118]
  name_unpadded := ⟨by decide, rfl⟩
  property_unpadded := ⟨by decide, rfl⟩
  value_unpadded v hv := by
    cases hv
    exact ⟨by decide, rfl⟩
  equals_notMem := by decide
  colon_notMem := by decide

/-- No white space. -/
def noSpace : SeparatorSpace := ⟨[], [], [], [], by simp⟩

def noParams : PropParams := ⟨default, [], false, [], false⟩

theorem yields_iff_one :
    ¬ assignmentOne.Yields ⟨1, 2⟩
      (convertStringToPropParams namesOne (assignmentOne.text noSpace) noParams) :=
  fun hyields => absurd ((yields_iff namesOne [] assignmentOne noSpace rfl noParams).2.mp hyields)
    (by decide)

/-- **`A=/p:v`** sets a property named `/p:v`. -/
theorem not_yields :
    ¬ ∃ params, convertStringToPropParams namesOne (ascii "A=/p:v") noParams =
      .ok (.ok, params) ∧ params.property = ascii "/p" := by
  rintro ⟨params, hcall, hproperty⟩
  have hvalue : convertStringToPropParams namesOne (ascii "A=/p:v") noParams =
      .ok (.ok, ⟨⟨1, 2⟩, ascii "/p:v", true, ascii "v", false⟩) := rfl
  rw [hvalue] at hcall
  cases hcall
  exact absurd hproperty (by decide)

end PropAssignment

end Mutgos.Primitives
