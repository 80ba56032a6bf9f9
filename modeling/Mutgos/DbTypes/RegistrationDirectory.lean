import Mutgos.DbTypes.Id
import Mutgos.DbTypes.PropertyPaths

/-!
# Registrations by path

`dbtype::RegistrationDirectory` is a second property directory, written out once
more, whose data are IDs.  It follows paths in the same way, and so has the same
faults: a path of two segments is never registered, and a separator in front costs
the first character.  What such a call leaves behind is an entry without an ID, and
`does_registration_exist` answers that it exists.

## Main results

* `addRegistration_promise_iff` — **the promise about two paths is kept in a directory if and only
  if they are separable and the other one is not left over from a call that failed.**
-/

namespace Mutgos.DbTypes

open Text

/-- `dbtype::RegistrationDirectory`.  It has the fields and `parse_directory_path` and
`get_directory_entry` of a property directory. -/
abbrev RegistrationDirectory := PropertyDirectory Id

namespace RegistrationDirectory

open PropertyDirectory

variable (limit : ℕ) (dir : RegistrationDirectory) (path : ByteString)

def getRegisteredId : Option Id × RegistrationDirectory := dir.getPropertyData limit path

def isPathDirectory : Bool × RegistrationDirectory := dir.isPropertyDirectory limit path

/-- `does_registration_exist`, which is true of every entry -/
def doesRegistrationExist : Bool × RegistrationDirectory :=
  let (found, dir) := dir.parseDirectoryPath limit path false
  (found.isSome, dir)

def addRegistration (id : Id) : Bool × RegistrationDirectory := dir.setProperty limit path id

/-- `delete_registration`: the entry is emptied, and the entry last accessed in its directory is
removed from there. -/
def deleteRegistration : Bool × RegistrationDirectory :=
  ((dir.parseDirectoryPath limit path false).1.isSome, dir.deleteProperty limit path)

/-- The names by which the directories on the way were last accessed, each with a separator. -/
def accessedPath : List ByteString → RegistrationDirectory → ByteString
  | [], dir => pathSeparator :: dir.lastAccessed.getD []
  | name :: rest, dir =>
    pathSeparator :: dir.lastAccessed.getD [] ++
      match SortedMap.find name dir.propertyMap with
      | some (_, some subdir) => accessedPath rest subdir
      | _ => []

def getNextRegistrationEntry : ByteString × RegistrationDirectory :=
  match dir.parseDirectoryPath limit path false with
  | (none, dir) => ([], dir)
  | (some found, dir) =>
    let next := (directoryAt found.parents dir).bind fun parent =>
      ((parent.propertyMap.dropWhile fun entry => some entry.1 ≠ parent.lastAccessed).tail).head?
    match next with
    | none => ([], dir)
    | some (name, _) =>
      let dir := dir.atDirectory (fun parent => { parent with lastAccessed := some name })
        found.parents
      (accessedPath found.parents dir, dir)

def getFirstRegistrationEntry : ByteString × RegistrationDirectory :=
  let trimmedPath := trimCopy path
  if trimmedPath = [] then ([], dir)
  else
    match dir.parseDirectoryPath limit path false with
    | (none, dir) => ([], dir)
    | (some found, dir) =>
      match ((dir.entryAt found).bind Prod.snd).bind fun subdir => subdir.propertyMap.head? with
      | none => ([], dir)
      | some (name, _) =>
        let separator := if trimmedPath.getLast? = some pathSeparator then [] else [pathSeparator]
        (trimmedPath ++ separator ++ name, dir)

/-- The paths that are visited from `path` on by `get_next_registration_entry`, up to the empty
one or a number of them. -/
def walk : ℕ → RegistrationDirectory → ByteString → List ByteString
  | 0, _, _ => []
  | n + 1, dir, path =>
    if path = [] then []
    else
      let (next, dir) := dir.getNextRegistrationEntry limit path
      path :: walk n dir next

/-! ### What changes a directory -/

/-- A call on a directory. -/
inductive RegistrationCall
  | addRegistration (path : ByteString) (id : Id)
  | deleteRegistration (path : ByteString)

/-- The directory after a call. -/
def call : RegistrationCall → RegistrationDirectory
  | .addRegistration path id => (dir.addRegistration limit path id).2
  | .deleteRegistration path => (dir.deleteRegistration limit path).2

/-- The directories that calls make of an empty one. -/
def ReachedBy : Prop :=
  Reachable (fun dir c => some (RegistrationDirectory.call limit dir c)) (fun _ _ => True) empty dir

variable {limit dir path}

/-- **No call makes a directory inside a directory.** -/
theorem flat_of_reachedBy (h : ReachedBy limit dir) : dir.Flat := by
  refine h.invariant flat_empty ?_
  intro dir c dir' hdir _ hcall
  obtain rfl := Option.some.inj hcall
  cases c with
  | addRegistration path id => exact (setProperty_flat hdir limit path id).1
  | deleteRegistration path => exact deleteProperty_flat hdir limit path

theorem isPathDirectory_eq_false (h : dir.Flat) (limit : ℕ) (path : ByteString) :
    (isPathDirectory limit dir path).1 = false := isPropertyDirectory_flat h limit path

/-- What exists is an entry under the single segment of the path. -/
theorem doesRegistrationExist_iff (h : dir.Flat) (limit : ℕ) (path : ByteString) :
    (doesRegistrationExist limit dir path).1 = true ↔
      ∃ name, pathTokens path = [name] ∧
        (SortedMap.find name dir.propertyMap).isSome = true := by
  obtain ⟨-, hiff, -⟩ := parseDirectoryPath_flat h limit path false
  rw [doesRegistrationExist, Option.isSome_iff_exists]
  constructor
  · rintro ⟨found, hfound⟩
    obtain ⟨name, htokens, -, ⟨hcreate, -⟩ | ⟨-, hthere⟩⟩ := (hiff found).mp hfound
    · cases hcreate
    · exact ⟨name, htokens, hthere⟩
  · rintro ⟨name, htokens, hthere⟩
    exact ⟨⟨[], name⟩, (hiff _).mpr ⟨name, htokens, rfl, .inr ⟨rfl, hthere⟩⟩⟩

/-- Looking at a name changes no other entry. -/
theorem find_getDirectoryEntry {name name' : ByteString} (create : Bool) (hne : name' ≠ name) :
    SortedMap.find name' (dir.getDirectoryEntry name create).2.propertyMap =
      SortedMap.find name' dir.propertyMap := by
  unfold getDirectoryEntry
  split
  · rfl
  · split
    · rfl
    · split
      · show SortedMap.find name' (dir.setEntry name (none, none)).propertyMap = _
        rw [find_setEntry, if_neg hne]
      · rfl

/-- Where a registration is added, no other entry is made or changed. -/
theorem find_addRegistration {name : ByteString} (h : dir.Flat) (htokens : pathTokens path = [name])
    (hshort : utf8Size name ≤ limit) (id : Id) (name' : ByteString) :
    SortedMap.find name' (addRegistration limit dir path id).2.propertyMap =
      if name' = name then some (some id, none) else SortedMap.find name' dir.propertyMap := by
  obtain ⟨-, hsome, hentry⟩ := getDirectoryEntry_flat h name true
  have htrim : trimCopy path ≠ [] := by
    intro htrim
    rw [pathTokens_of_trim htrim] at htokens
    cases htokens
  have hfollow : dir.parseDirectoryPath limit path true =
      (some ⟨[], name⟩, (dir.getDirectoryEntry name true).2) := by
    rw [parseDirectoryPath, if_neg htrim, htokens, if_neg (by simpa using hshort), followSegments]
    rcases hget : dir.getDirectoryEntry name true with ⟨_ | entry, dir'⟩
    · rw [hget] at hsome
      simp at hsome
    · rfl
  obtain ⟨entry, hget⟩ := Option.isSome_iff_exists.mp (hsome.mpr (.inl rfl))
  obtain ⟨hleaf, -, hfind⟩ := hentry entry hget
  rw [addRegistration, setProperty, hfollow]
  show SortedMap.find name' (PropertyDirectory.atEntry _ _ _).propertyMap = _
  rw [atEntry_of_find _ hfind, find_setEntry, hleaf]
  split_ifs with hname
  · rfl
  · exact find_getDirectoryEntry true hname

theorem addRegistration_isSome_iff (h : dir.Flat) (id : Id) :
    (addRegistration limit dir path id).1 = true ↔
      ∃ name, pathTokens path = [name] ∧ utf8Size name ≤ limit :=
  (setProperty_flat h limit path id).2.1

end RegistrationDirectory

/-! ### The promise -/

open PropertyDirectory RegistrationDirectory

/-- What walking a directory is to show: each of its entries once and in order, as paths of these
entries. -/
def Walks (limit : ℕ) (dir : RegistrationDirectory) (path : ByteString) : Prop :=
  ∃ parents subdir, directoryAt parents dir = some subdir ∧ segments path = parents ∧
    ((walk limit (subdir.propertyMap.length + 1) dir
      (getFirstRegistrationEntry limit dir path).1).map segments =
        subdir.propertyMap.map fun entry => parents ++ [entry.1])

/-- What `add_registration` promises of a path, and of any other one, in a directory. -/
structure AddsRegistration (limit : ℕ) (dir : RegistrationDirectory) (id : Id)
    (path other : ByteString) : Prop where
  succeeds : (addRegistration limit dir path id).1 = true
  stored : (getRegisteredId limit (addRegistration limit dir path id).2 path).1 = some id
  exists_self : (doesRegistrationExist limit (addRegistration limit dir path id).2 path).1 = true
  intermediate : ∀ n, 0 < n → n < (segments path).length →
    (isPathDirectory limit (addRegistration limit dir path id).2
      (joinPath ((segments path).take n))).1 = true
  /-- What exists is registered. -/
  exists_other :
    (doesRegistrationExist limit (addRegistration limit dir path id).2 other).1 = true →
    (getRegisteredId limit (addRegistration limit dir path id).2 other).1.isSome = true
  /-- A directory was one before, or has been created for the path. -/
  directory : (isPathDirectory limit (addRegistration limit dir path id).2 other).1 = true →
    (isPathDirectory limit dir other).1 = true ∨
      ∃ n, 0 < n ∧ n < (segments path).length ∧ segments other = (segments path).take n
  frame : segments other ≠ segments path →
    (getRegisteredId limit (addRegistration limit dir path id).2 other).1 =
      (getRegisteredId limit dir other).1
  /-- Paths of the same segments are of the same entry. -/
  denotes : segments other = segments path →
    (getRegisteredId limit (addRegistration limit dir path id).2 other).1 = some id ∧
      (getRegisteredId limit dir other).1 = (getRegisteredId limit dir path).1
  walked : (isPathDirectory limit (addRegistration limit dir path id).2 other).1 = true →
    Walks limit (addRegistration limit dir path id).2 other

/-- The entry of the path, if there is one, has an ID. -/
def Registered (dir : RegistrationDirectory) (path : ByteString) : Prop :=
  ∀ name entry, pathTokens path = [name] → SortedMap.find name dir.propertyMap = some entry →
    entry.1.isSome = true

variable {limit : ℕ} {dir : RegistrationDirectory} {path other : ByteString}

/-- The other path is the one that is registered, or what was there before. -/
def Settled (dir : RegistrationDirectory) (path other : ByteString) : Prop :=
  pathTokens other = pathTokens path ∨ Registered dir other

/-- Separable paths are kept apart, where what exists of the other one is registered. -/
theorem addsRegistration_of_separable (h : Separable limit path other)
    (hsettled : Settled dir path other) (hdir : dir.Flat) (id : Id) :
    AddsRegistration limit dir id path other := by
  have hsets := setsProperty_of_separable h hdir id
  obtain ⟨segment, name, hsegments, htokens, hshort, hother⟩ := h
  have hflat : (addRegistration limit dir path id).2.Flat :=
    (setProperty_flat hdir limit path id).1
  have hfind := find_addRegistration hdir htokens hshort id
  have hget := fun q => (getPropertyData_flat hflat limit q).2
  have hleaf := fun q => isPathDirectory_eq_false hflat limit q
  constructor
  · exact hsets.succeeds
  · exact hsets.stored
  · refine (doesRegistrationExist_iff hflat limit path).mpr ⟨name, htokens, ?_⟩
    rw [hfind, if_pos rfl]
    rfl
  · exact hsets.intermediate
  · intro hthere
    obtain ⟨name', htokens', hthere⟩ := (doesRegistrationExist_iff hflat limit other).mp hthere
    rw [getRegisteredId, hget, lookup_of_tokens htokens', dataOf]
    rw [hfind] at hthere ⊢
    by_cases hname : name' = name
    · rw [if_pos hname]
      rfl
    · rw [if_neg hname] at hthere ⊢
      obtain ⟨entry, hentry⟩ := Option.isSome_iff_exists.mp hthere
      have hregistered : Registered dir other := by
        refine hsettled.resolve_left ?_
        rw [htokens, htokens']
        simpa using hname
      rw [hentry]
      exact hregistered name' entry htokens' hentry
  · intro hdirectory
    rw [hleaf] at hdirectory
    cases hdirectory
  · exact hsets.frame
  · exact hsets.denotes
  · intro hdirectory
    rw [hleaf] at hdirectory
    cases hdirectory

/-- Two IDs that are added tell paths apart that are not separable. -/
theorem separable_of_addsRegistration (hdir : dir.Flat)
    (h : ∀ id, AddsRegistration limit dir id path other) : Separable limit path other := by
  have hflat := fun id : Id => (setProperty_flat hdir limit path id).1
  obtain ⟨name, htokens, hshort⟩ :=
    (addRegistration_isSome_iff hdir default).mp (h default).succeeds
  have hfind := find_addRegistration hdir htokens hshort
  have hget := fun id q => (getPropertyData_flat (hflat id) limit q).2
  obtain ⟨segment, hsegments⟩ := exists_single_segment (hflat default) htokens
    (h default).intermediate
  -- no answer is both of them
  obtain ⟨first, second, hne⟩ : ∃ first second : Id, first ≠ second := ⟨⟨0, 0⟩, ⟨0, 1⟩, by decide⟩
  refine ⟨segment, name, hsegments, htokens, hshort, ?_⟩
  constructor
  · intro hother
    by_contra hapart
    have hadded : ∀ id, (dir.getPropertyData limit other).1 = some id := by
      intro id
      rw [← getRegisteredId, ← (h id).frame (by rw [hsegments]; exact hapart), getRegisteredId]
      have hthere := hfind id name
      rw [if_pos rfl] at hthere
      rw [addRegistration] at hthere ⊢
      rw [hget, lookup_of_tokens hother, dataOf, hthere]
      rfl
    exact hne (Option.some.inj ((hadded first).symm.trans (hadded second)))
  · intro hsame
    have hstored := fun id => ((h id).denotes (hsame.trans hsegments.symm)).1
    by_contra hapart
    have hbefore : ∀ id, lookup dir other = some id := by
      intro id
      rw [← hstored id, getRegisteredId, addRegistration, hget, lookup, lookup]
      split
      · next name' htokens' =>
        have hname : name' ≠ name := by rintro rfl; exact hapart htokens'
        rw [dataOf, dataOf, ← addRegistration, hfind, if_neg hname]
      · rfl
    exact hne (Option.some.inj ((hbefore first).symm.trans (hbefore second)))

/-- What is left over from a call that failed exists, and is not registered. -/
theorem settled_of_addsRegistration {id : Id} (hdir : dir.Flat)
    (h : AddsRegistration limit dir id path other) : Settled dir path other := by
  have hflat : (addRegistration limit dir path id).2.Flat :=
    (setProperty_flat hdir limit path id).1
  obtain ⟨name, htokens, hshort⟩ := (addRegistration_isSome_iff hdir id).mp h.succeeds
  have hfind := find_addRegistration hdir htokens hshort id
  by_cases hsame : pathTokens other = pathTokens path
  · exact .inl hsame
  refine .inr ?_
  intro name' entry htokens' hentry
  have hname : name' ≠ name := by
    rintro rfl
    exact hsame (htokens'.trans htokens.symm)
  have hafter : SortedMap.find name' (addRegistration limit dir path id).2.propertyMap
      = some entry := by rw [hfind, if_neg hname, hentry]
  have hexists : (doesRegistrationExist limit (addRegistration limit dir path id).2 other).1
      = true := by
    refine (doesRegistrationExist_iff hflat limit other).mpr ⟨name', htokens', ?_⟩
    rw [hafter]
    rfl
  have hregistered := h.exists_other hexists
  rw [getRegisteredId, (getPropertyData_flat hflat limit other).2, lookup_of_tokens htokens',
    dataOf, hafter] at hregistered
  exact hregistered

/-- **`add_registration` keeps its promise** about two paths in a directory if and only if they are
separable and the entry of the other one, if there is one, has an ID. -/
theorem addRegistration_promise_iff (hdir : RegistrationDirectory.ReachedBy limit dir) :
    (∀ id, AddsRegistration limit dir id path other) ↔
      Separable limit path other ∧ Settled dir path other := by
  have hflat := flat_of_reachedBy hdir
  constructor
  · intro h
    exact ⟨separable_of_addsRegistration hflat h, settled_of_addsRegistration hflat (h default)⟩
  · rintro ⟨hseparable, hsettled⟩ id
    exact addsRegistration_of_separable hseparable hsettled hflat id

/-- Of two paths of one name each. -/
theorem addRegistration_promise_iff_ab :
    (∀ id, AddsRegistration 64 empty id [97] [98]) ↔
      Separable 64 [97] [98] ∧ Settled empty [97] [98] :=
  addRegistration_promise_iff .init

/-- `a/b` cannot be registered, although both of its segments are within the limit, and the
call leaves an `a` behind that exists and has no ID; `/cb` is the same registration as `/ab`. -/
theorem addRegistration_promise_broken :
    let failed := addRegistration 64 empty [97, 47, 98] ⟨0, 7⟩
    let stored := addRegistration 64 empty [47, 97, 98] ⟨0, 7⟩
    (segments [97, 47, 98] = [[97], [98]] ∧ failed.1 = false ∧
      (doesRegistrationExist 64 failed.2 [97]).1 = true ∧
      (getRegisteredId 64 failed.2 [97]).1 = none ∧
      ¬ AddsRegistration 64 empty ⟨0, 7⟩ [97, 47, 98] [97]) ∧
    segments [47, 97, 98] = [[97, 98]] ∧ segments [47, 99, 98] = [[99, 98]] ∧
      (getRegisteredId 64 stored.2 [47, 99, 98]).1 = some ⟨0, 7⟩ ∧
      ¬ AddsRegistration 64 empty ⟨0, 7⟩ [47, 97, 98] [47, 99, 98] := by
  intro failed stored
  have hfails : failed.1 = false := by decide +kernel
  have hmixed : (getRegisteredId 64 stored.2 [47, 99, 98]).1 = some ⟨0, 7⟩ := by decide +kernel
  have hbefore : (getRegisteredId 64 empty [47, 99, 98]).1 = none := by decide +kernel
  have hapart : segments [47, 99, 98] ≠ segments [47, 97, 98] := by decide +kernel
  refine ⟨⟨by decide +kernel, hfails, by decide +kernel, by decide +kernel, ?_⟩,
    by decide +kernel, by decide +kernel, hmixed, ?_⟩
  · intro h
    have hsucceeds : failed.1 = true := h.succeeds
    rw [hfails] at hsucceeds
    cases hsucceeds
  · intro h
    have hframe : (getRegisteredId 64 stored.2 [47, 99, 98]).1 = _ := h.frame hapart
    rw [hmixed, hbefore] at hframe
    cases hframe

end Mutgos.DbTypes
