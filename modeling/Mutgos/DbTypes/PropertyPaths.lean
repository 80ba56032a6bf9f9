import Mutgos.DbTypes.PropertyDirectory
import Mutgos.Lib.TransitionSystem

/-!
# Properties by path

What the calls make of a directory that starts out empty.  `set_property` is to
store the data under the segments of its path, with the directories on the way
created.  It does so for one segment: no call ever creates a directory inside
another one, so a second segment is never found, and a path that begins with a
separator loses the first character of its first segment.

## Main results

* `setProperty_promise_iff` — **the promise is kept by two paths if and only if
  they are separable.**
-/

namespace Mutgos.DbTypes

open Text

/-- The segments of a path: what is between separators, if anything, outer blanks
aside. -/
def segments (path : ByteString) : List ByteString := tokens pathSeparator (trimCopy path)

/-- A path of segments. -/
def joinPath (names : List ByteString) : ByteString := [pathSeparator].intercalate names

namespace PropertyDirectory

theorem pathTokens_of_trim {path : ByteString} (h : trimCopy path = []) : pathTokens path = [] := by
  rw [pathTokens, h]
  rfl

/-- A path without segments is not followed at all. -/
theorem pathTokens_of_segments {path : ByteString} (h : segments path = []) :
    pathTokens path = [] := by
  have hall := tokens_eq_nil_iff.mp h
  apply tokens_eq_nil_iff.mpr
  intro c hc
  apply hall
  unfold removePrefix at hc
  split at hc
  · exact hc
  · split at hc
    · exact hc
    · exact List.mem_of_mem_drop hc

variable {δ : Type}

/-- The data under a name. -/
def dataOf (dir : PropertyDirectory δ) (name : ByteString) : Option δ :=
  (SortedMap.find name dir.propertyMap).bind Prod.fst

/-- No entry has a directory, and the cache is of an entry that exists. -/
structure Flat (dir : PropertyDirectory δ) : Prop where
  leaf : ∀ name entry, SortedMap.find name dir.propertyMap = some entry → entry.2 = none
  cached : ∀ name, dir.lastAccessed = some name →
    (SortedMap.find name dir.propertyMap).isSome = true

variable {dir dir' : PropertyDirectory δ} {name : ByteString} {limit : ℕ}

theorem flat_empty : (empty : PropertyDirectory δ).Flat := ⟨nofun, nofun⟩

theorem find_setEntry (dir : PropertyDirectory δ) (name name' : ByteString)
    (entry : DirectoryEntry δ) : SortedMap.find name' (dir.setEntry name entry).propertyMap
      = if name' = name then some entry else SortedMap.find name' dir.propertyMap :=
  SortedMap.find_insert ..

/-- Looking at an entry caches it. -/
theorem Flat.cache (h : dir.Flat) (hname : (SortedMap.find name dir.propertyMap).isSome = true) :
    ({ dir with lastAccessed := some name } : PropertyDirectory δ).Flat where
  leaf := h.leaf
  cached := by
    intro name' hname'
    cases hname'
    exact hname

/-- An entry gets data. -/
theorem Flat.setEntry (h : dir.Flat) (name : ByteString) (data : Option δ) :
    (dir.setEntry name (data, none)).Flat where
  leaf := by
    intro name' entry hentry
    rw [find_setEntry] at hentry
    split at hentry
    · cases hentry; rfl
    · exact h.leaf name' entry hentry
  cached := by
    intro name' hname'
    rw [find_setEntry]
    split
    · rfl
    · exact h.cached name' hname'

/-- What is left of a lookup: the directory is flat and has the data it had, and an
entry that is there is the one cached. -/
structure Looked (dir dir' : PropertyDirectory δ) : Prop where
  flat : dir'.Flat
  same : ∀ name, dir'.dataOf name = dir.dataOf name

/-- **A name is looked up**: what is there is found, and created if it is to be. -/
theorem getDirectoryEntry_flat (h : dir.Flat) (name : ByteString) (create : Bool) :
    Looked dir (dir.getDirectoryEntry name create).2 ∧
    ((dir.getDirectoryEntry name create).1.isSome = true ↔
      create = true ∨ (SortedMap.find name dir.propertyMap).isSome = true) ∧
    ∀ entry, (dir.getDirectoryEntry name create).1 = some entry → entry.2 = none ∧
      (dir.getDirectoryEntry name create).2.lastAccessed = some name ∧
      SortedMap.find name (dir.getDirectoryEntry name create).2.propertyMap = some entry := by
  unfold getDirectoryEntry
  split
  · next hcached =>
    -- the cache has it
    have hsome := h.cached name hcached
    refine ⟨⟨h, fun _ => rfl⟩, by simp [hsome], ?_⟩
    intro entry hentry
    exact ⟨h.leaf name entry hentry, hcached, hentry⟩
  · cases hfind : SortedMap.find name dir.propertyMap with
    | some entry =>
      refine ⟨⟨h.cache (by rw [hfind]; rfl), fun _ => rfl⟩, by simp, ?_⟩
      intro entry' hentry'
      cases hentry'
      exact ⟨h.leaf name entry hfind, rfl, hfind⟩
    | none =>
      cases create with
      | false =>
        refine ⟨⟨h, fun _ => rfl⟩, by simp, ?_⟩
        intro entry hentry
        cases hentry
      | true =>
        have hself : SortedMap.find name (dir.setEntry name (none, none)).propertyMap
            = some (none, none) := by rw [find_setEntry, if_pos rfl]
        refine ⟨⟨(h.setEntry name none).cache (by rw [hself]; rfl), ?_⟩, by simp, ?_⟩
        · -- an entry without data is like no entry
          intro name'
          show (SortedMap.find name' (dir.setEntry name (none, none)).propertyMap).bind _ = _
          rw [find_setEntry]
          split
          · next heq => rw [heq, dataOf, hfind]; rfl
          · rfl
        · intro entry hentry
          cases hentry
          exact ⟨rfl, rfl, hself⟩

/-- **Segments are followed** to a single one at most. -/
theorem followSegments_flat (h : dir.Flat) (create : Bool) (names : List ByteString) :
    Looked dir (followSegments create names dir).2 ∧
    (∀ found, (followSegments create names dir).1 = some found ↔
      ∃ name, names = [name] ∧ found = ⟨[], name⟩ ∧
        (create = true ∨ (SortedMap.find name dir.propertyMap).isSome = true)) ∧
    ∀ found, (followSegments create names dir).1 = some found →
      (followSegments create names dir).2.lastAccessed = some found.name ∧ ∃ data,
        SortedMap.find found.name (followSegments create names dir).2.propertyMap
          = some (data, none) := by
  cases names with
  | nil =>
    refine ⟨⟨h, fun _ => rfl⟩, by simp [followSegments], ?_⟩
    intro found hfound
    cases hfound
  | cons name rest =>
    obtain ⟨hlooked, hsome, hentry⟩ := getDirectoryEntry_flat h name create
    rw [followSegments]
    rcases hget : dir.getDirectoryEntry name create with ⟨_ | ⟨data, subdir⟩, dir'⟩
    · rw [hget] at hlooked hsome
      refine ⟨hlooked, ?_, ?_⟩
      · intro found
        constructor
        · intro hnone; cases hnone
        · rintro ⟨name', hnames, -, hthere⟩
          cases hnames
          cases hsome.mpr hthere
      · intro found hfound
        cases hfound
    · rw [hget] at hlooked hsome hentry
      obtain ⟨hleaf, hcached, hfind⟩ := hentry (data, subdir) rfl
      have hnone : subdir = none := hleaf
      subst hnone
      cases rest with
      | nil =>
        refine ⟨hlooked, ?_, ?_⟩
        · intro found
          constructor
          · intro hfound
            cases hfound
            exact ⟨name, rfl, rfl, hsome.mp rfl⟩
          · rintro ⟨name', hnames, rfl, -⟩
            cases hnames
            rfl
        · intro found hfound
          cases hfound
          exact ⟨hcached, data, hfind⟩
      | cons name' rest =>
        refine ⟨hlooked, by simp, ?_⟩
        intro found hfound
        cases hfound

/-- **A path is parsed** to the entry of its single segment, if there is one. -/
theorem parseDirectoryPath_flat (h : dir.Flat) (limit : ℕ) (path : ByteString) (create : Bool) :
    Looked dir (dir.parseDirectoryPath limit path create).2 ∧
    (∀ found, (dir.parseDirectoryPath limit path create).1 = some found ↔
      ∃ name, pathTokens path = [name] ∧ found = ⟨[], name⟩ ∧
        (create = true ∧ utf8Size name ≤ limit ∨
          create = false ∧ (SortedMap.find name dir.propertyMap).isSome = true)) ∧
    ∀ found, (dir.parseDirectoryPath limit path create).1 = some found →
      (dir.parseDirectoryPath limit path create).2.lastAccessed = some found.name ∧ ∃ data,
        SortedMap.find found.name (dir.parseDirectoryPath limit path create).2.propertyMap
          = some (data, none) := by
  unfold parseDirectoryPath
  split
  · next htrim =>
    refine ⟨⟨h, fun _ => rfl⟩, by simp [pathTokens_of_trim htrim], ?_⟩
    intro found hfound
    cases hfound
  · split
    · next hlong =>
      refine ⟨⟨h, fun _ => rfl⟩, ?_, ?_⟩
      · intro found
        constructor
        · intro hnone; cases hnone
        · rintro ⟨name, htokens, -, ⟨-, hshort⟩ | ⟨rfl, -⟩⟩
          · have hlimit : create = true ∧ limit < utf8Size name := by
              simpa [htokens] using hlong
            omega
          · simp at hlong
      · intro found hfound
        cases hfound
    · next hlong =>
      obtain ⟨hlooked, hiff, hentry⟩ := followSegments_flat h create (pathTokens path)
      refine ⟨hlooked, ?_, hentry⟩
      intro found
      rw [hiff]
      constructor
      · rintro ⟨name, htokens, rfl, hthere⟩
        refine ⟨name, htokens, rfl, ?_⟩
        cases create with
        | true => simpa [htokens] using hlong
        | false => simpa using hthere
      · rintro ⟨name, htokens, rfl, hthere⟩
        refine ⟨name, htokens, rfl, ?_⟩
        rcases hthere with ⟨hcreate, -⟩ | ⟨-, hthere⟩
        · exact .inl hcreate
        · exact .inr hthere

/-! ### The calls -/

theorem dataOf_setEntry (dir : PropertyDirectory δ) (name name' : ByteString)
    (entry : DirectoryEntry δ) : (dir.setEntry name entry).dataOf name'
      = if name' = name then entry.1 else dir.dataOf name' := by
  rw [dataOf, find_setEntry]
  split <;> rfl

theorem atEntry_of_find {entry : DirectoryEntry δ} (f : DirectoryEntry δ → DirectoryEntry δ)
    (h : SortedMap.find name dir.propertyMap = some entry) :
    dir.atEntry f ⟨[], name⟩ = dir.setEntry name (f entry) := by
  simp only [atEntry, atDirectory, h]

/-- The data at a path of a flat directory: of its single segment. -/
def lookup (dir : PropertyDirectory δ) (path : ByteString) : Option δ :=
  match pathTokens path with
  | [name] => dir.dataOf name
  | _ => none

theorem lookup_of_tokens {path : ByteString} (h : pathTokens path = [name]) :
    dir.lookup path = dir.dataOf name := by
  rw [lookup, h]

theorem lookup_of_not_tokens {path : ByteString} (h : ∀ name, pathTokens path ≠ [name]) :
    dir.lookup path = none := by
  rw [lookup]
  split
  · next name hname => exact absurd hname (h name)
  · rfl

/-- **`get_property_data`** answers the data of the single segment. -/
theorem getPropertyData_flat (h : dir.Flat) (limit : ℕ) (path : ByteString) :
    Looked dir (dir.getPropertyData limit path).2 ∧
    (dir.getPropertyData limit path).1 = dir.lookup path := by
  obtain ⟨hlooked, hiff, hentry⟩ := parseDirectoryPath_flat h limit path false
  rw [getPropertyData]
  rcases hparse : dir.parseDirectoryPath limit path false with ⟨_ | found, dir'⟩
  · rw [hparse] at hlooked hiff
    refine ⟨hlooked, ?_⟩
    show none = dir.lookup path
    by_cases htokens : ∃ name, pathTokens path = [name]
    · obtain ⟨name, htokens⟩ := htokens
      have habsent : ¬ (SortedMap.find name dir.propertyMap).isSome = true := by
        intro hthere
        cases (hiff ⟨[], name⟩).mpr ⟨name, htokens, rfl, .inr ⟨rfl, hthere⟩⟩
      rw [lookup_of_tokens htokens, dataOf, Option.not_isSome_iff_eq_none.mp habsent]
      rfl
    · rw [lookup_of_not_tokens fun name hname => htokens ⟨name, hname⟩]
  · rw [hparse] at hlooked hiff hentry
    obtain ⟨name, htokens, rfl, -⟩ := (hiff found).mp rfl
    obtain ⟨-, data, hfind⟩ := hentry _ rfl
    refine ⟨hlooked, ?_⟩
    rw [lookup_of_tokens htokens, ← hlooked.same]
    rfl

/-- **`set_property`** stores the data under the single segment, if it is within the
limit, and nothing otherwise. -/
theorem setProperty_flat (h : dir.Flat) (limit : ℕ) (path : ByteString) (data : δ) :
    (dir.setProperty limit path data).2.Flat ∧
    ((dir.setProperty limit path data).1 = true ↔
      ∃ name, pathTokens path = [name] ∧ utf8Size name ≤ limit) ∧
    ∀ name, (dir.setProperty limit path data).2.dataOf name
      = if (dir.setProperty limit path data).1 = true ∧ pathTokens path = [name] then some data
        else dir.dataOf name := by
  obtain ⟨hlooked, hiff, hentry⟩ := parseDirectoryPath_flat h limit path true
  rw [setProperty]
  rcases hparse : dir.parseDirectoryPath limit path true with ⟨_ | found, dir'⟩
  · rw [hparse] at hlooked hiff
    refine ⟨hlooked.flat, ⟨nofun, ?_⟩, ?_⟩
    · rintro ⟨name, htokens, hshort⟩
      cases (hiff ⟨[], name⟩).mpr ⟨name, htokens, rfl, .inl ⟨rfl, hshort⟩⟩
    · intro name
      rw [if_neg (by simp)]
      exact hlooked.same name
  · rw [hparse] at hlooked hiff hentry
    obtain ⟨name, htokens, rfl, hcase⟩ := (hiff found).mp rfl
    obtain ⟨-, data', hfind⟩ := hentry _ rfl
    have hshort : utf8Size name ≤ limit := by
      rcases hcase with ⟨-, hshort⟩ | ⟨hcreate, -⟩
      · exact hshort
      · cases hcreate
    show (dir'.atEntry _ _).Flat ∧ _ ∧ ∀ name, (dir'.atEntry _ _).dataOf name = _
    rw [atEntry_of_find _ hfind]
    refine ⟨hlooked.flat.setEntry name (some data), ⟨fun _ => ⟨name, htokens, hshort⟩,
      fun _ => rfl⟩, ?_⟩
    intro name'
    rw [dataOf_setEntry, htokens, hlooked.same]
    by_cases hname : name' = name
    · subst hname
      simp
    · simp [hname, Ne.symm hname]

/-- Removing an entry. -/
theorem Flat.erase (h : dir.Flat) (name : ByteString) :
    (⟨SortedMap.erase name dir.propertyMap, none⟩ : PropertyDirectory δ).Flat where
  leaf := by
    intro name' entry hentry
    rw [SortedMap.find_erase] at hentry
    split at hentry
    · cases hentry
    · exact h.leaf name' entry hentry
  cached := nofun

theorem deleteProperty_flat (h : dir.Flat) (limit : ℕ) (path : ByteString) :
    (dir.deleteProperty limit path).Flat := by
  obtain ⟨hlooked, hiff, hentry⟩ := parseDirectoryPath_flat h limit path false
  rw [deleteProperty]
  rcases hparse : dir.parseDirectoryPath limit path false with ⟨_ | found, dir'⟩
  · rw [hparse] at hlooked
    exact hlooked.flat
  · rw [hparse] at hlooked hiff hentry
    obtain ⟨name, -, rfl, -⟩ := (hiff found).mp rfl
    obtain ⟨hcached, data, hfind⟩ := hentry _ rfl
    have hempty := hlooked.flat.setEntry name none
    show (atDirectory _ [] (dir'.atEntry _ _)).Flat
    rw [atEntry_of_find _ hfind, atDirectory]
    split
    · exact hempty
    · next last hlast => exact hempty.erase last

theorem deletePropertyData_flat (h : dir.Flat) (limit : ℕ) (path : ByteString) :
    (dir.deletePropertyData limit path).Flat := by
  obtain ⟨hlooked, hiff, hentry⟩ := parseDirectoryPath_flat h limit path false
  rw [deletePropertyData]
  rcases hparse : dir.parseDirectoryPath limit path false with ⟨_ | found, dir'⟩
  · rw [hparse] at hlooked
    exact hlooked.flat
  · rw [hparse] at hlooked hiff hentry
    obtain ⟨name, -, rfl, -⟩ := (hiff found).mp rfl
    obtain ⟨-, data, hfind⟩ := hentry _ rfl
    have hleaf : (dir'.entryAt ⟨[], name⟩).bind Prod.snd = none := by
      rw [entryAt, directoryAt, Option.bind_some, hfind]
      rfl
    simp only [hleaf]
    exact deleteProperty_flat hlooked.flat limit path

/-- **No call makes a directory inside a directory.** -/
theorem Flat.call (h : dir.Flat) (limit : ℕ) (c : Call δ) : (dir.call limit c).Flat := by
  cases c with
  | setProperty path data => exact (setProperty_flat h limit path data).1
  | deleteProperty path => exact deleteProperty_flat h limit path
  | deletePropertyData path => exact deletePropertyData_flat h limit path
  | clear => exact flat_empty
  | getPropertyData path => exact (getPropertyData_flat h limit path).1.flat

/-- The directories that calls make of an empty one. -/
def ReachedBy (limit : ℕ) (dir : PropertyDirectory δ) : Prop :=
  Reachable (fun dir c => some (PropertyDirectory.call limit dir c)) (fun _ _ => True) empty dir

/-- **Every directory is flat.** -/
theorem flat_of_reachable (h : dir.ReachedBy limit) : dir.Flat := by
  refine h.invariant flat_empty ?_
  intro dir c dir' hdir _ hcall
  obtain rfl := Option.some.inj hcall
  exact hdir.call limit c

theorem isPropertyDirectory_flat (h : dir.Flat) (limit : ℕ) (path : ByteString) :
    (dir.isPropertyDirectory limit path).1 = false := by
  obtain ⟨hlooked, hiff, hentry⟩ := parseDirectoryPath_flat h limit path false
  rw [isPropertyDirectory]
  rcases hparse : dir.parseDirectoryPath limit path false with ⟨_ | found, dir'⟩
  · rfl
  · rw [hparse] at hiff hentry
    obtain ⟨name, -, rfl, -⟩ := (hiff found).mp rfl
    obtain ⟨-, data, hfind⟩ := hentry _ rfl
    simp [entryAt, directoryAt, hfind]

end PropertyDirectory

/-! ### The promise -/

open PropertyDirectory

/-- What `set_property` promises of a path, and of any other one, in a directory. -/
structure SetsProperty {δ : Type} (limit : ℕ) (dir : PropertyDirectory δ) (data : δ)
    (path other : ByteString) : Prop where
  succeeds : (dir.setProperty limit path data).1 = true
  stored : ((dir.setProperty limit path data).2.getPropertyData limit path).1 = some data
  intermediate : ∀ n, 0 < n → n < (segments path).length →
    ((dir.setProperty limit path data).2.isPropertyDirectory limit
      (joinPath ((segments path).take n))).1 = true
  frame : segments other ≠ segments path →
    ((dir.setProperty limit path data).2.getPropertyData limit other).1
      = (dir.getPropertyData limit other).1
  /-- Paths of the same segments are of the same entry. -/
  denotes : segments other = segments path →
    ((dir.setProperty limit path data).2.getPropertyData limit other).1 = some data ∧
      (dir.getPropertyData limit other).1 = (dir.getPropertyData limit path).1

/-- One segment, followed as one name within the limit, and by the other path if and
only if it has the same segment. -/
def Separable (limit : ℕ) (path other : ByteString) : Prop :=
  ∃ segment name, segments path = [segment] ∧ pathTokens path = [name] ∧ utf8Size name ≤ limit ∧
    (pathTokens other = [name] ↔ segments other = [segment])

variable {δ : Type} {limit : ℕ} {dir : PropertyDirectory δ} {path other : ByteString}

/-- Separable paths are kept apart, in every directory. -/
theorem setsProperty_of_separable (h : Separable limit path other) (hdir : dir.Flat) (data : δ) :
    SetsProperty limit dir data path other := by
  obtain ⟨segment, name, hsegments, htokens, hshort, hother⟩ := h
  obtain ⟨hflat, hsucceeds, hdata⟩ := setProperty_flat hdir limit path data
  have htrue := hsucceeds.mpr ⟨name, htokens, hshort⟩
  have hget := fun q => (getPropertyData_flat hdir limit q).2
  have hget' := fun q => (getPropertyData_flat hflat limit q).2
  have hstored : (dir.setProperty limit path data).2.dataOf name = some data := by
    rw [hdata, if_pos ⟨htrue, htokens⟩]
  constructor
  · exact htrue
  · rw [hget', lookup_of_tokens htokens, hstored]
  · intro n hpos hlt
    rw [hsegments, List.length_singleton] at hlt
    omega
  · intro hne
    have hapart : pathTokens other ≠ [name] := by
      intro hsame
      exact hne ((hother.mp hsame).trans hsegments.symm)
    rw [hget, hget', lookup, lookup]
    split
    · next name' htokens' =>
      have hname : name' ≠ name := by rintro rfl; exact hapart htokens'
      rw [hdata, if_neg (by simp [htokens, Ne.symm hname])]
    · rfl
  · intro hsame
    have htokens' := hother.mpr (hsame.trans hsegments)
    rw [hget', hget, hget, lookup_of_tokens htokens', lookup_of_tokens htokens',
      lookup_of_tokens htokens]
    exact ⟨hstored, rfl⟩

/-- A path whose directories all are there has one segment: two would need a directory,
and in a flat one none leads anywhere. -/
theorem exists_single_segment {name : ByteString} (hflat : dir.Flat)
    (htokens : pathTokens path = [name])
    (hintermediate : ∀ n, 0 < n → n < (segments path).length →
      (dir.isPropertyDirectory limit (joinPath ((segments path).take n))).1 = true) :
    ∃ segment, segments path = [segment] := by
  cases hsegments : segments path with
  | nil =>
    rw [pathTokens_of_segments hsegments] at htokens
    cases htokens
  | cons segment rest =>
    cases rest with
    | nil => exact ⟨segment, rfl⟩
    | cons segment' rest =>
      have hlong : 1 < (segments path).length := by
        rw [hsegments, List.length_cons, List.length_cons]
        omega
      have hdirectory := hintermediate 1 Nat.one_pos hlong
      rw [isPropertyDirectory_flat hflat] at hdirectory
      cases hdirectory

/-- Paths that are not are mixed up in the empty directory already. -/
theorem separable_of_setsProperty {data : δ}
    (h : SetsProperty limit PropertyDirectory.empty data path other) :
    Separable limit path other := by
  have hempty := flat_empty (δ := δ)
  obtain ⟨hflat, hsucceeds, hdata⟩ := setProperty_flat hempty limit path data
  obtain ⟨name, htokens, hshort⟩ := hsucceeds.mp h.succeeds
  have hget := fun q => (getPropertyData_flat hempty limit q).2
  have hget' := fun q => (getPropertyData_flat hflat limit q).2
  -- nothing was there before
  have hbefore : ∀ q, ((empty : PropertyDirectory δ).getPropertyData limit q).1 = none := by
    intro q
    rw [hget, lookup]
    split <;> rfl
  have hfollowed : ((empty : PropertyDirectory δ).setProperty limit path data).2.dataOf name
      = some data := by rw [hdata, if_pos ⟨h.succeeds, htokens⟩]
  obtain ⟨segment, hsegments⟩ := exists_single_segment hflat htokens h.intermediate
  refine ⟨segment, name, hsegments, htokens, hshort, ?_⟩
  constructor
  · intro hother
    by_contra hne
    have hframe := h.frame (by rw [hsegments]; exact hne)
    rw [hbefore, hget', lookup_of_tokens hother, hfollowed] at hframe
    cases hframe
  · intro hsame
    have hstored := (h.denotes (hsame.trans hsegments.symm)).1
    rw [hget', lookup] at hstored
    split at hstored
    · next name' htokens' =>
      by_cases hname : name' = name
      · rw [htokens', hname]
      · rw [hdata, if_neg (by simp [htokens, Ne.symm hname])] at hstored
        cases hstored
    · cases hstored

/-- **`set_property` keeps its promise** about two paths in every directory if and
only if they are separable. -/
theorem setProperty_promise_iff [Inhabited δ] (limit : ℕ) (path other : ByteString) :
    (∀ dir : PropertyDirectory δ, dir.ReachedBy limit → ∀ data,
      SetsProperty limit dir data path other) ↔ Separable limit path other := by
  constructor
  · intro h
    exact separable_of_setsProperty (h empty .init default)
  · intro h dir hdir data
    exact setsProperty_of_separable h (flat_of_reachable hdir) data

/-- `a/b` cannot be set, although both of its segments are within the limit, and
`/cb` is the same property as `/ab`. -/
theorem setProperty_promise_broken :
    (segments [97, 47, 98] = [[97], [98]] ∧ utf8Size [97] ≤ 64 ∧ utf8Size [98] ≤ 64 ∧
      ((empty : PropertyDirectory ℕ).setProperty 64 [97, 47, 98] 1).1 = false ∧
      ¬ SetsProperty 64 (empty : PropertyDirectory ℕ) 1 [97, 47, 98] [97, 47, 98]) ∧
    segments [47, 97, 98] = [[97, 98]] ∧ segments [47, 99, 98] = [[99, 98]] ∧
      (((empty : PropertyDirectory ℕ).setProperty 64 [47, 97, 98] 1).2.getPropertyData 64
        [47, 99, 98]).1 = some 1 ∧
      ¬ SetsProperty 64 (empty : PropertyDirectory ℕ) 1 [47, 97, 98] [47, 99, 98] := by
  have hfails : ((empty : PropertyDirectory ℕ).setProperty 64 [97, 47, 98] 1).1 = false := by
    decide +kernel
  have hmixed : (((empty : PropertyDirectory ℕ).setProperty 64 [47, 97, 98] 1).2.getPropertyData 64
      [47, 99, 98]).1 = some 1 := by decide +kernel
  have hbefore : ((empty : PropertyDirectory ℕ).getPropertyData 64 [47, 99, 98]).1 = none := by
    decide +kernel
  have hapart : segments [47, 99, 98] ≠ segments [47, 97, 98] := by decide +kernel
  refine ⟨⟨by decide +kernel, by decide +kernel, by decide +kernel, hfails, ?_⟩,
    by decide +kernel, by decide +kernel, hmixed, ?_⟩
  · intro h
    have hsucceeds := h.succeeds
    rw [hfails] at hsucceeds
    cases hsucceeds
  · intro h
    have hframe := h.frame hapart
    rw [hmixed, hbefore] at hframe
    cases hframe

end Mutgos.DbTypes
