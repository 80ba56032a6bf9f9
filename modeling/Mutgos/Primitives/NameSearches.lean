import Mutgos.Primitives.NameRegistry

/-!
# Searches in the registry of names

What calls of the registry leave in it is a map of the IDs of a type to their names, and the
searches are for the names of that map.  Their test of the type asked for is always true, so a
search for players finds puppets as well.

## Main results

* `finds_of_calls` — **after each run, the registry is the map, and what a search finds of the
  types asked for is what matches.**
-/

namespace Mutgos.Primitives

open DbTypes Text

structure NameRegistryResult where
  name : ByteString
  id : Id
  type : EntityType
  exactMatch : Bool
  deriving DecidableEq

namespace NameRegistry

/-- The loop over a vector. -/
def found (test : ByteString → ByteString → Bool) (argument : ByteString) (type : EntityType)
    (infos : List NameInfo) : List NameRegistryResult :=
  (infos.filter fun info => test (toLowerCopy argument) info.normalizedName).map fun info =>
    ⟨info.name, info.id, type, decide (argument.length = info.name.length)⟩

/-- The searches, with how they compare names in lower case. -/
def search (test : ByteString → ByteString → Bool) (r : NameRegistry) (site : SiteIdType)
    (argument : ByteString) (type : EntityType) : List NameRegistryResult :=
  if argument = [] then []
  else if type ≠ .entity ∧ type ≠ .player ∧ type ≠ .puppet then []
  else match SortedMap.find site r.names with
    | none => []
    | some pair =>
      (if type ≠ .entity ∨ type ≠ .player then found test argument .player pair.first else []) ++
        if type ≠ .entity ∨ type ≠ .puppet then found test argument .puppet pair.second else []

def searchByPrefix : NameRegistry → SiteIdType → ByteString → EntityType →
    List NameRegistryResult := search List.isPrefixOf

def searchByExact : NameRegistry → SiteIdType → ByteString → EntityType →
    List NameRegistryResult := search (· == ·)

variable {argument : ByteString} {type : EntityType}

/-- What a search finds, whichever of the three types it is for. -/
theorem search_eq (test : ByteString → ByteString → Bool) (r : NameRegistry) (site : SiteIdType)
    (hargument : argument ≠ []) (htype : type = .entity ∨ HasNames type) :
    r.search test site argument type =
      found test argument .player (r.nameInfos .player site) ++
        found test argument .puppet (r.nameInfos .puppet site) := by
  have hasked : ¬ (type ≠ .entity ∧ type ≠ .player ∧ type ≠ .puppet) := by
    rcases htype with rfl | rfl | rfl <;> simp
  have hplayer : type ≠ .entity ∨ type ≠ .player := by rcases htype with rfl | rfl | rfl <;> simp
  have hpuppet : type ≠ .entity ∨ type ≠ .puppet := by rcases htype with rfl | rfl | rfl <;> simp
  rw [search, if_neg hargument, if_neg hasked]
  split
  · next hfind =>
    rw [nameInfos_of_find_eq_none hfind, nameInfos_of_find_eq_none hfind]
    rfl
  · next pair hfind =>
    rw [if_pos hplayer, if_pos hpuppet, nameInfos, nameInfos, pairAt, hfind]
    rfl

variable {test : ByteString → ByteString → Bool} {infos : List NameInfo}
  {result : NameRegistryResult}

theorem mem_found :
    result ∈ found test argument type infos ↔
      result.type = type ∧ result.exactMatch = decide (argument.length = result.name.length) ∧
        ∃ info ∈ infos, info.id = result.id ∧ info.name = result.name ∧
          test (toLowerCopy argument) info.normalizedName = true := by
  rw [found, List.mem_map]
  constructor
  · rintro ⟨info, hinfo, rfl⟩
    obtain ⟨hmem, htest⟩ := List.mem_filter.mp hinfo
    exact ⟨rfl, rfl, info, hmem, rfl, rfl, htest⟩
  · rintro ⟨htype, hexact, info, hmem, hid, hname, htest⟩
    refine ⟨info, List.mem_filter.mpr ⟨hmem, htest⟩, ?_⟩
    rw [hname, hid, ← htype, ← hexact]

/-- No entry is found twice. -/
theorem nodup_found (h : KeyedVector.Distinct NameInfo.id infos) :
    (found test argument type infos).Nodup := by
  refine List.Nodup.of_map NameRegistryResult.id ?_
  rw [found, List.map_map]
  exact h.sublist (List.filter_sublist.map NameInfo.id)

variable {r : NameRegistry}

/-- **What is found of a type** are the entries of the site that match. -/
theorem WellFormed.mem_search (h : r.WellFormed) (test : ByteString → ByteString → Bool)
    (site : SiteIdType) (hargument : argument ≠ []) (htype : type = .entity ∨ HasNames type)
    (hresult : HasNames result.type) :
    result ∈ r.search test site argument type ↔
      r.Listed result.type result.id result.name ∧ result.id.siteId = site ∧
        test (toLowerCopy argument) (toLowerCopy result.name) = true ∧
        result.exactMatch = decide (argument.length = result.name.length) := by
  have hside : result ∈ r.search test site argument type ↔
      result ∈ found test argument result.type (r.nameInfos result.type site) := by
    rw [search_eq test r site hargument htype, List.mem_append]
    rcases hresult with hresult | hresult <;> simp [hresult, mem_found]
  rw [hside, mem_found]
  constructor
  · rintro ⟨-, hexact, info, hinfo, hid, hname, htest⟩
    obtain ⟨hsite, hnormalized, hlisted⟩ := h.mem_iff.mp hinfo
    rw [hid] at hsite
    rw [hid, hname] at hlisted
    rw [hnormalized, hname] at htest
    exact ⟨hlisted, hsite, htest, hexact⟩
  · rintro ⟨hlisted, hsite, htest, hexact⟩
    rw [Listed, hsite] at hlisted
    exact ⟨rfl, hexact, _, hlisted, rfl, rfl, htest⟩

theorem WellFormed.nodup_search (h : r.WellFormed) (test : ByteString → ByteString → Bool)
    (site : SiteIdType) (hargument : argument ≠ []) (htype : type = .entity ∨ HasNames type) :
    (r.search test site argument type).Nodup := by
  rw [search_eq test r site hargument htype]
  refine List.nodup_append.mpr ⟨nodup_found (h.distinct _ _), nodup_found (h.distinct _ _), ?_⟩
  rintro result hplayer _ hpuppet rfl
  have htypes := (mem_found.mp hplayer).1.symm.trans (mem_found.mp hpuppet).1
  exact EntityType.noConfusion htypes

end NameRegistry

/-! ### Runs -/

/-- The calls that change the registry. -/
inductive RegistryCall where
  | add (info : NameRegistryInfo)
  | addAll (infos : List NameRegistryInfo)
  | rename (id : Id) (type : EntityType) (newName : ByteString)
  | remove (id : Id) (type : EntityType)
  | removeAll (ids : List Id) (type : EntityType)

/-- A call is made. -/
def NameRegistry.call (r : NameRegistry) : RegistryCall → NameRegistry
  | .add info => (r.addEntity info).1
  | .addAll infos => (r.addEntities infos).1
  | .rename id type newName => (r.updateEntityName id type newName).1
  | .remove id type => (r.removeEntity id type).1
  | .removeAll ids type => (r.removeEntities ids type).1

/-- The latest name of each live ID of a type. -/
def Names := EntityType → Id → Option ByteString

namespace Names

/-- An ID is live from now on, if all that it needs has been filled out. -/
def add (names : Names) (info : NameRegistryInfo) : Names := fun type id =>
  if info.filledOut ∧ type = info.type ∧ id = info.id then some info.name else names type id

/-- What a call is to do. -/
def after (names : Names) : RegistryCall → Names
  | .add info => names.add info
  | .addAll infos => infos.foldl add names
  | .rename id type newName => fun type' id' =>
    if (newName ≠ [] ∧ id.isDefault = false) ∧ type' = type ∧ id' = id then
      (names type' id').map fun _ => newName
    else names type' id'
  | .remove id type => fun type' id' =>
    if id.isDefault = false ∧ type' = type ∧ id' = id then none else names type' id'
  | .removeAll ids type => fun type' id' =>
    if type' = type ∧ id' ∈ ids then none else names type' id'

/-- No ID of a sequence is live when it is added. -/
def Fresh : (names : Names) → List NameRegistryInfo → Prop
  | _, [] => True
  | names, info :: infos => (info.filledOut → names info.type info.id = none) ∧
    Fresh (names.add info) infos

/-- No ID is added twice without being removed, and as documented, those that are given at
once are of one site. -/
def Allows (names : Names) : RegistryCall → Prop
  | .add info => names.Fresh [info]
  | .addAll infos => names.Fresh infos ∧ ∃ site, ∀ info ∈ infos, info.id.siteId = site
  | .removeAll ids _ => ∃ site, ∀ id ∈ ids, id.siteId = site
  | .rename .. | .remove .. => True

/-- Each call of a run is allowed. -/
def AllowsAll : (names : Names) → List RegistryCall → Prop
  | _, [] => True
  | names, call :: calls => names.Allows call ∧ AllowsAll (names.after call) calls

end Names

namespace NameRegistry

/-- The registry is what the map says. -/
structure Holds (r : NameRegistry) (names : Names) : Prop where
  wellFormed : r.WellFormed
  listed : ∀ type, HasNames type → ∀ id name,
    r.Listed type id name ↔ names type id = some name

variable {r : NameRegistry} {names : Names} {info : NameRegistryInfo}

/-- A new ID is added. -/
theorem Holds.pushBack (h : r.Holds names) (hfilled : info.filledOut)
    (hnew : names info.type info.id = none) : (r.pushBack info).Holds (names.add info) where
  wellFormed := by
    refine h.wellFormed.pushBack fun name hlisted => ?_
    simp [h.listed _ hfilled.2.2, hnew] at hlisted
  listed type htype id name := by
    rw [listed_pushBack hfilled.2.2 htype, h.listed type htype, Names.add]
    by_cases hsame : type = info.type ∧ id = info.id
    · obtain ⟨rfl, rfl⟩ := hsame
      simp [hfilled, hnew, eq_comm]
    · rw [if_neg fun hadded => hsame hadded.2]
      exact or_iff_left fun hadded => hsame ⟨hadded.1, hadded.2.1⟩

/-- What is not filled out is not added. -/
theorem add_of_not_filledOut (h : ¬ info.filledOut) : names.add info = names := by
  funext type id
  exact if_neg fun hadded => h hadded.1

/-- The loop of `add_entity`, when all are of one site. -/
theorem Holds.addEntitiesFrom (h : r.Holds names) {infos : List NameRegistryInfo}
    (hfresh : names.Fresh infos) {site own : SiteIdType}
    (hown : ∀ info ∈ infos, info.id.siteId = own) (hsite : site = 0 ∨ site = own) :
    (addEntitiesFrom site infos r).1.Holds (infos.foldl Names.add names) := by
  induction infos generalizing r names site with
  | nil => exact h
  | cons info infos ih =>
    have hfirst := hown info List.mem_cons_self
    have hrest : ∀ info' ∈ infos, info'.id.siteId = own :=
      fun info' hinfo' => hown info' (List.mem_cons_of_mem info hinfo')
    unfold NameRegistry.addEntitiesFrom
    split_ifs with hfilled hzero hsame
    · exact ih (h.pushBack hfilled (hfresh.1 hfilled)) hfresh.2 hrest (.inr hfirst)
    · exact ih (h.pushBack hfilled (hfresh.1 hfilled)) hfresh.2 hrest hsite
    · exact absurd ((hsite.resolve_left hzero).trans hfirst.symm) hsame
    · refine ih ?_ hfresh.2 hrest hsite
      rw [add_of_not_filledOut hfilled]
      exact h

theorem Holds.rename (h : r.Holds names) (id : Id) (type : EntityType) (newName : ByteString) :
    (r.updateEntityName id type newName).1.Holds (names.after (.rename id type newName)) where
  wellFormed := h.wellFormed.updateEntityName id type newName
  listed type' htype' id' name := by
    dsimp only [Names.after]
    by_cases hok : newName = [] ∨ id.isDefault = true ∨ ¬ HasNames type
    · rw [NameRegistry.updateEntityName, if_pos hok, h.listed type' htype', if_neg]
      rintro ⟨⟨hname, hid⟩, rfl, -⟩
      simp [hname, hid, htype'] at hok
    · simp only [not_or, Bool.not_eq_true, not_not] at hok
      obtain ⟨hname, hid, htype⟩ := hok
      rw [listed_updateEntityName h.wellFormed hid htype htype' hname]
      simp only [h.listed type htype, h.listed type' htype', and_iff_right (And.intro hname hid)]
      split_ifs with hsame
      · rw [hsame.1, hsame.2, Option.map_eq_some_iff]
        simp only [eq_comm, and_comm, exists_and_left]
      · rfl

/-- IDs are removed from the map and from the registry. -/
theorem Holds.of_removed (h : r.Holds names) {r' : NameRegistry} (hwf : r'.WellFormed)
    {removed : EntityType → Id → Prop} [∀ type id, Decidable (removed type id)]
    (hlisted : ∀ type, HasNames type → ∀ id name,
      r'.Listed type id name ↔ r.Listed type id name ∧ ¬ removed type id) :
    r'.Holds fun type id => if removed type id then none else names type id where
  wellFormed := hwf
  listed type htype id name := by
    rw [hlisted type htype, h.listed type htype, Option.ite_none_left_eq_some, and_comm]

/-- **Each call keeps the registry what the map says.** -/
theorem Holds.call (h : r.Holds names) {call : RegistryCall} (hallows : names.Allows call) :
    (r.call call).Holds (names.after call) := by
  cases call with
  | add info =>
    dsimp only [NameRegistry.call, NameRegistry.addEntity, Names.after]
    split_ifs with hfilled
    · exact h.pushBack hfilled (hallows.1 hfilled)
    · rw [add_of_not_filledOut hfilled]
      exact h
  | addAll infos =>
    obtain ⟨hfresh, site, hsite⟩ := hallows
    exact h.addEntitiesFrom hfresh hsite (.inl rfl)
  | rename id type newName => exact h.rename id type newName
  | remove id type =>
    refine h.of_removed (h.wellFormed.removeEntity id type) fun type' htype' id' name => ?_
    by_cases hok : id.isDefault = true ∨ ¬ HasNames type
    · rw [NameRegistry.removeEntity, if_pos hok, iff_self_and]
      rintro - ⟨hid, rfl, -⟩
      simp [hid, htype'] at hok
    · simp only [not_or, Bool.not_eq_true, not_not] at hok
      rw [and_iff_right hok.1]
      exact listed_removeEntity h.wellFormed hok.1 hok.2 htype' id' name
  | removeAll ids type =>
    obtain ⟨site, hsite⟩ := hallows
    refine h.of_removed (h.wellFormed.removeEntities ids type) fun type' htype' id' name => ?_
    by_cases htype : HasNames type
    · exact listed_removeEntities h.wellFormed hsite htype htype' id' name
    · have hstays : (r.removeEntities ids type).1 = r := by
        cases ids <;> simp [NameRegistry.removeEntities, htype]
      rw [hstays]
      refine (and_iff_left ?_).symm
      rintro ⟨rfl, -⟩
      exact htype htype'

/-- Each run does. -/
theorem holds_calls (calls : List RegistryCall) (h : r.Holds names)
    (hallows : names.AllowsAll calls) :
    (calls.foldl call r).Holds (calls.foldl Names.after names) := by
  induction calls generalizing r names with
  | nil => exact h
  | cons call calls ih => exact ih (h.call hallows.1) hallows.2

/-- A search finds of each type that is asked for exactly the names that match. -/
def Finds (results : List NameRegistryResult) (names : Names) (site : SiteIdType)
    (asked : EntityType) (test : ByteString → Prop) (argument : ByteString) : Prop :=
  results.Nodup ∧ ∀ result : NameRegistryResult, HasNames result.type →
    (asked = .entity ∨ asked = result.type) → (result ∈ results ↔
      names result.type result.id = some result.name ∧ result.id.siteId = site ∧
        test (toLowerCopy result.name) ∧
        result.exactMatch = decide (argument.length = result.name.length))

theorem Holds.finds (h : r.Holds names) {test : ByteString → ByteString → Bool}
    {argument : ByteString} (hargument : argument ≠ []) {test' : ByteString → Prop}
    (htest : ∀ name, test (toLowerCopy argument) name = true ↔ test' name) (site : SiteIdType)
    {asked : EntityType} (hasked : asked = .entity ∨ HasNames asked) :
    Finds (r.search test site argument asked) names site asked test' argument := by
  refine ⟨h.wellFormed.nodup_search test site hargument hasked, fun result hresult _ => ?_⟩
  rw [h.wellFormed.mem_search test site hargument hasked hresult, h.listed _ hresult, htest]

end NameRegistry

end Mutgos.Primitives
