import Mutgos.DbTypes.EntityType
import Mutgos.DbTypes.Id
import Mutgos.Lib.KeyedVector
import Mutgos.Lib.SortedMap
import Mutgos.Text.ByteString

/-!
# The registry of names

`primitives::NameRegistry`: for each site a vector of players and one of puppets, with their
names.  It adds what it is given without looking for duplicates, and what it removes or
renames is the first entry of an ID.

An `IdSet` is the list of its elements in order.

## Main results

* `listed_addEntity`, `listed_addEntities`, `listed_updateEntityName`, `listed_removeEntity`,
  `listed_removeEntities` — which entries there are afterwards.
-/

namespace Mutgos.Primitives

open DbTypes Text KeyedVector List

structure NameInfo where
  id : Id
  name : ByteString
  /-- `normalized_name`, in lower case. -/
  normalizedName : ByteString
  deriving DecidableEq

structure PlayersPuppetsPair where
  /-- Players. -/
  first : List NameInfo
  /-- Puppets. -/
  second : List NameInfo

structure NameRegistryInfo where
  name : ByteString
  id : Id
  type : EntityType

structure NameRegistry where
  /-- `names`, by site. -/
  names : List (SiteIdType × PlayersPuppetsPair)

namespace PlayersPuppetsPair

/-- The vector for a type. -/
def nameInfos (pair : PlayersPuppetsPair) (type : EntityType) : List NameInfo :=
  if type = .player then pair.first else pair.second

/-- The vector for a type changes. -/
def modify (pair : PlayersPuppetsPair) (type : EntityType) (f : List NameInfo → List NameInfo) :
    PlayersPuppetsPair :=
  if type = .player then { pair with first := f pair.first }
  else { pair with second := f pair.second }

theorem nameInfos_modify (pair : PlayersPuppetsPair) (type type' : EntityType)
    (f : List NameInfo → List NameInfo) : (pair.modify type f).nameInfos type' =
      if type = .player ↔ type' = .player then f (pair.nameInfos type')
      else pair.nameInfos type' := by
  by_cases h : type = .player <;> by_cases h' : type' = .player <;> simp [modify, nameInfos, h, h']

end PlayersPuppetsPair

/-- The types that have names here. -/
def HasNames (type : EntityType) : Prop := type = .player ∨ type = .puppet

instance (type : EntityType) : Decidable (HasNames type) :=
  inferInstanceAs (Decidable (type = .player ∨ type = .puppet))

/-- Of two types, each has a vector of its own. -/
theorem HasNames.player_iff {type type' : EntityType} (h : HasNames type) (h' : HasNames type') :
    (type = .player ↔ type' = .player) ↔ type = type' := by
  rcases h with rfl | rfl <;> rcases h' with rfl | rfl <;> simp

/-- All that an entry needs has been filled out. -/
def NameRegistryInfo.filledOut (info : NameRegistryInfo) : Prop :=
  info.name ≠ [] ∧ info.id.isDefault = false ∧ HasNames info.type

instance (info : NameRegistryInfo) : Decidable info.filledOut :=
  inferInstanceAs (Decidable (_ ∧ _ ∧ _))

/-- The entry that is made of an information. -/
def NameRegistryInfo.nameInfo (info : NameRegistryInfo) : NameInfo :=
  ⟨info.id, info.name, toLowerCopy info.name⟩

namespace NameRegistry

/-- The names of a site, which are none at first. -/
def pairAt (r : NameRegistry) (site : SiteIdType) : PlayersPuppetsPair :=
  (SortedMap.find site r.names).getD ⟨[], []⟩

/-- The vector for a site and a type. -/
def nameInfos (r : NameRegistry) (type : EntityType) (site : SiteIdType) : List NameInfo :=
  (r.pairAt site).nameInfos type

/-- A vector changes. -/
def modify (r : NameRegistry) (type : EntityType) (site : SiteIdType)
    (f : List NameInfo → List NameInfo) : NameRegistry :=
  ⟨SortedMap.insert site ((r.pairAt site).modify type f) r.names⟩

/-- An entry goes to the end of its vector. -/
def pushBack (r : NameRegistry) (info : NameRegistryInfo) : NameRegistry :=
  r.modify info.type info.id.siteId (· ++ [info.nameInfo])

/-- `add_entity`, for one. -/
def addEntity (r : NameRegistry) (info : NameRegistryInfo) : NameRegistry × Bool :=
  if info.filledOut then (r.pushBack info, true) else (r, false)

/-- The loop of `add_entity`, for many: they have to be of one site, which is 0 until there
has been one. -/
def addEntitiesFrom : (site : SiteIdType) → List NameRegistryInfo → NameRegistry →
    NameRegistry × Bool
  | _, [], r => (r, true)
  | site, info :: infos, r =>
    if info.filledOut then
      if site = 0 then addEntitiesFrom info.id.siteId infos (r.pushBack info)
      else if site = info.id.siteId then addEntitiesFrom site infos (r.pushBack info)
      else ((addEntitiesFrom site infos r).1, false)
    else ((addEntitiesFrom site infos r).1, false)

/-- `add_entity`, for many. -/
def addEntities (r : NameRegistry) (infos : List NameRegistryInfo) : NameRegistry × Bool :=
  addEntitiesFrom 0 infos r

def updateEntityName (r : NameRegistry) (id : Id) (type : EntityType) (newName : ByteString) :
    NameRegistry × Bool :=
  if newName = [] ∨ id.isDefault = true ∨ ¬ HasNames type then (r, false)
  else match SortedMap.find id.siteId r.names with
    | none => (r, false)
    | some pair =>
      (r.modify type id.siteId (modifyFirst NameInfo.id id fun info =>
        { info with name := newName, normalizedName := toLowerCopy newName }),
        (pair.nameInfos type).any fun info => info.id = id)

/-- `remove_entity`, for many: those of the site of the first one. -/
def removeEntities (r : NameRegistry) (ids : List Id) (type : EntityType) : NameRegistry × Bool :=
  match ids with
  | [] => (r, true)
  | first :: _ =>
    if ¬ HasNames type then (r, false)
    else match SortedMap.find first.siteId r.names with
      | none => (r, false)
      | some _ =>
        (r.modify type first.siteId fun infos =>
          removeFromBack (fun info => decide (info.id ∈ ids)) infos.length ids.length
            infos, true)

/-- `remove_entity`, for one. -/
def removeEntity (r : NameRegistry) (id : Id) (type : EntityType) : NameRegistry × Bool :=
  if id.isDefault = true ∨ ¬ HasNames type then (r, false)
  else match SortedMap.find id.siteId r.names with
    | none => (r, false)
    | some pair =>
      (r.modify type id.siteId (removeFirst NameInfo.id id),
        (pair.nameInfos type).any fun info => info.id = id)

/-! ### Its vectors -/

theorem nameInfos_modify (r : NameRegistry) (type type' : EntityType) (site site' : SiteIdType)
    (f : List NameInfo → List NameInfo) : (r.modify type site f).nameInfos type' site' =
      if site' = site ∧ (type = .player ↔ type' = .player) then f (r.nameInfos type' site')
      else r.nameInfos type' site' := by
  rw [nameInfos, pairAt, modify, SortedMap.find_insert]
  by_cases hsite : site' = site
  · rw [if_pos hsite, Option.getD_some, PlayersPuppetsPair.nameInfos_modify, hsite]
    simp only [true_and]
    rfl
  · rw [if_neg hsite, if_neg fun h => hsite h.1]
    rfl

variable {site : SiteIdType} {type type' : EntityType} {info : NameRegistryInfo}
  {infos : List NameRegistryInfo}

/-- There are no names of a site that is not there. -/
theorem nameInfos_of_find_eq_none {r : NameRegistry} (h : SortedMap.find site r.names = none)
    (type : EntityType) : r.nameInfos type site = [] := by
  rw [nameInfos, pairAt, h, Option.getD_none, PlayersPuppetsPair.nameInfos]
  exact ite_self _

/-- No ID is in a vector twice, and each is under its own site. -/
structure WellFormed (r : NameRegistry) : Prop where
  distinct : ∀ type site, KeyedVector.Distinct NameInfo.id (r.nameInfos type site)
  own_site : ∀ type site, ∀ info ∈ r.nameInfos type site, info.id.siteId = site
  normalized : ∀ type site, ∀ info ∈ r.nameInfos type site,
    info.normalizedName = toLowerCopy info.name

/-- There is an entry. -/
def Listed (r : NameRegistry) (type : EntityType) (id : Id) (name : ByteString) : Prop :=
  ⟨id, name, toLowerCopy name⟩ ∈ r.nameInfos type id.siteId

instance (r : NameRegistry) (type : EntityType) (id : Id) (name : ByteString) :
    Decidable (r.Listed type id name) :=
  inferInstanceAs (Decidable (_ ∈ r.nameInfos type id.siteId))

variable {r : NameRegistry}

theorem wellFormed_empty : (⟨[]⟩ : NameRegistry).WellFormed where
  distinct type site := by
    rw [nameInfos_of_find_eq_none rfl]
    exact nodup_nil
  own_site type site info hinfo := by
    rw [nameInfos_of_find_eq_none rfl] at hinfo
    cases hinfo
  normalized type site info hinfo := by
    rw [nameInfos_of_find_eq_none rfl] at hinfo
    cases hinfo

theorem not_listed_empty (type : EntityType) (id : Id) (name : ByteString) :
    ¬ (⟨[]⟩ : NameRegistry).Listed type id name := by
  rw [Listed, nameInfos_of_find_eq_none rfl]
  exact not_mem_nil

/-- What is in a vector is an entry. -/
theorem WellFormed.mem_iff (h : r.WellFormed) {info : NameInfo} : info ∈ r.nameInfos type site ↔
      info.id.siteId = site ∧ info.normalizedName = toLowerCopy info.name ∧
        r.Listed type info.id info.name := by
  constructor
  · intro hinfo
    have hsite := h.own_site type site info hinfo
    have hnormalized := h.normalized type site info hinfo
    refine ⟨hsite, hnormalized, ?_⟩
    rw [Listed, hsite, ← hnormalized]
    exact hinfo
  · rintro ⟨rfl, hnormalized, hlisted⟩
    rw [Listed, ← hnormalized] at hlisted
    exact hlisted

/-- All types but players share a vector. -/
theorem nameInfos_congr (h : type = .player ↔ type' = .player) (r : NameRegistry)
    (site : SiteIdType) : r.nameInfos type' site = r.nameInfos type site := by
  unfold nameInfos PlayersPuppetsPair.nameInfos
  simp only [h]

/-- A vector is changed and keeps what all vectors have. -/
theorem WellFormed.modify (h : r.WellFormed) {f : List NameInfo → List NameInfo}
    (hdistinct : KeyedVector.Distinct NameInfo.id (f (r.nameInfos type site)))
    (hinfo : ∀ info ∈ f (r.nameInfos type site),
      info.id.siteId = site ∧ info.normalizedName = toLowerCopy info.name) :
    (r.modify type site f).WellFormed := by
  have hcases : ∀ type' site', (r.modify type site f).nameInfos type' site' =
      r.nameInfos type' site' ∨
        site' = site ∧ (r.modify type site f).nameInfos type' site' = f (r.nameInfos type site) := by
    intro type' site'
    rw [nameInfos_modify]
    split
    · next hsame =>
      right
      refine ⟨hsame.1, ?_⟩
      rw [hsame.1, nameInfos_congr hsame.2]
    · exact .inl rfl
  constructor
  · intro type' site'
    obtain heq | ⟨-, heq⟩ := hcases type' site'
    · rw [heq]
      exact h.distinct type' site'
    · rw [heq]
      exact hdistinct
  · intro type' site' info hmem
    obtain heq | ⟨rfl, heq⟩ := hcases type' site'
    · exact h.own_site type' site' info (heq ▸ hmem)
    · exact (hinfo info (heq ▸ hmem)).1
  · intro type' site' info hmem
    obtain heq | ⟨-, heq⟩ := hcases type' site'
    · exact h.normalized type' site' info (heq ▸ hmem)
    · exact (hinfo info (heq ▸ hmem)).2

/-- The entries after a vector has been changed. -/
theorem listed_modify (htype : HasNames type) (htype' : HasNames type') (site : SiteIdType)
    (f : List NameInfo → List NameInfo) (id : Id) (name : ByteString) :
    (r.modify type site f).Listed type' id name ↔
      if type' = type ∧ id.siteId = site then
        ⟨id, name, toLowerCopy name⟩ ∈ f (r.nameInfos type site)
      else r.Listed type' id name := by
  have hiff := htype.player_iff htype'
  rw [Listed, nameInfos_modify]
  by_cases heq : type' = type
  · by_cases hsite : id.siteId = site
    · rw [if_pos ⟨hsite, hiff.mpr heq.symm⟩, if_pos ⟨heq, hsite⟩, heq, hsite]
    · rw [if_neg fun hsame => hsite hsame.1, if_neg fun hsame => hsite hsame.2]
      rfl
  · rw [if_neg fun hsame => heq (hiff.mp hsame.2).symm, if_neg fun hsame => heq hsame.1]
    rfl

/-! ### Adding -/

/-- A new ID gets an entry. -/
theorem WellFormed.pushBack (h : r.WellFormed) (hnew : ∀ name, ¬ r.Listed info.type info.id name) :
    (r.pushBack info).WellFormed := by
  refine h.modify ?_ ?_
  · refine distinct_append (h.distinct info.type info.id.siteId)
      (nodup_singleton _) ?_
    intro old hold new hinfo heq
    obtain rfl := mem_singleton.mp hinfo
    have hlisted := (h.mem_iff.mp hold).2.2
    rw [heq] at hlisted
    exact hnew old.name hlisted
  · intro old hold
    rcases mem_append.mp hold with hold | hold
    · exact ⟨h.own_site _ _ old hold, h.normalized _ _ old hold⟩
    · obtain rfl := mem_singleton.mp hold
      exact ⟨rfl, rfl⟩

theorem listed_pushBack (hinfo : HasNames info.type) (htype : HasNames type) (id : Id)
    (name : ByteString) :
    (r.pushBack info).Listed type id name ↔
      r.Listed type id name ∨ type = info.type ∧ id = info.id ∧ name = info.name := by
  rw [pushBack, listed_modify hinfo htype]
  split
  · next hsame =>
    obtain ⟨rfl, hsite⟩ := hsame
    rw [mem_append, mem_singleton, Listed, hsite]
    refine or_congr_right ?_
    rw [NameRegistryInfo.nameInfo, NameInfo.mk.injEq]
    constructor
    · rintro ⟨hid, hname, -⟩
      exact ⟨rfl, hid, hname⟩
    · rintro ⟨-, rfl, rfl⟩
      exact ⟨rfl, rfl, rfl⟩
  · next hother =>
    refine (or_iff_left ?_).symm
    rintro ⟨rfl, rfl, -⟩
    exact hother ⟨rfl, rfl⟩

theorem WellFormed.addEntity (h : r.WellFormed) (hnew : ∀ name, ¬ r.Listed info.type info.id name) :
    (r.addEntity info).1.WellFormed := by
  unfold NameRegistry.addEntity
  split
  · exact h.pushBack hnew
  · exact h

theorem listed_addEntity (htype : HasNames type) (id : Id) (name : ByteString) :
    (r.addEntity info).1.Listed type id name ↔
      r.Listed type id name ∨
        info.filledOut ∧ type = info.type ∧ id = info.id ∧ name = info.name := by
  unfold addEntity
  split
  · next hfilled =>
    rw [listed_pushBack hfilled.2.2 htype]
    exact or_congr_right (and_iff_right hfilled).symm
  · next hfilled => exact (or_iff_left fun hnew => hfilled hnew.1).symm

/-- Informations about as many Entities, none of which is known. -/
structure New (r : NameRegistry) (infos : List NameRegistryInfo) : Prop where
  types : ∀ info ∈ infos, HasNames info.type
  distinct : infos.Pairwise fun info info' => ¬ (info.type = info'.type ∧ info.id = info'.id)
  not_listed : ∀ info ∈ infos, ∀ name, ¬ r.Listed info.type info.id name

/-- What is left is new, where the first one is left out. -/
theorem New.tail (h : r.New (info :: infos)) : r.New infos where
  types info' hinfo' := h.types info' (mem_cons_of_mem info hinfo')
  distinct := (pairwise_cons.mp h.distinct).2
  not_listed info' hinfo' := h.not_listed info' (mem_cons_of_mem info hinfo')

/-- What is left is new still when the first one has been added. -/
theorem New.pushBack (h : r.New (info :: infos)) : (r.pushBack info).New infos := by
  refine ⟨h.tail.types, h.tail.distinct, ?_⟩
  intro info' hinfo' name hlisted
  have hfirst := h.types info mem_cons_self
  have htype := h.tail.types info' hinfo'
  rcases (listed_pushBack hfirst htype info'.id name).mp hlisted with hlisted | ⟨heq, hid, -⟩
  · exact h.tail.not_listed info' hinfo' name hlisted
  · exact (pairwise_cons.mp h.distinct).1 info' hinfo' ⟨heq.symm, hid.symm⟩

/-- Many are added, which are all of one site. -/
theorem WellFormed.addEntitiesFrom (h : r.WellFormed) {infos : List NameRegistryInfo}
    (hnew : r.New infos) (site : SiteIdType) :
    (addEntitiesFrom site infos r).1.WellFormed := by
  induction infos generalizing site r with
  | nil => exact h
  | cons info infos ih =>
    have hpush := h.pushBack (hnew.not_listed info mem_cons_self)
    unfold NameRegistry.addEntitiesFrom
    split_ifs
    · exact ih hpush hnew.pushBack info.id.siteId
    · exact ih hpush hnew.pushBack site
    · exact ih h hnew.tail site
    · exact ih h hnew.tail site

theorem listed_addEntitiesFrom {own : SiteIdType} (hown : own ≠ 0)
    (hinfos : ∀ info ∈ infos, info.id.siteId = own) (hsite : site = 0 ∨ site = own)
    (htype : HasNames type) (id : Id) (name : ByteString) :
    (addEntitiesFrom site infos r).1.Listed type id name ↔
      r.Listed type id name ∨
        ∃ info ∈ infos, info.filledOut ∧ type = info.type ∧ id = info.id ∧ name = info.name := by
  induction infos generalizing site r with
  | nil => simp [addEntitiesFrom]
  | cons info infos ih =>
    have hfirst := hinfos info mem_cons_self
    have hrest : ∀ info' ∈ infos, info'.id.siteId = own :=
      fun info' hinfo' => hinfos info' (mem_cons_of_mem info hinfo')
    simp only [mem_cons, exists_eq_or_imp, ← or_assoc]
    by_cases hfilled : info.filledOut
    · -- whether it is the first one or not, it goes to the site of all
      have hadd : addEntitiesFrom site (info :: infos) r =
          addEntitiesFrom own infos (r.pushBack info) := by
        rw [addEntitiesFrom, if_pos hfilled]
        rcases hsite with rfl | rfl
        · rw [if_pos rfl, hfirst]
        · rw [if_neg hown, if_pos hfirst.symm]
      rw [hadd, ih hrest (.inr rfl), listed_pushBack hfilled.2.2 htype, and_iff_right hfilled]
    · rw [addEntitiesFrom, if_neg hfilled, ih hrest hsite]
      refine or_congr_left (or_iff_left ?_).symm
      exact fun hnew => hfilled hnew.1

theorem WellFormed.addEntities (h : r.WellFormed) (hnew : r.New infos) :
    (r.addEntities infos).1.WellFormed := h.addEntitiesFrom hnew 0

theorem listed_addEntities {own : SiteIdType} (hown : own ≠ 0)
    (hinfos : ∀ info ∈ infos, info.id.siteId = own) (htype : HasNames type) (id : Id)
    (name : ByteString) : (r.addEntities infos).1.Listed type id name ↔
      r.Listed type id name ∨
        ∃ info ∈ infos, info.filledOut ∧ type = info.type ∧ id = info.id ∧ name = info.name :=
  listed_addEntitiesFrom hown hinfos (.inl rfl) htype id name

/-! ### Renaming and removing -/

/-- There is no entry of a site that has no names. -/
theorem not_listed_of_find_eq_none {id : Id} (h : SortedMap.find id.siteId r.names = none)
    (type : EntityType) (name : ByteString) : ¬ r.Listed type id name := by
  rw [Listed, nameInfos_of_find_eq_none h]
  exact not_mem_nil

section

variable (h : r.WellFormed)
include h

theorem WellFormed.updateEntityName (id : Id) (type : EntityType) (newName : ByteString) :
    (r.updateEntityName id type newName).1.WellFormed := by
  unfold NameRegistry.updateEntityName
  split
  · exact h
  · split
    · exact h
    · refine h.modify ?_ ?_
      · refine (h.distinct type id.siteId).modifyFirst ?_ id
        exact fun _ => rfl
      intro info hinfo
      rcases (mem_modifyFirst (h.distinct type id.siteId) id).mp hinfo with
        ⟨hmem, -⟩ | ⟨old, hold, -, rfl⟩
      · exact ⟨h.own_site _ _ info hmem, h.normalized _ _ info hmem⟩
      · exact ⟨h.own_site _ _ old hold, rfl⟩

theorem listed_updateEntityName {id : Id} (hid : id.isDefault = false) (htype : HasNames type)
    (htype' : HasNames type') {newName : ByteString} (hname : newName ≠ []) (id' : Id)
    (name : ByteString) :
    (r.updateEntityName id type newName).1.Listed type' id' name ↔
      if type' = type ∧ id' = id then name = newName ∧ ∃ old, r.Listed type id old
      else r.Listed type' id' name := by
  have hok : ¬ (newName = [] ∨ id.isDefault = true ∨ ¬ HasNames type) := by
    rintro (hnil | hdefault | hnot)
    · exact hname hnil
    · exact absurd (hid.symm.trans hdefault) nofun
    · exact hnot htype
  unfold updateEntityName
  rw [if_neg hok]
  split
  · next hfind =>
    split
    · next hsame =>
      obtain ⟨rfl, rfl⟩ := hsame
      refine iff_of_false (not_listed_of_find_eq_none hfind _ _) ?_
      rintro ⟨-, old, hold⟩
      exact not_listed_of_find_eq_none hfind _ _ hold
    · rfl
  · dsimp only
    rw [listed_modify htype htype', mem_modifyFirst (h.distinct type id.siteId)]
    by_cases htypes : type' = type
    · by_cases hids : id' = id
      · -- the entry of the ID has the new name
        subst htypes hids
        rw [if_pos ⟨rfl, rfl⟩, if_pos ⟨rfl, rfl⟩]
        constructor
        · rintro (⟨-, hne⟩ | ⟨old, hold, hkey, heq⟩)
          · exact absurd rfl hne
          · rw [NameInfo.mk.injEq] at heq
            exact ⟨heq.2.1, old.name, hkey ▸ (h.mem_iff.mp hold).2.2⟩
        · rintro ⟨rfl, old, hold⟩
          exact .inr ⟨_, hold, rfl, rfl⟩
      · -- other entries of the vector stay
        have hother : ¬ (type' = type ∧ id' = id) := fun hsame => hids hsame.2
        rw [if_neg hother]
        split
        · next hsame =>
          rw [Listed, hsame.1, hsame.2]
          constructor
          · rintro (⟨hmem, -⟩ | ⟨old, -, hkey, heq⟩)
            · exact hmem
            · rw [NameInfo.mk.injEq] at heq
              exact absurd (heq.1.trans hkey) hids
          · exact fun hmem => .inl ⟨hmem, hids⟩
        · rfl
    · rw [if_neg fun hsame => htypes hsame.1, if_neg fun hsame => htypes hsame.1]

theorem WellFormed.removeEntity (id : Id) (type : EntityType) :
    (r.removeEntity id type).1.WellFormed := by
  unfold NameRegistry.removeEntity
  split
  · exact h
  · split
    · exact h
    · refine h.modify ((h.distinct type id.siteId).removeFirst id) ?_
      intro info hinfo
      have hmem := ((mem_removeFirst (h.distinct type id.siteId) id).mp hinfo).1
      exact ⟨h.own_site _ _ info hmem, h.normalized _ _ info hmem⟩

theorem listed_removeEntity {id : Id} (hid : id.isDefault = false) (htype : HasNames type)
    (htype' : HasNames type') (id' : Id) (name : ByteString) :
    (r.removeEntity id type).1.Listed type' id' name ↔
      r.Listed type' id' name ∧ ¬ (type' = type ∧ id' = id) := by
  have hok : ¬ (id.isDefault = true ∨ ¬ HasNames type) := by
    rintro (hdefault | hnot)
    · exact absurd (hid.symm.trans hdefault) nofun
    · exact hnot htype
  unfold removeEntity
  rw [if_neg hok]
  split
  · next hfind =>
    refine (and_iff_left_of_imp ?_).symm
    rintro hlisted ⟨rfl, rfl⟩
    exact not_listed_of_find_eq_none hfind _ _ hlisted
  · dsimp only
    rw [listed_modify htype htype', mem_removeFirst (h.distinct type id.siteId)]
    split
    · next hsame =>
      rw [Listed, hsame.1, hsame.2]
      simp
    · next hother =>
      refine (and_iff_left ?_).symm
      rintro ⟨rfl, rfl⟩
      exact hother ⟨rfl, rfl⟩

theorem WellFormed.removeEntities (ids : List Id) (type : EntityType) :
    (r.removeEntities ids type).1.WellFormed := by
  cases ids with
  | nil => exact h
  | cons first rest =>
    unfold NameRegistry.removeEntities
    dsimp only
    split
    · exact h
    · split
      · exact h
      · refine h.modify ((h.distinct type first.siteId).removeFromBack (cons_ne_nil _ _)) ?_
        intro info hinfo
        have hmem := ((mem_removeFromBack (h.distinct type first.siteId)
          (cons_ne_nil _ _)).mp hinfo).1
        exact ⟨h.own_site _ _ info hmem, h.normalized _ _ info hmem⟩

theorem listed_removeEntities {ids : List Id} {own : SiteIdType}
    (hids : ∀ id ∈ ids, id.siteId = own) (htype : HasNames type) (htype' : HasNames type')
    (id' : Id) (name : ByteString) :
    (r.removeEntities ids type).1.Listed type' id' name ↔
      r.Listed type' id' name ∧ ¬ (type' = type ∧ id' ∈ ids) := by
  cases ids with
  | nil => simp [removeEntities]
  | cons first rest =>
    have hfirst := hids first mem_cons_self
    unfold removeEntities
    dsimp only
    rw [if_neg (not_not.mpr htype)]
    split
    · next hfind =>
      refine (and_iff_left_of_imp ?_).symm
      rintro hlisted ⟨rfl, hmem⟩
      rw [hfirst, ← hids id' hmem] at hfind
      exact not_listed_of_find_eq_none hfind _ _ hlisted
    · dsimp only
      rw [listed_modify htype htype',
        mem_removeFromBack (h.distinct type first.siteId) (cons_ne_nil _ _)]
      split
      · next hsame =>
        rw [Listed, hsame.1, hsame.2]
        simp
      · next hother =>
        refine (and_iff_left ?_).symm
        rintro ⟨rfl, hmem⟩
        exact hother ⟨rfl, (hids id' hmem).trans hfirst.symm⟩

end

end NameRegistry

end Mutgos.Primitives
