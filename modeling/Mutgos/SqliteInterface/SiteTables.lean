import Mathlib.Algebra.Group.Nat.Defs
import Mathlib.Data.List.Count
import Mutgos.DbTypes.Id
import Mutgos.Text.ByteString

/-!
# The tables of the SQLite backend

What `SqliteBackend` keeps of sites and Entity IDs, and the operations that make and
delete them.  A table is the list of its rows.  A `SELECT` whose first row only is used
may give any row that matches, so an operation is told which one it got; an `INSERT`
fails where its primary key is taken.  The operations hold the backend's mutex from
beginning to end, but for `new_entity`, which lets go of it while it makes the Entity.
-/

namespace Mutgos.SqliteInterface

open DbTypes Text

/-! ### Tables -/

/-- A row of `sites`. -/
structure SiteRow where
  siteId : SiteIdType
  deleted : Bool
  siteName : ByteString
  siteDescription : ByteString
  deriving DecidableEq, Repr

/-- The tables that the operations on sites and Entity IDs use. -/
structure Tables where
  /-- `entities`, by its primary key. -/
  entities : List Id
  programRegistrations : List (Id × ByteString)
  sites : List SiteRow
  idReuse : List Id
  nextId : List (SiteIdType × EntityIdType)
  nextSiteId : List SiteIdType
  deriving DecidableEq, Repr

namespace Tables

/-- `SELECT next_entity_id FROM next_id WHERE site_id = $SITEID` -/
def nextEntityId (t : Tables) (site : SiteIdType) : Option EntityIdType :=
  (t.nextId.find? fun row => row.1 = site).map Prod.snd

/-- `UPDATE next_id SET next_entity_id = $NEXTID WHERE site_id = $SITEID` -/
def updateNextEntityId (t : Tables) (site : SiteIdType) (next : EntityIdType) : Tables :=
  { t with nextId := t.nextId.map fun row => if row.1 = site then (site, next) else row }

/-- `INSERT INTO next_id(site_id, next_entity_id) VALUES ($SITEID, 1)` -/
def insertFirstSiteEntityId (t : Tables) (site : SiteIdType) : Option Tables :=
  if t.nextId.any fun row => row.1 = site then none
  else some { t with nextId := (site, 1) :: t.nextId }

/-- `UPDATE sites SET deleted = … WHERE site_id = $SITEID` -/
def markSite (t : Tables) (site : SiteIdType) (deleted : Bool) : Tables :=
  { t with sites := t.sites.map fun row =>
      if row.siteId = site then { row with deleted := deleted } else row }

/-- `INSERT INTO sites(site_id, site_name, site_description, deleted) VALUES (…, 0)` -/
def insertNewSite (t : Tables) (site : SiteIdType) (name description : ByteString) :
    Option Tables :=
  if t.sites.any fun row => row.siteId = site && !row.deleted then none
  else some { t with sites := ⟨site, false, name, description⟩ :: t.sites }

/-- `delete_site_entity_data`.  Nothing is ever inserted into `display_names`, the other
table it empties. -/
def deleteSiteEntityData (t : Tables) (site : SiteIdType) : Tables :=
  { t with entities := t.entities.filter (·.siteId ≠ site) }

def deleteProgramReg (t : Tables) (id : Id) : Tables :=
  { t with programRegistrations := t.programRegistrations.filter (·.1 ≠ id) }

/-- `insert_program_reg`: the key of a registration is its site and its name. -/
def insertProgramReg (t : Tables) (id : Id) (name : ByteString) : Tables :=
  if t.programRegistrations.any fun row =>
      row.1.siteId = id.siteId && toLowerCopy row.2 = toLowerCopy name then t
  else { t with programRegistrations := (id, name) :: t.programRegistrations }

end Tables

/-! ### The operations -/

/-- The tables, and the IDs that calls of `new_entity` have found and not yet inserted. -/
structure Backend where
  /-- The database. -/
  tables : Tables
  /-- The IDs of Entities that are being made. -/
  inFlight : List Id
  deriving DecidableEq, Repr

namespace Backend

/-- A database whose tables have just been created. -/
def empty : Backend := ⟨⟨[], [], [], [], [], []⟩, []⟩

/-- The name a site starts with: `Untitled Site `, then its ID. -/
def defaultSiteName (site : SiteIdType) : ByteString :=
  [85, 110, 116, 105, 116, 108, 101, 100, 32, 83, 105, 116, 101, 32] ++
    (Nat.toDigits 10 site).map fun c => c.toNat.toUInt8

/-- `new_site_in_db`, where no site is marked as deleted: the tables afterwards, and the
ID of the site, if it could be made. -/
def newSiteId (t : Tables) : Tables × Option SiteIdType :=
  let site := t.nextSiteId.headD 1
  let t :=
    if t.nextSiteId.isEmpty then { t with nextSiteId := [2] }
    else { t with nextSiteId := t.nextSiteId.map fun _ => (site + 1) % 2 ^ 32 }
  match t.insertNewSite site (defaultSiteName site) [] with
  | none => (t.deleteSiteEntityData site, none)
  | some t =>
    let t := t.deleteSiteEntityData site
    match t.insertFirstSiteEntityId site with
    | none => (t, none)
    | some t => (t, some site)

/-- `new_site_in_db`.  `recycled` is the row that the query for deleted sites gave. -/
def newSiteInDb (t : Tables) : (recycled : Option SiteIdType) → Tables × Option SiteIdType
  | some site => (t.markSite site false, some site)
  | none => newSiteId t

def deleteSiteInDb (t : Tables) (site : SiteIdType) : Tables :=
  let t := (t.deleteSiteEntityData site).markSite site true
  { t with
    idReuse := t.idReuse.filter (·.siteId ≠ site)
    nextId := t.nextId.filter (·.1 ≠ site) }

/-- `new_entity`, up to where it lets go of the mutex: the tables afterwards, and the ID,
if one was found.  `reused` is the row that the query for reusable IDs gave. -/
def newEntityId (t : Tables) (site : SiteIdType) :
    (reused : Option EntityIdType) → Tables × Option Id
  | some entity =>
    let t := { t with idReuse := t.idReuse.erase ⟨site, entity⟩ }
    if entity = 0 then (t, none) else (t, some ⟨site, entity⟩)
  | none =>
    match t.nextEntityId site with
    | none => (t, none)
    | some 0 => (t, none)
    | some next => (t.updateNextEntityId site ((next + 1) % 2 ^ 64), some ⟨site, next⟩)

/-- `new_entity`, from where it has made the Entity. -/
def newEntityRow (t : Tables) (id : Id) : Tables :=
  if id ∈ t.entities then t else { t with entities := id :: t.entities }

/-- `delete_entity_db`.  `memOwned` is what `is_mem_owned` answers. -/
def deleteEntityDb (t : Tables) (id : Id) (memOwned : Bool) : Tables :=
  if memOwned || id.isDefault then t
  else if id ∈ t.entities then
    let t := { t with entities := t.entities.erase id }
    let t := if id ∈ t.idReuse then t else { t with idReuse := id :: t.idReuse }
    t.deleteProgramReg id
  else t

/-- What `save_entity_db` does for a Program. -/
def saveProgramReg (t : Tables) (id : Id) (regName : ByteString) : Tables :=
  let t := t.deleteProgramReg id
  if regName = [] then t else t.insertProgramReg id regName

/-! ### The system -/

end Backend

/-- One critical section of the backend. -/
inductive BackendStep where
  | newSiteInDb (recycled : Option SiteIdType)
  | deleteSiteInDb (site : SiteIdType)
  /-- The first half of `new_entity`. -/
  | newEntityId (site : SiteIdType) (reused : Option EntityIdType)
  /-- The second half of `new_entity`, or that the Entity could not be made. -/
  | newEntityRow (id : Id) (made : Bool)
  | deleteEntityDb (id : Id) (memOwned : Bool)
  /-- `save_entity_db`, for a Program. -/
  | saveProgramReg (id : Id) (regName : ByteString)
  deriving DecidableEq, Repr

namespace Backend

/-- The IDs in use: those of the Entities that exist or are being made. -/
def inUse (b : Backend) : List Id := b.tables.entities ++ b.inFlight

/-- The row a query gives is one that matches, and there is none only if none does. -/
def QueryGives {α β : Type} [DecidableEq β] (rows : List α) (key : α → Option β) :
    Option β → Prop
  | some b => some b ∈ rows.map key
  | none => ∀ row ∈ rows, key row = none

instance {α β : Type} [DecidableEq β] (rows : List α) (key : α → Option β) :
    ∀ answer, Decidable (QueryGives rows key answer)
  | some b => inferInstanceAs (Decidable (some b ∈ rows.map key))
  | none => inferInstanceAs (Decidable (∀ row ∈ rows, key row = none))

/-- `SELECT site_id FROM sites WHERE deleted = 1` -/
def deletedSite (row : SiteRow) : Option SiteIdType := if row.deleted then some row.siteId else none

/-- `SELECT deleted_entity_id FROM id_reuse WHERE site_id = $SITEID` -/
def reusableId (site : SiteIdType) (id : Id) : Option EntityIdType :=
  if id.siteId = site then some id.entityId else none

/-- One critical section. -/
def step (b : Backend) : BackendStep → Option Backend
  | .newSiteInDb recycled =>
    if QueryGives b.tables.sites deletedSite recycled then
      some { b with tables := (newSiteInDb b.tables recycled).1 }
    else none
  | .deleteSiteInDb site => some { b with tables := deleteSiteInDb b.tables site }
  | .newEntityId site reused =>
    if QueryGives b.tables.idReuse (reusableId site) reused then
      let found := newEntityId b.tables site reused
      some ⟨found.1, found.2.toList ++ b.inFlight⟩
    else none
  | .newEntityRow id made =>
    if id ∈ b.inFlight then
      some ⟨if made then newEntityRow b.tables id else b.tables, b.inFlight.erase id⟩
    else none
  | .deleteEntityDb id memOwned => some { b with tables := deleteEntityDb b.tables id memOwned }
  -- an Entity in memory was read from the database, and no site's row ever goes away
  | .saveProgramReg id regName =>
    if b.tables.sites.any fun row => row.siteId = id.siteId then
      some { b with tables := saveProgramReg b.tables id regName }
    else none

end Backend

end Mutgos.SqliteInterface
