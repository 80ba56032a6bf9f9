import Mutgos.DbTypes.EntityField
import Mutgos.DbTypes.Security
import Mutgos.Lib.SetJournal
import Mutgos.Text.ByteString
import Mathlib.Data.Finset.Card

/-!
# What an Entity remembers of its changes

`dbtype::Entity` as far as its listeners are told about changes: which fields are
dirty, which flags and which IDs have come and gone since the listeners were last
called.  The journal of the IDs has an entry for a field once the field has
changed, and none before.

The listeners belong to all Entities; whether there are any is a field here.  The
time is an argument of what reads the clock.
-/

namespace Mutgos.DbTypes

open Text

/-- `Entity::FlagType` -/
abbrev FlagType := ByteString

/-- `dbtype::TimeStamp` -/
abbrev TimeStamp := ℕ

/-- `dbtype::Entity`: its Security and what it remembers of its changes. -/
structure Entity where
  entitySecurity : Security
  entityUpdatedTimestamp : TimeStamp
  /-- `db_listeners` is not empty. -/
  hasDbListeners : Bool
  needCallListener : Bool
  dirtyFlag : Bool
  ignoreChanges : Bool
  dirtyFields : Finset EntityField
  diffCallbackFields : Finset EntityField
  diffFlagsChanged : SetJournal FlagType
  diffIdsChanged : EntityField → Option (SetJournal Id)

/-- The arguments of `entity_changed`. -/
structure EntityChanges where
  fields : Finset EntityField
  flags : SetJournal FlagType
  ids : EntityField → Option (SetJournal Id)

namespace Entity

/-- Write the entry of a field. -/
def setEntry (e : Entity) (field : EntityField) (ids : SetJournal Id) : Entity :=
  { e with
    dirtyFlag := true
    diffIdsChanged := Function.update e.diffIdsChanged field (some ids) }

def addedId (e : Entity) (field : EntityField) (idAdded : Id) : Entity :=
  match e.diffIdsChanged field with
  | none => e.setEntry field ⟨∅, {idAdded}⟩
  | some ids =>
    if idAdded ∈ ids.removed then
      e.setEntry field { ids with removed := ids.removed.erase idAdded }
    else e.setEntry field { ids with added := insert idAdded ids.added }

def removedId (e : Entity) (field : EntityField) (idRemoved : Id) : Entity :=
  match e.diffIdsChanged field with
  | none => e.setEntry field ⟨{idRemoved}, ∅⟩
  | some ids =>
    if idRemoved ∈ ids.added then
      e.setEntry field { ids with added := ids.added.erase idRemoved }
    else e.setEntry field { ids with removed := insert idRemoved ids.removed }

def setSingleIdField (e : Entity) (field : EntityField) (oldId newId : Id) : Entity :=
  match e.diffIdsChanged field with
  | none => e.setEntry field ⟨{oldId}, {newId}⟩
  | some ids => e.setEntry field { ids with added := {newId} }

def clearIdJournal (e : Entity) (field : EntityField) : Entity :=
  { e with diffIdsChanged := Function.update e.diffIdsChanged field none }

def notifyFieldChanged (e : Entity) (field : EntityField) : Entity :=
  if !e.ignoreChanges && e.hasDbListeners then
    { e with
      dirtyFlag := true
      dirtyFields := insert field e.dirtyFields
      diffCallbackFields := insert field e.diffCallbackFields
      needCallListener := true }
  else e

/-- More has changed than what does not count as an update. -/
def isUpdate (e : Entity) : Bool :=
  !(e.dirtyFields.card ≤ 2 && EntityField.accessedTimestamp ∈ e.dirtyFields)

/-- The first half of `notify_db_listener`: what changed last is the time of the
update. -/
def stampUpdate (e : Entity) (now : TimeStamp) : Entity :=
  if e.isUpdate then
    { e with
      entityUpdatedTimestamp := now
      diffCallbackFields := insert .updatedTimestamp e.diffCallbackFields
      dirtyFields := insert .updatedTimestamp e.dirtyFields }
  else e

/-- `notify_db_listener`: what each of the listeners is told, if they are called. -/
def notifyDbListener (e : Entity) (now : TimeStamp) : Option EntityChanges × Entity :=
  if e.needCallListener && e.hasDbListeners then
    let e := e.stampUpdate now
    (some ⟨e.diffCallbackFields, e.diffFlagsChanged, e.diffIdsChanged⟩,
      { e with
        needCallListener := false
        diffCallbackFields := ∅
        diffFlagsChanged := .empty
        diffIdsChanged := fun _ => none })
  else (none, e)

/-- The constructor of an Entity that is new.  It calls the listeners itself. -/
def new (hasDbListeners : Bool) (now : TimeStamp) : Entity :=
  let e : Entity :=
    { entitySecurity := .empty
      entityUpdatedTimestamp := now
      hasDbListeners := hasDbListeners
      needCallListener := true
      dirtyFlag := false
      ignoreChanges := false
      dirtyFields := ∅
      diffCallbackFields := ∅
      diffFlagsChanged := .empty
      diffIdsChanged := fun _ => none }
  let fields : List EntityField := [.type, .id, .version, .instanceNumber, .createdTimestamp,
    .updatedTimestamp, .accessedTimestamp, .accessCount]
  ((fields.foldl notifyFieldChanged e).notifyDbListener now).2

def setEntitySecurity (e : Entity) (security : Security) : Entity :=
  let changes := e.entitySecurity.diffIds security
  let e := { e with entitySecurity := security }.notifyFieldChanged .security
  let e := changes.1.foldl (fun e id => e.removedId .security id) e
  changes.2.foldl (fun e id => e.addedId .security id) e

/-! ### Fields that are reported one after the other -/

/-- They are dirty afterwards, where changes are reported. -/
theorem mem_dirtyFields_foldl_notifyFieldChanged (e : Entity) (fields : List EntityField)
    (field : EntityField) : field ∈ (fields.foldl notifyFieldChanged e).dirtyFields ↔
      field ∈ e.dirtyFields ∨
        (!e.ignoreChanges && e.hasDbListeners) = true ∧ field ∈ fields := by
  induction fields generalizing e with
  | nil => simp
  | cons head fields ih =>
    rw [List.foldl_cons, ih]
    cases hreport : !e.ignoreChanges && e.hasDbListeners with
    | false => simp [notifyFieldChanged, hreport]
    | true => simp [notifyFieldChanged, hreport, or_left_comm, or_assoc]

/-! ### The entry of a field -/

/-- The entry of a field, or one in which nothing has happened. -/
def journal (e : Entity) (field : EntityField) : SetJournal Id :=
  (e.diffIdsChanged field).getD .empty

end Entity

end Mutgos.DbTypes
