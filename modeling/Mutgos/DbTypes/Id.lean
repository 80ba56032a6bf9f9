import Mathlib.Order.RelClasses

/-!
# Entity IDs

`dbtype::Id`, the pair of a site ID and an entity ID that everything in the game
database is referred to by.  The pair of zeros is the default (invalid) ID.
-/

namespace Mutgos.DbTypes

/-- The site half of an ID. -/
abbrev SiteIdType := ℕ

/-- The entity half of an ID. -/
abbrev EntityIdType := ℕ

structure Id where
  siteId : SiteIdType
  entityId : EntityIdType
  deriving DecidableEq, Repr

namespace Id

/-- The deserialization constructor: the ID that stands for nothing. -/
instance : Inhabited Id := ⟨⟨0, 0⟩⟩

/-- Made with the default (invalid) constructor. -/
def isDefault (id : Id) : Bool := id.siteId == 0 && id.entityId == 0

def isSiteDefault (id : Id) : Bool := id.siteId == 0

def isEntityDefault (id : Id) : Bool := id.entityId == 0

theorem isDefault_iff {id : Id} : id.isDefault = true ↔ id = default := by
  obtain ⟨site, entity⟩ := id
  simp [isDefault, default]

/-- `operator<`: first by the site. -/
instance : LT Id :=
  ⟨fun id id' => id.siteId < id'.siteId ∨ id.siteId = id'.siteId ∧ id.entityId < id'.entityId⟩

instance : DecidableLT Id := fun id id' =>
  inferInstanceAs (Decidable
    (id.siteId < id'.siteId ∨ id.siteId = id'.siteId ∧ id.entityId < id'.entityId))

theorem lt_iff {id id' : Id} : id < id' ↔
    id.siteId < id'.siteId ∨ id.siteId = id'.siteId ∧ id.entityId < id'.entityId := Iff.rfl

instance : IsStrictTotalOrder Id (· < ·) where
  irrefl id h := by
    rcases lt_iff.mp h with hsite | ⟨-, hentity⟩
    · exact Nat.lt_irrefl id.siteId hsite
    · exact Nat.lt_irrefl id.entityId hentity
  trans id id' id'' h h' := by
    rw [lt_iff] at *
    rcases h with hsite | ⟨hsite, hentity⟩
    · rcases h' with hsite' | ⟨hsite', -⟩
      · exact .inl (Nat.lt_trans hsite hsite')
      · exact .inl (hsite' ▸ hsite)
    · rw [hsite]
      exact h'.imp_right fun h' => ⟨h'.1, Nat.lt_trans hentity h'.2⟩
  trichotomous id id' h h' := by
    rw [lt_iff, not_or, not_and] at h h'
    have hsite : id.siteId = id'.siteId :=
      Nat.le_antisymm (Nat.not_lt.mp h'.1) (Nat.not_lt.mp h.1)
    have hentity : id.entityId = id'.entityId :=
      Nat.le_antisymm (Nat.not_lt.mp (h'.2 hsite.symm)) (Nat.not_lt.mp (h.2 hsite))
    cases id
    cases id'
    rw [mk.injEq]
    exact ⟨hsite, hentity⟩

end Id

end Mutgos.DbTypes
