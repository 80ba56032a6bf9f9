import Mutgos.Primitives.Containment

/-!
# What is near

`is_entity_local` looks for the target near the source by the raw IDs of what contains them.  So
two containers are in the same place when neither is anywhere.

## Main results

* `locality_iff` — **it finds what is near exactly where the target is not misplaced.**
-/

namespace Mutgos.Security

open DbTypes DbInterface Primitives EntityData Option

variable {δ : Type} {db : Database δ}

/-- Something is in a valid Entity. -/
abbrev IsIn (db : Database δ) : EntityData δ → EntityData δ → Prop := LinkedTo (containerOf db)

/-- A container is the source, is in it, is where the source is, or is above the source. -/
def Near (db : Database δ) (source target : EntityData δ) (inventory : Bool) : Prop :=
  target = source ∨ inventory = true ∧ IsIn db target source ∨
    (∃ container, IsIn db source container ∧ IsIn db target container) ∨
    Relation.TransGen (IsIn db) source target

/-- The target is near, or what it is attached to. -/
def IsLocal (db : Database δ) (source target : EntityRef δ) (inventory : Bool) : Prop :=
  ∃ s ∈ source.bind asContainer, ∃ t ∈ target.bind (localTarget db s),
    Near db s t inventory

/-- The target is in something that is where the source is. -/
def IsCarried (db : Database δ) (source target : EntityRef δ) : Prop :=
  ∃ s ∈ source.bind asContainer, ∃ t ∈ target.bind asContainer,
    ∃ carrier container, IsIn db t carrier ∧ IsIn db carrier container ∧ IsIn db s container

/-- The source is nowhere, and so is another container that is looked for, or what it is in. -/
def Misplaced (db : Database δ) (source target : EntityRef δ) (inventory : Bool) : Prop :=
  ∃ s ∈ source.bind asContainer, db.getEntity s.containedBy = none ∧
    ((∃ t ∈ target.bind (localTarget db s), t ≠ s ∧ s.containedBy = t.containedBy) ∨
      ∃ t ∈ target.bind asContainer,
        ∃ carrier ∈ (db.getEntity t.containedBy).bind asContainer,
          carrier.containedBy = s.containedBy ∧ ¬ (inventory = true ∧ carrier = s))

variable {e e' s : EntityData δ}

theorem asContainer_eq_some_iff : e.asContainer = some e' ↔
    e = e' ∧ e.entityType.isContainerPropertyEntity = true := by
  rw [asContainer]
  split_ifs with h <;> simp [h]

theorem isIn_iff (he : e.entityType.isContainerPropertyEntity = true) :
    IsIn db e e' ↔ db.getEntity e.containedBy = some e' := by
  rw [IsIn, LinkedTo, containerOf, asContainer_eq_some_iff.mpr ⟨rfl, he⟩, bind_some]

/-- What is looked for is a container of the database. -/
theorem localTarget_eq_some {t : EntityData δ} (h : localTarget db s e = some t)
    (he : IsLive db e) : IsLive db t ∧ t.entityType.isContainerPropertyEntity = true := by
  unfold localTarget at h
  split at h
  · next hcontainer =>
    cases h
    obtain ⟨rfl, htype⟩ := asContainer_eq_some_iff.mp hcontainer
    exact ⟨he, htype⟩
  · split_ifs at h
    split at h
    · cases h
    · next holder hholder =>
      dsimp only at h
      split_ifs at h
      · obtain ⟨rfl, htype⟩ := asContainer_eq_some_iff.mp h
        exact ⟨isLive_of_getEntity hholder, htype⟩

/-- Live Entities of an ID are the same. -/
theorem live_id_inj (he : IsLive db e) (he' : IsLive db e') : e.id = e'.id ↔ e = e' := by
  refine ⟨fun h => ?_, congrArg _⟩
  rw [IsLive, h] at he
  exact Option.some.inj (he.symm.trans he')

section Live

variable {s e t : EntityData δ} {inventory : Bool}

/-- **What the code finds**: what is near, and what is nowhere as the source is. -/
theorem isEntityLocal_iff (h : Acyclic (ContainedIn db)) (hs : IsLive db s)
    (hcontainer : s.entityType.isContainerPropertyEntity = true) (he : IsLive db e)
    (ht : localTarget db s e = some t) :
    isEntityLocal db (some s) (some e) inventory = some true ↔
      Near db s t inventory ∨ s.containedBy = t.containedBy ∧
        db.getEntity s.containedBy = none := by
  obtain ⟨hlive, htype⟩ := localTarget_eq_some ht he
  have hin : IsIn db t s ↔ t.containedBy = s.id := by
    rw [isIn_iff htype]
    exact ⟨fun hget => (Database.id_eq_of_getEntity hget).symm, fun hid => hid ▸ hs⟩
  have habove : ∀ result, isRegionAbove db t.id (db.getEntity s.containedBy) = some result →
      (result = true ↔ Relation.TransGen (IsIn db) s t) := by
    intro result hresult
    rw [climb_eq_some hresult, Relation.TransGen.head'_iff]
    constructor
    · rintro ⟨a, b, ha, hab, hb⟩
      have hb' := (goesUp_containerOf.reflTransGen (isLive_of_getEntity ha) hab).1
      obtain rfl := (live_id_inj hb' hlive).mp (of_decide_eq_true hb)
      exact ⟨a, (isIn_iff hcontainer).mpr ha, hab⟩
    · rintro ⟨a, ha, hab⟩
      exact ⟨a, t, (isIn_iff hcontainer).mp ha, hab, decide_eq_true rfl⟩
  simp only [isEntityLocal, asContainer_eq_some_iff.mpr ⟨rfl, hcontainer⟩, ht]
  split_ifs with hself hcarried hsame hroom
  · exact iff_of_true rfl (.inl (.inl ((live_id_inj hlive hs).mp hself)))
  · exact iff_of_true rfl (.inl (.inr (.inl ⟨hcarried.1, hin.mpr hcarried.2⟩)))
  · refine iff_of_true rfl ?_
    cases hget : db.getEntity s.containedBy with
    | none => exact .inr ⟨hsame, rfl⟩
    | some c =>
      refine .inl (.inr (.inr (.inl ⟨c, (isIn_iff hcontainer).mpr hget, ?_⟩)))
      rw [isIn_iff htype, ← hsame]
      exact hget
  · refine iff_of_true rfl (.inl (.inr (.inr (.inr (.single ?_)))))
    rw [isIn_iff hcontainer, hroom]
    exact hlive
  · have hends := searchEnds_of_acyclic h t.id s.containedBy
    obtain ⟨result, hresult⟩ := isSome_iff_exists.mp hends
    rw [hresult, Option.some.injEq, habove result hresult, or_iff_left fun hnone => hsame hnone.1]
    refine ⟨fun hup => .inr (.inr (.inr hup)), ?_⟩
    rintro (rfl | ⟨hinventory, hts⟩ | ⟨c, hsc, htc⟩ | hup)
    · exact absurd rfl hself
    · exact absurd ⟨hinventory, hin.mp hts⟩ hcarried
    · rw [isIn_iff hcontainer] at hsc
      rw [isIn_iff htype] at htc
      refine absurd ?_ hsame
      rw [← Database.id_eq_of_getEntity hsc, ← Database.id_eq_of_getEntity htc]
    · exact hup

/-- Near what is nowhere is only what is in it. -/
theorem near_of_nowhere (hcontainer : s.entityType.isContainerPropertyEntity = true)
    (hnone : db.getEntity s.containedBy = none) :
    Near db s t inventory ↔ t = s ∨ inventory = true ∧ IsIn db t s := by
  have hnot : ∀ c, ¬ IsIn db s c := fun c hc => by simp [isIn_iff hcontainer, hnone] at hc
  refine ⟨?_, fun h => h.elim .inl fun h => .inr (.inl h)⟩
  rintro (heq | hin | ⟨c, hsc, -⟩ | hup)
  · exact .inl heq
  · exact .inr hin
  · exact absurd hsc (hnot c)
  · obtain ⟨c, hsc, -⟩ := Relation.TransGen.head'_iff.mp hup
    exact absurd hsc (hnot c)

end Live

/-- The first test of `is_entity_local_via_inventory`, by the raw ID. -/
def CarriedThere (db : Database δ) (s t : EntityData δ) : Prop :=
  ∃ carrier ∈ (db.getEntity t.containedBy).bind asContainer,
    carrier.containedBy = s.containedBy

theorem isEntityLocalViaInventory_iff (hcontainer : s.entityType.isContainerPropertyEntity = true)
    {inventory : Bool} :
    isEntityLocalViaInventory db (some s) (some e) inventory = some true ↔
      (∃ t ∈ e.asContainer, CarriedThere db s t) ∨
        isEntityLocal db (some s) (some e) inventory = some true := by
  simp only [isEntityLocalViaInventory, bind_some,
    asContainer_eq_some_iff.mpr ⟨rfl, hcontainer⟩, CarriedThere, mem_def]
  cases e.asContainer with
  | none => simp
  | some t =>
    cases hcarrier : (db.getEntity t.containedBy).bind asContainer with
    | none => simp [hcarrier]
    | some carrier =>
      by_cases hsame : carrier.containedBy = s.containedBy <;> simp [hsame, hcarrier]

/-- What is carried is found by the raw ID, and the source is somewhere. -/
theorem carriedThere_iff {t : EntityData δ}
    (hcontainer : s.entityType.isContainerPropertyEntity = true)
    (ht : t.entityType.isContainerPropertyEntity = true) :
    (∃ carrier container, IsIn db t carrier ∧ IsIn db carrier container ∧ IsIn db s container) ↔
      CarriedThere db s t ∧ db.getEntity s.containedBy ≠ none := by
  simp only [CarriedThere, isIn_iff hcontainer, isIn_iff ht, mem_def,
    bind_eq_some_iff, asContainer_eq_some_iff]
  constructor
  · rintro ⟨carrier, container, hcarrier, hin, hs⟩
    have htype := goesUp_containerOf.container hin
    refine ⟨⟨carrier, ⟨carrier, hcarrier, rfl, htype⟩, ?_⟩, by simp [hs]⟩
    rw [← Database.id_eq_of_getEntity hs]
    exact (Database.id_eq_of_getEntity (goesUp_containerOf.getEntity hin)).symm
  · rintro ⟨⟨carrier, ⟨_, hcarrier, rfl, htype⟩, hsame⟩, hsome⟩
    obtain ⟨container, hs⟩ := ne_none_iff_exists'.mp hsome
    exact ⟨_, container, hcarrier, (isIn_iff htype).mpr (hsame ▸ hs), hs⟩

/-- **The code finds exactly what is near unless the target is misplaced.** -/
theorem locality_iff (h : Acyclic (ContainedIn db)) (sourceId targetId : Id) (inventory : Bool) :
    ((isEntityLocal db (db.getEntity sourceId) (db.getEntity targetId) inventory = some true ↔
        IsLocal db (db.getEntity sourceId) (db.getEntity targetId) inventory) ∧
      (isEntityLocalViaInventory db (db.getEntity sourceId) (db.getEntity targetId) inventory =
          some true ↔
        IsLocal db (db.getEntity sourceId) (db.getEntity targetId) inventory ∨
          IsCarried db (db.getEntity sourceId) (db.getEntity targetId))) ↔
      ¬ Misplaced db (db.getEntity sourceId) (db.getEntity targetId) inventory := by
  cases hs : db.getEntity sourceId with
  | none => simp [isEntityLocalViaInventory, isEntityLocal, IsLocal, IsCarried, Misplaced]
  | some s =>
    cases he : db.getEntity targetId with
    | none => simp [isEntityLocalViaInventory, isEntityLocal, IsLocal, IsCarried, Misplaced]
    | some e =>
      by_cases hcontainer : s.entityType.isContainerPropertyEntity = true
      · have hlive := isLive_of_getEntity hs
        have hlive' := isLive_of_getEntity he
        have hcode : isEntityLocal db (some s) (some e) inventory = some true ↔
            ∃ t ∈ localTarget db s e, Near db s t inventory ∨
              s.containedBy = t.containedBy ∧ db.getEntity s.containedBy = none := by
          cases ht : localTarget db s e with
          | none => simp [isEntityLocal, ht]
          | some t => simpa using isEntityLocal_iff h hlive hcontainer hlive' ht
        rw [isEntityLocalViaInventory_iff hcontainer, hcode]
        simp only [IsLocal, IsCarried, Misplaced, Option.bind_some, Option.mem_def,
          asContainer_eq_some_iff.mpr ⟨rfl, hcontainer⟩, Option.some.injEq, exists_eq_left']
        have hcarried : (∃ t, e.asContainer = some t ∧ ∃ carrier container, IsIn db t carrier ∧
            IsIn db carrier container ∧ IsIn db s container) ↔
            (∃ t, e.asContainer = some t ∧ CarriedThere db s t) ∧
              db.getEntity s.containedBy ≠ none := by
          rw [← exists_and_right]
          refine exists_congr fun t => ?_
          rw [and_assoc]
          refine and_congr_right fun ht => ?_
          obtain ⟨rfl, htype⟩ := asContainer_eq_some_iff.mp ht
          exact carriedThere_iff hcontainer htype
        rw [hcarried]
        cases hnone : db.getEntity s.containedBy with
        | some c => simp [or_comm]
        | none =>
          have hnear : ∀ {t}, Near db s t inventory ↔ t = s ∨ inventory = true ∧ IsIn db t s :=
            near_of_nowhere hcontainer hnone
          -- what is where the source is, is not in it
          have hout : ∀ {t}, localTarget db s e = some t → s.containedBy = t.containedBy →
              (Near db s t inventory ↔ t = s) := by
            intro t ht hsame
            rw [hnear, isIn_iff (localTarget_eq_some ht hlive').2, ← hsame, hnone]
            simp
          have hin : ∀ {t carrier}, e.asContainer = some t →
              (db.getEntity t.containedBy).bind EntityData.asContainer = some carrier →
              localTarget db s e = some t ∧
                (Near db s t inventory ↔ inventory = true ∧ carrier = s) := by
            intro t carrier ht hcarrier
            obtain ⟨c, hc, hcc⟩ := Option.bind_eq_some_iff.mp hcarrier
            obtain ⟨rfl, -⟩ := asContainer_eq_some_iff.mp hcc
            refine ⟨by simp [localTarget, ht], ?_⟩
            obtain ⟨rfl, htype⟩ := asContainer_eq_some_iff.mp ht
            rw [hnear, isIn_iff htype, hc, Option.some.injEq, or_iff_right]
            rintro rfl
            simp [hc] at hnone
          simp only [ne_eq, not_true_eq_false, and_false, or_false, and_true, true_and]
          constructor
          · rintro ⟨hlocal, hvia⟩ (⟨t, ht, hne, hsame⟩ | ⟨t, ht, carrier, hcarrier, hsame, hnot⟩)
            · obtain ⟨t', ht', ht''⟩ := hlocal.mp ⟨t, ht, .inr hsame⟩
              obtain rfl := Option.some.inj (ht.symm.trans ht')
              exact hne ((hout ht hsame).mp ht'')
            · obtain ⟨t', ht', ht''⟩ := hvia.mp (.inl ⟨t, ht, carrier, hcarrier, hsame⟩)
              obtain ⟨hlocal, hiff⟩ := hin ht hcarrier
              obtain rfl := Option.some.inj (hlocal.symm.trans ht')
              exact hnot (hiff.mp ht'')
          · intro hnot
            have hlocal : ∀ t, localTarget db s e = some t →
                Near db s t inventory ∨ s.containedBy = t.containedBy → Near db s t inventory := by
              rintro t ht (hn | hsame)
              · exact hn
              · exact (hout ht hsame).mpr (by_contra fun hne => hnot (.inl ⟨t, ht, hne, hsame⟩))
            refine ⟨⟨?_, ?_⟩, ?_, ?_⟩
            · rintro ⟨t, ht, hn⟩
              exact ⟨t, ht, hlocal t ht hn⟩
            · rintro ⟨t, ht, hn⟩
              exact ⟨t, ht, .inl hn⟩
            · rintro (⟨t, ht, carrier, hcarrier, hsame⟩ | ⟨t, ht, hn⟩)
              · obtain ⟨ht', hiff⟩ := hin ht hcarrier
                refine ⟨t, ht', hiff.mpr (by_contra fun hne => hnot (.inr ?_))⟩
                exact ⟨t, ht, carrier, hcarrier, hsame, hne⟩
              · exact ⟨t, ht, hlocal t ht hn⟩
            · rintro ⟨t, ht, hn⟩
              exact .inr ⟨t, ht, .inl hn⟩
      · simp [isEntityLocalViaInventory, isEntityLocal, IsLocal, IsCarried, Misplaced,
          EntityData.asContainer, hcontainer]

/-- Two players who are nowhere. -/
def nowhereSite : Database Unit := ⟨[.ofType ⟨1, 2⟩ .player, .ofType ⟨1, 3⟩ .player]⟩

theorem acyclic_nowhereSite : Acyclic (ContainedIn nowhereSite) :=
  acyclic_containedIn (fun id => if id.isDefault then 1 else 0) (by decide)

theorem locality_iff_nowhereSite :
    (isEntityLocal nowhereSite (nowhereSite.getEntity ⟨1, 2⟩) (nowhereSite.getEntity ⟨1, 2⟩) true =
        some true ↔
      IsLocal nowhereSite (nowhereSite.getEntity ⟨1, 2⟩) (nowhereSite.getEntity ⟨1, 2⟩) true) ∧
    (isEntityLocalViaInventory nowhereSite (nowhereSite.getEntity ⟨1, 2⟩)
        (nowhereSite.getEntity ⟨1, 2⟩) true = some true ↔
      IsLocal nowhereSite (nowhereSite.getEntity ⟨1, 2⟩) (nowhereSite.getEntity ⟨1, 2⟩) true ∨
        IsCarried nowhereSite (nowhereSite.getEntity ⟨1, 2⟩) (nowhereSite.getEntity ⟨1, 2⟩)) := by
  refine (locality_iff acyclic_nowhereSite ⟨1, 2⟩ ⟨1, 2⟩ true).mpr ?_
  rintro ⟨s, hs, -, ⟨t, ht, hne, -⟩ | ⟨t, ht, carrier, hcarrier, -⟩⟩
  · cases hs
    cases ht
    exact hne rfl
  · cases ht
    cases hcarrier

/-- **One finds the other**, as their rooms are the same that is not there. -/
theorem not_locality : Acyclic (ContainedIn nowhereSite) ∧
    isEntityLocal nowhereSite (nowhereSite.getEntity ⟨1, 2⟩) (nowhereSite.getEntity ⟨1, 3⟩) false =
        some true ∧
      ¬ IsLocal nowhereSite (nowhereSite.getEntity ⟨1, 2⟩) (nowhereSite.getEntity ⟨1, 3⟩)
        false := by
  refine ⟨acyclic_nowhereSite, by decide, ?_⟩
  rintro ⟨s, hs, t, ht, hnear⟩
  cases hs
  cases ht
  rcases (near_of_nowhere rfl rfl).mp hnear with h | ⟨h, -⟩
  · exact absurd (congrArg EntityData.id h) (by decide)
  · cases h

end Mutgos.Security
