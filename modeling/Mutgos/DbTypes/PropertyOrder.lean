import Mutgos.DbTypes.PropertyData

/-!
# The comparison of property data

The loops of `operator<` over documents and sets do not stop at the first difference.  So
the comparison is no lexicographic one: a value is less than another if it is less at some
place, whatever there is at the others.  Seen from the other side, it is the negation of an
order: the one that compares place by place, and in which not all values are comparable.

## Main results

* `lt_eq_not_atMost` — **`operator<` is the negation of the other order.**
-/

namespace Mutgos.DbTypes

open Text PropertyDataType List

namespace PropertyData

/-- Every line of a document has one in the other that is not less. -/
def linesAtMost : List ByteString → List ByteString → Bool
  | [], _ => true
  | _ :: _, [] => false
  | line :: lines, line' :: lines' => !decide (line' < line) && linesAtMost lines lines'

mutual

/-- Place by place, nothing in the first value is greater than in the second. -/
def atMost : PropertyData → PropertyData → Bool
  | string s, string s' => !decide (s' < s)
  | integer i, integer i' => !decide (i' < i)
  | float f, float f' => !f'.lt f
  | boolean b, boolean b' => !decide (b' < b)
  | id i, id i' => !decide (i' < i)
  | document d, document d' => linesAtMost d.documentData d'.documentData
  | set type items, set type' items' =>
    type.elim 0 index ≤ type'.elim 0 index &&
      (items.length < items'.length || itemsAtMost items items')
  | a, b => a.dataType.index < b.dataType.index

/-- The items of sets of one size, place by place. -/
def itemsAtMost : List PropertyData → List PropertyData → Bool
  | [], [] => true
  | a :: as, b :: bs => atMost a b && itemsAtMost as bs
  | _, _ => false

end

mutual

/-- There is no `nan` in the value. -/
def noNan : PropertyData → Bool
  | float f => f ≠ .nan
  | set _ items => noNanItems items
  | _ => true

/-- There is none in any of these. -/
def noNanItems : List PropertyData → Bool
  | [] => true
  | a :: as => noNan a && noNanItems as

end

/-- Two values that are comparable place by place. -/
def Comparable (a b : PropertyData) : Prop := a.atMost b = true ∨ b.atMost a = true

/-- What an order that belongs to `operator==` has to do with three values. -/
structure OrdersThem (a b c : PropertyData) : Prop where
  irrefl : a.lt a = false
  asymm : a.lt b = true → b.lt a = false
  trans : a.lt b = true → b.lt c = true → a.lt c = true
  eq_iff : a.eq b = true ↔ a.lt b = false ∧ b.lt a = false

/-! ### The negation of an order -/

theorem anyLineLt_eq (lines lines' : List ByteString) :
    (anyLineLt lines lines' || decide (lines.length < lines'.length)) =
      !linesAtMost lines' lines := by
  induction lines generalizing lines' with
  | nil => cases lines' <;> simp [anyLineLt, linesAtMost]
  | cons line lines ih =>
    cases lines' with
    | nil => simp [anyLineLt, linesAtMost]
    | cons line' lines' =>
      rw [anyLineLt, linesAtMost, Bool.not_and, Bool.not_not, ← ih lines', Bool.or_assoc]
      simp

variable {as bs : List PropertyData} {a b c : PropertyData}

theorem itemsAtMost_iff :
    itemsAtMost as bs = true ↔ List.Forall₂ (fun a b => a.atMost b = true) as bs := by
  induction as generalizing bs with
  | nil => cases bs <;> simp [itemsAtMost]
  | cons a as ih => cases bs <;> simp [itemsAtMost, ih]

theorem noNanItems_iff {items : List PropertyData} :
    noNanItems items = true ↔ ∀ a ∈ items, a.noNan = true := by
  induction items with
  | nil => simp [noNanItems]
  | cons a items ih => simp [noNanItems, ih]

theorem anyItemLt_eq (hlength : as.length = bs.length) (h : ∀ a ∈ as, ∀ b, a.lt b = !b.atMost a) :
    anyItemLt as bs = !itemsAtMost bs as := by
  induction as generalizing bs with
  | nil =>
    obtain rfl := eq_nil_of_length_eq_zero hlength.symm
    rfl
  | cons a as ih =>
    cases bs with
    | nil => cases hlength
    | cons b bs =>
      obtain ⟨ha, has⟩ := forall_mem_cons.mp h
      rw [anyItemLt, itemsAtMost, ha, ih (Nat.succ.inj hlength) has, Bool.not_and]

theorem atMost_of_dataType_ne (h : a.dataType ≠ b.dataType) :
    a.atMost b = decide (a.dataType.index < b.dataType.index) := by
  cases a <;> cases b <;> simp_all [atMost, dataType]

theorem index_injective {type type' : PropertyDataType} (h : type.index = type'.index) :
    type = type' := by
  cases type <;> cases type' <;> first | rfl | cases h

theorem decide_lt_eq_not_le (m n : ℕ) : decide (m < n) = !decide (n ≤ m) := by
  rw [← decide_not, Bool.eq_iff_iff, decide_eq_true_eq, decide_eq_true_eq, Nat.not_le]

theorem decide_lt_eq_not_lt {m n : ℕ} (h : m ≠ n) : decide (m < n) = !decide (n < m) := by
  rw [← decide_not, Bool.eq_iff_iff, decide_eq_true_eq, decide_eq_true_eq]
  omega

theorem lt_eq_not_atMost_of_dataType_ne (h : a.dataType ≠ b.dataType) : a.lt b = !b.atMost a := by
  rw [lt_of_dataType_ne h, atMost_of_dataType_ne h.symm]
  exact decide_lt_eq_not_lt (mt index_injective h)

/-- **`operator<` is the negation of the order place by place.** -/
theorem lt_eq_not_atMost (a b : PropertyData) : a.lt b = !b.atMost a := by
  induction a using set_induction generalizing b with
  | simple a hsimple =>
    by_cases htype : a.dataType = b.dataType
    · cases a <;> cases b <;> simp only [dataType, reduceCtorEq, ne_eq, not_true_eq_false] at *
      case document => exact anyLineLt_eq _ _
      all_goals simp [lt, atMost]
    · exact lt_eq_not_atMost_of_dataType_ne htype
  | set type items ih =>
    by_cases htype : (set type items).dataType = b.dataType
    · cases b with
      | set type' items' =>
        rw [lt, atMost, Bool.not_and, ← decide_lt_eq_not_le, Bool.or_assoc]
        congr 1
        by_cases hlength : items.length = items'.length
        · rw [anyItemLt_eq hlength fun a ha b => ih a ha b]
          simp [hlength]
        · have hnot : itemsAtMost items' items = false := by
            rw [Bool.eq_false_iff, Ne, itemsAtMost_iff]
            intro hall
            exact hlength hall.length_eq.symm
          rw [hnot, Bool.or_false, ← decide_lt_eq_not_lt hlength]
          simp [hlength]
      | _ => simp [dataType] at htype
    · exact lt_eq_not_atMost_of_dataType_ne htype

/-! ### The order -/

theorem linesAtMost_refl (lines : List ByteString) : linesAtMost lines lines = true := by
  induction lines with
  | nil => rfl
  | cons line lines ih => simp [linesAtMost, ih, irrefl]

/-- In a linear order, what is not less is an order, too. -/
theorem not_lt_trans {α : Type*} [LT α] [IsStrictTotalOrder α (· < ·)] {x y z : α}
    (h : ¬ y < x) (h' : ¬ z < y) : ¬ z < x := by
  intro hzx
  obtain hxy | rfl | hyx := trichotomous_of (· < ·) x y
  · exact h' (trans_of (· < ·) hzx hxy)
  · exact h' hzx
  · exact h hyx

theorem linesAtMost_trans {lines lines' lines'' : List ByteString}
    (h : linesAtMost lines lines' = true) (h' : linesAtMost lines' lines'' = true) :
    linesAtMost lines lines'' = true := by
  induction lines generalizing lines' lines'' with
  | nil => rfl
  | cons line lines ih =>
    cases lines' with
    | nil => cases h
    | cons line' lines' =>
      cases lines'' with
      | nil => cases h'
      | cons line'' lines'' =>
        simp only [linesAtMost, Bool.and_eq_true, Bool.not_eq_true', decide_eq_false_iff_not]
          at h h' ⊢
        exact ⟨not_lt_trans h.1 h'.1, ih h.2 h'.2⟩

theorem linesAtMost_antisymm {lines lines' : List ByteString} :
    linesAtMost lines lines' = true ∧ linesAtMost lines' lines = true ↔ lines = lines' := by
  constructor
  · rintro ⟨h, h'⟩
    induction lines generalizing lines' with
    | nil =>
      cases lines' with
      | nil => rfl
      | cons line' lines' => cases h'
    | cons line lines ih =>
      cases lines' with
      | nil => cases h
      | cons line' lines' =>
        simp only [linesAtMost, Bool.and_eq_true, Bool.not_eq_true', decide_eq_false_iff_not]
          at h h'
        rw [ih h.2 h'.2, List.cons.injEq]
        exact ⟨Std.Trichotomous.trichotomous _ _ h'.1 h.1, rfl⟩
  · rintro rfl
    exact ⟨linesAtMost_refl _, linesAtMost_refl _⟩

theorem index_le_of_atMost (h : a.atMost b = true) : a.dataType.index ≤ b.dataType.index := by
  by_cases htype : a.dataType = b.dataType
  · rw [htype]
  · rw [atMost_of_dataType_ne htype, decide_eq_true_eq] at h
    exact Nat.le_of_lt h

theorem atMost_set_iff {type type' : Option PropertyDataType} {items items' : List PropertyData} :
    (set type items).atMost (set type' items') = true ↔
      type.elim 0 index ≤ type'.elim 0 index ∧
        (items.length < items'.length ∨
          List.Forall₂ (fun a b => a.atMost b = true) items items') := by
  simp [atMost, itemsAtMost_iff]

theorem atMost_refl (h : a.noNan = true) : a.atMost a = true := by
  induction a using set_induction with
  | simple a hsimple =>
    cases a
    case float f =>
      cases f with
      | nan => cases h
      | number x => simp [atMost, FloatData.lt]
    case document d => exact linesAtMost_refl _
    case set => exact absurd rfl hsimple
    all_goals simp [atMost, irrefl]
  | set type items ih =>
    refine atMost_set_iff.mpr ⟨Nat.le_refl _, .inr ?_⟩
    rw [noNan, noNanItems_iff] at h
    rw [forall₂_same]
    intro a ha
    exact ih a ha (h a ha)

theorem FloatData.not_lt_trans {f g f' : FloatData} (hg : g ≠ .nan) (h : g.lt f = false)
    (h' : f'.lt g = false) : f'.lt f = false := by
  cases g with
  | nan => exact absurd rfl hg
  | number y =>
    cases f <;> cases f' <;> simp only [FloatData.lt, decide_eq_false_iff_not] at h h' ⊢
    exact PropertyData.not_lt_trans h h'

/-- Transitivity, for values of one type that is not that of sets. -/
theorem atMost_trans_simple (hb : b.noNan = true) (hsimple : a.dataType ≠ .set)
    (hab : a.dataType = b.dataType) (hbc : b.dataType = c.dataType) (h : a.atMost b = true)
    (h' : b.atMost c = true) : a.atMost c = true := by
  cases a <;> cases b <;> simp only [dataType, reduceCtorEq, ne_eq, not_true_eq_false] at * <;>
    cases c <;> simp only [reduceCtorEq] at hbc <;>
    simp only [atMost, Bool.not_eq_true', decide_eq_false_iff_not] at h h' ⊢
  case float => exact FloatData.not_lt_trans (by simpa [noNan] using hb) h h'
  case document => exact linesAtMost_trans h h'
  all_goals exact not_lt_trans h h'

/-- What is between values of one type is of that type. -/
theorem dataType_between (h : a.atMost b = true) (h' : b.atMost c = true)
    (htype : a.dataType = c.dataType) : a.dataType = b.dataType ∧ b.dataType = c.dataType := by
  have hindex := index_le_of_atMost h
  have hindex' := index_le_of_atMost h'
  rw [← htype] at hindex' ⊢
  have hab := index_injective (Nat.le_antisymm hindex hindex')
  exact ⟨hab, hab.symm⟩

theorem atMost_of_between (h : a.atMost b = true) (h' : b.atMost c = true)
    (htype : a.dataType ≠ c.dataType) : a.atMost c = true := by
  have hindex := index_le_of_atMost h
  have hindex' := index_le_of_atMost h'
  have hne := mt index_injective htype
  rw [atMost_of_dataType_ne htype, decide_eq_true_eq]
  omega

theorem forall₂_atMost_trans {cs : List PropertyData}
    (htrans : ∀ a ∈ as, ∀ b ∈ bs, ∀ c, a.atMost b = true → b.atMost c = true → a.atMost c = true)
    (h : List.Forall₂ (fun a b => a.atMost b = true) as bs)
    (h' : List.Forall₂ (fun a b => a.atMost b = true) bs cs) :
    List.Forall₂ (fun a b => a.atMost b = true) as cs := by
  induction h generalizing cs with
  | nil => exact h'
  | cons hab _ ih =>
    cases h' with
    | cons hbc hrest =>
      refine .cons (htrans _ mem_cons_self _ mem_cons_self _ hab hbc) (ih ?_ hrest)
      intro a ha b hb
      exact htrans a (mem_cons_of_mem _ ha) b (mem_cons_of_mem _ hb)

/-- **The order is one.** -/
theorem atMost_trans (hb : b.noNan = true) (h : a.atMost b = true) (h' : b.atMost c = true) :
    a.atMost c = true := by
  induction a using set_induction generalizing b c with
  | simple a hsimple =>
    by_cases htype : a.dataType = c.dataType
    · obtain ⟨hab, hbc⟩ := dataType_between h h' htype
      exact atMost_trans_simple hb hsimple hab hbc h h'
    · exact atMost_of_between h h' htype
  | set type items ih =>
    by_cases htype : (set type items).dataType = c.dataType
    · obtain ⟨hab, hbc⟩ := dataType_between h h' htype
      cases b with
      | set type' items' =>
        cases c with
        | set type'' items'' =>
          rw [atMost_set_iff] at h h' ⊢
          rw [noNan, noNanItems_iff] at hb
          refine ⟨Nat.le_trans h.1 h'.1, ?_⟩
          obtain ⟨-, hless | hitems⟩ := h
          · obtain ⟨-, hless' | hitems'⟩ := h'
            · exact .inl (Nat.lt_trans hless hless')
            · exact .inl (hitems'.length_eq ▸ hless)
          · obtain ⟨-, hless' | hitems'⟩ := h'
            · exact .inl (hitems.length_eq ▸ hless')
            · refine .inr (forall₂_atMost_trans ?_ hitems hitems')
              intro a ha b hb' c hab hbc
              exact ih a ha (hb b hb') hab hbc
        | _ => simp [dataType] at hbc
      | _ => simp [dataType] at hab
    · exact atMost_of_between h h' htype

/-- `operator==` of values of one type that is not that of sets. -/
theorem eq_iff_atMost_simple (ha : a.noNan = true) (hb : b.noNan = true)
    (hsimple : a.dataType ≠ .set) (hab : a.dataType = b.dataType) :
    a.eq b = true ↔ a.atMost b = true ∧ b.atMost a = true := by
  have htotal : ∀ {α : Type} [LT α] [IsStrictTotalOrder α (· < ·)] {x y : α},
      x = y ↔ ¬ y < x ∧ ¬ x < y := by
    intro α _ _ x y
    constructor
    · rintro rfl
      exact ⟨irrefl x, irrefl x⟩
    · rintro ⟨hyx, hxy⟩
      exact Std.Trichotomous.trichotomous x y hxy hyx
  cases a <;> cases b <;> simp only [dataType, reduceCtorEq, ne_eq, not_true_eq_false] at * <;>
    simp only [eq, atMost, Bool.not_eq_true', decide_eq_false_iff_not, decide_eq_true_eq]
  case float f f' =>
    cases f with
    | nan => simp [noNan] at ha
    | number x =>
      cases f' with
      | nan => simp [noNan] at hb
      | number y =>
        simp only [FloatData.eq, FloatData.lt, decide_eq_false_iff_not, decide_eq_true_eq]
        exact htotal
  case document => exact linesAtMost_antisymm.symm
  all_goals exact htotal

theorem eq_iff_atMost_of_dataType_ne (h : a.dataType ≠ b.dataType) :
    a.eq b = true ↔ a.atMost b = true ∧ b.atMost a = true := by
  refine iff_of_false (mt dataType_eq_of_eq h) ?_
  rintro ⟨hab, hba⟩
  exact h (index_injective (Nat.le_antisymm (index_le_of_atMost hab) (index_le_of_atMost hba)))

theorem setType_eq_iff {type type' : Option PropertyDataType} : type = type' ↔
    type.elim 0 index ≤ type'.elim 0 index ∧
      type'.elim 0 index ≤ type.elim 0 index := by
  constructor
  · rintro rfl
    exact ⟨Nat.le_refl _, Nat.le_refl _⟩
  · rintro ⟨h, h'⟩
    have hindex := Nat.le_antisymm h h'
    rcases type with - | (- | - | - | - | - | - | -) <;>
      rcases type' with - | (- | - | - | - | - | - | -) <;> first | rfl | cases hindex

theorem forall₂_eq_iff_atMost
    (h : ∀ a ∈ as, ∀ b ∈ bs, a.eq b = true ↔ a.atMost b = true ∧ b.atMost a = true) :
    List.Forall₂ (fun a b => a.eq b = true) as bs ↔
      List.Forall₂ (fun a b => a.atMost b = true) as bs ∧
        List.Forall₂ (fun b a => b.atMost a = true) bs as := by
  induction as generalizing bs with
  | nil => cases bs <;> simp
  | cons a as ih =>
    cases bs with
    | nil => simp
    | cons b bs =>
      rw [forall₂_cons, forall₂_cons, forall₂_cons,
        h a mem_cons_self b mem_cons_self, ih]
      · exact and_and_and_comm
      · intro a' ha b' hb
        exact h a' (mem_cons_of_mem _ ha) b' (mem_cons_of_mem _ hb)

/-- **`operator==` belongs to the order.** -/
theorem eq_iff_atMost (ha : a.noNan = true) (hb : b.noNan = true) :
    a.eq b = true ↔ a.atMost b = true ∧ b.atMost a = true := by
  induction a using set_induction generalizing b with
  | simple a hsimple =>
    by_cases htype : a.dataType = b.dataType
    · exact eq_iff_atMost_simple ha hb hsimple htype
    · exact eq_iff_atMost_of_dataType_ne htype
  | set type items ih =>
    by_cases htype : (set type items).dataType = b.dataType
    · cases b with
      | set type' items' =>
        rw [noNan, noNanItems_iff] at ha hb
        rw [atMost_set_iff, atMost_set_iff, eq, Bool.and_eq_true, decide_eq_true_eq, eqItems_iff,
          setType_eq_iff, forall₂_eq_iff_atMost fun a ha' b hb' => ih a ha' (ha a ha') (hb b hb')]
        constructor
        · rintro ⟨⟨htypes, htypes'⟩, hitems, hitems'⟩
          exact ⟨⟨htypes, .inr hitems⟩, htypes', .inr hitems'⟩
        · rintro ⟨⟨htypes, hcase⟩, htypes', hcase'⟩
          obtain hless | hitems := hcase
          · obtain hless' | hitems' := hcase'
            · omega
            · have hlength := hitems'.length_eq
              omega
          · obtain hless' | hitems' := hcase'
            · have hlength := hitems.length_eq
              omega
            · exact ⟨⟨htypes, htypes'⟩, hitems, hitems'⟩
      | _ => simp [dataType] at htype
    · exact eq_iff_atMost_of_dataType_ne htype

theorem eq_refl (h : a.noNan = true) : a.eq a = true :=
  (eq_iff_atMost h h).mpr ⟨atMost_refl h, atMost_refl h⟩

/-! ### Three values -/

theorem lt_eq_false_iff : a.lt b = false ↔ b.atMost a = true := by
  rw [lt_eq_not_atMost, Bool.not_eq_false']

theorem lt_iff : a.lt b = true ↔ b.atMost a = false := by
  rw [lt_eq_not_atMost, Bool.not_eq_true']

/-- **Values are ordered exactly if they are comparable place by place.** -/
theorem ordersThem_iff (ha : a.noNan = true) (hb : b.noNan = true) (c : PropertyData) :
    OrdersThem a b c ↔ Comparable a b := by
  constructor
  · intro h
    by_contra hnot
    rw [Comparable, not_or, Bool.not_eq_true, Bool.not_eq_true, ← lt_iff, ← lt_iff] at hnot
    have hasymm := h.asymm hnot.2
    rw [hnot.1] at hasymm
    cases hasymm
  · intro hcomparable
    refine ⟨lt_eq_false_iff.mpr (atMost_refl ha), ?_, ?_, ?_⟩
    · intro hab
      rw [lt_iff] at hab
      rw [lt_eq_false_iff]
      obtain h | h := hcomparable
      · exact h
      · rw [h] at hab
        cases hab
    · intro hab hbc
      rw [lt_iff] at hab hbc ⊢
      obtain h | h := hcomparable
      · -- What is at most the first is at most the second.
        rw [Bool.eq_false_iff]
        intro hca
        rw [atMost_trans ha hca h] at hbc
        cases hbc
      · rw [h] at hab
        cases hab
    · rw [eq_iff_atMost ha hb, lt_eq_false_iff, lt_eq_false_iff]
      exact and_comm

end PropertyData

end Mutgos.DbTypes
