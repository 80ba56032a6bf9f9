import Mutgos.DbTypes.PropertyOrder
import Mutgos.Lib.ComparatorSet
import Mutgos.Lib.TransitionSystem

/-!
# Sets of property data

`dbtype::SetProperty`: a set with `operator<` for its comparator.  As long as what is added
is comparable with the items that are there, the set does what a set does.

## Main results

* `orderedAndKept` — **which values are ordered, and that a set keeps items that are.**
-/

namespace Mutgos.DbTypes

open ComparatorSet

namespace PropertyData

def contains : PropertyData → PropertyData → Bool
  | set type items, item => if type = some item.dataType then (find lt item items).isSome else false
  | _, _ => false

/-- `remove`: there is no type any more when the last item is removed. -/
def remove : PropertyData → PropertyData → Bool × PropertyData
  | set type items, item =>
    if type ≠ some item.dataType then (false, set type items)
    else if (find lt item items).isSome then
      let items := erase lt item items
      (true, set (if items.isEmpty then none else type) items)
    else (true, set type items)
  | data, _ => (false, data)

/-- The items of a set. -/
def items : PropertyData → List PropertyData
  | set _ items => items
  | _ => []

theorem insertItem_eq (item : PropertyData) (items : List PropertyData) :
    insertItem item items = ComparatorSet.insert lt item items := by
  induction items with
  | nil => rfl
  | cons a items ih => rw [insertItem, ComparatorSet.insert, ih]

end PropertyData

open PropertyData

/-- What is done with a set. -/
inductive SetOp
  | add (item : PropertyData)
  | remove (item : PropertyData)

namespace SetOp

/-- The item that is added or removed. -/
def item : SetOp → PropertyData
  | add item => item
  | remove item => item

/-- What is returned, and the set afterwards. -/
def apply (limitsPropertySetItems : ℕ) (s : PropertyData) : SetOp → Bool × PropertyData
  | add item => s.add limitsPropertySetItems item
  | remove item => s.remove item

/-- What is added is comparable with the items, and is made of such items itself if it is a
set.  What is compared has no `nan` in it. -/
def Fits (items : List PropertyData) : SetOp → Prop
  | add item => item.noNan = true ∧ item.settled = true ∧ ∀ a ∈ items, item.Comparable a
  | remove item => item.noNan = true

end SetOp

variable (limit : ℕ)

/-- A new set, after what has been done with it. -/
def setAfter (ops : List SetOp) : PropertyData :=
  ops.foldl (fun s op => (op.apply limit s).2) (set none [])

/-- The item has been added, and not been removed since. -/
def Held (ops : List SetOp) (x : PropertyData) : Prop :=
  ∃ before after, ops = before ++ .add x :: after ∧
    ((SetOp.add x).apply limit (setAfter limit before)).1 = true ∧
    ∀ y, .remove y ∈ after → y.eq x = false

/-- Each item is in the set once, and those that are held are in it. -/
def KeepsItems (ops : List SetOp) : Prop :=
  (setAfter limit ops).items.Pairwise (fun a b => a.eq b = false) ∧
    ∀ x, Held limit ops x → (setAfter limit ops).contains x = true

/-- Every item is comparable with those that are there when it is added. -/
def AddsComparable (ops : List SetOp) : Prop :=
  ∀ before op after, ops = before ++ op :: after → op.Fits (setAfter limit before).items

variable {limit}

/-! ### The comparator -/

theorem notLtTrans : NotLtTrans lt fun a : PropertyData => a.noNan = true := by
  intro a b c hb hba hcb
  rw [lt_eq_false_iff] at *
  exact atMost_trans hb hba hcb

/-- What is equivalent to the comparator is equal. -/
theorem equivalent_iff {a b : PropertyData} (ha : a.noNan = true) (hb : b.noNan = true) :
    Equivalent lt a b ↔ a.eq b = true := by
  rw [Equivalent, lt_eq_false_iff, lt_eq_false_iff, eq_iff_atMost ha hb]
  exact and_comm

theorem comparable_iff {a b : PropertyData} : ComparatorSet.Comparable lt a b ↔ a.Comparable b := by
  rw [ComparatorSet.Comparable, lt_eq_false_iff, lt_eq_false_iff]
  exact or_comm

/-! ### Sets in order -/

/-- The items are in order, and of the type of the set. -/
structure Proper (type : Option PropertyDataType) (items : List PropertyData) : Prop where
  ascending : Ascending lt items
  noNan : ∀ a ∈ items, a.noNan = true
  typed : ∀ a ∈ items, type = some a.dataType

namespace Proper

variable {type : Option PropertyDataType} {items : List PropertyData} {item : PropertyData}

theorem nil (type : Option PropertyDataType) : Proper type [] :=
  ⟨.nil, by simp, by simp⟩

/-- No item is there twice. -/
theorem pairwise (h : Proper type items) : items.Pairwise fun a b => a.eq b = false := by
  refine h.ascending.imp_of_mem ?_
  intro a b ha hb hab
  rw [Bool.eq_false_iff, Ne, ← equivalent_iff (h.noNan a ha) (h.noNan b hb)]
  rintro ⟨hno, -⟩
  rw [hab.1] at hno
  cases hno

/-- What is equal to an item is in the set. -/
theorem contains (h : Proper type items) (hitem : item.noNan = true) {a : PropertyData}
    (ha : a ∈ items) (heq : a.eq item = true) : (set type items).contains item = true := by
  have hfound := (h.ascending.find_isSome_iff notLtTrans h.noNan).mpr
    ⟨a, ha, (equivalent_iff (h.noNan a ha) hitem).mpr heq⟩
  rw [PropertyData.contains, if_pos (by rw [h.typed a ha, dataType_eq_of_eq heq]), hfound]

theorem insert (h : Proper type items) (hfits : (SetOp.add item).Fits items)
    (htype : ∀ a ∈ items, a.dataType = item.dataType) :
    Proper (some item.dataType) (insertItem item.clone items) ∧
      items ⊆ insertItem item.clone items ∧
      ∃ a ∈ insertItem item.clone items, a.eq item = true := by
  obtain ⟨hnan, hsettled, hcomparable⟩ := hfits
  rw [clone_eq_self hsettled, insertItem_eq]
  refine ⟨⟨?_, ?_, ?_⟩, ?_, ?_⟩
  · exact h.ascending.insert notLtTrans h.noNan fun a ha => comparable_iff.mpr (hcomparable a ha)
  · intro a ha
    obtain ha | ⟨rfl, -⟩ := mem_insert.mp ha
    · exact h.noNan a ha
    · exact hnan
  · intro a ha
    obtain ha | ⟨rfl, -⟩ := mem_insert.mp ha
    · rw [htype a ha]
    · rfl
  · intro a ha
    exact mem_insert.mpr (.inl ha)
  · cases hfind : find lt item items with
    | none => exact ⟨item, mem_insert.mpr (.inr ⟨rfl, hfind⟩), eq_refl hnan⟩
    | some a =>
      obtain ⟨ha, hequivalent⟩ := equivalent_of_find hfind
      exact ⟨a, mem_insert.mpr (.inl ha), (equivalent_iff (h.noNan a ha) hnan).mp hequivalent⟩

theorem erase (h : Proper type items) (item : PropertyData) (type' : Option PropertyDataType)
    (htype' : ComparatorSet.erase lt item items ≠ [] → type' = type) :
    Proper type' (ComparatorSet.erase lt item items) := by
  have hsub : ComparatorSet.erase lt item items ⊆ items := (erase_sublist item items).subset
  refine ⟨h.ascending.erase item, ?_, ?_⟩
  · intro a ha
    exact h.noNan a (hsub ha)
  · intro a ha
    rw [htype' (List.ne_nil_of_mem ha)]
    exact h.typed a (hsub ha)

end Proper

/-! ### Runs -/

section Runs

variable {type : Option PropertyDataType} {items : List PropertyData}

/-- One step: the set stays in order, an item that has been added is in it, and an item that
was in it still is, unless it has been removed. -/
theorem Proper.apply (h : Proper type items) {op : SetOp} (hfits : op.Fits items) :
    ∃ type' items', (op.apply limit (set type items)).2 = set type' items' ∧ Proper type' items' ∧
      (∀ item, op = .add item → (op.apply limit (set type items)).1 = true →
        ∃ a ∈ items', a.eq item = true) ∧
      ∀ a ∈ items, (∀ item, op = .remove item → item.eq a = false) → a ∈ items' := by
  cases op with
  | add item =>
    have hinsert := fun htype => h.insert hfits htype
    cases type with
    | none =>
      -- There are no items as long as there is no type.
      obtain ⟨hproper, hsub, hadded⟩ := hinsert fun a ha => by cases h.typed a ha
      refine ⟨_, _, rfl, hproper, ?_, fun a ha _ => hsub ha⟩
      rintro _ ⟨⟩ -
      exact hadded
    | some type =>
      by_cases htype : type = item.dataType
      · by_cases hfull : limit < items.length
        · have happly : (SetOp.add item).apply limit (set (some type) items) =
              (false, set (some type) items) := by
            rw [SetOp.apply, PropertyData.add, if_neg (not_not.mpr htype), if_pos hfull]
          rw [happly]
          exact ⟨_, _, rfl, h, by simp, fun a ha _ => ha⟩
        · obtain ⟨hproper, hsub, hadded⟩ := hinsert fun a ha => by
            rw [← htype, ← Option.some.inj (h.typed a ha)]
          have happly : (SetOp.add item).apply limit (set (some type) items) =
              (true, set (some type) (insertItem item.clone items)) := by
            rw [SetOp.apply, PropertyData.add, if_neg (not_not.mpr htype), if_neg hfull]
          rw [happly, htype]
          refine ⟨_, _, rfl, hproper, ?_, fun a ha _ => hsub ha⟩
          rintro _ ⟨⟩ -
          exact hadded
      · have happly : (SetOp.add item).apply limit (set (some type) items) =
            (false, set (some type) items) := by
          rw [SetOp.apply, PropertyData.add, if_pos htype]
        rw [happly]
        exact ⟨_, _, rfl, h, by simp, fun a ha _ => ha⟩
  | remove item =>
    have hnan : item.noNan = true := hfits
    rw [SetOp.apply, PropertyData.remove]
    split_ifs with htype hfound
    · exact ⟨_, _, rfl, h, by simp, fun a ha _ => ha⟩
    · refine ⟨_, _, rfl, h.erase item _ ?_, by simp, ?_⟩
      · intro hne
        exact if_neg (by simpa using hne)
      · intro a ha hkept
        refine (h.ascending.mem_erase notLtTrans h.noNan hnan).mpr ⟨ha, ?_⟩
        intro hequivalent
        have heq := eq_symm ((equivalent_iff (h.noNan a ha) hnan).mp hequivalent)
        rw [hkept item rfl] at heq
        cases heq
    · exact ⟨_, _, rfl, h, by simp, fun a ha _ => ha⟩

theorem setAfter_concat (ops : List SetOp) (op : SetOp) :
    setAfter limit (ops ++ [op]) = (op.apply limit (setAfter limit ops)).2 := by
  rw [setAfter, List.foldl_append]
  rfl

theorem AddsComparable.of_append {ops ops' : List SetOp}
    (h : AddsComparable limit (ops ++ ops')) : AddsComparable limit ops := by
  rintro before op after rfl
  exact h before op (after ++ ops') (by simp)

/-- An item is held for it has been added last, or because it was held before. -/
theorem Held.of_concat {ops : List SetOp} {op : SetOp} {x : PropertyData}
    (h : Held limit (ops ++ [op]) x) :
    (op = .add x ∧ (op.apply limit (setAfter limit ops)).1 = true) ∨
      Held limit ops x ∧ ∀ y, op = .remove y → y.eq x = false := by
  obtain ⟨before, after, hops, hadded, hkept⟩ := h
  obtain rfl | ⟨after, last, rfl⟩ := List.eq_nil_or_concat after
  · obtain ⟨rfl, hlast⟩ := List.append_inj' hops rfl
    obtain rfl := List.singleton_inj.mp hlast
    exact .inl ⟨rfl, hadded⟩
  · rw [List.concat_eq_append] at hops hkept
    rw [← List.cons_append, ← List.append_assoc] at hops
    obtain ⟨rfl, hlast⟩ := List.append_inj' hops rfl
    obtain rfl := List.singleton_inj.mp hlast
    refine .inr ⟨⟨before, after, rfl, hadded, ?_⟩, ?_⟩
    · intro y hy
      exact hkept y (List.mem_append_left _ hy)
    · rintro y rfl
      exact hkept y (by simp)

/-- **The whole run**: the set is in order, and what is held is in it. -/
theorem exists_proper (ops : List SetOp) (h : AddsComparable limit ops) :
    ∃ type items, setAfter limit ops = set type items ∧ Proper type items ∧
      ∀ x, Held limit ops x → x.noNan = true ∧ ∃ a ∈ items, a.eq x = true := by
  induction ops using List.reverseRecOn with
  | nil =>
    refine ⟨none, [], rfl, .nil none, ?_⟩
    rintro x ⟨before, after, hops, -⟩
    simp at hops
  | append_singleton ops op ih =>
    obtain ⟨type, items, hset, hproper, hheld⟩ := ih h.of_append
    have hfits := h ops op [] rfl
    rw [hset] at hfits
    obtain ⟨type', items', hset', hproper', hadded, hkept⟩ :=
      @Proper.apply limit _ _ hproper _ hfits
    refine ⟨type', items', by rw [setAfter_concat, hset, hset'], hproper', ?_⟩
    intro x hx
    obtain ⟨rfl, htrue⟩ | ⟨hx, hnot⟩ := hx.of_concat
    · rw [hset] at htrue
      exact ⟨hfits.1, hadded x rfl htrue⟩
    · obtain ⟨hnan, a, ha, heq⟩ := hheld x hx
      refine ⟨hnan, a, hkept a ha ?_, heq⟩
      -- What is removed is not equal to the item, and so not to what is equal to that.
      intro y hy
      rw [Bool.eq_false_iff]
      intro hya
      have hyx := hnot y hy
      rw [eq_trans hya heq] at hyx
      cases hyx

end Runs

/-- **Which values are ordered**: those that are comparable place by place.  **A set keeps
its items** in every run in which each of them is comparable with those that are there. -/
theorem orderedAndKept (limit : ℕ) :
    (∀ a b c : PropertyData, a.noNan = true → b.noNan = true →
      (OrdersThem a b c ↔ a.Comparable b)) ∧
    ∀ ops, AddsComparable limit ops → ∀ before after, ops = before ++ after →
      KeepsItems limit before := by
  constructor
  · intro a b c ha hb
    exact ordersThem_iff ha hb c
  · rintro _ h before after rfl
    obtain ⟨type, items, hset, hproper, hheld⟩ := exists_proper before h.of_append
    refine ⟨by rw [hset]; exact hproper.pairwise, ?_⟩
    intro x hx
    obtain ⟨hnan, a, ha, heq⟩ := hheld x hx
    rw [hset]
    exact hproper.contains hnan ha heq

/-- A document that another one goes on from, and two numbers in a set. -/
theorem orderedAndKept_numbers :
    OrdersThem (.document ⟨[[97]], 9⟩) (.document ⟨[[97], [98]], 9⟩) (.integer 0) ∧
      KeepsItems 9 [.add (.integer 2), .add (.integer 1)] := by
  refine ⟨((orderedAndKept 9).1 _ _ _ rfl rfl).mpr (.inl (by decide)),
    (orderedAndKept 9).2 _ ?_ _ [] (List.append_nil _).symm⟩
  intro before op after hops
  rcases before with - | ⟨first, - | ⟨second, before⟩⟩
  · obtain ⟨rfl, -⟩ := List.cons.inj hops
    exact ⟨rfl, rfl, by simp [setAfter, items]⟩
  · obtain ⟨rfl, hrest⟩ := List.cons.inj hops
    obtain ⟨rfl, -⟩ := List.cons.inj hrest
    refine ⟨rfl, rfl, ?_⟩
    intro a ha
    obtain rfl := List.mem_singleton.mp ha
    exact .inl (by decide)
  · simp at hops

/-- Each of the two documents is less than the other. -/
theorem not_ordersThem :
    ¬ OrdersThem (.document ⟨[[97], [98]], 9⟩) (.document ⟨[[98], [97]], 9⟩) (.integer 0) := by
  intro h
  have hback := h.asymm (by decide)
  revert hback
  decide

end Mutgos.DbTypes
